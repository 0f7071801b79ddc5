import FossilCore.Adapters.Filesystem
import FossilCore.Store.Contract

/-!
# The file system event store

`DurableEventStore` of `adapters/filesystem/event_store.py`, as programs of file requests, and
the proof that it refines the ledger.
-/

namespace FossilCore

open Base

/-- What `get_redaction` returns for a decoded tombstone: `None` is `null`. -/
def orNone : Json → Option Json
  | .null => none
  | v => some v

theorem orNone_of_isObj {v : Json} (h : v.isObj = true) : orNone v = some v := by
  cases v with
  | null => cases h
  | _ => rfl

namespace DurableEventStore

def event_path (event_id : String) : Path := [shardOf "evt_" event_id, fileName event_id]

def redactions : Path := ["_redactions"]

def redaction_path (event_id : String) : Path :=
  redactions ++ [shardOf "evt_" event_id, fileName event_id]

def is_redacted (event_id : String) : Fs Bool := Fs.isPresent (redaction_path event_id)

def get_redaction (event_id : String) : Fs (Option Json) := do
  let path := redaction_path event_id
  let present ← Fs.isPresent path
  if present then
    let value ← Fs.readJson path
    return orNone value
  else return none

def iter_redactions : Fs (List Json) := do
  let paths ← Fs.glob redactions
  Program.forEach Fs.readJson (sorted paths)

/-- `commit` after `prepare` and `validate_event_for_commit`. -/
def publish_candidate (candidate : Json) (temp : String) : Fs Json := do
  let event_id ← .done (eventIdText candidate)
  let redacted ← is_redacted event_id
  if redacted then .raise (.redactedCommit event_id)
  else
    let path := event_path event_id
    let data := candidate.canonical
    let published ← publish_immutable path data temp
    if published then return candidate
    else
      let existing ← Fs.readJson path
      if existing.canonical = data then return existing
      else .raise (.differentContent event_id)

def commit (config : StoreConfig) (event : Json) (uuid temp : String) : Fs Json := do
  let candidate ← .done (config.validate event uuid)
  publish_candidate candidate temp

def get (event_id : String) : Fs Json := do
  let redacted ← is_redacted event_id
  if redacted then .raise (.redactedGet event_id)
  else Fs.readJson (event_path event_id)

def redact (config : StoreConfig) (event_id : String) (r : RedactionRequest) (temp : String) :
    Fs Json := do
  if r.incomplete then .raise .incompleteRedaction
  else
    let tombstone_path := redaction_path event_id
    let present ← Fs.isPresent tombstone_path
    if present then
      let existing ← Fs.readJson tombstone_path
      let agrees ← .done (r.agrees existing)
      if agrees then return existing else .raise (.differentTombstone event_id)
    else
      let path := event_path event_id
      let event ← Fs.readJson path
      let tombstone ← .done (tombstoneFor config.sha256 event_id event r)
      let published ← publish_immutable tombstone_path tombstone.canonical temp
      if published then
        Fs.unlinkMissingOk path
        return tombstone
      else .raise (.unpublishedTombstone event_id)

def iter_events : Fs (List Json) := do
  let paths ← Fs.glob []
  Program.forEach Fs.readJson (sorted paths)

def program (config : StoreConfig) : EventCall → Fs Returned
  | .commit event uuid temp => do return .event (← commit config event.value uuid temp)
  | .get id => do return .event (← get id.text)
  | .redact id r temp => do return .event (← redact config id.text r temp)
  | .get_redaction id => do return .redaction (← get_redaction id.text)
  | .iter_events => do return .listing (← iter_events)
  | .iter_redactions => do return .listing (← iter_redactions)

def step (config : StoreConfig) (files : Files) (call : EventCall) :
    Except Error Returned × Files :=
  (program config call).run fsStep files

/-! ## The layout -/

def slotPath : EventSlot → Path
  | .event id => event_path id.text
  | .tombstone id => redaction_path id.text

theorem slotPath_inj : Function.Injective slotPath := by
  intro s t h
  cases s <;> cases t <;>
    simp only [slotPath, event_path, redaction_path, redactions, List.cons_append, List.nil_append,
      List.cons.injEq, and_true, reduceCtorEq, and_false, true_and] at h
  · rw [StableId.ext_text (StableId.fileName_inj h.2)]
  · rw [StableId.ext_text (StableId.fileName_inj h.2)]

def layout : Layout EventSlot Path := ⟨slotPath, slotPath_inj⟩

theorem isGlobbed_event_path (text : String) : isGlobbed [] (event_path text) = true := by
  simp [isGlobbed, event_path, fileName, Text.endsWith_append]

theorem isGlobbed_root_redaction_path (text : String) :
    isGlobbed [] (redaction_path text) = false := by
  simp [isGlobbed, redaction_path, redactions]

theorem isGlobbed_redaction_path (text : String) :
    isGlobbed redactions (redaction_path text) = true := by
  simp [isGlobbed, redaction_path, redactions, fileName, Text.endsWith_append]

theorem isGlobbed_redactions_event_path (text : String) :
    isGlobbed redactions (event_path text) = false := by
  simp [isGlobbed, event_path, redactions]

/-! ## Runs without faults refine the ledger -/

section Refinement

variable {config : StoreConfig} {l : Ledger} {files : Files}

theorem slotPath_eq (slot : EventSlot) :
    ∃ dir, ∃ id : EventId, slotPath slot = dir ++ [fileName id.text] := by
  cases slot with
  | event id => exact ⟨[shardOf "evt_" id.text], id, rfl⟩
  | tombstone id => exact ⟨["_redactions", shardOf "evt_" id.text], id, rfl⟩

/-- Temporary files lie outside the layout: their names begin with a dot. -/
theorem slotPath_ne_tempPath (slot slot' : EventSlot) (uuid : String) :
    slotPath slot' ≠ tempPath (slotPath slot) uuid := by
  obtain ⟨dir, id, hslot⟩ := slotPath_eq slot
  obtain ⟨dir', id', hslot'⟩ := slotPath_eq slot'
  rw [hslot, hslot', tempPath_concat]
  intro h
  have hname : fileName id'.text = "." ++ fileName id.text ++ "." ++ uuid ++ ".tmp" := by
    simpa using congrArg List.getLast? h
  have hhead := congrArg (fun s : String => s.toList.head?) hname
  obtain ⟨a, b, rest, htext, -⟩ := id'.shard_eq
  simp [fileName, String.toList_append, htext] at hhead

theorem free_temp (h : (Ledger.model config).StoredAs layout l files) (slot : EventSlot) (uuid : String) :
    files[tempPath (slotPath slot) uuid]? = none :=
  h.holds.free fun slot' => slotPath_ne_tempPath slot slot' uuid

theorem get?_event (h : (Ledger.model config).StoredAs layout l files) (id : EventId) :
    files[event_path id.text]? = l.events[id.text]?.map Json.canonical :=
  h.holds.slot (.event id)

theorem get?_tombstone (h : (Ledger.model config).StoredAs layout l files) (id : EventId) :
    files[redaction_path id.text]? = l.tombstones[id.text]?.map Json.canonical :=
  h.holds.slot (.tombstone id)

theorem run_is_redacted (h : (Ledger.model config).StoredAs layout l files) (id : EventId) :
    (is_redacted id.text).run fsStep files = (.ok l.tombstones[id.text]?.isSome, files) := by
  rw [is_redacted, run_isPresent, get?_tombstone h, Option.isSome_map]

theorem run_read_event (h : (Ledger.model config).StoredAs layout l files) {id : EventId} {e : Json}
    (he : l.events[id.text]? = some e) :
    (Fs.readJson (event_path id.text)).run fsStep files = (.ok e, files) := by
  obtain ⟨id', -, hstored⟩ := h.valid.events _ _ he
  exact run_readJson_some (by rw [get?_event h, he]; rfl) (Json.loadText_canonical hstored.wf)

theorem run_read_missing (h : (Ledger.model config).StoredAs layout l files) {id : EventId}
    (he : l.events[id.text]? = none) :
    (Fs.readJson (event_path id.text)).run fsStep files =
      (.error (.ofPython (.fileNotFoundError (pathText (event_path id.text)))), files) :=
  run_readJson_none (by rw [get?_event h, he]; rfl)

theorem run_read_tombstone (h : (Ledger.model config).StoredAs layout l files) {id : EventId} {t : Json}
    (ht : l.tombstones[id.text]? = some t) :
    (Fs.readJson (redaction_path id.text)).run fsStep files = (.ok t, files) := by
  obtain ⟨id', -, hburied⟩ := h.valid.tombstones _ _ ht
  exact run_readJson_some (by rw [get?_tombstone h, ht]; rfl) (Json.loadText_canonical hburied.wf)

theorem run_publish_slot (h : (Ledger.model config).StoredAs layout l files) (slot : EventSlot)
    (data : ByteArray) (uuid : String) :
    (publish_immutable (slotPath slot) data uuid).run fsStep files =
      match files[slotPath slot]? with
      | none => (.ok true, files.insert (slotPath slot) data)
      | some _ => (.ok false, files) := by
  have hfree := free_temp h slot uuid
  obtain ⟨dir, id, hslot⟩ := slotPath_eq slot
  rw [hslot] at hfree ⊢
  exact run_publish hfree

theorem run_get (h : (Ledger.model config).StoredAs layout l files) (id : EventId) :
    ∃ x, (get id.text).run fsStep files = (x, files) ∧ SameOutcome x (l.get id) := by
  rw [get, Program.run_bind_ok _ (run_is_redacted h id), Ledger.get]
  cases ht : l.tombstones[id.text]? with
  | some t => exact ⟨_, rfl, rfl⟩
  | none =>
      cases he : l.events[id.text]? with
      | some e => exact ⟨_, run_read_event h he, rfl⟩
      | none => exact ⟨_, run_read_missing h he, SameOutcome.missing _ _⟩

theorem run_get_redaction (h : (Ledger.model config).StoredAs layout l files) (id : EventId) :
    (get_redaction id.text).run fsStep files = (.ok l.tombstones[id.text]?, files) := by
  rw [get_redaction]
  cases ht : l.tombstones[id.text]? with
  | none =>
      have hpresent := run_is_redacted h id
      rw [ht, is_redacted] at hpresent
      rw [Program.run_bind_ok _ hpresent]
      rfl
  | some t =>
      have hpresent := run_is_redacted h id
      rw [ht, is_redacted] at hpresent
      rw [Program.run_bind_ok _ hpresent]
      obtain ⟨id', -, hburied⟩ := h.valid.tombstones _ _ ht
      refine (Program.run_bind_ok _ (run_read_tombstone h ht)).trans ?_
      rw [orNone_of_isObj hburied.isObj]
      rfl

theorem run_commit (h : (Ledger.model config).StoredAs layout l files) (event : Document)
    (uuid temp : String) :
    SameOutcome ((commit config event.value uuid temp).run fsStep files).1
        (l.commit config event uuid).1 ∧
      layout.Holds (l.commit config event uuid).2.contents
        ((commit config event.value uuid temp).run fsStep files).2 := by
  rcases Ledger.validate_cases config event uuid with
    ⟨err, herr⟩ | ⟨candidate, id, hvalidate, hstored, hid⟩
  · simp only [commit, Ledger.commit, herr, Program.bind_done_error, Program.run_done]
    exact ⟨rfl, h.holds⟩
  · simp only [commit, Ledger.commit, hvalidate, hid, Program.bind_done_ok, publish_candidate]
    rw [Program.run_bind_ok _ (run_is_redacted h id)]
    cases ht : l.tombstones[id.text]? with
    | some t => exact ⟨rfl, h.holds⟩
    | none =>
        have hpublish := run_publish_slot h (.event id) candidate.canonical temp
        simp only [slotPath, get?_event h] at hpublish
        cases he : l.events[id.text]? with
        | none =>
            rw [he] at hpublish
            simp only [Option.isSome_none, Bool.false_eq_true, if_false,
              Program.run_bind_ok _ hpublish, if_true, Program.pure_eq_done, Program.run_done]
            exact ⟨rfl, holds_insert_event h.holds id candidate⟩
        | some existing =>
            rw [he] at hpublish
            obtain ⟨id', -, hexisting⟩ := h.valid.events _ _ he
            simp only [Option.isSome_none, Bool.false_eq_true, if_false,
              Program.run_bind_ok _ hpublish, Program.run_bind_ok _ (run_read_event h he),
              Json.canonical_inj hexisting.wf hstored.wf]
            by_cases heq : existing = candidate
            · simp only [if_pos heq]
              exact ⟨rfl, h.holds⟩
            · simp only [if_neg heq]
              exact ⟨rfl, h.holds⟩

theorem run_redact (h : (Ledger.model config).StoredAs layout l files) (id : EventId) (r : RedactionRequest)
    (temp : String) :
    SameOutcome ((redact config id.text r temp).run fsStep files).1 (l.redact config id r).1 ∧
      layout.Holds (l.redact config id r).2.contents
        ((redact config id.text r temp).run fsStep files).2 := by
  rw [redact, Ledger.redact]
  by_cases hr : r.incomplete = true
  · simp only [hr, if_true]
    exact ⟨rfl, h.holds⟩
  · have hpresent := run_is_redacted h id
    rw [is_redacted] at hpresent
    rw [if_neg hr, if_neg hr, Program.run_bind_ok _ hpresent]
    cases ht : l.tombstones[id.text]? with
    | some existing =>
        simp only [Option.isSome_some, if_true, Program.run_bind_ok _ (run_read_tombstone h ht)]
        cases hagrees : r.agrees existing with
        | error err => exact ⟨rfl, h.holds⟩
        | ok agrees => cases agrees <;> exact ⟨rfl, h.holds⟩
    | none =>
        simp only [Option.isSome_none, Bool.false_eq_true, if_false]
        cases he : l.events[id.text]? with
        | none =>
            rw [Program.run_bind_error _ (run_read_missing h he)]
            exact ⟨SameOutcome.missing _ _, h.holds⟩
        | some event =>
            rw [Program.run_bind_ok _ (run_read_event h he)]
            obtain ⟨id', hid', hstored⟩ := h.valid.events _ _ he
            obtain rfl := StableId.ext_text hid'
            obtain ⟨tombstone, hfor, -⟩ := Ledger.tombstoneFor_ok (r := r) hstored
            have hpublish := run_publish_slot h (.tombstone id') tombstone.canonical temp
            simp only [slotPath, get?_tombstone h, ht] at hpublish
            simp only [hfor, Program.bind_done_ok, Program.run_bind_ok _ hpublish, if_true,
              Program.run_bind_ok _ run_unlinkMissingOk]
            exact ⟨rfl, holds_erase_event (holds_insert_tombstone h.holds id' tombstone) id'⟩

/-- The files that a listing reads, in its order, are those of the stored events. -/
theorem globbed_events (h : (Ledger.model config).StoredAs layout l files) :
    ∃ ids : List EventId,
      sorted (files.keys.filter (isGlobbed [])) = ids.map (fun id => event_path id.text) ∧
      Ledger.listing l.events = ids.filterMap (fun id => l.events[id.text]?) ∧
      ∀ id ∈ ids, ∃ e, l.events[id.text]? = some e ∧
        (Fs.readJson (event_path id.text)).run fsStep files = (.ok e, files) := by
  obtain ⟨ids, hnodup, hids, hlisting⟩ := Ledger.exists_ids (m := l.events) fun text e he =>
    (h.valid.events text e he).imp fun id hid => hid.1
  have hkeys : (files.keys.filter (isGlobbed [])).Perm (ids.map fun id => event_path id.text) := by
    have hperm := h.holds.keys_perm (isGlobbed [])
      (hnodup.map fun _ _ heq => EventSlot.event.inj heq) ?_
    · rwa [List.map_map] at hperm
    · intro slot
      cases slot with
      | event id => simp [layout, slotPath, isGlobbed_event_path, Ledger.contents, hids]
      | tombstone id => simp [layout, slotPath, isGlobbed_root_redaction_path]
  refine ⟨sortedBy (fun id : EventId => listingKey "evt_" id.text) ids, ?_, hlisting, ?_⟩
  · have hpath : (fun id : EventId => event_path id.text) =
        fun id => listingKey "evt_" id.text := rfl
    rw [sorted_eq_of_perm hkeys, hpath, sorted_map]
  · intro id hid
    obtain ⟨e, he⟩ := Option.isSome_iff_exists.mp ((hids id).mp (mem_sortedBy.mp hid))
    exact ⟨e, he, run_read_event h he⟩

theorem run_iter_events (h : (Ledger.model config).StoredAs layout l files) :
    iter_events.run fsStep files = (.ok (Ledger.listing l.events), files) := by
  obtain ⟨ids, hsorted, hlisting, hread⟩ := globbed_events h
  rw [hlisting]
  show (Program.forEach Fs.readJson (sorted (files.keys.filter (isGlobbed [])))).run fsStep files = _
  rw [hsorted]
  exact Program.run_forEach _ hread

theorem run_iter_redactions (h : (Ledger.model config).StoredAs layout l files) :
    iter_redactions.run fsStep files = (.ok (Ledger.listing l.tombstones), files) := by
  obtain ⟨ids, hnodup, hids, hlisting⟩ := Ledger.exists_ids (m := l.tombstones) fun text t ht =>
    (h.valid.tombstones text t ht).imp fun id hid => hid.1
  have hkeys : (files.keys.filter (isGlobbed redactions)).Perm
      (ids.map fun id => redaction_path id.text) := by
    have hperm := h.holds.keys_perm (isGlobbed redactions)
      (hnodup.map fun _ _ heq => EventSlot.tombstone.inj heq) ?_
    · rwa [List.map_map] at hperm
    · intro slot
      cases slot with
      | event id => simp [layout, slotPath, isGlobbed_redactions_event_path]
      | tombstone id => simp [layout, slotPath, isGlobbed_redaction_path, Ledger.contents, hids]
  have hsorted : sorted (files.keys.filter (isGlobbed redactions)) =
      (sortedBy (fun id : EventId => listingKey "evt_" id.text) ids).map
        fun id => redaction_path id.text := by
    have hsame : sortedBy (fun id : EventId => redaction_path id.text) ids =
        sortedBy (fun id : EventId => listingKey "evt_" id.text) ids := by
      refine sortedBy_congr ?_ ids
      intro a b
      rw [redaction_path, redaction_path, redactions, List.singleton_append, List.singleton_append,
        ← not_lt, ← not_lt, List.cons_lt_cons_iff]
      simp only [lt_irrefl, false_or, true_and, listingKey]
    rw [sorted_eq_of_perm hkeys, sorted_map, hsame]
  rw [hlisting]
  show (Program.forEach Fs.readJson (sorted (files.keys.filter (isGlobbed redactions)))).run
    fsStep files = _
  rw [hsorted]
  refine Program.run_forEach _ ?_
  intro id hid
  obtain ⟨t, ht⟩ := Option.isSome_iff_exists.mp ((hids id).mp (mem_sortedBy.mp hid))
  exact ⟨t, ht, run_read_tombstone h ht⟩

/-- Each call answers as the ledger does and leaves its bytes in the files. -/
theorem refines_ledger : RefinesLedger config layout (step config) := by
  intro l files call h
  cases call with
  | commit event uuid temp =>
      obtain ⟨hout, hholds⟩ := run_commit h event uuid temp
      rw [step, program, Program.run_bind_pure]
      exact ⟨hout.map _, hholds⟩
  | get id =>
      obtain ⟨x, hrun, hout⟩ := run_get h id
      rw [step, program, Program.run_bind_pure, hrun]
      exact ⟨hout.map _, h.holds⟩
  | redact id r temp =>
      obtain ⟨hout, hholds⟩ := run_redact h id r temp
      rw [step, program, Program.run_bind_pure]
      exact ⟨hout.map _, hholds⟩
  | get_redaction id =>
      rw [step, program, Program.run_bind_pure, run_get_redaction h]
      exact ⟨rfl, h.holds⟩
  | iter_events =>
      rw [step, program, Program.run_bind_pure, run_iter_events h]
      exact ⟨rfl, h.holds⟩
  | iter_redactions =>
      rw [step, program, Program.run_bind_pure, run_iter_redactions h]
      exact ⟨rfl, h.holds⟩

end Refinement

end DurableEventStore

end FossilCore
