import FossilCore.Adapters.EventStore
import FossilCore.Adapters.ObjectStore

/-!
# The S3 event store

`S3DurableEventStore` of `adapters/s3/storage.py`, as programs of client requests, and the
proof that it refines the ledger.
-/

namespace FossilCore

open Base

/-- `f"{dir}{suffix[:2]}/{id}.json"` -/
def shardedKey (dir kind text : String) : String :=
  dir ++ (shardOf kind text ++ ("/" ++ fileName text))

theorem shardedKey_inj {kind dir : String} {i j : StableId kind}
    (h : shardedKey dir kind i.text = shardedKey dir kind j.text) : i = j := by
  have hrest := Text.append_left_cancel h
  have hlist := congrArg String.toList hrest
  simp only [String.toList_append] at hlist
  have hname := (List.append_inj hlist (by
    rw [← StableId.shard, ← StableId.shard, StableId.length_shard, StableId.length_shard])).2
  have htail := (List.append_inj hname rfl).2
  exact StableId.ext_text (StableId.fileName_inj (String.toList_inj.mp htail))

theorem shardedKey_le_iff {kind : String} (dir : String) (i j : StableId kind) :
    shardedKey dir kind i.text ≤ shardedKey dir kind j.text ↔
      listingKey kind i.text ≤ listingKey kind j.text := by
  rw [← not_lt, shardedKey, shardedKey, string_append_lt_iff rfl]
  simp only [lt_irrefl, true_and, false_or, not_lt]
  exact (StableId.path_le_iff i j).symm

namespace S3DurableEventStore

variable (config : StoreConfig) (b : S3Backend)

def event_key (event_id : String) : String := shardedKey "canonical/events/" "evt_" event_id

def redaction_key (event_id : String) : String :=
  shardedKey "canonical/redactions/events/" "evt_" event_id

def is_redacted (event_id : String) : S3 Bool := b.isPresent (redaction_key event_id)

def get_redaction (event_id : String) : S3 (Option Json) := do
  let key := redaction_key event_id
  let present ← b.isPresent key
  if !present then return none
  else
    let value ← b.readJson key
    return orNone value

/-- The documents under a prefix, in the order of their keys. -/
def readSorted (relative_start : String) : S3 (List Json) := do
  let keys ← b.iter_keys relative_start
  Program.forEach b.readJson (sorted (keys.filter (Text.endsWith · ".json")))

def iter_redactions : S3 (List Json) := readSorted b "canonical/redactions/events/"

/-- `commit` after `prepare` and `validate_event_for_commit`. -/
def publish_candidate (candidate : Json) : S3 Json := do
  let event_id ← .done (eventIdText candidate)
  let redacted ← is_redacted b event_id
  if redacted then .raise (.redactedCommit event_id)
  else
    let data := candidate.canonical
    (do
      let _ ← b.put_immutable (event_key event_id) data
      return candidate : S3 Json).catching fun e =>
        if e.cls = .remoteObjectConflict then .raise (.differentContent event_id) else .raise e

def commit (event : Json) (uuid : String) : S3 Json := do
  let candidate ← .done (config.validate event uuid)
  publish_candidate b candidate

def get (event_id : String) : S3 Json := do
  let redacted ← is_redacted b event_id
  if redacted then .raise (.redactedGet event_id)
  else b.readJson (event_key event_id)

def redact (event_id : String) (r : RedactionRequest) : S3 Json := do
  if r.incomplete then .raise .incompleteRedaction
  else
    let existing ← get_redaction b event_id
    match existing with
    | some existing =>
        let agrees ← .done (r.agrees existing)
        if agrees then return existing else .raise (.differentTombstone event_id)
    | none =>
        let event ← get b event_id
        let tombstone ← .done (tombstoneFor config.sha256 event_id event r)
        let _ ← (b.put_immutable (redaction_key event_id) tombstone.canonical).catching fun e =>
          if e.cls = .remoteObjectConflict then .raise (.unpublishedTombstone event_id)
          else .raise e
        b.delete (event_key event_id)
        return tombstone

def iter_events : S3 (List Json) := readSorted b "canonical/events/"

def program : EventCall → S3 Returned
  | .commit event uuid _ => do return .event (← commit config b event.value uuid)
  | .get id => do return .event (← get b id.text)
  | .redact id r _ => do return .event (← redact config b id.text r)
  | .get_redaction id => do return .redaction (← get_redaction b id.text)
  | .iter_events => do return .listing (← iter_events b)
  | .iter_redactions => do return .listing (← iter_redactions b)

def step (paging : Paging) (objects : Objects) (call : EventCall) :
    Except Error Returned × Objects :=
  (program config b call).run (s3Step paging) objects

/-! ## The layout -/

def slotKey : EventSlot → String
  | .event id => event_key id.text
  | .tombstone id => redaction_key id.text

theorem event_key_ne_redaction_key (s t : String) : event_key s ≠ redaction_key t := by
  exact Text.append_ne_append _ _ (n := 11) (by decide) (by decide) (by decide)

theorem slotKey_inj : Function.Injective slotKey := by
  intro s t h
  cases s with
  | event i =>
      cases t with
      | event j => rw [shardedKey_inj h]
      | tombstone j => exact (event_key_ne_redaction_key _ _ h).elim
  | tombstone i =>
      cases t with
      | event j => exact (event_key_ne_redaction_key _ _ h.symm).elim
      | tombstone j => rw [shardedKey_inj h]

theorem head?_slotKey (slot : EventSlot) : (slotKey slot).toList.head? ≠ some '/' := by
  have hhead : (slotKey slot).toList.head? = some 'c' := by
    cases slot <;> exact Text.head?_append _ (by decide)
  rw [hhead]
  decide

theorem key_slotKey (slot : EventSlot) : b.key (slotKey slot) = b.head ++ slotKey slot :=
  b.key_eq (head?_slotKey slot)

def layout : Layout EventSlot String where
  key slot := b.key (slotKey slot)
  inj s t h := by
    dsimp only at h
    rw [key_slotKey, key_slotKey] at h
    exact slotKey_inj (Text.append_left_cancel h)

@[simp] theorem layout_event (id : EventId) :
    (layout b).key (.event id) = b.key (event_key id.text) := rfl

@[simp] theorem layout_tombstone (id : EventId) :
    (layout b).key (.tombstone id) = b.key (redaction_key id.text) := rfl

/-! ## Runs without faults refine the ledger -/

section Refinement

variable {config b} {paging : Paging} {l : Ledger} {objects : Objects}

theorem get?_event (h : (Ledger.model config).StoredAs (layout b) l objects) (id : EventId) :
    objects[b.key (event_key id.text)]? = l.events[id.text]?.map Json.canonical := by
  rw [← layout_event]
  exact h.holds.slot (.event id)

theorem get?_tombstone (h : (Ledger.model config).StoredAs (layout b) l objects) (id : EventId) :
    objects[b.key (redaction_key id.text)]? = l.tombstones[id.text]?.map Json.canonical := by
  rw [← layout_tombstone]
  exact h.holds.slot (.tombstone id)

theorem run_is_redacted (h : (Ledger.model config).StoredAs (layout b) l objects) (id : EventId) :
    (is_redacted b id.text).run (s3Step paging) objects =
      (.ok l.tombstones[id.text]?.isSome, objects) := by
  rw [is_redacted, S3Backend.run_isPresent, get?_tombstone h, Option.isSome_map]

theorem run_read_event (h : (Ledger.model config).StoredAs (layout b) l objects) {id : EventId} {e : Json}
    (he : l.events[id.text]? = some e) :
    (b.readJson (event_key id.text)).run (s3Step paging) objects = (.ok e, objects) := by
  obtain ⟨id', -, hstored⟩ := h.valid.events _ _ he
  exact S3Backend.run_readJson_some (by rw [get?_event h, he]; rfl)
    (Json.loadBytes_canonical hstored.wf)

theorem run_read_missing (h : (Ledger.model config).StoredAs (layout b) l objects) {id : EventId}
    (he : l.events[id.text]? = none) :
    (b.readJson (event_key id.text)).run (s3Step paging) objects =
      (.error (.ofPython (.fileNotFoundError (b.key (event_key id.text)))), objects) :=
  S3Backend.run_readJson_none (by rw [get?_event h, he]; rfl)

theorem run_read_tombstone (h : (Ledger.model config).StoredAs (layout b) l objects) {id : EventId} {t : Json}
    (ht : l.tombstones[id.text]? = some t) :
    (b.readJson (redaction_key id.text)).run (s3Step paging) objects = (.ok t, objects) := by
  obtain ⟨id', -, hburied⟩ := h.valid.tombstones _ _ ht
  exact S3Backend.run_readJson_some (by rw [get?_tombstone h, ht]; rfl)
    (Json.loadBytes_canonical hburied.wf)

variable (paging) in
theorem run_get (h : (Ledger.model config).StoredAs (layout b) l objects) (id : EventId) :
    ∃ x, (get b id.text).run (s3Step paging) objects = (x, objects) ∧
      SameOutcome x (l.get id) := by
  rw [get, Program.run_bind_ok _ (run_is_redacted h id), Ledger.get]
  cases ht : l.tombstones[id.text]? with
  | some t => exact ⟨_, rfl, rfl⟩
  | none =>
      cases he : l.events[id.text]? with
      | some e => exact ⟨_, run_read_event h he, rfl⟩
      | none => exact ⟨_, run_read_missing h he, SameOutcome.missing _ _⟩

theorem run_get_redaction (h : (Ledger.model config).StoredAs (layout b) l objects) (id : EventId) :
    (get_redaction b id.text).run (s3Step paging) objects =
      (.ok l.tombstones[id.text]?, objects) := by
  have hpresent : (is_redacted b id.text).run (s3Step paging) objects = _ := run_is_redacted h id
  rw [is_redacted] at hpresent
  rw [get_redaction, Program.run_bind_ok _ hpresent]
  cases ht : l.tombstones[id.text]? with
  | none => rfl
  | some t =>
      obtain ⟨id', -, hburied⟩ := h.valid.tombstones _ _ ht
      refine (Program.run_bind_ok _ (run_read_tombstone h ht)).trans ?_
      rw [orNone_of_isObj hburied.isObj]
      rfl

variable (paging) in
theorem run_commit (h : (Ledger.model config).StoredAs (layout b) l objects) (event : Document)
    (uuid : String) :
    SameOutcome ((commit config b event.value uuid).run (s3Step paging) objects).1
        (l.commit config event uuid).1 ∧
      (layout b).Holds (l.commit config event uuid).2.contents
        ((commit config b event.value uuid).run (s3Step paging) objects).2 := by
  rcases Ledger.validate_cases config event uuid with
    ⟨err, herr⟩ | ⟨candidate, id, hvalidate, hstored, hid⟩
  · simp only [commit, Ledger.commit, herr, Program.bind_done_error, Program.run_done]
    exact ⟨rfl, h.holds⟩
  · simp only [commit, Ledger.commit, hvalidate, hid, Program.bind_done_ok, publish_candidate]
    rw [Program.run_bind_ok _ (run_is_redacted h id)]
    cases ht : l.tombstones[id.text]? with
    | some t => exact ⟨rfl, h.holds⟩
    | none =>
        simp only [Option.isSome_none, Bool.false_eq_true, if_false]
        have hlookup := get?_event h id
        cases he : l.events[id.text]? with
        | none =>
            rw [he] at hlookup
            rw [Program.run_catching_ok _ (Program.run_bind_ok _ (S3Backend.run_put_none hlookup))]
            refine ⟨rfl, ?_⟩
            rw [← layout_event]
            exact holds_insert_event h.holds id candidate
        | some existing =>
            rw [he] at hlookup
            obtain ⟨id', -, hexisting⟩ := h.valid.events _ _ he
            have hput : (b.put_immutable (event_key id.text) candidate.canonical).run
                (s3Step paging) objects = _ := S3Backend.run_put_some hlookup
            simp only [Json.canonical_inj hexisting.wf hstored.wf] at hput
            by_cases heq : existing = candidate
            · rw [if_pos heq] at hput
              rw [Program.run_catching_ok _ (Program.run_bind_ok _ hput)]
              dsimp only
              rw [if_pos heq]
              exact ⟨heq.symm, h.holds⟩
            · rw [if_neg heq] at hput
              rw [Program.run_catching_error _ (Program.run_bind_error _ hput)]
              dsimp only
              rw [if_neg heq]
              exact ⟨rfl, h.holds⟩

variable (paging) in
theorem run_redact (h : (Ledger.model config).StoredAs (layout b) l objects) (id : EventId)
    (r : RedactionRequest) :
    SameOutcome ((redact config b id.text r).run (s3Step paging) objects).1
        (l.redact config id r).1 ∧
      (layout b).Holds (l.redact config id r).2.contents
        ((redact config b id.text r).run (s3Step paging) objects).2 := by
  rw [redact, Ledger.redact]
  by_cases hr : r.incomplete = true
  · simp only [hr, if_true]
    exact ⟨rfl, h.holds⟩
  · rw [if_neg hr, if_neg hr, Program.run_bind_ok _ (run_get_redaction h id)]
    cases ht : l.tombstones[id.text]? with
    | some existing =>
        dsimp only
        cases r.agrees existing with
        | error err => exact ⟨rfl, h.holds⟩
        | ok agrees => cases agrees <;> exact ⟨rfl, h.holds⟩
    | none =>
        obtain ⟨x, hget, hsame⟩ := run_get paging h id
        cases he : l.events[id.text]? with
        | none =>
            rw [Ledger.get, ht, he] at hsame
            obtain ⟨err, rfl⟩ := hsame.error_right
            dsimp only
            rw [Program.run_bind_error _ hget]
            exact ⟨hsame, h.holds⟩
        | some event =>
            rw [Ledger.get, ht, he] at hsame
            obtain rfl := hsame.ok_right
            obtain ⟨id', hid', hstored⟩ := h.valid.events _ _ he
            obtain rfl := StableId.ext_text hid'
            obtain ⟨tombstone, hfor, -⟩ := Ledger.tombstoneFor_ok (r := r) hstored
            have hlookup := get?_tombstone h id'
            rw [ht] at hlookup
            have hput : (b.put_immutable (redaction_key id'.text) tombstone.canonical).run
                (s3Step paging) objects = _ := S3Backend.run_put_none hlookup
            dsimp only
            rw [Program.run_bind_ok _ hget]
            simp only [hfor, Program.bind_done_ok]
            rw [Program.run_bind_ok _ (Program.run_catching_ok _ hput),
              Program.run_bind_ok _ S3Backend.run_delete]
            refine ⟨rfl, ?_⟩
            rw [← layout_event, ← layout_tombstone]
            exact holds_erase_event (holds_insert_tombstone h.holds id' tombstone) id'

/-- Reading one kind of slot in the order of the keys is reading it in the ledger's order. -/
theorem run_readSorted {dir : String} {slot : EventId → EventSlot} {m : KeyMap String Json}
    {ids : List EventId} (h : (layout b).Holds l.contents objects) (hnodup : ids.Nodup)
    (hids : ∀ id, id ∈ ids ↔ m[id.text]?.isSome) (hslot : Function.Injective slot)
    (hkey : ∀ id, slotKey (slot id) = shardedKey dir "evt_" id.text)
    (hother : ∀ s, Text.startsWith (b.key (slotKey s)) (b.key dir) = true ↔ ∃ id, s = slot id)
    (hcontents : ∀ id, (l.contents (slot id)).isSome = m[id.text]?.isSome)
    (hread : ∀ id v, m[id.text]? = some v →
      (b.readJson (slotKey (slot id))).run (s3Step paging) objects = (.ok v, objects)) :
    (readSorted b dir).run (s3Step paging) objects =
      (.ok ((sortedBy (fun id => listingKey "evt_" id.text) ids).filterMap fun id => m[id.text]?),
        objects) := by
  have hperm : (objects.keys.filter (Text.startsWith · (b.key dir))).Perm
      (ids.map fun id => b.key (slotKey (slot id))) := by
    have hslots := h.keys_perm (Text.startsWith · (b.key dir))
      (hnodup.map hslot) ?_
    · rwa [List.map_map] at hslots
    · intro s
      rw [List.mem_map]
      constructor
      · rintro ⟨id, hid, rfl⟩
        exact ⟨(hother _).mpr ⟨id, rfl⟩, by rw [hcontents]; exact (hids id).mp hid⟩
      · rintro ⟨hq, hsome⟩
        obtain ⟨id, rfl⟩ := (hother s).mp hq
        rw [hcontents] at hsome
        exact ⟨id, (hids id).mpr hsome, rfl⟩
  have hrelative : (ids.map fun id => b.key (slotKey (slot id))).filterMap b.relative? =
      ids.map fun id => slotKey (slot id) := by
    rw [List.filterMap_map]
    have hsome : b.relative? ∘ (fun id => b.key (slotKey (slot id))) =
        fun id => some (slotKey (slot id)) := by
      funext id
      simp only [Function.comp, key_slotKey, b.relative?_head]
    rw [hsome, List.filterMap_eq_map']
  have hjson : (ids.map fun id => slotKey (slot id)).filter (Text.endsWith · ".json") =
      ids.map fun id => slotKey (slot id) := by
    refine List.filter_eq_self.mpr ?_
    intro key hmem
    obtain ⟨id, -, rfl⟩ := List.mem_map.mp hmem
    have hend : slotKey (slot id) =
        dir ++ (shardOf "evt_" id.text ++ ("/" ++ id.text)) ++ ".json" := by
      simp only [hkey, shardedKey, fileName, String.append_assoc]
    rw [hend]
    exact Text.endsWith_append _ _
  have hsorted : sorted (((objects.keys.filter (Text.startsWith · (b.key dir))).filterMap
      b.relative?).filter (Text.endsWith · ".json")) =
      (sortedBy (fun id : EventId => listingKey "evt_" id.text) ids).map
        fun id => slotKey (slot id) := by
    have hkeys := (hperm.filterMap b.relative?).filter (Text.endsWith · ".json")
    rw [hrelative, hjson] at hkeys
    have hsame : sortedBy (fun id : EventId => slotKey (slot id)) ids =
        sortedBy (fun id : EventId => listingKey "evt_" id.text) ids := by
      refine sortedBy_congr ?_ ids
      intro i j
      rw [hkey, hkey]
      exact shardedKey_le_iff dir i j
    rw [sorted_eq_of_perm hkeys, sorted_map, hsame]
  rw [readSorted, Program.run_bind_ok _ S3Backend.run_iter_keys, hsorted]
  refine Program.run_forEach _ ?_
  intro id hid
  obtain ⟨v, hv⟩ := Option.isSome_iff_exists.mp ((hids id).mp (mem_sortedBy.mp hid))
  exact ⟨v, hv, hread id v hv⟩

theorem startsWith_slotKey (slot : EventSlot) (dir : String) (hdir : dir.toList.head? ≠ some '/') :
    Text.startsWith (b.key (slotKey slot)) (b.key dir) = Text.startsWith (slotKey slot) dir := by
  rw [key_slotKey, b.key_eq hdir, Text.startsWith_append_append]

theorem run_iter_events (h : (Ledger.model config).StoredAs (layout b) l objects) :
    (iter_events b).run (s3Step paging) objects = (.ok (Ledger.listing l.events), objects) := by
  obtain ⟨ids, hnodup, hids, hlisting⟩ := Ledger.exists_ids (m := l.events) fun text e he =>
    (h.valid.events text e he).imp fun id hid => hid.1
  rw [hlisting]
  refine run_readSorted h.holds hnodup hids (fun _ _ heq => EventSlot.event.inj heq)
    (fun id => rfl) ?_ (fun id => by simp [Ledger.contents]) fun id e he => run_read_event h he
  intro s
  rw [startsWith_slotKey _ _ (by decide)]
  cases s with
  | event id => simp [slotKey, event_key, shardedKey, Text.startsWith_append]
  | tombstone id =>
      simp [slotKey, redaction_key, shardedKey, Text.startsWith, String.toList_append]

theorem run_iter_redactions (h : (Ledger.model config).StoredAs (layout b) l objects) :
    (iter_redactions b).run (s3Step paging) objects =
      (.ok (Ledger.listing l.tombstones), objects) := by
  obtain ⟨ids, hnodup, hids, hlisting⟩ := Ledger.exists_ids (m := l.tombstones) fun text t ht =>
    (h.valid.tombstones text t ht).imp fun id hid => hid.1
  rw [hlisting]
  refine run_readSorted h.holds hnodup hids (fun _ _ heq => EventSlot.tombstone.inj heq)
    (fun id => rfl) ?_ (fun id => by simp [Ledger.contents]) fun id t ht => run_read_tombstone h ht
  intro s
  rw [startsWith_slotKey _ _ (by decide)]
  cases s with
  | event id =>
      simp [slotKey, event_key, shardedKey, Text.startsWith, String.toList_append]
  | tombstone id => simp [slotKey, redaction_key, shardedKey, Text.startsWith_append]

/-- Each call answers as the ledger does and leaves its bytes in the object store. -/
theorem refines_ledger : RefinesLedger config (layout b) (step config b paging) := by
  intro l objects call h
  cases call with
  | commit event uuid temp =>
      obtain ⟨hout, hholds⟩ := run_commit paging h event uuid
      rw [step, program, Program.run_bind_pure]
      exact ⟨hout.map _, hholds⟩
  | get id =>
      obtain ⟨x, hrun, hout⟩ := run_get paging h id
      rw [step, program, Program.run_bind_pure, hrun]
      exact ⟨hout.map _, h.holds⟩
  | redact id r temp =>
      obtain ⟨hout, hholds⟩ := run_redact paging h id r
      rw [step, program, Program.run_bind_pure]
      exact ⟨hout.map _, hholds⟩
  | get_redaction id =>
      rw [step, program, Program.run_bind_pure, run_get_redaction h]
      exact ⟨rfl, h.holds⟩
  | iter_events =>
      rw [step, program, Program.run_bind_pure, run_iter_events h]
      exact ⟨rfl, h.holds⟩
  | iter_redactions =>
      rw [step, program, Program.run_bind_pure, run_iter_redactions h]
      exact ⟨rfl, h.holds⟩

end Refinement

end S3DurableEventStore

end FossilCore
