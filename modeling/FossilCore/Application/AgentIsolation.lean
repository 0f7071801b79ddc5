import FossilCore.Application.AgentAuthority

/-!
# What a reader sees

Without a retriever, a search scans the events of the store, and a read and a lineage look one
entry up.  Each depends only on the events and the lineages of the packs that the access mounts:
a foreign event is passed over before it can reach the results or the count that ends the scan.
-/

namespace FossilCore

open Base

/-- The event is of a pack that the access mounts for reading. -/
def PackAccess.mounts (access : PackAccess) (event : Json) : Bool :=
  match event.get? "pack_id" with
  | some (.str pack_id) => decide (pack_id ∈ access.read_mounts)
  | _ => false

theorem PackAccess.mounts_iff {access : PackAccess} {event : Json} :
    access.mounts event = true ↔
      ∃ pack_id ∈ access.read_mounts, event.get? "pack_id" = some (.str pack_id) := by
  constructor
  · intro h
    unfold mounts at h
    split at h
    · next pack_id hpack => exact ⟨pack_id, of_decide_eq_true h, hpack⟩
    · cases h
  · rintro ⟨pack_id, hmem, hpack⟩
    simp [mounts, hpack, hmem]

namespace CorpusService

variable {service : CorpusService} {access : PackAccess} {context : AgentContext} {l : Ledger}
  {files : Files}

/-! ## Searching -/

/-- The loop of a search, over events instead of their files. -/
def searchEvents (service : CorpusService) (access : PackAccess) (needle : String) (limit : ℤ) :
    List Json → List Json → Except Error (List Json)
  | [], results => return results
  | event :: rest, results => do
      match ← service.searchEvent access needle event with
      | none => searchEvents service access needle limit rest results
      | some result =>
          if ((results ++ [result]).length : ℤ) ≥ limit then return results ++ [result]
          else searchEvents service access needle limit rest (results ++ [result])

theorem run_searchFiles {needle : String} {limit : ℤ} {ids : List EventId}
    (h : ∀ id ∈ ids, ∃ e, l.events[id.text]? = some e ∧
      (Fs.readJson (DurableEventStore.event_path id.text)).run fsStep files = (.ok e, files))
    (results : List Json) :
    (service.searchFiles access needle limit
        (ids.map fun id => DurableEventStore.event_path id.text) results).run fsStep files =
      (service.searchEvents access needle limit (ids.filterMap fun id => l.events[id.text]?)
        results, files) := by
  induction ids generalizing results with
  | nil => rfl
  | cons id ids ih =>
      obtain ⟨e, he, hread⟩ := h id List.mem_cons_self
      have hrest := ih fun other hother => h other (List.mem_cons_of_mem id hother)
      have hevents : (id :: ids).filterMap (fun id => l.events[id.text]?) =
          e :: ids.filterMap fun id => l.events[id.text]? := List.filterMap_cons_some he
      rw [List.map_cons, searchFiles, Program.run_bind_ok _ hread, hevents, searchEvents]
      cases hevent : service.searchEvent access needle e with
      | error err => rfl
      | ok found =>
          rw [Program.bind_done_ok]
          cases found with
          | none => exact hrest results
          | some result =>
              show (if _ then _ else _ : Fs (List Json)).run fsStep files =
                ((if _ then _ else _ : Except Error (List Json)), files)
              split_ifs
              · rfl
              · exact hrest _

/-- A foreign event is passed over. -/
theorem searchEvents_filter {needle : String} {limit : ℤ} {events : List Json}
    (h : ∀ e ∈ events, ∃ pack_id, e.get? "pack_id" = some (.str pack_id)) (results : List Json) :
    service.searchEvents access needle limit events results =
      service.searchEvents access needle limit (events.filter access.mounts) results := by
  induction events generalizing results with
  | nil => rfl
  | cons e events ih =>
      have hrest := ih fun other hother => h other (List.mem_cons_of_mem e hother)
      cases hmounts : access.mounts e with
      | true =>
          rw [List.filter_cons_of_pos hmounts, searchEvents, searchEvents]
          simp only [hrest]
      | false =>
          obtain ⟨pack_id, hpack⟩ := h e List.mem_cons_self
          have hforeign : pack_id ∉ access.read_mounts := by
            intro hmem
            rw [PackAccess.mounts_iff.mpr ⟨pack_id, hmem, hpack⟩] at hmounts
            cases hmounts
          have hnone : service.searchEvent access needle e = .ok none := by
            rw [searchEvent, Json.getItem_of_get? hpack]
            simp [inPacks, hforeign, bind, Except.bind, pure, Except.pure]
          rw [List.filter_cons_of_neg (by simp [hmounts]), searchEvents, hnone]
          exact hrest results

/-- A search without a retriever, over the events of the store. -/
def searchListing (service : CorpusService) (access : PackAccess) (context : AgentContext)
    (query : String) (limit : ℤ) (events : List Json) : Except Error (List Json) := do
  let _ ← service._authorize context "search"
  if limit < 1 ∨ limit > 100 then
    .error (.valueError "search limit must be between 1 and 100")
  else service.searchEvents access (Text.trim (service.lower query)) limit events []

theorem run_search (h : service.Stored l files) (hretriever : service.retriever = none)
    (query : String) (limit : ℤ) :
    (service.search access context query limit).run fsStep files =
      (service.searchListing access context query limit (Ledger.listing l.events), files) := by
  obtain ⟨ids, hsorted, hlisting, hread⟩ := DurableEventStore.globbed_events h
  rw [search, searchListing, hretriever]
  cases service._authorize context "search" with
  | error err => rfl
  | ok skill =>
      rw [Program.bind_done_ok]
      show (if _ then _ else _ : Fs (List Json)).run fsStep files =
        ((if _ then _ else _ : Except Error (List Json)), files)
      split_ifs
      · rfl
      · show (service.searchFiles access _ limit (sorted (files.keys.filter (isGlobbed [])))
          []).run fsStep files = _
        rw [hsorted, hlisting]
        exact run_searchFiles hread []

/-! ## Reading -/

/-- What the access shows of the stored event with the id. -/
def shown (access : PackAccess) (l : Ledger) (event_id : String) : Option Json :=
  l.events[event_id]?.filter access.mounts

theorem toOption_require_read {access : PackAccess} {e : Json} {pack_id : String}
    (hpack : e.get? "pack_id" = some (.str pack_id)) :
    ((access.require_read (.str pack_id)).map fun _ => e).toOption =
      (some e).filter access.mounts := by
  by_cases hmem : pack_id ∈ access.read_mounts
  · have hmounts : access.mounts e = true := PackAccess.mounts_iff.mpr ⟨pack_id, hmem, hpack⟩
    simp [PackAccess.require_read, inPacks, hmem, hmounts, bind, Except.bind, pure, Except.pure,
      Except.map, Except.toOption, Option.filter_some]
  · have hmounts : access.mounts e = false := by
      simp [PackAccess.mounts, hpack, hmem]
    simp [PackAccess.require_read, inPacks, hmem, hmounts, bind, Except.bind, Except.map,
      Except.toOption, Option.filter_some]

/-- No file stands for a text that is not an id. -/
theorem run_get_missing (h : service.Stored l files) {event_id : String}
    (hid : ∀ id : EventId, id.text ≠ event_id) :
    ∃ err, (DurableEventStore.get event_id).run fsStep files = (.error err, files) := by
  have htomb : files[DurableEventStore.redaction_path event_id]? = none := by
    apply h.holds.free
    intro slot
    cases slot with
    | event id => simp [DurableEventStore.layout, DurableEventStore.slotPath,
        DurableEventStore.event_path, DurableEventStore.redaction_path,
        DurableEventStore.redactions]
    | tombstone id =>
        intro hpath
        have hname := congrArg List.getLast? hpath
        simp only [DurableEventStore.layout, DurableEventStore.slotPath,
          DurableEventStore.redaction_path, DurableEventStore.redactions, List.singleton_append,
          List.getLast?_cons_cons, List.getLast?_singleton, Option.some.injEq] at hname
        exact hid id (StableId.fileName_inj hname)
  have hevent : files[DurableEventStore.event_path event_id]? = none := by
    apply h.holds.free
    intro slot
    cases slot with
    | event id =>
        intro hpath
        have hname := congrArg List.getLast? hpath
        simp only [DurableEventStore.layout, DurableEventStore.slotPath,
          DurableEventStore.event_path, List.getLast?_cons_cons, List.getLast?_singleton,
          Option.some.injEq] at hname
        exact hid id (StableId.fileName_inj hname)
    | tombstone id => simp [DurableEventStore.layout, DurableEventStore.slotPath,
        DurableEventStore.event_path, DurableEventStore.redaction_path,
        DurableEventStore.redactions]
  have hpresent : (DurableEventStore.is_redacted event_id).run fsStep files = (.ok false, files) := by
    rw [DurableEventStore.is_redacted, run_isPresent, htomb]
    rfl
  rw [DurableEventStore.get, Program.run_bind_ok _ hpresent]
  exact ⟨_, run_readJson_none hevent⟩

/-- A read gives what the access shows of the stored event, or is refused. -/
theorem run_read (h : service.Stored l files) (event_id : String) :
    ((service.read access context event_id).run fsStep files).1.toOption =
      (service._authorize context "read").toOption.bind fun _ => shown access l event_id := by
  rw [read]
  cases service._authorize context "read" with
  | error err => rfl
  | ok skill =>
      rw [Program.bind_done_ok]
      show _ = shown access l event_id
      by_cases hid : ∃ id : EventId, id.text = event_id
      · obtain ⟨id, rfl⟩ := hid
        obtain ⟨x, hrun, hsame⟩ := DurableEventStore.run_get h id
        rw [shown]
        cases he : l.events[id.text]? with
        | none =>
            have hget : ∃ err, l.get id = .error err := by
              rw [Ledger.get, he]
              split_ifs
              · exact ⟨_, rfl⟩
              · exact ⟨_, rfl⟩
            obtain ⟨err, herr⟩ := hget
            rw [herr] at hsame
            obtain ⟨err', rfl⟩ := hsame.error_right
            rw [Program.run_bind_error _ hrun]
            rfl
        | some e =>
            have htomb : l.tombstones[id.text]? = none := by
              cases ht : l.tombstones[id.text]? with
              | none => rfl
              | some t =>
                  have herased := h.valid.erased id.text (by rw [ht]; rfl)
                  rw [he] at herased
                  cases herased
            have hget : l.get id = .ok e := by
              rw [Ledger.get, htomb, he]
              rfl
            rw [hget] at hsame
            obtain rfl := hsame.ok_right
            obtain ⟨id', -, hstored⟩ := h.valid.events _ e he
            have hpack := get?_pack_id hstored.accepted.envelope
            rw [Program.run_bind_ok _ hrun, Json.getItem_of_get? hpack, liftPy_ok,
              Program.bind_done_ok, ← toOption_require_read hpack]
            cases access.require_read (.str (strAt e "pack_id")) with
            | error err => rfl
            | ok u => rfl
      · have hnone : l.events[event_id]? = none := by
          apply Option.eq_none_iff_forall_ne_some.mpr
          intro e he
          obtain ⟨id, hid', -⟩ := h.valid.events _ e he
          exact hid ⟨id, hid'⟩
        obtain ⟨err, hrun⟩ := run_get_missing h fun id hid' => hid ⟨id, hid'⟩
        rw [Program.run_bind_error _ hrun, shown, hnone]
        rfl

/-! ## Lineages -/

/-- A lineage is described where the access mounts its pack, and is refused elsewhere. -/
theorem toOption_lineage (conversation_id : String) (node_id : Option String) :
    (service.lineage access context conversation_id node_id).toOption =
      (service._authorize context "lineage").toOption.bind fun _ =>
        ((service.lineages.get? conversation_id).filter
          fun entry => decide (entry.1 ∈ access.read_mounts)).bind fun entry =>
            (describeLineage conversation_id entry.1 entry.2 node_id).toOption := by
  rw [lineage]
  cases service._authorize context "lineage" with
  | error err => rfl
  | ok skill =>
      cases hentry : service.lineages.get? conversation_id with
      | none => simp [bind, Except.bind, Except.toOption]
      | some entry =>
          obtain ⟨pack_id, lineage⟩ := entry
          by_cases hmem : pack_id ∈ access.read_mounts
          · simp [PackAccess.require_read, inPacks, hmem, bind, Except.bind, pure,
              Except.pure, Except.toOption, Option.filter_some]
          · simp [PackAccess.require_read, inPacks, hmem, bind, Except.bind,
              Except.toOption, Option.filter_some]

/-! ## Two services -/

/-- The services let the same skills in and lower texts alike, and their stores and lineages agree
on the packs. -/
structure AgreeOn (packs : Finset String) (service service' : CorpusService)
    (files files' : Files) : Prop where
  skills : service.skills = service'.skills
  lower : service.lower = service'.lower
  events : ∀ e, ∀ pack_id ∈ packs, e.get? "pack_id" = some (.str pack_id) →
    (service.Lists files e ↔ service'.Lists files' e)
  lineages : ∀ conversation_id lineage, ∀ pack_id ∈ packs,
    service.lineages.get? conversation_id = some (pack_id, lineage) ↔
      service'.lineages.get? conversation_id = some (pack_id, lineage)

namespace AgreeOn

variable {service' : CorpusService} {files' : Files} {l' : Ledger}

theorem authorize (h : AgreeOn access.read_mounts service service' files files')
    (capability : String) :
    service._authorize context capability = service'._authorize context capability := by
  rw [_authorize, _authorize, h.skills]

theorem listing (h : AgreeOn access.read_mounts service service' files files')
    (hl : service.Stored l files) (hl' : service'.Stored l' files') :
    (Ledger.listing l.events).filter access.mounts =
      (Ledger.listing l'.events).filter access.mounts := by
  apply Ledger.filter_listing_eq hl.valid hl'.valid
  intro e he
  obtain ⟨pack_id, hmem, hpack⟩ := PackAccess.mounts_iff.mp he
  rw [Ledger.mem_listing, Ledger.mem_listing, ← hl.lists_iff, ← hl'.lists_iff]
  exact h.events e pack_id hmem hpack

theorem event_at (hl : service.Stored l files) (hl' : service'.Stored l' files')
    {event_id : String} {e : Json} (he : l.events[event_id]? = some e)
    (hlists : service'.Lists files' e) : l'.events[event_id]? = some e := by
  obtain ⟨text, htext⟩ := hl'.lists_iff.mp hlists
  have hsame := Ledger.textOf_event_id hl'.valid htext
  rw [Ledger.textOf_event_id hl.valid he] at hsame
  rwa [hsame]

theorem searchEvents (h : AgreeOn access.read_mounts service service' files files')
    (needle : String) (limit : ℤ) (events results : List Json) :
    service.searchEvents access needle limit events results =
      service'.searchEvents access needle limit events results := by
  have hevent : ∀ e, service.searchEvent access needle e = service'.searchEvent access needle e := by
    intro e
    rw [searchEvent, searchEvent, h.lower]
  induction events generalizing results with
  | nil => rfl
  | cons e events ih => simp only [CorpusService.searchEvents, hevent, ih]

theorem searchListing (h : AgreeOn access.read_mounts service service' files files')
    (hl : service.Stored l files) (hl' : service'.Stored l' files') (query : String) (limit : ℤ) :
    service.searchListing access context query limit (Ledger.listing l.events) =
      service'.searchListing access context query limit (Ledger.listing l'.events) := by
  have hpacks : ∀ {service : CorpusService} {l : Ledger} {files : Files}, service.Stored l files →
      ∀ e ∈ Ledger.listing l.events, ∃ pack_id, e.get? "pack_id" = some (.str pack_id) := by
    intro service l files hl e he
    obtain ⟨id, hstored, -⟩ := Ledger.storedEvent_of_mem_listing hl.valid he
    exact ⟨_, get?_pack_id hstored.accepted.envelope⟩
  rw [CorpusService.searchListing, CorpusService.searchListing, h.authorize,
    searchEvents_filter (hpacks hl), searchEvents_filter (hpacks hl'), h.listing hl hl', h.lower,
    h.searchEvents]

theorem shown (h : AgreeOn access.read_mounts service service' files files')
    (hl : service.Stored l files) (hl' : service'.Stored l' files') (event_id : String) :
    CorpusService.shown access l event_id = CorpusService.shown access l' event_id := by
  apply Option.ext
  intro e
  rw [CorpusService.shown, CorpusService.shown, Option.filter_eq_some_iff,
    Option.filter_eq_some_iff]
  constructor
  · rintro ⟨he, hmounts⟩
    obtain ⟨pack_id, hmem, hpack⟩ := PackAccess.mounts_iff.mp hmounts
    exact ⟨event_at hl hl' he ((h.events e pack_id hmem hpack).mp (hl.lists_iff.mpr ⟨_, he⟩)),
      hmounts⟩
  · rintro ⟨he, hmounts⟩
    obtain ⟨pack_id, hmem, hpack⟩ := PackAccess.mounts_iff.mp hmounts
    exact ⟨event_at hl' hl he ((h.events e pack_id hmem hpack).mpr (hl'.lists_iff.mpr ⟨_, he⟩)),
      hmounts⟩

theorem mounted_lineage (h : AgreeOn access.read_mounts service service' files files')
    (conversation_id : String) :
    ((service.lineages.get? conversation_id).filter
        fun entry => decide (entry.1 ∈ access.read_mounts)) =
      (service'.lineages.get? conversation_id).filter
        fun entry => decide (entry.1 ∈ access.read_mounts) := by
  apply Option.ext
  rintro ⟨pack_id, lineage⟩
  simp only [Option.filter_eq_some_iff, decide_eq_true_eq]
  constructor
  · rintro ⟨hentry, hmem⟩
    exact ⟨(h.lineages conversation_id lineage pack_id hmem).mp hentry, hmem⟩
  · rintro ⟨hentry, hmem⟩
    exact ⟨(h.lineages conversation_id lineage pack_id hmem).mpr hentry, hmem⟩

end AgreeOn

/-- The store that a run of store calls built. -/
def storeAfter (service : CorpusService) (calls : List EventCall) : Files :=
  Runs.after (DurableEventStore.step service.config) ∅ calls

/-- What the service answers over that store. -/
def answer (service : CorpusService) (calls : List EventCall) (call : CorpusCall) :
    Except Error Json :=
  (service.step (service.storeAfter calls) call).1

theorem stored_storeAfter (service : CorpusService) (calls : List EventCall) :
    service.Stored (DurableEventStore.ledgerAfter service.config calls)
      (service.storeAfter calls) :=
  DurableEventStore.storedAs_after calls

end CorpusService

open CorpusService

/-- A service whose session may search and read. -/
def readerService : CorpusService := { promotionService with config := .plain }

/-- A store with one event of the mounted pack, and one with an event of another pack as well. -/
def ownCalls : List EventCall := [.commit proposal "u1" "t1"]

def sharedCalls : List EventCall := ownCalls ++ [.commit squatter "u1" "t2"]

theorem ledgerAfter_ownCalls :
    DurableEventStore.ledgerAfter .plain ownCalls = Ledger.first := step_proposal

theorem ledgerAfter_sharedCalls :
    DurableEventStore.ledgerAfter .plain sharedCalls =
      { Ledger.first with
        events := Ledger.first.events.insert "evt_f7a2405d2cade34b70c159eea84b1fde"
          squatter.value } := by
  have hvalidate : StoreConfig.plain.validate squatter.value "u1" = .ok squatter.value := by
    decide +kernel
  have hid : squatter.value.get? "event_id" =
      some (.str "evt_f7a2405d2cade34b70c159eea84b1fde") := by decide +kernel
  have hfree : Ledger.first.events["evt_f7a2405d2cade34b70c159eea84b1fde"]? = none := by
    rw [Ledger.first, KeyMap.get?_insert_ne _ _ (by decide)]
    exact Std.ExtTreeMap.getElem?_empty
  rw [sharedCalls, DurableEventStore.ledgerAfter_append, ledgerAfter_ownCalls,
    Ledger.step_commit hvalidate hid Std.ExtTreeMap.getElem?_empty hfree]

theorem agree_on_own : AgreeOn targetOnly.read_mounts readerService readerService
    (readerService.storeAfter ownCalls) (readerService.storeAfter sharedCalls) where
  skills := rfl
  lower := rfl
  lineages := fun _ _ _ _ => Iff.rfl
  events := by
    intro e pack_id hmem hpack
    have hl := stored_storeAfter readerService ownCalls
    have hl' := stored_storeAfter readerService sharedCalls
    rw [hl.lists_iff, hl'.lists_iff]
    show (∃ text : String, (DurableEventStore.ledgerAfter .plain ownCalls).events[text]? = some e) ↔
      ∃ text : String, (DurableEventStore.ledgerAfter .plain sharedCalls).events[text]? = some e
    rw [ledgerAfter_ownCalls, ledgerAfter_sharedCalls]
    refine exists_congr fun text => ?_
    rw [KeyMap.get?_insert]
    split_ifs with htext
    · subst htext
      constructor
      · intro he
        rw [Ledger.first, KeyMap.get?_insert_ne _ _ (by decide)] at he
        cases Std.ExtTreeMap.getElem?_empty.symm.trans he
      · intro he
        cases he
        rw [show squatter.value.get? "pack_id" = some (.str "pack_fedcba9876543210") by
          decide +kernel] at hpack
        cases hpack
        revert hmem
        decide
    · rfl

end FossilCore
