import FossilCore.Adapters.Agreement
import FossilCore.Adapters.EventStoreCrashes
import FossilCore.Adapters.S3EventStoreCrashes

/-!
# When a redaction is complete

A redaction publishes its tombstone before it deletes the event, and a later redaction that
finds the tombstone returns at once.  So a redaction that is cut between the two stays half done
for ever; in every run without such a cut an acknowledged redaction is complete.
-/

namespace FossilCore

open Base

def proposalId : EventId := ⟨"evt_0123456789abcdef", by decide +kernel⟩

def erasure : RedactionRequest := ⟨"erasure request", "controller", "2026-01-02T00:00:00Z", none⟩

/-- A redaction that is stopped as the script says, and then made again. -/
def interrupted (script : List Program.Decision) : List (Program.Attempt EventCall) :=
  [⟨.commit proposal "u1" "t1", []⟩, ⟨.redact proposalId erasure "t2", script⟩]

def again : Program.Attempt EventCall := ⟨.redact proposalId erasure "t3", []⟩

theorem after_interrupted {κ : Type} [Ord κ]
    (attempt : KeyMap κ ByteArray → Program.Attempt EventCall →
      Option (Except Error Returned) × KeyMap κ ByteArray) (script : List Program.Decision) :
    Runs.after attempt ∅ (interrupted script) =
      (attempt (attempt ∅ ⟨.commit proposal "u1" "t1", []⟩).2
        ⟨.redact proposalId erasure "t2", script⟩).2 := rfl

theorem after_again {κ : Type} [Ord κ]
    {attempt : KeyMap κ ByteArray → Program.Attempt EventCall →
      Option (Except Error Returned) × KeyMap κ ByteArray} {script : List Program.Decision}
    {o : Option (Except Error Returned)}
    (h : attempt (Runs.after attempt ∅ (interrupted script)) again =
      (o, Runs.after attempt ∅ (interrupted script))) :
    Runs.after attempt ∅ (interrupted script ++ [again]) =
      Runs.after attempt ∅ (interrupted script) := by
  rw [Runs.after_append, Runs.after_cons, h, Runs.after_nil]

theorem validate_proposal (uuid : String) :
    StoreConfig.plain.validate proposal.value uuid = .ok proposal.value := by
  have h : StoreConfig.plain.validate proposal.value "" = .ok proposal.value := by decide +kernel
  rwa [validate_of_identified (by decide +kernel) uuid ""]

theorem storedEvent_proposal : StoredEvent .plain proposalId proposal.value where
  wf := proposal.wf
  accepted := (validate_ok (validate_proposal "")).2
  event_id := by decide +kernel

/-- The ledger after its first commit. -/
def Ledger.first : Ledger := ⟨(∅ : KeyMap String Json).insert proposalId.text proposal.value, ∅⟩

theorem step_proposal :
    (Ledger.empty.step .plain (.commit proposal "u1" "t1")).2 = Ledger.first := by
  have hid : eventIdText proposal.value = .ok proposalId.text := by decide +kernel
  simp [Ledger.step, Ledger.commit, validate_proposal, hid, Ledger.empty, Ledger.first]

theorem step_erasure : ∃ t,
    (Ledger.first.step .plain (.redact proposalId erasure "t2")).1 = .ok (.event t) := by
  obtain ⟨t, hfor, -⟩ := Ledger.tombstoneFor_ok (r := erasure) storedEvent_proposal
  have hr : erasure.incomplete = false := by decide
  refine ⟨t, ?_⟩
  simp [Ledger.step, Ledger.redact, hr, Ledger.first, hfor, Except.map]

/-- A store after its first commit. -/
theorem storedAs_first {κ : Type} [Ord κ] [Std.TransOrd κ] [Std.LawfulEqOrd κ]
    {L : Layout EventSlot κ} {step : StoreStep κ} (hrefines : RefinesLedger .plain L step) :
    (Ledger.model .plain).StoredAs L Ledger.first (step ∅ (.commit proposal "u1" "t1")).2 := by
  have hnext := hrefines.next storedAs_empty (.commit proposal "u1" "t1")
  rwa [step_proposal] at hnext

theorem allPlaced_of_storedAs {κ : Type} [Ord κ] [Std.TransOrd κ] [Std.LawfulEqOrd κ]
    {config : StoreConfig} {L : Layout EventSlot κ} {spare : κ → ByteArray → Prop} {l : Ledger}
    {m : KeyMap κ ByteArray} (h : (Ledger.model config).StoredAs L l m) :
    AllPlaced config L spare m := by
  intro k data hk
  obtain ⟨slot, rfl⟩ := h.holds.only k data hk
  rw [h.holds.slot] at hk
  cases slot with
  | event id =>
      obtain ⟨e, he, rfl⟩ := Option.map_eq_some_iff.mp hk
      obtain ⟨id', hid, hstored⟩ := h.valid.events _ e he
      obtain rfl := StableId.ext_text hid
      exact .event hstored
  | tombstone id =>
      obtain ⟨t, ht, rfl⟩ := Option.map_eq_some_iff.mp hk
      obtain ⟨id', hid, hburied⟩ := h.valid.tombstones _ t ht
      obtain rfl := StableId.ext_text hid
      exact .tombstone hburied

/-- In a run in which no redaction is cut at its deletions, an acknowledged redaction leaves no
event behind, and no event with a tombstone is listed.  In the file system a commit that is cut
after it has written its temporary file leaves the event there; where no commit is, no file of
the store holds a redacted event. -/
theorem redaction_complete (config : StoreConfig) (b : S3Backend) (paging : Paging) :
    (∀ commits attempts,
      Runs.Meets (DurableEventStore.attempt config) (DurableEventStore.Uncut config commits) ∅
        attempts →
      (∀ id r temp script t,
        Runs.Answered (DurableEventStore.attempt config) ∅ attempts ⟨.redact id r temp, script⟩
          (some (.ok t)) →
        (Runs.after (DurableEventStore.attempt config) ∅ attempts)[
            DurableEventStore.event_path id.text]? = none ∧
          (commits = true →
            Erased config (Runs.after (DurableEventStore.attempt config) ∅ attempts) id)) ∧
      ∃ es, (DurableEventStore.step config
          (Runs.after (DurableEventStore.attempt config) ∅ attempts) .iter_events).1 =
            .ok (.listing es) ∧
        ∀ e ∈ es, ∀ id : EventId, e.get? "event_id" = some (.str id.text) →
          (Runs.after (DurableEventStore.attempt config) ∅ attempts)[
            DurableEventStore.redaction_path id.text]? = none) ∧
    (∀ attempts,
      Runs.Meets (S3DurableEventStore.attempt config b paging)
        (S3DurableEventStore.Uncut config b paging) ∅ attempts →
      (∀ id r temp script t,
        Runs.Answered (S3DurableEventStore.attempt config b paging) ∅ attempts
          ⟨.redact id r temp, script⟩ (some (.ok t)) →
        Erased config (Runs.after (S3DurableEventStore.attempt config b paging) ∅ attempts) id) ∧
      ∃ es, (S3DurableEventStore.step config b paging
          (Runs.after (S3DurableEventStore.attempt config b paging) ∅ attempts) .iter_events).1 =
            .ok (.listing es) ∧
        ∀ e ∈ es, ∀ id : EventId, e.get? "event_id" = some (.str id.text) →
          (Runs.after (S3DurableEventStore.attempt config b paging) ∅ attempts)[
            b.key (S3DurableEventStore.redaction_key id.text)]? = none) := by
  refine ⟨?_, ?_⟩
  · intro commits attempts h
    have hsound := DurableEventStore.sound_after h
    refine ⟨?_, DurableEventStore.listed_of_sound hsound⟩
    intro id r temp script t hanswered
    have habsent := hsound.erased id (DurableEventStore.tombstone_after h hanswered)
    refine ⟨habsent, ?_⟩
    intro hcommits
    apply hsound.erased_of_absent _ habsent
    rintro path data id e ⟨-, hdata⟩
    exact hdata hcommits id e
  · intro attempts h
    have hsound := S3DurableEventStore.sound_after h
    refine ⟨?_, S3DurableEventStore.listed_of_sound hsound⟩
    intro id r temp script t hanswered
    have habsent := hsound.erased id (S3DurableEventStore.tombstone_after h hanswered)
    apply hsound.erased_of_absent _ habsent
    intro key data id e hspare
    exact hspare.elim

/-- The run of the sample commit and an undisturbed redaction. -/
theorem redaction_complete_on_proposal :
    Erased .plain (Runs.after (DurableEventStore.attempt .plain) ∅ (interrupted [])) proposalId ∧
      Erased .plain (Runs.after (S3DurableEventStore.attempt .plain ⟨"prod"⟩ .single) ∅
        (interrupted [])) proposalId := by
  obtain ⟨t, ht⟩ := step_erasure
  have hboth := redaction_complete .plain ⟨"prod"⟩ .single
  constructor
  · refine ((hboth.1 true (interrupted []) ⟨?_, ?_, trivial⟩).1 proposalId erasure "t2" []
      (.event t) ⟨[⟨.commit proposal "u1" "t1", []⟩], [], rfl, ?_⟩).2 rfl
    · exact DurableEventStore.uncut_nil _ _ _
    · exact DurableEventStore.uncut_nil _ _ _
    · rw [Runs.after_cons, Runs.after_nil, DurableEventStore.attempt_nil,
        DurableEventStore.attempt_nil]
      exact congrArg some
        (DurableEventStore.refines_ledger.answer (storedAs_first DurableEventStore.refines_ledger) ht)
  · refine (hboth.2 (interrupted []) ⟨?_, ?_, trivial⟩).1 proposalId erasure "t2" []
      (.event t) ⟨[⟨.commit proposal "u1" "t1", []⟩], [], rfl, ?_⟩
    · exact S3DurableEventStore.uncut_nil _ _
    · exact S3DurableEventStore.uncut_nil _ _
    · rw [Runs.after_cons, Runs.after_nil, S3DurableEventStore.attempt_nil,
        S3DurableEventStore.attempt_nil]
      exact congrArg some (S3DurableEventStore.refines_ledger.answer
        (storedAs_first S3DurableEventStore.refines_ledger) ht)

theorem files_after_interrupted :
    ∃ t, Ledger.IsTombstone proposalId t ∧ erasure.agrees t = .ok true ∧
      AllPlaced .plain DurableEventStore.layout (DurableEventStore.spare fun _ => True)
        (Runs.after (DurableEventStore.attempt .plain) ∅
          (interrupted [.go, .go, .go, .go, .go, .go, .stop])) ∧
      (Runs.after (DurableEventStore.attempt .plain) ∅
        (interrupted [.go, .go, .go, .go, .go, .go, .stop]))[
          DurableEventStore.event_path proposalId.text]? = some proposal.value.canonical ∧
      (Runs.after (DurableEventStore.attempt .plain) ∅
        (interrupted [.go, .go, .go, .go, .go, .go, .stop]))[
          DurableEventStore.redaction_path proposalId.text]? = some t.canonical := by
  have hfirst : (Ledger.model .plain).StoredAs DurableEventStore.layout Ledger.first
      (DurableEventStore.attempt .plain ∅ ⟨.commit proposal "u1" "t1", []⟩).2 := by
    rw [DurableEventStore.attempt_nil]
    exact storedAs_first DurableEventStore.refines_ledger
  have hevent := DurableEventStore.get?_event hfirst proposalId
  rw [Ledger.first, KeyMap.get?_insert_self, Option.map_some] at hevent
  have htomb := DurableEventStore.get?_tombstone hfirst proposalId
  rw [Ledger.first, Std.ExtTreeMap.getElem?_empty, Option.map_none] at htomb
  have htemp := DurableEventStore.free_temp hfirst (.tombstone proposalId) "t2"
  obtain ⟨t, hburied, hagrees, hstop⟩ := DurableEventStore.attempt_stopped_redact hevent
    storedEvent_proposal htomb htemp (r := erasure) (by decide)
  refine ⟨t, hburied, hagrees, ?_⟩
  rw [after_interrupted, hstop]
  refine ⟨?_, ?_, ?_⟩
  · exact (allPlaced_of_storedAs hfirst).insert (.tombstone hburied)
  · have hne : DurableEventStore.redaction_path proposalId.text ≠
        DurableEventStore.event_path proposalId.text :=
      (event_key_ne_tombstone_key (L := DurableEventStore.layout) proposalId proposalId).symm
    rw [KeyMap.get?_insert_ne _ _ hne, hevent]
  · exact KeyMap.get?_insert_self _ _ _

theorem objects_after_interrupted :
    ∃ t, Ledger.IsTombstone proposalId t ∧ erasure.agrees t = .ok true ∧
      AllPlaced .plain (S3DurableEventStore.layout ⟨"prod"⟩) S3DurableEventStore.spare
        (Runs.after (S3DurableEventStore.attempt .plain ⟨"prod"⟩ .single) ∅
          (interrupted [.go, .go, .go, .go, .stop])) ∧
      (Runs.after (S3DurableEventStore.attempt .plain ⟨"prod"⟩ .single) ∅
        (interrupted [.go, .go, .go, .go, .stop]))[
          S3Backend.key ⟨"prod"⟩ (S3DurableEventStore.event_key proposalId.text)]? =
            some proposal.value.canonical ∧
      (Runs.after (S3DurableEventStore.attempt .plain ⟨"prod"⟩ .single) ∅
        (interrupted [.go, .go, .go, .go, .stop]))[
          S3Backend.key ⟨"prod"⟩ (S3DurableEventStore.redaction_key proposalId.text)]? =
            some t.canonical := by
  have hfirst : (Ledger.model .plain).StoredAs (S3DurableEventStore.layout ⟨"prod"⟩) Ledger.first
      (S3DurableEventStore.attempt .plain ⟨"prod"⟩ .single ∅
        ⟨.commit proposal "u1" "t1", []⟩).2 := by
    rw [S3DurableEventStore.attempt_nil]
    exact storedAs_first S3DurableEventStore.refines_ledger
  have hevent := S3DurableEventStore.get?_event hfirst proposalId
  rw [Ledger.first, KeyMap.get?_insert_self, Option.map_some] at hevent
  have htomb := S3DurableEventStore.get?_tombstone hfirst proposalId
  rw [Ledger.first, Std.ExtTreeMap.getElem?_empty, Option.map_none] at htomb
  obtain ⟨t, hburied, hagrees, hstop⟩ := S3DurableEventStore.attempt_stopped_redact .single "t2"
    hevent storedEvent_proposal htomb (r := erasure) (by decide)
  refine ⟨t, hburied, hagrees, ?_⟩
  rw [after_interrupted, hstop]
  refine ⟨?_, ?_, ?_⟩
  · exact (allPlaced_of_storedAs hfirst).insert (.tombstone hburied)
  · have hne : S3Backend.key ⟨"prod"⟩ (S3DurableEventStore.redaction_key proposalId.text) ≠
        S3Backend.key ⟨"prod"⟩ (S3DurableEventStore.event_key proposalId.text) :=
      (event_key_ne_tombstone_key (L := S3DurableEventStore.layout ⟨"prod"⟩)
        proposalId proposalId).symm
    rw [KeyMap.get?_insert_ne _ _ hne, hevent]
  · exact KeyMap.get?_insert_self _ _ _

/-- The repeated redaction is acknowledged, and the event is still stored and listed beside its
tombstone. -/
theorem interrupted_redaction_keeps_event :
    (∃ t es,
      (DurableEventStore.attempt .plain
        (Runs.after (DurableEventStore.attempt .plain) ∅
          (interrupted [.go, .go, .go, .go, .go, .go, .stop])) again).1 =
            some (.ok (.event t)) ∧
      (Runs.after (DurableEventStore.attempt .plain) ∅
        (interrupted [.go, .go, .go, .go, .go, .go, .stop] ++ [again]))[
          DurableEventStore.redaction_path proposalId.text]? = some t.canonical ∧
      (Runs.after (DurableEventStore.attempt .plain) ∅
        (interrupted [.go, .go, .go, .go, .go, .go, .stop] ++ [again]))[
          DurableEventStore.event_path proposalId.text]? = some proposal.value.canonical ∧
      (DurableEventStore.step .plain (Runs.after (DurableEventStore.attempt .plain) ∅
        (interrupted [.go, .go, .go, .go, .go, .go, .stop] ++ [again])) .iter_events).1 =
          .ok (.listing es) ∧
      proposal.value ∈ es) ∧
    (∃ t es,
      (S3DurableEventStore.attempt .plain ⟨"prod"⟩ .single
        (Runs.after (S3DurableEventStore.attempt .plain ⟨"prod"⟩ .single) ∅
          (interrupted [.go, .go, .go, .go, .stop])) again).1 = some (.ok (.event t)) ∧
      (Runs.after (S3DurableEventStore.attempt .plain ⟨"prod"⟩ .single) ∅
        (interrupted [.go, .go, .go, .go, .stop] ++ [again]))[
          S3Backend.key ⟨"prod"⟩ (S3DurableEventStore.redaction_key proposalId.text)]? =
            some t.canonical ∧
      (Runs.after (S3DurableEventStore.attempt .plain ⟨"prod"⟩ .single) ∅
        (interrupted [.go, .go, .go, .go, .stop] ++ [again]))[
          S3Backend.key ⟨"prod"⟩ (S3DurableEventStore.event_key proposalId.text)]? =
            some proposal.value.canonical ∧
      (S3DurableEventStore.step .plain ⟨"prod"⟩ .single
        (Runs.after (S3DurableEventStore.attempt .plain ⟨"prod"⟩ .single) ∅
          (interrupted [.go, .go, .go, .go, .stop] ++ [again])) .iter_events).1 =
            .ok (.listing es) ∧
      proposal.value ∈ es) := by
  constructor
  · obtain ⟨t, hburied, hagrees, hplaced, hevent, htomb⟩ := files_after_interrupted
    obtain ⟨es, hlisting, hmem⟩ := DurableEventStore.listing_of_placed hplaced
    have hagain := DurableEventStore.attempt_repeated_redact .plain "t3" htomb hburied hagrees
      (by decide)
    rw [after_again hagain]
    exact ⟨t, es, congrArg Prod.fst hagain, htomb, hevent, hlisting,
      (hmem _).mpr ⟨proposalId, storedEvent_proposal, hevent⟩⟩
  · obtain ⟨t, hburied, hagrees, hplaced, hevent, htomb⟩ := objects_after_interrupted
    obtain ⟨es, hlisting, hmem⟩ := S3DurableEventStore.listing_of_placed .single hplaced
    have hagain := S3DurableEventStore.attempt_repeated_redact .plain .single "t3" htomb hburied
      hagrees (by decide)
    rw [after_again hagain]
    exact ⟨t, es, congrArg Prod.fst hagain, htomb, hevent, hlisting,
      (hmem _).mpr ⟨proposalId, storedEvent_proposal, hevent⟩⟩

end FossilCore
