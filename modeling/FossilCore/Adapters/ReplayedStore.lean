import FossilCore.Adapters.RedactionCompleteness
import FossilCore.Store.Replay

/-!
# When a store replays

The gate of `commit` looks at one event at a time and a redaction looks at no other event, so a
store that was built by successful calls may not replay.  The theorems say exactly when it does:
after any run, and after a redaction of one event of a store that replayed before.
-/

namespace FossilCore

open Base

namespace DurableEventStore

variable {config : StoreConfig}

/-- The ledger that a run of calls leads to. -/
def ledgerAfter (config : StoreConfig) (calls : List EventCall) : Ledger :=
  Runs.after (Ledger.step config) .empty calls

theorem storedAs_after (calls : List EventCall) :
    (Ledger.model config).StoredAs layout (ledgerAfter config calls)
      (Runs.after (step config) ∅ calls) :=
  refines_ledger.after storedAs_empty calls

theorem valid_ledgerAfter (calls : List EventCall) : (ledgerAfter config calls).Valid config :=
  Ledger.valid_after calls

theorem iter_events_after (calls : List EventCall) :
    (step config (Runs.after (step config) ∅ calls) .iter_events).1 =
      .ok (.listing (Ledger.listing (ledgerAfter config calls).events)) :=
  refines_ledger.answer (storedAs_after calls) rfl

theorem answer_after (calls : List EventCall) {call : EventCall} {a : Returned}
    (h : ((ledgerAfter config calls).step config call).1 = .ok a) :
    (step config (Runs.after (step config) ∅ calls) call).1 = .ok a :=
  refines_ledger.answer (storedAs_after calls) h

theorem ledgerAfter_append (calls : List EventCall) (call : EventCall) :
    ledgerAfter config (calls ++ [call]) = ((ledgerAfter config calls).step config call).2 := by
  rw [ledgerAfter, Runs.after_append]
  rfl

end DurableEventStore

open DurableEventStore

/-- The events of a store always have a canonical order, and they replay exactly when each meets
the lifecycle rules in the state that the events before it in this order lead to. -/
theorem store_replays_iff (config : StoreConfig) (calls : List EventCall) :
    ∃ es log, (step config (Runs.after (step config) ∅ calls) .iter_events).1 =
        .ok (.listing es) ∧
      ordered_events es = .ok log ∧
      ((∃ state, KnowledgeState.replay log = .ok state) ↔
        ∀ before e later, log = before ++ e :: later →
          (Knowledge.of (before.map transitionOf)).Admissible (transitionOf e)) :=
  ⟨_, _, iter_events_after calls, Ledger.ordered_events_listing (valid_ledgerAfter calls),
    Ledger.replay_log_iff (valid_ledgerAfter calls)⟩

/-- A state change of a claim that nothing has proposed. -/
def orphan : Document where
  value := minimalEvent "evt_0123456789abcdef" "claim.state_changed" "2026-01-01T00:00:00Z"
    "pack_0123456789abcdef" ["claim_01"] [("to_state", .str "open")] []
  wf := by decide +kernel

theorem step_orphan :
    Ledger.empty.step .plain (.commit orphan "u1" "t1") =
      (.ok (.event orphan.value),
        ⟨(∅ : KeyMap String Json).insert "evt_0123456789abcdef" orphan.value, ∅⟩) := by
  apply Ledger.step_commit
  · decide +kernel
  · decide +kernel
  · exact Std.ExtTreeMap.getElem?_empty
  · exact Std.ExtTreeMap.getElem?_empty

/-- The gate takes the state change into an empty store, and the store does not replay. -/
theorem accepted_orphan_fails :
    ∃ es, (step .plain ∅ (.commit orphan "u1" "t1")).1 = .ok (.event orphan.value) ∧
      (step .plain (Runs.after (step .plain) ∅ [.commit orphan "u1" "t1"]) .iter_events).1 =
        .ok (.listing es) ∧
      (ordered_events es >>= KnowledgeState.replay) =
        .error (.lifecycleError "unknown claim: claim_01") := by
  have hledger : ledgerAfter .plain [.commit orphan "u1" "t1"] =
      ⟨(∅ : KeyMap String Json).insert "evt_0123456789abcdef" orphan.value, ∅⟩ :=
    congrArg Prod.snd step_orphan
  have hvalid : (ledgerAfter .plain [.commit orphan "u1" "t1"]).Valid .plain :=
    valid_ledgerAfter _
  have hlog : (ledgerAfter .plain [.commit orphan "u1" "t1"]).log = [orphan.value] := by
    apply Ledger.log_eq_of_perm hvalid _ (List.pairwise_singleton _ _)
    rw [hledger]
    exact Ledger.listing_insert_empty_perm _ _
  refine ⟨_, answer_after [] (congrArg Prod.fst step_orphan), iter_events_after _, ?_⟩
  rw [Ledger.ordered_events_listing hvalid, hlog]
  decide +kernel

/-! ## Redaction -/

/-- After a completed redaction of an event of a store that replays, the log is the earlier one
without the event, and it replays exactly when what followed the event is independent of it. -/
theorem redacted_store_replays_iff (config : StoreConfig) (calls : List EventCall) {id : EventId}
    {r : RedactionRequest} {temp : String} {es log : List Json} {e : Json} {a : Returned}
    {state : KnowledgeState}
    (hlist : (step config (Runs.after (step config) ∅ calls) .iter_events).1 = .ok (.listing es))
    (hlog : ordered_events es = .ok log) (hreplay : KnowledgeState.replay log = .ok state)
    (he : e ∈ es) (hid : e.get? "event_id" = some (.str id.text))
    (hredact : (step config (Runs.after (step config) ∅ calls) (.redact id r temp)).1 = .ok a) :
    ∃ es' before later,
      (step config (Runs.after (step config) ∅ (calls ++ [.redact id r temp])) .iter_events).1 =
        .ok (.listing es') ∧
      log = before ++ e :: later ∧ ordered_events es' = .ok (before ++ later) ∧
      ((∃ state', KnowledgeState.replay (before ++ later) = .ok state') ↔
        (Knowledge.of (before.map transitionOf)).Removable (transitionOf e)
          (later.map transitionOf)) := by
  have hvalid : (ledgerAfter config calls).Valid config := valid_ledgerAfter calls
  have hes : es = Ledger.listing (ledgerAfter config calls).events := by
    have hsame := hlist.symm.trans (iter_events_after calls)
    exact Returned.listing.inj (Except.ok.inj hsame)
  subst hes
  obtain ⟨id', hstored, hget⟩ := Ledger.storedEvent_of_mem_listing hvalid he
  obtain rfl := hstored.id_of_get? hid
  obtain ⟨before, later, hsplit, hrest⟩ := Ledger.log_after_redact hvalid hget
    (refines_ledger.answered (storedAs_after calls) hredact)
  rw [Ledger.ordered_events_listing hvalid] at hlog
  obtain rfl := Except.ok.inj hlog
  have haccepted := Ledger.accepted_of_log hvalid
  have hvalid' : (ledgerAfter config (calls ++ [.redact id r temp])).Valid config :=
    valid_ledgerAfter _
  have hlog' := Ledger.ordered_events_listing hvalid'
  rw [ledgerAfter_append, hrest, ← ledgerAfter_append] at hlog'
  rw [hsplit] at haccepted hreplay
  exact ⟨_, before, later, iter_events_after _, hsplit, hlog',
    Ledger.replay_without_iff haccepted hreplay⟩

/-- A state change of the claim that the sample proposal proposes. -/
def opening : Document where
  value := minimalEvent "evt_0123456789abcdf0" "claim.state_changed" "2026-01-02T00:00:00Z"
    "pack_0123456789abcdef" ["claim_01"] [("to_state", .str "open")] []
  wf := by decide +kernel

def openingId : EventId := ⟨"evt_0123456789abcdf0", by decide +kernel⟩

def openedCalls : List EventCall := [.commit proposal "u1" "t1", .commit opening "u2" "t2"]

theorem get?_opening : opening.value.get? "event_id" = some (.str openingId.text) := by
  decide +kernel

theorem openingId_free : Ledger.first.events[openingId.text]? = none := by
  rw [Ledger.first, KeyMap.get?_insert_ne _ _ (by decide)]
  exact Std.ExtTreeMap.getElem?_empty

theorem step_opening :
    Ledger.first.step .plain (.commit opening "u2" "t2") =
      (.ok (.event opening.value), { Ledger.first with
        events := Ledger.first.events.insert openingId.text opening.value }) := by
  apply Ledger.step_commit
  · decide +kernel
  · exact get?_opening
  · exact Std.ExtTreeMap.getElem?_empty
  · exact openingId_free

theorem ledgerAfter_opened :
    ledgerAfter .plain openedCalls =
      { Ledger.first with events := Ledger.first.events.insert openingId.text opening.value } := by
  show ((Ledger.empty.step .plain (.commit proposal "u1" "t1")).2.step .plain
    (.commit opening "u2" "t2")).2 = _
  rw [step_proposal, step_opening]

theorem log_opened : (ledgerAfter .plain openedCalls).log = [proposal.value, opening.value] := by
  have hvalid : (ledgerAfter .plain openedCalls).Valid .plain := valid_ledgerAfter _
  apply Ledger.log_eq_of_perm hvalid
  · rw [ledgerAfter_opened]
    have hperm := Ledger.listing_insert_perm (e := opening.value) openingId_free
    exact (hperm.trans ((Ledger.listing_insert_empty_perm _ _).cons _)).trans (List.Perm.swap _ _ _)
  · decide +kernel

theorem events_opened :
    (ledgerAfter .plain openedCalls).events[proposalId.text]? = some proposal.value ∧
      (ledgerAfter .plain openedCalls).events[openingId.text]? = some opening.value := by
  rw [ledgerAfter_opened]
  refine ⟨?_, KeyMap.get?_insert_self _ _ _⟩
  rw [KeyMap.get?_insert_ne _ _ (by decide)]
  exact KeyMap.get?_insert_self _ _ _

theorem redact_opened {id : EventId} {e : Json}
    (he : (ledgerAfter .plain openedCalls).events[id.text]? = some e) :
    ∃ t, ((ledgerAfter .plain openedCalls).step .plain (.redact id erasure "t3")).1 =
      .ok (.event t) := by
  have hvalid : (ledgerAfter .plain openedCalls).Valid .plain := valid_ledgerAfter _
  obtain ⟨id', hid, hstored⟩ := hvalid.events id.text e he
  obtain rfl := StableId.ext_text hid
  obtain ⟨t, hfor, -⟩ := Ledger.tombstoneFor_ok (r := erasure) hstored
  have htomb : (ledgerAfter .plain openedCalls).tombstones[id'.text]? = none := by
    rw [ledgerAfter_opened]
    exact Std.ExtTreeMap.getElem?_empty
  have hr : erasure.incomplete = false := by decide
  refine ⟨t, ?_⟩
  simp [Ledger.step, Ledger.redact, hr, htomb, he, hfor, Except.map]

theorem redacted_opening_replays_iff :
    ∃ es' before later,
      (step .plain (Runs.after (step .plain) ∅ (openedCalls ++ [.redact openingId erasure "t3"]))
        .iter_events).1 = .ok (.listing es') ∧
      [proposal.value, opening.value] = before ++ opening.value :: later ∧
      ordered_events es' = .ok (before ++ later) ∧
      ((∃ state', KnowledgeState.replay (before ++ later) = .ok state') ↔
        (Knowledge.of (before.map transitionOf)).Removable (transitionOf opening.value)
          (later.map transitionOf)) := by
  obtain ⟨t, hredact⟩ := redact_opened events_opened.2
  have hvalid : (ledgerAfter .plain openedCalls).Valid .plain := valid_ledgerAfter _
  have hlog := Ledger.ordered_events_listing hvalid
  rw [log_opened] at hlog
  exact redacted_store_replays_iff .plain openedCalls (iter_events_after _) hlog rfl
    (Ledger.mem_listing.mpr ⟨_, events_opened.2⟩) get?_opening (answer_after _ hredact)

/-- The store replays; after the redaction of the proposal the state change has no claim. -/
theorem redacted_proposal_fails :
    ∃ es state t es',
      (step .plain (Runs.after (step .plain) ∅ openedCalls) .iter_events).1 = .ok (.listing es) ∧
      (ordered_events es >>= KnowledgeState.replay) = .ok state ∧
      proposal.value ∈ es ∧
      (step .plain (Runs.after (step .plain) ∅ openedCalls)
        (.redact proposalId erasure "t3")).1 = .ok (.event t) ∧
      (step .plain (Runs.after (step .plain) ∅ (openedCalls ++ [.redact proposalId erasure "t3"]))
        .iter_events).1 = .ok (.listing es') ∧
      (ordered_events es' >>= KnowledgeState.replay) =
        .error (.lifecycleError "unknown claim: claim_01") := by
  have hvalid : (ledgerAfter .plain openedCalls).Valid .plain := valid_ledgerAfter _
  obtain ⟨t, hredact⟩ := redact_opened events_opened.1
  obtain ⟨before, later, hsplit, hrest⟩ := Ledger.log_after_redact hvalid events_opened.1 hredact
  rw [log_opened] at hsplit
  have hlater : before ++ later = [opening.value] := by
    have hne : proposal.value ≠ opening.value := by decide +kernel
    match before, hsplit with
    | [], hsplit =>
        rw [List.nil_append, List.cons.injEq] at hsplit
        exact hsplit.2.symm
    | [b], hsplit =>
        rw [List.singleton_append, List.cons.injEq, List.cons.injEq] at hsplit
        exact absurd hsplit.2.1.symm hne
    | b :: c :: before, hsplit => simp at hsplit
  have hvalid' : (ledgerAfter .plain (openedCalls ++ [.redact proposalId erasure "t3"])).Valid
    .plain := valid_ledgerAfter _
  obtain ⟨state, hstate⟩ : ∃ state,
      KnowledgeState.replay [proposal.value, opening.value] = .ok state := ⟨_, rfl⟩
  refine ⟨_, state, t, _, iter_events_after _, ?_, Ledger.mem_listing.mpr ⟨_, events_opened.1⟩,
    answer_after _ hredact, iter_events_after _, ?_⟩
  · rw [Ledger.ordered_events_listing hvalid, log_opened]
    exact hstate
  · rw [Ledger.ordered_events_listing hvalid', ledgerAfter_append, hrest, hlater]
    decide +kernel

end FossilCore
