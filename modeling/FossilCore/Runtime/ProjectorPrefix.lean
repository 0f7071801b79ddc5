import FossilCore.Base.Runs
import FossilCore.Runtime.Projector

/-!
# The projector neither skips nor repeats an event

The events that the ledger has as applied or redacted are a prefix of the canonical order after
every cycle, and an event was added as often as the ledger has it applied: a client call that
fails takes no effect.
-/

namespace FossilCore

open Base

variable {client : Client} {adapter : GraphitiProjectionAdapter} {event : Json}
  {event_id : String} {w w' : ProjectionWorld} {status : ReceiptStatus}

/-! ## What an operation marks -/

theorem Removal.marked (h : Removal client event_id w status w') (other : String) :
    w'.ledger.marked other =
      (w.ledger.marked other || decide (event_id = other ∧ status ≠ .failed)) := by
  cases h with
  | already hredacted =>
      by_cases heq : event_id = other
      · rw [← heq, ProjectionLedger.marked, hredacted, Bool.or_true, Bool.true_or]
      · rw [decide_eq_false (fun hand => heq hand.1), Bool.or_false]
  | unmaterialized record => simp [ProjectionLedger.marked_record_redaction]
  | removed applied record uuid => simp [ProjectionLedger.marked_record_redaction]
  | _ =>
      rw [decide_eq_false (fun hand => hand.2 rfl), Bool.or_false]
      rfl

theorem Application.marked (h : Application client adapter event event_id w status w')
    (other : String) :
    w'.ledger.marked other =
      (w.ledger.marked other || decide (event_id = other ∧ status ≠ .failed)) := by
  cases h with
  | withdrawn _ _ _ _ hremoval => exact hremoval.marked other
  | redacted hredacted =>
      exact (Removal.already hredacted : Removal client event_id w .skipped w).marked other
  | already hlive hvisible happlied =>
      by_cases heq : event_id = other
      · rw [← heq, ProjectionLedger.marked, happlied, Bool.true_or, Bool.true_or]
      · rw [decide_eq_false (fun hand => heq hand.1), Bool.or_false]
  | excluded record => simp [ProjectionLedger.marked_record_redaction]
  | added record => simp [ProjectionLedger.marked_record_applied]
  | _ =>
      rw [decide_eq_false (fun hand => hand.2 rfl), Bool.or_false]
      rfl

/-! ## How often an event was added -/

def Graph.additions (graph : Graph) (event_id : String) : ℕ :=
  (graph.history.map EpisodeContent.name).count (episodeName event_id)

/-- Each event was added once when the ledger has it as applied, and never otherwise. -/
def Counted (w : ProjectionWorld) : Prop :=
  ∀ event_id, w.graph.additions event_id = if w.ledger.is_applied event_id then 1 else 0

theorem counted_fresh : Counted .fresh := fun _ => rfl

theorem episodeName_inj {a b : String} : episodeName a = episodeName b ↔ a = b := by
  rw [episodeName, episodeName]
  exact String.append_right_inj _

theorem Removal.history (h : Removal client event_id w status w') :
    w'.graph.history = w.graph.history := by
  cases h <;> rfl

theorem Removal.counted (h : Removal client event_id w status w') (hw : Counted w) :
    Counted w' := by
  intro other
  have hother := hw other
  cases h with
  | unmaterialized record =>
      rw [ProjectionLedger.is_applied_record_redaction]
      exact hother
  | removed applied record uuid =>
      rw [ProjectionLedger.is_applied_record_redaction]
      exact hother
  | _ => exact hother

theorem Application.counted (h : Application client adapter event event_id w status w')
    (hatomic : client.Atomic) (hw : Counted w) : Counted w' := by
  intro other
  have hother := hw other
  cases h with
  | withdrawn _ _ _ _ hremoval => exact hremoval.counted hw other
  | excluded record =>
      rw [ProjectionLedger.is_applied_record_redaction]
      exact hother
  | lost failure content error _ _ _ _ _ _ houtcome => exact (hatomic _ _ _ houtcome).elim
  | added record content named _ _ hnew _ hname =>
      rw [ProjectionLedger.is_applied_record_applied, Graph.additions]
      show ((w.graph.history ++ [content]).map _).count _ = _
      rw [List.map_append, List.count_append, List.map_singleton, hname]
      by_cases heq : event_id = other
      · subst heq
        rw [Graph.additions, hnew] at hother
        rw [hother, List.count_singleton_self, decide_eq_true rfl, Bool.or_true]
        rfl
      · have hne : episodeName event_id ≠ episodeName other := fun h => heq (episodeName_inj.mp h)
        rw [List.count_singleton, if_neg (by simpa using hne), decide_eq_false heq, Bool.or_false]
        exact hother
  | _ => exact hother

/-! ## Purging and scanning -/

/-- What every removal for a tombstone preserves, the purge preserves. -/
theorem purge_keeps {P : ProjectionWorld → Prop} {tombstones : List Json}
    (hstep : ∀ tombstone ∈ tombstones, ∀ w status w',
      Removal client (textOf tombstone "event_id") w status w' → P w → P w') (hw : P w) :
    P ((purge_event_redactions_async tombstones).run (projectionStep client) w).2 := by
  induction tombstones generalizing w with
  | nil => exact hw
  | cons tombstone tombstones ih =>
      have hrest := fun other hother => hstep other (List.mem_cons_of_mem tombstone hother)
      cases hid : tombstone.getItem "event_id" with
      | error exc =>
          rw [purge_event_redactions_async, hid]
          exact hw
      | ok id =>
          have htext : textOf tombstone "event_id" = id.pyStr := by
            rw [textOf, Json.getItem_ok_iff.mp hid, Option.getD_some]
          rw [purge_event_redactions_async, hid, liftPy_ok, Program.bind_done_ok, run_is_redacted]
          cases w.ledger.is_redacted id.pyStr with
          | true => exact ih hrest hw
          | false =>
              rw [if_neg (by decide)]
              obtain ⟨receipt, w', hrun, -, hremoval⟩ := run_remove_event client id.pyStr
                "durable event redaction tombstone" w
              have hw' : P w' := by
                apply hstep tombstone List.mem_cons_self w receipt.status w' _ hw
                rw [htext]
                exact hremoval
              rw [Program.run_bind_ok _ hrun, Program.run_bind_pure]
              exact ih hrest hw'

/-- An event of the list is marked only when those before it are. -/
def MarkedInOrder (ordered : List Json) (w : ProjectionWorld) : Prop :=
  ordered.Pairwise fun a b => w.ledger.marked (textOf b "event_id") = true →
    w.ledger.marked (textOf a "event_id") = true

theorem MarkedInOrder.mark {before rest : List Json} (hids : DistinctIds (before ++ event :: rest))
    (h : MarkedInOrder (before ++ event :: rest) w)
    (hbefore : ∀ e ∈ before, w.ledger.marked (textOf e "event_id") = true)
    (hmarked : ∀ other, w'.ledger.marked other =
      (w.ledger.marked other || decide (textOf event "event_id" = other))) :
    MarkedInOrder (before ++ event :: rest) w' := by
  have hkeep : ∀ text, w.ledger.marked text = true → w'.ledger.marked text = true := by
    intro text htext
    rw [hmarked, htext, Bool.true_or]
  have hevent : w'.ledger.marked (textOf event "event_id") = true := by
    rw [hmarked, decide_eq_true rfl, Bool.or_true]
  have hbefore' : ∀ e ∈ before, w'.ledger.marked (textOf e "event_id") = true :=
    fun e he => hkeep _ (hbefore e he)
  have hrest := (List.pairwise_cons.mp (List.pairwise_append.mp h).2.1).2
  have hfresh := (List.pairwise_cons.mp (List.pairwise_append.mp hids.distinct).2.1).1
  apply List.pairwise_append.mpr
  refine ⟨?_, List.pairwise_cons.mpr ⟨fun _ _ _ => hevent, ?_⟩, fun a ha _ _ _ => hbefore' a ha⟩
  · apply List.Pairwise.imp_of_mem _ (List.pairwise_append.mp h).1
    intro a b ha hb hab hb'
    exact hbefore' a ha
  · apply List.Pairwise.imp_of_mem _ hrest
    intro a b ha hb hab hb'
    rw [hmarked, decide_eq_false (hfresh b hb), Bool.or_false] at hb'
    exact hkeep _ (hab hb')

theorem scan_in_order {before rest : List Json} (hids : DistinctIds (before ++ rest))
    (h : MarkedInOrder (before ++ rest) w)
    (hbefore : ∀ e ∈ before, w.ledger.marked (textOf e "event_id") = true) :
    MarkedInOrder (before ++ rest) ((adapter.scan rest).run (projectionStep client) w).2 := by
  induction rest generalizing before w with
  | nil => exact h
  | cons event rest ih =>
      have happend : before ++ event :: rest = (before ++ [event]) ++ rest := by simp
      rw [GraphitiProjectionAdapter.scan]
      rcases adapter.run_scanEvent client event w with ⟨e, hrun⟩ |
        ⟨receipt, hrun, hstatus, hmarked⟩ |
        ⟨receipt, w', haddressed, hnew, hrun, happlication⟩
      · rw [Program.run_bind_error _ hrun]
        exact h
      · have hgo : receipt.isFailed = false := by
          rw [ProjectionReceipt.isFailed, hstatus]
          rfl
        rw [Program.run_bind_ok _ hrun, hgo, if_neg (by decide), Program.run_bind_pure]
        rw [happend] at hids h ⊢
        apply ih hids h
        intro e he
        rcases List.mem_append.mp he with he | he
        · exact hbefore e he
        · rw [List.mem_singleton.mp he]
          exact hmarked
      · rw [Program.run_bind_ok _ hrun]
        cases hfailed : receipt.isFailed with
        | true =>
            have hsame : ∀ other, w'.ledger.marked other = w.ledger.marked other := by
              intro other
              have hstatus : receipt.status = .failed := of_decide_eq_true hfailed
              rw [happlication.marked, decide_eq_false (fun hand => hand.2 hstatus), Bool.or_false]
            show MarkedInOrder (before ++ event :: rest) w'
            simp only [MarkedInOrder, hsame]
            exact h
        | false =>
            have hmarks : ∀ other, w'.ledger.marked other =
                (w.ledger.marked other || decide (textOf event "event_id" = other)) := by
              intro other
              rw [happlication.marked]
              simp only [show receipt.status ≠ .failed from of_decide_eq_false hfailed, ne_eq,
                not_false_eq_true, and_true]
            have hnext := h.mark hids hbefore hmarks
            rw [if_neg (by decide), Program.run_bind_pure]
            rw [happend] at hids hnext ⊢
            apply ih hids hnext
            intro e he
            rw [hmarks]
            rcases List.mem_append.mp he with he | he
            · rw [hbefore e he, Bool.true_or]
            · rw [List.mem_singleton.mp he, decide_eq_true rfl, Bool.or_true]

/-- What applying each of the events preserves, the scan preserves, wherever it ends. -/
theorem scan_keeps {P : ProjectionWorld → Prop} {events : List Json}
    (hstep : ∀ event ∈ events, ∀ w status w',
      w.ledger.marked (textOf event "event_id") = false →
        Application client adapter event (textOf event "event_id") w status w' → P w → P w')
    (hw : P w) : P ((adapter.scan events).run (projectionStep client) w).2 := by
  induction events generalizing w with
  | nil => exact hw
  | cons event events ih =>
      have hrest := fun e he => hstep e (List.mem_cons_of_mem event he)
      rw [GraphitiProjectionAdapter.scan]
      rcases adapter.run_scanEvent client event w with ⟨e, hrun⟩ |
        ⟨receipt, hrun, -, -⟩ | ⟨receipt, w', -, hnew, hrun, happlication⟩
      · rw [Program.run_bind_error _ hrun]
        exact hw
      · rw [Program.run_bind_ok _ hrun]
        cases receipt.isFailed with
        | true => exact hw
        | false =>
            rw [if_neg (by decide), Program.run_bind_pure]
            exact ih hrest hw
      · rw [Program.run_bind_ok _ hrun]
        have hw' := hstep event List.mem_cons_self _ _ _ hnew happlication hw
        cases receipt.isFailed with
        | true => exact hw'
        | false =>
            rw [if_neg (by decide), Program.run_bind_pure]
            exact ih hrest hw'

theorem scan_counted (hatomic : client.Atomic) {events : List Json} (hw : Counted w) :
    Counted ((adapter.scan events).run (projectionStep client) w).2 :=
  scan_keeps (fun _ _ _ _ _ _ happlication h => happlication.counted hatomic h) hw

/-! ## Cycles -/

/-- One cycle of the worker on an event store. -/
def cycleStep (client : Client) (source : EventSource) (w : ProjectionWorld)
    (adapter : GraphitiProjectionAdapter) : Except Error ProjectorCycle × ProjectionWorld :=
  (adapter.run_once_async source).run (projectionStep client) w

/-- What every removal for a tombstone and every application of an event that is not marked yet
preserve, a cycle preserves, wherever it ends. -/
theorem cycle_keeps {P : ProjectionWorld → Prop} {source : EventSource} {ordered : List Json}
    (hordered : ordered_events source.events = .ok ordered)
    (hremove : ∀ tombstone ∈ source.tombstones, ∀ w status w',
      Removal client (textOf tombstone "event_id") w status w' → P w → P w')
    (happly : ∀ event ∈ ordered, ∀ w status w',
      w.ledger.marked (textOf event "event_id") = false →
        Application client adapter event (textOf event "event_id") w status w' → P w → P w')
    (hw : P w) : P (cycleStep client source w adapter).2 := by
  have hpurge := purge_keeps hremove hw
  rw [cycleStep, GraphitiProjectionAdapter.run_once_async]
  cases hrun : (purge_event_redactions_async source.tombstones).run (projectionStep client) w with
  | mk purged w' =>
      rw [hrun] at hpurge
      cases purged with
      | error e =>
          rw [Program.run_bind_error _ hrun]
          exact hpurge
      | ok purged =>
          rw [Program.run_bind_ok _ hrun]
          cases purged.any (·.isFailed) with
          | true => exact hpurge
          | false =>
              rw [if_neg (by decide), hordered, Program.bind_done_ok, Program.run_bind_pure]
              exact scan_keeps happly hpurge

/-- The ledger and the number of additions fit the event store. -/
structure InStep (ordered : List Json) (w : ProjectionWorld) : Prop where
  marked : MarkedInOrder ordered w
  counted : Counted w

theorem InStep.cycle (hatomic : client.Atomic) {source : EventSource} {ordered : List Json}
    (hids : DistinctIds ordered)
    (hlive : ∀ tombstone ∈ source.tombstones, ∀ e ∈ ordered,
      textOf tombstone "event_id" ≠ textOf e "event_id")
    (hordered : ordered_events source.events = .ok ordered) (h : InStep ordered w) :
    InStep ordered (cycleStep client source w adapter).2 := by
  have hpurge : InStep ordered
      ((purge_event_redactions_async source.tombstones).run (projectionStep client) w).2 := by
    apply purge_keeps _ h
    intro tombstone htombstone w status w' hremoval hw
    have hsame : ∀ e ∈ ordered, w'.ledger.marked (textOf e "event_id") =
        w.ledger.marked (textOf e "event_id") := by
      intro e he
      rw [hremoval.marked, decide_eq_false fun hand => hlive tombstone htombstone e he hand.1,
        Bool.or_false]
    refine ⟨?_, hremoval.counted hw.counted⟩
    apply List.Pairwise.imp_of_mem _ hw.marked
    intro a b ha hb hab hmark
    rw [hsame b hb] at hmark
    rw [hsame a ha]
    exact hab hmark
  rw [cycleStep, GraphitiProjectionAdapter.run_once_async]
  cases hrun : (purge_event_redactions_async source.tombstones).run (projectionStep client) w with
  | mk purged w' =>
      rw [hrun] at hpurge
      cases purged with
      | error e =>
          rw [Program.run_bind_error _ hrun]
          exact hpurge
      | ok purged =>
          rw [Program.run_bind_ok _ hrun]
          cases purged.any (·.isFailed) with
          | true => exact hpurge
          | false =>
              rw [if_neg (by decide), hordered, Program.bind_done_ok, Program.run_bind_pure]
              refine ⟨?_, scan_counted hatomic hpurge.counted⟩
              have hscan : MarkedInOrder ([] ++ ordered)
                  ((adapter.scan ordered).run (projectionStep client) w').2 :=
                scan_in_order hids hpurge.marked fun e he => by cases he
              exact hscan

/-- After every run of cycles the marked events are a prefix of the canonical order, no event
was added twice, and one that is applied and not redacted was added once. -/
theorem projector_prefix (client : Client) (hatomic : client.Atomic) (source : EventSource)
    (hids : DistinctIds source.events)
    (hlive : ∀ tombstone ∈ source.tombstones, ∀ event ∈ source.events,
      textOf tombstone "event_id" ≠ textOf event "event_id")
    (adapters : List GraphitiProjectionAdapter) {ordered : List Json}
    (hordered : ordered_events source.events = .ok ordered) :
    let w := Runs.after (cycleStep client source) .fresh adapters
    (ordered.filter fun event => w.ledger.marked (textOf event "event_id")) <+: ordered ∧
      ∀ event_id, w.graph.additions event_id ≤ 1 ∧
        (w.ledger.is_applied event_id = true → w.ledger.is_redacted event_id = false →
          w.graph.additions event_id = 1) := by
  intro w
  obtain ⟨-, rfl⟩ := ordered_events_ok_iff.mp hordered
  have hperm := sortedBy_perm orderKey source.events
  have hids' : DistinctIds (sortedBy orderKey source.events) :=
    ⟨fun e he => hids.present e (hperm.mem_iff.mp he),
      (hperm.pairwise_iff fun h => h.symm).mpr hids.distinct⟩
  have hlive' : ∀ tombstone ∈ source.tombstones, ∀ e ∈ sortedBy orderKey source.events,
      textOf tombstone "event_id" ≠ textOf e "event_id" :=
    fun tombstone htombstone e he => hlive tombstone htombstone e (hperm.mem_iff.mp he)
  have hfresh : InStep (sortedBy orderKey source.events) .fresh := by
    refine ⟨?_, counted_fresh⟩
    apply List.pairwise_of_forall
    intro a b hb
    cases hb
  have hw : InStep (sortedBy orderKey source.events) w :=
    Runs.invariant hfresh fun _ adapter _ h => h.cycle hatomic hids' hlive' hordered
  refine ⟨filter_isPrefix hw.marked, ?_⟩
  intro event_id
  rw [hw.counted event_id]
  constructor
  · split <;> omega
  · intro happlied hredacted
    rw [happlied, if_pos rfl]

theorem projector_prefix_of_two :
    let source := ⟨[notedAt "evt_0000000000000001" "2026-01-01T00:00:00Z",
      notedAt "evt_0000000000000002" "2026-01-02T00:00:00Z"], []⟩
    let w := Runs.after (cycleStep .reliable source) .fresh [.plain, .plain]
    (source.events.filter fun event => w.ledger.marked (textOf event "event_id")) <+:
        source.events ∧
      ∀ event_id, w.graph.additions event_id ≤ 1 ∧
        (w.ledger.is_applied event_id = true → w.ledger.is_redacted event_id = false →
          w.graph.additions event_id = 1) := by
  intro source
  have hids : DistinctIds source.events := by
    refine ⟨?_, by decide⟩
    intro event hevent
    rcases List.mem_pair.mp hevent with rfl | rfl
    · exact ⟨_, rfl⟩
    · exact ⟨_, rfl⟩
  have hordered : ordered_events source.events = .ok source.events := by
    apply ordered_events_ok_iff.mpr
    constructor
    · intro event hevent
      rcases List.mem_pair.mp hevent with rfl | rfl
      · exact keyed_notedAt _ _
      · exact keyed_notedAt _ _
    · exact (sortedBy_of_pairwise (by decide)).symm
  exact projector_prefix .reliable Client.atomic_reliable source hids
    (fun tombstone htombstone => by cases htombstone) [.plain, .plain] hordered

end FossilCore
