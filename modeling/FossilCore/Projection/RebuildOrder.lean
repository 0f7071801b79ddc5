import FossilCore.Base.Runs
import FossilCore.Runtime.ProjectorPrefix

/-!
# The order in which rebuilds materialize events

A pass of `rebuild_async` goes on after an event that failed.  Repeated on one ledger, the passes
add the events in the order of the passes that first accept them, which is the canonical order
exactly when no event is accepted in an earlier pass than one before it.
-/

namespace FossilCore

open Base

/-- What the client answers for each event in one pass, and whether it names the UUID. -/
abbrev PassAnswers := Json → Except Error Bool

namespace Client

def answering (uuid : ℕ → String) (fresh : Function.Injective uuid) (answers : PassAnswers) :
    Client where
  uuid
  fresh
  outcome := fun _ call =>
    match call with
    | .add_episode content =>
        match answers content.episode_body with
        | .ok named => .done named
        | .error error => .failedBefore error
    | .remove_episode _ => .done true

variable {uuid : ℕ → String} {fresh : Function.Injective uuid} {answers : PassAnswers}

theorem atomic_answering : (answering uuid fresh answers).Atomic := by
  intro n call error h
  cases call with
  | remove_episode uuid => cases h
  | add_episode content =>
      simp only [answering] at h
      cases hanswer : answers content.episode_body <;> rw [hanswer] at h <;> cases h

theorem answering_done {n : ℕ} {content : EpisodeContent} {named : Bool}
    (h : (answering uuid fresh answers).outcome n (.add_episode content) = .done named) :
    (answers content.episode_body).isOk = true := by
  simp only [answering] at h
  cases hanswer : answers content.episode_body with
  | ok named => rfl
  | error error =>
      rw [hanswer] at h
      cases h

theorem answering_failed {n : ℕ} {content : EpisodeContent} {error : Error}
    (h : (answering uuid fresh answers).outcome n (.add_episode content) = .failedBefore error) :
    (answers content.episode_body).isOk = false := by
  simp only [answering] at h
  cases hanswer : answers content.episode_body with
  | error error => rfl
  | ok named =>
      rw [hanswer] at h
      cases h

end Client

namespace GraphitiProjectionAdapter

variable (adapter : GraphitiProjectionAdapter)

/-- Does the policy show the event? -/
def shows (event : Json) : Bool := (adapter.event_visible event).toOption = some true

/-- Has the event a time that the parser accepts? -/
def dates (event : Json) : Bool := (adapter.reference_time event).isOk

/-- The events that the ledger has as redacted are hidden, those it has as applied are visible
and have a time. -/
def Agrees (events : List Json) (w : ProjectionWorld) : Prop :=
  ∀ event ∈ events,
    (w.ledger.is_redacted (textOf event "event_id") = true →
      adapter.event_visible event = .ok false) ∧
    (w.ledger.is_applied (textOf event "event_id") = true →
      adapter.event_visible event = .ok true ∧ adapter.dates event = true)

/-- Does a pass with these answers add the event? -/
def takes (answers : PassAnswers) (w : ProjectionWorld) (event : Json) : Bool :=
  adapter.shows event && adapter.dates event && (answers event).isOk &&
    !w.ledger.is_applied (textOf event "event_id")

theorem shows_of_visible {event : Json} (h : adapter.event_visible event = .ok true) :
    adapter.shows event = true := by
  rw [shows, h]
  rfl

theorem visible_of_shows {event : Json} (h : adapter.shows event = true) :
    adapter.event_visible event = .ok true := by
  have htrue : (adapter.event_visible event).toOption = some true := of_decide_eq_true h
  cases hvisible : adapter.event_visible event with
  | error e =>
      rw [hvisible] at htrue
      cases htrue
  | ok visible =>
      rw [hvisible] at htrue
      rw [Option.some.inj htrue]

theorem shows_of_hidden {event : Json} (h : adapter.event_visible event = .ok false) :
    adapter.shows event = false := by
  rw [shows, h]
  rfl

end GraphitiProjectionAdapter

/-- The events added to the graph, in the order they were added. -/
def Graph.sequence (graph : Graph) : List Json := graph.history.map EpisodeContent.episode_body

section Pass

variable {uuid : ℕ → String} {fresh : Function.Injective uuid} {answers : PassAnswers}
  {adapter : GraphitiProjectionAdapter} {event : Json} {event_id : String}
  {w w' : ProjectionWorld} {status : ReceiptStatus}

/-- What applying one event of a pass does to the sequence and to the ledger. -/
structure Taken (adapter : GraphitiProjectionAdapter) (answers : PassAnswers) (event : Json)
    (w w' : ProjectionWorld) : Prop where
  sequence : w'.graph.sequence =
    w.graph.sequence ++ if adapter.takes answers w event then [event] else []
  applied : ∀ other, w'.ledger.is_applied other =
    (w.ledger.is_applied other ||
      decide (textOf event "event_id" = other) && adapter.takes answers w event)
  redacted : ∀ other, w'.ledger.is_redacted other = true → w.ledger.is_redacted other = true ∨
    textOf event "event_id" = other ∧ adapter.event_visible event = .ok false

theorem Taken.of_not_taken (h : adapter.takes answers w event = false)
    (hsequence : w'.graph.sequence = w.graph.sequence)
    (happlied : w'.ledger.applied = w.ledger.applied)
    (hredacted : ∀ other, w'.ledger.is_redacted other = true → w.ledger.is_redacted other = true ∨
      textOf event "event_id" = other ∧ adapter.event_visible event = .ok false) :
    Taken adapter answers event w w' := by
  refine ⟨?_, ?_, hredacted⟩
  · rw [h, hsequence]
    exact (List.append_nil _).symm
  · intro other
    rw [h, Bool.and_false, Bool.or_false, ProjectionLedger.is_applied, happlied]
    rfl

theorem takes_of_hidden (h : adapter.event_visible event = .ok false) :
    adapter.takes answers w event = false := by
  rw [GraphitiProjectionAdapter.takes, adapter.shows_of_hidden h]
  rfl

theorem takes_of_applied (h : w.ledger.is_applied (textOf event "event_id") = true) :
    adapter.takes answers w event = false := by
  rw [GraphitiProjectionAdapter.takes, h, Bool.not_true, Bool.and_false]

theorem takes_iff (hvisible : adapter.event_visible event = .ok true)
    (hnew : w.ledger.is_applied (textOf event "event_id") = false) :
    adapter.takes answers w event = (adapter.dates event && (answers event).isOk) := by
  rw [GraphitiProjectionAdapter.takes, adapter.shows_of_visible hvisible, hnew, Bool.true_and,
    Bool.not_false, Bool.and_true]

theorem Application.taken
    (h : Application (.answering uuid fresh answers) adapter event (textOf event "event_id") w
      status w')
    (hagrees : adapter.Agrees [event] w) : Taken adapter answers event w w' := by
  obtain ⟨hhide, hshow⟩ := hagrees event List.mem_cons_self
  cases h with
  | redacted hredacted =>
      exact .of_not_taken (takes_of_hidden (hhide hredacted)) rfl rfl fun _ h => Or.inl h
  | excluded record hlive hhidden hnew =>
      refine .of_not_taken (takes_of_hidden hhidden) rfl
        (ProjectionLedger.applied_record_redaction _ _ _) ?_
      intro other hother
      rw [ProjectionLedger.is_redacted_record_redaction, Bool.or_eq_true] at hother
      exact hother.imp_right fun heq => ⟨of_decide_eq_true heq, hhidden⟩
  | withdrawn status w' hhidden happlied hremoval =>
      have hvisible := (hshow happlied).1
      rw [hhidden] at hvisible
      cases hvisible
  | already hlive hvisible happlied =>
      exact .of_not_taken (takes_of_applied happlied) rfl rfl fun _ h => Or.inl h
  | undated failure error hlive hvisible hnew htime =>
      refine .of_not_taken ?_ rfl rfl fun _ h => Or.inl h
      rw [takes_iff hvisible hnew, GraphitiProjectionAdapter.dates, htime]
      rfl
  | refused failure content error hlive hvisible hnew htime hname hbody houtcome =>
      refine .of_not_taken ?_ rfl rfl fun _ h => Or.inl h
      have hanswer := Client.answering_failed houtcome
      rw [hbody] at hanswer
      rw [takes_iff hvisible hnew, hanswer, Bool.and_false]
  | lost failure content error _ _ _ _ _ _ houtcome =>
      exact (Client.atomic_answering _ _ _ houtcome).elim
  | added record content named hlive hvisible hnew htime hname hbody houtcome =>
      have hanswer := Client.answering_done houtcome
      rw [hbody] at hanswer
      have htakes : adapter.takes answers w event = true := by
        rw [takes_iff hvisible hnew, hanswer, GraphitiProjectionAdapter.dates, htime]
        rfl
      refine ⟨?_, ?_, ?_⟩
      · show (w.graph.history ++ [content]).map _ = _
        rw [htakes, List.map_append, List.map_singleton, hbody]
        rfl
      · intro other
        rw [ProjectionLedger.is_applied_record_applied, htakes, Bool.and_true]
      · intro other hother
        rw [ProjectionLedger.is_redacted_record_applied] at hother
        exact Or.inl hother

/-- An event that the policy shows and that did not fail is applied. -/
theorem Application.applied
    (h : Application (.answering uuid fresh answers) adapter event event_id w status w')
    (hredacted : w.ledger.is_redacted event_id = true → adapter.event_visible event = .ok false)
    (hshows : adapter.shows event = true) (hstatus : status ≠ .failed) :
    w'.ledger.is_applied event_id = true := by
  have hvisible := adapter.visible_of_shows hshows
  cases h with
  | redacted h =>
      rw [hredacted h] at hvisible
      cases hvisible
  | excluded _ _ hhidden =>
      rw [hhidden] at hvisible
      cases hvisible
  | withdrawn _ _ hhidden =>
      rw [hhidden] at hvisible
      cases hvisible
  | already _ _ happlied => exact happlied
  | added record =>
      rw [ProjectionLedger.is_applied_record_applied, decide_eq_true rfl, Bool.or_true]
  | _ => exact (hstatus rfl).elim

/-- Applying one event keeps the agreement for events with distinct ids. -/
theorem Taken.agrees {events : List Json} (h : Taken adapter answers event w w')
    (hdistinct : ∀ other ∈ events, textOf event "event_id" = textOf other "event_id" →
      other = event) (hagrees : adapter.Agrees events w) : adapter.Agrees events w' := by
  intro other hother
  obtain ⟨hhide, hshow⟩ := hagrees other hother
  constructor
  · intro hredacted
    rcases h.redacted _ hredacted with hold | ⟨heq, hhidden⟩
    · exact hhide hold
    · rw [hdistinct other hother heq]
      exact hhidden
  · intro happlied
    rw [h.applied, Bool.or_eq_true, Bool.and_eq_true] at happlied
    rcases happlied with hold | ⟨heq, htakes⟩
    · exact hshow hold
    · rw [hdistinct other hother (of_decide_eq_true heq)]
      simp only [GraphitiProjectionAdapter.takes, Bool.and_eq_true] at htakes
      exact ⟨adapter.visible_of_shows htakes.1.1.1, htakes.1.1.2⟩

/-- The events of the list were taken one after the other. -/
structure TakenAll (adapter : GraphitiProjectionAdapter) (answers : PassAnswers)
    (events : List Json) (w w' : ProjectionWorld) : Prop where
  sequence : w'.graph.sequence = w.graph.sequence ++ events.filter (adapter.takes answers w)
  applied : ∀ other, w'.ledger.is_applied other = true ↔ w.ledger.is_applied other = true ∨
    ∃ event ∈ events, textOf event "event_id" = other ∧ adapter.takes answers w event = true

theorem Taken.takes_eq (h : Taken adapter answers event w w') {other : Json}
    (hne : textOf event "event_id" ≠ textOf other "event_id") :
    adapter.takes answers w' other = adapter.takes answers w other := by
  rw [GraphitiProjectionAdapter.takes, GraphitiProjectionAdapter.takes, h.applied,
    decide_eq_false hne, Bool.false_and, Bool.or_false]

theorem TakenAll.nil : TakenAll adapter answers [] w w :=
  ⟨(List.append_nil _).symm, fun _ => by simp⟩

theorem TakenAll.cons {events : List Json} {w'' : ProjectionWorld}
    (h : Taken adapter answers event w w') (hrest : TakenAll adapter answers events w' w'')
    (hfresh : ∀ other ∈ events, textOf event "event_id" ≠ textOf other "event_id") :
    TakenAll adapter answers (event :: events) w w'' := by
  have htakes : ∀ other ∈ events, adapter.takes answers w' other = adapter.takes answers w other :=
    fun other hother => h.takes_eq (hfresh other hother)
  constructor
  · rw [hrest.sequence, h.sequence, List.filter_congr htakes, List.append_assoc, List.filter_cons]
    cases adapter.takes answers w event <;> rfl
  · intro other
    rw [hrest.applied, h.applied, Bool.or_eq_true, Bool.and_eq_true, decide_eq_true_eq, or_assoc]
    apply or_congr_right
    simp only [List.mem_cons, exists_eq_or_imp]
    apply or_congr_right
    constructor
    · rintro ⟨e, he, heq, htake⟩
      exact ⟨e, he, heq, (htakes e he).symm.trans htake⟩
    · rintro ⟨e, he, heq, htake⟩
      exact ⟨e, he, heq, (htakes e he).trans htake⟩

/-- What an event must have for no pass to raise at it. -/
def GraphitiProjectionAdapter.Reads (adapter : GraphitiProjectionAdapter) (event : Json) : Prop :=
  (∃ event_id, Addressed event event_id) ∧ ∃ visible, adapter.event_visible event = .ok visible

theorem DistinctIds.tail {events : List Json} (h : DistinctIds (event :: events)) :
    DistinctIds events :=
  ⟨fun e he => h.present e (List.mem_cons_of_mem event he), (List.pairwise_cons.mp h.distinct).2⟩

theorem DistinctIds.head {events : List Json} (h : DistinctIds (event :: events)) :
    ∀ other ∈ events, textOf event "event_id" ≠ textOf other "event_id" :=
  (List.pairwise_cons.mp h.distinct).1

theorem DistinctIds.eq_of_textOf {events : List Json} (h : DistinctIds events) {a b : Json}
    (ha : a ∈ events) (hb : b ∈ events) (heq : textOf a "event_id" = textOf b "event_id") :
    a = b :=
  List.inj_on_of_nodup_map (List.pairwise_map.mpr h.distinct) ha hb heq

theorem Addressed.text (h : Addressed event event_id) : textOf event "event_id" = event_id := by
  rw [textOf, h.event_id]
  rfl

/-- A pass over events that can all be read does not raise. -/
theorem run_pass {events : List Json} (hids : DistinctIds events)
    (hagrees : adapter.Agrees events w) (hreads : ∀ event ∈ events, adapter.Reads event) :
    ∃ receipts w', (Program.forEach adapter.apply_event_async events).run
        (projectionStep (.answering uuid fresh answers)) w = (.ok receipts, w') ∧
      TakenAll adapter answers events w w' := by
  induction events generalizing w with
  | nil => exact ⟨[], w, rfl, .nil⟩
  | cons event events ih =>
      have hone : adapter.Agrees [event] w :=
        fun e he => hagrees e (List.mem_singleton.mp he ▸ List.mem_cons_self)
      have hmore : adapter.Agrees events w := fun e he => hagrees e (List.mem_cons_of_mem event he)
      obtain ⟨⟨event_id, haddressed⟩, visible, hvisible⟩ := hreads event List.mem_cons_self
      rcases adapter.run_apply_event (.answering uuid fresh answers) event w with
        ⟨e, -, herror⟩ | ⟨event_id', receipt, w', haddressed', hrun, -, happlication⟩
      · have hraises := (herror event_id haddressed).2
        rw [hvisible] at hraises
        cases hraises
      · rw [← haddressed'.text] at happlication
        have htaken := happlication.taken hone
        have hagrees' : adapter.Agrees events w' := by
          apply htaken.agrees _ hmore
          intro other hother heq
          exact (hids.head other hother heq).elim
        obtain ⟨receipts, w'', hrest, htakenAll⟩ := ih hids.tail hagrees'
          fun e he => hreads e (List.mem_cons_of_mem event he)
        refine ⟨receipt :: receipts, w'', ?_, .cons htaken htakenAll hids.head⟩
        rw [Program.forEach, Program.run_bind_ok _ hrun, Program.run_bind_ok _ hrest]
        rfl

/-- What applying each of the events preserves, a pass preserves, whether it raises or not. -/
theorem pass_keeps {client : Client} {P : ProjectionWorld → Prop} {events : List Json}
    (hstep : ∀ event ∈ events, ∀ event_id w status w', Addressed event event_id →
      Application client adapter event event_id w status w' → P w → P w') (hw : P w) :
    P ((Program.forEach adapter.apply_event_async events).run (projectionStep client) w).2 := by
  induction events generalizing w with
  | nil => exact hw
  | cons event events ih =>
      have hrest := fun e he => hstep e (List.mem_cons_of_mem event he)
      rw [Program.forEach]
      rcases adapter.run_apply_event client event w with
        ⟨e, hrun, -⟩ | ⟨event_id, receipt, w', haddressed, hrun, -, happlication⟩
      · rw [Program.run_bind_error _ hrun]
        exact hw
      · rw [Program.run_bind_ok _ hrun, Program.run_bind_pure]
        exact ih hrest (hstep event List.mem_cons_self _ _ _ _ haddressed happlication hw)

theorem pass_agrees {ordered events : List Json} (hids : DistinctIds ordered)
    (hmem : ∀ event ∈ events, event ∈ ordered) (hagrees : adapter.Agrees ordered w) :
    adapter.Agrees ordered ((Program.forEach adapter.apply_event_async events).run
      (projectionStep (.answering uuid fresh answers)) w).2 := by
  apply pass_keeps _ hagrees
  intro event hevent event_id w status w' haddressed happlication hw
  rw [← haddressed.text] at happlication
  have htaken := happlication.taken fun e he => by
    rw [List.mem_singleton.mp he]
    exact hw event (hmem event hevent)
  apply htaken.agrees _ hw
  intro other hother heq
  exact (hids.eq_of_textOf (hmem event hevent) hother heq).symm

theorem Application.reads
    (h : Application (.answering uuid fresh answers) adapter event event_id w status w')
    (haddressed : Addressed event event_id)
    (hredacted : w.ledger.is_redacted event_id = true → adapter.event_visible event = .ok false) :
    adapter.Reads event := by
  refine ⟨⟨event_id, haddressed⟩, ?_⟩
  cases h with
  | redacted h => exact ⟨false, hredacted h⟩
  | excluded _ _ hhidden => exact ⟨false, hhidden⟩
  | withdrawn _ _ hhidden => exact ⟨false, hhidden⟩
  | already _ hvisible => exact ⟨true, hvisible⟩
  | undated _ _ _ hvisible => exact ⟨true, hvisible⟩
  | refused _ _ _ _ hvisible => exact ⟨true, hvisible⟩
  | lost _ _ _ _ hvisible => exact ⟨true, hvisible⟩
  | added _ _ _ _ hvisible => exact ⟨true, hvisible⟩

/-- What a pass that did not raise and reports no failure shows of its events. -/
theorem clean_pass {ordered events : List Json} (hids : DistinctIds ordered)
    (hmem : ∀ event ∈ events, event ∈ ordered) (hagrees : adapter.Agrees ordered w)
    {receipts : List ProjectionReceipt}
    (hrun : (Program.forEach adapter.apply_event_async events).run
      (projectionStep (.answering uuid fresh answers)) w = (.ok receipts, w'))
    (hclean : ∀ receipt ∈ receipts, receipt.isFailed = false) :
    (∀ event ∈ events, adapter.Reads event ∧
      (adapter.shows event = true → w'.ledger.is_applied (textOf event "event_id") = true)) ∧
    ∀ event_id, w.ledger.is_applied event_id = true → w'.ledger.is_applied event_id = true := by
  induction events generalizing w receipts with
  | nil =>
      cases hrun
      exact ⟨fun event hevent => (List.not_mem_nil hevent).elim, fun event_id h => h⟩
  | cons event events ih =>
      have hevent := hmem event List.mem_cons_self
      have hrest := fun e he => hmem e (List.mem_cons_of_mem event he)
      rw [Program.forEach] at hrun
      rcases adapter.run_apply_event (.answering uuid fresh answers) event w with
        ⟨e, hone, -⟩ | ⟨event_id, receipt, w₁, haddressed, hone, -, happlication⟩
      · rw [Program.run_bind_error _ hone] at hrun
        cases hrun
      · have htext := haddressed.text
        have htaken : Taken adapter answers event w w₁ := by
          apply Application.taken (htext.symm ▸ happlication)
          intro e he
          rw [List.mem_singleton.mp he]
          exact hagrees event hevent
        rw [Program.run_bind_ok _ hone] at hrun
        cases hmore : (Program.forEach adapter.apply_event_async events).run
            (projectionStep (.answering uuid fresh answers)) w₁ with
        | mk result w₂ =>
            cases result with
            | error e =>
                rw [Program.run_bind_error _ hmore] at hrun
                cases hrun
            | ok more =>
                rw [Program.run_bind_ok _ hmore] at hrun
                cases hrun
                have hagrees₁ : adapter.Agrees ordered w₁ := by
                  apply htaken.agrees _ hagrees
                  intro other hother heq
                  exact (hids.eq_of_textOf hevent hother heq).symm
                obtain ⟨hevents, hkeep⟩ := ih hrest hagrees₁ hmore
                  fun r hr => hclean r (List.mem_cons_of_mem receipt hr)
                have hredacted := (hagrees event hevent).1
                rw [htext] at hredacted
                refine ⟨?_, ?_⟩
                · intro e he
                  rcases List.mem_cons.mp he with rfl | he
                  · refine ⟨happlication.reads haddressed hredacted, fun hshows => ?_⟩
                    rw [htext]
                    apply hkeep
                    apply happlication.applied hredacted hshows
                    exact of_decide_eq_false (hclean receipt List.mem_cons_self)
                  · exact hevents e he
                · intro id hid
                  apply hkeep
                  rw [htaken.applied, hid, Bool.true_or]

end Pass

/-! ## Repeated passes -/

section Passes

variable (uuid : ℕ → String) (fresh : Function.Injective uuid)
  (adapter : GraphitiProjectionAdapter)

/-- One pass of `rebuild_async`. -/
def rebuildStep (events : List Json) (w : ProjectionWorld) (answers : PassAnswers) :
    Except Error (List ProjectionReceipt) × ProjectionWorld :=
  (adapter.rebuild_async events).run (projectionStep (.answering uuid fresh answers)) w

/-- The number of the first pass whose client accepts the event. -/
def firstAccepted (passes : List PassAnswers) (event : Json) : ℕ :=
  passes.findIdx fun answers => (answers event).isOk

variable {uuid fresh adapter}

theorem rebuild_run {events ordered : List Json} (hordered : ordered_events events = .ok ordered)
    (w : ProjectionWorld) (answers : PassAnswers) :
    rebuildStep uuid fresh adapter events w answers =
      (Program.forEach adapter.apply_event_async ordered).run
        (projectionStep (.answering uuid fresh answers)) w := by
  rw [rebuildStep, GraphitiProjectionAdapter.rebuild_async, hordered]
  rfl

theorem firstAccepted_append (passes : List PassAnswers) (answers : PassAnswers) (event : Json) :
    firstAccepted (passes ++ [answers]) event =
      if firstAccepted passes event < passes.length then firstAccepted passes event
      else passes.length + if (answers event).isOk then 0 else 1 := by
  rw [firstAccepted, List.findIdx_append, firstAccepted]
  split
  · rfl
  · rw [List.findIdx_singleton, Nat.add_comm]

/-- The events that a rebuild can materialize. -/
def GraphitiProjectionAdapter.admits (adapter : GraphitiProjectionAdapter) (event : Json) : Bool :=
  adapter.shows event && adapter.dates event

/-- The state after some passes over events that can all be read. -/
structure Rebuilt (adapter : GraphitiProjectionAdapter) (ordered : List Json)
    (passes : List PassAnswers) (w : ProjectionWorld) : Prop where
  agrees : adapter.Agrees ordered w
  sequence : w.graph.sequence = sortedBy (firstAccepted passes)
    ((ordered.filter adapter.admits).filter fun event =>
      firstAccepted passes event < passes.length)
  applied : ∀ event ∈ ordered, w.ledger.is_applied (textOf event "event_id") = true ↔
    adapter.admits event = true ∧ firstAccepted passes event < passes.length

theorem agrees_fresh (events : List Json) : adapter.Agrees events .fresh := by
  intro event hevent
  constructor
  · rintro ⟨⟩
  · rintro ⟨⟩

theorem rebuilt_fresh (ordered : List Json) : Rebuilt adapter ordered [] .fresh := by
  refine ⟨agrees_fresh ordered, ?_, ?_⟩
  · simp [sortedBy, ProjectionWorld.fresh, Graph.empty, Graph.sequence]
  · intro event hevent
    constructor
    · rintro ⟨⟩
    · rintro ⟨-, hlt⟩
      exact absurd hlt (Nat.not_lt_zero _)

theorem Rebuilt.step {events ordered : List Json} {passes : List PassAnswers}
    {answers : PassAnswers} {w : ProjectionWorld} (hids : DistinctIds ordered)
    (hordered : ordered_events events = .ok ordered)
    (hreads : ∀ event ∈ ordered, adapter.Reads event) (h : Rebuilt adapter ordered passes w) :
    Rebuilt adapter ordered (passes ++ [answers])
      (rebuildStep uuid fresh adapter events w answers).2 := by
  have hagrees : adapter.Agrees ordered (rebuildStep uuid fresh adapter events w answers).2 := by
    rw [rebuild_run hordered]
    exact pass_agrees hids (fun _ he => he) h.agrees
  obtain ⟨receipts, w', hrun, htaken⟩ : ∃ receipts w',
      (Program.forEach adapter.apply_event_async ordered).run
        (projectionStep (.answering uuid fresh answers)) w = (.ok receipts, w') ∧
      TakenAll adapter answers ordered w w' := run_pass hids h.agrees hreads
  rw [rebuild_run hordered, hrun] at hagrees ⊢
  have hlt : ∀ event, firstAccepted (passes ++ [answers]) event < passes.length ↔
      firstAccepted passes event < passes.length := by
    intro event
    rw [firstAccepted_append]
    split
    · rfl
    · omega
  have htakes : ∀ event ∈ ordered, adapter.takes answers w event =
      (adapter.admits event &&
        decide (firstAccepted (passes ++ [answers]) event = passes.length)) := by
    intro event hevent
    have happlied := h.applied event hevent
    rw [GraphitiProjectionAdapter.takes, ← GraphitiProjectionAdapter.admits, firstAccepted_append]
    cases hadmits : adapter.admits event with
    | false => rfl
    | true =>
        rw [hadmits] at happlied
        by_cases hk : firstAccepted passes event < passes.length
        · rw [happlied.mpr ⟨rfl, hk⟩, if_pos hk, decide_eq_false (by omega), Bool.not_true,
            Bool.and_false, Bool.and_false]
        · have hnew : w.ledger.is_applied (textOf event "event_id") = false := by
            rw [← Bool.not_eq_true, happlied]
            exact fun hand => hk hand.2
          rw [hnew, if_neg hk, Bool.not_false, Bool.and_true]
          cases (answers event).isOk <;> simp
  refine ⟨hagrees, ?_, ?_⟩
  · have hold : sortedBy (firstAccepted passes)
          ((ordered.filter adapter.admits).filter fun event =>
            firstAccepted passes event < passes.length) =
        sortedBy (firstAccepted (passes ++ [answers]))
          ((ordered.filter adapter.admits).filter fun event =>
            firstAccepted (passes ++ [answers]) event < passes.length) := by
      simp only [hlt]
      apply sortedBy_congr_mem
      intro event hevent
      rw [firstAccepted_append, if_pos (of_decide_eq_true (List.mem_filter.mp hevent).2)]
    rw [htaken.sequence, h.sequence, hold, List.length_append, List.length_singleton,
      sortedBy_lt_succ, List.filter_congr htakes]
    congr 1
    rw [List.filter_filter]
    apply List.filter_congr
    intro event _
    rw [Bool.and_comm]
  · intro event hevent
    have hsucc : firstAccepted (passes ++ [answers]) event < (passes ++ [answers]).length ↔
        firstAccepted passes event < passes.length ∨
          firstAccepted (passes ++ [answers]) event = passes.length := by
      rw [← hlt, List.length_append, List.length_singleton]
      omega
    rw [htaken.applied, h.applied event hevent, hsucc, and_or_left]
    apply or_congr_right
    constructor
    · rintro ⟨other, hother, heq, htake⟩
      rw [hids.eq_of_textOf hother hevent heq, htakes event hevent, Bool.and_eq_true] at htake
      exact ⟨htake.1, of_decide_eq_true htake.2⟩
    · rintro ⟨hadmits, heq⟩
      refine ⟨event, hevent, rfl, ?_⟩
      rw [htakes event hevent, hadmits, decide_eq_true heq]
      rfl

theorem rebuilt_after {events ordered : List Json} (hids : DistinctIds ordered)
    (hordered : ordered_events events = .ok ordered)
    (hreads : ∀ event ∈ ordered, adapter.Reads event) (passes : List PassAnswers) :
    Rebuilt adapter ordered passes
      (Runs.after (rebuildStep uuid fresh adapter events) .fresh passes) := by
  induction passes using List.reverseRecOn with
  | nil => exact rebuilt_fresh ordered
  | append_singleton passes answers ih =>
      rw [Runs.after_append]
      exact ih.step hids hordered hreads

/-- After a pass without failures the sequence is that of the visible events, sorted by the pass
that first accepted them. -/
theorem sequence_of_clean {events ordered : List Json} (hids : DistinctIds ordered)
    (hordered : ordered_events events = .ok ordered) (earlier : List PassAnswers)
    (last : PassAnswers) {receipts : List ProjectionReceipt}
    (hrun : (rebuildStep uuid fresh adapter events
      (Runs.after (rebuildStep uuid fresh adapter events) .fresh earlier) last).1 = .ok receipts)
    (hclean : ∀ receipt ∈ receipts, receipt.isFailed = false) :
    (Runs.after (rebuildStep uuid fresh adapter events) .fresh
      (earlier ++ [last])).graph.sequence =
      sortedBy (firstAccepted (earlier ++ [last])) (ordered.filter adapter.shows) := by
  have hbefore : adapter.Agrees ordered
      (Runs.after (rebuildStep uuid fresh adapter events) .fresh earlier) := by
    apply Runs.invariant (agrees_fresh ordered)
    intro w answers _ hw
    rw [rebuild_run hordered]
    exact pass_agrees hids (fun _ he => he) hw
  have hfull : rebuildStep uuid fresh adapter events
      (Runs.after (rebuildStep uuid fresh adapter events) .fresh earlier) last =
        (.ok receipts,
          Runs.after (rebuildStep uuid fresh adapter events) .fresh (earlier ++ [last])) := by
    rw [Runs.after_append, ← hrun]
    rfl
  rw [rebuild_run hordered] at hfull
  obtain ⟨hevents, -⟩ := clean_pass hids (fun _ he => he) hbefore hfull hclean
  have hrebuilt : Rebuilt adapter ordered (earlier ++ [last])
      (Runs.after (rebuildStep uuid fresh adapter events) .fresh (earlier ++ [last])) :=
    rebuilt_after hids hordered (fun e he => (hevents e he).1) _
  rw [hrebuilt.sequence, List.filter_filter]
  congr 1
  apply List.filter_congr
  intro event hevent
  cases hshows : adapter.shows event with
  | false => rw [GraphitiProjectionAdapter.admits, hshows, Bool.false_and, Bool.and_false]
  | true =>
      obtain ⟨hadmits, hlt⟩ := (hrebuilt.applied event hevent).mp ((hevents event hevent).2 hshows)
      rw [hadmits, decide_eq_true hlt]
      rfl

/-- The contents in the history are named after their events, which the policy shows, and no
name is there twice. -/
structure History (adapter : GraphitiProjectionAdapter) (w : ProjectionWorld) : Prop where
  counted : Counted w
  contents : ∀ content ∈ w.graph.history,
    content.name = episodeName (textOf content.episode_body "event_id") ∧
      adapter.event_visible content.episode_body = .ok true

theorem Application.history {client : Client} {event : Json} {event_id : String}
    {w w' : ProjectionWorld} {status : ReceiptStatus}
    (h : Application client adapter event event_id w status w') (hatomic : client.Atomic)
    (haddressed : Addressed event event_id) (hw : History adapter w) : History adapter w' := by
  refine ⟨h.counted hatomic hw.counted, ?_⟩
  cases h with
  | withdrawn status w' hhidden happlied hremoval =>
      rw [hremoval.history]
      exact hw.contents
  | lost failure content error _ _ _ _ _ _ houtcome => exact (hatomic _ _ _ houtcome).elim
  | added record content named hlive hvisible hnew htime hname hbody =>
      intro other hother
      rcases List.mem_append.mp hother with hother | hother
      · exact hw.contents other hother
      · rw [List.mem_singleton.mp hother, hname, hbody, haddressed.text]
        exact ⟨rfl, hvisible⟩
  | _ => exact hw.contents

theorem History.distinctIds {w : ProjectionWorld} (h : History adapter w)
    (hkeyed : ∀ event ∈ w.graph.sequence, Keyed event) : DistinctIds w.graph.sequence := by
  refine ⟨fun event hevent => (hkeyed event hevent).event_id, ?_⟩
  have hnames : (w.graph.history.map EpisodeContent.name).Nodup := by
    apply List.nodup_iff_count_le_one.mpr
    intro name
    by_cases hname : name ∈ w.graph.history.map EpisodeContent.name
    · obtain ⟨content, hcontent, rfl⟩ := List.mem_map.mp hname
      rw [(h.contents content hcontent).1]
      have hcount := h.counted (textOf content.episode_body "event_id")
      rw [Graph.additions] at hcount
      rw [hcount]
      split <;> omega
    · rw [List.count_eq_zero_of_not_mem hname]
      omega
  rw [Graph.sequence, List.pairwise_map]
  apply List.Pairwise.imp_of_mem _ (List.pairwise_map.mp hnames)
  intro a b ha hb hab htext
  apply hab
  rw [(h.contents a ha).1, (h.contents b hb).1, htext]

/-- The sequence that repeated passes add up to a clean one is the canonical order of the events
exactly when the ids are distinct, the policy shows every event and no event is first accepted
in an earlier pass than an event before it. -/
theorem rebuild_in_order_iff (uuid : ℕ → String) (fresh : Function.Injective uuid)
    (adapter : GraphitiProjectionAdapter) (events : List Json) (earlier : List PassAnswers)
    (last : PassAnswers) {receipts : List ProjectionReceipt}
    (hrun : (rebuildStep uuid fresh adapter events
      (Runs.after (rebuildStep uuid fresh adapter events) .fresh earlier) last).1 = .ok receipts)
    (hclean : ∀ receipt ∈ receipts, receipt.isFailed = false) :
    ∃ ordered, ordered_events events = .ok ordered ∧
      ((Runs.after (rebuildStep uuid fresh adapter events) .fresh
          (earlier ++ [last])).graph.sequence = ordered ↔
        DistinctIds ordered ∧
          (∀ event ∈ ordered, adapter.event_visible event = .ok true) ∧
            ordered.Pairwise fun a b =>
              firstAccepted (earlier ++ [last]) a ≤ firstAccepted (earlier ++ [last]) b) := by
  cases hordered : ordered_events events with
  | error e =>
      rw [rebuildStep, GraphitiProjectionAdapter.rebuild_async, hordered] at hrun
      cases hrun
  | ok ordered =>
      refine ⟨ordered, rfl, ?_⟩
      constructor
      · intro hsequence
        have hhistory : History adapter
            (Runs.after (rebuildStep uuid fresh adapter events) .fresh (earlier ++ [last])) := by
          apply Runs.invariant ⟨counted_fresh, fun content hcontent => by cases hcontent⟩
          intro w answers _ hw
          rw [rebuild_run hordered]
          apply pass_keeps _ hw
          intro event _ event_id w status w' haddressed happlication hw
          exact happlication.history Client.atomic_answering haddressed hw
        have hids : DistinctIds ordered := by
          rw [← hsequence]
          apply hhistory.distinctIds
          intro event hevent
          rw [hsequence] at hevent
          obtain ⟨hkeyed, rfl⟩ := ordered_events_ok_iff.mp hordered
          exact hkeyed event (mem_sortedBy.mp hevent)
        refine ⟨hids, ?_, ?_⟩
        · intro event hevent
          rw [← hsequence] at hevent
          obtain ⟨content, hcontent, rfl⟩ := List.mem_map.mp hevent
          exact (hhistory.contents content hcontent).2
        · rw [sequence_of_clean hids hordered earlier last hrun hclean] at hsequence
          rw [← hsequence]
          exact pairwise_sortedBy _ _
      · rintro ⟨hids, hvisible, hpairwise⟩
        have hall : ordered.filter adapter.shows = ordered := by
          apply List.filter_eq_self.mpr
          intro event hevent
          exact adapter.shows_of_visible (hvisible event hevent)
        rw [sequence_of_clean hids hordered earlier last hrun hclean, hall,
          sortedBy_of_pairwise hpairwise]

end Passes

/-! ## Two events, the first of which is refused at first -/

def firstNote : Json := notedAt "evt_0000000000000001" "2026-01-01T00:00:00Z"

def secondNote : Json := notedAt "evt_0000000000000002" "2026-01-02T00:00:00Z"

def acceptsAll : PassAnswers := fun _ => .ok true

def refusesFirst : PassAnswers := fun event =>
  if event = firstNote then .error (.valueError "busy") else .ok true

theorem ordered_notes : ordered_events [firstNote, secondNote] = .ok [firstNote, secondNote] := by
  apply ordered_events_ok_iff.mpr
  constructor
  · intro event hevent
    rcases List.mem_pair.mp hevent with rfl | rfl
    · exact keyed_notedAt _ _
    · exact keyed_notedAt _ _
  · exact (sortedBy_of_pairwise (by decide)).symm

/-- The receipts of a pass over the two events. -/
def noteReceipts (first second : ReceiptStatus) (detail detail' : Option String) :
    List ProjectionReceipt :=
  [⟨"evt_0000000000000001", first, detail⟩, ⟨"evt_0000000000000002", second, detail'⟩]

abbrev rebuildNotes : ProjectionWorld → PassAnswers →
    Except Error (List ProjectionReceipt) × ProjectionWorld :=
  rebuildStep numberedUuid numberedUuid_injective .plain [firstNote, secondNote]

/-- The pass that follows one in which the first event failed adds it behind the second. -/
theorem rebuild_out_of_order :
    ordered_events [firstNote, secondNote] = .ok [firstNote, secondNote] ∧
      (rebuildNotes .fresh refusesFirst).1 =
        .ok (noteReceipts .failed .applied (some "busy") none) ∧
      (rebuildNotes (rebuildNotes .fresh refusesFirst).2 acceptsAll).1 =
        .ok (noteReceipts .applied .skipped none (some "already applied")) ∧
      (Runs.after rebuildNotes .fresh [refusesFirst, acceptsAll]).graph.sequence =
        [secondNote, firstNote] ∧ [secondNote, firstNote] ≠ [firstNote, secondNote] := by
  refine ⟨ordered_notes, ?_, ?_, ?_, by decide⟩
  · rw [rebuildNotes, rebuild_run ordered_notes]
    rfl
  · rw [rebuildNotes, rebuild_run ordered_notes, rebuild_run ordered_notes]
    rfl
  · simp only [Runs.after_cons, Runs.after_nil, rebuildNotes, rebuild_run ordered_notes]
    decide +kernel

theorem rebuild_in_order_iff_of_one_pass :
    ∃ ordered, ordered_events [firstNote, secondNote] = .ok ordered ∧
      ((Runs.after rebuildNotes .fresh [acceptsAll]).graph.sequence = ordered ↔
        DistinctIds ordered ∧
          (∀ event ∈ ordered, GraphitiProjectionAdapter.plain.event_visible event = .ok true) ∧
            ordered.Pairwise fun a b => firstAccepted [acceptsAll] a ≤ firstAccepted [acceptsAll] b) := by
  have hrun : (rebuildNotes .fresh acceptsAll).1 =
      .ok (noteReceipts .applied .applied none none) := by
    rw [rebuildNotes, rebuild_run ordered_notes]
    rfl
  exact rebuild_in_order_iff numberedUuid numberedUuid_injective .plain [firstNote, secondNote] []
    acceptsAll hrun (by decide)

end FossilCore
