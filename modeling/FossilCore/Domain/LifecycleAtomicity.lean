import FossilCore.Base.Runs
import FossilCore.Domain.LifecycleInvariant

/-!
# Atomicity of lifecycle replay

An `apply` that raises leaves the maps as they were.  The one step that can raise after a write is
the loop over the dependents of a superseded claim, and it raises nothing but a `TypeError`, for a
relation whose source cannot be hashed.
-/

namespace FossilCore

open Base

namespace KnowledgeState

/-! ## States that calls leave behind -/

/-- The state after any calls of `apply`, whether or not they raise. -/
def afterCalls (events : List Json) : KnowledgeState := Runs.after apply empty events

theorem Coherent.exists_claim_history {state : KnowledgeState} (h : Coherent state) {id : Json}
    {current : String} (hclaim : state.claims.get? id = some current) :
    ∃ history, state.claim_history.get? id = some history := by
  rw [← Dict.mem_keys_iff, ← h.claim_keys, Dict.mem_keys_iff]
  exact ⟨current, hclaim⟩

theorem Coherent.exists_relation_history {state : KnowledgeState} (h : Coherent state) {id : Json}
    {relation : RelationRecord} (hrelation : state.relations.get? id = some relation) :
    ∃ history, state.relation_history.get? relation.relation_id = some history := by
  rw [h.relation_ids id relation hrelation, ← Dict.mem_keys_iff, ← h.relation_keys,
    Dict.mem_keys_iff]
  exact ⟨relation, hrelation⟩

/-! ## What raises -/

/-- A result that raises without a write, or succeeds with writes. -/
def Atomic (state : KnowledgeState) (result : Except Error Unit × KnowledgeState) : Prop :=
  (∃ e, result = (.error e, state)) ∨ result.1 = .ok () ∧ Writes state result.2

theorem Atomic.error (state : KnowledgeState) (e : Error) : Atomic state (.error e, state) :=
  Or.inl ⟨e, rfl⟩

theorem atomic_change_claim {state : KnowledgeState} (h : Coherent state) (claim_id target : Json)
    (expected : Option Json) : Atomic state (state.change_claim claim_id target expected) := by
  rw [change_claim]
  cases hcheck : state.checkClaimChange claim_id target expected with
  | error e => exact Atomic.error state e
  | ok s =>
      obtain ⟨⟨current, hclaim⟩, hs⟩ := checkClaimChange_spec hcheck
      obtain ⟨history, hhistory⟩ := h.exists_claim_history hclaim
      simp only [hhistory]
      refine Or.inr ⟨rfl, ?_⟩
      apply Relation.ReflTransGen.single
      exact .moveClaim hclaim hhistory hs

theorem atomic_proposeClaim (state : KnowledgeState) (subject : Json) :
    Atomic state (state.proposeClaim subject) := by
  rcases hresult : state.proposeClaim subject with ⟨_ | _, state'⟩
  · rw [proposeClaim] at hresult
    split at hresult <;> cases hresult
    · exact Atomic.error state _
    · exact Atomic.error state _
  · exact Or.inr ⟨rfl, writes_proposeClaim hresult⟩

theorem atomic_proposeRelation (state : KnowledgeState) (payload : Json) :
    Atomic state (state.proposeRelation payload) := by
  rcases hresult : state.proposeRelation payload with ⟨_ | _, state'⟩
  · rw [proposeRelation] at hresult
    split at hresult <;> cases hresult
    exact Atomic.error state _
  · exact Or.inr ⟨rfl, writes_proposeRelation hresult⟩

theorem atomic_moveRelation {state : KnowledgeState} (h : Coherent state) (kind payload : Json) :
    Atomic state (state.moveRelation kind payload) := by
  rw [moveRelation]
  cases hread : state.readTransition kind payload with
  | error e => exact Atomic.error state e
  | ok read =>
      obtain ⟨relation_id, relation, target⟩ := read
      obtain ⟨hrelation, htarget⟩ := readTransition_spec hread
      obtain ⟨history, hhistory⟩ := h.exists_relation_history hrelation
      simp only [hhistory]
      refine Or.inr ⟨rfl, ?_⟩
      apply Relation.ReflTransGen.single
      exact .setRelation hrelation hhistory htarget

/-- A lookup among the claims raises nothing but a `TypeError`. -/
theorem dependsOn_error {state : KnowledgeState} {premise_id : Json} {relation : RelationRecord}
    {e : Error} (h : state.dependsOn premise_id relation = .error e) : e = .typeError := by
  rw [dependsOn, knownIn] at h
  split_ifs at h
  exact (Except.error.inj h).symm

theorem dependsOn_true {state : KnowledgeState} {premise_id : Json} {relation : RelationRecord}
    (h : state.dependsOn premise_id relation = .ok true) :
    relation.source_ref.hashable = true ∧
      ∃ current, state.claims.get? relation.source_ref = some current := by
  rw [dependsOn] at h
  split_ifs at h
  · cases h
  · cases h
  · refine ⟨?_, knownIn_true h⟩
    rw [knownIn] at h
    split_ifs at h with hhashable
    exact hhashable

/-- The state of a dependent is changed whenever the dependent is known. -/
theorem change_claim_stale {state : KnowledgeState} (h : Coherent state) {claim_id : Json}
    {current : String} (hhashable : claim_id.hashable = true)
    (hclaim : state.claims.get? claim_id = some current) :
    (state.change_claim claim_id (.str "stale_pending_review") none).1 = .ok () := by
  have hknown : knownIn claim_id state.claims = .ok true := by
    rw [knownIn, if_pos hhashable, Dict.contains_iff.mpr ⟨current, hclaim⟩]
  have hcheck : state.checkClaimChange claim_id (.str "stale_pending_review") none =
      .ok "stale_pending_review" := by
    rw [checkClaimChange, hknown]
    rfl
  obtain ⟨history, hhistory⟩ := h.exists_claim_history hclaim
  rw [change_claim, hcheck]
  simp only [hhistory]

/-- The loop writes, and raises nothing but a `TypeError`. -/
theorem markStale_spec {state : KnowledgeState} (h : Coherent state) (premise_id : Json)
    (relations : List RelationRecord) :
    Writes state (state.markStale premise_id relations).2 ∧
      ∀ e, (state.markStale premise_id relations).1 = .error e → e = .typeError := by
  induction relations generalizing state with
  | nil => exact ⟨.refl, fun e he => by cases he⟩
  | cons relation rest ih =>
      rw [markStale]
      cases hdepends : state.dependsOn premise_id relation with
      | error e =>
          refine ⟨.refl, ?_⟩
          intro e' he'
          cases he'
          exact dependsOn_error hdepends
      | ok depends =>
          cases depends with
          | false => exact ih h
          | true =>
              obtain ⟨hhashable, current, hclaim⟩ := dependsOn_true hdepends
              simp only [hclaim]
              split_ifs
              · exact ih h
              · have hok := change_claim_stale h hhashable hclaim
                rcases hchange : state.change_claim relation.source_ref
                  (.str "stale_pending_review") none with ⟨_ | _, state'⟩
                · rw [hchange] at hok
                  cases hok
                · have hwrites := writes_change_claim hchange
                  obtain ⟨hrest, hraises⟩ := ih (h.writes hwrites)
                  exact ⟨hwrites.trans hrest, hraises⟩

/-- Whatever an event does, it writes; and where it raises anything but a `TypeError`, it has
written nothing. -/
theorem apply_spec {state : KnowledgeState} (h : Coherent state) (event : Json) :
    Writes state (state.apply event).2 ∧
      ∀ e, (state.apply event).1 = .error e → e ≠ .typeError → (state.apply event).2 = state := by
  have hatomic : ∀ result : Except Error Unit × KnowledgeState, Atomic state result →
      Writes state result.2 ∧ ∀ e, result.1 = .error e → e ≠ .typeError → result.2 = state := by
    rintro ⟨x, state'⟩ (⟨e, he⟩ | ⟨hok, hwrites⟩)
    · cases he
      exact ⟨.refl, fun _ _ _ => rfl⟩
    · refine ⟨hwrites, ?_⟩
      intro e he
      cases hok.symm.trans he
  rw [apply]
  cases readHead event with
  | error e => exact hatomic _ (Atomic.error state e)
  | ok head =>
      obtain ⟨kind, payload, subject⟩ := head
      dsimp only
      rw [applyKind]
      split_ifs
      · exact hatomic _ (atomic_proposeClaim state subject)
      · cases liftPy (payload.getItem "to_state") with
        | error e => exact hatomic _ (Atomic.error state e)
        | ok to_state => exact hatomic _ (atomic_change_claim h subject to_state _)
      · cases liftPy (payload.getMethod "from_state") with
        | error e => exact hatomic _ (Atomic.error state e)
        | ok from_state =>
            dsimp only
            have hchange := atomic_change_claim h subject (.str "superseded") from_state
            rcases hresult : state.change_claim subject (.str "superseded") from_state with
              ⟨_ | _, state'⟩
            · rw [hresult] at hchange
              exact hatomic _ hchange
            · have hwrites := writes_change_claim hresult
              obtain ⟨hrest, hraises⟩ := markStale_spec (h.writes hwrites) subject
                state'.relations.values
              exact ⟨hwrites.trans hrest, fun e he hne => absurd (hraises e he) hne⟩
      · exact hatomic _ (atomic_proposeRelation state payload)
      · exact hatomic _ (Atomic.error state _)
      · exact hatomic _ (atomic_moveRelation h kind payload)
      · exact ⟨.refl, fun _ _ _ => rfl⟩

/-- Every state that calls leave behind is coherent, also after calls that raised. -/
theorem coherent_afterCalls (events : List Json) : Coherent (afterCalls events) := by
  apply Runs.invariant coherent_empty
  intro state event _ h
  exact h.writes (apply_spec h event).1

end KnowledgeState

open KnowledgeState in
/-- In every state that calls leave behind, an `apply` that raises a `LifecycleError`, or anything
else but a `TypeError`, leaves all four maps as they were. -/
theorem apply_raises_unchanged (events : List Json) (event : Json) (e : Error)
    (hraises : ((afterCalls events).apply event).1 = .error e)
    (hclass : e.cls ≠ .builtin .typeError) :
    ((afterCalls events).apply event).2 = afterCalls events := by
  apply (apply_spec (coherent_afterCalls events) event).2 e hraises
  rintro rfl
  exact hclass rfl

open KnowledgeState in
theorem apply_raises_unchanged_of_missing_field :
    let proposed := Json.obj [("event_type", .str "claim.proposed"), ("payload", .obj []),
      ("subject_refs", .arr [.str "claim_01"])]
    let moved := Json.obj [("event_type", .str "claim.state_changed"), ("payload", .obj []),
      ("subject_refs", .arr [.str "claim_01"])]
    ((afterCalls [proposed]).apply proposed).2 = afterCalls [proposed] ∧
      ((afterCalls [proposed]).apply moved).2 = afterCalls [proposed] := by
  intro proposed moved
  constructor
  · exact apply_raises_unchanged [proposed] proposed _ rfl (by decide)
  · exact apply_raises_unchanged [proposed] moved _ rfl (by decide)

end FossilCore
