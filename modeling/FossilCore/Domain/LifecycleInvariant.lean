import Mathlib.Logic.Relation
import FossilCore.Domain.Lifecycle

/-!
# Invariants of lifecycle replay

Every `apply` is a chain of four kinds of writes: a fresh claim, a claim moved to another
state, a fresh relation, a relation moved.  What holds of all reachable states, and what one
state keeps of an earlier one, is proved of the writes.
-/

namespace FossilCore

open Base

namespace KnowledgeState

/-! ## The writes -/

def addClaim (state : KnowledgeState) (id : Json) : KnowledgeState :=
  { state with
    claims := state.claims.set id "proposed"
    claim_history := state.claim_history.set id ["proposed"] }

def moveClaim (state : KnowledgeState) (id : Json) (history : List String) (target : String) :
    KnowledgeState :=
  { state with
    claims := state.claims.set id target
    claim_history := state.claim_history.set id (history ++ [target]) }

def addRelation (state : KnowledgeState) (relation : RelationRecord) : KnowledgeState :=
  { state with
    relations := state.relations.set relation.relation_id relation
    relation_history := state.relation_history.set relation.relation_id [relation.state] }

def setRelation (state : KnowledgeState) (id : Json) (relation : RelationRecord)
    (history : List String) (target : String) : KnowledgeState :=
  { state with
    relations := state.relations.set id { relation with state := target }
    relation_history := state.relation_history.set relation.relation_id (history ++ [target]) }

/-- One write to the maps, with what the code has checked before it. -/
inductive Write (state : KnowledgeState) : KnowledgeState → Prop where
  | addClaim {id : Json} (hfresh : state.claims.get? id = none) : Write state (state.addClaim id)
  | moveClaim {id : Json} {current target : String} {history : List String}
      (hclaim : state.claims.get? id = some current)
      (hhistory : state.claim_history.get? id = some history) (htarget : target ∈ CLAIM_STATES) :
      Write state (state.moveClaim id history target)
  | addRelation {relation : RelationRecord}
      (hfresh : state.relations.get? relation.relation_id = none)
      (hstate : relation.state ∈ RELATION_STATES) : Write state (state.addRelation relation)
  | setRelation {id : Json} {relation : RelationRecord} {target : String} {history : List String}
      (hrelation : state.relations.get? id = some relation)
      (hhistory : state.relation_history.get? relation.relation_id = some history)
      (htarget : target ∈ RELATION_STATES) :
      Write state (state.setRelation id relation history target)

abbrev Writes : KnowledgeState → KnowledgeState → Prop := Relation.ReflTransGen Write

end KnowledgeState

theorem knownIn_ok {α : Type} {key : Json} {d : Dict Json α} {b : Bool}
    (h : knownIn key d = .ok b) : d.contains key = b := by
  rw [knownIn] at h
  split at h
  · exact Except.ok.inj h
  · cases h

theorem knownIn_false {α : Type} {key : Json} {d : Dict Json α} (h : knownIn key d = .ok false) :
    d.get? key = none := by
  have hcontains := knownIn_ok h
  rwa [Dict.contains, Option.isSome_eq_false_iff, Option.isNone_iff_eq_none] at hcontains

theorem knownIn_true {α : Type} {key : Json} {d : Dict Json α} (h : knownIn key d = .ok true) :
    ∃ value, d.get? key = some value :=
  Dict.contains_iff.mp (knownIn_ok h)

theorem memberOf_some {value : Json} {names : List String} {s : String}
    (h : memberOf value names = .ok (some s)) : value = .str s ∧ s ∈ names := by
  cases value with
  | str t =>
      rw [memberOf] at h
      split_ifs at h with ht
      · cases h
        exact ⟨rfl, ht⟩
      · cases h
  | _ => simp [memberOf, Json.hashable] at h

namespace KnowledgeState

theorem checkClaimChange_spec {state : KnowledgeState} {claim_id target : Json}
    {expected : Option Json} {s : String}
    (h : state.checkClaimChange claim_id target expected = .ok s) :
    (∃ current, state.claims.get? claim_id = some current) ∧ s ∈ CLAIM_STATES := by
  obtain ⟨known, hknown, h⟩ := bind_eq_ok.mp h
  cases known with
  | false => cases h
  | true =>
      obtain ⟨member, hmember, h⟩ := bind_eq_ok.mp h
      refine ⟨knownIn_true hknown, ?_⟩
      cases member with
      | none => cases h
      | some t =>
          have ht : t ∈ CLAIM_STATES := (memberOf_some hmember).2
          have hs : t = s := by
            match expected with
            | none | some .null => exact Except.ok.inj h
            | some (.bool _) | some (.int _) | some (.float _) | some (.str _) | some (.arr _)
            | some (.obj _) =>
                simp only at h
                split at h
                · cases h
                · exact Except.ok.inj h
          exact hs ▸ ht

theorem writes_change_claim {state state' : KnowledgeState} {claim_id target : Json}
    {expected : Option Json}
    (h : state.change_claim claim_id target expected = (.ok (), state')) :
    Writes state state' := by
  rw [change_claim] at h
  split at h
  · cases h
  · next s hcheck =>
      obtain ⟨⟨current, hclaim⟩, hs⟩ := checkClaimChange_spec hcheck
      simp only at h
      split at h
      · cases h
      · next history hhistory =>
          cases h
          apply Relation.ReflTransGen.single
          exact .moveClaim hclaim hhistory hs

theorem writes_markStale {state state' : KnowledgeState} {premise_id : Json}
    {relations : List RelationRecord}
    (h : state.markStale premise_id relations = (.ok (), state')) : Writes state state' := by
  induction relations generalizing state with
  | nil =>
      cases h
      exact .refl
  | cons relation rest ih =>
      rw [markStale] at h
      split at h
      · cases h
      · exact ih h
      · split at h
        · cases h
        · split at h
          · exact ih h
          · split at h
            · cases h
            · next hchange => exact (writes_change_claim hchange).trans (ih h)

theorem writes_proposeClaim {state state' : KnowledgeState} {subject : Json}
    (h : state.proposeClaim subject = (.ok (), state')) : Writes state state' := by
  rw [proposeClaim] at h
  split at h
  · cases h
  · cases h
  · next hknown =>
      cases h
      apply Relation.ReflTransGen.single
      exact .addClaim (knownIn_false hknown)

theorem readProposal_spec {state : KnowledgeState} {payload : Json} {relation : RelationRecord}
    (h : state.readProposal payload = .ok relation) :
    state.relations.get? relation.relation_id = none ∧ relation.state ∈ RELATION_STATES := by
  obtain ⟨relation_id, -, h⟩ := bind_eq_ok.mp h
  obtain ⟨known, hknown, h⟩ := bind_eq_ok.mp h
  cases known with
  | true => cases h
  | false =>
      obtain ⟨relation_type, -, h⟩ := bind_eq_ok.mp h
      obtain ⟨type_member, -, h⟩ := bind_eq_ok.mp h
      cases type_member with
      | none => cases h
      | some relation_type =>
          obtain ⟨state_member, hstate, h⟩ := bind_eq_ok.mp h
          cases state_member with
          | none => cases h
          | some relation_state =>
              obtain ⟨source_ref, -, h⟩ := bind_eq_ok.mp h
              obtain ⟨target_ref, -, h⟩ := bind_eq_ok.mp h
              cases h
              exact ⟨knownIn_false hknown, (memberOf_some hstate).2⟩

theorem writes_proposeRelation {state state' : KnowledgeState} {payload : Json}
    (h : state.proposeRelation payload = (.ok (), state')) : Writes state state' := by
  rw [proposeRelation] at h
  split at h
  · cases h
  · next relation hread =>
      obtain ⟨hfresh, hstate⟩ := readProposal_spec hread
      cases h
      apply Relation.ReflTransGen.single
      exact .addRelation hfresh hstate

theorem readTransition_spec {state : KnowledgeState} {kind payload id : Json}
    {relation : RelationRecord} {target : String}
    (h : state.readTransition kind payload = .ok (id, relation, target)) :
    state.relations.get? id = some relation ∧ target ∈ RELATION_STATES := by
  obtain ⟨relation_id, -, h⟩ := bind_eq_ok.mp h
  obtain ⟨_, -, h⟩ := bind_eq_ok.mp h
  split at h
  · cases h
  · next relation' hrelation =>
      simp only at h
      split at h
      · cases h
      · obtain ⟨to_state, -, h⟩ := bind_eq_ok.mp h
        obtain ⟨member, hmember, h⟩ := bind_eq_ok.mp h
        cases member with
        | none => cases h
        | some s =>
            cases h
            exact ⟨hrelation, (memberOf_some hmember).2⟩

theorem writes_moveRelation {state state' : KnowledgeState} {kind payload : Json}
    (h : state.moveRelation kind payload = (.ok (), state')) : Writes state state' := by
  rw [moveRelation] at h
  split at h
  · cases h
  · next hread =>
      obtain ⟨hrelation, htarget⟩ := readTransition_spec hread
      simp only at h
      split at h
      · cases h
      · next hhistory =>
          cases h
          apply Relation.ReflTransGen.single
          exact .setRelation hrelation hhistory htarget

/-- A successful `apply` is a chain of writes, whatever the event. -/
theorem writes_apply {state state' : KnowledgeState} {event : Json}
    (h : state.apply event = (.ok (), state')) : Writes state state' := by
  rw [apply] at h
  split at h
  · cases h
  · next kind payload subject _ =>
      rw [applyKind] at h
      split_ifs at h
      · exact writes_proposeClaim h
      · split at h
        · cases h
        · exact writes_change_claim h
      · split at h
        · cases h
        · split at h
          · cases h
          · next hchange =>
              exact (writes_change_claim hchange).trans (writes_markStale h)
      · exact writes_proposeRelation h
      · cases h
      · exact writes_moveRelation h
      · cases h
        exact .refl

theorem writes_replayFrom {state state' : KnowledgeState} {events : List Json}
    (h : state.replayFrom events = .ok state') : Writes state state' := by
  induction events generalizing state with
  | nil =>
      cases h
      exact .refl
  | cons event rest ih =>
      rw [replayFrom] at h
      split at h
      · cases h
      · next hap => exact (writes_apply hap).trans (ih h)

/-! ## Coherence -/

/-- A history of named states up to the current one, and so not an empty one. -/
structure HistoryOf (names : List String) (current : String) (history : List String) : Prop where
  last : history.getLast? = some current
  named : ∀ s ∈ history, s ∈ names

theorem HistoryOf.append {names history : List String} {current target : String}
    (h : HistoryOf names current history) (htarget : target ∈ names) :
    HistoryOf names target (history ++ [target]) := by
  refine ⟨by simp, ?_⟩
  intro s hs
  rcases List.mem_append.mp hs with hs | hs
  · exact h.named s hs
  · rw [List.mem_singleton.mp hs]
    exact htarget

theorem HistoryOf.singleton {names : List String} {s : String} (h : s ∈ names) :
    HistoryOf names s [s] := by
  refine ⟨rfl, ?_⟩
  intro t ht
  rw [List.mem_singleton.mp ht]
  exact h

structure Coherent (state : KnowledgeState) : Prop where
  claim_keys : state.claims.keys = state.claim_history.keys
  claim_histories : ∀ id current history, state.claims.get? id = some current →
    state.claim_history.get? id = some history →
      HistoryOf CLAIM_STATES current history ∧ history.head? = some "proposed"
  relation_keys : state.relations.keys = state.relation_history.keys
  relation_ids : ∀ id relation, state.relations.get? id = some relation →
    relation.relation_id = id
  relation_histories : ∀ id relation history, state.relations.get? id = some relation →
    state.relation_history.get? id = some history →
      HistoryOf RELATION_STATES relation.state history

theorem coherent_empty : Coherent empty := by
  constructor <;> simp [empty, Dict.keys, Dict.empty, Dict.get?, Dict.find]

theorem Coherent.addClaim {state : KnowledgeState} (h : Coherent state) {id : Json} :
    Coherent (state.addClaim id) := by
  refine ⟨?_, ?_, h.relation_keys, h.relation_ids, h.relation_histories⟩
  · exact Dict.keys_set_congr h.claim_keys id _ _
  · intro x current history hclaim hhistory
    rw [KnowledgeState.addClaim, Dict.get?_set] at hclaim hhistory
    split_ifs at hclaim hhistory with hx
    · cases hclaim
      cases hhistory
      exact ⟨HistoryOf.singleton (by decide), rfl⟩
    · exact h.claim_histories x current history hclaim hhistory

theorem Coherent.moveClaim {state : KnowledgeState} (h : Coherent state) {id : Json}
    {current target : String} {history : List String}
    (hclaim : state.claims.get? id = some current)
    (hhistory : state.claim_history.get? id = some history) (htarget : target ∈ CLAIM_STATES) :
    Coherent (state.moveClaim id history target) := by
  refine ⟨?_, ?_, h.relation_keys, h.relation_ids, h.relation_histories⟩
  · exact Dict.keys_set_congr h.claim_keys id _ _
  · intro x current' history' hclaim' hhistory'
    rw [KnowledgeState.moveClaim, Dict.get?_set] at hclaim' hhistory'
    split_ifs at hclaim' hhistory' with hx
    · cases hclaim'
      cases hhistory'
      obtain ⟨hold, hhead⟩ := h.claim_histories id current history hclaim hhistory
      refine ⟨hold.append htarget, ?_⟩
      rw [List.head?_append, hhead]
      rfl
    · exact h.claim_histories x current' history' hclaim' hhistory'

theorem Coherent.addRelation {state : KnowledgeState} (h : Coherent state)
    {relation : RelationRecord} (hstate : relation.state ∈ RELATION_STATES) :
    Coherent (state.addRelation relation) := by
  refine ⟨h.claim_keys, h.claim_histories, ?_, ?_, ?_⟩
  · exact Dict.keys_set_congr h.relation_keys relation.relation_id _ _
  · intro x relation' hrelation
    rw [KnowledgeState.addRelation, Dict.get?_set] at hrelation
    split_ifs at hrelation with hx
    · cases hrelation
      exact hx
    · exact h.relation_ids x relation' hrelation
  · intro x relation' history hrelation hhistory
    rw [KnowledgeState.addRelation, Dict.get?_set] at hrelation hhistory
    split_ifs at hrelation hhistory with hx
    · cases hrelation
      cases hhistory
      exact HistoryOf.singleton hstate
    · exact h.relation_histories x relation' history hrelation hhistory

theorem Coherent.setRelation {state : KnowledgeState} (h : Coherent state) {id : Json}
    {relation : RelationRecord} {target : String} {history : List String}
    (hrelation : state.relations.get? id = some relation)
    (hhistory : state.relation_history.get? relation.relation_id = some history)
    (htarget : target ∈ RELATION_STATES) :
    Coherent (state.setRelation id relation history target) := by
  have hid : relation.relation_id = id := h.relation_ids id relation hrelation
  subst hid
  refine ⟨h.claim_keys, h.claim_histories, ?_, ?_, ?_⟩
  · exact Dict.keys_set_congr h.relation_keys relation.relation_id _ _
  · intro x relation' hrelation'
    rw [KnowledgeState.setRelation, Dict.get?_set] at hrelation'
    split_ifs at hrelation' with hx
    · cases hrelation'
      exact hx
    · exact h.relation_ids x relation' hrelation'
  · intro x relation' history' hrelation' hhistory'
    rw [KnowledgeState.setRelation, Dict.get?_set] at hrelation' hhistory'
    split_ifs at hrelation' hhistory' with hx
    · cases hrelation'
      cases hhistory'
      exact (h.relation_histories _ relation history hrelation hhistory).append htarget
    · exact h.relation_histories x relation' history' hrelation' hhistory'

theorem Coherent.write {state state' : KnowledgeState} (h : Coherent state)
    (hwrite : Write state state') : Coherent state' := by
  cases hwrite with
  | addClaim hfresh => exact h.addClaim
  | moveClaim hclaim hhistory htarget => exact h.moveClaim hclaim hhistory htarget
  | addRelation hfresh hstate => exact h.addRelation hstate
  | setRelation hrelation hhistory htarget => exact h.setRelation hrelation hhistory htarget

theorem Coherent.writes {state state' : KnowledgeState} (h : Coherent state)
    (hwrites : Writes state state') : Coherent state' := by
  induction hwrites with
  | refl => exact h
  | tail _ hwrite ih => exact ih.write hwrite

/-! ## What later states keep -/

/-- The relation is the earlier one up to its state. -/
structure SameRelation (relation relation' : RelationRecord) : Prop where
  relation_id : relation'.relation_id = relation.relation_id
  relation_type : relation'.relation_type = relation.relation_type
  source_ref : relation'.source_ref = relation.source_ref
  target_ref : relation'.target_ref = relation.target_ref

theorem SameRelation.refl (relation : RelationRecord) : SameRelation relation relation :=
  ⟨rfl, rfl, rfl, rfl⟩

theorem SameRelation.trans {r₁ r₂ r₃ : RelationRecord} (h : SameRelation r₁ r₂)
    (h' : SameRelation r₂ r₃) : SameRelation r₁ r₃ :=
  ⟨h'.relation_id.trans h.relation_id, h'.relation_type.trans h.relation_type,
    h'.source_ref.trans h.source_ref, h'.target_ref.trans h.target_ref⟩

/-- The later state has every claim and relation of the earlier one, with longer histories and
the same relations. -/
structure Extends (state state' : KnowledgeState) : Prop where
  claims : state.claims.Grows (fun _ _ => True) state'.claims
  claim_history : state.claim_history.Grows (· <+: ·) state'.claim_history
  relations : state.relations.Grows SameRelation state'.relations
  relation_history : state.relation_history.Grows (· <+: ·) state'.relation_history

theorem Extends.refl (state : KnowledgeState) : Extends state state :=
  ⟨.refl (fun _ => trivial) _, .refl (fun _ => List.prefix_rfl) _, .refl .refl _,
    .refl (fun _ => List.prefix_rfl) _⟩

theorem Extends.trans {s₁ s₂ s₃ : KnowledgeState} (h : Extends s₁ s₂) (h' : Extends s₂ s₃) :
    Extends s₁ s₃ :=
  ⟨.trans (fun _ _ _ _ _ => trivial) h.claims h'.claims,
    .trans (fun _ _ _ hab hbc => hab.trans hbc) h.claim_history h'.claim_history,
    .trans (fun _ _ _ hab hbc => hab.trans hbc) h.relations h'.relations,
    .trans (fun _ _ _ hab hbc => hab.trans hbc) h.relation_history h'.relation_history⟩

/-- A write extends a coherent state. -/
theorem Coherent.extends_write {state state' : KnowledgeState} (h : Coherent state)
    (hwrite : Write state state') : Extends state state' := by
  have hself := Extends.refl state
  cases hwrite with
  | addClaim hfresh =>
      refine ⟨.set (fun _ => trivial) (fun _ _ => trivial), ?_, hself.relations,
        hself.relation_history⟩
      apply Dict.Grows.set (fun _ => List.prefix_rfl)
      intro history hhistory
      rw [(Dict.get?_eq_none_congr h.claim_keys).mp hfresh] at hhistory
      cases hhistory
  | moveClaim hclaim hhistory htarget =>
      refine ⟨.set (fun _ => trivial) (fun _ _ => trivial), ?_, hself.relations,
        hself.relation_history⟩
      apply Dict.Grows.set (fun _ => List.prefix_rfl)
      intro history hhistory'
      rw [hhistory] at hhistory'
      cases hhistory'
      exact List.prefix_append _ _
  | addRelation hfresh hstate =>
      refine ⟨hself.claims, hself.claim_history, ?_, ?_⟩
      · apply Dict.Grows.set .refl
        intro relation hrelation
        rw [hfresh] at hrelation
        cases hrelation
      · apply Dict.Grows.set (fun _ => List.prefix_rfl)
        intro history hhistory
        rw [(Dict.get?_eq_none_congr h.relation_keys).mp hfresh] at hhistory
        cases hhistory
  | setRelation hrelation hhistory htarget =>
      refine ⟨hself.claims, hself.claim_history, ?_, ?_⟩
      · apply Dict.Grows.set .refl
        intro relation hrelation'
        rw [hrelation] at hrelation'
        cases hrelation'
        exact ⟨rfl, rfl, rfl, rfl⟩
      · apply Dict.Grows.set (fun _ => List.prefix_rfl)
        intro history hhistory'
        rw [hhistory] at hhistory'
        cases hhistory'
        exact List.prefix_append _ _

theorem Coherent.extends_writes {state state' : KnowledgeState} (h : Coherent state)
    (hwrites : Writes state state') : Extends state state' := by
  induction hwrites with
  | refl => exact .refl state
  | tail hwrites hwrite ih => exact ih.trans ((h.writes hwrites).extends_write hwrite)

theorem coherent_replay {events : List Json} {state : KnowledgeState}
    (h : replay events = .ok state) : Coherent state :=
  coherent_empty.writes (writes_replayFrom h)

/-- Replaying more events extends the state. -/
theorem extends_replayFrom {events : List Json} {state state' : KnowledgeState}
    (h : Coherent state) (hreplay : state.replayFrom events = .ok state') :
    Extends state state' :=
  h.extends_writes (writes_replayFrom hreplay)

end KnowledgeState

open KnowledgeState in
/-- Every state reached by successful `apply` calls is coherent, and everything applied later
extends it. -/
theorem knowledge_state_invariant (earlier later : List Json) (state state' : KnowledgeState)
    (hstate : replay earlier = .ok state) (hstate' : state.replayFrom later = .ok state') :
    Coherent state ∧ Coherent state' ∧ Extends state state' := by
  have hcoherent := coherent_replay hstate
  exact ⟨hcoherent, hcoherent.writes (writes_replayFrom hstate'),
    extends_replayFrom hcoherent hstate'⟩

open KnowledgeState in
theorem knowledge_state_invariant_of_claim :
    let proposed := Json.obj [("event_type", .str "claim.proposed"), ("payload", .obj []),
      ("subject_refs", .arr [.str "claim_01"])]
    let opened := Json.obj [("event_type", .str "claim.state_changed"),
      ("payload", .obj [("to_state", .str "open")]), ("subject_refs", .arr [.str "claim_01"])]
    ∃ state state', replay [proposed] = .ok state ∧ state.replayFrom [opened] = .ok state' ∧
      state'.claim_history.get? (.str "claim_01") = some ["proposed", "open"] ∧
      Coherent state ∧ Coherent state' ∧ Extends state state' := by
  intro proposed opened
  refine ⟨_, _, rfl, rfl, by decide, ?_⟩
  exact knowledge_state_invariant [proposed] [opened] _ _ rfl rfl

end FossilCore
