import FossilCore.Domain.EndpointSoundness
import FossilCore.Domain.LifecycleAtomicity

/-!
# The effect of a supersession

What `claim.superseded` does to a state: the premise is superseded, and each non-terminal claim that
depends on it through active relations is marked stale, once for each of them.  A
`claim.state_changed` to `superseded` moves the premise alone.
-/

namespace FossilCore

open Base

namespace KnowledgeState

/-- The active relations of a list through which the claim depends on the premise. -/
def edges (premise id : Json) (relations : List RelationRecord) : List RelationRecord :=
  relations.filter fun relation =>
    relation.relation_type = "DEPENDS_ON" ∧ relation.state = "active" ∧
      relation.target_ref = premise ∧ relation.source_ref = id

def dependencies (state : KnowledgeState) (premise id : Json) : List RelationRecord :=
  edges premise id state.relations.values

/-- The claim is known and in no terminal state. -/
def Nonterminal (state : KnowledgeState) (id : Json) : Prop :=
  ∃ current, state.claims.get? id = some current ∧ current ∉ terminal

/-- A known claim other than the premise, in no terminal state, with an active dependency on the
premise. -/
def Dependent (state : KnowledgeState) (premise id : Json) : Prop :=
  id ≠ premise ∧ state.Nonterminal id ∧ state.dependencies premise id ≠ []

/-- The later state differs from the earlier one by the supersession of the premise and the marks of
its dependents. -/
structure Supersedes (state : KnowledgeState) (premise : Json) (state' : KnowledgeState) : Prop where
  premise_state : state'.claims.get? premise = some "superseded"
  premise_history : ∃ history, state.claim_history.get? premise = some history ∧
    state'.claim_history.get? premise = some (history ++ ["superseded"])
  dependent_states : ∀ id, state.Dependent premise id →
    state'.claims.get? id = some "stale_pending_review"
  dependent_histories : ∀ id, state.Dependent premise id →
    ∃ history, state.claim_history.get? id = some history ∧
      state'.claim_history.get? id = some
        (history ++ List.replicate (state.dependencies premise id).length "stale_pending_review")
  other_states : ∀ id, id ≠ premise → ¬ state.Dependent premise id →
    state'.claims.get? id = state.claims.get? id
  other_histories : ∀ id, id ≠ premise → ¬ state.Dependent premise id →
    state'.claim_history.get? id = state.claim_history.get? id
  relations : state'.relations = state.relations
  relation_history : state'.relation_history = state.relation_history

theorem checkClaimChange_str {state : KnowledgeState} {claim_id : Json} {target s : String}
    {expected : Option Json}
    (h : state.checkClaimChange claim_id (.str target) expected = .ok s) : s = target := by
  obtain ⟨known, -, h⟩ := bind_eq_ok.mp h
  cases known with
  | false => cases h
  | true =>
      obtain ⟨member, hmember, h⟩ := bind_eq_ok.mp h
      cases member with
      | none => cases h
      | some t =>
          have ht : t = target := (Json.str.inj (memberOf_some hmember).1).symm
          have hs : t = s := by
            match expected with
            | none | some .null => exact Except.ok.inj h
            | some (.bool _) | some (.int _) | some (.float _) | some (.str _) | some (.arr _)
            | some (.obj _) =>
                simp only at h
                split at h
                · cases h
                · exact Except.ok.inj h
          exact hs.symm.trans ht

/-- A change that succeeds moves a known claim to the named state. -/
theorem change_claim_ok {state state' : KnowledgeState} {claim_id : Json} {target : String}
    {expected : Option Json}
    (h : state.change_claim claim_id (.str target) expected = (.ok (), state')) :
    ∃ history, state.claim_history.get? claim_id = some history ∧
      state' = state.moveClaim claim_id history target := by
  rw [change_claim] at h
  split at h
  · cases h
  · next s hcheck =>
      obtain rfl := checkClaimChange_str hcheck
      simp only at h
      split at h
      · cases h
      · next history hhistory =>
          cases h
          exact ⟨history, hhistory, rfl⟩

theorem nonterminal_moveClaim {state : KnowledgeState} {claim_id : Json} {history : List String}
    {target : String} (id : Json) :
    (state.moveClaim claim_id history target).Nonterminal id ↔
      if id = claim_id then target ∉ terminal else state.Nonterminal id := by
  unfold Nonterminal moveClaim
  simp only [Dict.get?_set]
  by_cases hid : id = claim_id
  · subst hid
    simp
  · rw [if_neg hid, if_neg (Ne.symm hid)]

section Marks

variable {state state' : KnowledgeState} {premise id : Json}

theorem dependsOn_iff {relation : RelationRecord} {b : Bool}
    (h : state.dependsOn premise relation = .ok b) :
    b = true ↔ relation.relation_type = "DEPENDS_ON" ∧ relation.state = "active" ∧
      relation.target_ref = premise ∧
        ∃ current, state.claims.get? relation.source_ref = some current := by
  rw [dependsOn] at h
  split_ifs at h with htype htarget
  · cases h
    simp only [Bool.false_eq_true, false_iff]
    rintro ⟨htype', hstate', -⟩
    exact htype.elim (fun hne => hne htype') (fun hne => hne hstate')
  · cases h
    simp only [Bool.false_eq_true, false_iff]
    rintro ⟨-, -, htarget', -⟩
    exact htarget htarget'
  · rw [not_or, not_not, not_not] at htype
    rw [← knownIn_ok h, Dict.contains_iff]
    exact ⟨fun hknown => ⟨htype.1, htype.2, not_not.mp htarget, hknown⟩, fun h => h.2.2.2⟩

/-- A relation that is passed over is no edge of a claim that can be marked. -/
theorem edges_cons_of_skip {relation : RelationRecord} {rest : List RelationRecord} {b : Bool}
    (h : state.dependsOn premise relation = .ok b) (hskip : b = true → ¬ state.Nonterminal relation.source_ref)
    (hid : state.Nonterminal id) : edges premise id (relation :: rest) = edges premise id rest := by
  refine List.filter_cons_of_neg fun hedge => ?_
  obtain ⟨htype, hstate, htarget, rfl⟩ := of_decide_eq_true hedge
  obtain ⟨current, hclaim, hterminal⟩ := hid
  exact hskip ((dependsOn_iff h).mpr ⟨htype, hstate, htarget, current, hclaim⟩)
    ⟨current, hclaim, hterminal⟩

/-- What the loop leaves of each claim: a mark for each edge, where the claim is not terminal. -/
structure Marks (state : KnowledgeState) (premise : Json) (relations : List RelationRecord)
    (state' : KnowledgeState) : Prop where
  states : ∀ id, state.Nonterminal id → state'.claims.get? id =
    if edges premise id relations = [] then state.claims.get? id else some "stale_pending_review"
  histories : ∀ id, state.Nonterminal id → state'.claim_history.get? id =
    (state.claim_history.get? id).map
      (· ++ List.replicate (edges premise id relations).length "stale_pending_review")
  other_states : ∀ id, ¬ state.Nonterminal id → state'.claims.get? id = state.claims.get? id
  other_histories : ∀ id, ¬ state.Nonterminal id →
    state'.claim_history.get? id = state.claim_history.get? id
  relations : state'.relations = state.relations
  relation_history : state'.relation_history = state.relation_history

theorem map_append_none (history : Option (List String)) (mark : String) :
    history.map (· ++ List.replicate 0 mark) = history := by
  cases history with
  | none => rfl
  | some history => exact congrArg some (List.append_nil history)

theorem Marks.refl (state : KnowledgeState) (premise : Json) : Marks state premise [] state where
  states _ _ := rfl
  histories _ _ := (map_append_none _ _).symm
  other_states _ _ := rfl
  other_histories _ _ := rfl
  relations := rfl
  relation_history := rfl

theorem Marks.skip {relation : RelationRecord} {rest : List RelationRecord} {b : Bool}
    (h : state.dependsOn premise relation = .ok b)
    (hskip : b = true → ¬ state.Nonterminal relation.source_ref)
    (hrest : Marks state premise rest state') : Marks state premise (relation :: rest) state' where
  states id hid := by
    rw [edges_cons_of_skip h hskip hid]
    exact hrest.states id hid
  histories id hid := by
    rw [edges_cons_of_skip h hskip hid]
    exact hrest.histories id hid
  other_states := hrest.other_states
  other_histories := hrest.other_histories
  relations := hrest.relations
  relation_history := hrest.relation_history

/-- The source of the first edge is marked once, and then once more for each later edge. -/
theorem Marks.mark {relation : RelationRecord} {rest : List RelationRecord} {history : List String}
    (h : state.dependsOn premise relation = .ok true)
    (hsource : state.Nonterminal relation.source_ref)
    (hhistory : state.claim_history.get? relation.source_ref = some history)
    (hrest : Marks (state.moveClaim relation.source_ref history "stale_pending_review") premise rest
      state') : Marks state premise (relation :: rest) state' := by
  obtain ⟨htype, hstate, htarget, -⟩ := (dependsOn_iff h).mp rfl
  have hnonterminal : ∀ id,
      (state.moveClaim relation.source_ref history "stale_pending_review").Nonterminal id ↔
        state.Nonterminal id := by
    intro id
    rw [nonterminal_moveClaim]
    split_ifs with hid
    · subst hid
      exact iff_of_true (by decide) hsource
    · exact Iff.rfl
  have hself : edges premise relation.source_ref (relation :: rest) =
      relation :: edges premise relation.source_ref rest :=
    List.filter_cons_of_pos (decide_eq_true ⟨htype, hstate, htarget, rfl⟩)
  have hother : ∀ id, id ≠ relation.source_ref →
      edges premise id (relation :: rest) = edges premise id rest := fun id hid =>
    List.filter_cons_of_neg fun hedge => hid (of_decide_eq_true hedge).2.2.2.symm
  refine ⟨fun id hid => ?_, fun id hid => ?_, fun id hid => ?_, fun id hid => ?_, hrest.relations,
    hrest.relation_history⟩
  · rw [hrest.states id ((hnonterminal id).mpr hid)]
    by_cases hsame : id = relation.source_ref
    · subst hsame
      rw [hself, if_neg (List.cons_ne_nil _ _), moveClaim, Dict.get?_set_self, ite_self]
    · rw [hother id hsame, moveClaim, Dict.get?_set_ne _ _ hsame]
  · rw [hrest.histories id ((hnonterminal id).mpr hid)]
    by_cases hsame : id = relation.source_ref
    · subst hsame
      rw [hself, moveClaim, Dict.get?_set_self, hhistory, Option.map_some, Option.map_some,
        List.append_assoc, List.length_cons, List.replicate_succ]
      rfl
    · rw [hother id hsame, moveClaim, Dict.get?_set_ne _ _ hsame]
  · have hne : id ≠ relation.source_ref := fun heq => hid (heq ▸ hsource)
    rw [hrest.other_states id (fun h => hid ((hnonterminal id).mp h)), moveClaim,
      Dict.get?_set_ne _ _ hne]
  · have hne : id ≠ relation.source_ref := fun heq => hid (heq ▸ hsource)
    rw [hrest.other_histories id (fun h => hid ((hnonterminal id).mp h)), moveClaim,
      Dict.get?_set_ne _ _ hne]

theorem markStale_marks {relations : List RelationRecord}
    (h : state.markStale premise relations = (.ok (), state')) :
    Marks state premise relations state' := by
  induction relations generalizing state with
  | nil =>
      cases h
      exact Marks.refl _ premise
  | cons relation rest ih =>
      rw [markStale] at h
      split at h
      · cases h
      · next hdepends => exact Marks.skip hdepends (fun htrue => absurd htrue Bool.false_ne_true) (ih h)
      · next hdepends =>
          split at h
          · cases h
          · next current hclaim =>
              split at h
              · next hterminal =>
                  refine Marks.skip hdepends (fun _ hsource => ?_) (ih h)
                  obtain ⟨found, hfound, hnot⟩ := hsource
                  cases hclaim.symm.trans hfound
                  exact hnot hterminal
              · next hnot =>
                  split at h
                  · cases h
                  · next hchange =>
                      obtain ⟨history, hhistory, rfl⟩ := change_claim_ok hchange
                      exact Marks.mark hdepends ⟨current, hclaim, hnot⟩ hhistory (ih h)

end Marks

/-- The premise is terminal when the loop starts, so it is no dependent of its own. -/
theorem nonterminal_superseded {state : KnowledgeState} {premise : Json} {history : List String}
    (id : Json) : (state.moveClaim premise history "superseded").Nonterminal id ↔
      id ≠ premise ∧ state.Nonterminal id := by
  rw [nonterminal_moveClaim]
  split_ifs with hid
  · exact iff_of_false (by decide) fun h => h.1 hid
  · exact (and_iff_right hid).symm

theorem supersedes_of_marks {state state' : KnowledgeState} (h : Coherent state) {premise : Json}
    {history : List String} (hhistory : state.claim_history.get? premise = some history)
    (hmarks : Marks (state.moveClaim premise history "superseded") premise state.relations.values
      state') : Supersedes state premise state' := by
  have hpremise : ¬ (state.moveClaim premise history "superseded").Nonterminal premise :=
    fun hnot => ((nonterminal_superseded premise).mp hnot).1 rfl
  have hmarked : ∀ id, state.Dependent premise id →
      (state.moveClaim premise history "superseded").Nonterminal id := fun id hid =>
    (nonterminal_superseded id).mpr ⟨hid.1, hid.2.1⟩
  refine ⟨?_, ⟨history, hhistory, ?_⟩, fun id hid => ?_, fun id hid => ?_, fun id hne hid => ?_,
    fun id hne hid => ?_, hmarks.relations, hmarks.relation_history⟩
  · rw [hmarks.other_states premise hpremise, moveClaim, Dict.get?_set_self]
  · rw [hmarks.other_histories premise hpremise, moveClaim, Dict.get?_set_self]
  · rw [hmarks.states id (hmarked id hid)]
    exact if_neg hid.2.2
  · obtain ⟨current, hclaim, -⟩ := hid.2.1
    obtain ⟨earlier, hearlier⟩ := h.exists_claim_history hclaim
    refine ⟨earlier, hearlier, ?_⟩
    rw [hmarks.histories id (hmarked id hid), moveClaim, Dict.get?_set_ne _ _ hid.1, hearlier]
    rfl
  · by_cases hnonterminal : state.Nonterminal id
    · have hedges : edges premise id state.relations.values = [] := by
        by_contra hedges
        exact hid ⟨hne, hnonterminal, hedges⟩
      rw [hmarks.states id ((nonterminal_superseded id).mpr ⟨hne, hnonterminal⟩), if_pos hedges,
        moveClaim, Dict.get?_set_ne _ _ hne]
    · rw [hmarks.other_states id fun hnot => hnonterminal ((nonterminal_superseded id).mp hnot).2,
        moveClaim, Dict.get?_set_ne _ _ hne]
  · by_cases hnonterminal : state.Nonterminal id
    · have hedges : edges premise id state.relations.values = [] := by
        by_contra hedges
        exact hid ⟨hne, hnonterminal, hedges⟩
      rw [hmarks.histories id ((nonterminal_superseded id).mpr ⟨hne, hnonterminal⟩), hedges,
        moveClaim, Dict.get?_set_ne _ _ hne]
      exact map_append_none _ _
    · rw [hmarks.other_histories id fun hnot => hnonterminal ((nonterminal_superseded id).mp hnot).2,
        moveClaim, Dict.get?_set_ne _ _ hne]

theorem applyKind_superseded {state state' : KnowledgeState} (h : Coherent state)
    {payload premise : Json}
    (happly : state.applyKind (.str "claim.superseded") payload premise = (.ok (), state')) :
    Supersedes state premise state' := by
  rw [applyKind, if_neg (by decide), if_neg (by decide), if_pos rfl] at happly
  split at happly
  · cases happly
  · split at happly
    · cases happly
    · next hchange =>
        obtain ⟨history, hhistory, rfl⟩ := change_claim_ok hchange
        exact supersedes_of_marks h hhistory (markStale_marks happly)

theorem applyKind_state_changed {state state' : KnowledgeState} {payload premise : Json}
    (hto : payload.get? "to_state" = some (.str "superseded"))
    (happly : state.applyKind (.str "claim.state_changed") payload premise = (.ok (), state')) :
    ∃ history, state.claim_history.get? premise = some history ∧
      state' = state.moveClaim premise history "superseded" := by
  rw [applyKind, if_neg (by decide), if_pos rfl, Json.getItem_ok_iff.mpr hto] at happly
  exact change_claim_ok happly

theorem applyKind_of_apply {state state' : KnowledgeState} {event kind payload subject : Json}
    (hhead : readHead event = .ok (kind, payload, subject))
    (happly : state.apply event = (.ok (), state')) :
    state.applyKind kind payload subject = (.ok (), state') := by
  rw [apply, hhead] at happly
  exact happly

/-- The two results differ where a dependent is marked that was not stale before. -/
theorem same_states_iff {state state₂ : KnowledgeState} {premise : Json} {history : List String}
    (h : Supersedes state premise state₂) :
    (∀ id, (state.moveClaim premise history "superseded").claims.get? id = state₂.claims.get? id) ↔
      ∀ id, state.Dependent premise id → state.claims.get? id = some "stale_pending_review" := by
  constructor
  · intro hsame id hid
    have hstate := hsame id
    rw [h.dependent_states id hid, moveClaim, Dict.get?_set_ne _ _ hid.1] at hstate
    exact hstate
  · intro hstale id
    by_cases hpremise : id = premise
    · subst hpremise
      rw [h.premise_state, moveClaim, Dict.get?_set_self]
    · rw [moveClaim, Dict.get?_set_ne _ _ hpremise]
      by_cases hid : state.Dependent premise id
      · rw [h.dependent_states id hid, hstale id hid]
      · rw [h.other_states id hpremise hid]

end KnowledgeState

open KnowledgeState in
/-- Every supersession that is accepted has its intended effect, in every state that calls leave
behind. -/
theorem supersession_effect (events : List Json) (event payload premise : Json)
    (state' : KnowledgeState)
    (hhead : readHead event = .ok (.str "claim.superseded", payload, premise))
    (happly : (afterCalls events).apply event = (.ok (), state')) :
    Supersedes (afterCalls events) premise state' :=
  applyKind_superseded (coherent_afterCalls events) (applyKind_of_apply hhead happly)

/-! ## A claim and its dependent -/

def proposedClaim (event_id claim_id : String) : Json :=
  minimalEvent event_id "claim.proposed" "2026-01-01T00:00:00Z" "pack_0123456789abcdef" [claim_id]
    [("claim_text", .str "text")] []

def dependencyPayload : List (String × Json) :=
  [("relation_id", .str "relation_01"), ("relation_type", .str "DEPENDS_ON"),
    ("source_ref", .str "claim_02"), ("target_ref", .str "claim_01")]

/-- The second claim depends on the first. -/
def dependentLog : List Json :=
  [proposedClaim "evt_0123456789abcdf1" "claim_01", proposedClaim "evt_0123456789abcdf2" "claim_02",
    minimalEvent "evt_0123456789abcdf3" "relation.proposed" "2026-01-02T00:00:00Z"
      "pack_0123456789abcdef" ["relation_01"] dependencyPayload [],
    minimalEvent "evt_0123456789abcdf4" "relation.state_changed" "2026-01-03T00:00:00Z"
      "pack_0123456789abcdef" ["relation_01"]
      (dependencyPayload ++ [("to_state", .str "active"), ("ontology_ref", .str "dkg.core@1.0.0"),
        ("source_type", .str "Claim"), ("target_type", .str "Claim")]) []]

def stateChange : Json :=
  minimalEvent "evt_0123456789abcdf5" "claim.state_changed" "2026-01-04T00:00:00Z"
    "pack_0123456789abcdef" ["claim_01"] [("to_state", .str "superseded")] []

def supersession : Json :=
  minimalEvent "evt_0123456789abcdf6" "claim.superseded" "2026-01-04T00:00:00Z"
    "pack_0123456789abcdef" ["claim_01"] [("superseded_by", .str "claim_03")] []

open KnowledgeState in
theorem supersession_effect_of_dependent :
    ∃ state', (afterCalls dependentLog).apply supersession = (.ok (), state') ∧
      Supersedes (afterCalls dependentLog) (.str "claim_01") state' :=
  ⟨_, rfl, supersession_effect dependentLog supersession _ _ _ rfl rfl⟩

open KnowledgeState in
/-- The two ways of superseding a claim lead to the same states exactly where every dependent of the
claim is stale already. -/
theorem superseding_agrees_iff (events : List Json) (changed superseded : Json)
    (payload₁ payload₂ premise : Json) (state₁ state₂ : KnowledgeState)
    (hchanged : readHead changed = .ok (.str "claim.state_changed", payload₁, premise))
    (hto : payload₁.get? "to_state" = some (.str "superseded"))
    (hsuperseded : readHead superseded = .ok (.str "claim.superseded", payload₂, premise))
    (h₁ : (afterCalls events).apply changed = (.ok (), state₁))
    (h₂ : (afterCalls events).apply superseded = (.ok (), state₂)) :
    ((∀ id, state₁.claims.get? id = state₂.claims.get? id) ∧ state₁.relations = state₂.relations) ↔
      ∀ id, (afterCalls events).Dependent premise id →
        (afterCalls events).claims.get? id = some "stale_pending_review" := by
  obtain ⟨history, -, rfl⟩ := applyKind_state_changed hto (applyKind_of_apply hchanged h₁)
  have heffect := applyKind_superseded (coherent_afterCalls events)
    (applyKind_of_apply hsuperseded h₂)
  rw [← same_states_iff heffect]
  exact and_iff_left heffect.relations.symm

theorem superseding_agrees_of_lone_claim :
    ∃ state₁ state₂, (KnowledgeState.afterCalls [proposedClaim "evt_0123456789abcdf1" "claim_01"]).apply
        stateChange = (.ok (), state₁) ∧
      (KnowledgeState.afterCalls [proposedClaim "evt_0123456789abcdf1" "claim_01"]).apply
        supersession = (.ok (), state₂) ∧
      (∀ id, state₁.claims.get? id = state₂.claims.get? id) ∧
        state₁.relations = state₂.relations := by
  refine ⟨_, _, rfl, rfl, (superseding_agrees_iff [proposedClaim "evt_0123456789abcdf1" "claim_01"]
    stateChange supersession _ _ (.str "claim_01") _ _ rfl rfl rfl rfl rfl).mpr ?_⟩
  rintro id ⟨-, -, hedges⟩
  exact absurd rfl hedges

theorem supersedingEvents_accepted (event : Json)
    (h : event ∈ stateChange :: supersession :: dependentLog) :
    ∃ contract, validate_event_for_commit StoreConfig.plain.formats sampleResolvers event =
      .ok contract := by
  apply exists_ok_of_toBool
  revert event
  decide +kernel

open KnowledgeState in
/-- The gate accepts all the events, and the dependent stays as it was. -/
theorem state_change_spares_dependents :
    ¬ ∀ (events : List Json) (changed superseded payload₁ payload₂ premise : Json)
      (state₁ state₂ : KnowledgeState),
      (∀ event ∈ changed :: superseded :: events, ∃ contract,
        validate_event_for_commit StoreConfig.plain.formats sampleResolvers event = .ok contract) →
      readHead changed = .ok (.str "claim.state_changed", payload₁, premise) →
      payload₁.get? "to_state" = some (.str "superseded") →
      readHead superseded = .ok (.str "claim.superseded", payload₂, premise) →
      (afterCalls events).apply changed = (.ok (), state₁) →
      (afterCalls events).apply superseded = (.ok (), state₂) →
        (∀ id, state₁.claims.get? id = state₂.claims.get? id) ∧
          state₁.relations = state₂.relations := by
  intro h
  have hsame := (h dependentLog stateChange supersession _ _ _ _ _ supersedingEvents_accepted
    rfl rfl rfl rfl rfl).1 (.str "claim_02")
  revert hsame
  decide

end FossilCore
