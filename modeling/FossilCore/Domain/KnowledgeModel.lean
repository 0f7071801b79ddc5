import Mathlib.Logic.Function.Basic
import FossilCore.Base.GuardedLog

/-!
# The abstract knowledge log

What lifecycle replay is for, over arbitrary identifiers: claims and relations with a current
state, and a log of transitions guarded by the state they meet.  A claim is proposed before it
changes and once only, and so is a relation; a transition that names the state it starts from
meets that state.  Superseding a claim marks the claims that depend on it as stale.
-/

namespace FossilCore

open Base

inductive ClaimState where
  | proposed
  | opened
  | supported
  | disputed
  | rejected
  | superseded
  | retracted
  | stalePendingReview
  deriving DecidableEq, Repr

inductive RelationState where
  | proposed
  | active
  | disputed
  | superseded
  | invalidated
  deriving DecidableEq, Repr

def ClaimState.terminal : ClaimState → Prop
  | .superseded | .retracted | .rejected => True
  | _ => False

instance : DecidablePred ClaimState.terminal := fun s => by
  cases s <;> unfold ClaimState.terminal <;> infer_instance

variable {κ : Type*}

structure Relation (κ : Type*) where
  relationType : String
  source : κ
  target : κ
  state : RelationState

structure Knowledge (κ : Type*) where
  claims : κ → Option ClaimState
  relations : κ → Option (Relation κ)

inductive Transition (κ : Type*) where
  | proposeClaim (c : κ)
  | changeClaim (c : κ) (target : ClaimState) (expected : Option ClaimState)
  | supersedeClaim (c : κ) (expected : Option ClaimState)
  | proposeRelation (r : κ) (relation : Relation κ)
  | moveRelation (r : κ) (target : RelationState) (expected : Option RelationState)
  | inert

namespace Transition

/-- The transition proposes, changes or supersedes the claim. -/
def OnClaim (c : κ) : Transition κ → Prop
  | .proposeClaim c' | .changeClaim c' _ _ | .supersedeClaim c' _ => c' = c
  | _ => False

def ChangesClaim (c : κ) : Transition κ → Prop
  | .changeClaim c' _ _ | .supersedeClaim c' _ => c' = c
  | _ => False

def OnRelation (r : κ) : Transition κ → Prop
  | .proposeRelation r' _ | .moveRelation r' _ _ => r' = r
  | _ => False

def MovesRelation (r : κ) : Transition κ → Prop
  | .moveRelation r' _ _ => r' = r
  | _ => False

end Transition

namespace Knowledge

def empty : Knowledge κ := ⟨fun _ => none, fun _ => none⟩

theorem ext {k k' : Knowledge κ} (hclaims : ∀ c, k.claims c = k'.claims c)
    (hrelations : ∀ r, k.relations r = k'.relations r) : k = k' := by
  cases k
  cases k'
  congr
  · exact funext hclaims
  · exact funext hrelations

/-- The relation makes its source depend on the claim. -/
def Relation.DependsOn (relation : Relation κ) (c : κ) : Prop :=
  relation.relationType = "DEPENDS_ON" ∧ relation.state = .active ∧ relation.target = c

/-- The claims that superseding `c` marks as stale. -/
def Stale (k : Knowledge κ) (c x : κ) : Prop :=
  (∃ r relation, k.relations r = some relation ∧ Relation.DependsOn relation c ∧
    relation.source = x) ∧ ∃ s, k.claims x = some s ∧ ¬ s.terminal

def ClaimGuard (k : Knowledge κ) (c : κ) (expected : Option ClaimState) : Prop :=
  ∃ s, k.claims c = some s ∧ ∀ e, expected = some e → s = e

def RelationGuard (k : Knowledge κ) (r : κ) (expected : Option RelationState) : Prop :=
  ∃ relation, k.relations r = some relation ∧ ∀ e, expected = some e → relation.state = e

def Admissible (k : Knowledge κ) : Transition κ → Prop
  | .proposeClaim c => k.claims c = none
  | .changeClaim c _ expected => k.ClaimGuard c expected
  | .supersedeClaim c expected => k.ClaimGuard c expected
  | .proposeRelation r _ => k.relations r = none
  | .moveRelation r _ expected => k.RelationGuard r expected
  | .inert => True

section Effect

open Classical

noncomputable def claimsAfter (k : Knowledge κ) : Transition κ → κ → Option ClaimState
  | .proposeClaim c, x => if x = c then some .proposed else k.claims x
  | .changeClaim c target _, x => if x = c then some target else k.claims x
  | .supersedeClaim c _, x =>
      if x = c then some .superseded
      else if k.Stale c x then some .stalePendingReview
      else k.claims x
  | _, x => k.claims x

noncomputable def relationsAfter (k : Knowledge κ) : Transition κ → κ → Option (Relation κ)
  | .proposeRelation r relation, x => if x = r then some relation else k.relations x
  | .moveRelation r target _, x =>
      if x = r then (k.relations r).map fun relation => { relation with state := target }
      else k.relations x
  | _, x => k.relations x

end Effect

noncomputable def effect (k : Knowledge κ) (t : Transition κ) : Knowledge κ :=
  ⟨k.claimsAfter t, k.relationsAfter t⟩

@[simp] theorem claims_effect (k : Knowledge κ) (t : Transition κ) (x : κ) :
    (k.effect t).claims x = k.claimsAfter t x := rfl

@[simp] theorem relations_effect (k : Knowledge κ) (t : Transition κ) (x : κ) :
    (k.effect t).relations x = k.relationsAfter t x := rfl

/-- The knowledge log as a guarded log. -/
noncomputable def log (κ : Type*) : Guarded (Knowledge κ) (Transition κ) :=
  ⟨Admissible, effect⟩

@[simp] theorem log_guard (k : Knowledge κ) (t : Transition κ) :
    (log κ).guard k t = k.Admissible t := rfl

@[simp] theorem log_effect (k : Knowledge κ) (t : Transition κ) :
    (log κ).effect k t = k.effect t := rfl

/-- The knowledge a log of transitions builds up. -/
noncomputable def of (transitions : List (Transition κ)) : Knowledge κ :=
  (log κ).after empty transitions

/-! ## What an effect leaves alone -/

theorem claimsAfter_isSome {k : Knowledge κ} {c : κ} (t : Transition κ)
    (h : (k.claims c).isSome) : (k.claimsAfter t c).isSome := by
  cases t <;> simp only [claimsAfter] <;> (try split_ifs) <;> first | rfl | exact h

theorem claimsAfter_of_not_onClaim {k : Knowledge κ} {t : Transition κ} {c : κ}
    (ht : ¬ t.OnClaim c) (h : k.claims c = none) : k.claimsAfter t c = none := by
  cases t with
  | proposeClaim c' => simpa [claimsAfter, Ne.symm ht] using h
  | changeClaim c' target expected => simpa [claimsAfter, Ne.symm ht] using h
  | supersedeClaim c' expected =>
      have hstale : ¬ k.Stale c' c := by
        rintro ⟨-, s, hs, -⟩
        rw [h] at hs
        cases hs
      simpa [claimsAfter, Ne.symm ht, hstale] using h
  | proposeRelation r relation => exact h
  | moveRelation r target expected => exact h
  | inert => exact h

theorem relationsAfter_isSome {k : Knowledge κ} {r : κ} (t : Transition κ)
    (h : (k.relations r).isSome) : (k.relationsAfter t r).isSome := by
  cases t with
  | proposeRelation r' relation =>
      simp only [relationsAfter]
      split_ifs
      · rfl
      · exact h
  | moveRelation r' target expected =>
      simp only [relationsAfter]
      split_ifs with hr
      · subst hr
        simpa using h
      · exact h
  | _ => exact h

theorem relationsAfter_of_not_onRelation {k : Knowledge κ} {t : Transition κ} {r : κ}
    (ht : ¬ t.OnRelation r) : k.relationsAfter t r = k.relations r := by
  cases t with
  | proposeRelation r' relation => simp [relationsAfter, Ne.symm ht]
  | moveRelation r' target expected => simp [relationsAfter, Ne.symm ht]
  | _ => rfl

theorem claimsAfter_congr {k k' : Knowledge κ} {x : κ} (hx : k.claims x = k'.claims x)
    (hstale : ∀ c, k.Stale c x ↔ k'.Stale c x) (t : Transition κ) :
    k.claimsAfter t x = k'.claimsAfter t x := by
  cases t with
  | supersedeClaim c expected =>
      by_cases hs : k.Stale c x
      · simp [claimsAfter, hs, (hstale c).mp hs]
      · have hs' : ¬ k'.Stale c x := fun h => hs ((hstale c).mpr h)
        simp [claimsAfter, hs, hs', hx]
  | _ => simp only [claimsAfter, hx]

/-! ## Taking one transition out of an accepted log -/

/-- The states differ in the claim `c` alone, which the second does not know. -/
structure LacksClaim (c : κ) (k k' : Knowledge κ) : Prop where
  relations : ∀ r, k.relations r = k'.relations r
  claims : ∀ x, x ≠ c → k.claims x = k'.claims x
  unknown : k'.claims c = none

theorem LacksClaim.admissible_iff {c : κ} {k k' : Knowledge κ} (h : LacksClaim c k k')
    {t : Transition κ} (ht : ¬ t.OnClaim c) : k.Admissible t ↔ k'.Admissible t := by
  cases t with
  | proposeClaim c' => simp only [Admissible, h.claims c' ht]
  | changeClaim c' target expected => simp only [Admissible, ClaimGuard, h.claims c' ht]
  | supersedeClaim c' expected => simp only [Admissible, ClaimGuard, h.claims c' ht]
  | proposeRelation r relation => simp only [Admissible, h.relations]
  | moveRelation r target expected => simp only [Admissible, RelationGuard, h.relations]
  | inert => exact Iff.rfl

theorem LacksClaim.effect {c : κ} {k k' : Knowledge κ} (h : LacksClaim c k k')
    {t : Transition κ} (ht : ¬ t.OnClaim c) : LacksClaim c (k.effect t) (k'.effect t) := by
  refine ⟨?_, ?_, claimsAfter_of_not_onClaim ht h.unknown⟩
  · intro r
    cases t <;> simp only [relations_effect, relationsAfter, h.relations]
  · intro x hx
    refine claimsAfter_congr (h.claims x hx) ?_ t
    intro c'
    simp only [Stale, h.relations, h.claims x hx]

/-- The states differ in the relation `r` alone, which the first holds inactive and the second
does not know. -/
structure LacksRelation (r : κ) (k k' : Knowledge κ) : Prop where
  claims : ∀ c, k.claims c = k'.claims c
  relations : ∀ x, x ≠ r → k.relations x = k'.relations x
  inactive : ∀ relation, k.relations r = some relation → relation.state ≠ .active
  unknown : k'.relations r = none

theorem LacksRelation.stale_iff {r : κ} {k k' : Knowledge κ} (h : LacksRelation r k k')
    (c x : κ) : k.Stale c x ↔ k'.Stale c x := by
  have hclaims : k.claims x = k'.claims x := h.claims x
  constructor
  · rintro ⟨⟨y, relation, hy, hdep, hsource⟩, hstate⟩
    have hne : y ≠ r := by
      rintro rfl
      exact h.inactive relation hy hdep.2.1
    exact ⟨⟨y, relation, h.relations y hne ▸ hy, hdep, hsource⟩, hclaims ▸ hstate⟩
  · rintro ⟨⟨y, relation, hy, hdep, hsource⟩, hstate⟩
    have hne : y ≠ r := by
      rintro rfl
      rw [h.unknown] at hy
      cases hy
    exact ⟨⟨y, relation, (h.relations y hne).symm ▸ hy, hdep, hsource⟩, hclaims.symm ▸ hstate⟩

theorem LacksRelation.admissible_iff {r : κ} {k k' : Knowledge κ} (h : LacksRelation r k k')
    {t : Transition κ} (ht : ¬ t.OnRelation r) : k.Admissible t ↔ k'.Admissible t := by
  cases t with
  | proposeClaim c => simp only [Admissible, h.claims]
  | changeClaim c target expected => simp only [Admissible, ClaimGuard, h.claims]
  | supersedeClaim c expected => simp only [Admissible, ClaimGuard, h.claims]
  | proposeRelation r' relation => simp only [Admissible, h.relations r' ht]
  | moveRelation r' target expected => simp only [Admissible, RelationGuard, h.relations r' ht]
  | inert => exact Iff.rfl

theorem LacksRelation.effect {r : κ} {k k' : Knowledge κ} (h : LacksRelation r k k')
    {t : Transition κ} (ht : ¬ t.OnRelation r) : LacksRelation r (k.effect t) (k'.effect t) := by
  refine ⟨?_, ?_, ?_, ?_⟩
  · intro c
    exact claimsAfter_congr (h.claims c) (fun c' => h.stale_iff c' c) t
  · intro x hx
    cases t with
    | moveRelation r' target expected =>
        simp only [relations_effect, relationsAfter, h.relations x hx, h.relations r' ht]
    | _ => simp only [relations_effect, relationsAfter, h.relations x hx]
  · intro relation hrelation
    rw [relations_effect, relationsAfter_of_not_onRelation ht] at hrelation
    exact h.inactive relation hrelation
  · rw [relations_effect, relationsAfter_of_not_onRelation ht, h.unknown]

/-- The states know the same claims and relations, in states that may differ. -/
structure SameKnown (k k' : Knowledge κ) : Prop where
  claims : ∀ c, (k.claims c).isSome = (k'.claims c).isSome
  relations : ∀ r, (k.relations r).isSome = (k'.relations r).isSome

/-- The state the transition names as the one it starts from, if any, is the current one. -/
def MeetsExpected (k : Knowledge κ) : Transition κ → Prop
  | .changeClaim c _ expected | .supersedeClaim c expected =>
      ∀ e, expected = some e → k.claims c = some e
  | .moveRelation r _ expected =>
      ∀ e, expected = some e → (k.relations r).map Relation.state = some e
  | _ => True

theorem SameKnown.claimGuard_iff {k k' : Knowledge κ} (h : SameKnown k k') {c : κ}
    {expected : Option ClaimState} (hk : k.ClaimGuard c expected) :
    k'.ClaimGuard c expected ↔ ∀ e, expected = some e → k'.claims c = some e := by
  obtain ⟨s, hs, -⟩ := hk
  have hsome : (k'.claims c).isSome := by
    rw [← h.claims c, hs]
    rfl
  obtain ⟨s', hs'⟩ := Option.isSome_iff_exists.mp hsome
  constructor
  · rintro ⟨s'', hs'', he⟩ e hexp
    rw [hs'', he e hexp]
  · intro he
    refine ⟨s', hs', ?_⟩
    intro e hexp
    exact Option.some.inj (hs'.symm.trans (he e hexp))

theorem SameKnown.relationGuard_iff {k k' : Knowledge κ} (h : SameKnown k k') {r : κ}
    {expected : Option RelationState} (hk : k.RelationGuard r expected) :
    k'.RelationGuard r expected ↔
      ∀ e, expected = some e → (k'.relations r).map Relation.state = some e := by
  obtain ⟨relation, hrelation, -⟩ := hk
  have hsome : (k'.relations r).isSome := by
    rw [← h.relations r, hrelation]
    rfl
  obtain ⟨relation', hrelation'⟩ := Option.isSome_iff_exists.mp hsome
  constructor
  · rintro ⟨relation'', hrelation'', he⟩ e hexp
    rw [hrelation'', Option.map_some, he e hexp]
  · intro he
    refine ⟨relation', hrelation', ?_⟩
    intro e hexp
    have hstate := he e hexp
    rw [hrelation', Option.map_some] at hstate
    exact Option.some.inj hstate

theorem SameKnown.admissible_iff {k k' : Knowledge κ} (h : SameKnown k k') {t : Transition κ}
    (ht : k.Admissible t) : k'.Admissible t ↔ k'.MeetsExpected t := by
  cases t with
  | proposeClaim c =>
      have hnone : k'.claims c = none := by
        have hk : k.claims c = none := ht
        rw [← Option.not_isSome_iff_eq_none, ← h.claims c, hk]
        simp
      exact iff_of_true hnone trivial
  | changeClaim c target expected => exact h.claimGuard_iff ht
  | supersedeClaim c expected => exact h.claimGuard_iff ht
  | proposeRelation r relation =>
      have hnone : k'.relations r = none := by
        have hk : k.relations r = none := ht
        rw [← Option.not_isSome_iff_eq_none, ← h.relations r, hk]
        simp
      exact iff_of_true hnone trivial
  | moveRelation r target expected => exact h.relationGuard_iff ht
  | inert => exact Iff.rfl

theorem isSome_claimsAfter_supersede (k : Knowledge κ) (c x : κ) (expected : Option ClaimState) :
    (k.claimsAfter (.supersedeClaim c expected) x).isSome ↔ x = c ∨ (k.claims x).isSome := by
  by_cases hx : x = c
  · simp [claimsAfter, hx]
  · by_cases hs : k.Stale c x
    · obtain ⟨s, hstate, -⟩ := hs.2
      simp [claimsAfter, hx, hs, hstate]
    · simp [claimsAfter, hx, hs]

theorem SameKnown.effect {k k' : Knowledge κ} (h : SameKnown k k') (t : Transition κ) :
    SameKnown (k.effect t) (k'.effect t) := by
  constructor
  · intro x
    cases t with
    | proposeClaim c =>
        simp only [claims_effect, claimsAfter]
        split_ifs
        · rfl
        · exact h.claims x
    | changeClaim c target expected =>
        simp only [claims_effect, claimsAfter]
        split_ifs
        · rfl
        · exact h.claims x
    | supersedeClaim c expected =>
        rw [Bool.eq_iff_iff, claims_effect, claims_effect, isSome_claimsAfter_supersede,
          isSome_claimsAfter_supersede, h.claims]
    | _ => exact h.claims x
  · intro x
    cases t with
    | proposeRelation r relation =>
        simp only [relations_effect, relationsAfter]
        split_ifs
        · rfl
        · exact h.relations x
    | moveRelation r target expected =>
        simp only [relations_effect, relationsAfter]
        split_ifs
        · simpa using h.relations r
        · exact h.relations x
    | _ => exact h.relations x

/-- What the rest of an accepted log must satisfy for it to be accepted without the transition:
nothing more happens to a removed proposal's claim or relation, and after a removed change the
states that later transitions start from are still met. -/
def Removable (k : Knowledge κ) (t : Transition κ) (rest : List (Transition κ)) : Prop :=
  match t with
  | .proposeClaim c => ∀ u ∈ rest, ¬ u.ChangesClaim c
  | .proposeRelation r _ => ∀ u ∈ rest, ¬ u.MovesRelation r
  | .inert => True
  | _ => ∀ before u later, rest = before ++ u :: later → ((log κ).after k before).MeetsExpected u

theorem onClaim_iff {t : Transition κ} {c : κ} :
    t.OnClaim c ↔ t = .proposeClaim c ∨ t.ChangesClaim c := by
  cases t <;> simp [Transition.OnClaim, Transition.ChangesClaim]

/-- A log does not propose a claim it already knows. -/
theorem not_proposeClaim_of_accepts {k : Knowledge κ} {c : κ} {rest : List (Transition κ)}
    (h : (log κ).Accepts k rest) (hknown : (k.claims c).isSome) :
    ∀ u ∈ rest, u ≠ .proposeClaim c := by
  induction rest generalizing k with
  | nil => simp
  | cons t rest ih =>
      intro u hu
      rcases List.mem_cons.mp hu with rfl | hu
      · rintro rfl
        have hnone : k.claims c = none := h.1
        rw [hnone] at hknown
        cases hknown
      · exact ih h.2 (claimsAfter_isSome t hknown) u hu

theorem onRelation_iff {t : Transition κ} {r : κ} :
    t.OnRelation r ↔ (∃ relation, t = .proposeRelation r relation) ∨ t.MovesRelation r := by
  cases t <;> simp [Transition.OnRelation, Transition.MovesRelation]

theorem not_proposeRelation_of_accepts {k : Knowledge κ} {r : κ} {rest : List (Transition κ)}
    (h : (log κ).Accepts k rest) (hknown : (k.relations r).isSome) :
    ∀ u ∈ rest, ∀ relation, u ≠ .proposeRelation r relation := by
  induction rest generalizing k with
  | nil => simp
  | cons t rest ih =>
      intro u hu relation
      rcases List.mem_cons.mp hu with rfl | hu
      · rintro rfl
        have hnone : k.relations r = none := h.1
        rw [hnone] at hknown
        cases hknown
      · exact ih h.2 (relationsAfter_isSome t hknown) u hu relation

/-- Nothing changes a claim that is not known. -/
theorem not_changesClaim_of_accepts {k : Knowledge κ} {c : κ} {rest : List (Transition κ)}
    (h : (log κ).Accepts k rest) (hunknown : k.claims c = none)
    (hpropose : ∀ u ∈ rest, u ≠ .proposeClaim c) : ∀ u ∈ rest, ¬ u.ChangesClaim c := by
  induction rest generalizing k with
  | nil => simp
  | cons t rest ih =>
      have ht : ¬ t.ChangesClaim c := by
        intro ht
        have hguard : k.Admissible t := h.1
        cases t with
        | changeClaim c' target expected =>
            obtain ⟨s, hs, -⟩ := hguard
            rw [show c' = c from ht, hunknown] at hs
            cases hs
        | supersedeClaim c' expected =>
            obtain ⟨s, hs, -⟩ := hguard
            rw [show c' = c from ht, hunknown] at hs
            cases hs
        | _ => exact ht
      have hon : ¬ t.OnClaim c := by
        rw [onClaim_iff, not_or]
        exact ⟨hpropose t List.mem_cons_self, ht⟩
      intro u hu
      rcases List.mem_cons.mp hu with rfl | hu
      · exact ht
      · exact ih h.2 (claimsAfter_of_not_onClaim hon hunknown)
          (fun v hv => hpropose v (List.mem_cons_of_mem t hv)) u hu

theorem not_movesRelation_of_accepts {k : Knowledge κ} {r : κ} {rest : List (Transition κ)}
    (h : (log κ).Accepts k rest) (hunknown : k.relations r = none)
    (hpropose : ∀ u ∈ rest, ∀ relation, u ≠ .proposeRelation r relation) :
    ∀ u ∈ rest, ¬ u.MovesRelation r := by
  induction rest generalizing k with
  | nil => simp
  | cons t rest ih =>
      have ht : ¬ t.MovesRelation r := by
        intro ht
        have hguard : k.Admissible t := h.1
        cases t with
        | moveRelation r' target expected =>
            obtain ⟨relation, hrelation, -⟩ := hguard
            rw [show r' = r from ht, hunknown] at hrelation
            cases hrelation
        | _ => exact ht
      have hon : ¬ t.OnRelation r := by
        rw [onRelation_iff, not_or, not_exists]
        exact ⟨hpropose t List.mem_cons_self, ht⟩
      intro u hu
      rcases List.mem_cons.mp hu with rfl | hu
      · exact ht
      · refine ih h.2 ?_ (fun v hv => hpropose v (List.mem_cons_of_mem t hv)) u hu
        rw [log_effect, relations_effect, relationsAfter_of_not_onRelation hon, hunknown]

theorem accepts_without_claim {k k' : Knowledge κ} {c : κ} {rest : List (Transition κ)}
    (hk : LacksClaim c k k') (hknown : (k.claims c).isSome) (h : (log κ).Accepts k rest) :
    (log κ).Accepts k' rest ↔ ∀ u ∈ rest, ¬ u.ChangesClaim c := by
  have hpropose := not_proposeClaim_of_accepts h hknown
  constructor
  · intro h'
    exact not_changesClaim_of_accepts h' hk.unknown hpropose
  · intro hchanges
    have hon : ∀ u ∈ rest, ¬ u.OnClaim c := by
      intro u hu
      rw [onClaim_iff, not_or]
      exact ⟨hpropose u hu, hchanges u hu⟩
    have hcongr : ((log κ).Accepts k rest ↔ (log κ).Accepts k' rest) ∧ _ :=
      Guarded.accepts_congr (R := LacksClaim c) hk (fun k k' t ht hR => hR.admissible_iff (hon t ht))
      (fun k k' t ht hR _ => hR.effect (hon t ht))
    exact hcongr.1.mp h

theorem accepts_without_relation {k k' : Knowledge κ} {r : κ} {rest : List (Transition κ)}
    (hk : LacksRelation r k k') (hknown : (k.relations r).isSome)
    (h : (log κ).Accepts k rest) :
    (log κ).Accepts k' rest ↔ ∀ u ∈ rest, ¬ u.MovesRelation r := by
  have hpropose := not_proposeRelation_of_accepts h hknown
  constructor
  · intro h'
    exact not_movesRelation_of_accepts h' hk.unknown hpropose
  · intro hmoves
    have hon : ∀ u ∈ rest, ¬ u.OnRelation r := by
      intro u hu
      rw [onRelation_iff, not_or, not_exists]
      exact ⟨hpropose u hu, hmoves u hu⟩
    have hcongr : ((log κ).Accepts k rest ↔ (log κ).Accepts k' rest) ∧ _ :=
      Guarded.accepts_congr (R := LacksRelation r) hk (fun k k' t ht hR => hR.admissible_iff (hon t ht))
      (fun k k' t ht hR _ => hR.effect (hon t ht))
    exact hcongr.1.mp h

theorem SameKnown.after {k k' : Knowledge κ} (h : SameKnown k k') (ts : List (Transition κ)) :
    SameKnown ((log κ).after k ts) ((log κ).after k' ts) := by
  induction ts generalizing k k' with
  | nil => exact h
  | cons t ts ih => exact ih (h.effect t)

theorem accepts_of_sameKnown {k k' : Knowledge κ} {rest : List (Transition κ)}
    (hk : SameKnown k k') (h : (log κ).Accepts k rest) :
    (log κ).Accepts k' rest ↔
      ∀ before u later, rest = before ++ u :: later →
        ((log κ).after k' before).MeetsExpected u := by
  rw [(log κ).accepts_iff_forall_split] at h ⊢
  constructor
  · intro h' before u later hrest
    exact ((hk.after before).admissible_iff (h before u later hrest)).mp
      (h' before u later hrest)
  · intro h' before u later hrest
    exact ((hk.after before).admissible_iff (h before u later hrest)).mpr
      (h' before u later hrest)

theorem sameKnown_effect {k : Knowledge κ} {t : Transition κ} (h : k.Admissible t)
    (hclaim : ∀ c, t ≠ .proposeClaim c) (hrelation : ∀ r relation, t ≠ .proposeRelation r relation) :
    SameKnown (k.effect t) k := by
  constructor
  · intro x
    cases t with
    | proposeClaim c => exact absurd rfl (hclaim c)
    | changeClaim c target expected =>
        obtain ⟨s, hs, -⟩ := h
        by_cases hx : x = c
        · simp [claimsAfter, hx, hs]
        · simp [claimsAfter, hx]
    | supersedeClaim c expected =>
        obtain ⟨s, hs, -⟩ := h
        rw [Bool.eq_iff_iff, claims_effect, isSome_claimsAfter_supersede]
        constructor
        · rintro (rfl | hx)
          · rw [hs]
            rfl
          · exact hx
        · exact Or.inr
    | _ => rfl
  · intro x
    cases t with
    | proposeRelation r relation => exact absurd rfl (hrelation r relation)
    | moveRelation r target expected =>
        by_cases hx : x = r
        · simp [relationsAfter, hx]
        · simp [relationsAfter, hx]
    | _ => rfl

/-- An accepted log stays accepted without its first transition exactly when the rest of it is
independent of that transition. -/
theorem accepts_erase {k : Knowledge κ} {t : Transition κ} {rest : List (Transition κ)}
    (h : (log κ).Accepts k (t :: rest))
    (hinactive : ∀ r relation, t = .proposeRelation r relation → relation.state ≠ .active) :
    (log κ).Accepts k rest ↔ k.Removable t rest := by
  obtain ⟨hguard, hrest⟩ := h
  rw [log_guard] at hguard
  cases t with
  | proposeClaim c =>
      have hlacks : LacksClaim c (k.effect (.proposeClaim c)) k := by
        refine ⟨fun r => rfl, ?_, hguard⟩
        intro x hx
        simp [claimsAfter, hx]
      exact accepts_without_claim hlacks (by simp [claimsAfter]) hrest
  | proposeRelation r relation =>
      have hlacks : LacksRelation r (k.effect (.proposeRelation r relation)) k := by
        refine ⟨fun c => rfl, ?_, ?_, hguard⟩
        · intro x hx
          simp [relationsAfter, hx]
        · intro relation' hrelation'
          have heq : relation = relation' := by simpa [relationsAfter] using hrelation'
          exact heq ▸ hinactive r relation rfl
      exact accepts_without_relation hlacks (by simp [relationsAfter]) hrest
  | inert => exact iff_of_true hrest trivial
  | changeClaim c target expected =>
      exact accepts_of_sameKnown (sameKnown_effect hguard (by simp) (by simp)) hrest
  | supersedeClaim c expected =>
      exact accepts_of_sameKnown (sameKnown_effect hguard (by simp) (by simp)) hrest
  | moveRelation r target expected =>
      exact accepts_of_sameKnown (sameKnown_effect hguard (by simp) (by simp)) hrest

end Knowledge

end FossilCore
