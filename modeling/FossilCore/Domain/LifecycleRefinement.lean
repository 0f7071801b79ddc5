import FossilCore.Domain.AcceptedEvent
import FossilCore.Domain.KnowledgeModel
import FossilCore.Domain.Lifecycle

/-!
# Lifecycle replay refines the knowledge log

A `KnowledgeState` reached from accepted events holds texts as identifiers and the names of
states; it represents an abstract `Knowledge`.  Each accepted event denotes a transition, and
`apply` succeeds exactly when the transition is admissible, with the effect of the abstract log.
-/

namespace FossilCore

open Base

namespace ClaimState

def name : ClaimState → String
  | .proposed => "proposed"
  | .opened => "open"
  | .supported => "supported"
  | .disputed => "disputed"
  | .rejected => "rejected"
  | .superseded => "superseded"
  | .retracted => "retracted"
  | .stalePendingReview => "stale_pending_review"

def all : List ClaimState :=
  [.proposed, .opened, .supported, .disputed, .rejected, .superseded, .retracted,
    .stalePendingReview]

def ofName? (s : String) : Option ClaimState := all.find? fun state => state.name = s

theorem ofName?_name (state : ClaimState) : ofName? state.name = some state := by
  cases state <;> decide

theorem name_of_ofName? {s : String} {state : ClaimState} (h : ofName? s = some state) :
    state.name = s := by
  simpa using List.find?_some h

theorem exists_of_mem {s : String} (h : s ∈ CLAIM_STATES) : ∃ state : ClaimState, s = state.name := by
  have hnames : CLAIM_STATES = all.map name := by decide
  rw [hnames, List.mem_map] at h
  obtain ⟨state, -, rfl⟩ := h
  exact ⟨state, rfl⟩

theorem name_mem (state : ClaimState) : state.name ∈ CLAIM_STATES := by
  cases state <;> decide

theorem name_inj {s t : ClaimState} (h : s.name = t.name) : s = t := by
  have hs := ofName?_name s
  rw [h, ofName?_name] at hs
  exact (Option.some.inj hs).symm

theorem name_mem_terminal {state : ClaimState} :
    state.name ∈ KnowledgeState.terminal ↔ state.terminal := by
  cases state <;> decide

end ClaimState

namespace RelationState

def name : RelationState → String
  | .proposed => "proposed"
  | .active => "active"
  | .disputed => "disputed"
  | .superseded => "superseded"
  | .invalidated => "invalidated"

def all : List RelationState := [.proposed, .active, .disputed, .superseded, .invalidated]

def ofName? (s : String) : Option RelationState := all.find? fun state => state.name = s

theorem ofName?_name (state : RelationState) : ofName? state.name = some state := by
  cases state <;> decide

theorem exists_of_mem {s : String} (h : s ∈ RELATION_STATES) :
    ∃ state : RelationState, s = state.name := by
  have hnames : RELATION_STATES = all.map name := by decide
  rw [hnames, List.mem_map] at h
  obtain ⟨state, -, rfl⟩ := h
  exact ⟨state, rfl⟩

theorem name_mem (state : RelationState) : state.name ∈ RELATION_STATES := by
  cases state <;> decide

theorem name_inj {s t : RelationState} (h : s.name = t.name) : s = t := by
  have hs := ofName?_name s
  rw [h, ofName?_name] at hs
  exact (Option.some.inj hs).symm

end RelationState

/-! ## Representation -/

/-- The record with these texts as identifiers. -/
def recordOf (r : String) (relation : Relation String) : RelationRecord :=
  ⟨.str r, relation.relationType, .str relation.source, .str relation.target,
    relation.state.name⟩

/-- The state represents the knowledge, and every identifier in it has a history. -/
structure Represents (state : KnowledgeState) (k : Knowledge String) : Prop where
  claims : ∀ id s, state.claims.get? id = some s ↔
    ∃ c cs, id = .str c ∧ k.claims c = some cs ∧ s = cs.name
  relations : ∀ id record, state.relations.get? id = some record ↔
    ∃ r relation, id = .str r ∧ k.relations r = some relation ∧ record = recordOf r relation
  claim_history : ∀ id s, state.claims.get? id = some s → (state.claim_history.get? id).isSome
  relation_history : ∀ id record, state.relations.get? id = some record →
    (state.relation_history.get? id).isSome

theorem represents_empty : Represents KnowledgeState.empty Knowledge.empty := by
  constructor <;> simp [KnowledgeState.empty, Knowledge.empty]

namespace Represents

variable {state : KnowledgeState} {k : Knowledge String}

theorem claims_get? (h : Represents state k) (c : String) :
    state.claims.get? (.str c) = (k.claims c).map ClaimState.name := by
  cases hk : k.claims c with
  | some cs => exact (h.claims _ _).mpr ⟨c, cs, rfl, hk, rfl⟩
  | none =>
      cases hs : state.claims.get? (.str c) with
      | none => rfl
      | some s =>
          obtain ⟨c', cs, hc, hcs, -⟩ := (h.claims _ _).mp hs
          cases hc
          rw [hk] at hcs
          cases hcs

theorem relations_get? (h : Represents state k) (r : String) :
    state.relations.get? (.str r) = (k.relations r).map (recordOf r) := by
  cases hk : k.relations r with
  | some relation => exact (h.relations _ _).mpr ⟨r, relation, rfl, hk, rfl⟩
  | none =>
      cases hs : state.relations.get? (.str r) with
      | none => rfl
      | some record =>
          obtain ⟨r', relation, hr, hrelation, -⟩ := (h.relations _ _).mp hs
          cases hr
          rw [hk] at hrelation
          cases hrelation

theorem knownIn_claims (h : Represents state k) (c : String) :
    knownIn (.str c) state.claims = .ok (k.claims c).isSome := by
  simp [knownIn, Json.hashable, Dict.contains, h.claims_get? c]

theorem knownIn_relations (h : Represents state k) (r : String) :
    knownIn (.str r) state.relations = .ok (k.relations r).isSome := by
  simp [knownIn, Json.hashable, Dict.contains, h.relations_get? r]

end Represents

theorem memberOf_of_mem {s : String} {names : List String} (h : s ∈ names) :
    memberOf (.str s) names = .ok (some s) := by
  simp [memberOf, h]

/-! ## Claims -/

/-- The JSON member of an expected state. -/
def expectedClaim (expected : Option ClaimState) : Option Json :=
  expected.map fun cs => .str cs.name

theorem checkClaimChange_ok {state : KnowledgeState} {k : Knowledge String}
    (h : Represents state k) {c : String} (target : ClaimState) {expected : Option ClaimState}
    (hguard : k.ClaimGuard c expected) :
    state.checkClaimChange (.str c) (.str target.name) (expectedClaim expected) =
      .ok target.name := by
  obtain ⟨cs, hcs, hexpected⟩ := hguard
  have hknown := h.knownIn_claims c
  rw [hcs] at hknown
  simp only [KnowledgeState.checkClaimChange, hknown, memberOf_of_mem target.name_mem, bind,
    Except.bind, Option.isSome_some, Bool.not_true, Bool.false_eq_true, if_false]
  cases expected with
  | none => rfl
  | some e =>
      have he := hexpected e rfl
      subst he
      simp [expectedClaim, h.claims_get? c, hcs]
      rfl

theorem checkClaimChange_error {state : KnowledgeState} {k : Knowledge String}
    (h : Represents state k) {c : String} (target : ClaimState) {expected : Option ClaimState}
    (hguard : ¬ k.ClaimGuard c expected) :
    ∃ e, state.checkClaimChange (.str c) (.str target.name) (expectedClaim expected) =
      .error e := by
  have hknown := h.knownIn_claims c
  cases hcs : k.claims c with
  | none =>
      rw [hcs] at hknown
      exact ⟨_, by simp only [KnowledgeState.checkClaimChange, hknown, bind, Except.bind]; rfl⟩
  | some cs =>
      rw [hcs] at hknown
      cases expected with
      | none => exact absurd ⟨cs, hcs, by simp⟩ hguard
      | some e =>
          have hne : cs ≠ e := by
            rintro rfl
            exact hguard ⟨cs, hcs, by simp⟩
          have hname : cs.name ≠ e.name := fun hname => hne (ClaimState.name_inj hname)
          simp only [KnowledgeState.checkClaimChange, hknown, memberOf_of_mem target.name_mem,
            bind, Except.bind, Option.isSome_some, Bool.not_true, Bool.false_eq_true, if_false,
            expectedClaim, Option.map_some]
          refine ⟨_, if_pos ?_⟩
          simpa [h.claims_get? c, hcs] using hname

/-- The abstract claim map with one claim moved. -/
theorem represents_setClaim {state : KnowledgeState} {k k' : Knowledge String}
    (h : Represents state k) {c : String} (cs : ClaimState) (history : List String)
    (hclaims : ∀ x, k'.claims x = if x = c then some cs else k.claims x)
    (hrelations : ∀ r, k'.relations r = k.relations r) :
    Represents { state with
      claims := state.claims.set (.str c) cs.name
      claim_history := state.claim_history.set (.str c) history } k' := by
  refine ⟨?_, ?_, ?_, h.relation_history⟩
  · intro id s
    rw [Dict.get?_set]
    by_cases hid : Json.str c = id
    · subst hid
      simp [hclaims, eq_comm]
    · rw [if_neg hid, h.claims]
      constructor
      · rintro ⟨x, xs, rfl, hx, rfl⟩
        have hne : x ≠ c := fun hxc => hid (by rw [hxc])
        exact ⟨x, xs, rfl, by rw [hclaims, if_neg hne, hx], rfl⟩
      · rintro ⟨x, xs, rfl, hx, rfl⟩
        have hne : x ≠ c := fun hxc => hid (by rw [hxc])
        rw [hclaims, if_neg hne] at hx
        exact ⟨x, xs, rfl, hx, rfl⟩
  · intro id record
    simp only [hrelations]
    exact h.relations id record
  · intro id s hs
    rw [Dict.get?_set] at hs ⊢
    split_ifs at hs ⊢ with hid
    · rfl
    · exact h.claim_history id s hs

theorem change_claim_ok {state : KnowledgeState} {k : Knowledge String}
    (h : Represents state k) (k' : Knowledge String) {c : String} (target : ClaimState)
    {expected : Option ClaimState}
    (hguard : k.ClaimGuard c expected)
    (hclaims : ∀ x, k'.claims x = if x = c then some target else k.claims x)
    (hrelations : ∀ r, k'.relations r = k.relations r) :
    ∃ state', state.change_claim (.str c) (.str target.name) (expectedClaim expected) =
      (.ok (), state') ∧ Represents state' k' ∧ state'.relations = state.relations := by
  have hcheck := checkClaimChange_ok h target hguard
  obtain ⟨cs, hcs, -⟩ := hguard
  have hget : state.claims.get? (.str c) = some cs.name := by rw [h.claims_get?, hcs]; rfl
  obtain ⟨history, hhistory⟩ := Option.isSome_iff_exists.mp (h.claim_history _ _ hget)
  refine ⟨_, ?_, represents_setClaim h _ (history ++ [target.name]) hclaims hrelations, rfl⟩
  simp only [KnowledgeState.change_claim, hcheck, hhistory]

theorem change_claim_error {state : KnowledgeState} {k : Knowledge String}
    (h : Represents state k) {c : String} (target : ClaimState) {expected : Option ClaimState}
    (hguard : ¬ k.ClaimGuard c expected) :
    ∃ e, state.change_claim (.str c) (.str target.name) (expectedClaim expected) =
      (.error e, state) := by
  obtain ⟨e, he⟩ := checkClaimChange_error h target hguard
  exact ⟨e, by rw [KnowledgeState.change_claim, he]⟩

/-! ## Dependents -/

theorem dependsOn_true {state : KnowledgeState} {k : Knowledge String} (h : Represents state k)
    {r p : String} {relation : Relation String} (hdep : Knowledge.Relation.DependsOn relation p)
    (hknown : (k.claims relation.source).isSome) :
    state.dependsOn (.str p) (recordOf r relation) = .ok true := by
  obtain ⟨htype, hstate, htarget⟩ := hdep
  have hsource := h.knownIn_claims relation.source
  rw [hknown] at hsource
  simp [KnowledgeState.dependsOn, recordOf, htype, hstate, htarget, RelationState.name, hsource]

theorem dependsOn_false {state : KnowledgeState} {k : Knowledge String} (h : Represents state k)
    {r p : String} {relation : Relation String}
    (hnot : ¬ (Knowledge.Relation.DependsOn relation p ∧ (k.claims relation.source).isSome)) :
    state.dependsOn (.str p) (recordOf r relation) = .ok false := by
  have hsource := h.knownIn_claims relation.source
  have hactive : relation.state.name = "active" ↔ relation.state = .active :=
    ⟨fun hname => RelationState.name_inj (t := .active) hname, fun hstate => by rw [hstate]; rfl⟩
  simp only [KnowledgeState.dependsOn, recordOf, Json.str.injEq, ne_eq, hactive, hsource]
  by_cases hfirst : ¬ relation.relationType = "DEPENDS_ON" ∨ ¬ relation.state = .active
  · rw [if_pos hfirst]
  · rw [if_neg hfirst]
    by_cases htarget : relation.target = p
    · rw [if_neg (not_not.mpr htarget)]
      rw [not_or, not_not, not_not] at hfirst
      have hunknown : ¬ (k.claims relation.source).isSome = true :=
        fun hknown => hnot ⟨⟨hfirst.1, hfirst.2, htarget⟩, hknown⟩
      rw [Bool.not_eq_true] at hunknown
      rw [hunknown]
    · rw [if_pos htarget]

/-- Superseding `p` marks `x` as stale through one of the listed relations. -/
def StaleThrough (k : Knowledge String) (relations : List (String × Relation String))
    (p x : String) : Prop :=
  (∃ entry ∈ relations, Knowledge.Relation.DependsOn entry.2 p ∧ entry.2.source = x) ∧
    ∃ s, k.claims x = some s ∧ ¬ s.terminal

open Classical in
theorem markStale_ok {state : KnowledgeState} {k : Knowledge String} (h : Represents state k)
    (p : String) (relations : List (String × Relation String)) :
    ∃ state' k', state.markStale (.str p) (relations.map fun entry => recordOf entry.1 entry.2) =
        (.ok (), state') ∧
      Represents state' k' ∧ (∀ r, k'.relations r = k.relations r) ∧
      ∀ x, k'.claims x =
        if StaleThrough k relations p x then some .stalePendingReview else k.claims x := by
  induction relations generalizing state k with
  | nil => exact ⟨state, k, rfl, h, fun _ => rfl, fun x => by simp [StaleThrough]⟩
  | cons entry relations ih =>
      obtain ⟨r, relation⟩ := entry
      -- The first relation marks its source only when it is an active dependency on `p` of a
      -- known claim in a state that is not terminal.
      by_cases hmarks : Knowledge.Relation.DependsOn relation p ∧
          ∃ s, k.claims relation.source = some s ∧ ¬ s.terminal
      · obtain ⟨hdep, s, hs, hterminal⟩ := hmarks
        let k₁ : Knowledge String :=
          ⟨fun x => if x = relation.source then some .stalePendingReview else k.claims x,
            k.relations⟩
        obtain ⟨state₁, hchange, h₁, -⟩ := change_claim_ok h k₁ .stalePendingReview
          (show k.ClaimGuard relation.source none from ⟨s, hs, by simp⟩) (fun x => rfl) (fun r => rfl)
        obtain ⟨state', k', hrest, h', hrelations, hclaims⟩ := ih h₁
        refine ⟨state', k', ?_, h', hrelations, ?_⟩
        · have hdepends := dependsOn_true h (r := r) hdep (by rw [hs]; rfl)
          have hget : state.claims.get? (recordOf r relation).source_ref = some s.name := by
            rw [recordOf, h.claims_get?, hs]
            rfl
          have hname : s.name ∉ KnowledgeState.terminal := by
            rw [ClaimState.name_mem_terminal]
            exact hterminal
          rw [List.map_cons, KnowledgeState.markStale, hdepends]
          simp only [hget, hname, if_false]
          have hchange' : state.change_claim (recordOf r relation).source_ref
              (.str "stale_pending_review") none = (.ok (), state₁) := hchange
          rw [hchange']
          exact hrest
        · intro x
          rw [hclaims]
          by_cases hx : x = relation.source
          · subst hx
            have hstale : StaleThrough k ((r, relation) :: relations) p relation.source :=
              ⟨⟨_, List.mem_cons_self, hdep, rfl⟩, s, hs, hterminal⟩
            rw [if_pos hstale]
            split_ifs
            · rfl
            · simp [k₁]
          · have hiff : StaleThrough k₁ relations p x ↔
                StaleThrough k ((r, relation) :: relations) p x := by
              simp only [StaleThrough, k₁, if_neg hx, List.mem_cons, exists_eq_or_imp,
                Ne.symm hx, and_false, false_or]
            simp only [hiff, k₁, if_neg hx]
      · obtain ⟨state', k', hrest, h', hrelations, hclaims⟩ := ih h
        refine ⟨state', k', ?_, h', hrelations, ?_⟩
        · rw [List.map_cons, KnowledgeState.markStale]
          by_cases hdep : Knowledge.Relation.DependsOn relation p ∧
              (k.claims relation.source).isSome
          · rw [dependsOn_true h hdep.1 hdep.2]
            obtain ⟨s, hs⟩ := Option.isSome_iff_exists.mp hdep.2
            have hterminal : s.terminal := by
              by_contra hnot
              exact hmarks ⟨hdep.1, s, hs, hnot⟩
            have hget : state.claims.get? (recordOf r relation).source_ref = some s.name := by
              rw [recordOf, h.claims_get?, hs]
              rfl
            simp only [hget, ClaimState.name_mem_terminal.mpr hterminal, if_true]
            exact hrest
          · rw [dependsOn_false h hdep]
            exact hrest
        · intro x
          rw [hclaims]
          have hiff : StaleThrough k relations p x ↔
              StaleThrough k ((r, relation) :: relations) p x := by
            constructor
            · rintro ⟨⟨entry, hmem, hentry⟩, hstate⟩
              exact ⟨⟨entry, List.mem_cons_of_mem _ hmem, hentry⟩, hstate⟩
            · rintro ⟨⟨entry, hmem, hdep, hsource⟩, hstate⟩
              rcases List.mem_cons.mp hmem with rfl | hmem
              · subst hsource
                exact absurd ⟨hdep, hstate⟩ hmarks
              · exact ⟨⟨entry, hmem, hdep, hsource⟩, hstate⟩
          simp only [hiff]

theorem recordOf_inj {r r' : String} {relation relation' : Relation String}
    (h : recordOf r relation = recordOf r' relation') : r = r' ∧ relation = relation' := by
  obtain ⟨relationType, source, target, state⟩ := relation
  obtain ⟨relationType', source', target', state'⟩ := relation'
  simp only [recordOf, RelationRecord.mk.injEq, Json.str.injEq] at h
  obtain ⟨rfl, rfl, rfl, rfl, hstate⟩ := h
  cases RelationState.name_inj hstate
  exact ⟨rfl, rfl⟩

theorem exists_relations {state : KnowledgeState} {k : Knowledge String}
    (h : Represents state k) :
    ∃ relations : List (String × Relation String),
      state.relations.values = relations.map (fun entry => recordOf entry.1 entry.2) ∧
        ∀ r relation, (r, relation) ∈ relations ↔ k.relations r = some relation := by
  have hvalues : ∀ record ∈ state.relations.values, ∃ r relation,
      k.relations r = some relation ∧ record = recordOf r relation := by
    intro record hrecord
    obtain ⟨id, hid⟩ := Dict.mem_values_iff.mp hrecord
    obtain ⟨r, relation, -, hrelation, heq⟩ := (h.relations id record).mp hid
    exact ⟨r, relation, hrelation, heq⟩
  have hexists : ∀ records : List RelationRecord,
      (∀ record ∈ records, ∃ r relation, k.relations r = some relation ∧
        record = recordOf r relation) →
      ∃ relations : List (String × Relation String),
        records = relations.map (fun entry => recordOf entry.1 entry.2) ∧
          ∀ entry ∈ relations, k.relations entry.1 = some entry.2 := by
    intro records
    induction records with
    | nil => exact fun _ => ⟨[], rfl, by simp⟩
    | cons record records ih =>
        intro hall
        obtain ⟨r, relation, hrelation, rfl⟩ := hall record List.mem_cons_self
        obtain ⟨relations, rfl, hentries⟩ :=
          ih fun record' hmem => hall record' (List.mem_cons_of_mem _ hmem)
        refine ⟨(r, relation) :: relations, rfl, ?_⟩
        intro entry hentry
        rcases List.mem_cons.mp hentry with rfl | hentry
        · exact hrelation
        · exact hentries entry hentry
  obtain ⟨relations, heq, hentries⟩ := hexists _ hvalues
  refine ⟨relations, heq, ?_⟩
  intro r relation
  constructor
  · exact hentries (r, relation)
  · intro hrelation
    have hmem : recordOf r relation ∈ state.relations.values :=
      Dict.mem_values_iff.mpr ⟨_, (h.relations _ _).mpr ⟨r, relation, rfl, hrelation, rfl⟩⟩
    rw [heq, List.mem_map] at hmem
    obtain ⟨⟨r', relation'⟩, hentry, hrecord⟩ := hmem
    obtain ⟨rfl, rfl⟩ := recordOf_inj hrecord
    exact hentry

theorem supersede_ok {state : KnowledgeState} {k : Knowledge String} (h : Represents state k)
    {c : String} {expected : Option ClaimState} (hguard : k.ClaimGuard c expected) :
    ∃ state₁ state', state.change_claim (.str c) (.str "superseded") (expectedClaim expected) =
        (.ok (), state₁) ∧
      state₁.mark_dependents_stale (.str c) = (.ok (), state') ∧
      Represents state' (k.effect (.supersedeClaim c expected)) := by
  obtain ⟨k₁, hk₁, hk₁r⟩ : ∃ k₁ : Knowledge String,
      (∀ x, k₁.claims x = if x = c then some .superseded else k.claims x) ∧
        ∀ r, k₁.relations r = k.relations r :=
    ⟨⟨fun x => if x = c then some .superseded else k.claims x, k.relations⟩,
      fun _ => rfl, fun _ => rfl⟩
  obtain ⟨state₁, hchange, h₁, -⟩ := change_claim_ok h k₁ .superseded hguard hk₁ hk₁r
  obtain ⟨relations, hvalues, hentries⟩ := exists_relations h₁
  obtain ⟨state', k', hmark, h', hrelations, hclaims⟩ := markStale_ok h₁ c relations
  refine ⟨state₁, state', hchange, ?_, ?_⟩
  · rw [KnowledgeState.mark_dependents_stale, hvalues]
    exact hmark
  · have hk' : k' = k.effect (.supersedeClaim c expected) := by
      apply Knowledge.ext
      · intro x
        rw [hclaims, Knowledge.claims_effect, Knowledge.claimsAfter]
        by_cases hx : x = c
        · have hnot : ¬ StaleThrough k₁ relations c x := by
            rintro ⟨-, s, hs, hterminal⟩
            rw [hk₁, if_pos hx] at hs
            cases hs
            exact hterminal trivial
          rw [if_neg hnot, hk₁, if_pos hx, if_pos hx]
        · have hiff : StaleThrough k₁ relations c x ↔ k.Stale c x := by
            simp only [StaleThrough, Knowledge.Stale, hk₁, hk₁r, if_neg hx, Prod.exists, hentries]
          rw [if_neg hx]
          by_cases hstale : k.Stale c x
          · rw [if_pos (hiff.mpr hstale), if_pos hstale]
          · rw [if_neg (fun hs => hstale (hiff.mp hs)), if_neg hstale, hk₁, if_neg hx]
      · intro r
        rw [hrelations, hk₁r]
        rfl
    rw [← hk']
    exact h'

/-! ## Relations -/

def expectedRelation (expected : Option RelationState) : Option Json :=
  expected.map fun rs => .str rs.name

theorem represents_setRelation {state : KnowledgeState} {k : Knowledge String}
    (h : Represents state k) (k' : Knowledge String) (r : String) (relation : Relation String)
    (history : List String)
    (hclaims : ∀ x, k'.claims x = k.claims x)
    (hrelations : ∀ x, k'.relations x = if x = r then some relation else k.relations x) :
    Represents { state with
      relations := state.relations.set (.str r) (recordOf r relation)
      relation_history := state.relation_history.set (.str r) history } k' := by
  refine ⟨?_, ?_, h.claim_history, ?_⟩
  · intro id s
    simp only [hclaims]
    exact h.claims id s
  · intro id record
    rw [Dict.get?_set]
    by_cases hid : Json.str r = id
    · subst hid
      simp [hrelations, eq_comm]
    · rw [if_neg hid, h.relations]
      constructor
      · rintro ⟨x, xs, rfl, hx, rfl⟩
        have hne : x ≠ r := fun hxr => hid (by rw [hxr])
        exact ⟨x, xs, rfl, by rw [hrelations, if_neg hne, hx], rfl⟩
      · rintro ⟨x, xs, rfl, hx, rfl⟩
        have hne : x ≠ r := fun hxr => hid (by rw [hxr])
        rw [hrelations, if_neg hne] at hx
        exact ⟨x, xs, rfl, hx, rfl⟩
  · intro id record hrecord
    rw [Dict.get?_set] at hrecord ⊢
    split_ifs at hrecord ⊢ with hid
    · rfl
    · exact h.relation_history id record hrecord

/-! ## Events -/

theorem state_of_validateProposed {payload : Json} {resolver : Option EndpointTypeResolver}
    (h : _validate_relation_semantics "relation.proposed" payload resolver = .ok ()) :
    (payload.get? "state").getD (.str "proposed") = .str "proposed" := by
  rw [_validate_relation_semantics, if_pos rfl, validateProposedRelation] at h
  by_contra hnot
  rw [if_pos hnot] at h
  cases h

def claimStateAt (payload : Json) (key : String) : Option ClaimState :=
  ((payload.get? key).bind Json.asStr?).bind ClaimState.ofName?

def relationStateAt (payload : Json) (key : String) : Option RelationState :=
  ((payload.get? key).bind Json.asStr?).bind RelationState.ofName?

/-- The transition an accepted event denotes. -/
def transitionOf (event : Json) : Transition String :=
  let kind := strAt event "event_type"
  let payload := payloadOf event
  let r := strAt payload "relation_id"
  if kind = "claim.proposed" then .proposeClaim (subjectOf event)
  else if kind = "claim.state_changed" then
    .changeClaim (subjectOf event) ((claimStateAt payload "to_state").getD .proposed)
      (claimStateAt payload "from_state")
  else if kind = "claim.superseded" then
    .supersedeClaim (subjectOf event) (claimStateAt payload "from_state")
  else if kind = "relation.proposed" then
    .proposeRelation r ⟨strAt payload "relation_type", strAt payload "source_ref",
      strAt payload "target_ref", .proposed⟩
  else if kind = "relation.state_changed" then
    .moveRelation r ((relationStateAt payload "to_state").getD .proposed)
      (relationStateAt payload "from_state")
  else if kind = "relation.superseded" then
    .moveRelation r .superseded (relationStateAt payload "from_state")
  else .inert

/-- What `apply` makes of a transition: success with its effect when it is admissible, an
exception otherwise. -/
def Follows (state : KnowledgeState) (k : Knowledge String) (t : Transition String)
    (outcome : Except Error Unit × KnowledgeState) : Prop :=
  (k.Admissible t → ∃ state', outcome = (.ok (), state') ∧ Represents state' (k.effect t)) ∧
    (¬ k.Admissible t → ∃ e, outcome = (.error e, state))

section Payload

variable {keys : List String} {members : List (String × Schema)} {payload : Json}

theorem claimState_of_payload (h : _payload_schema keys members payload = true)
    (key : String) (hkey : key ∈ keys) (hmember : (key, _CLAIM_STATE) ∈ members) :
    ∃ cs, payload.get? key = some (.str cs.name) ∧ claimStateAt payload key = some cs := by
  obtain ⟨hget, hmore⟩ := str_of_payload h key [Schema.enum (CLAIM_STATES.map .str)]
    hkey hmember
  have henum := hmore (Schema.enum (CLAIM_STATES.map .str)) (by simp)
  obtain ⟨cs, hcs⟩ := ClaimState.exists_of_mem (mem_of_enum henum)
  rw [hcs] at hget
  exact ⟨cs, hget, by simp [claimStateAt, hget, Json.asStr?, ClaimState.ofName?_name]⟩

theorem expectedClaim_of_payload (h : _payload_schema keys members payload = true)
    (key : String) (hmember : (key, _CLAIM_STATE) ∈ members) :
    payload.get? key = expectedClaim (claimStateAt payload key) := by
  cases hget : payload.get? key with
  | none => simp [claimStateAt, hget, expectedClaim]
  | some w =>
      obtain ⟨rfl, hmore⟩ := str_of_member h [Schema.enum (CLAIM_STATES.map .str)]
        hmember hget
      have henum := hmore (Schema.enum (CLAIM_STATES.map .str)) (by simp)
      obtain ⟨cs, hcs⟩ := ClaimState.exists_of_mem (mem_of_enum henum)
      rw [hcs] at hget ⊢
      simp [claimStateAt, hget, Json.asStr?, ClaimState.ofName?_name, expectedClaim]

theorem relationState_of_payload (h : _payload_schema keys members payload = true)
    (key : String) (hkey : key ∈ keys) (hmember : (key, _RELATION_STATE) ∈ members) :
    ∃ rs, payload.get? key = some (.str rs.name) ∧ relationStateAt payload key = some rs := by
  obtain ⟨hget, hmore⟩ := str_of_payload h key [Schema.enum (RELATION_STATES.map .str)]
    hkey hmember
  have henum := hmore (Schema.enum (RELATION_STATES.map .str)) (by simp)
  obtain ⟨rs, hrs⟩ := RelationState.exists_of_mem (mem_of_enum henum)
  rw [hrs] at hget
  exact ⟨rs, hget, by simp [relationStateAt, hget, Json.asStr?, RelationState.ofName?_name]⟩

theorem expectedRelation_of_payload (h : _payload_schema keys members payload = true)
    (key : String) (hmember : (key, _RELATION_STATE) ∈ members) :
    payload.get? key = expectedRelation (relationStateAt payload key) := by
  cases hget : payload.get? key with
  | none => simp [relationStateAt, hget, expectedRelation]
  | some w =>
      obtain ⟨rfl, hmore⟩ := str_of_member h [Schema.enum (RELATION_STATES.map .str)]
        hmember hget
      have henum := hmore (Schema.enum (RELATION_STATES.map .str)) (by simp)
      obtain ⟨rs, hrs⟩ := RelationState.exists_of_mem (mem_of_enum henum)
      rw [hrs] at hget ⊢
      simp [relationStateAt, hget, Json.asStr?, RelationState.ofName?_name, expectedRelation]

end Payload

section Kinds

variable {state : KnowledgeState} {k : Knowledge String} {payload : Json}

theorem proposeClaim_follows (h : Represents state k) (c : String) :
    Follows state k (.proposeClaim c) (state.proposeClaim (.str c)) := by
  have hknown := h.knownIn_claims c
  constructor
  · intro hnone
    have hnone' : k.claims c = none := hnone
    rw [hnone'] at hknown
    refine ⟨_, by rw [KnowledgeState.proposeClaim, hknown]; rfl, ?_⟩
    refine represents_setClaim h .proposed _ ?_ (fun r => rfl)
    intro x
    simp [Knowledge.claimsAfter]
  · intro hsome
    have hsome' : (k.claims c).isSome = true := by
      rw [Option.isSome_iff_ne_none]
      exact hsome
    rw [hsome'] at hknown
    exact ⟨_, by rw [KnowledgeState.proposeClaim, hknown]⟩

theorem changeClaim_follows (h : Represents state k) (c : String) (target : ClaimState)
    (expected : Option ClaimState) :
    Follows state k (.changeClaim c target expected)
      (state.change_claim (.str c) (.str target.name) (expectedClaim expected)) := by
  constructor
  · intro hguard
    have heffect : ∀ x, (k.effect (.changeClaim c target expected)).claims x =
        if x = c then some target else k.claims x := by
      intro x
      simp [Knowledge.claimsAfter]
    obtain ⟨state', hchange, h', -⟩ := change_claim_ok h _ target hguard heffect (fun r => rfl)
    exact ⟨state', hchange, h'⟩
  · exact change_claim_error h target

theorem supersedeClaim_follows (h : Represents state k) (c : String)
    (expected : Option ClaimState) :
    Follows state k (.supersedeClaim c expected)
      (match state.change_claim (.str c) (.str "superseded") (expectedClaim expected) with
        | (.error e, state) => (.error e, state)
        | (.ok _, state) => state.mark_dependents_stale (.str c)) := by
  constructor
  · intro hguard
    obtain ⟨state₁, state', hchange, hmark, h'⟩ := supersede_ok h hguard
    exact ⟨state', by rw [hchange]; exact hmark, h'⟩
  · intro hguard
    obtain ⟨e, he⟩ := change_claim_error h .superseded hguard
    have he' : state.change_claim (.str c) (.str "superseded") (expectedClaim expected) =
        (.error e, state) := he
    exact ⟨e, by rw [he']⟩

theorem proposeRelation_follows (h : Represents state k)
    (hpayload : relationProposedPayload payload = true)
    (hstate : (payload.get? "state").getD (.str "proposed") = .str "proposed") :
    Follows state k
      (.proposeRelation (strAt payload "relation_id")
        ⟨strAt payload "relation_type", strAt payload "source_ref", strAt payload "target_ref",
          .proposed⟩)
      (state.proposeRelation payload) := by
  have hid := Json.getItem_of_get? (str_of_payload hpayload "relation_id"
    [Schema.minLength 1] (by simp) (by simp [_string])).1
  have hsource := Json.getItem_of_get? (str_of_payload hpayload "source_ref"
    [Schema.minLength 1] (by simp) (by simp [_string, _RELATION_ENDPOINT_PROPERTIES])).1
  have htarget := Json.getItem_of_get? (str_of_payload hpayload "target_ref"
    [Schema.minLength 1] (by simp) (by simp [_string, _RELATION_ENDPOINT_PROPERTIES])).1
  obtain ⟨htype, hmore⟩ := str_of_payload hpayload "relation_type"
    [Schema.enum (RELATION_TYPES.map .str)] (by simp)
    (by simp [_RELATION_ENDPOINT_PROPERTIES, _RELATION_TYPE, _names])
  have htype := Json.getItem_of_get? htype
  have hmem := mem_of_enum (hmore (Schema.enum (RELATION_TYPES.map .str)) (by simp))
  have hknown := h.knownIn_relations (strAt payload "relation_id")
  have hproposed : "proposed" ∈ RELATION_STATES := by decide
  constructor
  · intro hnone
    have hnone' : k.relations (strAt payload "relation_id") = none := hnone
    rw [hnone'] at hknown
    refine ⟨_, ?_, represents_setRelation h (k.effect _) (strAt payload "relation_id")
      ⟨strAt payload "relation_type", strAt payload "source_ref",
        strAt payload "target_ref", .proposed⟩ ["proposed"] (fun x => rfl) ?_⟩
    · simp only [KnowledgeState.proposeRelation, KnowledgeState.readProposal, hid, hsource,
        htarget, htype, hknown, hstate, memberOf_of_mem hmem, memberOf_of_mem hproposed,
        liftPy_ok, bind, Except.bind, Option.isSome_none, Bool.false_eq_true, if_false]
      rfl
    · intro x
      simp [Knowledge.relationsAfter]
  · intro hsome
    have hsome' : (k.relations (strAt payload "relation_id")).isSome = true := by
      rw [Option.isSome_iff_ne_none]
      exact hsome
    rw [hsome'] at hknown
    exact ⟨_, by simp only [KnowledgeState.proposeRelation, KnowledgeState.readProposal, hid,
      hknown, liftPy_ok, bind, Except.bind, if_true]; rfl⟩

/-- A transition payload is read as its relation and target when the guard holds. -/
theorem readTransition_ok (h : Represents state k) {r : String} {relation : Relation String}
    {kind : Json} {target : RelationState} {expected : Option RelationState}
    (hrelation : k.relations r = some relation)
    (hexpected : ∀ e, expected = some e → relation.state = e)
    (hid : payload.getItem "relation_id" = .ok (.str r))
    (hfrom : payload.get? "from_state" = expectedRelation expected)
    (htarget : KnowledgeState.transitionTarget kind payload = .ok (.str target.name)) :
    state.readTransition kind payload = .ok (.str r, recordOf r relation, target.name) := by
  have hknown := h.knownIn_relations r
  have hget := h.relations_get? r
  rw [hrelation] at hknown hget
  have hmatch : ¬ (expectedRelation expected ≠ none ∧ expectedRelation expected ≠ some .null ∧
      expectedRelation expected ≠ some (.str (recordOf r relation).state)) := by
    rintro ⟨hne, -, hne'⟩
    cases hexp : expected with
    | none => exact hne (by rw [hexp]; rfl)
    | some e => exact hne' (by rw [hexp, ← hexpected e hexp]; rfl)
  simp only [KnowledgeState.readTransition, hid, hknown, hget, hfrom, liftPy_ok, bind,
    Except.bind, Option.map_some, if_neg hmatch, htarget, memberOf_of_mem target.name_mem]
  rfl

theorem readTransition_error (h : Represents state k) {r : String} (kind : Json)
    {expected : Option RelationState} (hguard : ¬ k.RelationGuard r expected)
    (hid : payload.getItem "relation_id" = .ok (.str r))
    (hfrom : payload.get? "from_state" = expectedRelation expected) :
    ∃ e, state.readTransition kind payload = .error e := by
  have hknown := h.knownIn_relations r
  have hget := h.relations_get? r
  cases hrelation : k.relations r with
  | none =>
      rw [hrelation] at hknown hget
      exact ⟨_, by simp only [KnowledgeState.readTransition, hid, hknown, hget, liftPy_ok, bind,
        Except.bind, Option.map_none]; rfl⟩
  | some relation =>
      rw [hrelation] at hknown hget
      cases hexp : expected with
      | none => exact absurd ⟨relation, hrelation, by simp [hexp]⟩ hguard
      | some e =>
          have hne : relation.state ≠ e := by
            rintro rfl
            exact hguard ⟨relation, hrelation, by simp [hexp]⟩
          have hname : e.name ≠ relation.state.name :=
            fun hname => hne (RelationState.name_inj hname).symm
          rw [hexp] at hfrom
          refine ⟨.lifecycleError "relation from_state does not match current state", ?_⟩
          simp only [KnowledgeState.readTransition, hid, hknown, hget, hfrom, liftPy_ok, bind,
            Except.bind, Option.map_some, expectedRelation]
          rw [if_pos]
          simpa [recordOf] using hname

theorem moveRelation_follows (h : Represents state k) {r : String} {kind : Json}
    {target : RelationState} {expected : Option RelationState}
    (hid : payload.getItem "relation_id" = .ok (.str r))
    (hfrom : payload.get? "from_state" = expectedRelation expected)
    (htarget : KnowledgeState.transitionTarget kind payload = .ok (.str target.name)) :
    Follows state k (.moveRelation r target expected) (state.moveRelation kind payload) := by
  constructor
  · rintro ⟨relation, hrelation, hexpected⟩
    have hread := readTransition_ok h hrelation hexpected hid hfrom htarget
    have hget : state.relations.get? (.str r) = some (recordOf r relation) := by
      rw [h.relations_get?, hrelation]
      rfl
    obtain ⟨history, hhistory⟩ := Option.isSome_iff_exists.mp (h.relation_history _ _ hget)
    have hhistory' : state.relation_history.get? (recordOf r relation).relation_id =
        some history := hhistory
    refine ⟨_, ?_, represents_setRelation h (k.effect _) r { relation with state := target }
      (history ++ [target.name])
      (fun x => rfl) ?_⟩
    · simp only [KnowledgeState.moveRelation, hread, hhistory']
      rfl
    · intro x
      simp [Knowledge.relationsAfter, hrelation]
  · intro hguard
    obtain ⟨e, he⟩ := readTransition_error h kind hguard hid hfrom
    exact ⟨e, by rw [KnowledgeState.moveRelation, he]⟩

end Kinds

theorem readHead_of_envelope {formats : FormatChecker} {event : Json}
    (h : eventSchema formats event = true) :
    KnowledgeState.readHead event =
      .ok (.str (strAt event "event_type"), payloadOf event, .str (subjectOf event)) := by
  have hkind := Json.getItem_of_get? (get?_event_type h)
  obtain ⟨fields, hpayload, hof⟩ := get?_payload h
  obtain ⟨more, hsubjects⟩ := get?_subject_refs h
  simp only [KnowledgeState.readHead, hkind, Json.getItem_of_get? hpayload, hof,
    Json.getItem_of_get? hsubjects, bind, Except.bind, Json.getFirst]
  rfl

/-- `apply` follows the transition of every accepted event. -/
theorem apply_follows {formats : FormatChecker} {resolvers : Resolvers} {event : Json}
    {state : KnowledgeState} {k : Knowledge String} (ha : Accepted formats resolvers event)
    (h : Represents state k) : Follows state k (transitionOf event) (state.apply event) := by
  have happly : state.apply event = state.applyKind (.str (strAt event "event_type"))
      (payloadOf event) (.str (subjectOf event)) := by
    rw [KnowledgeState.apply, readHead_of_envelope ha.envelope]
  rw [happly]
  unfold transitionOf KnowledgeState.applyKind
  simp only [Json.str.injEq]
  by_cases hproposed : strAt event "event_type" = "claim.proposed"
  · simp only [if_pos hproposed]
    exact proposeClaim_follows h _
  by_cases hchanged : strAt event "event_type" = "claim.state_changed"
  · simp only [if_neg hproposed, if_pos hchanged]
    have hpayload : claimStateChangedPayload (payloadOf event) = true :=
      (ha.payload ⟨_, claimStateChangedPayload, false, optionalEvidence⟩
        (by simp [EVENT_TYPE_CONTRACTS]) hchanged).1
    obtain ⟨target, hget, htarget⟩ := claimState_of_payload hpayload "to_state"
      (by simp) (by simp)
    have hfrom := expectedClaim_of_payload hpayload "from_state" (by simp)
    simp only [htarget, Option.getD_some, Json.getItem_of_get? hget, liftPy_ok, hfrom]
    exact changeClaim_follows h _ target _
  by_cases hsuperseded : strAt event "event_type" = "claim.superseded"
  · simp only [if_neg hproposed, if_neg hchanged, if_pos hsuperseded]
    have hpayload : claimSupersededPayload (payloadOf event) = true :=
      (ha.payload ⟨_, claimSupersededPayload, false, optionalEvidence⟩
        (by simp [EVENT_TYPE_CONTRACTS]) hsuperseded).1
    have hfrom := expectedClaim_of_payload hpayload "from_state" (by simp)
    obtain ⟨fields, hfields⟩ := isObj_of_payload hpayload
    have hmethod : (payloadOf event).getMethod "from_state" =
        .ok (expectedClaim (claimStateAt (payloadOf event) "from_state")) := by
      rw [← hfrom, hfields]
      rfl
    simp only [hmethod, liftPy_ok]
    exact supersedeClaim_follows h _ _
  by_cases hrelation : strAt event "event_type" = "relation.proposed"
  · simp only [if_neg hproposed, if_neg hchanged, if_neg hsuperseded, if_pos hrelation]
    have hcontract := ha.payload
      ⟨_, relationProposedPayload, true, optionalEvidence⟩
      (by simp [EVENT_TYPE_CONTRACTS]) hrelation
    exact proposeRelation_follows h hcontract.1 (state_of_validateProposed (hcontract.2 rfl))
  by_cases hmoved : strAt event "event_type" = "relation.state_changed"
  · simp only [if_neg hproposed, if_neg hchanged, if_neg hsuperseded, if_neg hrelation,
      if_pos hmoved, Json.hashable, Bool.not_true, Bool.false_eq_true, if_false]
    have hpayload : relationStateChangedPayload (payloadOf event) = true :=
      (ha.payload ⟨_, relationStateChangedPayload, true, optionalEvidence⟩
        (by simp [EVENT_TYPE_CONTRACTS]) hmoved).1
    obtain ⟨target, hget, htarget⟩ := relationState_of_payload hpayload "to_state"
      (by simp) (by simp)
    have hid := Json.getItem_of_get? (str_of_payload hpayload "relation_id"
      [Schema.minLength 1] (by simp) (by simp [_string])).1
    have hfrom := expectedRelation_of_payload hpayload "from_state" (by simp)
    rw [htarget, if_pos (Or.inl hmoved)]
    refine moveRelation_follows h hid hfrom ?_
    rw [KnowledgeState.transitionTarget, if_neg (by simp [hmoved]), Json.getItem_of_get? hget]
    rfl
  by_cases hended : strAt event "event_type" = "relation.superseded"
  · simp only [if_neg hproposed, if_neg hchanged, if_neg hsuperseded, if_neg hrelation,
      if_neg hmoved, if_pos hended, Json.hashable, Bool.not_true, Bool.false_eq_true, if_false]
    have hpayload : relationSupersededPayload (payloadOf event) = true :=
      (ha.payload ⟨_, relationSupersededPayload, true, optionalEvidence⟩
        (by simp [EVENT_TYPE_CONTRACTS]) hended).1
    have hid := Json.getItem_of_get? (str_of_payload hpayload "relation_id"
      [Schema.minLength 1] (by simp) (by simp [_string])).1
    have hfrom := expectedRelation_of_payload hpayload "from_state" (by simp)
    rw [if_pos (Or.inr hended)]
    refine moveRelation_follows h hid hfrom ?_
    rw [KnowledgeState.transitionTarget, if_pos (by rw [hended])]
    rfl
  · simp only [if_neg hproposed, if_neg hchanged, if_neg hsuperseded, if_neg hrelation,
      if_neg hmoved, if_neg hended, Json.hashable, Bool.not_true, Bool.false_eq_true, if_false]
    rw [if_neg (not_or.mpr ⟨hmoved, hended⟩)]
    exact ⟨fun _ => ⟨state, rfl, h⟩, fun hnot => absurd trivial hnot⟩

theorem replayFrom_iff {formats : FormatChecker} {resolvers : Resolvers} {events : List Json}
    {state : KnowledgeState} {k : Knowledge String}
    (ha : ∀ event ∈ events, Accepted formats resolvers event) (h : Represents state k) :
    ((∃ state', state.replayFrom events = .ok state') ↔
        (Knowledge.log String).Accepts k (events.map transitionOf)) ∧
      ∀ state', state.replayFrom events = .ok state' →
        Represents state' ((Knowledge.log String).after k (events.map transitionOf)) := by
  induction events generalizing state k with
  | nil => exact ⟨⟨fun _ => trivial, fun _ => ⟨state, rfl⟩⟩, fun state' hs => by cases hs; exact h⟩
  | cons event events ih =>
      have hfollows := apply_follows (ha event List.mem_cons_self) h
      have hrest := fun event' hmem => ha event' (List.mem_cons_of_mem event hmem)
      rw [List.map_cons, KnowledgeState.replayFrom]
      by_cases hguard : k.Admissible (transitionOf event)
      · obtain ⟨state₁, happly, h₁⟩ := hfollows.1 hguard
        have htail := ih hrest h₁
        rw [happly]
        refine ⟨⟨?_, ?_⟩, htail.2⟩
        · intro hs
          exact ⟨hguard, htail.1.mp hs⟩
        · intro hs
          exact htail.1.mpr hs.2
      · obtain ⟨e, happly⟩ := hfollows.2 hguard
        rw [happly]
        refine ⟨⟨?_, ?_⟩, ?_⟩
        · rintro ⟨state', hs⟩
          cases hs
        · intro hs
          exact absurd hs.1 hguard
        · intro state' hs
          cases hs

/-- Replaying accepted events succeeds exactly when the abstract log accepts them. -/
theorem replay_iff {formats : FormatChecker} {resolvers : Resolvers} {events : List Json}
    (ha : ∀ event ∈ events, Accepted formats resolvers event) :
    (∃ state, KnowledgeState.replay events = .ok state) ↔
      (Knowledge.log String).Accepts .empty (events.map transitionOf) :=
  (replayFrom_iff ha represents_empty).1

theorem represents_replay {formats : FormatChecker} {resolvers : Resolvers}
    {events : List Json} {state : KnowledgeState}
    (ha : ∀ event ∈ events, Accepted formats resolvers event)
    (h : KnowledgeState.replay events = .ok state) :
    Represents state (Knowledge.of (events.map transitionOf)) :=
  (replayFrom_iff ha represents_empty).2 state h

end FossilCore
