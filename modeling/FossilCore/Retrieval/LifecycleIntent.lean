import Mathlib.Data.Rat.Lemmas
import Mathlib.Algebra.Order.Field.Rat
import Mathlib.Algebra.Order.Field.Basic
import Mathlib.Tactic.Linarith
import Mathlib.Data.Finset.Card
import Mathlib.Data.Prod.Lex
import FossilCore.Application.ContextSecurity
import FossilCore.Base.KeyMap

/-!
# Lifecycle intent

`LifecycleIntentReranker` of `real_retrieval.py` and `tokenize` of `services.py`, with rational
scores.  What `int` makes of a stated rank is a parameter.
-/

namespace FossilCore

open Base

/-! ## Terms -/

/-- `[A-Za-z0-9_]` -/
def isQueryChar (c : Char) : Bool := c.isAlphanum || c = '_'

/-- The matches of `[A-Za-z0-9_]+`, in lower case. -/
def tokenize (text : String) : List String :=
  ((text.toList.splitOnP fun c => !isQueryChar c).filter (· ≠ [])).map fun token =>
    String.ofList (token.map Char.toLower)

def terms (text : String) : Finset String := (tokenize text).toFinset

/-! ## Intents and states -/

inductive Intent where
  | mixed
  | current
  | historical
  | neutral
  deriving DecidableEq, Repr

namespace LifecycleIntentReranker

def CURRENT_CUES : Finset String := {"current", "currently", "latest", "now", "present", "today"}

def HISTORICAL_CUES : Finset String :=
  {"before", "earlier", "former", "historical", "history", "old", "past", "previous", "rejected",
    "stale", "superseded"}

def CURRENT_STATES : List String := ["supported", "open", "active"]

def HISTORICAL_STATES : List String := ["superseded", "rejected", "retracted", "invalidated"]

def STALE_STATES : List String := ["stale_pending_review", "disputed"]

def intent_for_query (query : String) : Intent :=
  let current := decide ((terms query ∩ CURRENT_CUES).Nonempty)
  let historical := decide ((terms query ∩ HISTORICAL_CUES).Nonempty)
  if current && historical then .mixed
  else if current then .current
  else if historical then .historical
  else .neutral

def isPast (state : String) : Bool := state ∈ HISTORICAL_STATES || state ∈ STALE_STATES

def _lifecycle_adjustment (intent : Intent) (state : Option String) : ℚ :=
  match state with
  | none => 0
  | some state =>
      if state = "" then 0
      else match intent with
        | .current =>
            if state ∈ CURRENT_STATES then 5 / 4
            else if isPast state then -1
            else 0
        | .historical =>
            if isPast state then 1
            else 0
        | .mixed => if state ∈ CURRENT_STATES || isPast state then 9 / 20 else 0
        | .neutral => 0

def _lexical_overlap (query_terms : Finset String) (candidate : Json) : ℚ :=
  if query_terms = ∅ then 0
  else ((query_terms ∩ terms (textOf candidate "text")).card : ℚ) / query_terms.card

end LifecycleIntentReranker

/-! ## Reranking -/

structure LifecycleIntentReranker where
  lexical_weight : ℚ
  nonnegative : 0 ≤ lexical_weight

/-- A candidate with what is written under its key `rerank`. -/
structure Reranked where
  candidate : Json
  base_rank : ℤ
  intent : Intent
  lexical_bonus : ℚ
  lexical_overlap : ℚ
  lifecycle_adjustment : ℚ
  score : ℚ
  state : Option String

/-- `str(candidate["current_state"])`, unless there is none. -/
def stateOf (candidate : Json) : Option String :=
  match candidate.get? "current_state" with
  | none | some .null => none
  | some value => some value.pyStr

namespace LifecycleIntentReranker

variable (int : Json → Except Error ℤ) (self : LifecycleIntentReranker)

def scored (intent : Intent) (query_terms : Finset String) (candidate : Json)
    (fallback_rank : ℕ) : Except Error Reranked := do
  let stated ← liftPy (candidate.getMethod "retrieval")
  let retrieval ← asMapping (stated.getD (.obj []))
  let base_rank ← int ((retrieval.get? "rank").getD (.int fallback_rank))
  let base_score : ℚ := 1 / (max base_rank 1 : ℤ)
  let state := stateOf candidate
  let lifecycle_adjustment := _lifecycle_adjustment intent state
  let lexical_overlap := _lexical_overlap query_terms candidate
  let lexical_bonus := self.lexical_weight * lexical_overlap
  return {
    candidate
    base_rank
    intent
    lexical_bonus
    lexical_overlap
    lifecycle_adjustment
    score := base_score + lifecycle_adjustment + lexical_bonus
    state }

/-- `-score`, and the id where the scores are the same. -/
def sortKey (result : Reranked) : ℚ ×ₗ String := toLex (-result.score, textOf result.candidate "id")

def rerank (query : String) (candidates : List Json) (limit : ℤ) :
    Except Error (List Reranked) := do
  if limit < 1 then .error (.valueError "limit must be positive")
  else
    let results ← (candidates.zipIdx 1).mapM fun ranked =>
      self.scored int (intent_for_query query) (terms query) ranked.1 ranked.2
    return (sortedBy sortKey results).take limit.toNat

/-! ## Bounds -/

variable {int self} {intent : Intent} {query_terms : Finset String} {candidate : Json}
  {fallback_rank : ℕ} {result : Reranked}

theorem overlap_mem_unit (query_terms : Finset String) (candidate : Json) :
    0 ≤ _lexical_overlap query_terms candidate ∧ _lexical_overlap query_terms candidate ≤ 1 := by
  rw [_lexical_overlap]
  split_ifs with hempty
  · exact ⟨le_rfl, zero_le_one⟩
  · have hpositive : (0 : ℚ) < query_terms.card :=
      Nat.cast_pos.mpr (Finset.card_pos.mpr (Finset.nonempty_iff_ne_empty.mpr hempty))
    refine ⟨div_nonneg (Nat.cast_nonneg _) hpositive.le, (div_le_one hpositive).mpr ?_⟩
    exact Nat.cast_le.mpr (Finset.card_le_card Finset.inter_subset_left)

theorem base_score_mem_unit (rank : ℤ) :
    (0 : ℚ) < 1 / (max rank 1 : ℤ) ∧ (1 : ℚ) / (max rank 1 : ℤ) ≤ 1 := by
  have hone : (1 : ℚ) ≤ ((max rank 1 : ℤ) : ℚ) := by exact_mod_cast le_max_right rank 1
  exact ⟨one_div_pos.mpr (zero_lt_one.trans_le hone),
    (div_le_one (zero_lt_one.trans_le hone)).mpr hone⟩

/-- The rank adds more than nothing and at most one to a score, the terms at most their weight. -/
theorem scored_spec
    (h : self.scored int intent query_terms candidate fallback_rank = .ok result) :
    result.candidate = candidate ∧
      _lifecycle_adjustment intent (stateOf candidate) < result.score ∧
      result.score ≤ 1 + _lifecycle_adjustment intent (stateOf candidate) + self.lexical_weight := by
  obtain ⟨stated, -, h⟩ := bind_eq_ok.mp h
  obtain ⟨retrieval, -, h⟩ := bind_eq_ok.mp h
  obtain ⟨base_rank, -, h⟩ := bind_eq_ok.mp h
  cases h
  obtain ⟨hrank, hrank'⟩ := base_score_mem_unit base_rank
  obtain ⟨hoverlap, hoverlap'⟩ := overlap_mem_unit query_terms candidate
  have hbonus := mul_nonneg self.nonnegative hoverlap
  have hbonus' := mul_le_of_le_one_right self.nonnegative hoverlap'
  refine ⟨rfl, ?_, ?_⟩
  · dsimp only
    linarith
  · dsimp only
    linarith

theorem map_candidate {ranked : List (Json × ℕ)} {results : List Reranked}
    (h : ranked.mapM (fun r => self.scored int intent query_terms r.1 r.2) = .ok results) :
    results.map (·.candidate) = ranked.map Prod.fst := by
  have hforall := mapM_eq_ok.mp h
  clear h
  induction hforall with
  | nil => rfl
  | cons hone _ ih => rw [List.map_cons, List.map_cons, ih, (scored_spec hone).1]

theorem adjustment_current {state : String} (h : state ∈ CURRENT_STATES) :
    _lifecycle_adjustment .current (some state) = 5 / 4 := by
  have hne : state ≠ "" := by
    rintro rfl
    exact absurd h (by decide)
  simp only [_lifecycle_adjustment, if_neg hne, if_pos h]

theorem adjustment_past {state : String} (h : isPast state = true) :
    _lifecycle_adjustment .current (some state) = -1 := by
  have hne : state ≠ "" := by
    rintro rfl
    exact absurd h (by decide)
  have hcurrent : state ∉ CURRENT_STATES := by
    intro hcurrent
    simp only [CURRENT_STATES, List.mem_cons, List.not_mem_nil, or_false] at hcurrent
    rcases hcurrent with rfl | rfl | rfl <;> exact absurd h (by decide)
  simp only [_lifecycle_adjustment, if_neg hne, if_neg hcurrent, h, if_true]

/-! ## Current questions -/

def IsCurrent (candidate : Json) : Prop := ∃ state ∈ CURRENT_STATES, stateOf candidate = some state

def IsPast (candidate : Json) : Prop :=
  ∃ state, isPast state = true ∧ stateOf candidate = some state

/-- For a current question, whatever the texts and the ranks are, a document in a current state
has the higher score. -/
theorem score_lt_of_states {past : Json} {result' : Reranked} {fallback_rank' : ℕ}
    (hweight : self.lexical_weight ≤ 5 / 4)
    (h : self.scored int .current query_terms past fallback_rank = .ok result)
    (h' : self.scored int .current query_terms candidate fallback_rank' = .ok result')
    (hpast : IsPast past) (hcurrent : IsCurrent candidate) : result.score < result'.score := by
  obtain ⟨state, hstate, hpast⟩ := hpast
  obtain ⟨state', hstate', hcurrent⟩ := hcurrent
  obtain ⟨-, -, hupper⟩ := scored_spec h
  obtain ⟨-, hlower, -⟩ := scored_spec h'
  rw [hpast, adjustment_past hstate] at hupper
  rw [hcurrent, adjustment_current hstate'] at hlower
  linarith

/-- For a current question no document in a historical or stale state is placed before one in a
current state, and what is returned is the beginning of a permutation of the candidates. -/
theorem rerank_current_first (int : Json → Except Error ℤ) (self : LifecycleIntentReranker)
    (query : String) (candidates : List Json) (limit : ℤ) (results : List Reranked)
    (h : self.rerank int query candidates limit = .ok results) :
    (intent_for_query query = .current → self.lexical_weight ≤ 5 / 4 →
      results.Pairwise fun earlier later =>
        ¬(IsPast earlier.candidate ∧ IsCurrent later.candidate)) ∧
    ∃ ordered : List Json, ordered.Perm candidates ∧
      results.map (·.candidate) = ordered.take limit.toNat := by
  unfold rerank at h
  split_ifs at h
  obtain ⟨all, hall, h⟩ := bind_eq_ok.mp h
  cases h
  constructor
  · intro hintent hweight
    apply List.Pairwise.take
    refine List.Pairwise.imp_of_mem ?_ (pairwise_sortedBy sortKey all)
    rintro earlier later hearlier hlater hle ⟨hpast, hcurrent⟩
    obtain ⟨⟨past, rank⟩, -, hscored⟩ := exists_of_mem_mapM hall _ (mem_sortedBy.mp hearlier)
    obtain ⟨⟨candidate, rank'⟩, -, hscored'⟩ := exists_of_mem_mapM hall _ (mem_sortedBy.mp hlater)
    rw [hintent] at hscored hscored'
    rw [(scored_spec hscored).1] at hpast
    rw [(scored_spec hscored').1] at hcurrent
    have hscore := score_lt_of_states hweight hscored hscored' hpast hcurrent
    have hkey : sortKey later < sortKey earlier :=
      Prod.Lex.toLex_lt_toLex.mpr (Or.inl (neg_lt_neg hscore))
    exact absurd hle (not_le.mpr hkey)
  · refine ⟨(sortedBy sortKey all).map (·.candidate), ?_, List.map_take⟩
    have hcandidates : all.map (·.candidate) = candidates := by
      rw [map_candidate hall, List.zipIdx_map_fst]
    rw [← hcandidates]
    exact (sortedBy_perm sortKey all).map _

/-! ## A question about the present -/

def reportOf (id state : String) (rank : ℕ) : Json :=
  .obj [("current_state", .str state), ("id", .str id), ("retrieval", .obj [("rank", .int rank)]),
    ("text", .str "What is the latest limit")]

/-- `int` of an integer, the only rank stated below. -/
def statedRank : Json → Except Error ℤ
  | .int n => .ok n
  | _ => .error .typeError

def heaviest : LifecycleIntentReranker := ⟨5 / 4, by norm_num⟩

theorem intent_latest : intent_for_query "What is the latest limit" = .current := by
  decide +kernel

theorem rerank_reports : ∃ results, heaviest.rerank statedRank "What is the latest limit"
    [reportOf "claim_1" "superseded" 1, reportOf "claim_2" "supported" 40] 5 = .ok results :=
  ⟨_, rfl⟩

theorem rerank_current_first_of_reports :
    ∃ results, heaviest.rerank statedRank "What is the latest limit"
        [reportOf "claim_1" "superseded" 1, reportOf "claim_2" "supported" 40] 5 = .ok results ∧
      results.Pairwise fun earlier later =>
        ¬(IsPast earlier.candidate ∧ IsCurrent later.candidate) := by
  obtain ⟨results, hresults⟩ := rerank_reports
  exact ⟨results, hresults, (rerank_current_first statedRank heaviest _ _ _ results hresults).1
    intent_latest le_rfl⟩

end LifecycleIntentReranker

end FossilCore
