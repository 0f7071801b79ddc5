import Mathlib.Algebra.BigOperators.Group.List.Basic
import Mathlib.Algebra.Order.BigOperators.Group.List
import Mathlib.Algebra.Order.Field.Basic
import Mathlib.Algebra.Order.Field.Rat
import Mathlib.Data.Prod.Lex
import FossilCore.Base.Checks
import FossilCore.Base.Dict
import FossilCore.Base.KeyMap
import FossilCore.Domain.Promotion

/-!
# Reciprocal rank fusion

`ReciprocalRankFusionRetriever.search` of `real_retrieval.py`, with rational scores.  The component
retrievers, what `int` makes of a stated rank and the metadata of the fused retriever are
parameters.
-/

namespace FossilCore

open Base

/-- A retriever of the fusion, with its weight. -/
structure Component where
  metadata : Except Error Json
  search : String → List String → ℤ → Except Error (List Json)
  weight : ℚ
  positive : 0 < weight

structure ReciprocalRankFusionRetriever where
  components : List Component
  rrf_k : ℤ
  candidate_multiplier : ℤ
  metadata : Except Error Json
  enough : 2 ≤ components.length
  k_positive : 1 ≤ rrf_k
  multiplier_positive : 1 ≤ candidate_multiplier

/-- What a component says of a document. -/
structure ComponentRank where
  component : String
  rank : ℤ
  score : Json
  deriving DecidableEq

/-- A candidate of a component, as it was read. -/
structure Ranked where
  identifier : String
  document : Json
  rank : ℤ
  score : Json

structure Ranking where
  component_name : String
  weight : ℚ
  ranked : List Ranked

structure FusedDocument where
  identifier : String
  document : Json
  score : ℚ
  rank : ℕ
  service : Json
  components : List ComponentRank

namespace ReciprocalRankFusionRetriever

structure Fusion where
  fused_scores : Dict String ℚ
  documents : Dict String Json
  component_ranks : Dict String (List ComponentRank)

variable (int : Json → Except Error ℤ)

/-- The division of the weight fails where the rank takes the constant back. -/
def readCandidate (rrf_k : ℤ) (candidate : Json) (fallback_rank : ℕ) : Except Error Ranked := do
  let identifier ← liftPy (candidate.getItem "id")
  let stated ← liftPy (candidate.getMethod "retrieval")
  let retrieval ← asMapping (stated.getD (.obj []))
  let rank ← int ((retrieval.get? "rank").getD (.int fallback_rank))
  if rrf_k + rank = 0 then .error (.ofPython ⟨.zeroDivisionError, ""⟩)
  else return {
    identifier := identifier.pyStr
    document := candidate
    rank
    score := (retrieval.get? "score").getD .null }

def readComponent (rrf_k : ℤ) (query : String) (pack_ids : List String) (pool_limit : ℤ)
    (index : ℕ) (component : Component) : Except Error Ranking := do
  let metadata ← component.metadata >>= asMapping
  let implementation := ((metadata.get? "implementation").getD (.str "retriever")).pyStr
  let results ← component.search query pack_ids pool_limit
  let ranked ← (results.zipIdx 1).mapM fun result => readCandidate int rrf_k result.1 result.2
  return ⟨s!"{index}:{implementation}", component.weight, ranked⟩

/-- `documents.setdefault(key, value)` -/
def setdefault {α : Type} (d : Dict String α) (key : String) (value : α) : Dict String α :=
  if d.contains key then d else d.set key value

def fuseCandidate (rrf_k : ℤ) (component_name : String) (weight : ℚ) (fusion : Fusion)
    (ranked : Ranked) : Fusion where
  fused_scores := fusion.fused_scores.set ranked.identifier
    ((fusion.fused_scores.get? ranked.identifier).getD 0 + weight / (rrf_k + ranked.rank : ℤ))
  documents := setdefault fusion.documents ranked.identifier ranked.document
  component_ranks := fusion.component_ranks.set ranked.identifier
    ((fusion.component_ranks.get? ranked.identifier).getD [] ++
      [⟨component_name, ranked.rank, ranked.score⟩])

def fuse (rrf_k : ℤ) (rankings : List Ranking) : Fusion :=
  rankings.foldl (fun fusion ranking =>
    ranking.ranked.foldl (fuseCandidate rrf_k ranking.component_name ranking.weight) fusion)
    ⟨.empty, .empty, .empty⟩

/-- `-score`, and the id where the scores are the same. -/
def sortKey (scores : Dict String ℚ) (identifier : String) : ℚ ×ₗ String :=
  toLex (-(scores.get? identifier).getD 0, identifier)

def ordered (fusion : Fusion) : List String :=
  sortedBy (sortKey fusion.fused_scores) fusion.fused_scores.keys

/-- What a component said of a document is kept under another key. -/
def shownDocument (document : Json) : Json :=
  match document.get? "retrieval" with
  | some retrieval => document.set "component_retrieval" retrieval
  | none => document

def fusedDocument (fusion : Fusion) (service : Json) (identifier : String) (rank : ℕ) :
    FusedDocument :=
  { identifier
    document := shownDocument ((fusion.documents.get? identifier).getD .null)
    score := (fusion.fused_scores.get? identifier).getD 0
    rank
    service
    components := sortedBy ComponentRank.component
      ((fusion.component_ranks.get? identifier).getD []) }

variable (self : ReciprocalRankFusionRetriever)

def rankings (query : String) (pack_ids : List String) (limit : ℤ) : Except Error (List Ranking) :=
  (self.components.zipIdx).mapM fun indexed =>
    readComponent int self.rrf_k query pack_ids (max limit (limit * self.candidate_multiplier))
      indexed.2 indexed.1

def search (query : String) (pack_ids : List String) (limit : ℤ) :
    Except Error (List FusedDocument) := do
  if limit < 1 then .error (.valueError "limit must be positive")
  else
    let rankings ← self.rankings int query pack_ids limit
    let fusion := fuse self.rrf_k rankings
    let service ← self.metadata
    return (((ordered fusion).take limit.toNat).zipIdx 1).map fun placed =>
      fusedDocument fusion service placed.1 placed.2

/-! ## Accumulated scores -/

/-- What is added to the scores, in order. -/
def increments (rrf_k : ℤ) (rankings : List Ranking) : List (String × ℚ) :=
  rankings.flatMap fun ranking =>
    ranking.ranked.map fun ranked => (ranked.identifier, ranking.weight / (rrf_k + ranked.rank : ℤ))

def accumulate (scores : Dict String ℚ) (increment : String × ℚ) : Dict String ℚ :=
  scores.set increment.1 ((scores.get? increment.1).getD 0 + increment.2)

def total (pairs : List (String × ℚ)) (identifier : String) : ℚ :=
  ((pairs.filter fun pair => pair.1 = identifier).map Prod.snd).sum

variable {pairs pairs' : List (String × ℚ)} {rrf_k : ℤ} {rankings : List Ranking}
  {identifier : String}

theorem fused_scores_fuse (rrf_k : ℤ) (rankings : List Ranking) :
    (fuse rrf_k rankings).fused_scores = (increments rrf_k rankings).foldl accumulate .empty := by
  have hranking : ∀ (ranking : Ranking) (ranked : List Ranked) (fusion : Fusion),
      (ranked.foldl (fuseCandidate rrf_k ranking.component_name ranking.weight)
          fusion).fused_scores =
        (ranked.map fun ranked => (ranked.identifier,
          ranking.weight / (rrf_k + ranked.rank : ℤ))).foldl accumulate fusion.fused_scores := by
    intro ranking ranked
    induction ranked with
    | nil => exact fun fusion => rfl
    | cons head ranked ih => exact fun fusion => ih _
  have hall : ∀ (rankings : List Ranking) (fusion : Fusion),
      (rankings.foldl (fun fusion ranking =>
          ranking.ranked.foldl (fuseCandidate rrf_k ranking.component_name ranking.weight) fusion)
        fusion).fused_scores =
        (increments rrf_k rankings).foldl accumulate fusion.fused_scores := by
    intro rankings
    induction rankings with
    | nil => exact fun fusion => rfl
    | cons ranking rankings ih =>
        intro fusion
        rw [List.foldl_cons, ih, hranking, increments, increments, List.flatMap_cons,
          List.foldl_append]
  exact hall rankings _

theorem total_append (pairs pairs' : List (String × ℚ)) (identifier : String) :
    total (pairs ++ pairs') identifier = total pairs identifier + total pairs' identifier := by
  rw [total, List.filter_append, List.map_append, List.sum_append, ← total, ← total]

theorem total_of_notMem (h : identifier ∉ pairs.map Prod.fst) : total pairs identifier = 0 := by
  have hempty : (pairs.filter fun pair => pair.1 = identifier) = [] := by
    rw [List.filter_eq_nil_iff]
    intro pair hpair hsame
    exact h (List.mem_map.mpr ⟨pair, hpair, of_decide_eq_true hsame⟩)
  rw [total, hempty]
  rfl

/-- A score is the sum of what was added under its id. -/
theorem get?_accumulate (pairs : List (String × ℚ)) (identifier : String) :
    (pairs.foldl accumulate .empty).get? identifier =
      if identifier ∈ pairs.map Prod.fst then some (total pairs identifier) else none := by
  induction pairs using List.reverseRecOn with
  | nil => rfl
  | append_singleton pairs pair ih =>
      rw [List.foldl_append, List.foldl_cons, List.foldl_nil, accumulate, Dict.get?_set, total,
        List.filter_append, List.map_append, List.map_append, List.sum_append, ← total]
      by_cases hpair : pair.1 = identifier
      · subst hpair
        rw [if_pos rfl, if_pos (by simp), ih]
        congr 1
        rw [List.filter_singleton, decide_eq_true rfl]
        split_ifs with hmem
        · simp
        · simp [total_of_notMem hmem]
      · have hmem : identifier ∈ pairs.map Prod.fst ++ [pair].map Prod.fst ↔
            identifier ∈ pairs.map Prod.fst := by
          rw [List.mem_append, List.map_singleton, List.mem_singleton, or_iff_left (Ne.symm hpair)]
        rw [if_neg hpair, ih, List.filter_singleton, decide_eq_false hpair]
        simp only [hmem, cond_false, List.map_nil, List.sum_nil, add_zero]

theorem total_perm (h : pairs.Perm pairs') (identifier : String) :
    total pairs identifier = total pairs' identifier :=
  ((h.filter _).map Prod.snd).sum_eq

theorem increments_perm {rankings' : List Ranking}
    (h : (rankings.map fun ranking => (ranking.weight, ranking.ranked)).Perm
      (rankings'.map fun ranking => (ranking.weight, ranking.ranked))) :
    (increments rrf_k rankings).Perm (increments rrf_k rankings') := by
  have hflat : ∀ rankings : List Ranking, increments rrf_k rankings =
      (rankings.map fun ranking => (ranking.weight, ranking.ranked)).flatMap fun entry =>
        entry.2.map fun ranked => (ranked.identifier, entry.1 / (rrf_k + ranked.rank : ℤ)) := by
    intro rankings
    rw [increments, List.flatMap_map]
  rw [hflat, hflat]
  exact h.flatMap_right _

theorem get?_fused_scores (rrf_k : ℤ) (rankings : List Ranking) (identifier : String) :
    (fuse rrf_k rankings).fused_scores.get? identifier =
      if identifier ∈ (increments rrf_k rankings).map Prod.fst then
        some (total (increments rrf_k rankings) identifier)
      else none := by
  rw [fused_scores_fuse, get?_accumulate]

theorem mem_keys_fused {rrf_k : ℤ} {rankings : List Ranking} {identifier : String} :
    identifier ∈ (fuse rrf_k rankings).fused_scores.keys ↔
      ∃ ranking ∈ rankings, ∃ ranked ∈ ranking.ranked, ranked.identifier = identifier := by
  rw [Dict.mem_keys_iff, get?_fused_scores]
  simp [increments, List.mem_flatMap]

theorem nodup_ordered (fusion : Fusion) : (ordered fusion).Nodup :=
  (sortedBy_perm _ _).nodup_iff.mpr fusion.fused_scores.nodup

theorem sortKey_injective (scores : Dict String ℚ) : Function.Injective (sortKey scores) := by
  intro a b h
  exact congrArg Prod.snd (toLex.injective h)

/-- The order of the documents depends on what was added to their scores, in any order. -/
theorem ordered_perm {rankings' : List Ranking}
    (h : (increments rrf_k rankings).Perm (increments rrf_k rankings')) :
    ordered (fuse rrf_k rankings) = ordered (fuse rrf_k rankings') := by
  have hget : ∀ identifier, (fuse rrf_k rankings).fused_scores.get? identifier =
      (fuse rrf_k rankings').fused_scores.get? identifier := by
    intro identifier
    rw [get?_fused_scores, get?_fused_scores, total_perm h]
    simp only [(h.map Prod.fst).mem_iff]
  have hkey : sortKey (fuse rrf_k rankings).fused_scores =
      sortKey (fuse rrf_k rankings').fused_scores := by
    funext identifier
    rw [sortKey, sortKey, hget]
  have hkeys : (fuse rrf_k rankings).fused_scores.keys.Perm
      (fuse rrf_k rankings').fused_scores.keys := by
    refine (List.perm_ext_iff_of_nodup (Dict.nodup _) (Dict.nodup _)).mpr fun identifier => ?_
    rw [← Dict.keys, ← Dict.keys, Dict.mem_keys_iff, Dict.mem_keys_iff, hget]
  rw [ordered, ordered, ← hkey]
  exact sortedBy_eq_of_perm hkeys fun a _ b _ hab => sortKey_injective _ hab

/-! ## Dominance -/

theorem total_of_nodup (h : (pairs.map Prod.fst).Nodup) {amount : ℚ}
    (hmem : (identifier, amount) ∈ pairs) : total pairs identifier = amount := by
  obtain ⟨front, back, rfl⟩ := List.append_of_mem hmem
  rw [List.map_append, List.map_cons, List.nodup_middle, List.nodup_cons, List.mem_append,
    not_or] at h
  rw [total_append, total_of_notMem h.1.1, ← List.singleton_append, total_append,
    total_of_notMem h.1.2]
  simp [total]

/-- What a component adds to a score. -/
def contribution (rrf_k : ℤ) (identifier : String) (ranking : Ranking) : ℚ :=
  total (ranking.ranked.map fun ranked =>
    (ranked.identifier, ranking.weight / (rrf_k + ranked.rank : ℤ))) identifier

theorem total_increments (rrf_k : ℤ) (rankings : List Ranking) (identifier : String) :
    total (increments rrf_k rankings) identifier =
      (rankings.map (contribution rrf_k identifier)).sum := by
  induction rankings with
  | nil => rfl
  | cons ranking rankings ih =>
      rw [increments, List.flatMap_cons, total_append, List.map_cons, List.sum_cons, ← ih]
      rfl

/-- Sound rankings: no document twice, and no rank below one. -/
structure Sound (ranking : Ranking) : Prop where
  positive : 0 < ranking.weight
  distinct : (ranking.ranked.map Ranked.identifier).Nodup
  ranks : ∀ ranked ∈ ranking.ranked, 1 ≤ ranked.rank

variable {ranking : Ranking} {ranked : Ranked}

theorem contribution_of_mem (h : Sound ranking) (hranked : ranked ∈ ranking.ranked) :
    contribution rrf_k ranked.identifier ranking =
      ranking.weight / (rrf_k + ranked.rank : ℤ) := by
  apply total_of_nodup
  · rw [List.map_map]
    exact h.distinct
  · exact List.mem_map.mpr ⟨ranked, hranked, rfl⟩

theorem contribution_of_absent
    (h : ∀ ranked ∈ ranking.ranked, ranked.identifier ≠ identifier) :
    contribution rrf_k identifier ranking = 0 := by
  apply total_of_notMem
  rw [List.map_map]
  intro hmem
  obtain ⟨ranked, hranked, hid⟩ := List.mem_map.mp hmem
  exact h ranked hranked hid

theorem share_pos {weight : ℚ} (hk : 1 ≤ rrf_k) {rank : ℤ} (hrank : 1 ≤ rank) (h : 0 < weight) :
    0 < weight / (rrf_k + rank : ℤ) :=
  div_pos h (Int.cast_pos.mpr (by omega))

theorem share_lt {weight : ℚ} (hk : 1 ≤ rrf_k) {rank rank' : ℤ} (hrank : 1 ≤ rank)
    (h : 0 < weight) (hlt : rank < rank') :
    weight / (rrf_k + rank' : ℤ) < weight / (rrf_k + rank : ℤ) :=
  div_lt_div_of_pos_left h (Int.cast_pos.mpr (by omega)) (Int.cast_lt.mpr (by omega))

theorem share_le {weight : ℚ} (hk : 1 ≤ rrf_k) {rank rank' : ℤ} (hrank : 1 ≤ rank)
    (h : 0 < weight) (hle : rank ≤ rank') :
    weight / (rrf_k + rank' : ℤ) ≤ weight / (rrf_k + rank : ℤ) := by
  rcases hle.eq_or_lt with rfl | hlt
  · exact le_rfl
  · exact (share_lt hk hrank h hlt).le

theorem contribution_nonneg (hk : 1 ≤ rrf_k) (h : Sound ranking) (identifier : String) :
    0 ≤ contribution rrf_k identifier ranking := by
  by_cases hsome : ∃ ranked ∈ ranking.ranked, ranked.identifier = identifier
  · obtain ⟨ranked, hranked, rfl⟩ := hsome
    rw [contribution_of_mem h hranked]
    exact (share_pos hk (h.ranks ranked hranked) h.positive).le
  · rw [contribution_of_absent fun ranked hranked hid => hsome ⟨ranked, hranked, hid⟩]

/-- The document `a` is in every component that has `b`, ranked at least as well there, and in one
component it is ranked better or stands without `b`. -/
structure Dominates (rankings : List Ranking) (a b : String) : Prop where
  atLeast : ∀ ranking ∈ rankings, ∀ y ∈ ranking.ranked, y.identifier = b →
    ∃ x ∈ ranking.ranked, x.identifier = a ∧ x.rank ≤ y.rank
  better : ∃ ranking ∈ rankings, ∃ x ∈ ranking.ranked, x.identifier = a ∧
    ∀ y ∈ ranking.ranked, y.identifier = b → x.rank < y.rank

variable {a b : String}

theorem contribution_le (hk : 1 ≤ rrf_k) (h : Sound ranking)
    (hatLeast : ∀ y ∈ ranking.ranked, y.identifier = b →
      ∃ x ∈ ranking.ranked, x.identifier = a ∧ x.rank ≤ y.rank) :
    contribution rrf_k b ranking ≤ contribution rrf_k a ranking := by
  by_cases hsome : ∃ y ∈ ranking.ranked, y.identifier = b
  · obtain ⟨y, hy, rfl⟩ := hsome
    obtain ⟨x, hx, rfl, hle⟩ := hatLeast y hy rfl
    rw [contribution_of_mem h hx, contribution_of_mem h hy]
    exact share_le hk (h.ranks x hx) h.positive hle
  · rw [contribution_of_absent fun y hy hid => hsome ⟨y, hy, hid⟩]
    exact contribution_nonneg hk h a

theorem contribution_lt (hk : 1 ≤ rrf_k) (h : Sound ranking) (hranked : ranked ∈ ranking.ranked)
    (hbetter : ∀ y ∈ ranking.ranked, y.identifier = b → ranked.rank < y.rank) :
    contribution rrf_k b ranking < contribution rrf_k ranked.identifier ranking := by
  rw [contribution_of_mem h hranked]
  by_cases hsome : ∃ y ∈ ranking.ranked, y.identifier = b
  · obtain ⟨y, hy, rfl⟩ := hsome
    rw [contribution_of_mem h hy]
    exact share_lt hk (h.ranks ranked hranked) h.positive (hbetter y hy rfl)
  · rw [contribution_of_absent fun y hy hid => hsome ⟨y, hy, hid⟩]
    exact share_pos hk (h.ranks ranked hranked) h.positive

theorem total_lt_of_dominates (hk : 1 ≤ rrf_k) (h : ∀ ranking ∈ rankings, Sound ranking)
    (hdominates : Dominates rankings a b) :
    total (increments rrf_k rankings) b < total (increments rrf_k rankings) a := by
  rw [total_increments, total_increments]
  obtain ⟨ranking, hranking, x, hx, rfl, hbetter⟩ := hdominates.better
  apply List.sum_lt_sum
  · exact fun ranking hranking =>
      contribution_le hk (h ranking hranking) (hdominates.atLeast ranking hranking)
  · exact ⟨ranking, hranking, contribution_lt hk (h ranking hranking) hx hbetter⟩

/-- In a sorted list, what has a smaller key stands further left. -/
theorem precedes_of_lt {ι κ : Type} [LinearOrder κ] {key : ι → κ} {xs : List ι}
    (h : xs.Pairwise fun x y => key x ≤ key y) {x y : ι} (hlt : key x < key y) (hx : x ∈ xs)
    {j : ℕ} (hy : xs[j]? = some y) : ∃ i < j, xs[i]? = some x := by
  obtain ⟨i, hi⟩ := List.mem_iff_getElem?.mp hx
  refine ⟨i, ?_, hi⟩
  by_contra hge
  obtain ⟨hilt, rfl⟩ := List.getElem?_eq_some_iff.mp hi
  obtain ⟨hjlt, rfl⟩ := List.getElem?_eq_some_iff.mp hy
  rcases (not_lt.mp hge).eq_or_lt with rfl | hji
  · exact lt_irrefl _ hlt
  · exact absurd (List.pairwise_iff_getElem.mp h j i hjlt hilt hji) (not_le.mpr hlt)

theorem getD_fused_score (hmem : ∃ ranking ∈ rankings, ∃ ranked ∈ ranking.ranked,
    ranked.identifier = identifier) :
    ((fuse rrf_k rankings).fused_scores.get? identifier).getD 0 =
      total (increments rrf_k rankings) identifier := by
  have hkey : identifier ∈ (fuse rrf_k rankings).fused_scores.keys := mem_keys_fused.mpr hmem
  obtain ⟨score, hscore⟩ := Dict.mem_keys_iff.mp hkey
  rw [hscore]
  rw [get?_fused_scores] at hscore
  split_ifs at hscore
  exact (Option.some.inj hscore).symm

/-- A document that dominates one that is returned is returned before it. -/
theorem precedes_of_dominates (hk : 1 ≤ rrf_k) (h : ∀ ranking ∈ rankings, Sound ranking)
    (hdominates : Dominates rankings a b) {limit j : ℕ}
    (hb : ((ordered (fuse rrf_k rankings)).take limit)[j]? = some b) :
    ∃ i < j, ((ordered (fuse rrf_k rankings)).take limit)[i]? = some a := by
  have hj : j < limit := by
    obtain ⟨hlt, -⟩ := List.getElem?_eq_some_iff.mp hb
    exact hlt.trans_le (List.length_take_le _ _)
  rw [List.getElem?_take_of_lt hj] at hb
  have hamem : ∃ ranking ∈ rankings, ∃ ranked ∈ ranking.ranked, ranked.identifier = a := by
    obtain ⟨ranking, hranking, x, hx, hid, -⟩ := hdominates.better
    exact ⟨ranking, hranking, x, hx, hid⟩
  have hbmem := mem_keys_fused.mp (mem_sortedBy.mp (List.mem_of_getElem? hb))
  have hlt : sortKey (fuse rrf_k rankings).fused_scores a <
      sortKey (fuse rrf_k rankings).fused_scores b := by
    rw [sortKey, sortKey, Prod.Lex.toLex_lt_toLex]
    left
    rw [getD_fused_score hamem, getD_fused_score hbmem]
    exact neg_lt_neg (total_lt_of_dominates hk h hdominates)
  obtain ⟨i, hi, ha⟩ := precedes_of_lt (pairwise_sortedBy _ _) hlt
    (mem_sortedBy.mpr (mem_keys_fused.mpr hamem)) hb
  exact ⟨i, hi, by rw [List.getElem?_take_of_lt (hi.trans hj)]; exact ha⟩

/-! ## Documents -/

theorem get?_setdefault {α : Type} (d : Dict String α) (key other : String) (value : α) :
    (setdefault d key value).get? other =
      if key = other then some ((d.get? key).getD value) else d.get? other := by
  rw [setdefault]
  split_ifs with hcontains hkey hkey
  · obtain ⟨w, hw⟩ := Dict.contains_iff.mp hcontains
    rw [← hkey, hw, Option.getD_some]
  · rfl
  · rw [Dict.contains, Bool.not_eq_true, Option.isSome_eq_false_iff,
      Option.isNone_iff_eq_none] at hcontains
    rw [← hkey, Dict.get?_set_self, hcontains, Option.getD_none]
  · rw [Dict.get?_set_ne _ _ (Ne.symm hkey)]

/-- The documents that are kept are documents of the components, one for each score. -/
structure Keeps (rankings : List Ranking) (fusion : Fusion) : Prop where
  drawn : ∀ identifier document, fusion.documents.get? identifier = some document →
    ∃ ranking ∈ rankings, ∃ ranked ∈ ranking.ranked,
      ranked.identifier = identifier ∧ ranked.document = document
  kept : ∀ identifier ∈ fusion.fused_scores.keys,
    ∃ document, fusion.documents.get? identifier = some document

theorem Keeps.fuseCandidate {fusion : Fusion} (h : Keeps rankings fusion)
    (hranking : ranking ∈ rankings) (hranked : ranked ∈ ranking.ranked) :
    Keeps rankings (ReciprocalRankFusionRetriever.fuseCandidate rrf_k ranking.component_name
      ranking.weight fusion ranked) := by
  refine ⟨fun identifier document hget => ?_, fun identifier hkey => ?_⟩
  · rw [ReciprocalRankFusionRetriever.fuseCandidate, get?_setdefault] at hget
    split_ifs at hget with hid
    · subst hid
      cases hold : fusion.documents.get? ranked.identifier with
      | none =>
          rw [hold, Option.getD_none] at hget
          exact ⟨ranking, hranking, ranked, hranked, rfl, Option.some.inj hget⟩
      | some kept =>
          rw [hold, Option.getD_some] at hget
          exact h.drawn _ _ (hold.trans hget)
    · exact h.drawn identifier document hget
  · rw [ReciprocalRankFusionRetriever.fuseCandidate, get?_setdefault]
    split_ifs with hid
    · exact ⟨_, rfl⟩
    · apply h.kept
      rw [Dict.mem_keys_iff] at hkey ⊢
      rwa [ReciprocalRankFusionRetriever.fuseCandidate, Dict.get?_set, if_neg hid] at hkey

theorem keeps_fuse (rrf_k : ℤ) (rankings : List Ranking) :
    Keeps rankings (fuse rrf_k rankings) := by
  have hempty : Keeps rankings ⟨.empty, .empty, .empty⟩ :=
    ⟨fun _ _ h => (by cases h), fun _ h => (by cases h)⟩
  refine List.foldlRecOn rankings _ hempty fun fusion h ranking hranking => ?_
  exact List.foldlRecOn ranking.ranked _ h fun fusion h ranked hranked =>
    h.fuseCandidate hranking hranked

/-! ## A search -/

variable {int : Json → Except Error ℤ} {self : ReciprocalRankFusionRetriever} {query : String}
  {pack_ids : List String} {limit : ℤ}

/-- The candidate of a component that was read into the ranking. -/
theorem readComponent_ok {pool_limit : ℤ} {index : ℕ} {component : Component}
    (h : readComponent int rrf_k query pack_ids pool_limit index component = .ok ranking) :
    ranking.weight = component.weight ∧
      ∃ found, component.search query pack_ids pool_limit = .ok found ∧
        ∀ ranked ∈ ranking.ranked, ranked.document ∈ found ∧
          ∃ id, ranked.document.get? "id" = some id ∧ ranked.identifier = id.pyStr := by
  obtain ⟨metadata, -, h⟩ := bind_eq_ok.mp h
  obtain ⟨found, hfound, h⟩ := bind_eq_ok.mp h
  obtain ⟨all, hall, h⟩ := bind_eq_ok.mp h
  cases h
  refine ⟨rfl, found, hfound, fun ranked hranked => ?_⟩
  obtain ⟨result, hresult, hread⟩ := exists_of_mem_mapM hall ranked hranked
  obtain ⟨id, hid, hread⟩ := bind_eq_ok.mp hread
  obtain ⟨stated, -, hread⟩ := bind_eq_ok.mp hread
  obtain ⟨retrieval, -, hread⟩ := bind_eq_ok.mp hread
  obtain ⟨rank, -, hread⟩ := bind_eq_ok.mp hread
  split_ifs at hread
  cases hread
  exact ⟨List.fst_mem_of_mem_zipIdx hresult, id,
    Json.getItem_ok_iff.mp (liftPy_eq_ok.mp hid), rfl⟩

/-- What is fused of a component, whatever its place is. -/
def entriesOf (int : Json → Except Error ℤ) (rrf_k : ℤ) (query : String) (pack_ids : List String)
    (pool_limit : ℤ) (component : Component) : ℚ × List Ranked :=
  match readComponent int rrf_k query pack_ids pool_limit 0 component with
  | .ok ranking => (ranking.weight, ranking.ranked)
  | .error _ => (0, [])

theorem readComponent_index {pool_limit : ℤ} {index : ℕ} {component : Component}
    (h : readComponent int rrf_k query pack_ids pool_limit index component = .ok ranking)
    (other : ℕ) :
    ∃ ranking', readComponent int rrf_k query pack_ids pool_limit other component =
      .ok ranking' ∧ (ranking'.weight, ranking'.ranked) = (ranking.weight, ranking.ranked) := by
  obtain ⟨metadata, hmetadata, h⟩ := bind_eq_ok.mp h
  obtain ⟨found, hfound, h⟩ := bind_eq_ok.mp h
  obtain ⟨all, hall, h⟩ := bind_eq_ok.mp h
  cases h
  exact ⟨_, bind_eq_ok.mpr ⟨_, hmetadata, bind_eq_ok.mpr ⟨_, hfound,
    bind_eq_ok.mpr ⟨_, hall, rfl⟩⟩⟩, rfl⟩

theorem entriesOf_eq {pool_limit : ℤ} {index : ℕ} {component : Component}
    (h : readComponent int rrf_k query pack_ids pool_limit index component = .ok ranking) :
    entriesOf int rrf_k query pack_ids pool_limit component = (ranking.weight, ranking.ranked) := by
  obtain ⟨ranking', hread, hsame⟩ := readComponent_index h 0
  rw [entriesOf, hread, ← hsame]

theorem map_entries {pool_limit : ℤ} {indexed : List (Component × ℕ)}
    (h : List.Forall₂ (fun indexed ranking => readComponent int rrf_k query pack_ids pool_limit
      indexed.2 indexed.1 = .ok ranking) indexed rankings) :
    rankings.map (fun ranking => (ranking.weight, ranking.ranked)) =
      (indexed.map Prod.fst).map (entriesOf int rrf_k query pack_ids pool_limit) := by
  induction h with
  | nil => rfl
  | cons hread _ ih => rw [List.map_cons, List.map_cons, List.map_cons, ih, entriesOf_eq hread]

theorem map_rankings (h : self.rankings int query pack_ids limit = .ok rankings) :
    rankings.map (fun ranking => (ranking.weight, ranking.ranked)) =
      self.components.map (entriesOf int self.rrf_k query pack_ids
        (max limit (limit * self.candidate_multiplier))) := by
  rw [map_entries (mapM_eq_ok.mp h), List.zipIdx_map_fst]

/-- With the components in another order, the same rankings are read in that order. -/
theorem exists_rankings_perm {other : ReciprocalRankFusionRetriever} (hk : other.rrf_k = self.rrf_k)
    (hmultiplier : other.candidate_multiplier = self.candidate_multiplier)
    (hperm : other.components.Perm self.components)
    (h : self.rankings int query pack_ids limit = .ok rankings) :
    ∃ rankings', other.rankings int query pack_ids limit = .ok rankings' ∧
      (rankings'.map fun ranking => (ranking.weight, ranking.ranked)).Perm
        (rankings.map fun ranking => (ranking.weight, ranking.ranked)) := by
  obtain ⟨rankings', hrankings'⟩ : ∃ rankings',
      other.rankings int query pack_ids limit = .ok rankings' := by
    apply mapM_ok_of_forall
    intro indexed hindexed
    have hmem : indexed.1 ∈ self.components :=
      hperm.mem_iff.mp (List.fst_mem_of_mem_zipIdx hindexed)
    obtain ⟨place, hplace⟩ : ∃ place, (indexed.1, place) ∈ self.components.zipIdx := by
      rw [← List.zipIdx_map_fst 0 self.components] at hmem
      obtain ⟨entry, hentry, hsame⟩ := List.mem_map.mp hmem
      exact ⟨entry.2, hsame ▸ hentry⟩
    obtain ⟨ranking, -, hread⟩ := exists_of_mapM_ok h _ hplace
    obtain ⟨ranking', hread', -⟩ := readComponent_index hread indexed.2
    rw [hk, hmultiplier]
    exact ⟨ranking', hread'⟩
  refine ⟨rankings', hrankings', ?_⟩
  rw [map_rankings h, map_rankings hrankings', hk, hmultiplier]
  exact hperm.map _

theorem search_ok (hlimit : 1 ≤ limit) (h : self.rankings int query pack_ids limit = .ok rankings)
    {service : Json} (hservice : self.metadata = .ok service) :
    self.search int query pack_ids limit =
      .ok ((((ordered (fuse self.rrf_k rankings)).take limit.toNat).zipIdx 1).map fun placed =>
        fusedDocument (fuse self.rrf_k rankings) service placed.1 placed.2) := by
  rw [search, if_neg (not_lt.mpr hlimit)]
  exact bind_eq_ok.mpr ⟨_, h, bind_eq_ok.mpr ⟨_, hservice, rfl⟩⟩

theorem map_identifier_fusedDocument (fusion : Fusion) (service : Json)
    (identifiers : List String) :
    ((identifiers.zipIdx 1).map fun placed =>
      fusedDocument fusion service placed.1 placed.2).map FusedDocument.identifier =
        identifiers := by
  rw [List.map_map]
  exact List.zipIdx_map_fst 1 identifiers

theorem map_rank_fusedDocument (fusion : Fusion) (service : Json) (identifiers : List String) :
    ((identifiers.zipIdx 1).map fun placed =>
      fusedDocument fusion service placed.1 placed.2).map FusedDocument.rank =
        List.range' 1 identifiers.length := by
  rw [List.map_map]
  exact List.zipIdx_map_snd 1 identifiers

/-- What is asked of a fusion of rankings. -/
structure FusedSoundly (self : ReciprocalRankFusionRetriever) (query : String)
    (pack_ids : List String) (limit : ℤ) (rankings : List Ranking)
    (results : List FusedDocument) : Prop where
  distinct : (results.map FusedDocument.identifier).Nodup
  drawn : ∀ result ∈ results, ∃ component ∈ self.components, ∃ found,
    component.search query pack_ids (max limit (limit * self.candidate_multiplier)) = .ok found ∧
      ∃ candidate ∈ found, ∃ id, candidate.get? "id" = some id ∧
        result.identifier = id.pyStr ∧ result.document = shownDocument candidate
  ranks : results.map FusedDocument.rank = List.range' 1 results.length
  dominance : ∀ a b, Dominates rankings a b →
    ∀ j : ℕ, (results.map FusedDocument.identifier)[j]? = some b →
      ∃ i < j, (results.map FusedDocument.identifier)[i]? = some a

theorem sound_of_rankings (h : self.rankings int query pack_ids limit = .ok rankings)
    (hdistinct : ∀ ranking ∈ rankings, (ranking.ranked.map Ranked.identifier).Nodup)
    (hranks : ∀ ranking ∈ rankings, ∀ ranked ∈ ranking.ranked, 1 ≤ ranked.rank) :
    ∀ ranking ∈ rankings, Sound ranking := by
  intro ranking hranking
  obtain ⟨indexed, -, hread⟩ := exists_of_mem_mapM h ranking hranking
  refine ⟨?_, hdistinct ranking hranking, hranks ranking hranking⟩
  rw [(readComponent_ok hread).1]
  exact indexed.1.positive

theorem drawn_fusedDocument (h : self.rankings int query pack_ids limit = .ok rankings)
    {identifier : String} (hmem : identifier ∈ ordered (fuse self.rrf_k rankings)) :
    ∃ component ∈ self.components, ∃ found,
      component.search query pack_ids (max limit (limit * self.candidate_multiplier)) = .ok found ∧
        ∃ candidate ∈ found, ∃ id, candidate.get? "id" = some id ∧ identifier = id.pyStr ∧
          (fuse self.rrf_k rankings).documents.get? identifier = some candidate := by
  obtain ⟨document, hdocument⟩ :=
    (keeps_fuse self.rrf_k rankings).kept identifier (mem_sortedBy.mp hmem)
  obtain ⟨ranking, hranking, ranked, hranked, rfl, rfl⟩ :=
    (keeps_fuse self.rrf_k rankings).drawn identifier document hdocument
  obtain ⟨indexed, hindexed, hread⟩ := exists_of_mem_mapM h ranking hranking
  obtain ⟨-, found, hfound, hall⟩ := readComponent_ok hread
  obtain ⟨hcandidate, id, hid, hidentifier⟩ := hall ranked hranked
  exact ⟨indexed.1, List.fst_mem_of_mem_zipIdx hindexed, found, hfound, ranked.document,
    hcandidate, id, hid, hidentifier, hdocument⟩

/-- A fusion merges the rankings soundly, in whatever order the components are given. -/
theorem search_fuses_soundly (int : Json → Except Error ℤ) (self : ReciprocalRankFusionRetriever)
    (query : String) (pack_ids : List String) (limit : ℤ) (rankings : List Ranking)
    (service : Json) (hlimit : 1 ≤ limit)
    (h : self.rankings int query pack_ids limit = .ok rankings)
    (hservice : self.metadata = .ok service)
    (hdistinct : ∀ ranking ∈ rankings, (ranking.ranked.map Ranked.identifier).Nodup)
    (hranks : ∀ ranking ∈ rankings, ∀ ranked ∈ ranking.ranked, 1 ≤ ranked.rank) :
    ∃ results, self.search int query pack_ids limit = .ok results ∧
      FusedSoundly self query pack_ids limit rankings results ∧
      ∀ other : ReciprocalRankFusionRetriever, other.rrf_k = self.rrf_k →
        other.candidate_multiplier = self.candidate_multiplier →
        other.components.Perm self.components → ∀ service', other.metadata = .ok service' →
          ∃ results', other.search int query pack_ids limit = .ok results' ∧
            results'.map FusedDocument.identifier = results.map FusedDocument.identifier := by
  have hsound := sound_of_rankings h hdistinct hranks
  refine ⟨_, search_ok hlimit h hservice, ⟨?_, ?_, ?_, ?_⟩, ?_⟩
  · rw [map_identifier_fusedDocument]
    exact (nodup_ordered _).sublist (List.take_sublist _ _)
  · intro result hresult
    obtain ⟨placed, hplaced, rfl⟩ := List.mem_map.mp hresult
    obtain ⟨component, hcomponent, found, hfound, candidate, hcandidate, id, hid, hsame,
      hdocument⟩ := drawn_fusedDocument h
        (List.mem_of_mem_take (List.fst_mem_of_mem_zipIdx hplaced))
    refine ⟨component, hcomponent, found, hfound, candidate, hcandidate, id, hid, hsame, ?_⟩
    rw [fusedDocument, hdocument, Option.getD_some]
  · rw [map_rank_fusedDocument, List.length_map, List.length_zipIdx]
  · intro a b hdominates j hj
    rw [map_identifier_fusedDocument] at hj ⊢
    exact precedes_of_dominates self.k_positive hsound hdominates hj
  · intro other hk hmultiplier hperm service' hservice'
    obtain ⟨rankings', hrankings', hentries⟩ := exists_rankings_perm hk hmultiplier hperm h
    refine ⟨_, search_ok hlimit hrankings' hservice', ?_⟩
    rw [map_identifier_fusedDocument, map_identifier_fusedDocument, hk,
      ordered_perm (increments_perm hentries)]

/-- A component that returns documents with these ids in this order. -/
def fixedComponent (identifiers : List String) (weight : ℚ) (positive : 0 < weight) : Component where
  metadata := .ok (.obj [("implementation", .str "fixed")])
  search _ _ _ := .ok (identifiers.map fun identifier => .obj [("id", .str identifier)])
  weight := weight
  positive := positive

def samplePair : ReciprocalRankFusionRetriever where
  components := [fixedComponent ["a", "b"] 1 one_pos, fixedComponent ["c", "a"] 2 two_pos]
  rrf_k := 60
  candidate_multiplier := 4
  metadata := .ok .null
  enough := le_rfl
  k_positive := by decide
  multiplier_positive := by decide

def statedRank : Json → Except Error ℤ
  | .int n => .ok n
  | _ => .error .typeError

def unranked (identifier : String) (rank : ℤ) : Ranked :=
  ⟨identifier, .obj [("id", .str identifier)], rank, .null⟩

def pairRankings : List Ranking :=
  [⟨"0:fixed", 1, [unranked "a" 1, unranked "b" 2]⟩,
    ⟨"1:fixed", 2, [unranked "c" 1, unranked "a" 2]⟩]

theorem search_fuses_soundly_pair :
    ∃ results, samplePair.search statedRank "q" [] 2 = .ok results ∧
      FusedSoundly samplePair "q" [] 2 pairRankings results ∧
      ∀ other : ReciprocalRankFusionRetriever, other.rrf_k = samplePair.rrf_k →
        other.candidate_multiplier = samplePair.candidate_multiplier →
        other.components.Perm samplePair.components →
        ∀ service', other.metadata = .ok service' →
          ∃ results', other.search statedRank "q" [] 2 = .ok results' ∧
            results'.map FusedDocument.identifier = results.map FusedDocument.identifier :=
  search_fuses_soundly statedRank samplePair "q" [] 2 pairRankings .null (by decide) rfl rfl
    (by simp [pairRankings, unranked]) (by simp [pairRankings, unranked])

end ReciprocalRankFusionRetriever

end FossilCore
