import Mathlib.Data.List.Lex
import Mathlib.Data.List.Nodup
import Mathlib.Data.String.Basic
import Mathlib.Order.Lattice
import Std.Data.ExtTreeMap

/-!
# Key maps and sorted listings

A finite map from keys to contents, as an object store or a file tree is one: extensional, so
that two maps with the same lookups are equal.  A listing of the keys comes in no promised
order; `sorted` puts it in order, and depends on the members of the listing alone.
-/

namespace Base

abbrev KeyMap (κ : Type) [Ord κ] (α : Type) := Std.ExtTreeMap κ α compare

namespace KeyMap

variable {κ α : Type} [Ord κ] [Std.TransOrd κ] [Std.LawfulEqOrd κ]

theorem get?_insert (m : KeyMap κ α) (k k' : κ) (v : α) [Decidable (k = k')] :
    (m.insert k v)[k']? = if k = k' then some v else m[k']? := by
  rw [Std.ExtTreeMap.getElem?_insert]
  by_cases h : k = k'
  · rw [if_pos (Std.LawfulEqCmp.compare_eq_iff_eq.mpr h), if_pos h]
  · rw [if_neg (fun hc => h (Std.LawfulEqCmp.compare_eq_iff_eq.mp hc)), if_neg h]

theorem get?_erase (m : KeyMap κ α) (k k' : κ) [Decidable (k = k')] :
    (m.erase k)[k']? = if k = k' then none else m[k']? := by
  rw [Std.ExtTreeMap.getElem?_erase]
  by_cases h : k = k'
  · rw [if_pos (Std.LawfulEqCmp.compare_eq_iff_eq.mpr h), if_pos h]
  · rw [if_neg (fun hc => h (Std.LawfulEqCmp.compare_eq_iff_eq.mp hc)), if_neg h]

open Classical in
theorem get?_insert_self (m : KeyMap κ α) (k : κ) (v : α) : (m.insert k v)[k]? = some v := by
  rw [get?_insert, if_pos rfl]

open Classical in
theorem get?_insert_ne (m : KeyMap κ α) {k k' : κ} (v : α) (h : k ≠ k') :
    (m.insert k v)[k']? = m[k']? := by
  rw [get?_insert, if_neg h]

open Classical in
theorem get?_erase_self (m : KeyMap κ α) (k : κ) : (m.erase k)[k]? = none := by
  rw [get?_erase, if_pos rfl]

open Classical in
theorem get?_erase_ne (m : KeyMap κ α) {k k' : κ} (h : k ≠ k') :
    (m.erase k)[k']? = m[k']? := by
  rw [get?_erase, if_neg h]

theorem ext {m m' : KeyMap κ α} (h : ∀ k : κ, m[k]? = m'[k]?) : m = m' :=
  Std.ExtTreeMap.ext_getElem? h

open Classical in
/-- Writing a fresh key and deleting it again leaves no trace. -/
theorem erase_insert {m : KeyMap κ α} {k : κ} (v : α) (h : m[k]? = none) :
    (m.insert k v).erase k = m := by
  apply ext
  intro k'
  by_cases hk : k = k'
  · subst hk
    rw [get?_erase_self, h]
  · rw [get?_erase_ne _ hk, get?_insert_ne _ _ hk]

open Classical in
theorem erase_of_get? {m : KeyMap κ α} {k : κ} (h : m[k]? = none) : m.erase k = m := by
  apply ext
  intro k'
  by_cases hk : k = k'
  · subst hk
    rw [get?_erase_self, h]
  · rw [get?_erase_ne _ hk]

open Classical in
theorem insert_comm (m : KeyMap κ α) {k k' : κ} (v v' : α) (h : k ≠ k') :
    (m.insert k v).insert k' v' = (m.insert k' v').insert k v := by
  apply ext
  intro x
  simp only [get?_insert]
  by_cases hk : k = x
  · subst hk
    simp [Ne.symm h]
  · simp [hk]

open Classical in
theorem insert_insert (m : KeyMap κ α) (k : κ) (v v' : α) :
    (m.insert k v).insert k v' = m.insert k v' := by
  apply ext
  intro x
  simp only [get?_insert]
  by_cases hk : k = x <;> simp [hk]

open Classical in
theorem erase_insert_comm (m : KeyMap κ α) {k k' : κ} (v : α) (h : k ≠ k') :
    (m.insert k v).erase k' = (m.erase k').insert k v := by
  apply ext
  intro x
  simp only [get?_insert, get?_erase]
  by_cases hk : k = x
  · subst hk
    simp [Ne.symm h]
  · simp [hk]

theorem mem_keys_iff {m : KeyMap κ α} {k : κ} : k ∈ m.keys ↔ ∃ v, m[k]? = some v := by
  rw [Std.ExtTreeMap.mem_keys, Std.ExtTreeMap.mem_iff_isSome_getElem?, Option.isSome_iff_exists]

omit [Std.LawfulEqOrd κ] in
theorem contains_iff {m : KeyMap κ α} {k : κ} :
    m.contains k = true ↔ ∃ v, m[k]? = some v := by
  rw [Std.ExtTreeMap.contains_iff_mem, Std.ExtTreeMap.mem_iff_isSome_getElem?,
    Option.isSome_iff_exists]

omit [Std.LawfulEqOrd κ] in
theorem contains_eq_isSome (m : KeyMap κ α) (k : κ) : m.contains k = m[k]?.isSome := by
  rw [Bool.eq_iff_iff, contains_iff, Option.isSome_iff_exists]

theorem keys_insert_perm {m : KeyMap κ α} {k : κ} (v : α) (hfree : m[k]? = none) :
    (m.insert k v).keys.Perm (k :: m.keys) := by
  classical
  have hnot : k ∉ m.keys := by
    rw [mem_keys_iff, hfree]
    simp
  apply (List.perm_ext_iff_of_nodup Std.ExtTreeMap.nodup_keys
    (List.nodup_cons.mpr ⟨hnot, Std.ExtTreeMap.nodup_keys⟩)).mpr
  intro x
  rw [mem_keys_iff, get?_insert, List.mem_cons, mem_keys_iff]
  by_cases hx : k = x
  · simp [hx]
  · simp [hx, Ne.symm hx]

/-- The contents, in the order of a listing of the keys. -/
def contents (m : KeyMap κ α) : List α := m.keys.filterMap fun k => m[k]?

theorem mem_contents {m : KeyMap κ α} {v : α} : v ∈ m.contents ↔ ∃ k : κ, m[k]? = some v := by
  rw [contents, List.mem_filterMap]
  constructor
  · rintro ⟨k, -, h⟩
    exact ⟨k, h⟩
  · rintro ⟨k, h⟩
    exact ⟨k, mem_keys_iff.mpr ⟨v, h⟩, h⟩

theorem contents_empty : contents (∅ : KeyMap κ α) = [] := by
  rw [List.eq_nil_iff_forall_not_mem]
  intro v hv
  obtain ⟨k, hk⟩ := mem_contents.mp hv
  simp at hk

theorem contents_insert_perm {m : KeyMap κ α} {k : κ} (v : α) (hfree : m[k]? = none) :
    (contents (m.insert k v)).Perm (v :: m.contents) := by
  have hrest : m.keys.filterMap (fun x => (m.insert k v)[x]?) = m.contents := by
    apply List.filterMap_congr
    intro x hx
    apply get?_insert_ne
    rintro rfl
    obtain ⟨w, hw⟩ := mem_keys_iff.mp hx
    rw [hfree] at hw
    cases hw
  have hperm := (keys_insert_perm v hfree).filterMap fun x => (m.insert k v)[x]?
  rwa [List.filterMap_cons_some (get?_insert_self m k v), hrest] at hperm

end KeyMap

/-! ## Sorting -/

-- Sorting texts looks for these three facts wherever it is done.
instance (priority := high) transTexts : IsTrans String (· ≤ ·) := inferInstance

instance (priority := high) antisymmTexts : Std.Antisymm (α := String) (· ≤ ·) := inferInstance

instance (priority := high) totalTexts : Std.Total (α := String) (· ≤ ·) := inferInstance

section Sorted

variable {α ι : Type} [LinearOrder α]

/-- `sorted(xs)` -/
def sorted (xs : List α) : List α := xs.mergeSort fun a b => decide (a ≤ b)

/-- `sorted(xs, key=key)`: the sort is stable. -/
def sortedBy (key : ι → α) (xs : List ι) : List ι :=
  xs.mergeSort fun a b => decide (key a ≤ key b)

theorem sorted_perm (xs : List α) : (sorted xs).Perm xs := List.mergeSort_perm _ _

theorem sortedBy_perm (key : ι → α) (xs : List ι) : (sortedBy key xs).Perm xs :=
  List.mergeSort_perm _ _

theorem mem_sortedBy {key : ι → α} {xs : List ι} {x : ι} : x ∈ sortedBy key xs ↔ x ∈ xs :=
  (sortedBy_perm key xs).mem_iff

theorem pairwise_sortedBy (key : ι → α) (xs : List ι) :
    (sortedBy key xs).Pairwise fun a b => key a ≤ key b := by
  have h : (sortedBy key xs).Pairwise fun a b => decide (key a ≤ key b) = true := by
    refine List.pairwise_mergeSort ?_ ?_ xs
    · intro a b c hab hbc
      simp only [decide_eq_true_eq] at hab hbc ⊢
      exact hab.trans hbc
    · intro a b
      simpa using le_total (key a) (key b)
  exact h.imp (by simp)

theorem sortedBy_of_pairwise {key : ι → α} {xs : List ι}
    (h : xs.Pairwise fun a b => key a ≤ key b) : sortedBy key xs = xs := by
  apply List.mergeSort_of_pairwise
  exact h.imp (by simp)

theorem sorted_map (key : ι → α) (xs : List ι) :
    sorted (xs.map key) = (sortedBy key xs).map key := by
  rw [sorted, sortedBy]
  exact (List.map_mergeSort (by simp)).symm

theorem sortedBy_map {ι' : Type} (key : ι → α) (f : ι' → ι) (xs : List ι') :
    sortedBy key (xs.map f) = (sortedBy (fun x => key (f x)) xs).map f := by
  rw [sortedBy, sortedBy]
  exact (List.map_mergeSort (by simp)).symm

/-- With distinct keys the sorted list depends on the members alone. -/
theorem sortedBy_eq_of_perm {key : ι → α} {xs ys : List ι} (h : xs.Perm ys)
    (hinj : ∀ a ∈ xs, ∀ b ∈ xs, key a = key b → a = b) : sortedBy key xs = sortedBy key ys := by
  refine List.Perm.eq_of_pairwise ?_ (pairwise_sortedBy key xs) (pairwise_sortedBy key ys)
    (((sortedBy_perm key xs).trans h).trans (sortedBy_perm key ys).symm)
  intro a b ha hb hab hba
  exact hinj a (mem_sortedBy.mp ha) b (h.mem_iff.mpr (mem_sortedBy.mp hb)) (le_antisymm hab hba)

theorem sorted_eq_of_perm {xs ys : List α} (h : xs.Perm ys) : sorted xs = sorted ys :=
  show sortedBy id xs = sortedBy id ys from sortedBy_eq_of_perm h fun _ _ _ _ hab => hab

/-- Two keys that order the same way sort the same way. -/
theorem sortedBy_congr {β : Type} [LinearOrder β] {key : ι → α} {key' : ι → β}
    (h : ∀ a b, key a ≤ key b ↔ key' a ≤ key' b) (xs : List ι) :
    sortedBy key xs = sortedBy key' xs := by
  have hle : (fun a b => decide (key a ≤ key b)) = fun a b => decide (key' a ≤ key' b) := by
    funext a b
    exact decide_eq_decide.mpr (h a b)
  rw [sortedBy, sortedBy, hle]

/-- The sort keeps the entries of one key in the order they came in. -/
theorem filter_sortedBy_key (key : ι → α) (k : α) (xs : List ι) :
    (sortedBy key xs).filter (fun x => decide (key x = k)) =
      xs.filter (fun x => decide (key x = k)) := by
  have hperm := (sortedBy_perm key xs).filter fun x => decide (key x = k)
  have hsame : (xs.filter fun x => decide (key x = k)).Pairwise
      fun a b => decide (key a ≤ key b) = true := by
    apply List.pairwise_of_forall_mem_list
    intro a ha b hb
    have hka : key a = k := by simpa using (List.mem_filter.mp ha).2
    have hkb : key b = k := by simpa using (List.mem_filter.mp hb).2
    simp [hka, hkb]
  have hsub : (xs.filter fun x => decide (key x = k)).Sublist (sortedBy key xs) := by
    apply List.sublist_mergeSort _ _ hsame List.filter_sublist
    · intro a b c hab hbc
      simp only [decide_eq_true_eq] at hab hbc ⊢
      exact hab.trans hbc
    · intro a b
      simpa using le_total (key a) (key b)
  have hfilter := hsub.filter fun x => decide (key x = k)
  rw [List.filter_filter] at hfilter
  simp only [Bool.and_self] at hfilter
  exact (hfilter.eq_of_length hperm.length_eq.symm).symm

/-- A sorted list is determined by its entries of each key, in their order. -/
theorem eq_of_filter_key_eq {key : ι → α} {xs ys : List ι}
    (hxs : xs.Pairwise fun a b => key a ≤ key b) (hys : ys.Pairwise fun a b => key a ≤ key b)
    (h : ∀ k, xs.filter (fun x => decide (key x = k)) = ys.filter (fun x => decide (key x = k))) :
    xs = ys := by
  have hmem : ∀ x, x ∈ xs ↔ x ∈ ys := by
    intro x
    have hx := congrArg (x ∈ ·) (h (key x))
    simpa using hx
  induction xs generalizing ys with
  | nil =>
      symm
      apply List.eq_nil_iff_forall_not_mem.mpr
      intro y hy
      cases (hmem y).mpr hy
  | cons a xs ih =>
      cases ys with
      | nil => cases (hmem a).mp List.mem_cons_self
      | cons b ys =>
          rw [List.pairwise_cons] at hxs hys
          have hab : key a ≤ key b := by
            rcases List.mem_cons.mp ((hmem b).mpr List.mem_cons_self) with rfl | hb
            · exact le_rfl
            · exact hxs.1 b hb
          have hba : key b ≤ key a := by
            rcases List.mem_cons.mp ((hmem a).mp List.mem_cons_self) with rfl | ha
            · exact le_rfl
            · exact hys.1 a ha
          have hkey : key a = key b := le_antisymm hab hba
          have hhead := h (key a)
          simp only [List.filter_cons, hkey, decide_true, if_true, List.cons.injEq] at hhead
          obtain ⟨rfl, -⟩ := hhead
          have htails : ∀ k, xs.filter (fun x => decide (key x = k)) =
              ys.filter (fun x => decide (key x = k)) := by
            intro k
            have hk := h k
            by_cases hak : key a = k
            · simpa [List.filter_cons, hak] using hk
            · simpa [List.filter_cons, hak] using hk
          rw [ih hxs.2 hys.2 htails]
          intro x
          have hx := congrArg (x ∈ ·) (htails (key x))
          simpa using hx

/-- Keys that agree on the members of a list sort it alike. -/
theorem sortedBy_congr_mem {key key' : ι → α} {xs : List ι} (h : ∀ x ∈ xs, key x = key' x) :
    sortedBy key xs = sortedBy key' xs := by
  apply eq_of_filter_key_eq (pairwise_sortedBy key xs)
  · apply List.Pairwise.imp_of_mem _ (pairwise_sortedBy key' xs)
    intro a b ha hb hab
    rw [h a (mem_sortedBy.mp ha), h b (mem_sortedBy.mp hb)]
    exact hab
  · intro k
    rw [filter_sortedBy_key]
    have hkeys : ∀ x ∈ sortedBy key' xs, decide (key x = k) = decide (key' x = k) := by
      intro x hx
      rw [h x (mem_sortedBy.mp hx)]
    rw [List.filter_congr hkeys, filter_sortedBy_key]
    apply List.filter_congr
    intro x hx
    rw [h x hx]

/-- A newcomer with the greatest key goes to the end. -/
theorem sortedBy_append_greatest {key : ι → α} {xs ys : List ι} {x : ι}
    (hperm : ys.Perm (x :: xs)) (hgreatest : ∀ y ∈ xs, key y < key x)
    (hinj : ∀ a ∈ xs, ∀ b ∈ xs, key a = key b → a = b) :
    sortedBy key ys = sortedBy key xs ++ [x] := by
  have hsorted : (sortedBy key xs ++ [x]).Pairwise fun a b => key a ≤ key b := by
    apply List.pairwise_append.mpr
    refine ⟨pairwise_sortedBy key xs, List.pairwise_singleton _ _, ?_⟩
    intro a ha b hb
    rw [List.mem_singleton.mp hb]
    exact (hgreatest a (mem_sortedBy.mp ha)).le
  rw [← sortedBy_of_pairwise hsorted]
  apply sortedBy_eq_of_perm
  · exact hperm.trans ((sortedBy_perm key xs).symm.cons x |>.trans (List.perm_append_singleton x _).symm)
  · intro a ha b hb hab
    rcases List.mem_cons.mp (hperm.mem_iff.mp ha) with rfl | ha
    · rcases List.mem_cons.mp (hperm.mem_iff.mp hb) with rfl | hb
      · rfl
      · exact absurd hab (hgreatest b hb).ne'
    · rcases List.mem_cons.mp (hperm.mem_iff.mp hb) with rfl | hb
      · exact absurd hab (hgreatest a ha).ne
      · exact hinj a ha b hb hab

theorem filter_key_and (key : ι → α) (k : α) (p : α → Prop) [DecidablePred p] (xs : List ι) :
    (xs.filter fun x => decide (key x = k) && decide (p (key x))) =
      if p k then xs.filter fun x => decide (key x = k) else [] := by
  by_cases hk : p k
  · rw [if_pos hk]
    apply List.filter_congr
    intro x _
    by_cases hx : key x = k
    · simp [hx, hk]
    · simp [hx]
  · rw [if_neg hk]
    apply List.filter_eq_nil_iff.mpr
    intro x _ hx
    simp only [Bool.and_eq_true, decide_eq_true_eq] at hx
    exact hk (hx.1 ▸ hx.2)

/-- Sorting what has a key below `n + 1` puts what has the key `n` behind the rest. -/
theorem sortedBy_lt_succ (key : ι → ℕ) (n : ℕ) (xs : List ι) :
    sortedBy key (xs.filter fun x => key x < n + 1) =
      sortedBy key (xs.filter fun x => key x < n) ++ xs.filter fun x => key x = n := by
  apply eq_of_filter_key_eq (pairwise_sortedBy key _)
  · apply List.pairwise_append.mpr
    refine ⟨pairwise_sortedBy key _, ?_, ?_⟩
    · apply List.pairwise_of_forall_mem_list
      intro a ha b hb
      have hka := of_decide_eq_true (List.mem_filter.mp ha).2
      have hkb := of_decide_eq_true (List.mem_filter.mp hb).2
      omega
    · intro a ha b hb
      have hka := of_decide_eq_true (List.mem_filter.mp (mem_sortedBy.mp ha)).2
      have hkb := of_decide_eq_true (List.mem_filter.mp hb).2
      omega
  · intro k
    rw [List.filter_append, filter_sortedBy_key, filter_sortedBy_key, List.filter_filter,
      List.filter_filter, List.filter_filter]
    rw [filter_key_and key k (fun j => j < n + 1), filter_key_and key k (fun j => j < n),
      filter_key_and key k (fun j => j = n)]
    rcases Nat.lt_trichotomy k n with hk | rfl | hk
    · rw [if_pos (by omega), if_pos hk, if_neg (by omega), List.append_nil]
    · rw [if_pos (by omega), if_neg (by omega), if_pos rfl, List.nil_append]
    · rw [if_neg (by omega), if_neg (by omega), if_neg (by omega), List.append_nil]

/-- The last of a sorted list is its greatest entry. -/
theorem getLast?_sortedBy {key : ι → α} {xs : List ι} {x : ι}
    (hx : x ∈ xs) (hgreatest : ∀ y ∈ xs, key y ≤ key x)
    (hinj : ∀ a ∈ xs, ∀ b ∈ xs, key a = key b → a = b) :
    (sortedBy key xs).getLast? = some x := by
  have hmem : x ∈ sortedBy key xs := mem_sortedBy.mpr hx
  obtain ⟨last, hlast⟩ : ∃ last, (sortedBy key xs).getLast? = some last :=
    Option.ne_none_iff_exists'.mp fun hnone => by
      rw [List.getLast?_eq_none_iff.mp hnone] at hmem
      cases hmem
  obtain ⟨init, hinit⟩ := List.getLast?_eq_some_iff.mp hlast
  have hsorted := pairwise_sortedBy key xs
  have hlastmem : last ∈ xs := by
    apply (sortedBy_perm key xs).mem_iff.mp
    rw [hinit]
    exact List.mem_append_right _ List.mem_cons_self
  have hle : key x ≤ key last := by
    rw [hinit] at hmem hsorted
    rcases List.mem_append.mp hmem with hbefore | hself
    · exact (List.pairwise_append.mp hsorted).2.2 x hbefore last List.mem_cons_self
    · rw [List.mem_singleton.mp hself]
  rw [hlast, hinj x hx last hlastmem (le_antisymm hle (hgreatest last hlastmem))]

/-- Sorting and filtering commute. -/
theorem sortedBy_filter (key : ι → α) (keep : ι → Bool) (xs : List ι) :
    (sortedBy key xs).filter keep = sortedBy key (xs.filter keep) := by
  apply eq_of_filter_key_eq ((pairwise_sortedBy key xs).filter keep) (pairwise_sortedBy key _)
  intro k
  rw [filter_sortedBy_key, List.filter_filter, List.filter_filter]
  have hcomm : (fun x => decide (key x = k) && keep x) = fun x => keep x && decide (key x = k) := by
    funext x
    exact Bool.and_comm _ _
  rw [hcomm, ← List.filter_filter, filter_sortedBy_key, List.filter_filter]

/-- In a sorted list the entries up to a bound come first. -/
theorem filter_le_prefix {f : ι → α} {xs : List ι} (h : xs.Pairwise fun a b => f a ≤ f b)
    (bound : α) : xs.filter (fun x => decide (f x ≤ bound)) <+: xs := by
  induction xs with
  | nil => exact List.prefix_rfl
  | cons a xs ih =>
      rw [List.pairwise_cons] at h
      by_cases ha : f a ≤ bound
      · rw [List.filter_cons_of_pos (by simpa using ha)]
        exact List.cons_prefix_cons.mpr ⟨rfl, ih h.2⟩
      · have hnone : xs.filter (fun x => decide (f x ≤ bound)) = [] := by
          rw [List.filter_eq_nil_iff]
          intro x hx
          have hax := h.1 x hx
          simpa using lt_of_lt_of_le (not_le.mp ha) hax
        rw [List.filter_cons_of_neg (by simpa using ha), hnone]
        exact List.nil_prefix

/-- The elements of a list that satisfy a condition which, where it holds, holds of all before,
are a prefix. -/
theorem filter_isPrefix {α : Type*} {p : α → Bool} {xs : List α}
    (h : xs.Pairwise fun a b => p b = true → p a = true) : xs.filter p <+: xs := by
  induction xs with
  | nil => exact List.prefix_rfl
  | cons x xs ih =>
      obtain ⟨hx, hxs⟩ := List.pairwise_cons.mp h
      cases hp : p x with
      | true =>
          rw [List.filter_cons_of_pos hp]
          exact List.prefix_cons_inj x |>.mpr (ih hxs)
      | false =>
          have hnone : xs.filter p = [] := by
            apply List.filter_eq_nil_iff.mpr
            intro y hy hpy
            rw [hx y hy hpy] at hp
            cases hp
          rw [List.filter_cons_of_neg (by rw [hp]; decide), hnone]
          exact List.nil_prefix

end Sorted

/-! ## Texts in order -/

theorem append_lt_append_iff {p q x y : List Char} (h : p.length = q.length) :
    p ++ x < q ++ y ↔ p < q ∨ (p = q ∧ x < y) := by
  induction p generalizing q with
  | nil =>
      have hq : q = [] := List.eq_nil_of_length_eq_zero h.symm
      subst hq
      simp
  | cons c p ih =>
      cases q with
      | nil => simp at h
      | cons d q =>
          have hlen : p.length = q.length := by simpa using h
          simp only [List.cons_append, List.cons_lt_cons_iff, ih hlen, List.cons.injEq]
          constructor
          · rintro (hcd | ⟨rfl, hpq | ⟨rfl, hxy⟩⟩)
            · exact Or.inl (Or.inl hcd)
            · exact Or.inl (Or.inr ⟨rfl, hpq⟩)
            · exact Or.inr ⟨⟨rfl, rfl⟩, hxy⟩
          · rintro ((hcd | ⟨rfl, hpq⟩) | ⟨⟨rfl, rfl⟩, hxy⟩)
            · exact Or.inl hcd
            · exact Or.inr ⟨rfl, Or.inl hpq⟩
            · exact Or.inr ⟨rfl, Or.inr ⟨rfl, hxy⟩⟩

theorem string_append_lt_iff {p q x y : String} (h : p.toList.length = q.toList.length) :
    p ++ x < q ++ y ↔ p < q ∨ (p = q ∧ x < y) := by
  simp only [String.lt_iff, String.toList_append, append_lt_append_iff h, String.toList_inj]

end Base
