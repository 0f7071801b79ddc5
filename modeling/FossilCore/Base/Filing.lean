import FossilCore.Base.KeyMap

/-!
# Filing under keys

Entries are filed in a map one after another, and one whose key is taken by another value is
refused.  What has been filed of a list is a prefix that fits; whether the next entry is taken is
told by the map alone.
-/

namespace Base

namespace Filing

variable {κ ν : Type} [Ord κ] [Std.TransOrd κ]
  {m m' m'' : KeyMap κ ν} {entries filed : List (κ × ν)} {e : κ × ν}

/-- Entries that can be filed together: no key of theirs is taken by another value, in the map or
among themselves. -/
structure Fits (m : KeyMap κ ν) (entries : List (κ × ν)) : Prop where
  free : ∀ e ∈ entries, ∀ v, m[e.1]? = some v → v = e.2
  agree : entries.Pairwise fun a b => a.1 = b.1 → a.2 = b.2

/-- The map with the entries in it. -/
structure Filed (m : KeyMap κ ν) (entries : List (κ × ν)) (m' : KeyMap κ ν) : Prop where
  here : ∀ e ∈ entries, m'[e.1]? = some e.2
  elsewhere : ∀ k, (∀ e ∈ entries, k ≠ e.1) → m'[k]? = m[k]?

theorem Fits.nil (m : KeyMap κ ν) : Fits m [] := ⟨by simp, .nil⟩

theorem Filed.nil (m : KeyMap κ ν) : Filed m [] m := ⟨by simp, fun _ _ => rfl⟩

theorem Fits.of_append (h : Fits m (filed ++ entries)) : Fits m filed where
  free e he := h.free e (List.mem_append_left entries he)
  agree := (List.pairwise_append.mp h.agree).1

/-- A key is among those of the entries, or it is elsewhere. -/
theorem Filed.cases (h : Filed m entries m') (k : κ) :
    (∃ e ∈ entries, k = e.1 ∧ m'[k]? = some e.2) ∨
      ((∀ e ∈ entries, k ≠ e.1) ∧ m'[k]? = m[k]?) := by
  by_cases hk : ∃ e ∈ entries, k = e.1
  · obtain ⟨e, he, rfl⟩ := hk
    exact Or.inl ⟨e, he, rfl, h.here e he⟩
  · push Not at hk
    exact Or.inr ⟨hk, h.elsewhere k hk⟩

/-- The next entry fits when the map that was reached has no other value under its key. -/
theorem fits_concat_iff (hfits : Fits m filed) (h : Filed m filed m') :
    Fits m (filed ++ [e]) ↔ ∀ v, m'[e.1]? = some v → v = e.2 := by
  constructor
  · intro hall v hv
    rcases h.cases e.1 with ⟨d, hd, hkey, hvalue⟩ | ⟨-, hsame⟩
    · obtain rfl : d.2 = v := Option.some.inj (hvalue.symm.trans hv)
      exact (List.pairwise_append.mp hall.agree).2.2 d hd e List.mem_cons_self hkey.symm
    · exact hall.free e (List.mem_append_right filed List.mem_cons_self) v (hsame.symm.trans hv)
  · intro hnext
    refine ⟨?_, ?_⟩
    · intro d hd v hv
      rcases List.mem_append.mp hd with hd | hd
      · exact hfits.free d hd v hv
      · obtain rfl := List.mem_singleton.mp hd
        rcases h.cases d.1 with ⟨d', hd', hkey, hvalue⟩ | ⟨-, hsame⟩
        · rw [← hnext _ hvalue]
          rw [hkey] at hv
          exact hfits.free d' hd' v hv
        · exact hnext v (hsame.trans hv)
    · refine List.pairwise_append.mpr ⟨hfits.agree, List.pairwise_singleton _ _, ?_⟩
      intro d hd d' hd' hkey
      obtain rfl := List.mem_singleton.mp hd'
      apply hnext
      rw [← hkey]
      exact h.here d hd

/-- One more entry is filed. -/
theorem Filed.concat (h : Filed m filed m') (hfits : Fits m (filed ++ [e]))
    (hhere : m''[e.1]? = some e.2) (helse : ∀ k, k ≠ e.1 → m''[k]? = m'[k]?) :
    Filed m (filed ++ [e]) m'' := by
  refine ⟨?_, ?_⟩
  · intro d hd
    rcases List.mem_append.mp hd with hd | hd
    · by_cases hkey : d.1 = e.1
      · rw [hkey, hhere,
          (List.pairwise_append.mp hfits.agree).2.2 d hd e List.mem_cons_self hkey]
      · rw [helse d.1 hkey]
        exact h.here d hd
    · obtain rfl := List.mem_singleton.mp hd
      exact hhere
  · intro k hk
    have hlast : k ≠ e.1 := hk e (List.mem_append_right filed List.mem_cons_self)
    rw [helse k hlast]
    exact h.elsewhere k fun d hd => hk d (List.mem_append_left _ hd)

/-- Nothing new was filed exactly when all the entries were there. -/
theorem Filed.unchanged_iff [Std.LawfulEqOrd κ] (h : Filed m entries m') :
    (∀ e ∈ entries, m[e.1]? = some e.2) ↔ m' = m := by
  constructor
  · intro hthere
    apply KeyMap.ext
    intro k
    rcases h.cases k with ⟨e, he, rfl, hvalue⟩ | ⟨-, hsame⟩
    · rw [hvalue, hthere e he]
    · exact hsame
  · rintro rfl
    exact h.here

/-! ## First splits -/

variable {α : Type*} {P : List α → Prop}

/-- A list is split in one way before the first element that ends a property of its prefixes. -/
theorem first_split_unique (hP : ∀ xs ys, P (xs ++ ys) → P xs) {xs xs' ys ys' : List α} {a a' : α}
    (heq : xs ++ a :: ys = xs' ++ a' :: ys') (hxs : P xs) (ha : ¬ P (xs ++ [a])) (hxs' : P xs')
    (ha' : ¬ P (xs' ++ [a'])) : xs = xs' := by
  have hle : ∀ {xs xs' ys ys' : List α} {a a' : α}, xs ++ a :: ys = xs' ++ a' :: ys' →
      P xs' → ¬ P (xs ++ [a]) → xs'.length ≤ xs.length := by
    intro xs xs' ys ys' a a' heq hxs' ha
    by_contra hlt
    apply ha
    have hboth : xs ++ [a] <+: xs' ++ a' :: ys' := by
      rw [← heq]
      exact ⟨ys, by simp⟩
    have hinitial : xs ++ [a] <+: xs' := by
      apply List.prefix_of_prefix_length_le hboth (List.prefix_append xs' _)
      simp
      omega
    obtain ⟨more, rfl⟩ := hinitial
    exact hP _ more hxs'
  exact (List.append_inj heq (le_antisymm (hle heq.symm hxs ha') (hle heq hxs' ha))).1

end Filing

end Base
