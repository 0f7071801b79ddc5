import FossilCore.Base.Text

/-!
# Separators

Where a text joined with a separator can be cut.  The first separator is found from the left;
a cut is the only one exactly when neither part has the separator, and the only one between parts
that are not empty exactly when no separator stands further inside.
-/

namespace Base

section Cuts

variable {α : Type*} {c : α} {a a' b b' : List α}

/-- Up to the first separator, a list determines its parts. -/
theorem append_cons_inj_of_first (h : c ∉ a) (h' : c ∉ a') :
    a ++ c :: b = a' ++ c :: b' ↔ a = a' ∧ b = b' := by
  constructor
  · intro heq
    induction a generalizing a' with
    | nil =>
        cases a' with
        | nil => exact ⟨rfl, (List.cons.inj heq).2⟩
        | cons d a' =>
            obtain ⟨rfl, -⟩ := List.cons.inj heq
            exact absurd List.mem_cons_self h'
    | cons d a ih =>
        cases a' with
        | nil =>
            obtain ⟨rfl, -⟩ := List.cons.inj heq
            exact absurd List.mem_cons_self h
        | cons d' a' =>
            obtain ⟨rfl, hrest⟩ := List.cons.inj heq
            obtain ⟨rfl, hb⟩ := ih (fun hc => h (List.mem_cons_of_mem d hc))
              (fun hc => h' (List.mem_cons_of_mem d hc)) hrest
            exact ⟨rfl, hb⟩
  · rintro ⟨rfl, rfl⟩
    rfl

/-- After the last separator, too. -/
theorem append_cons_inj_of_last (h : c ∉ b) (h' : c ∉ b') :
    a ++ c :: b = a' ++ c :: b' ↔ a = a' ∧ b = b' := by
  have hreverse : ∀ a b : List α, (a ++ c :: b).reverse = b.reverse ++ c :: a.reverse := by simp
  rw [← List.reverse_inj, hreverse, hreverse, append_cons_inj_of_first (by simpa using h)
    (by simpa using h'), List.reverse_inj, List.reverse_inj, and_comm]

theorem exists_other_cut_iff :
    (∃ a' b', a' ++ c :: b' = a ++ c :: b ∧ a' ≠ a) ↔ c ∈ a ∨ c ∈ b := by
  constructor
  · rintro ⟨a', b', heq, hne⟩
    by_contra hnone
    obtain ⟨ha, hb⟩ := not_or.mp hnone
    exact hne ((List.append_cons_inj_of_notMem ha hb).mp heq.symm).1.symm
  · rintro (h | h)
    · obtain ⟨s, t, rfl⟩ := List.append_of_mem h
      exact ⟨s, t ++ c :: b, by simp, by simp⟩
    · obtain ⟨s, t, rfl⟩ := List.append_of_mem h
      exact ⟨a ++ c :: s, t, by simp, by simp⟩

theorem exists_other_inner_cut_iff :
    (∃ a' b', a' ≠ [] ∧ b' ≠ [] ∧ a' ++ c :: b' = a ++ c :: b ∧ a' ≠ a) ↔
      c ∈ a.tail ∨ c ∈ b.dropLast := by
  constructor
  · rintro ⟨a', b', ha', hb', heq, hne⟩
    obtain ⟨d, s, rfl⟩ := List.exists_cons_of_ne_nil ha'
    rcases List.append_eq_append_iff.mp heq with ⟨x, rfl, hx⟩ | ⟨x, hx, hb⟩
    · -- the other cut comes first, so that the separator of `heq` lies in `a`
      cases x with
      | nil => exact absurd (List.append_nil _).symm hne
      | cons e x =>
          obtain ⟨rfl, -⟩ := List.cons.inj hx
          exact Or.inl (by simp)
    · cases x with
      | nil => exact absurd (hx.trans (List.append_nil _)) hne
      | cons e x =>
          obtain ⟨rfl, rfl⟩ := List.cons.inj hb
          refine Or.inr ?_
          show c ∈ (x ++ c :: b').dropLast
          rw [List.dropLast_append_of_ne_nil (List.cons_ne_nil _ _),
            List.dropLast_cons_of_ne_nil hb']
          exact List.mem_append_right _ List.mem_cons_self
  · rintro (h | h)
    · cases a with
      | nil => cases h
      | cons d a =>
          obtain ⟨s, t, rfl⟩ := List.append_of_mem h
          exact ⟨d :: s, t ++ c :: b, by simp, by simp, by simp, by simp⟩
    · have hb : b ≠ [] := by
        rintro rfl
        cases h
      obtain ⟨s, t, hst⟩ := List.append_of_mem h
      obtain ⟨e, he⟩ : ∃ e, b = s ++ c :: t ++ [e] :=
        ⟨b.getLast hb, by rw [← hst, List.dropLast_append_getLast]⟩
      exact ⟨a ++ c :: s, t ++ [e], by simp, by simp, by simp [he], by simp⟩

end Cuts

namespace Text

theorem toList_join_cons (sep s t : String) (rest : List String) :
    (join sep (s :: t :: rest)).toList =
      s.toList ++ (sep.toList ++ (join sep (t :: rest)).toList) := by
  rw [join, String.toList_append, String.toList_append, List.append_assoc]

theorem join_concat (sep : String) (xs : List String) (x : String) :
    join sep (xs ++ [x]) = join sep xs ++ (if xs = [] then "" else sep) ++ x := by
  induction xs with
  | nil => simp [join]
  | cons y xs ih =>
      cases xs with
      | nil => simp [join]
      | cons z xs =>
          rw [if_neg (List.cons_ne_nil _ _)] at ih ⊢
          rw [List.cons_append, List.cons_append, join, ← List.cons_append, ih, join]
          simp only [String.append_assoc]

theorem join_empty_append (xs ys : List String) : join "" (xs ++ ys) = join "" xs ++ join "" ys := by
  induction xs with
  | nil => simp [join]
  | cons x xs ih =>
      cases xs with
      | nil => cases ys <;> simp [join]
      | cons z xs =>
          rw [List.cons_append, List.cons_append, join, ← List.cons_append, ih, join]
          simp only [String.append_assoc, String.empty_append]

/-- With one more part behind it, a part costs its own length and that of a separator. -/
theorem length_join_blank (sep : String) (xs : List String) :
    (join sep (xs ++ [""])).length = (xs.map fun x => x.length + sep.length).sum := by
  induction xs with
  | nil => rfl
  | cons x xs ih =>
      rw [List.map_cons, List.sum_cons, ← ih]
      cases xs with
      | nil => simp [join]
      | cons y xs =>
          rw [List.cons_append, List.cons_append, join, String.length_append, String.length_append]

theorem join_cons_cancel {sep s t t' : String} {rest rest' : List String} :
    join sep (s :: t :: rest) = join sep (s :: t' :: rest') ↔
      join sep (t :: rest) = join sep (t' :: rest') := by
  rw [← String.toList_inj, toList_join_cons, toList_join_cons, List.append_cancel_left_eq,
    List.append_cancel_left_eq, String.toList_inj]

/-- A joined text determines its first part, when the separator cannot stand in it. -/
theorem join_cons_inj {sep : String} {c : Char} (hsep : sep.toList = [c]) {s s' t t' : String}
    {rest rest' : List String} (h : c ∉ s.toList) (h' : c ∉ s'.toList) :
    join sep (s :: t :: rest) = join sep (s' :: t' :: rest') ↔
      s = s' ∧ join sep (t :: rest) = join sep (t' :: rest') := by
  rw [← String.toList_inj, toList_join_cons, toList_join_cons, hsep, List.singleton_append,
    List.singleton_append, append_cons_inj_of_first h h', String.toList_inj, String.toList_inj]

end Text

end Base
