import Mathlib.Data.List.Forall2
import Mathlib.Data.List.Induction
import FossilCore.Base.Dict

/-!
# The latest entry

The last entry of a log with a property, where no entry behind it speaks of the same matter, and
the change of the last entry with a property.
-/

namespace Base

variable {α : Type} {P Q : α → Prop}

/-- Some entry has `P`, and no entry behind it has `Q`. -/
def Latest (P Q : α → Prop) (log : List α) : Prop :=
  ∃ before x after, log = before ++ x :: after ∧ P x ∧ ∀ y ∈ after, ¬ Q y

theorem not_latest_nil : ¬ Latest P Q [] := by
  rintro ⟨before, x, after, h, -⟩
  cases before <;> cases h

theorem latest_concat {log : List α} {y : α} :
    Latest P Q (log ++ [y]) ↔ P y ∨ ¬ Q y ∧ Latest P Q log := by
  constructor
  · rintro ⟨before, x, after, h, hx, hafter⟩
    induction after using List.reverseRecOn with
    | nil =>
        obtain ⟨-, hlast⟩ := List.append_inj' h rfl
        cases hlast
        exact Or.inl hx
    | append_singleton after z ih =>
        rw [← List.cons_append, ← List.append_assoc] at h
        obtain ⟨hlog, hlast⟩ := List.append_inj' h rfl
        cases hlast
        refine Or.inr ⟨hafter y (by simp), before, x, after, hlog, hx, fun w hw => ?_⟩
        exact hafter w (List.mem_append_left _ hw)
  · rintro (hy | ⟨hy, before, x, after, rfl, hx, hafter⟩)
    · exact ⟨log, y, [], rfl, hy, fun w hw => absurd hw List.not_mem_nil⟩
    · refine ⟨before, x, after ++ [y], by simp, hx, fun w hw => ?_⟩
      rcases List.mem_append.mp hw with hw | hw
      · exact hafter w hw
      · rw [List.mem_singleton.mp hw]
        exact hy

/-- A dictionary keeps the value that was assigned last. -/
theorem get?_ofPairs_getLast? {κ : Type} [DecidableEq κ] (pairs : List (κ × α)) (key : κ) :
    (Dict.ofPairs pairs).get? key =
      ((pairs.filter fun pair => pair.1 = key).getLast?).map Prod.snd := by
  induction pairs using List.reverseRecOn with
  | nil => rfl
  | append_singleton pairs pair ih =>
      rw [Dict.ofPairs_concat, Dict.get?_set, List.filter_append]
      by_cases hkey : pair.1 = key
      · rw [if_pos hkey, List.filter_singleton, decide_eq_true hkey]
        simp
      · rw [if_neg hkey, List.filter_singleton, decide_eq_false hkey, ih]
        simp

/-! ## The change of the last entry -/

/-- The last entry with `p` is changed, if there is one. -/
def modifyLast (p : α → Bool) (f : α → α) : List α → List α
  | [] => []
  | x :: xs => if xs.any p then x :: modifyLast p f xs else if p x then f x :: xs else x :: xs

variable {p : α → Bool} {f : α → α}

theorem forall₂_modifyLast (p : α → Bool) (f : α → α) (xs : List α) :
    List.Forall₂ (fun x y => y = x ∨ p x = true ∧ y = f x) xs (modifyLast p f xs) := by
  have hsame : ∀ xs : List α, List.Forall₂ (fun x y => y = x ∨ p x = true ∧ y = f x) xs xs :=
    fun xs => List.forall₂_same.mpr fun x _ => Or.inl rfl
  induction xs with
  | nil => exact List.Forall₂.nil
  | cons x xs ih =>
      rw [modifyLast]
      split
      · exact List.Forall₂.cons (Or.inl rfl) ih
      · split
        · rename_i hx
          exact List.Forall₂.cons (Or.inr ⟨hx, rfl⟩) (hsame xs)
        · exact hsame (x :: xs)

theorem forall₂_append_left {β : Type} {R : α → β → Prop} {xs ys : List α} {zs : List β}
    (h : List.Forall₂ R (xs ++ ys) zs) :
    ∃ xs' ys', zs = xs' ++ ys' ∧ List.Forall₂ R xs xs' ∧ List.Forall₂ R ys ys' := by
  induction xs generalizing zs with
  | nil => exact ⟨[], zs, rfl, List.Forall₂.nil, h⟩
  | cons x xs ih =>
      cases h with
      | cons hx hxs =>
          obtain ⟨xs', ys', rfl, hxs', hys'⟩ := ih hxs
          exact ⟨_ :: xs', ys', rfl, List.Forall₂.cons hx hxs', hys'⟩

theorem exists_of_forall₂_right {β : Type} {R : α → β → Prop} {xs : List α} {ys : List β}
    (h : List.Forall₂ R xs ys) {y : β} (hy : y ∈ ys) : ∃ x ∈ xs, R x y := by
  induction h with
  | nil => cases hy
  | cons hxy hrest ih =>
      rcases List.mem_cons.mp hy with rfl | hy
      · exact ⟨_, List.mem_cons_self, hxy⟩
      · obtain ⟨x, hx, hR⟩ := ih hy
        exact ⟨x, List.mem_cons_of_mem _ hx, hR⟩

theorem modifyLast_append {xs ys : List α} (h : ys.any p = true) :
    modifyLast p f (xs ++ ys) = xs ++ modifyLast p f ys := by
  induction xs with
  | nil => rfl
  | cons x xs ih =>
      have hany : (xs ++ ys).any p = true := by rw [List.any_append, h, Bool.or_true]
      rw [List.cons_append, modifyLast, if_pos hany, ih, List.cons_append]

theorem modifyLast_split {xs ys : List α} {x : α} (hx : p x = true) (h : ys.any p = false) :
    modifyLast p f (xs ++ x :: ys) = xs ++ f x :: ys := by
  rw [modifyLast_append (by rw [List.any_cons, hx, Bool.true_or]), modifyLast,
    if_neg (by rw [h]; decide), if_pos hx]

theorem countP_modifyLast_lt (hf : ∀ x, p (f x) = false) {xs : List α} (h : xs.any p = true) :
    (modifyLast p f xs).countP p < xs.countP p := by
  induction xs with
  | nil => cases h
  | cons x xs ih =>
      rw [modifyLast]
      split
      · rename_i hany
        have := ih hany
        rw [List.countP_cons, List.countP_cons]
        omega
      · rename_i hany
        have hx : p x = true := by
          rw [List.any_cons, Bool.eq_false_iff.mpr hany, Bool.or_false] at h
          exact h
        rw [if_pos hx, List.countP_cons_of_neg (by rw [hf]; decide), List.countP_cons_of_pos hx]
        exact Nat.lt_succ_self _

end Base
