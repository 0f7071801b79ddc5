import Mathlib.Data.List.Forall2
import Mathlib.Data.List.Induction
import FossilCore.Base.Text

/-!
# Sequences of checks

`for` loops and comprehensions whose body can fail, as `mapM` and `foldlM` over `Except`: when
they succeed, with what, and which errors they end with.
-/

namespace Base

variable {ε α β γ : Type}

theorem mapM_eq_ok {f : α → Except ε β} {xs : List α} {ys : List β} :
    xs.mapM f = .ok ys ↔ List.Forall₂ (fun x y => f x = .ok y) xs ys := by
  induction xs generalizing ys with
  | nil =>
      rw [List.mapM_nil, List.forall₂_nil_left_iff]
      exact ⟨fun h => (Except.ok.inj h).symm, fun h => h ▸ rfl⟩
  | cons x xs ih =>
      rw [List.mapM_cons, bind_eq_ok]
      constructor
      · rintro ⟨y, hy, hrest⟩
        obtain ⟨zs, hzs, heq⟩ := bind_eq_ok.mp hrest
        cases heq
        exact List.Forall₂.cons hy (ih.mp hzs)
      · intro h
        obtain ⟨y, zs, hy, hzs, rfl⟩ := List.forall₂_cons_left_iff.mp h
        exact ⟨y, hy, bind_eq_ok.mpr ⟨zs, ih.mpr hzs, rfl⟩⟩

theorem mapM_of_forall {f : α → Except ε β} {g : α → β} {xs : List α}
    (h : ∀ x ∈ xs, f x = .ok (g x)) : xs.mapM f = .ok (xs.map g) := by
  rw [mapM_eq_ok, List.forall₂_map_right_iff, List.forall₂_same]
  exact h

theorem mapM_ok_of_forall {f : α → Except ε β} {xs : List α}
    (h : ∀ x ∈ xs, ∃ y, f x = .ok y) : ∃ ys, xs.mapM f = .ok ys := by
  induction xs with
  | nil => exact ⟨[], rfl⟩
  | cons x xs ih =>
      obtain ⟨y, hy⟩ := h x List.mem_cons_self
      obtain ⟨ys, hys⟩ := ih fun z hz => h z (List.mem_cons_of_mem x hz)
      exact ⟨y :: ys, mapM_eq_ok.mpr (.cons hy (mapM_eq_ok.mp hys))⟩

theorem exists_of_mapM_ok {f : α → Except ε β} {xs : List α} {ys : List β}
    (h : xs.mapM f = .ok ys) : ∀ x ∈ xs, ∃ y ∈ ys, f x = .ok y := by
  intro x hx
  have hforall := mapM_eq_ok.mp h
  clear h
  induction hforall with
  | nil => cases hx
  | cons hy _ ih =>
      rcases List.mem_cons.mp hx with rfl | hx
      · exact ⟨_, List.mem_cons_self, hy⟩
      · obtain ⟨y, hmem, heq⟩ := ih hx
        exact ⟨y, List.mem_cons_of_mem _ hmem, heq⟩

theorem exists_of_mem_mapM {f : α → Except ε β} {xs : List α} {ys : List β}
    (h : xs.mapM f = .ok ys) : ∀ y ∈ ys, ∃ x ∈ xs, f x = .ok y := by
  intro y hy
  have hforall := mapM_eq_ok.mp h
  clear h
  induction hforall with
  | nil => cases hy
  | cons hx _ ih =>
      rcases List.mem_cons.mp hy with rfl | hy
      · exact ⟨_, List.mem_cons_self, hx⟩
      · obtain ⟨x, hmem, heq⟩ := ih hy
        exact ⟨x, List.mem_cons_of_mem _ hmem, heq⟩

theorem mapM_ok_iff {f : α → Except ε β} {xs : List α} {ys : List β} {Q : α → Prop} {g : α → β}
    (h : ∀ x ∈ xs, ∀ y, f x = .ok y ↔ Q x ∧ y = g x) :
    xs.mapM f = .ok ys ↔ (∀ x ∈ xs, Q x) ∧ ys = xs.map g := by
  constructor
  · intro hok
    have hall : ∀ x ∈ xs, Q x := by
      intro x hx
      obtain ⟨y, -, hy⟩ := exists_of_mapM_ok hok x hx
      exact ((h x hx y).mp hy).1
    rw [mapM_of_forall fun x hx => (h x hx (g x)).mpr ⟨hall x hx, rfl⟩] at hok
    exact ⟨hall, (Except.ok.inj hok).symm⟩
  · rintro ⟨hall, rfl⟩
    exact mapM_of_forall fun x hx => (h x hx (g x)).mpr ⟨hall x hx, rfl⟩

theorem mapM_congr {f g : α → Except ε β} {xs : List α} (h : ∀ x ∈ xs, f x = g x) :
    xs.mapM f = xs.mapM g := by
  induction xs with
  | nil => rfl
  | cons x xs ih =>
      rw [List.mapM_cons, List.mapM_cons, h x List.mem_cons_self,
        ih fun y hy => h y (List.mem_cons_of_mem x hy)]

theorem forM_ok_iff {f : α → Except ε Unit} {xs : List α} :
    xs.forM f = .ok () ↔ ∀ x ∈ xs, f x = .ok () := by
  induction xs with
  | nil => exact iff_of_true rfl fun x hx => by cases hx
  | cons x xs ih =>
      show (f x >>= fun _ => xs.forM f) = _ ↔ _
      rw [bind_eq_ok, List.forall_mem_cons, ← ih]
      constructor
      · rintro ⟨⟨⟩, hx, hrest⟩
        exact ⟨hx, hrest⟩
      · rintro ⟨hx, hrest⟩
        exact ⟨(), hx, hrest⟩

/-! ## Loops with an accumulator -/

section Loops

variable {f : β → α → Except ε β} {b c : β} {xs : List α}

theorem foldlM_append_ok {ys : List α} :
    (xs ++ ys).foldlM f b = .ok c ↔ ∃ d, xs.foldlM f b = .ok d ∧ ys.foldlM f d = .ok c := by
  rw [List.foldlM_append, bind_eq_ok]

theorem foldlM_concat_ok {x : α} :
    (xs ++ [x]).foldlM f b = .ok c ↔ ∃ d, xs.foldlM f b = .ok d ∧ f d x = .ok c := by
  rw [foldlM_append_ok]
  simp only [List.foldlM_cons, List.foldlM_nil, bind_pure]

/-- The rule of a loop: what holds of the values gone through and of the accumulator. -/
theorem foldlM_induction (motive : List α → β → Prop) (hnil : motive [] b)
    (hstep : ∀ ys x d d', ys ++ [x] <+: xs → motive ys d → f d x = .ok d' → motive (ys ++ [x]) d')
    (h : xs.foldlM f b = .ok c) : motive xs c := by
  induction xs using List.reverseRecOn generalizing c with
  | nil =>
      cases h
      exact hnil
  | append_singleton xs x ih =>
      obtain ⟨d, hd, hx⟩ := foldlM_concat_ok.mp h
      apply hstep xs x d c (List.prefix_refl _) _ hx
      apply ih _ hd
      intro ys y e e' hinitial
      exact hstep ys y e e' (hinitial.trans (List.prefix_append xs [x]))

theorem exists_step_of_foldlM (h : xs.foldlM f b = .ok c) :
    ∀ x ∈ xs, ∃ d d', f d x = .ok d' := by
  refine foldlM_induction (fun ys _ => ∀ x ∈ ys, ∃ d d', f d x = .ok d') ?_ ?_ h
  · intro x hx
    cases hx
  · intro ys y d d' _ ih hy x hx
    rcases List.mem_append.mp hx with hx | hx
    · exact ih x hx
    · rw [List.mem_singleton.mp hx]
      exact ⟨d, d', hy⟩

end Loops

/-- Whatever error the computation ends with satisfies the condition. -/
def FailsWith (P : ε → Prop) (x : Except ε α) : Prop := ∀ e, x = .error e → P e

namespace FailsWith

variable {P : ε → Prop}

theorem ok (a : α) : FailsWith P (.ok a) := by
  intro e h
  cases h

theorem error {e : ε} (h : P e) : FailsWith P (.error e : Except ε α) := by
  intro e' heq
  cases heq
  exact h

theorem bind {x : Except ε α} {f : α → Except ε β} (hx : FailsWith P x)
    (hf : ∀ a, x = .ok a → FailsWith P (f a)) : FailsWith P (x >>= f) := by
  intro e h
  cases x with
  | error e' =>
      cases h
      exact hx e rfl
  | ok a => exact hf a rfl e h

theorem mapM {f : α → Except ε β} {xs : List α} (h : ∀ x ∈ xs, FailsWith P (f x)) :
    FailsWith P (xs.mapM f) := by
  induction xs with
  | nil => exact ok _
  | cons x xs ih =>
      rw [List.mapM_cons]
      apply (h x List.mem_cons_self).bind
      intro y _
      apply (ih fun z hz => h z (List.mem_cons_of_mem x hz)).bind
      intro ys _
      exact ok _

theorem foldlM {f : β → α → Except ε β} {b : β} {xs : List α}
    (h : ∀ b, ∀ x ∈ xs, FailsWith P (f b x)) : FailsWith P (xs.foldlM f b) := by
  induction xs generalizing b with
  | nil => exact ok _
  | cons x xs ih =>
      rw [List.foldlM_cons]
      apply (h b x List.mem_cons_self).bind
      intro c _
      exact ih fun c y hy => h c y (List.mem_cons_of_mem x hy)

end FailsWith

end Base
