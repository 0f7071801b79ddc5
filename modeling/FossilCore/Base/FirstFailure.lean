import FossilCore.Base.Checks

/-!
# First failures

With which errors a computation ends, in terms of its parts: a loop ends with the error of the
first item that fails, so an item decides only when it is reached.
-/

namespace Base

variable {ε : Type} {α β : Type}

/-- The loop reaches the item `x` with the accumulator `d`. -/
def Reaches (f : β → α → Except ε β) (b : β) (xs : List α) (x : α) (d : β) : Prop :=
  ∃ before after, xs = before ++ x :: after ∧ before.foldlM f b = .ok d

/-- An item of the list in front of which every item passes. -/
def ReachedPast (p : α → Prop) (xs : List α) (x : α) : Prop :=
  ∃ before after, xs = before ++ x :: after ∧ ∀ y ∈ before, p y

theorem Reaches.mem {f : β → α → Except ε β} {b d : β} {xs : List α} {x : α}
    (h : Reaches f b xs x d) : x ∈ xs := by
  obtain ⟨before, after, rfl, -⟩ := h
  exact List.mem_append_right before List.mem_cons_self

theorem ReachedPast.mem {p : α → Prop} {xs : List α} {x : α} (h : ReachedPast p xs x) : x ∈ xs := by
  obtain ⟨before, after, rfl, -⟩ := h
  exact List.mem_append_right before List.mem_cons_self

theorem reachedPast_cons {p : α → Prop} {x y : α} {xs : List α} :
    ReachedPast p (x :: xs) y ↔ y = x ∨ (p x ∧ ReachedPast p xs y) := by
  constructor
  · rintro ⟨before, after, heq, hbefore⟩
    cases before with
    | nil => exact Or.inl (List.cons.inj heq).1.symm
    | cons z before =>
        obtain ⟨rfl, hrest⟩ := List.cons.inj heq
        refine Or.inr ⟨hbefore x List.mem_cons_self, before, after, hrest, ?_⟩
        exact fun w hw => hbefore w (List.mem_cons_of_mem x hw)
  · rintro (rfl | ⟨hx, before, after, rfl, hbefore⟩)
    · exact ⟨[], xs, rfl, fun w hw => absurd hw List.not_mem_nil⟩
    · exact ⟨x :: before, after, rfl, List.forall_mem_cons.mpr ⟨hx, hbefore⟩⟩

theorem reachedPast_map {γ : Type} {p : γ → Prop} {g : α → γ} {xs : List α} {y : γ} :
    ReachedPast p (xs.map g) y ↔ ∃ x, ReachedPast (fun x => p (g x)) xs x ∧ g x = y := by
  constructor
  · rintro ⟨before, after, heq, hbefore⟩
    obtain ⟨front, rest, rfl, rfl, hrest⟩ := List.map_eq_append_iff.mp heq
    obtain ⟨x, back, rfl, rfl, -⟩ := List.map_eq_cons_iff.mp hrest
    exact ⟨x, ⟨front, back, rfl, fun z hz => hbefore (g z) (List.mem_map_of_mem hz)⟩, rfl⟩
  · rintro ⟨x, ⟨before, after, rfl, hbefore⟩, rfl⟩
    refine ⟨before.map g, after.map g, by rw [List.map_append, List.map_cons], ?_⟩
    rw [List.forall_mem_map]
    exact hbefore

theorem reachedPast_congr {p q : α → Prop} {xs : List α} {x : α} (h : ∀ y ∈ xs, p y ↔ q y) :
    ReachedPast p xs x ↔ ReachedPast q xs x := by
  constructor
  · rintro ⟨before, after, rfl, hbefore⟩
    exact ⟨before, after, rfl, fun y hy =>
      (h y (List.mem_append_left _ hy)).mp (hbefore y hy)⟩
  · rintro ⟨before, after, rfl, hbefore⟩
    exact ⟨before, after, rfl, fun y hy =>
      (h y (List.mem_append_left _ hy)).mpr (hbefore y hy)⟩

theorem reaches_cons {f : β → α → Except ε β} {b d : β} {x y : α} {xs : List α} :
    Reaches f b (x :: xs) y d ↔
      (y = x ∧ d = b) ∨ ∃ c, f b x = .ok c ∧ Reaches f c xs y d := by
  constructor
  · rintro ⟨before, after, heq, hfold⟩
    cases before with
    | nil => exact Or.inl ⟨(List.cons.inj heq).1.symm, (Except.ok.inj hfold).symm⟩
    | cons z before =>
        obtain ⟨rfl, hrest⟩ := List.cons.inj heq
        rw [List.foldlM_cons] at hfold
        obtain ⟨c, hc, hfold⟩ := bind_eq_ok.mp hfold
        exact Or.inr ⟨c, hc, before, after, hrest, hfold⟩
  · rintro (⟨rfl, rfl⟩ | ⟨c, hc, before, after, rfl, hfold⟩)
    · exact ⟨[], xs, rfl, rfl⟩
    · refine ⟨x :: before, after, rfl, ?_⟩
      rw [List.foldlM_cons]
      exact bind_eq_ok.mpr ⟨c, hc, hfold⟩

namespace FailsWith

variable {P : ε → Prop}

theorem error_iff {e : ε} : FailsWith P (.error e : Except ε α) ↔ P e :=
  ⟨fun h => h e rfl, error⟩

theorem bind_iff {x : Except ε α} {f : α → Except ε β} :
    FailsWith P (x >>= f) ↔ FailsWith P x ∧ ∀ a, x = .ok a → FailsWith P (f a) := by
  refine ⟨fun h => ⟨?_, ?_⟩, fun h => h.1.bind h.2⟩
  · rintro e rfl
    exact h e rfl
  · rintro a rfl
    exact h

theorem bind_ok_iff {x : Except ε α} {f : α → Except ε β} {a : α} (hx : x = .ok a) :
    FailsWith P (x >>= f) ↔ FailsWith P (f a) := by
  rw [hx]
  rfl

/-- What is made of a result cannot fail. -/
theorem bind_pure_iff {x : Except ε α} {g : α → β} :
    FailsWith P (x >>= fun a => pure (g a)) ↔ FailsWith P x := by
  rw [bind_iff]
  exact and_iff_left fun a _ => ok (g a)

theorem foldlM_iff {f : β → α → Except ε β} {b : β} {xs : List α} :
    FailsWith P (xs.foldlM f b) ↔ ∀ x d, Reaches f b xs x d → FailsWith P (f d x) := by
  induction xs generalizing b with
  | nil =>
      refine ⟨fun _ x d hreach => absurd hreach.mem List.not_mem_nil, fun _ => ok _⟩
  | cons x xs ih =>
      rw [List.foldlM_cons, bind_iff]
      simp only [ih, reaches_cons]
      constructor
      · rintro ⟨hx, hrest⟩ y d (⟨rfl, rfl⟩ | ⟨c, hc, hreach⟩)
        · exact hx
        · exact hrest c hc y d hreach
      · intro h
        exact ⟨h x b (Or.inl ⟨rfl, rfl⟩), fun c hc y d hreach => h y d (Or.inr ⟨c, hc, hreach⟩)⟩

theorem mapM_iff {f : α → Except ε β} {xs : List α} :
    FailsWith P (xs.mapM f) ↔
      ∀ x, ReachedPast (fun y => ∃ b, f y = .ok b) xs x → FailsWith P (f x) := by
  induction xs with
  | nil => exact ⟨fun _ x hfollows => absurd hfollows.mem List.not_mem_nil, fun _ => ok _⟩
  | cons x xs ih =>
      rw [List.mapM_cons, bind_iff]
      simp only [bind_iff, ih, reachedPast_cons]
      constructor
      · rintro ⟨hx, hrest⟩ y (rfl | ⟨⟨b, hb⟩, hfollows⟩)
        · exact hx
        · exact (hrest b hb).1 y hfollows
      · intro h
        refine ⟨h x (Or.inl rfl), fun b hb => ⟨?_, fun ys _ => ok _⟩⟩
        exact fun y hfollows => h y (Or.inr ⟨⟨b, hb⟩, hfollows⟩)

theorem forM_iff {f : α → Except ε Unit} {xs : List α} :
    FailsWith P (xs.forM f) ↔ ∀ x, ReachedPast (fun y => f y = .ok ()) xs x → FailsWith P (f x) := by
  induction xs with
  | nil => exact ⟨fun _ x hfollows => absurd hfollows.mem List.not_mem_nil, fun _ => ok _⟩
  | cons x xs ih =>
      change FailsWith P (f x >>= fun _ => xs.forM f) ↔ _
      rw [bind_iff]
      simp only [ih, reachedPast_cons]
      constructor
      · rintro ⟨hx, hrest⟩ y (rfl | ⟨hpass, hfollows⟩)
        · exact hx
        · exact hrest () hpass y hfollows
      · intro h
        refine ⟨h x (Or.inl rfl), ?_⟩
        rintro ⟨⟩ hpass y hfollows
        exact h y (Or.inr ⟨hpass, hfollows⟩)

theorem forM {f : α → Except ε Unit} {xs : List α} (h : ∀ x ∈ xs, FailsWith P (f x)) :
    FailsWith P (xs.forM f) :=
  forM_iff.mpr fun x hfollows => h x hfollows.mem

end FailsWith

/-! ## Steps that fail for one reason -/

/-- The computation returns under a condition, and without it fails with an error outside `P`. -/
def Settles (P : ε → Prop) (condition : Prop) (x : Except ε α) : Prop :=
  (condition ∧ ∃ a, x = .ok a) ∨ (¬condition ∧ ¬FailsWith P x)

namespace Settles

variable {P : ε → Prop}

theorem iff {condition : Prop} {x : Except ε α} (h : Settles P condition x) :
    FailsWith P x ↔ condition := by
  rcases h with ⟨hcondition, a, rfl⟩ | ⟨hcondition, hescapes⟩
  · exact iff_of_true (FailsWith.ok a) hcondition
  · exact iff_of_false hescapes hcondition

theorem foldlM {condition : α → Prop} {f : β → α → Except ε β} {xs : List α}
    (h : ∀ x ∈ xs, ∀ b, Settles P (condition x) (f b x)) (b : β) :
    Settles P (∀ x ∈ xs, condition x) (xs.foldlM f b) := by
  induction xs generalizing b with
  | nil => exact Or.inl ⟨fun x hx => absurd hx List.not_mem_nil, b, rfl⟩
  | cons x xs ih =>
      obtain ⟨hx, hxs⟩ := List.forall_mem_cons.mp h
      rw [List.foldlM_cons]
      unfold Settles
      rw [List.forall_mem_cons]
      rcases hx b with ⟨hcondition, c, hc⟩ | ⟨hcondition, hescapes⟩
      · rw [hc]
        rcases ih hxs c with ⟨hrest, d, hd⟩ | ⟨hrest, hescapes⟩
        · exact Or.inl ⟨⟨hcondition, hrest⟩, d, hd⟩
        · exact Or.inr ⟨fun hboth => hrest hboth.2, hescapes⟩
      · refine Or.inr ⟨fun hboth => hcondition hboth.1, fun hfails => ?_⟩
        exact hescapes (FailsWith.bind_iff.mp hfails).1

end Settles

end Base
