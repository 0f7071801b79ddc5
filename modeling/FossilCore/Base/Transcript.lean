import FossilCore.Base.Interleave

/-!
# Transcripts of programs

A transcript is the list of the requests that a program has issued, each with the answer it got.
`Ends` says that a program ends with a result after a transcript; it ranges over every sequence of
answers, whatever gave them.
-/

namespace Base

/-- An entry of two lists in a row is one of the first or of the second. -/
theorem append_cons_cases {α : Type} {before after first rest : List α} {e : α}
    (h : before ++ e :: after = first ++ rest) :
    (∃ last, first = before ++ e :: last ∧ after = last ++ rest) ∨
      ∃ later, before = first ++ later ∧ rest = later ++ e :: after := by
  rcases List.append_eq_append_iff.mp h with ⟨last, rfl, hlast⟩ | ⟨later, rfl, rfl⟩
  · cases last with
    | nil => exact Or.inr ⟨[], by simp, hlast.symm⟩
    | cons e' last =>
        obtain ⟨rfl, rfl⟩ := List.cons.inj hlast
        exact Or.inl ⟨last, rfl, rfl⟩
  · exact Or.inr ⟨later, rfl, rfl⟩

namespace Program

variable {R : Type} {A : R → Type} {ε α β : Type}

def Ends : Program R A ε α → List (Exchange A) → Except ε α → Prop
  | .done y, t, x => t = [] ∧ x = y
  | .request r next, t, x => ∃ a rest, t = ⟨r, a⟩ :: rest ∧ (next a).Ends rest x

variable {t : List (Exchange A)} {p : Program R A ε α} {f : α → Program R A ε β}

@[simp] theorem ends_done {x y : Except ε α} :
    (Program.done y : Program R A ε α).Ends t x ↔ t = [] ∧ x = y := Iff.rfl

theorem ends_request {r : R} {next : A r → Program R A ε α} {x : Except ε α} :
    (Program.request r next).Ends t x ↔
      ∃ a rest, t = ⟨r, a⟩ :: rest ∧ (next a).Ends rest x := Iff.rfl

theorem ends_call {r : R} {x : Except ε (A r)} :
    (call r : Program R A ε (A r)).Ends t x ↔ ∃ a, t = [⟨r, a⟩] ∧ x = .ok a := by
  rw [call, ends_request]
  constructor
  · rintro ⟨a, rest, rfl, rfl, rfl⟩
    exact ⟨a, rfl, rfl⟩
  · rintro ⟨a, rfl, rfl⟩
    exact ⟨a, [], rfl, rfl, rfl⟩

theorem ends_follow {k : Except ε α → Program R A ε β} {x : Except ε β} :
    (p.follow k).Ends t x ↔
      ∃ first rest y, t = first ++ rest ∧ p.Ends first y ∧ (k y).Ends rest x := by
  induction p generalizing t with
  | done y =>
      constructor
      · intro h
        exact ⟨[], t, y, rfl, ⟨rfl, rfl⟩, h⟩
      · rintro ⟨_, rest, _, rfl, ⟨rfl, rfl⟩, h⟩
        exact h
  | request r next ih =>
      rw [follow_request, ends_request]
      constructor
      · rintro ⟨a, rest, rfl, h⟩
        obtain ⟨first, rest, y, rfl, hfirst, hrest⟩ := (ih a).mp h
        exact ⟨⟨r, a⟩ :: first, rest, y, rfl, ⟨a, first, rfl, hfirst⟩, hrest⟩
      · rintro ⟨_, rest, y, rfl, ⟨a, first, rfl, hfirst⟩, hrest⟩
        exact ⟨a, first ++ rest, rfl, (ih a).mpr ⟨first, rest, y, rfl, hfirst, hrest⟩⟩

/-- A program in two parts ends in the first part by raising, or goes on with its value. -/
theorem ends_bind {x : Except ε β} :
    (p >>= f).Ends t x ↔ (∃ e, p.Ends t (.error e) ∧ x = .error e) ∨
      ∃ a first rest, t = first ++ rest ∧ p.Ends first (.ok a) ∧ (f a).Ends rest x := by
  show (p.follow _).Ends t x ↔ _
  rw [ends_follow]
  constructor
  · rintro ⟨first, rest, y, rfl, hp, hrest⟩
    cases y with
    | ok a => exact Or.inr ⟨a, first, rest, rfl, hp, hrest⟩
    | error e =>
        obtain ⟨rfl, rfl⟩ := hrest
        refine Or.inl ⟨e, ?_, rfl⟩
        rwa [List.append_nil]
  · rintro (⟨e, hp, rfl⟩ | ⟨a, first, rest, rfl, hp, hrest⟩)
    · exact ⟨t, [], .error e, (List.append_nil t).symm, hp, rfl, rfl⟩
    · exact ⟨first, rest, .ok a, rfl, hp, hrest⟩

theorem ends_bind_ok {b : β} :
    (p >>= f).Ends t (.ok b) ↔
      ∃ a first rest, t = first ++ rest ∧ p.Ends first (.ok a) ∧ (f a).Ends rest (.ok b) := by
  rw [ends_bind]
  constructor
  · rintro (⟨e, -, h⟩ | h)
    · cases h
    · exact h
  · exact Or.inr

theorem Ends.bind {first rest : List (Exchange A)} {a : α} {x : Except ε β}
    (h : p.Ends first (.ok a)) (hf : (f a).Ends rest x) : (p >>= f).Ends (first ++ rest) x :=
  ends_bind.mpr (Or.inr ⟨a, first, rest, rfl, h, hf⟩)

theorem Ends.raise {e : ε} (h : p.Ends t (.error e)) : (p >>= f).Ends t (.error e) :=
  ends_bind.mpr (Or.inl ⟨e, h, rfl⟩)

theorem ends_catching {clause : ε → Program R A ε α} {x : Except ε α} :
    (p.catching clause).Ends t x ↔ (∃ a, p.Ends t (.ok a) ∧ x = .ok a) ∨
      ∃ e first rest, t = first ++ rest ∧ p.Ends first (.error e) ∧ (clause e).Ends rest x := by
  rw [catching, ends_follow]
  constructor
  · rintro ⟨first, rest, y, rfl, hp, hrest⟩
    cases y with
    | error e => exact Or.inr ⟨e, first, rest, rfl, hp, hrest⟩
    | ok a =>
        obtain ⟨rfl, rfl⟩ := hrest
        refine Or.inl ⟨a, ?_, rfl⟩
        rwa [List.append_nil]
  · rintro (⟨a, hp, rfl⟩ | ⟨e, first, rest, rfl, hp, hrest⟩)
    · exact ⟨t, [], .ok a, (List.append_nil t).symm, hp, rfl, rfl⟩
    · exact ⟨first, rest, .error e, rfl, hp, hrest⟩

theorem ends_ensuring {clause : Program R A ε Unit} {x : Except ε α} :
    (p.ensuring clause).Ends t x ↔ ∃ first rest y z, t = first ++ rest ∧ p.Ends first y ∧
      clause.Ends rest z ∧ x = z.bind fun _ => y := by
  rw [ensuring, ends_follow]
  constructor
  · rintro ⟨first, rest, y, rfl, hp, h⟩
    obtain ⟨rest, rest', z, rfl, hclause, h⟩ := ends_follow.mp h
    cases z with
    | ok u =>
        obtain ⟨rfl, rfl⟩ := h
        exact ⟨first, rest, _, .ok u, by rw [List.append_nil], hp, hclause, rfl⟩
    | error e =>
        obtain ⟨rfl, rfl⟩ := h
        exact ⟨first, rest, _, .error e, by rw [List.append_nil], hp, hclause, rfl⟩
  · rintro ⟨first, rest, y, z, rfl, hp, hclause, rfl⟩
    refine ⟨first, rest, y, rfl, hp, ends_follow.mpr ⟨rest, [], z, ?_, hclause, ?_⟩⟩
    · rw [List.append_nil]
    · cases z <;> exact ⟨rfl, rfl⟩

/-- A program of one kind of requests has transcripts of that kind. -/
theorem Quiet.of_ends {reads : R → Bool} (h : p.Quiet reads) {x : Except ε α} (hends : p.Ends t x) :
    ∀ exchange ∈ t, reads exchange.1 = true := by
  induction p generalizing t with
  | done y =>
      obtain ⟨rfl, -⟩ := hends
      intro exchange hexchange
      cases hexchange
  | request r next ih =>
      obtain ⟨a, rest, rfl, hrest⟩ := hends
      intro exchange hexchange
      rcases List.mem_cons.mp hexchange with rfl | hexchange
      · exact h.1
      · exact ih a (h.2 a) hrest exchange hexchange

/-- An exchange of a loop is one of a turn of it. -/
theorem ends_forEach {g : β → Program R A ε α} {xs : List β} {before after : List (Exchange A)}
    {exchange : Exchange A} {x : Except ε (List α)}
    (h : (forEach g xs).Ends (before ++ exchange :: after) x) :
    ∃ y ∈ xs, ∃ earlier first rest x', before = earlier ++ first ∧
      (g y).Ends (first ++ exchange :: rest) x' := by
  induction xs generalizing before x with
  | nil =>
      obtain ⟨hnil, -⟩ := h
      exact absurd hnil (by simp)
  | cons y ys ih =>
      rw [forEach, ends_bind] at h
      rcases h with ⟨e, hy, rfl⟩ | ⟨a, turn, rest, happend, hy, hrest⟩
      · exact ⟨y, List.mem_cons_self, [], before, after, _, rfl, hy⟩
      · obtain ⟨x', hys⟩ : ∃ x', (forEach g ys).Ends rest x' := by
          rcases ends_bind.mp hrest with ⟨e, hys, -⟩ | ⟨as, first, rest', rfl, hys, hend⟩
          · exact ⟨_, hys⟩
          · obtain ⟨rfl, -⟩ := hend
            rw [List.append_nil]
            exact ⟨_, hys⟩
        rcases append_cons_cases happend with ⟨last, rfl, -⟩ | ⟨later, rfl, rfl⟩
        · exact ⟨y, List.mem_cons_self, [], before, last, _, rfl, hy⟩
        · obtain ⟨z, hz, earlier, first, rest, x'', rfl, hends⟩ := ih hys
          exact ⟨z, List.mem_cons_of_mem y hz, turn ++ earlier, first, rest, x'',
            (List.append_assoc _ _ _).symm, hends⟩

/-! ## Programs of one kind of requests -/

theorem Quiet.catching {reads : R → Bool} {clause : ε → Program R A ε α} (h : p.Quiet reads)
    (hclause : ∀ e, (clause e).Quiet reads) : (p.catching clause).Quiet reads := by
  apply h.follow
  intro x
  cases x with
  | ok a => trivial
  | error e => exact hclause e

theorem Quiet.ensuring {reads : R → Bool} {clause : Program R A ε Unit} (h : p.Quiet reads)
    (hclause : clause.Quiet reads) : (p.ensuring clause).Quiet reads := by
  apply h.follow
  intro x
  apply hclause.follow
  intro y
  cases y <;> trivial

/-! ## Loops under a handler -/

/-- What each turn keeps, the loop keeps, also where a turn raises. -/
theorem run_forEach_keeps {σ : Type} (handler : (r : R) → σ → A r × σ) (inv : σ → Prop)
    {g : β → Program R A ε α} {xs : List β}
    (h : ∀ x ∈ xs, ∀ s, inv s → inv ((g x).run handler s).2) {s : σ} (hs : inv s) :
    inv ((forEach g xs).run handler s).2 := by
  induction xs generalizing s with
  | nil => exact hs
  | cons x xs ih =>
      have hx := h x List.mem_cons_self s hs
      rw [forEach]
      cases hrun : (g x).run handler s with
      | mk result s' =>
          rw [hrun] at hx
          cases result with
          | error e =>
              rw [run_bind_error handler hrun]
              exact hx
          | ok a =>
              rw [run_bind_ok handler hrun, run_bind_pure]
              exact ih (fun y hy => h y (List.mem_cons_of_mem x hy)) hx

/-! ## Errors that a program passes on -/

section

variable {fatal : Exchange A → Prop} {isFatal : ε → Prop}

/-- The program raises a fatal error exactly where an answer was fatal. -/
def Surfaces (fatal : Exchange A → Prop) (isFatal : ε → Prop) (p : Program R A ε α) : Prop :=
  ∀ t x, p.Ends t x → ((∃ exchange ∈ t, fatal exchange) ↔ ∃ e, x = .error e ∧ isFatal e)

/-- No answer was fatal where the program returns. -/
def Strict (fatal : Exchange A → Prop) (p : Program R A ε α) : Prop :=
  ∀ t a, p.Ends t (.ok a) → ∀ exchange ∈ t, ¬ fatal exchange

theorem Surfaces.strict (h : p.Surfaces fatal isFatal) : p.Strict fatal := by
  intro t a hends exchange hexchange hfatal
  obtain ⟨e, he, -⟩ := (h t _ hends).mp ⟨exchange, hexchange, hfatal⟩
  cases he

theorem surfaces_done_ok (a : α) : (Program.done (.ok a) : Program R A ε α).Surfaces fatal isFatal := by
  rintro t x ⟨rfl, rfl⟩
  simp

theorem surfaces_raise {e : ε} (h : ¬ isFatal e) :
    (raise e : Program R A ε α).Surfaces fatal isFatal := by
  rintro t x ⟨rfl, rfl⟩
  simpa using h

theorem exists_append_iff {s s' : List (Exchange A)} :
    (∃ exchange ∈ s ++ s', fatal exchange) ↔
      (∃ exchange ∈ s, fatal exchange) ∨ ∃ exchange ∈ s', fatal exchange := by
  simp only [List.mem_append, or_and_right, exists_or]

theorem Surfaces.bind (h : p.Surfaces fatal isFatal) (hf : ∀ a, (f a).Surfaces fatal isFatal) :
    (p >>= f).Surfaces fatal isFatal := by
  intro t x hends
  rcases ends_bind.mp hends with ⟨e, hp, rfl⟩ | ⟨a, first, rest, rfl, hp, hrest⟩
  · rw [h t _ hp]
    simp
  · rw [exists_append_iff, h first _ hp, hf a rest x hrest]
    simp

/-- An `except` clause that raises the fatal errors again. -/
theorem Surfaces.catching {clause : ε → Program R A ε α} (h : p.Surfaces fatal isFatal)
    (hfatal : ∀ e, isFatal e → clause e = raise e)
    (hclause : ∀ e, ¬ isFatal e → (clause e).Surfaces fatal isFatal) :
    (p.catching clause).Surfaces fatal isFatal := by
  intro t x hends
  rcases ends_catching.mp hends with ⟨a, hp, rfl⟩ | ⟨e, first, rest, rfl, hp, hrest⟩
  · rw [h t _ hp]
  · rw [exists_append_iff, h first _ hp]
    by_cases he : isFatal e
    · rw [hfatal e he] at hrest
      obtain ⟨rfl, rfl⟩ := hrest
      simp [he]
    · rw [hclause e he rest x hrest]
      simp [he]

theorem Strict.bind (h : p.Strict fatal) (hf : ∀ a, (f a).Strict fatal) : (p >>= f).Strict fatal := by
  intro t b hends exchange hexchange
  obtain ⟨a, first, rest, rfl, hp, hrest⟩ := ends_bind_ok.mp hends
  rcases List.mem_append.mp hexchange with hmem | hmem
  · exact h first a hp exchange hmem
  · exact hf a rest b hrest exchange hmem

theorem Strict.ensuring {clause : Program R A ε Unit} (h : p.Strict fatal)
    (hclause : clause.Strict fatal) : (p.ensuring clause).Strict fatal := by
  intro t a hends exchange hexchange
  obtain ⟨first, rest, y, z, rfl, hp, hrest, hx⟩ := ends_ensuring.mp hends
  cases z with
  | error e => cases hx
  | ok u =>
      obtain rfl : .ok a = y := hx
      rcases List.mem_append.mp hexchange with hmem | hmem
      · exact h first a hp exchange hmem
      · exact hclause rest u hrest exchange hmem

end

end Program

end Base
