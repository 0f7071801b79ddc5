import Mathlib.Data.List.Basic

/-!
# Runs of calls

A machine answers each call with an outcome and a new state.  A run is a list of calls from an
initial state.  The rules are the two inductions every run theorem rests on: what each call
preserves, the run preserves; two machines that answer each call alike answer every run alike.
-/

namespace Base

namespace Runs

variable {σ σ' ι ι' ω ω' : Type*} (step : σ → ι → ω × σ) (step' : σ' → ι' → ω' × σ')

def after (s : σ) : List ι → σ
  | [] => s
  | c :: rest => after (step s c).2 rest

def outcomes (s : σ) : List ι → List ω
  | [] => []
  | c :: rest => (step s c).1 :: outcomes (step s c).2 rest

@[simp] theorem after_nil (s : σ) : after step s [] = s := rfl

@[simp] theorem after_cons (s : σ) (c : ι) (rest : List ι) :
    after step s (c :: rest) = after step (step s c).2 rest := rfl

theorem after_append (s : σ) (xs ys : List ι) :
    after step s (xs ++ ys) = after step (after step s xs) ys := by
  induction xs generalizing s with
  | nil => rfl
  | cons c xs ih => exact ih _

theorem outcomes_append (s : σ) (xs ys : List ι) :
    outcomes step s (xs ++ ys) = outcomes step s xs ++ outcomes step (after step s xs) ys := by
  induction xs generalizing s with
  | nil => rfl
  | cons c xs ih => exact congrArg ((step s c).1 :: ·) (ih _)

/-- The call was made somewhere in the run, and was answered by the outcome. -/
def Answered (s : σ) (calls : List ι) (c : ι) (o : ω) : Prop :=
  ∃ before rest, calls = before ++ c :: rest ∧ (step (after step s before) c).1 = o

variable {step step'}

theorem invariant {P : σ → Prop} {s : σ} {calls : List ι} (hs : P s)
    (hstep : ∀ s, ∀ c ∈ calls, P s → P (step s c).2) : P (after step s calls) := by
  induction calls generalizing s with
  | nil => exact hs
  | cons c calls ih =>
      refine ih (hstep s c List.mem_cons_self hs) ?_
      intro s' d hd
      exact hstep s' d (List.mem_cons_of_mem c hd)

/-- What holds at the end and not at the start comes to hold by one of the calls. -/
theorem exists_turn {P : σ → Prop} {s : σ} {calls : List ι} (hs : ¬ P s)
    (h : P (after step s calls)) :
    ∃ before c rest, calls = before ++ c :: rest ∧ ¬ P (after step s before) ∧
      P (step (after step s before) c).2 := by
  induction calls generalizing s with
  | nil => exact (hs h).elim
  | cons c calls ih =>
      by_cases hnext : P (step s c).2
      · exact ⟨[], c, calls, rfl, hs, hnext⟩
      · obtain ⟨before, d, rest, rfl, hbefore, hafter⟩ := ih hnext h
        exact ⟨c :: before, d, rest, rfl, hbefore, hafter⟩

/-- `P` holds until a call is answered badly. -/
theorem invariant_unless {P : σ → Prop} {B : ι → ω → Prop} {s : σ} {calls : List ι} (hs : P s)
    (hstep : ∀ s c, P s → P (step s c).2 ∨ B c (step s c).1)
    (hnone : ∀ c o, Answered step s calls c o → ¬ B c o) : P (after step s calls) := by
  induction calls generalizing s with
  | nil => exact hs
  | cons c calls ih =>
      rcases hstep s c hs with hnext | hbad
      · refine ih hnext ?_
        rintro d o ⟨before, rest, rfl, ho⟩
        exact hnone d o ⟨c :: before, rest, rfl, ho⟩
      · exact (hnone c _ ⟨[], calls, rfl, rfl⟩ hbad).elim

theorem answered_concat {s : σ} {calls : List ι} {c d : ι} {o : ω} :
    Answered step s (calls ++ [d]) c o ↔
      Answered step s calls c o ∨ (d = c ∧ (step (after step s calls) d).1 = o) := by
  constructor
  · rintro ⟨before, rest, heq, ho⟩
    rcases List.eq_nil_or_concat rest with rfl | ⟨rest', last, rfl⟩
    · obtain ⟨rfl, hlast⟩ := List.append_inj' heq rfl
      cases hlast
      exact Or.inr ⟨rfl, ho⟩
    · rw [List.concat_eq_append, ← List.cons_append, ← List.append_assoc] at heq
      obtain ⟨hcalls, -⟩ := List.append_inj' heq rfl
      exact Or.inl ⟨before, rest', hcalls, ho⟩
  · rintro (⟨before, rest, rfl, ho⟩ | ⟨rfl, ho⟩)
    · exact ⟨before, rest ++ [d], by simp, ho⟩
    · exact ⟨calls, [], rfl, ho⟩

/-- Each call of the run meets the condition in the state before it. -/
def Meets (step : σ → ι → ω × σ) (C : σ → ι → Prop) (s : σ) : List ι → Prop
  | [] => True
  | c :: rest => C s c ∧ Meets step C (step s c).2 rest

theorem invariant_of_meets {P : σ → Prop} {C : σ → ι → Prop} {s : σ} {calls : List ι} (hs : P s)
    (hmeets : Meets step C s calls) (hstep : ∀ s c, P s → C s c → P (step s c).2) :
    P (after step s calls) := by
  induction calls generalizing s with
  | nil => exact hs
  | cons c calls ih => exact ih (hstep s c hs hmeets.1) hmeets.2

theorem Meets.of_append {C : σ → ι → Prop} {s : σ} {xs ys : List ι}
    (h : Meets step C s (xs ++ ys)) :
    Meets step C s xs ∧ Meets step C (after step s xs) ys := by
  induction xs generalizing s with
  | nil => exact ⟨trivial, h⟩
  | cons c xs ih => exact ⟨⟨h.1, (ih h.2).1⟩, (ih h.2).2⟩

/-- What an answered call establishes, and the calls that meet the condition preserve, holds at
the end. -/
theorem answered_of_meets {P Q : σ → Prop} {C : σ → ι → Prop} {s : σ} {calls : List ι} {c : ι}
    {o : ω} (hs : P s) (hmeets : Meets step C s calls) (h : Answered step s calls c o)
    (hstep : ∀ s c, P s → C s c → P (step s c).2)
    (hcall : ∀ s, P s → C s c → (step s c).1 = o → Q (step s c).2)
    (hkeep : ∀ s d, P s → C s d → Q s → Q (step s d).2) : Q (after step s calls) := by
  obtain ⟨before, rest, rfl, ho⟩ := h
  obtain ⟨hbefore, hcmeets, hrest⟩ := hmeets.of_append
  have hP := invariant_of_meets hs hbefore hstep
  rw [after_append, after_cons]
  refine (invariant_of_meets (P := fun s => P s ∧ Q s)
    ⟨hstep _ c hP hcmeets, hcall _ hP hcmeets ho⟩ hrest ?_).2
  rintro s' d ⟨hP', hQ'⟩ hd
  exact ⟨hstep s' d hP' hd, hkeep s' d hP' hd hQ'⟩

/-- Machines in related states that answer related calls alike answer related runs alike. -/
theorem simulation {R : σ → σ' → Prop} {T : ι → ι' → Prop} {S : ω → ω' → Prop} {s : σ} {s' : σ'}
    {calls : List ι} {calls' : List ι'} (hcalls : List.Forall₂ T calls calls') (hs : R s s')
    (hstep : ∀ s s' c c', T c c' → R s s' →
      S (step s c).1 (step' s' c').1 ∧ R (step s c).2 (step' s' c').2) :
    List.Forall₂ S (outcomes step s calls) (outcomes step' s' calls') ∧
      R (after step s calls) (after step' s' calls') := by
  induction hcalls generalizing s s' with
  | nil => exact ⟨List.Forall₂.nil, hs⟩
  | cons hc _ ih =>
      obtain ⟨hout, hnext⟩ := hstep s s' _ _ hc hs
      obtain ⟨hrest, hfinal⟩ := ih hnext
      exact ⟨List.Forall₂.cons hout hrest, hfinal⟩

theorem after_answered {P : σ → Prop} {s : σ} {calls : List ι} {c : ι} {o : ω}
    (h : Answered step s calls c o) (hcall : ∀ s, (step s c).1 = o → P (step s c).2)
    (hstep : ∀ s, ∀ d ∈ calls, P s → P (step s d).2) : P (after step s calls) := by
  obtain ⟨before, rest, rfl, ho⟩ := h
  rw [after_append, after_cons]
  refine invariant (hcall _ ho) ?_
  intro s' d hd
  exact hstep s' d (List.mem_append_right before (List.mem_cons_of_mem c hd))

end Runs

end Base
