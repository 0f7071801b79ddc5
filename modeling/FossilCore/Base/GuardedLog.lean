import Mathlib.Data.List.Basic

/-!
# Guarded logs

A log of steps replayed from a state: a step has a guard on the state it meets and an effect.
The log is accepted when every guard holds where its step is reached.  The rules below split a
log, compare the replays of one log from two related states, and compare a log with its
sublist of the steps that matter to an observer.
-/

namespace Base

structure Guarded (σ τ : Type*) where
  guard : σ → τ → Prop
  effect : σ → τ → σ

namespace Guarded

variable {σ σ' τ : Type*} (m : Guarded σ τ) (m' : Guarded σ' τ)

/-- The state after the steps, whether or not their guards hold. -/
def after (s : σ) (log : List τ) : σ := log.foldl m.effect s

def Accepts (s : σ) : List τ → Prop
  | [] => True
  | t :: rest => m.guard s t ∧ Accepts (m.effect s t) rest

@[simp] theorem after_nil (s : σ) : m.after s [] = s := rfl

@[simp] theorem after_cons (s : σ) (t : τ) (log : List τ) :
    m.after s (t :: log) = m.after (m.effect s t) log := rfl

theorem after_append (s : σ) (xs ys : List τ) :
    m.after s (xs ++ ys) = m.after (m.after s xs) ys := List.foldl_append

theorem accepts_append (s : σ) (xs ys : List τ) :
    m.Accepts s (xs ++ ys) ↔ m.Accepts s xs ∧ m.Accepts (m.after s xs) ys := by
  induction xs generalizing s with
  | nil => simp [Accepts]
  | cons t xs ih => simp [Accepts, ih, and_assoc]

/-- A log is accepted when every step meets its guard after the steps before it. -/
theorem accepts_iff_forall_split (s : σ) (log : List τ) :
    m.Accepts s log ↔
      ∀ before t rest, log = before ++ t :: rest → m.guard (m.after s before) t := by
  constructor
  · rintro h before t rest rfl
    exact ((m.accepts_append s before (t :: rest)).mp h).2.1
  · intro h
    induction log generalizing s with
    | nil => trivial
    | cons t log ih =>
        refine ⟨h [] t log rfl, ih (m.effect s t) ?_⟩
        intro before u rest hlog
        exact h (t :: before) u rest (by rw [hlog, List.cons_append])

variable {m m'}

/-- What every accepted step preserves, an accepted log preserves. -/
theorem Accepts.preserves {P : σ → Prop} {s : σ} {log : List τ} (h : m.Accepts s log)
    (hs : P s) (hstep : ∀ s, ∀ t ∈ log, P s → m.guard s t → P (m.effect s t)) :
    P (m.after s log) := by
  induction log generalizing s with
  | nil => exact hs
  | cons t log ih =>
      refine ih h.2 (hstep s t List.mem_cons_self hs h.1) ?_
      intro s' u hu
      exact hstep s' u (List.mem_cons_of_mem t hu)

/-- Two machines whose states stay related accept the same log. -/
theorem accepts_congr {R : σ → σ' → Prop} {s : σ} {s' : σ'} {log : List τ} (hR : R s s')
    (hguard : ∀ s s', ∀ t ∈ log, R s s' → (m.guard s t ↔ m'.guard s' t))
    (heffect : ∀ s s', ∀ t ∈ log, R s s' → m.guard s t → R (m.effect s t) (m'.effect s' t)) :
    (m.Accepts s log ↔ m'.Accepts s' log) ∧
      (m.Accepts s log → R (m.after s log) (m'.after s' log)) := by
  induction log generalizing s s' with
  | nil => exact ⟨Iff.rfl, fun _ => hR⟩
  | cons t log ih =>
      have hg := hguard s s' t List.mem_cons_self hR
      have hrest : m.guard s t →
          (m.Accepts (m.effect s t) log ↔ m'.Accepts (m'.effect s' t) log) ∧
            (m.Accepts (m.effect s t) log →
              R (m.after (m.effect s t) log) (m'.after (m'.effect s' t) log)) := by
        intro hgt
        refine ih (heffect s s' t List.mem_cons_self hR hgt) ?_ ?_
        · intro s s' u hu
          exact hguard s s' u (List.mem_cons_of_mem t hu)
        · intro s s' u hu
          exact heffect s s' u (List.mem_cons_of_mem t hu)
      refine ⟨?_, fun h => (hrest h.1).2 h.2⟩
      constructor
      · rintro ⟨hgt, htail⟩
        exact ⟨hg.mp hgt, (hrest hgt).1.mp htail⟩
      · rintro ⟨hgt, htail⟩
        exact ⟨hg.mpr hgt, (hrest (hg.mpr hgt)).1.mpr htail⟩

/-- An observer that only follows the kept steps stays related to the full replay, when each
kept step keeps the relation and each other step does not disturb it. -/
theorem after_filter {R : σ → σ' → Prop} {keep : τ → Bool} {s : σ} {s' : σ'} {log : List τ}
    (hR : R s s') (h : m.Accepts s log) (h' : m'.Accepts s' (log.filter keep))
    (hkept : ∀ s s', ∀ t ∈ log, keep t = true → R s s' → m.guard s t → m'.guard s' t →
      R (m.effect s t) (m'.effect s' t))
    (hother : ∀ s s', ∀ t ∈ log, keep t = false → R s s' → m.guard s t →
      R (m.effect s t) s') :
    R (m.after s log) (m'.after s' (log.filter keep)) := by
  induction log generalizing s s' with
  | nil => exact hR
  | cons t log ih =>
      have hkept' : ∀ s s', ∀ u ∈ log, keep u = true → R s s' → m.guard s u → m'.guard s' u →
          R (m.effect s u) (m'.effect s' u) :=
        fun s s' u hu => hkept s s' u (List.mem_cons_of_mem t hu)
      have hother' : ∀ s s', ∀ u ∈ log, keep u = false → R s s' → m.guard s u →
          R (m.effect s u) s' :=
        fun s s' u hu => hother s s' u (List.mem_cons_of_mem t hu)
      cases hk : keep t with
      | true =>
          rw [List.filter_cons_of_pos hk] at h' ⊢
          exact ih (hkept s s' t List.mem_cons_self hk hR h.1 h'.1) h.2 h'.2 hkept' hother'
      | false =>
          have hk' : ¬ keep t = true := by simp [hk]
          rw [List.filter_cons_of_neg hk'] at h' ⊢
          exact ih (hother s s' t List.mem_cons_self hk hR h.1) h.2 h' hkept' hother'

end Guarded

end Base
