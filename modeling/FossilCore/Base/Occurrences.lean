import Mathlib.Order.Bounds.Basic
import Mathlib.Data.Nat.Find
import Mathlib.Data.List.Induction

/-!
# Occurrences that do not overlap

Positions with a property, each behind the end of the one before.  The search from the left finds
the least position at which a list of them can end.
-/

namespace Base

/-- Positions with `p`, each at least a length behind the one before. -/
structure Apart (p : ℕ → Prop) (length : ℕ) (positions : List ℕ) : Prop where
  all : ∀ i ∈ positions, p i
  apart : positions.Pairwise fun i j => i + length ≤ j

/-- The position is the last of `k + 1` positions that do not overlap, as far left as it can be. -/
def IsKth (p : ℕ → Prop) (length k position : ℕ) : Prop :=
  IsLeast {i | ∃ front, front.length = k ∧ Apart p length (front ++ [i])} position

/-- The positions from the cursor on. -/
def Behind (p : ℕ → Prop) (cursor i : ℕ) : Prop := cursor ≤ i ∧ p i

variable {p : ℕ → Prop} {length k cursor first position : ℕ} {positions : List ℕ}

theorem apart_singleton : Apart p length [position] ↔ p position := by
  constructor
  · exact fun h => h.all position List.mem_cons_self
  · intro h
    exact ⟨fun i hi => (List.mem_singleton.mp hi).symm ▸ h, List.pairwise_singleton _ _⟩

theorem apart_cons {i : ℕ} :
    Apart p length (i :: positions) ↔
      p i ∧ (∀ j ∈ positions, i + length ≤ j) ∧ Apart p length positions := by
  constructor
  · rintro ⟨hall, hapart⟩
    obtain ⟨hbehind, hrest⟩ := List.pairwise_cons.mp hapart
    exact ⟨hall i List.mem_cons_self, hbehind, fun j hj => hall j (List.mem_cons_of_mem i hj), hrest⟩
  · rintro ⟨hi, hbehind, hrest⟩
    refine ⟨fun j hj => ?_, List.pairwise_cons.mpr ⟨hbehind, hrest.apart⟩⟩
    rcases List.mem_cons.mp hj with rfl | hj
    · exact hi
    · exact hrest.all j hj

theorem Apart.behind (h : Apart p length positions) (hbehind : ∀ i ∈ positions, cursor ≤ i) :
    Apart (Behind p cursor) length positions :=
  ⟨fun i hi => ⟨hbehind i hi, h.all i hi⟩, h.apart⟩

theorem Apart.of_behind (h : Apart (Behind p cursor) length positions) :
    Apart p length positions :=
  ⟨fun i hi => (h.all i hi).2, h.apart⟩

theorem isKth_zero : IsKth p length 0 position ↔ IsLeast {i | p i} position := by
  have hset : {i | ∃ front : List ℕ, front.length = 0 ∧ Apart p length (front ++ [i])} =
      {i | p i} := by
    ext i
    constructor
    · rintro ⟨front, hfront, h⟩
      rw [List.length_eq_zero_iff.mp hfront] at h
      exact apart_singleton.mp h
    · exact fun h => ⟨[], rfl, apart_singleton.mpr h⟩
  rw [IsKth, hset]

/-- Behind the first position, one position less is to be found. -/
theorem exists_apart_succ (hfirst : IsLeast {i | Behind p cursor i} first) :
    (∃ front, front.length = k + 1 ∧ Apart (Behind p cursor) length (front ++ [position])) ↔
      ∃ front, front.length = k ∧
        Apart (Behind p (first + length)) length (front ++ [position]) := by
  constructor
  · rintro ⟨front, hlength, h⟩
    obtain ⟨i, front, rfl⟩ := List.exists_cons_of_length_eq_add_one hlength
    obtain ⟨hi, hbehind, hrest⟩ := apart_cons.mp h
    have hle : first ≤ i := hfirst.2 hi
    refine ⟨front, Nat.succ.inj hlength, hrest.of_behind.behind fun j hj => ?_⟩
    have := hbehind j hj
    omega
  · rintro ⟨front, hlength, h⟩
    have hcursor : cursor ≤ first := hfirst.1.1
    refine ⟨first :: front, congrArg Nat.succ hlength, apart_cons.mpr ⟨hfirst.1, ?_, ?_⟩⟩
    · exact fun j hj => (h.all j hj).1
    · exact h.of_behind.behind fun j hj => hcursor.trans ((Nat.le_add_right _ _).trans (h.all j hj).1)

theorem isKth_succ (hfirst : IsLeast {i | Behind p cursor i} first) :
    IsKth (Behind p cursor) length (k + 1) position ↔
      IsKth (Behind p (first + length)) length k position := by
  have hset : {i | ∃ front, front.length = k + 1 ∧ Apart (Behind p cursor) length (front ++ [i])} =
      {i | ∃ front, front.length = k ∧ Apart (Behind p (first + length)) length (front ++ [i])} :=
    Set.ext fun i => exists_apart_succ hfirst
  rw [IsKth, IsKth, hset]

theorem behind_zero : Behind p 0 = p := by
  funext i
  exact propext (and_iff_right (Nat.zero_le i))

theorem exists_of_apart {front : List ℕ} (h : Apart p length (front ++ [position])) :
    ∃ i, p i :=
  ⟨position, h.all position (List.mem_append_right _ List.mem_cons_self)⟩

/-- In a list of positions, the one with this number is not left of where the search finds it. -/
theorem IsKth.unique (h : IsKth p length k position) (h' : IsKth p length k first) :
    position = first :=
  IsLeast.unique h h'

end Base
