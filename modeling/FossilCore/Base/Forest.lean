import Mathlib.Logic.Relation
import Mathlib.Order.Basic

/-!
# Forests ordered by a rank

A parent relation in which nothing has two parents and nothing is its own ancestor.  A rank that
increases from a parent to its children excludes the cycles.
-/

namespace Base

open Relation

variable {α β : Type*} {parent : α → α → Prop}

structure IsForest (parent : α → α → Prop) : Prop where
  unique : ∀ p p' c, parent p c → parent p' c → p = p'
  acyclic : ∀ a, ¬ TransGen parent a a

theorem rank_lt_of_transGen [Preorder β] {rank : α → β}
    (hrank : ∀ p c, parent p c → rank p < rank c) {a b : α} (h : TransGen parent a b) :
    rank a < rank b := by
  induction h with
  | single hab => exact hrank _ _ hab
  | tail _ hbc ih => exact ih.trans (hrank _ _ hbc)

theorem IsForest.of_rank [Preorder β] {rank : α → β}
    (hunique : ∀ p p' c, parent p c → parent p' c → p = p')
    (hrank : ∀ p c, parent p c → rank p < rank c) : IsForest parent := by
  refine ⟨hunique, ?_⟩
  intro a hcycle
  exact lt_irrefl _ (rank_lt_of_transGen hrank hcycle)

end Base
