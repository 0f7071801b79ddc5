import Mathlib.Data.Finset.Card
import Mathlib.Data.List.Chain
import Mathlib.Logic.Relation

/-!
# Chains of parents

A partial function gives a node its parent.  The chain of the parents of a node comes to an end or
goes round, and a walk that remembers the nodes it met tells which, in as many steps as there are
nodes.
-/

namespace Base

namespace ParentChain

open Relation

variable {α : Type} {parent : α → Option α} {a b : α}

/-- The parents of the node come to an end. -/
inductive Ends (parent : α → Option α) : α → Prop
  | root {a : α} (h : parent a = none) : Ends parent a
  | step {a b : α} (h : parent a = some b) (hb : Ends parent b) : Ends parent a

theorem Ends.of_parent (h : Ends parent a) (hb : parent a = some b) : Ends parent b := by
  cases h with
  | root hroot => cases hroot.symm.trans hb
  | step hstep hends =>
      cases hstep.symm.trans hb
      exact hends

theorem Ends.of_reflTransGen (h : Ends parent a)
    (hab : ReflTransGen (fun a b => parent a = some b) a b) : Ends parent b := by
  induction hab with
  | refl => exact h
  | tail _ hstep ih => exact ih.of_parent hstep

theorem Ends.not_cycle (h : Ends parent a) : ¬ TransGen (fun a b => parent a = some b) a a := by
  induction h with
  | root hroot =>
      intro hcycle
      obtain ⟨b, hstep, -⟩ := TransGen.head'_iff.mp hcycle
      cases hroot.symm.trans hstep
  | step hstep _ ih =>
      intro hcycle
      obtain ⟨b', hstep', hback⟩ := TransGen.head'_iff.mp hcycle
      cases hstep.symm.trans hstep'
      exact ih (TransGen.tail' hback hstep)

/-! ## Lists of parents, the eldest first -/

/-- Each member of the list is the parent of the next. -/
def IsLine (parent : α → Option α) (path : List α) : Prop :=
  path.IsChain fun p c => parent c = some p

theorem reaches_of_isLine {path : List α} (h : IsLine parent (b :: path)) (ha : a ∈ path) :
    TransGen (fun a b => parent a = some b) a b := by
  induction path generalizing b with
  | nil => cases ha
  | cons c path ih =>
      obtain ⟨hstep, hrest⟩ := List.isChain_cons_cons.mp h
      rcases List.mem_cons.mp ha with rfl | hmem
      · exact .single hstep
      · exact (ih hrest hmem).tail hstep

theorem ends_of_isLine {path : List α} (h : IsLine parent (b :: path)) (hb : Ends parent b)
    (ha : a ∈ b :: path) : Ends parent a := by
  induction path generalizing b with
  | nil =>
      rw [List.mem_singleton.mp ha]
      exact hb
  | cons c path ih =>
      obtain ⟨hstep, hrest⟩ := List.isChain_cons_cons.mp h
      rcases List.mem_cons.mp ha with rfl | hmem
      · exact hb
      · exact ih hrest (.step hstep hb) hmem

/-! ## The walk -/

/-- The walk from `a` has met the nodes of `path` and stands at `cursor`. -/
structure Walking (parent : α → Option α) (nodes : Finset α) (a : α) (remaining : ℕ)
    (path : List α) (cursor : α) : Prop where
  line : IsLine parent (cursor :: path)
  start : (cursor :: path).getLast? = some a
  nodup : path.Nodup
  subset : ∀ b ∈ cursor :: path, b ∈ nodes
  room : remaining + path.length = nodes.card

/-- What a walk from `a` returns. -/
structure Walked (parent : α → Option α) (nodes : Finset α) (a : α)
    (result : List α × Option α) : Prop where
  line : IsLine parent result.1
  start : result.1.getLast? = some a
  nodup : result.1.Nodup
  subset : ∀ b ∈ result.1, b ∈ nodes
  ends : result.2 = none ↔ Ends parent a
  top : ∀ r, result.2 = none → result.1.head? = some r → parent r = none
  stuck : ∀ b, result.2 = some b → b ∈ result.1

variable {nodes : Finset α} {path : List α} {cursor : α} {remaining : ℕ}

theorem Walking.step {p : α} (h : Walking parent nodes a (remaining + 1) path cursor)
    (hclosed : ∀ b ∈ nodes, ∀ p, parent b = some p → p ∈ nodes) (hfresh : cursor ∉ path)
    (hp : parent cursor = some p) : Walking parent nodes a remaining (cursor :: path) p := by
  refine ⟨List.isChain_cons_cons.mpr ⟨hp, h.line⟩, ?_, List.nodup_cons.mpr ⟨hfresh, h.nodup⟩,
    ?_, ?_⟩
  · rw [List.getLast?_cons_cons]
    exact h.start
  · intro b hb
    rcases List.mem_cons.mp hb with rfl | hmem
    · exact hclosed cursor (h.subset cursor List.mem_cons_self) b hp
    · exact h.subset b hmem
  · have hroom := h.room
    rw [List.length_cons]
    omega

theorem Walking.mem_start (h : Walking parent nodes a remaining path cursor) :
    a ∈ cursor :: path :=
  List.mem_of_getLast? h.start

/-- A node met twice is its own ancestor, and the parents of the first node do not end. -/
theorem Walking.not_ends (h : Walking parent nodes a remaining path cursor)
    (hmet : cursor ∈ path) : ¬ Ends parent a := by
  intro hends
  have hcycle := reaches_of_isLine h.line hmet
  refine Ends.not_cycle ?_ hcycle
  rcases List.mem_cons.mp h.mem_start with heq | hmem
  · exact heq ▸ hends
  · exact hends.of_reflTransGen (reaches_of_isLine h.line hmem).to_reflTransGen

theorem Walking.broken (h : Walking parent nodes a remaining path cursor) (hmet : cursor ∈ path) :
    Walked parent nodes a (path, some cursor) := by
  refine ⟨h.line.tail, ?_, h.nodup, fun b hb => h.subset b (List.mem_cons_of_mem _ hb), ?_, ?_, ?_⟩
  · obtain ⟨b, rest, rfl⟩ := List.exists_cons_of_ne_nil (List.ne_nil_of_mem hmet)
    have hstart := h.start
    rwa [List.getLast?_cons_cons] at hstart
  · exact iff_of_false (by simp) (h.not_ends hmet)
  · intro r hnone
    cases hnone
  · intro b hb
    cases hb
    exact hmet

theorem Walking.arrived (h : Walking parent nodes a remaining path cursor) (hfresh : cursor ∉ path)
    (hroot : parent cursor = none) : Walked parent nodes a (cursor :: path, none) := by
  refine ⟨h.line, h.start, List.nodup_cons.mpr ⟨hfresh, h.nodup⟩, h.subset, ?_, ?_, ?_⟩
  · exact iff_of_true rfl (ends_of_isLine h.line (.root hroot) h.mem_start)
  · intro r _ hr
    cases hr
    exact hroot
  · intro b hb
    cases hb

section Walk

variable [DecidableEq α]

/-- A walk with no step left has met every node. -/
theorem Walking.met (h : Walking parent nodes a 0 path cursor) : cursor ∈ path := by
  have hcard : path.toFinset.card = nodes.card := by
    rw [List.toFinset_card_of_nodup h.nodup, ← h.room, Nat.zero_add]
  have hsubset : path.toFinset ⊆ nodes := fun b hb =>
    h.subset b (List.mem_cons_of_mem _ (List.mem_toFinset.mp hb))
  have heq := Finset.eq_of_subset_of_card_le hsubset hcard.ge
  exact List.mem_toFinset.mp (heq ▸ h.subset cursor List.mem_cons_self)

/-- Follow the parents with a bound on the steps: the nodes met, the last one first, and the node
at which the walk was broken off. -/
def follow (parent : α → Option α) : ℕ → List α → α → List α × Option α
  | remaining, path, cursor =>
    if cursor ∈ path then (path, some cursor)
    else match remaining with
      | 0 => (path, some cursor)
      | remaining + 1 =>
          match parent cursor with
          | none => (cursor :: path, none)
          | some p => follow parent remaining (cursor :: path) p

theorem Walking.walked (hclosed : ∀ b ∈ nodes, ∀ p, parent b = some p → p ∈ nodes)
    (h : Walking parent nodes a remaining path cursor) :
    Walked parent nodes a (follow parent remaining path cursor) := by
  induction remaining generalizing path cursor with
  | zero =>
      rw [follow, if_pos h.met]
      exact h.broken h.met
  | succ remaining ih =>
      rw [follow]
      by_cases hmet : cursor ∈ path
      · rw [if_pos hmet]
        exact h.broken hmet
      · rw [if_neg hmet]
        cases hp : parent cursor with
        | none => exact h.arrived hmet hp
        | some p => exact ih (h.step hclosed hmet hp)

/-- The walk from a node, with a step for every node. -/
theorem follow_walked (hclosed : ∀ b ∈ nodes, ∀ p, parent b = some p → p ∈ nodes)
    (ha : a ∈ nodes) : Walked parent nodes a (follow parent nodes.card [] a) := by
  apply Walking.walked hclosed
  refine ⟨List.isChain_singleton a, rfl, List.nodup_nil, ?_, rfl⟩
  intro b hb
  rw [List.mem_singleton.mp hb]
  exact ha

end Walk

end ParentChain

end Base
