import Mathlib.Data.List.Chain
import Mathlib.Data.List.Perm.Subperm
import Mathlib.Logic.Relation
import FossilCore.Base.Dict

/-!
# Depth-first search

The recursive search for a cycle with three colours: a node has not been seen, is on the stack,
or has been left.  It recurses on a fuel argument, of which one more than the number of nodes is
enough.  The search ends well exactly when no node is on a cycle, and else returns one.
-/

namespace Base

namespace DepthFirst

variable {α : Type} [DecidableEq α]

inductive Mark where
  | entered
  | left
  deriving DecidableEq

/-- The stack lists the entered nodes, the innermost last. -/
structure Search (α : Type) [DecidableEq α] where
  state : Dict α Mark
  stack : List α

namespace Search

def start : Search α := ⟨.empty, []⟩

def enter (s : Search α) (node : α) : Search α := ⟨s.state.set node .entered, s.stack ++ [node]⟩

def leave (s : Search α) (node : α) : Search α := ⟨s.state.set node .left, s.stack.dropLast⟩

/-- The nodes from the first visit of `node` on, and `node` again. -/
def cycle (s : Search α) (node : α) : List α :=
  s.stack.drop (if node ∈ s.stack then s.stack.idxOf node else 0) ++ [node]

/-- The node and all that it reaches have been searched. -/
def Left (s : Search α) (node : α) : Prop := s.state.get? node = some .left

end Search

variable (next : α → List α)

def visit : ℕ → Search α → α → Except (List α) (Search α)
  | 0, _, node => .error [node]
  | fuel + 1, s, node =>
      match s.state.get? node with
      | some .left => .ok s
      | some .entered => .error (s.cycle node)
      | none => do
          let inner ← (next node).foldlM (visit fuel) (s.enter node)
          return inner.leave node

def run (nodes : List α) : Except (List α) (Search α) :=
  nodes.foldlM (visit next (nodes.length + 1)) .start

/-! ## Edges and cycles -/

def Edge (a b : α) : Prop := b ∈ next a

/-- A walk along edges that ends where it begins. -/
def IsCycle (walk : List α) : Prop :=
  ∃ a rest, walk = a :: rest ++ [a] ∧ walk.IsChain (Edge next)

variable {next}

omit [DecidableEq α] in
theorem transGen_of_isChain {a b : α} {rest : List α}
    (h : (a :: rest ++ [b]).IsChain (Edge next)) : Relation.TransGen (Edge next) a b := by
  induction rest generalizing a with
  | nil => exact Relation.TransGen.single (List.isChain_pair.mp h)
  | cons c rest ih =>
      obtain ⟨hac, hrest⟩ := List.isChain_cons_cons.mp h
      exact Relation.TransGen.head hac (ih hrest)

omit [DecidableEq α] in
theorem IsCycle.exists_transGen {walk : List α} (h : IsCycle next walk) :
    ∃ a, walk.head? = some a ∧ Relation.TransGen (Edge next) a a := by
  obtain ⟨a, rest, rfl, hchain⟩ := h
  exact ⟨a, rfl, transGen_of_isChain hchain⟩

/-! ## What holds between two visits -/

section Graph

variable (next) (nodes : List α)

structure Consistent (s : Search α) : Prop where
  entered_iff : ∀ a, s.state.get? a = some .entered ↔ a ∈ s.stack
  nodup : s.stack.Nodup
  stack_subset : ∀ a ∈ s.stack, a ∈ nodes
  closed : ∀ a, s.Left a → ∀ b ∈ next a, s.Left b
  acyclic : ∀ a, s.Left a → ¬ Relation.TransGen (Edge next) a a

/-- What the visits of some targets lead to. -/
inductive Visited (s : Search α) (targets : List α) : Except (List α) (Search α) → Prop
  | done {s' : Search α} (consistent : Consistent next nodes s') (stack_eq : s'.stack = s.stack)
      (kept : ∀ a, s.Left a → s'.Left a) (left : ∀ a ∈ targets, s'.Left a) :
      Visited s targets (.ok s')
  | found {walk : List α} (isCycle : IsCycle next walk) (inside : ∀ a ∈ walk, a ∈ nodes) :
      Visited s targets (.error walk)

end Graph

variable {nodes : List α} {s : Search α} {node : α}

theorem consistent_start : Consistent next nodes Search.start := by
  constructor
  · intro a
    simp [Search.start]
  · exact List.nodup_nil
  · intro a ha
    cases ha
  · intro a ha
    cases ha
  · intro a ha
    cases ha

theorem Search.left_enter_iff (hnew : s.state.get? node = none) (a : α) :
    (s.enter node).Left a ↔ s.Left a := by
  rw [Search.Left, Search.enter, Dict.get?_set]
  split_ifs with heq
  · subst heq
    simp [Search.Left, hnew]
  · rfl

theorem Search.left_leave_iff (inner : Search α) (a : α) :
    (inner.leave node).Left a ↔ node = a ∨ inner.Left a := by
  rw [Search.Left, Search.leave, Dict.get?_set]
  split_ifs with heq
  · simp [heq]
  · simp [heq, Search.Left]

theorem Consistent.enter (h : Consistent next nodes s) (hnew : s.state.get? node = none)
    (hnode : node ∈ nodes) : Consistent next nodes (s.enter node) := by
  have hnot : node ∉ s.stack := by
    rw [← h.entered_iff, hnew]
    simp
  constructor
  · intro a
    rw [Search.enter, Dict.get?_set, List.mem_append, List.mem_singleton]
    split_ifs with heq
    · simp [heq]
    · rw [h.entered_iff]
      simp [Ne.symm heq]
  · exact h.nodup.append (List.nodup_singleton node) (by simpa using hnot)
  · intro a ha
    rcases List.mem_append.mp ha with hold | hself
    · exact h.stack_subset a hold
    · rw [List.mem_singleton.mp hself]
      exact hnode
  · intro a ha b hb
    rw [Search.left_enter_iff hnew] at ha ⊢
    exact h.closed a ha b hb
  · intro a ha
    exact h.acyclic a ((Search.left_enter_iff hnew a).mp ha)

/-- What is reached from a node that was left was left. -/
theorem Consistent.left_of_reaches (h : Consistent next nodes s) {a b : α} (ha : s.Left a)
    (hab : Relation.TransGen (Edge next) a b) : s.Left b := by
  induction hab with
  | single hedge => exact h.closed a ha _ hedge
  | tail _ hedge ih => exact h.closed _ ih _ hedge

/-- A node whose successors were all left is on no cycle, and can be left. -/
theorem Consistent.leave {inner : Search α} (h : Consistent next nodes inner)
    (hstack : inner.stack = s.stack ++ [node]) (hleft : ∀ a ∈ next node, inner.Left a) :
    Consistent next nodes (inner.leave node) := by
  have hentered : inner.state.get? node = some .entered := by
    rw [h.entered_iff, hstack]
    exact List.mem_append_right _ List.mem_cons_self
  have hnodup := h.nodup
  rw [hstack] at hnodup
  have hnot : node ∉ s.stack := fun hmem =>
    List.disjoint_of_nodup_append hnodup hmem List.mem_cons_self
  have hdrop : (inner.leave node).stack = s.stack := by
    rw [Search.leave, hstack, List.dropLast_concat]
  constructor
  · intro a
    rw [hdrop, Search.leave, Dict.get?_set]
    split_ifs with heq
    · subst heq
      simp [hnot]
    · rw [h.entered_iff, hstack, List.mem_append, List.mem_singleton]
      simp [Ne.symm heq]
  · rw [hdrop]
    exact hnodup.of_append_left
  · intro a ha
    rw [hdrop] at ha
    apply h.stack_subset
    rw [hstack]
    exact List.mem_append_left _ ha
  · intro a ha b hb
    rw [Search.left_leave_iff] at ha ⊢
    rcases ha with rfl | ha
    · exact Or.inr (hleft b hb)
    · exact Or.inr (h.closed a ha b hb)
  · intro a ha hcycle
    rw [Search.left_leave_iff] at ha
    rcases ha with rfl | ha
    · -- the cycle goes on to a successor, which was left, and comes back to the entered node
      have hback : inner.Left node := by
        obtain ⟨c, hc, hrest⟩ := Relation.TransGen.head'_iff.mp hcycle
        rcases Relation.reflTransGen_iff_eq_or_transGen.mp hrest with rfl | hrest
        · exact hleft node hc
        · exact h.left_of_reaches (hleft c hc) hrest
      rw [Search.Left, hentered] at hback
      cases hback
    · exact h.acyclic a ha hcycle

/-! ## The search -/

/-- The walk that is reported goes along the stack. -/
theorem isCycle_cycle (hmem : node ∈ s.stack)
    (hchain : (s.stack ++ [node]).IsChain (Edge next)) :
    IsCycle next (s.cycle node) ∧ ∀ a ∈ s.cycle node, a ∈ s.stack := by
  have hlt : s.stack.idxOf node < s.stack.length := List.idxOf_lt_length_iff.mpr hmem
  have hcycle : s.cycle node = (s.stack ++ [node]).drop (s.stack.idxOf node) := by
    rw [Search.cycle, if_pos hmem, List.drop_append_of_le_length hlt.le]
  have hhead : s.stack.drop (s.stack.idxOf node) =
      node :: s.stack.drop (s.stack.idxOf node + 1) := by
    rw [List.drop_eq_getElem_cons hlt, List.getElem_idxOf]
  refine ⟨⟨node, s.stack.drop (s.stack.idxOf node + 1), ?_, ?_⟩, ?_⟩
  · rw [Search.cycle, if_pos hmem, hhead]
  · rw [hcycle]
    exact hchain.drop _
  · intro a ha
    rw [Search.cycle, if_pos hmem, List.mem_append, List.mem_singleton] at ha
    rcases ha with ha | rfl
    · exact List.mem_of_mem_drop ha
    · exact hmem

theorem Consistent.length_le (h : Consistent next nodes s) : s.stack.length ≤ nodes.length :=
  (List.subperm_of_subset h.nodup h.stack_subset).length_le

theorem visited_foldlM {fuel : ℕ}
    (hvisit : ∀ s node, Consistent next nodes s → (s.stack ++ [node]).IsChain (Edge next) →
      node ∈ nodes → nodes.length < fuel + s.stack.length →
        Visited next nodes s [node] (visit next fuel s node))
    (targets : List α) (h : Consistent next nodes s)
    (hchain : ∀ a ∈ targets, (s.stack ++ [a]).IsChain (Edge next))
    (hnodes : ∀ a ∈ targets, a ∈ nodes) (hfuel : nodes.length < fuel + s.stack.length) :
    Visited next nodes s targets (targets.foldlM (visit next fuel) s) := by
  induction targets generalizing s with
  | nil =>
      apply Visited.done h rfl
      · exact fun a ha => ha
      · intro a ha
        cases ha
  | cons a targets ih =>
      have hfirst := hvisit s a h (hchain a List.mem_cons_self) (hnodes a List.mem_cons_self) hfuel
      rw [List.foldlM_cons]
      cases hresult : visit next fuel s a with
      | error walk =>
          rw [hresult] at hfirst
          cases hfirst with
          | found hcycle hinside => exact Visited.found hcycle hinside
      | ok s' =>
          rw [hresult] at hfirst
          cases hfirst with
          | done hconsistent hstack hkept hleft =>
              have hrest := @ih s' hconsistent
                (fun b hb => hstack ▸ hchain b (List.mem_cons_of_mem a hb))
                (fun b hb => hnodes b (List.mem_cons_of_mem a hb)) (hstack ▸ hfuel)
              show Visited next nodes s (a :: targets) (targets.foldlM (visit next fuel) s')
              cases hfinal : targets.foldlM (visit next fuel) s' with
              | error walk =>
                  rw [hfinal] at hrest
                  cases hrest with
                  | found hcycle hinside => exact Visited.found hcycle hinside
              | ok s'' =>
                  rw [hfinal] at hrest
                  cases hrest with
                  | done hconsistent' hstack' hkept' hleft' =>
                      apply Visited.done hconsistent' (hstack'.trans hstack)
                      · exact fun b hb => hkept' b (hkept b hb)
                      · intro b hb
                        rcases List.mem_cons.mp hb with rfl | hb
                        · exact hkept' b (hleft b List.mem_cons_self)
                        · exact hleft' b hb

theorem visited_visit (hclosed : ∀ a ∈ nodes, ∀ b ∈ next a, b ∈ nodes) (fuel : ℕ)
    (s : Search α) (node : α) (h : Consistent next nodes s)
    (hchain : (s.stack ++ [node]).IsChain (Edge next)) (hnode : node ∈ nodes)
    (hfuel : nodes.length < fuel + s.stack.length) :
    Visited next nodes s [node] (visit next fuel s node) := by
  induction fuel generalizing s node with
  | zero =>
      have hle := h.length_le
      omega
  | succ fuel ih =>
      rw [visit]
      cases hmark : s.state.get? node with
      | some mark =>
          cases mark with
          | left =>
              apply Visited.done h rfl
              · exact fun a ha => ha
              · intro a ha
                rw [List.mem_singleton.mp ha]
                exact hmark
          | entered =>
              obtain ⟨hcycle, hinside⟩ := isCycle_cycle ((h.entered_iff node).mp hmark) hchain
              exact Visited.found hcycle fun a ha => h.stack_subset a (hinside a ha)
      | none =>
          have henter := h.enter hmark hnode
          have hinner := visited_foldlM ih (next node) henter
            (by
              intro a ha
              apply List.IsChain.append hchain (List.isChain_singleton a)
              intro x hx y hy
              rw [List.getLast?_concat, Option.mem_some_iff] at hx
              rw [List.head?_cons, Option.mem_some_iff] at hy
              rw [← hx, ← hy]
              exact ha)
            (hclosed node hnode)
            (by
              rw [Search.enter, List.length_append, List.length_singleton]
              omega)
          dsimp only
          cases hresult : (next node).foldlM (visit next fuel) (s.enter node) with
          | error walk =>
              rw [hresult] at hinner
              cases hinner with
              | found hcycle hinside => exact Visited.found hcycle hinside
          | ok inner =>
              rw [hresult] at hinner
              cases hinner with
              | done hconsistent hstack hkept hleft =>
                  apply Visited.done (hconsistent.leave hstack hleft)
                  · rw [Search.leave, hstack, Search.enter, List.dropLast_concat]
                  · intro a ha
                    rw [Search.left_leave_iff]
                    exact Or.inr (hkept a ((Search.left_enter_iff hmark a).mpr ha))
                  · intro a ha
                    rw [List.mem_singleton.mp ha, Search.left_leave_iff]
                    exact Or.inl rfl

theorem visited_run (hclosed : ∀ a ∈ nodes, ∀ b ∈ next a, b ∈ nodes) :
    Visited next nodes Search.start nodes (run next nodes) := by
  apply visited_foldlM (visited_visit hclosed _) nodes consistent_start
  · exact fun a _ => List.isChain_singleton a
  · exact fun a ha => ha
  · rw [Search.start, List.length_nil]
    omega

/-- The search ends well exactly when no node is on a cycle. -/
theorem run_ok_iff (hclosed : ∀ a ∈ nodes, ∀ b ∈ next a, b ∈ nodes) :
    (∃ s, run next nodes = .ok s) ↔ ∀ a ∈ nodes, ¬ Relation.TransGen (Edge next) a a := by
  have hrun := visited_run hclosed
  cases hresult : run next nodes with
  | ok s =>
      rw [hresult] at hrun
      cases hrun with
      | done hconsistent _ _ hleft =>
          exact iff_of_true ⟨s, rfl⟩ fun a ha => hconsistent.acyclic a (hleft a ha)
  | error walk =>
      rw [hresult] at hrun
      cases hrun with
      | found hcycle hinside =>
          obtain ⟨a, hhead, hloop⟩ := hcycle.exists_transGen
          apply iff_of_false
          · rintro ⟨s, hs⟩
            cases hs
          · exact fun hnone => hnone a (hinside a (List.mem_of_mem_head? hhead)) hloop

/-- What the search reports is a cycle. -/
theorem isCycle_of_run_error (hclosed : ∀ a ∈ nodes, ∀ b ∈ next a, b ∈ nodes) {walk : List α}
    (h : run next nodes = .error walk) : IsCycle next walk := by
  have hrun := visited_run hclosed
  rw [h] at hrun
  cases hrun with
  | found hcycle _ => exact hcycle

end DepthFirst

end Base
