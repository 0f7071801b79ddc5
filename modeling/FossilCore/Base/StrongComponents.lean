import Mathlib.Data.Finset.Basic
import Mathlib.Data.Finset.Dedup
import FossilCore.Base.DepthFirst
import FossilCore.Base.KeyMap

/-!
# Strongly connected components

Tarjan's search for the components that contain a cycle.  A node gets an index when it is entered,
and lies on the stack until its component is popped; its lowlink is the least index of a node on
the stack that the search has found a way to.  The nodes of the calls under way are `open_nodes`
in the proofs: a node on the stack reaches one of them that was entered before it, and each of them
reaches what was put on the stack after it.  The search recurses on a fuel argument, of which the
number of nodes is enough.
-/

namespace Base

namespace StrongComponents

open DepthFirst (Edge)

variable {α : Type} [LinearOrder α]

/-- The stack is listed with its top first. -/
structure State (α : Type) [LinearOrder α] where
  index : ℕ
  indices : Dict α ℕ
  lowlinks : Dict α ℕ
  stack : List α
  on_stack : Finset α
  components : List (List α)

namespace State

def empty : State α := ⟨0, .empty, .empty, [], ∅, []⟩

def indexOf (s : State α) (node : α) : ℕ := (s.indices.get? node).getD 0

def lowlink (s : State α) (node : α) : ℕ := (s.lowlinks.get? node).getD 0

def enter (s : State α) (node : α) : State α :=
  { s with
    indices := s.indices.set node s.index
    lowlinks := s.lowlinks.set node s.index
    index := s.index + 1
    stack := node :: s.stack
    on_stack := insert node s.on_stack }

def lower (s : State α) (node : α) (value : ℕ) : State α :=
  { s with lowlinks := s.lowlinks.set node (min (s.lowlink node) value) }

end State

/-- What is popped from a stack up to a node, and what is left. -/
def popUntil (node : α) : List α → List α × List α
  | [] => ([], [])
  | member :: rest =>
      if member = node then ([member], rest)
      else
        let (component, left) := popUntil node rest
        (member :: component, left)

def State.leave (next : α → List α) (s : State α) (node : α) : State α :=
  if s.lowlink node ≠ s.indexOf node then s
  else
    let (component, stack) := popUntil node s.stack
    let ordered := sorted component
    { s with
      stack
      on_stack := s.on_stack \ component.toFinset
      components :=
        if 1 < ordered.length ∨ node ∈ next node then s.components ++ [ordered]
        else s.components }

/-- One turn of the loop over the targets of a node. -/
def follow (visit : State α → α → State α) (node : α) (s : State α) (target : α) : State α :=
  if s.indices.contains target = false then
    let s := visit s target
    s.lower node (s.lowlink target)
  else if target ∈ s.on_stack then s.lower node (s.indexOf target)
  else s

def visit (next : α → List α) : ℕ → State α → α → State α
  | 0, s, _ => s
  | fuel + 1, s, node =>
      ((next node).foldl (follow (visit next fuel) node) (s.enter node)).leave next node

def run (next : α → List α) (nodes : List α) : State α :=
  nodes.foldl (fun s node =>
    if s.indices.contains node = false then visit next nodes.length s node else s) .empty

/-! ## Components -/

section Graph

variable (next : α → List α)

def Reach (a b : α) : Prop := Relation.ReflTransGen (Edge next) a b

def Mutual (a b : α) : Prop := Reach next a b ∧ Reach next b a

/-- The list is the component of a node on a cycle, in order. -/
structure Lists (a : α) (c : List α) : Prop where
  cyclic : Relation.TransGen (Edge next) a a
  mem_iff : ∀ b, b ∈ c ↔ Mutual next a b
  ordered : c.Pairwise (· < ·)

variable {next} {a b c : α}

omit [LinearOrder α] in
theorem Mutual.symm (h : Mutual next a b) : Mutual next b a := ⟨h.2, h.1⟩

omit [LinearOrder α] in
theorem Mutual.trans (h : Mutual next a b) (h' : Mutual next b c) : Mutual next a c :=
  ⟨Relation.ReflTransGen.trans h.1 h'.1, Relation.ReflTransGen.trans h'.2 h.2⟩

/-- A component is listed in one way. -/
theorem Lists.unique {xs ys : List α} (h : Lists next a xs) (h' : Lists next b ys)
    (hmutual : Mutual next a b) : xs = ys := by
  have hperm : xs.Perm ys := by
    refine (List.perm_ext_iff_of_nodup (h.ordered.imp ne_of_lt) (h'.ordered.imp ne_of_lt)).mpr ?_
    intro x
    rw [h.mem_iff, h'.mem_iff]
    exact ⟨hmutual.symm.trans, hmutual.trans⟩
  exact hperm.eq_of_pairwise (fun x y _ _ hxy hyx => absurd hyx (lt_asymm hxy)) h.ordered h'.ordered

omit [LinearOrder α] in
/-- A set that no edge leaves is not left. -/
theorem Reach.induct {P : α → Prop} (h : Reach next a b) (ha : P a)
    (hstep : ∀ x y, P x → y ∈ next x → P y) : P b := by
  induction h with
  | refl => exact ha
  | tail _ hedge ih => exact hstep _ _ ih hedge

end Graph

/-! ## What holds between two calls -/

namespace State

def Visited (s : State α) (a : α) : Prop := ∃ i, s.indices.get? a = some i

/-- The component of the node has been popped. -/
def Done (s : State α) (a : α) : Prop := s.Visited a ∧ a ∉ s.stack

end State

section Invariant

variable (next : α → List α) (nodes open_nodes : List α)

/-- The components listed so far are those of the nodes that are done. -/
structure Collected (s : State α) : Prop where
  sound : ∀ c ∈ s.components, ∃ a, s.Done a ∧ Lists next a c
  complete : ∀ a, s.Done a → Relation.TransGen (Edge next) a a → ∃ c ∈ s.components, a ∈ c
  nodup : s.components.Nodup

structure Consistent (s : State α) : Prop where
  counted : s.indices.keys.length = s.index
  below : ∀ a i, s.indices.get? a = some i → i < s.index
  inside : ∀ a, s.Visited a → a ∈ nodes
  on_stack_iff : ∀ a, a ∈ s.on_stack ↔ a ∈ s.stack
  visited : ∀ a ∈ s.stack, s.Visited a
  descending : s.stack.Pairwise fun a b => s.indexOf b < s.indexOf a
  open_subset : ∀ a ∈ open_nodes, a ∈ s.stack
  followed : ∀ a, s.Visited a → a ∉ open_nodes → ∀ b ∈ next a, s.Visited b
  closed : ∀ a, s.Done a → ∀ b ∈ next a, s.Done b
  returns : ∀ b ∈ s.stack, ∃ a ∈ open_nodes, s.indexOf a ≤ s.indexOf b ∧ Reach next b a
  spans : ∀ a ∈ open_nodes, ∀ b ∈ s.stack, s.indexOf a ≤ s.indexOf b → Reach next a b
  collected : Collected next s

end Invariant

variable {next : α → List α} {nodes open_nodes : List α} {s t : State α} {node a b : α}

theorem State.indexOf_of_get? {i : ℕ} (h : s.indices.get? a = some i) : s.indexOf a = i := by
  rw [State.indexOf, h]
  rfl

theorem State.not_visited_iff : s.indices.contains a = false ↔ ¬ s.Visited a := by
  rw [← Bool.not_eq_true, Dict.contains_iff]
  rfl

theorem consistent_empty : Consistent next nodes [] (.empty : State α) where
  counted := rfl
  below _ _ h := nomatch h
  inside _ := fun ⟨_, h⟩ => nomatch h
  on_stack_iff a := by simp [State.empty]
  visited _ h := nomatch h
  descending := .nil
  open_subset _ h := nomatch h
  followed _ := fun ⟨_, h⟩ => nomatch h
  closed _ := fun ⟨⟨_, h⟩, _⟩ => nomatch h
  returns _ h := nomatch h
  spans _ h := nomatch h
  collected :=
    { sound := fun _ h => nomatch h
      complete := fun _ ⟨⟨_, h⟩, _⟩ => nomatch h
      nodup := .nil }

theorem Consistent.notMem_stack (h : Consistent next nodes open_nodes s) (hnew : ¬ s.Visited a) :
    a ∉ s.stack := fun hmem => hnew (h.visited a hmem)

theorem Consistent.nodup_stack (h : Consistent next nodes open_nodes s) : s.stack.Nodup :=
  h.descending.imp fun hlt heq => by
    rw [heq] at hlt
    exact lt_irrefl _ hlt

theorem Consistent.indexOf_lt (h : Consistent next nodes open_nodes s) (ha : s.Visited a) :
    s.indexOf a < s.index := by
  obtain ⟨i, hi⟩ := ha
  rw [State.indexOf_of_get? hi]
  exact h.below a i hi

/-! ## Entering a node -/

theorem State.get?_enter (s : State α) (node a : α) :
    (s.enter node).indices.get? a = if node = a then some s.index else s.indices.get? a :=
  Dict.get?_set _ _ _ _

theorem State.visited_enter_iff : (s.enter node).Visited a ↔ a = node ∨ s.Visited a := by
  rw [State.Visited, State.get?_enter]
  by_cases ha : node = a
  · simp [ha]
  · simp [ha, Ne.symm ha, State.Visited]

theorem State.indexOf_enter_self (s : State α) (node : α) :
    (s.enter node).indexOf node = s.index := by
  rw [State.indexOf, State.get?_enter, if_pos rfl]
  rfl

theorem State.indexOf_enter_ne (s : State α) (ha : a ≠ node) :
    (s.enter node).indexOf a = s.indexOf a := by
  rw [State.indexOf, State.get?_enter, if_neg (Ne.symm ha)]
  rfl

theorem State.done_enter_iff (hnew : ¬ s.Visited node) : (s.enter node).Done a ↔ s.Done a := by
  change ((s.enter node).Visited a ∧ a ∉ node :: s.stack) ↔ _
  rw [State.visited_enter_iff, List.mem_cons, State.Done]
  constructor
  · rintro ⟨hvisited, hnot⟩
    exact ⟨hvisited.resolve_left fun ha => hnot (Or.inl ha), fun hmem => hnot (Or.inr hmem)⟩
  · rintro ⟨hvisited, hnot⟩
    refine ⟨Or.inr hvisited, ?_⟩
    rintro (rfl | hmem)
    · exact hnew hvisited
    · exact hnot hmem

theorem Consistent.enter (h : Consistent next nodes open_nodes s) (hnew : ¬ s.Visited node)
    (hnode : node ∈ nodes) (hreach : ∀ a ∈ open_nodes, Reach next a node) :
    Consistent next nodes (node :: open_nodes) (s.enter node) := by
  have hne : ∀ a ∈ s.stack, a ≠ node := by
    rintro a ha rfl
    exact hnew (h.visited a ha)
  have hkey : node ∉ s.indices.keys := fun hmem => hnew (Dict.mem_keys_iff.mp hmem)
  constructor
  · change (s.indices.set node s.index).keys.length = s.index + 1
    rw [Dict.keys_set, if_neg hkey, List.length_append, h.counted, List.length_singleton]
  · intro a i hi
    change i < s.index + 1
    rw [State.get?_enter] at hi
    split_ifs at hi with ha
    · cases hi
      exact Nat.lt_succ_self _
    · exact (h.below a i hi).trans (Nat.lt_succ_self _)
  · intro a ha
    rcases State.visited_enter_iff.mp ha with rfl | ha
    · exact hnode
    · exact h.inside a ha
  · intro a
    change a ∈ insert node s.on_stack ↔ a ∈ node :: s.stack
    rw [Finset.mem_insert, List.mem_cons, h.on_stack_iff]
  · intro a ha
    rw [State.visited_enter_iff]
    exact (List.mem_cons.mp ha).imp_right (h.visited a)
  · refine List.pairwise_cons.mpr ⟨fun a ha => ?_, ?_⟩
    · rw [State.indexOf_enter_self, State.indexOf_enter_ne s (hne a ha)]
      exact h.indexOf_lt (h.visited a ha)
    · refine h.descending.imp_of_mem fun ha hb hlt => ?_
      rwa [State.indexOf_enter_ne s (hne _ ha), State.indexOf_enter_ne s (hne _ hb)]
  · intro a ha
    rcases List.mem_cons.mp ha with rfl | ha
    · exact List.mem_cons_self
    · exact List.mem_cons_of_mem _ (h.open_subset a ha)
  · intro a ha hnot b hb
    obtain ⟨hane, hnot⟩ := List.ne_and_not_mem_of_not_mem_cons hnot
    have hvisited := (State.visited_enter_iff.mp ha).resolve_left hane
    exact State.visited_enter_iff.mpr (Or.inr (h.followed a hvisited hnot b hb))
  · intro a ha b hb
    rw [State.done_enter_iff hnew] at ha ⊢
    exact h.closed a ha b hb
  · intro b hb
    rcases List.mem_cons.mp hb with rfl | hb
    · exact ⟨b, List.mem_cons_self, le_rfl, .refl⟩
    · obtain ⟨a, ha, hle, hback⟩ := h.returns b hb
      refine ⟨a, List.mem_cons_of_mem _ ha, ?_, hback⟩
      rwa [State.indexOf_enter_ne s (hne a (h.open_subset a ha)),
        State.indexOf_enter_ne s (hne b hb)]
  · intro a ha b hb hle
    rcases List.mem_cons.mp ha with rfl | hopen
    · rcases List.mem_cons.mp hb with rfl | hb
      · exact .refl
      · rw [State.indexOf_enter_self, State.indexOf_enter_ne s (hne b hb)] at hle
        exact absurd (h.indexOf_lt (h.visited b hb)) (not_lt.mpr hle)
    · rcases List.mem_cons.mp hb with rfl | hb
      · exact hreach a hopen
      · rw [State.indexOf_enter_ne s (hne a (h.open_subset a hopen)),
          State.indexOf_enter_ne s (hne b hb)] at hle
        exact h.spans a hopen b hb hle
  · constructor
    · intro c hc
      obtain ⟨a, ha, hlists⟩ := h.collected.sound c hc
      exact ⟨a, (State.done_enter_iff hnew).mpr ha, hlists⟩
    · intro a ha hcycle
      exact h.collected.complete a ((State.done_enter_iff hnew).mp ha) hcycle
    · exact h.collected.nodup

/-! ## Lowering a lowlink -/

theorem State.lowlink_lower_self (s : State α) (node : α) (value : ℕ) :
    (s.lower node value).lowlink node = min (s.lowlink node) value := by
  change ((s.lowlinks.set node _).get? node).getD 0 = _
  rw [Dict.get?_set_self]
  rfl

theorem State.lowlinks_lower_ne (s : State α) (value : ℕ) (ha : a ≠ node) :
    (s.lower node value).lowlinks.get? a = s.lowlinks.get? a :=
  Dict.get?_set_ne _ _ ha

theorem Consistent.lower (h : Consistent next nodes open_nodes s) (node : α) (value : ℕ) :
    Consistent next nodes open_nodes (s.lower node value) :=
  ⟨h.counted, h.below, h.inside, h.on_stack_iff, h.visited, h.descending, h.open_subset,
    h.followed, h.closed, h.returns, h.spans,
    ⟨h.collected.sound, h.collected.complete, h.collected.nodup⟩⟩

/-! ## The loop over the targets -/

/-- What a call leaves alone. -/
structure Extends (s t : State α) : Prop where
  index : ∀ a i, s.indices.get? a = some i → t.indices.get? a = some i
  lowlink : ∀ a, s.Visited a → t.lowlinks.get? a = s.lowlinks.get? a
  stack : ∃ new, t.stack = new ++ s.stack ∧ ∀ a ∈ new, ¬ s.Visited a

/-- After a call of `visit`, the lowlink is that of the least node on the stack which the new
part of the stack has an edge to. -/
structure Returned (next : α → List α) (nodes open_nodes : List α) (s : State α) (node : α)
    (t : State α) : Prop where
  consistent : Consistent next nodes open_nodes t
  extend : Extends s t
  entered : t.indices.get? node = some s.index
  low_le : t.lowlink node ≤ s.index
  low_found : node ∈ t.stack →
    ∃ a ∈ t.stack, t.indexOf a = t.lowlink node ∧ Reach next node a
  low_popped : node ∉ t.stack → t.lowlink node = s.index
  low_least : ∀ a ∈ t.stack, a ∉ s.stack → ∀ b ∈ next a, b ∈ s.stack →
    t.lowlink node ≤ t.indexOf b

/-- Between two turns of the loop, when the targets in `followed` have been looked at. -/
structure Scanning (next : α → List α) (nodes open_nodes : List α) (s : State α) (node : α)
    (followed : List α) (t : State α) : Prop where
  consistent : Consistent next nodes (node :: open_nodes) t
  index : ∀ a i, s.indices.get? a = some i → t.indices.get? a = some i
  lowlink : ∀ a, s.Visited a → t.lowlinks.get? a = s.lowlinks.get? a
  stack : ∃ new, t.stack = new ++ node :: s.stack ∧ ∀ a ∈ new, ¬ s.Visited a
  entered : t.indices.get? node = some s.index
  low_le : t.lowlink node ≤ s.index
  low_found : ∃ a ∈ t.stack, t.indexOf a = t.lowlink node ∧ Reach next node a
  low_least : ∀ a ∈ t.stack, a ∉ node :: s.stack → ∀ b ∈ next a, b ∈ s.stack →
    t.lowlink node ≤ t.indexOf b
  low_followed : ∀ b ∈ followed, t.Visited b ∧ (b ∈ s.stack → t.lowlink node ≤ t.indexOf b)

section Loop

variable {followed : List α}

theorem scanning_enter (h : Consistent next nodes open_nodes s) (hnew : ¬ s.Visited node)
    (hnode : node ∈ nodes) (hreach : ∀ a ∈ open_nodes, Reach next a node) :
    Scanning next nodes open_nodes s node [] (s.enter node) where
  consistent := h.enter hnew hnode hreach
  index a i hi := by
    rw [State.get?_enter, if_neg, hi]
    rintro rfl
    exact hnew ⟨i, hi⟩
  lowlink a ha := by
    refine Dict.get?_set_ne _ _ ?_
    rintro rfl
    exact hnew ha
  stack := ⟨[], rfl, fun a ha => nomatch ha⟩
  entered := by rw [State.get?_enter, if_pos rfl]
  low_le := by
    change ((s.lowlinks.set node s.index).get? node).getD 0 ≤ _
    rw [Dict.get?_set_self]
    exact le_rfl
  low_found := by
    refine ⟨node, List.mem_cons_self, ?_, .refl⟩
    rw [State.indexOf_enter_self]
    change _ = ((s.lowlinks.set node s.index).get? node).getD 0
    rw [Dict.get?_set_self]
    rfl
  low_least a ha hnot := absurd ha hnot
  low_followed b hb := nomatch hb

theorem Scanning.node_mem (h : Scanning next nodes open_nodes s node followed t) :
    node ∈ t.stack := by
  obtain ⟨new, hstack, -⟩ := h.stack
  rw [hstack]
  simp

theorem Scanning.mem_stack (h : Scanning next nodes open_nodes s node followed t)
    (ha : a ∈ s.stack) : a ∈ t.stack := by
  obtain ⟨new, hstack, -⟩ := h.stack
  rw [hstack]
  simp [ha]

/-- The nodes that were on the stack before have smaller indices. -/
theorem Scanning.indexOf_lt (hs : Consistent next nodes open_nodes s)
    (h : Scanning next nodes open_nodes s node followed t) (ha : a ∈ s.stack) :
    t.indexOf a < s.index := by
  obtain ⟨i, hi⟩ := hs.visited a ha
  rw [State.indexOf_of_get? (h.index a i hi)]
  exact hs.below a i hi

/-- A smaller lowlink, of a node on the stack that `node` reaches, still fits. -/
theorem Scanning.lower (h : Scanning next nodes open_nodes s node followed t)
    (hnew : ¬ s.Visited node) {value : ℕ}
    (hvalue : value < t.lowlink node → ∃ a ∈ t.stack, t.indexOf a = value ∧ Reach next node a) :
    Scanning next nodes open_nodes s node followed (t.lower node value) where
  consistent := h.consistent.lower node value
  index := h.index
  lowlink a ha := by
    rw [State.lowlinks_lower_ne]
    · exact h.lowlink a ha
    · rintro rfl
      exact hnew ha
  stack := h.stack
  entered := h.entered
  low_le := by
    rw [State.lowlink_lower_self]
    exact (min_le_left _ _).trans h.low_le
  low_found := by
    rw [State.lowlink_lower_self]
    rcases lt_or_ge value (t.lowlink node) with hlt | hge
    · rw [min_eq_right hlt.le]
      exact hvalue hlt
    · rw [min_eq_left hge]
      exact h.low_found
  low_least a ha hnot b hb hmem := by
    rw [State.lowlink_lower_self]
    exact (min_le_left _ _).trans (h.low_least a ha hnot b hb hmem)
  low_followed b hb := by
    obtain ⟨hvisited, hle⟩ := h.low_followed b hb
    refine ⟨hvisited, fun hmem => ?_⟩
    rw [State.lowlink_lower_self]
    exact (min_le_left _ _).trans (hle hmem)

theorem Scanning.concat (h : Scanning next nodes open_nodes s node followed t)
    (hvisited : t.Visited b) (hlow : b ∈ s.stack → t.lowlink node ≤ t.indexOf b) :
    Scanning next nodes open_nodes s node (followed ++ [b]) t :=
  { h with
    low_followed := by
      intro c hc
      rcases List.mem_append.mp hc with hc | hc
      · exact h.low_followed c hc
      · rw [List.mem_singleton.mp hc]
        exact ⟨hvisited, hlow⟩ }

theorem Extends.visited (h : Extends s t) (ha : s.Visited a) : t.Visited a := by
  obtain ⟨i, hi⟩ := ha
  exact ⟨i, h.index a i hi⟩

theorem Extends.indexOf_eq (h : Extends s t) (ha : s.Visited a) : t.indexOf a = s.indexOf a := by
  obtain ⟨i, hi⟩ := ha
  rw [State.indexOf_of_get? hi, State.indexOf_of_get? (h.index a i hi)]

theorem Extends.lowlink_eq (h : Extends s t) (ha : s.Visited a) : t.lowlink a = s.lowlink a := by
  rw [State.lowlink, h.lowlink a ha]
  rfl

/-- After a call for a target, the lowlink is lowered to the target's. -/
theorem Scanning.call {t' : State α} (h : Scanning next nodes open_nodes s node followed t)
    (hnew : ¬ s.Visited node) (hb : b ∈ next node)
    (hcall : Returned next nodes (node :: open_nodes) t b t') :
    Scanning next nodes open_nodes s node (followed ++ [b])
      (t'.lower node (t'.lowlink b)) := by
  have hold : ∀ a, s.Visited a → t.Visited a := fun a ⟨i, hi⟩ => ⟨i, h.index a i hi⟩
  have hnode : t.Visited node := ⟨s.index, h.entered⟩
  have hlow : (t'.lower node (t'.lowlink b)).lowlink node = min (t.lowlink node) (t'.lowlink b) := by
    rw [State.lowlink_lower_self, hcall.extend.lowlink_eq hnode]
  obtain ⟨new, hstack, hfresh⟩ := h.stack
  obtain ⟨new', hstack', hfresh'⟩ := hcall.extend.stack
  have hmem : ∀ a ∈ t.stack, a ∈ t'.stack := by
    intro a ha
    rw [hstack']
    exact List.mem_append_right _ ha
  constructor
  · exact hcall.consistent.lower node _
  · exact fun a i hi => hcall.extend.index a i (h.index a i hi)
  · intro a ha
    have hne : a ≠ node := by
      rintro rfl
      exact hnew ha
    rw [State.lowlinks_lower_ne _ _ hne, hcall.extend.lowlink a (hold a ha), h.lowlink a ha]
  · refine ⟨new' ++ new, ?_, fun a ha => ?_⟩
    · rw [List.append_assoc, ← hstack]
      exact hstack'
    · rcases List.mem_append.mp ha with ha | ha
      · exact fun hvisited => hfresh' a ha (hold a hvisited)
      · exact hfresh a ha
  · exact hcall.extend.index node _ h.entered
  · rw [hlow]
    exact (min_le_left _ _).trans h.low_le
  · rw [hlow]
    rcases lt_or_ge (t'.lowlink b) (t.lowlink node) with hlt | hge
    · rw [min_eq_right hlt.le]
      have hon : b ∈ t'.stack := by
        by_contra hnot
        have hbelow := h.consistent.below node _ h.entered
        have hle := h.low_le
        rw [hcall.low_popped hnot] at hlt
        omega
      obtain ⟨a, ha, hindex, hreach⟩ := hcall.low_found hon
      exact ⟨a, ha, hindex, .head hb hreach⟩
    · rw [min_eq_left hge]
      obtain ⟨a, ha, hindex, hreach⟩ := h.low_found
      refine ⟨a, hmem a ha, ?_, hreach⟩
      rw [← hindex]
      exact hcall.extend.indexOf_eq (h.consistent.visited a ha)
  · intro a ha hnot c hc hcs
    have hct : c ∈ t.stack := h.mem_stack hcs
    have hindex : t'.indexOf c = t.indexOf c :=
      hcall.extend.indexOf_eq (h.consistent.visited c hct)
    rw [hlow]
    change _ ≤ t'.indexOf c
    by_cases hat : a ∈ t.stack
    · rw [hindex]
      exact (min_le_left _ _).trans (h.low_least a hat hnot c hc hcs)
    · exact (min_le_right _ _).trans (hcall.low_least a ha hat c hc hct)
  · intro c hc
    rcases List.mem_append.mp hc with hc | hc
    · obtain ⟨hvisited, hle⟩ := h.low_followed c hc
      refine ⟨hcall.extend.visited hvisited, fun hcs => ?_⟩
      rw [hlow]
      change _ ≤ t'.indexOf c
      rw [hcall.extend.indexOf_eq hvisited]
      exact (min_le_left _ _).trans (hle hcs)
    · obtain rfl := List.mem_singleton.mp hc
      refine ⟨⟨t.index, hcall.entered⟩, fun _ => ?_⟩
      rw [hlow]
      change _ ≤ t'.indexOf c
      rw [State.indexOf_of_get? hcall.entered]
      exact (min_le_right _ _).trans hcall.low_le

/-- What is shown of a call with this much fuel. -/
def Calls (next : α → List α) (nodes : List α) (fuel : ℕ) : Prop :=
  ∀ (open_nodes : List α) (s : State α) (node : α), Consistent next nodes open_nodes s →
    ¬ s.Visited node → node ∈ nodes → (∀ a ∈ open_nodes, Reach next a node) →
      nodes.length ≤ s.index + fuel →
        Returned next nodes open_nodes s node (visit next fuel s node)

theorem Scanning.follow {fuel : ℕ} (hcalls : Calls next nodes fuel)
    (hs : Consistent next nodes open_nodes s)
    (h : Scanning next nodes open_nodes s node followed t) (hnew : ¬ s.Visited node)
    (hfuel : nodes.length ≤ s.index + 1 + fuel) (hb : b ∈ next node) (hinside : b ∈ nodes) :
    Scanning next nodes open_nodes s node (followed ++ [b])
      (StrongComponents.follow (visit next fuel) node t b) := by
  rw [StrongComponents.follow]
  split_ifs with hvisited hon
  · have hreach : ∀ a ∈ node :: open_nodes, Reach next a b := by
      intro a ha
      rcases List.mem_cons.mp ha with rfl | ha
      · exact .single hb
      · refine .tail (h.consistent.spans a (List.mem_cons_of_mem _ ha) node h.node_mem ?_) hb
        rw [State.indexOf_of_get? h.entered]
        exact (h.indexOf_lt hs (hs.open_subset a ha)).le
    have hbelow := h.consistent.below node _ h.entered
    exact h.call hnew hb (hcalls _ t b h.consistent (State.not_visited_iff.mp hvisited) hinside
      hreach (by omega))
  · have hmem : b ∈ t.stack := (h.consistent.on_stack_iff b).mp hon
    refine (h.lower hnew fun _ => ⟨b, hmem, rfl, .single hb⟩).concat
      (h.consistent.visited b hmem) fun _ => ?_
    rw [State.lowlink_lower_self]
    exact min_le_right _ _
  · have hseen : t.Visited b := by
      by_contra hnot
      exact hvisited (State.not_visited_iff.mpr hnot)
    refine h.concat hseen fun hmem => ?_
    exact absurd ((h.consistent.on_stack_iff b).mpr (h.mem_stack hmem)) hon

theorem Scanning.foldl {fuel : ℕ} (hcalls : Calls next nodes fuel)
    (hs : Consistent next nodes open_nodes s) (hnew : ¬ s.Visited node)
    (hfuel : nodes.length ≤ s.index + 1 + fuel) {targets : List α}
    (htargets : ∀ b ∈ targets, b ∈ next node ∧ b ∈ nodes)
    (h : Scanning next nodes open_nodes s node followed t) :
    Scanning next nodes open_nodes s node (followed ++ targets)
      (targets.foldl (StrongComponents.follow (visit next fuel) node) t) := by
  induction targets generalizing followed t with
  | nil => simpa using h
  | cons b targets ih =>
      obtain ⟨hb, hinside⟩ := htargets b List.mem_cons_self
      have hstep := h.follow hcalls hs hnew hfuel hb hinside
      have hrest := ih (fun c hc => htargets c (List.mem_cons_of_mem b hc)) hstep
      rwa [List.append_assoc] at hrest

end Loop

/-! ## Leaving a node -/

section Leave

theorem Scanning.followed_of_not_open (h : Scanning next nodes open_nodes s node (next node) t)
    (ha : t.Visited a) (hnot : a ∉ open_nodes) : ∀ b ∈ next a, t.Visited b := by
  intro b hb
  by_cases hnode : a = node
  · subst hnode
    exact (h.low_followed b hb).1
  · exact h.consistent.followed a ha (List.not_mem_cons_of_ne_of_not_mem hnode hnot) b hb

theorem Scanning.notMem_new {followed new : List α}
    (h : Scanning next nodes open_nodes s node followed t)
    (hstack : t.stack = new ++ node :: s.stack) : node ∉ new ∧ ∀ a ∈ new, a ∉ s.stack := by
  have hnodup := h.consistent.nodup_stack
  rw [hstack] at hnodup
  obtain ⟨-, -, hdisjoint⟩ := List.nodup_append.mp hnodup
  exact ⟨fun hmem => hdisjoint node hmem node List.mem_cons_self rfl,
    fun a ha hmem => hdisjoint a ha a (List.mem_cons_of_mem _ hmem) rfl⟩

variable (hs : Consistent next nodes open_nodes s)
  (h : Scanning next nodes open_nodes s node (next node) t) (hnew : ¬ s.Visited node)

include hs h hnew

/-- A node from which an older one can be reached stays on the stack. -/
theorem Scanning.leave_lower (hlow : t.lowlink node ≠ t.indexOf node) :
    Returned next nodes open_nodes s node t := by
  have hindex : t.indexOf node = s.index := State.indexOf_of_get? h.entered
  have hlt : t.lowlink node < s.index := lt_of_le_of_ne h.low_le (hindex ▸ hlow)
  obtain ⟨new, hstack, hfresh⟩ := h.stack
  refine ⟨⟨h.consistent.counted, h.consistent.below, h.consistent.inside,
    h.consistent.on_stack_iff, h.consistent.visited, h.consistent.descending, ?_, ?_,
    h.consistent.closed, ?_, ?_, h.consistent.collected⟩, ⟨h.index, h.lowlink, ?_⟩, h.entered,
    h.low_le, fun _ => h.low_found, fun hnot => absurd h.node_mem hnot, ?_⟩
  · exact fun a ha => h.mem_stack (hs.open_subset a ha)
  · exact fun a ha hnot => h.followed_of_not_open ha hnot
  · intro b hb
    obtain ⟨a, ha, hle, hback⟩ := h.consistent.returns b hb
    rcases List.mem_cons.mp ha with rfl | ha
    · -- `node` is left: go on to the older node it has found, and from there to an open one
      obtain ⟨c, hc, hcindex, hreach⟩ := h.low_found
      obtain ⟨d, hd, hdle, hreturn⟩ := h.consistent.returns c hc
      rcases List.mem_cons.mp hd with rfl | hd
      · omega
      · exact ⟨d, hd, by omega, hback.trans (hreach.trans hreturn)⟩
    · exact ⟨a, ha, hle, hback⟩
  · exact fun a ha => h.consistent.spans a (List.mem_cons_of_mem _ ha)
  · refine ⟨new ++ [node], by simp [hstack], fun a ha => ?_⟩
    rcases List.mem_append.mp ha with ha | ha
    · exact hfresh a ha
    · rw [List.mem_singleton.mp ha]
      exact hnew
  · intro a ha hnot b hb hmem
    by_cases hnode : a = node
    · subst hnode
      exact (h.low_followed b hb).2 hmem
    · exact h.low_least a ha (List.not_mem_cons_of_ne_of_not_mem hnode hnot) b hb hmem

section Pop

variable {new : List α} (hlow : t.lowlink node = t.indexOf node)
  (hstack : t.stack = new ++ node :: s.stack)

include hlow hstack

/-- What is about to be popped has edges only to itself and to what is done. -/
theorem Scanning.popped_closed (ha : a ∈ new ++ [node] ∨ t.Done a) (hb : b ∈ next a) :
    b ∈ new ++ [node] ∨ t.Done b := by
  have hindex : t.indexOf node = s.index := State.indexOf_of_get? h.entered
  obtain ⟨hnode, hnew_stack⟩ := h.notMem_new hstack
  rcases ha with ha | ha
  · have hat : a ∈ t.stack := by
      rw [hstack]
      rcases List.mem_append.mp ha with ha | ha
      · exact List.mem_append_left _ ha
      · rw [List.mem_singleton.mp ha]
        simp
    have hopen : a ∉ open_nodes := by
      intro hopen
      have hold := hs.open_subset a hopen
      rcases List.mem_append.mp ha with ha | ha
      · exact hnew_stack a ha hold
      · rw [List.mem_singleton.mp ha] at hold
        exact hs.notMem_stack hnew hold
    have hvisited := h.followed_of_not_open (h.consistent.visited a hat) hopen b hb
    by_cases hbt : b ∈ t.stack
    · refine Or.inl ?_
      rw [hstack] at hbt
      rcases List.mem_append.mp hbt with hbnew | hbold
      · exact List.mem_append_left _ hbnew
      · rcases List.mem_cons.mp hbold with heq | hbold
        · rw [heq]
          simp
        · -- an edge to an older node would have lowered the lowlink
          have hle : t.lowlink node ≤ t.indexOf b := by
            rcases List.mem_append.mp ha with hin | hself
            · refine h.low_least a hat ?_ b hb hbold
              refine List.not_mem_cons_of_ne_of_not_mem ?_ (hnew_stack a hin)
              rintro rfl
              exact hnode hin
            · rw [List.mem_singleton.mp hself] at hb
              exact (h.low_followed b hb).2 hbold
          have hlt := h.indexOf_lt hs hbold
          omega
    · exact Or.inr ⟨hvisited, hbt⟩
  · exact Or.inr (h.consistent.closed a ha b hb)

theorem Scanning.mem_popped_iff : a ∈ new ++ [node] ↔ Mutual next node a := by
  have hindex : t.indexOf node = s.index := State.indexOf_of_get? h.entered
  obtain ⟨-, hnew_stack⟩ := h.notMem_new hstack
  have hself : node ∈ new ++ [node] ∨ t.Done node := Or.inl (by simp)
  constructor
  · intro ha
    have hat : a ∈ t.stack := by
      rw [hstack]
      rcases List.mem_append.mp ha with ha | ha
      · exact List.mem_append_left _ ha
      · rw [List.mem_singleton.mp ha]
        simp
    have hle : t.indexOf node ≤ t.indexOf a := by
      rcases List.mem_append.mp ha with ha | ha
      · have hdescending := h.consistent.descending
        rw [hstack] at hdescending
        exact ((List.pairwise_append.mp hdescending).2.2 a ha node List.mem_cons_self).le
      · rw [List.mem_singleton.mp ha]
    refine ⟨h.consistent.spans node List.mem_cons_self a hat hle, ?_⟩
    obtain ⟨b, hb, -, hback⟩ := h.consistent.returns a hat
    rcases List.mem_cons.mp hb with rfl | hopen
    · exact hback
    · -- an older open node lies neither in what is popped nor in what is done
      have hold := hs.open_subset b hopen
      have hend : b ∈ new ++ [node] ∨ t.Done b := hback.induct (Or.inl ha)
        fun x y hx hy => h.popped_closed hs hnew hlow hstack hx hy
      rcases hend with hend | hdone
      · rcases List.mem_append.mp hend with hend | hend
        · exact absurd hold (hnew_stack b hend)
        · rw [List.mem_singleton.mp hend] at hold
          exact absurd hold (hs.notMem_stack hnew)
      · exact absurd (h.mem_stack hold) hdone.2
  · rintro ⟨hforth, hback⟩
    have hend : a ∈ new ++ [node] ∨ t.Done a := hforth.induct hself
      fun x y hx hy => h.popped_closed hs hnew hlow hstack hx hy
    rcases hend with hend | hdone
    · exact hend
    · have hnode : t.Done node := hback.induct hdone fun x y hx hy => h.consistent.closed x hx y hy
      exact absurd h.node_mem hnode.2

/-- A component has a cycle when it is not a single node, or that node has an edge to itself. -/
theorem Scanning.cyclic_iff :
    1 < (new ++ [node]).length ∨ node ∈ next node ↔ Relation.TransGen (Edge next) node node := by
  obtain ⟨hnode, -⟩ := h.notMem_new hstack
  constructor
  · rintro (hlength | hloop)
    · cases new with
      | nil => simp at hlength
      | cons a new =>
          obtain ⟨hforth, hback⟩ := (h.mem_popped_iff hs hnew hlow hstack).mp
            (show a ∈ (a :: new) ++ [node] by simp)
          have hne : a ≠ node := by
            rintro rfl
            exact hnode List.mem_cons_self
          have hstep := (Relation.reflTransGen_iff_eq_or_transGen.mp hforth).resolve_left hne
          exact hstep.trans_left hback
    · exact .single hloop
  · intro hcycle
    obtain ⟨a, hedge, hback⟩ := Relation.TransGen.head'_iff.mp hcycle
    by_cases ha : a = node
    · subst ha
      exact Or.inr hedge
    · have hmem := (h.mem_popped_iff hs hnew hlow hstack).mpr ⟨.single hedge, hback⟩
      have hin : a ∈ new := (List.mem_append.mp hmem).resolve_right
        fun hsingle => ha (List.mem_singleton.mp hsingle)
      have hpos := List.length_pos_of_mem hin
      exact Or.inl (by simp; omega)

theorem Scanning.lists_popped (hcycle : Relation.TransGen (Edge next) node node) :
    Lists next node (sorted (new ++ [node])) := by
  obtain ⟨hnode, -⟩ := h.notMem_new hstack
  have hnodup : (new ++ [node]).Nodup := by
    have hall := h.consistent.nodup_stack
    rw [hstack] at hall
    refine List.nodup_append.mpr ⟨(List.nodup_append.mp hall).1, List.nodup_singleton _, ?_⟩
    rintro a ha b hb rfl
    exact hnode (List.mem_singleton.mp hb ▸ ha)
  refine ⟨hcycle, fun b => ?_, ?_⟩
  · rw [(sorted_perm _).mem_iff]
    exact h.mem_popped_iff hs hnew hlow hstack
  · have hle := pairwise_sortedBy id (new ++ [node])
    have hne : (sortedBy id (new ++ [node])).Nodup := (sortedBy_perm _ _).nodup_iff.mpr hnodup
    exact (hle.and hne).imp fun h => lt_of_le_of_ne h.1 h.2

theorem Scanning.collected_pop {on_stack : Finset α} {components : List (List α)}
    (hcomponents : components =
      if 1 < (sorted (new ++ [node])).length ∨ node ∈ next node then
        t.components ++ [sorted (new ++ [node])]
      else t.components) :
    Collected next { t with stack := s.stack, on_stack, components } := by
  have hlength : (sorted (new ++ [node])).length = (new ++ [node]).length :=
    (sorted_perm _).length_eq
  have hcyclic := h.cyclic_iff hs hnew hlow hstack
  rw [← hlength] at hcyclic
  have hdone : ∀ a, State.Done { t with stack := s.stack, on_stack, components } a ↔
      a ∈ new ++ [node] ∨ t.Done a := by
    intro a
    change (t.Visited a ∧ a ∉ s.stack) ↔ _ ∨ (t.Visited a ∧ a ∉ t.stack)
    obtain ⟨-, hnew_stack⟩ := h.notMem_new hstack
    rw [hstack]
    simp only [List.mem_append, List.mem_cons, List.not_mem_nil, or_false]
    constructor
    · rintro ⟨hvisited, hnot⟩
      by_cases hmem : a ∈ new ∨ a = node
      · exact Or.inl hmem
      · exact Or.inr ⟨hvisited, by tauto⟩
    · rintro (hmem | ⟨hvisited, hnot⟩)
      · have hat : a ∈ t.stack := by
          rw [hstack, List.mem_append, List.mem_cons]
          tauto
        refine ⟨h.consistent.visited a hat, fun hold => ?_⟩
        rcases hmem with hin | rfl
        · exact hnew_stack a hin hold
        · exact hs.notMem_stack hnew hold
      · exact ⟨hvisited, by tauto⟩
  have hself : node ∈ new ++ [node] := by simp
  subst hcomponents
  split_ifs with hcycle
  · have hlists := h.lists_popped hs hnew hlow hstack (hcyclic.mp hcycle)
    constructor
    · intro c hc
      rcases List.mem_append.mp hc with hc | hc
      · obtain ⟨a, ha, hlisted⟩ := h.consistent.collected.sound c hc
        exact ⟨a, (hdone a).mpr (Or.inr ha), hlisted⟩
      · rw [List.mem_singleton.mp hc]
        exact ⟨node, (hdone node).mpr (Or.inl hself), hlists⟩
    · intro a ha hcycle'
      rcases (hdone a).mp ha with hmem | hold
      · exact ⟨_, List.mem_append_right _ List.mem_cons_self, (sorted_perm _).mem_iff.mpr hmem⟩
      · obtain ⟨c, hc, hac⟩ := h.consistent.collected.complete a hold hcycle'
        exact ⟨c, List.mem_append_left _ hc, hac⟩
    · refine List.nodup_append.mpr ⟨h.consistent.collected.nodup, List.nodup_singleton _, ?_⟩
      rintro c hc d hd rfl
      -- an earlier component is done, and `node` is not
      obtain ⟨a, ha, hlisted⟩ := h.consistent.collected.sound c hc
      rw [List.mem_singleton.mp hd] at hlisted
      have hreach := ((hlisted.mem_iff node).mp ((sorted_perm _).mem_iff.mpr hself)).1
      have hnode := hreach.induct ha fun x y hx hy => h.consistent.closed x hx y hy
      exact absurd h.node_mem hnode.2
  · constructor
    · intro c hc
      obtain ⟨a, ha, hlisted⟩ := h.consistent.collected.sound c hc
      exact ⟨a, (hdone a).mpr (Or.inr ha), hlisted⟩
    · intro a ha hcycle'
      rcases (hdone a).mp ha with hmem | hold
      · obtain ⟨hforth, hback⟩ := (h.mem_popped_iff hs hnew hlow hstack).mp hmem
        exact absurd (hcyclic.mpr ((hcycle'.trans_right hforth).trans_left hback)) hcycle
      · exact h.consistent.collected.complete a hold hcycle'
    · exact h.consistent.collected.nodup

end Pop

end Leave

theorem popUntil_append {new rest : List α} (hnode : node ∉ new) :
    popUntil node (new ++ node :: rest) = (new ++ [node], rest) := by
  induction new with
  | nil => exact if_pos rfl
  | cons a new ih =>
      obtain ⟨hne, hrest⟩ := List.ne_and_not_mem_of_not_mem_cons hnode
      rw [List.cons_append, popUntil, if_neg (Ne.symm hne), ih hrest]
      rfl

theorem Scanning.leave (hs : Consistent next nodes open_nodes s)
    (h : Scanning next nodes open_nodes s node (next node) t) (hnew : ¬ s.Visited node) :
    Returned next nodes open_nodes s node (t.leave next node) := by
  by_cases hlow : t.lowlink node = t.indexOf node
  · obtain ⟨new, hstack, hfresh⟩ := h.stack
    obtain ⟨hnode, hnew_stack⟩ := h.notMem_new hstack
    have hindex : t.indexOf node = s.index := State.indexOf_of_get? h.entered
    have hclosed : ∀ a, a ∈ new ++ [node] ∨ t.Done a ↔ t.Visited a ∧ a ∉ s.stack := by
      intro a
      rw [State.Done, hstack]
      simp only [List.mem_append, List.mem_cons, List.not_mem_nil, or_false]
      constructor
      · rintro (hmem | ⟨hvisited, hnot⟩)
        · have hat : a ∈ t.stack := by
            rw [hstack, List.mem_append, List.mem_cons]
            tauto
          refine ⟨h.consistent.visited a hat, fun hold => ?_⟩
          rcases hmem with hin | rfl
          · exact hnew_stack a hin hold
          · exact hs.notMem_stack hnew hold
        · exact ⟨hvisited, by tauto⟩
      · rintro ⟨hvisited, hnot⟩
        by_cases hmem : a ∈ new ∨ a = node
        · exact Or.inl hmem
        · exact Or.inr ⟨hvisited, by tauto⟩
    rw [State.leave, if_neg (not_not.mpr hlow), hstack, popUntil_append hnode]
    dsimp only
    refine ⟨⟨h.consistent.counted, h.consistent.below, h.consistent.inside, ?_, ?_, ?_,
      hs.open_subset, fun a ha hnot => h.followed_of_not_open ha hnot, ?_, ?_, ?_,
      h.collected_pop hs hnew hlow hstack rfl⟩, ⟨h.index, h.lowlink, [], rfl, by simp⟩, h.entered,
      h.low_le, fun hmem => absurd hmem (hs.notMem_stack hnew), fun _ => hlow.trans hindex,
      fun a ha hnot => absurd ha hnot⟩
    · intro a
      change a ∈ t.on_stack \ (new ++ [node]).toFinset ↔ a ∈ s.stack
      rw [Finset.mem_sdiff, h.consistent.on_stack_iff, hstack, List.mem_toFinset]
      simp only [List.mem_append, List.mem_cons, List.not_mem_nil, or_false]
      constructor
      · tauto
      · intro hold
        refine ⟨Or.inr (Or.inr hold), ?_⟩
        rintro (hin | rfl)
        · exact hnew_stack a hin hold
        · exact hs.notMem_stack hnew hold
    · exact fun a ha => h.consistent.visited a (h.mem_stack ha)
    · have hdescending := h.consistent.descending
      rw [hstack] at hdescending
      exact (List.pairwise_cons.mp (List.pairwise_append.mp hdescending).2.1).2
    · intro a ha b hb
      exact (hclosed b).mp (h.popped_closed hs hnew hlow hstack ((hclosed a).mpr ha) hb)
    · intro b hb
      obtain ⟨a, ha, hle, hback⟩ := h.consistent.returns b (h.mem_stack hb)
      rcases List.mem_cons.mp ha with rfl | ha
      · have hlt := h.indexOf_lt hs hb
        omega
      · exact ⟨a, ha, hle, hback⟩
    · exact fun a ha b hb => h.consistent.spans a (List.mem_cons_of_mem _ ha) b (h.mem_stack hb)
  · rw [State.leave, if_pos hlow]
    exact h.leave_lower hs hnew hlow

/-! ## Whole searches -/

section Search

variable (hclosed : ∀ a ∈ nodes, ∀ b ∈ next a, b ∈ nodes)

include hclosed

theorem calls (fuel : ℕ) : Calls next nodes fuel := by
  induction fuel with
  | zero =>
      intro open_nodes s node hs hnew hnode hreach hfuel
      -- a node that has not been visited leaves room for it
      have hnodup : (node :: s.indices.keys).Nodup := by
        refine List.nodup_cons.mpr ⟨fun hmem => hnew (Dict.mem_keys_iff.mp hmem), s.indices.nodup⟩
      have hsub : node :: s.indices.keys ⊆ nodes := by
        refine List.cons_subset.mpr ⟨hnode, fun a ha => hs.inside a (Dict.mem_keys_iff.mp ha)⟩
      have hle := (hnodup.subperm hsub).length_le
      rw [List.length_cons, hs.counted] at hle
      omega
  | succ fuel ih =>
      intro open_nodes s node hs hnew hnode hreach hfuel
      have hscan := (scanning_enter hs hnew hnode hreach).foldl ih hs hnew (by omega)
        (fun b hb => ⟨hb, hclosed node hnode b hb⟩)
      exact hscan.leave hs hnew

/-- Between two turns of the outer loop no call is under way. -/
theorem run_spec : Consistent next nodes [] (run next nodes) ∧
    ∀ a ∈ nodes, (run next nodes).Visited a := by
  have hloop : ∀ rest : List α, (∀ a ∈ rest, a ∈ nodes) → ∀ s : State α,
      Consistent next nodes [] s →
        Consistent next nodes [] (rest.foldl (fun s node =>
          if s.indices.contains node = false then visit next nodes.length s node else s) s) ∧
        (∀ a, s.Visited a ∨ a ∈ rest → (rest.foldl (fun s node =>
          if s.indices.contains node = false then visit next nodes.length s node else s)
            s).Visited a) := by
    intro rest
    induction rest with
    | nil => exact fun _ s hs => ⟨hs, fun a ha => ha.resolve_right (by simp)⟩
    | cons node rest ih =>
        intro hrest s hs
        obtain ⟨hnode, hrest⟩ := List.forall_mem_cons.mp hrest
        rw [List.foldl_cons]
        split_ifs with hvisited
        · have hcall := calls hclosed nodes.length [] s node hs
            (State.not_visited_iff.mp hvisited) hnode (by simp) (by omega)
          obtain ⟨hconsistent, hall⟩ := ih hrest _ hcall.consistent
          refine ⟨hconsistent, fun a ha => hall a ?_⟩
          rw [List.mem_cons] at ha
          rcases ha with ha | rfl | ha
          · exact Or.inl (hcall.extend.visited ha)
          · exact Or.inl ⟨s.index, hcall.entered⟩
          · exact Or.inr ha
        · obtain ⟨hconsistent, hall⟩ := ih hrest s hs
          refine ⟨hconsistent, fun a ha => hall a ?_⟩
          rw [List.mem_cons] at ha
          rcases ha with ha | rfl | ha
          · exact Or.inl ha
          · refine Or.inl ?_
            by_contra hnot
            exact hvisited (State.not_visited_iff.mpr hnot)
          · exact Or.inr ha
  obtain ⟨hconsistent, hall⟩ := hloop nodes (fun a ha => ha) .empty consistent_empty
  exact ⟨hconsistent, fun a ha => hall a (Or.inr ha)⟩

/-- The search lists the components that contain a cycle, each once. -/
theorem mem_components_iff (c : List α) :
    c ∈ (run next nodes).components ↔ ∃ a ∈ nodes, Lists next a c := by
  obtain ⟨h, hall⟩ := run_spec hclosed
  constructor
  · intro hc
    obtain ⟨a, ha, hlists⟩ := h.collected.sound c hc
    exact ⟨a, h.inside a ha.1, hlists⟩
  · rintro ⟨a, ha, hlists⟩
    have hdone : (run next nodes).Done a := by
      refine ⟨hall a ha, fun hmem => ?_⟩
      obtain ⟨b, hb, -⟩ := h.returns a hmem
      cases hb
    obtain ⟨c', hc', hmem⟩ := h.collected.complete a hdone hlists.cyclic
    obtain ⟨b, -, hlisted⟩ := h.collected.sound c' hc'
    rwa [hlists.unique hlisted ((hlisted.mem_iff a).mp hmem).symm]

theorem nodup_components : (run next nodes).components.Nodup :=
  (run_spec hclosed).1.collected.nodup

end Search

end StrongComponents

end Base
