import FossilCore.Base.ParentChain
import FossilCore.Conversation.Capture

/-!
# The graph of a capture

The references of the exposed nodes are all resolved when the links of parents and children agree
and no node is its own ancestor.  The active branch is the chain of the parents of the current
node, the eldest first.
-/

namespace FossilCore

open Base

namespace SharedChatCapture

open ParentChain

variable {nodes : Nodes}

/-! ## The nodes and their parents -/

def parentIdOf (nodes : Nodes) (node_id : String) : Option String :=
  (nodes.get? node_id).bind Node.parent_id

/-- The parent of a node, when it is exposed. -/
def parentOf (nodes : Nodes) (node_id : String) : Option String :=
  (parentIdOf nodes node_id).filter nodes.contains

def nodeIds (nodes : Nodes) : Finset String := nodes.keys.toFinset

theorem nodup_keys (nodes : Nodes) : nodes.keys.Nodup := nodes.nodup

theorem mem_keys_iff {id : String} : id ∈ nodes.keys ↔ nodes.contains id = true := by
  rw [Dict.mem_keys_iff, Dict.contains_iff]

theorem mem_nodeIds {id : String} : id ∈ nodeIds nodes ↔ nodes.contains id = true := by
  rw [nodeIds, List.mem_toFinset, mem_keys_iff]

theorem card_nodeIds (nodes : Nodes) : (nodeIds nodes).card = nodes.entries.length := by
  rw [nodeIds, List.toFinset_card_of_nodup (nodup_keys nodes), Dict.keys, List.length_map]

theorem parentOf_eq_some {id p : String} :
    parentOf nodes id = some p ↔ parentIdOf nodes id = some p ∧ nodes.contains p = true := by
  rw [parentOf, Option.filter_eq_some_iff]

theorem closed_nodeIds (nodes : Nodes) :
    ∀ id ∈ nodeIds nodes, ∀ p, parentOf nodes id = some p → p ∈ nodeIds nodes :=
  fun _ _ _ hp => mem_nodeIds.mpr (parentOf_eq_some.mp hp).2

/-- What the walk along the parents of a node returns. -/
def walkFrom (nodes : Nodes) (id : String) : List String × Option String :=
  follow (parentOf nodes) nodes.entries.length [] id

theorem walked {id : String} (h : nodes.contains id = true) :
    Walked (parentOf nodes) (nodeIds nodes) id (walkFrom nodes id) := by
  rw [walkFrom, ← card_nodeIds]
  exact follow_walked (closed_nodeIds nodes) (mem_nodeIds.mpr h)

theorem brokenChain_none (remaining : ℕ) (visited : List String) :
    brokenChain nodes remaining visited none = none := by
  cases remaining <;> rfl

theorem brokenChain_eq_follow {cursor : String} (remaining : ℕ) (visited : List String)
    (h : nodes.contains cursor = true) :
    brokenChain nodes remaining visited (some cursor) =
      (follow (parentOf nodes) remaining visited cursor).2.map brokenAt := by
  induction remaining generalizing visited cursor with
  | zero =>
      obtain ⟨node, hnode⟩ := Dict.contains_iff.mp h
      rw [brokenChain, follow, hnode]
      by_cases hmet : cursor ∈ visited <;> simp [hmet]
  | succ remaining ih =>
      obtain ⟨node, hnode⟩ := Dict.contains_iff.mp h
      have hid : parentIdOf nodes cursor = node.parent_id := by rw [parentIdOf, hnode]; rfl
      rw [brokenChain, follow, hnode]
      by_cases hmet : cursor ∈ visited
      · simp [hmet]
      · simp only [hmet, if_false]
        cases hp : node.parent_id with
        | none =>
            have hroot : parentOf nodes cursor = none := by rw [parentOf, hid, hp]; rfl
            rw [hroot, brokenChain_none]
            rfl
        | some p =>
            by_cases hcontains : nodes.contains p = true
            · have hparent := parentOf_eq_some.mpr ⟨hid.trans hp, hcontains⟩
              rw [hparent]
              exact ih (cursor :: visited) hcontains
            · have hroot : parentOf nodes cursor = none := by
                rw [parentOf, hid, hp, Option.filter_some, if_neg hcontains]
              have hmissing : nodes.get? p = none :=
                Option.not_isSome_iff_eq_none.mp hcontains
              rw [hroot]
              cases remaining <;> simp [brokenChain, hmissing]

theorem branch_eq_follow (remaining : ℕ) (path : List String) (cursor : String) :
    branch nodes remaining path cursor =
      ((follow (parentOf nodes) remaining path cursor).1,
        ((follow (parentOf nodes) remaining path cursor).2.map brokenAt).toList) := by
  induction remaining generalizing path cursor with
  | zero =>
      rw [branch, follow]
      by_cases hmet : cursor ∈ path <;> simp [hmet]
  | succ remaining ih =>
      rw [branch, follow]
      by_cases hmet : cursor ∈ path
      · simp [hmet]
      · simp only [hmet, if_false]
        cases hp : parentIdOf nodes cursor with
        | none =>
            have hlink : (nodes.get? cursor).bind Node.parent_id = none := hp
            simp [parentOf, hp, hlink]
        | some p =>
            have hlink : (nodes.get? cursor).bind Node.parent_id = some p := hp
            by_cases hcontains : nodes.contains p = true
            · simp [parentOf, hp, hlink, hcontains, Option.filter_some, ih]
            · simp [parentOf, hp, hlink, hcontains, Option.filter_some]

theorem active_branch_of_contains {current : String} (h : nodes.contains current = true) :
    _active_branch nodes (some current) =
      ((walkFrom nodes current).1, ((walkFrom nodes current).2.map brokenAt).toList) := by
  rw [_active_branch, if_pos h, branch_eq_follow]
  rfl

/-! ## Resolved references -/

/-- Every link leads to an exposed node that has the link back. -/
structure LinksAgree (nodes : Nodes) : Prop where
  parents : ∀ id node p, nodes.get? id = some node → node.parent_id = some p →
    ∃ parent, nodes.get? p = some parent ∧ id ∈ parent.child_ids
  children : ∀ id node c, nodes.get? id = some node → c ∈ node.child_ids →
    ∃ child, nodes.get? c = some child ∧ child.parent_id = some id

theorem parentRefs_eq_nil {id : String} {node : Node} :
    parentRefs nodes id node = [] ↔ ∀ p, node.parent_id = some p →
      ∃ parent, nodes.get? p = some parent ∧ id ∈ parent.child_ids := by
  rw [parentRefs]
  cases hp : node.parent_id with
  | none => simp
  | some p => cases hparent : nodes.get? p <;> simp [hparent]

theorem childRef_eq_none {id c : String} :
    childRef nodes id c = none ↔ ∃ child, nodes.get? c = some child ∧ child.parent_id = some id := by
  rw [childRef]
  cases hchild : nodes.get? c <;> simp

theorem nodeRefs_eq_nil {id : String} {node : Node} (hnode : nodes.get? id = some node) :
    nodeRefs nodes id = [] ↔
      (∀ p, node.parent_id = some p → ∃ parent, nodes.get? p = some parent ∧ id ∈ parent.child_ids) ∧
        ∀ c ∈ node.child_ids, ∃ child, nodes.get? c = some child ∧ child.parent_id = some id := by
  rw [nodeRefs, hnode, List.append_eq_nil_iff, parentRefs_eq_nil, List.filterMap_eq_nil_iff]
  simp only [childRef_eq_none]

theorem linksAgree_iff : (∀ id ∈ nodes.keys, nodeRefs nodes id = []) ↔ LinksAgree nodes := by
  constructor
  · intro h
    have hmem : ∀ {id node}, nodes.get? id = some node → id ∈ nodes.keys :=
      fun hnode => Dict.mem_keys_iff.mpr ⟨_, hnode⟩
    constructor
    · intro id node p hnode
      exact ((nodeRefs_eq_nil hnode).mp (h id (hmem hnode))).1 p
    · intro id node c hnode
      exact ((nodeRefs_eq_nil hnode).mp (h id (hmem hnode))).2 c
  · intro h id hid
    obtain ⟨node, hnode⟩ := Dict.mem_keys_iff.mp hid
    exact (nodeRefs_eq_nil hnode).mpr ⟨fun p => h.parents id node p hnode,
      fun c => h.children id node c hnode⟩

theorem graph_unresolved_refs_eq_nil : _graph_unresolved_refs nodes = [] ↔
    LinksAgree nodes ∧ ∀ id, nodes.contains id = true → Ends (parentOf nodes) id := by
  have hsorted : ∀ {id}, id ∈ sorted nodes.keys ↔ id ∈ nodes.keys :=
    fun {id} => (sorted_perm nodes.keys).mem_iff
  rw [_graph_unresolved_refs, List.append_eq_nil_iff, List.flatMap_eq_nil_iff,
    List.filterMap_eq_nil_iff]
  simp only [hsorted]
  rw [linksAgree_iff]
  apply and_congr_right'
  apply forall_congr'
  intro id
  rw [mem_keys_iff]
  apply imp_congr_right
  intro hid
  rw [brokenChain_eq_follow _ _ hid, Option.map_eq_none_iff]
  exact (walked hid).ends

/-- With links that agree, every parent is exposed. -/
theorem LinksAgree.parentOf_eq (h : LinksAgree nodes) : parentOf nodes = parentIdOf nodes := by
  funext id
  rw [parentOf]
  cases hid : parentIdOf nodes id with
  | none => rfl
  | some p =>
      rw [parentIdOf, Option.bind_eq_some_iff] at hid
      obtain ⟨node, hnode, hp⟩ := hid
      obtain ⟨parent, hparent, -⟩ := h.parents id node p hnode hp
      rw [Option.filter_some, if_pos (Dict.contains_iff.mpr ⟨parent, hparent⟩)]

/-! ## What is recorded of the references -/

/-- The ids of the nodes, of their parents and of their children are not empty. -/
structure NonemptyIds (nodes : Nodes) (current_node_id : Option String) : Prop where
  ids : ∀ id, nodes.contains id = true → id ≠ ""
  parents : ∀ id p, parentIdOf nodes id = some p → p ≠ ""
  children : ∀ id node, nodes.get? id = some node → ∀ c ∈ node.child_ids, c ≠ ""
  current : current_node_id ≠ some ""

/-- A reference as the receipt can state it. -/
def WellRecorded (nodes : Nodes) (r : UnresolvedRef) : Prop :=
  nodes.contains r.from_node_id = true ∧ r.target_node_id ≠ ""

section Recorded

variable {current_node_id : Option String} {r : UnresolvedRef}

theorem wellRecorded_nodeRefs (h : NonemptyIds nodes current_node_id) {id : String}
    (hr : r ∈ nodeRefs nodes id) : WellRecorded nodes r := by
  rw [nodeRefs] at hr
  cases hnode : nodes.get? id with
  | none => simp [hnode] at hr
  | some node =>
      have hid : nodes.contains id = true := Dict.contains_iff.mpr ⟨node, hnode⟩
      rw [hnode, List.mem_append, List.mem_filterMap] at hr
      rcases hr with hparent | ⟨c, hc, hchild⟩
      · rw [parentRefs] at hparent
        cases hp : node.parent_id with
        | none => simp [hp] at hparent
        | some p =>
            have hne := h.parents id p (by rw [parentIdOf, hnode]; exact hp)
            cases hfound : nodes.get? p with
            | none =>
                simp only [hp, hfound, List.mem_singleton] at hparent
                rw [hparent]
                exact ⟨hid, hne⟩
            | some parent =>
                simp only [hp, hfound] at hparent
                split at hparent
                · cases hparent
                · rw [List.mem_singleton.mp hparent]
                  exact ⟨hid, hne⟩
      · have hne := h.children id node hnode c hc
        rw [childRef] at hchild
        cases hfound : nodes.get? c with
        | none =>
            simp only [hfound, Option.some.injEq] at hchild
            rw [← hchild]
            exact ⟨hid, hne⟩
        | some child =>
            simp only [hfound] at hchild
            split at hchild
            · cases hchild
            · rw [← Option.some.inj hchild]
              exact ⟨hid, hne⟩

theorem wellRecorded_brokenAt (h : NonemptyIds nodes current_node_id) {id stuck : String}
    (hid : nodes.contains id = true) (hstuck : (walkFrom nodes id).2 = some stuck) :
    WellRecorded nodes (brokenAt stuck) := by
  have hwalked := walked hid
  have hmem := mem_nodeIds.mp (hwalked.subset stuck (hwalked.stuck stuck hstuck))
  exact ⟨hmem, h.ids stuck hmem⟩

theorem wellRecorded_graph (h : NonemptyIds nodes current_node_id)
    (hr : r ∈ _graph_unresolved_refs nodes) : WellRecorded nodes r := by
  rw [_graph_unresolved_refs, List.mem_append, List.mem_flatMap, List.mem_filterMap] at hr
  rcases hr with ⟨id, -, hr⟩ | ⟨id, hid, hr⟩
  · exact wellRecorded_nodeRefs h hr
  · have hcontains := mem_keys_iff.mp ((sorted_perm nodes.keys).mem_iff.mp hid)
    rw [brokenChain_eq_follow _ _ hcontains, Option.map_eq_some_iff] at hr
    obtain ⟨stuck, hstuck, rfl⟩ := hr
    exact wellRecorded_brokenAt h hcontains hstuck

theorem wellRecorded_active (h : NonemptyIds nodes current_node_id)
    (hr : r ∈ (_active_branch nodes current_node_id).2) : WellRecorded nodes r := by
  cases current_node_id with
  | none => cases hr
  | some current =>
      by_cases hcontains : nodes.contains current = true
      · rw [active_branch_of_contains hcontains, Option.mem_toList,
          Option.map_eq_some_iff] at hr
        obtain ⟨stuck, hstuck, rfl⟩ := hr
        exact wellRecorded_brokenAt h hcontains hstuck
      · rw [_active_branch, if_neg hcontains] at hr
        cases hleast : nodes.keys.min? with
        | none => simp [hleast] at hr
        | some least =>
            simp only [hleast, List.mem_singleton] at hr
            rw [hr]
            exact ⟨mem_keys_iff.mp (List.min?_mem hleast), fun heq => h.current (heq ▸ rfl)⟩

end Recorded

/-! ## The active branch -/

theorem active_subset (current_node_id : Option String) :
    ∀ id ∈ (_active_branch nodes current_node_id).1, id ∈ nodes.keys := by
  intro id hid
  cases current_node_id with
  | none => cases hid
  | some current =>
      by_cases hcontains : nodes.contains current = true
      · rw [active_branch_of_contains hcontains] at hid
        exact mem_keys_iff.mpr (mem_nodeIds.mp ((walked hcontains).subset id hid))
      · rw [_active_branch, if_neg hcontains] at hid
        cases hleast : nodes.keys.min? <;> simp [hleast] at hid

theorem active_nodup (current_node_id : Option String) :
    (_active_branch nodes current_node_id).1.Nodup := by
  cases current_node_id with
  | none => exact List.nodup_nil
  | some current =>
      by_cases hcontains : nodes.contains current = true
      · rw [active_branch_of_contains hcontains]
        exact (walked hcontains).nodup
      · rw [_active_branch, if_neg hcontains]
        cases nodes.keys.min? <;> exact List.nodup_nil

/-- The references of the active branch are resolved when the current node is exposed and its
parents come to an end. -/
theorem active_refs_eq_nil {current_node_id : Option String} (hnodes : nodes.keys ≠ []) :
    (_active_branch nodes current_node_id).2 = [] ↔
      ∀ current, current_node_id = some current →
        nodes.contains current = true ∧ Ends (parentOf nodes) current := by
  cases current_node_id with
  | none => simp [_active_branch]
  | some current =>
      by_cases hcontains : nodes.contains current = true
      · have hends := (walked hcontains).ends
        rw [active_branch_of_contains hcontains]
        simp [hcontains, hends]
      · obtain ⟨least, hleast⟩ : ∃ least, nodes.keys.min? = some least :=
          Option.isSome_iff_exists.mp (List.isSome_min?_of_ne_nil hnodes)
        rw [_active_branch, if_neg hcontains, hleast]
        simp [hcontains]

/-- The branch from a root to the node. -/
structure IsBranch (nodes : Nodes) (current : String) (path : List String) : Prop where
  line : path.IsChain fun p c => parentIdOf nodes c = some p
  root : ∀ r, path.head? = some r → parentIdOf nodes r = none
  current : path.getLast? = some current

theorem isBranch_of_linksAgree (h : LinksAgree nodes) {current : String}
    (hcontains : nodes.contains current = true) (hends : Ends (parentOf nodes) current) :
    IsBranch nodes current (_active_branch nodes (some current)).1 := by
  have hwalked := walked hcontains
  have hline := hwalked.line
  have hroot := fun r => hwalked.top r (hwalked.ends.mpr hends)
  rw [h.parentOf_eq] at hline hroot
  rw [active_branch_of_contains hcontains]
  exact ⟨hline, hroot, hwalked.start⟩

end SharedChatCapture

end FossilCore
