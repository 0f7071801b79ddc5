import Mathlib.Data.Finset.Sort
import Mathlib.Data.String.Basic
import FossilCore.Base.StrongComponents

/-!
# Import cycles

`_strongly_connected_components` of `check_architecture_boundaries.py`: the cycles of the graph of
imports between modules, which is built so that every target of an edge is a module of it.
-/

namespace FossilCore

open Base

namespace ArchitectureBoundaries

/-! ## Graphs -/

/-- A graph as adjacency sets. -/
structure ImportGraph where
  adjacency : Dict String (Finset String)
  closed : ∀ node targets, adjacency.get? node = some targets →
    ∀ target ∈ targets, target ∈ adjacency.keys

namespace ImportGraph

/-- `graph[node]`, for a node of the graph. -/
def targets (graph : ImportGraph) (node : String) : Finset String :=
  (graph.adjacency.get? node).getD ∅

def Imports (graph : ImportGraph) (a b : String) : Prop := b ∈ graph.targets a

variable {graph : ImportGraph} {a b : String}

theorem mem_keys_of_imports (h : graph.Imports a b) :
    a ∈ graph.adjacency.keys ∧ b ∈ graph.adjacency.keys := by
  rw [Imports, targets] at h
  cases hget : graph.adjacency.get? a with
  | none =>
      rw [hget] at h
      exact absurd h (Finset.notMem_empty b)
  | some targets =>
      rw [hget] at h
      exact ⟨Dict.mem_keys_iff.mpr ⟨targets, hget⟩, graph.closed a targets hget b h⟩

end ImportGraph

/-- `graph[source].add(target)`, between two modules. -/
def addImport (modules : List String) (graph : Dict String (Finset String))
    (edge : String × String) : Dict String (Finset String) :=
  if edge.1 ∈ modules ∧ edge.2 ∈ modules then
    graph.set edge.1 (insert edge.2 ((graph.get? edge.1).getD ∅))
  else graph

def _edges (modules : List String) (internal_import_edges : List (String × String)) :
    Dict String (Finset String) :=
  internal_import_edges.foldl (addImport modules)
    (.ofPairs (modules.map fun module => (module, ∅)))

theorem keys_addImport {modules : List String} {graph : Dict String (Finset String)}
    (hkeys : ∀ a, a ∈ graph.keys ↔ a ∈ modules) (edge : String × String) (a : String) :
    a ∈ (addImport modules graph edge).keys ↔ a ∈ modules := by
  rw [addImport]
  split_ifs with hedge
  · rw [Dict.keys_set, if_pos ((hkeys _).mpr hedge.1)]
    exact hkeys a
  · exact hkeys a

/-- The graph has the modules as its nodes, and edges between modules only. -/
theorem edges_closed (modules : List String) (internal_import_edges : List (String × String)) :
    (∀ a, a ∈ (_edges modules internal_import_edges).keys ↔ a ∈ modules) ∧
      ∀ node targets, (_edges modules internal_import_edges).get? node = some targets →
        ∀ target ∈ targets, target ∈ modules := by
  have hstart : (∀ a, a ∈ (Dict.ofPairs (modules.map fun module =>
        (module, (∅ : Finset String)))).keys ↔ a ∈ modules) ∧
      ∀ node targets, (Dict.ofPairs (modules.map fun module =>
        (module, (∅ : Finset String)))).get? node = some targets →
          ∀ target ∈ targets, target ∈ modules := by
    constructor
    · intro a
      rw [Dict.mem_keys_iff, Dict.exists_get?_ofPairs, List.map_map]
      simp
    · intro node targets hget target htarget
      obtain ⟨module, -, hpair⟩ := List.mem_map.mp (Dict.mem_of_get?_ofPairs hget)
      cases hpair
      exact absurd htarget (Finset.notMem_empty target)
  rw [_edges]
  generalize Dict.ofPairs (modules.map fun module => (module, (∅ : Finset String))) = graph
    at hstart ⊢
  induction internal_import_edges generalizing graph with
  | nil => exact hstart
  | cons edge edges ih =>
      obtain ⟨hkeys, htargets⟩ := hstart
      rw [List.foldl_cons]
      refine ih _ ⟨keys_addImport hkeys edge, fun node targets hget target htarget => ?_⟩
      rw [addImport] at hget
      split_ifs at hget with hedge
      · rw [Dict.get?_set] at hget
        split_ifs at hget with hnode
        · cases hget
          rcases Finset.mem_insert.mp htarget with rfl | hold
          · exact hedge.2
          · cases hget : graph.get? edge.1 with
            | none =>
                rw [hget] at hold
                exact absurd hold (Finset.notMem_empty target)
            | some old =>
                rw [hget] at hold
                exact htargets edge.1 old hget target hold
        · exact htargets node targets hget target htarget
      · exact htargets node targets hget target htarget

/-- The graph of a payload. -/
def importGraph (modules : List String) (internal_import_edges : List (String × String)) :
    ImportGraph where
  adjacency := _edges modules internal_import_edges
  closed node targets hget target htarget := by
    obtain ⟨hkeys, htargets⟩ := edges_closed modules internal_import_edges
    exact (hkeys target).mpr (htargets node targets hget target htarget)

/-! ## Cycles -/

open StrongComponents (run Lists)

def _strongly_connected_components (graph : ImportGraph) : List (List String) :=
  sorted (run (fun node => (graph.targets node).sort) (sorted graph.adjacency.keys)).components

/-- The members, in order, of a strongly connected component that contains a cycle. -/
structure IsCyclicComponent (graph : ImportGraph) (component : List String) : Prop where
  ordered : component.Pairwise (· < ·)
  strong : ∃ a, Relation.TransGen graph.Imports a a ∧ ∀ b, b ∈ component ↔
    Relation.ReflTransGen graph.Imports a b ∧ Relation.ReflTransGen graph.Imports b a

/-- A search finds the same components in whatever order it takes the nodes and their targets. -/
theorem mem_components_of_listing {graph : ImportGraph} {nodes : List String}
    {next : String → List String} (hnodes : ∀ a, a ∈ nodes ↔ a ∈ graph.adjacency.keys)
    (hnext : ∀ a b, b ∈ next a ↔ b ∈ graph.targets a) :
    (∀ component, component ∈ (run next nodes).components ↔ IsCyclicComponent graph component) ∧
      (run next nodes).components.Nodup := by
  have hedge : DepthFirst.Edge next = graph.Imports := by
    funext a b
    exact propext (hnext a b)
  have hclosed : ∀ a ∈ nodes, ∀ b ∈ next a, b ∈ nodes := by
    intro a _ b hb
    exact (hnodes b).mpr (ImportGraph.mem_keys_of_imports ((hnext a b).mp hb)).2
  refine ⟨fun component => ?_, StrongComponents.nodup_components hclosed⟩
  rw [StrongComponents.mem_components_iff hclosed]
  constructor
  · rintro ⟨a, -, hcyclic, hmem, hordered⟩
    simp only [StrongComponents.Mutual, StrongComponents.Reach, hedge] at hcyclic hmem
    exact ⟨hordered, a, hcyclic, hmem⟩
  · rintro ⟨hordered, a, hcyclic, hmem⟩
    obtain ⟨b, hfirst, -⟩ := Relation.TransGen.head'_iff.mp hcyclic
    refine ⟨a, (hnodes a).mpr (ImportGraph.mem_keys_of_imports hfirst).1, ?_, ?_, hordered⟩
    · rwa [hedge]
    · simpa only [StrongComponents.Mutual, StrongComponents.Reach, hedge] using hmem

/-- Exactly the components with a cycle are returned, each once and in order, and the same list
comes of any order of the nodes and of their targets. -/
theorem strongly_connected_components_spec (graph : ImportGraph) :
    (∀ component, component ∈ _strongly_connected_components graph ↔
        IsCyclicComponent graph component) ∧
      (_strongly_connected_components graph).Nodup ∧
      ∀ (nodes : List String) (next : String → List String),
        (∀ a, a ∈ nodes ↔ a ∈ graph.adjacency.keys) →
          (∀ a b, b ∈ next a ↔ b ∈ graph.targets a) →
            sorted (run next nodes).components = _strongly_connected_components graph := by
  have hnodes : ∀ a, a ∈ sorted graph.adjacency.keys ↔ a ∈ graph.adjacency.keys :=
    fun a => (sorted_perm _).mem_iff
  have hnext : ∀ a b, b ∈ (graph.targets a).sort ↔ b ∈ graph.targets a :=
    fun a b => Finset.mem_sort _
  obtain ⟨hmem, hnodup⟩ := mem_components_of_listing hnodes hnext
  refine ⟨fun component => ?_, ?_, fun nodes next hnodes' hnext' => ?_⟩
  · rw [_strongly_connected_components, (sorted_perm _).mem_iff]
    exact hmem component
  · rw [_strongly_connected_components]
    exact (sorted_perm _).nodup_iff.mpr hnodup
  · obtain ⟨hmem', hnodup'⟩ := mem_components_of_listing hnodes' hnext'
    rw [_strongly_connected_components]
    apply sorted_eq_of_perm
    rw [List.perm_ext_iff_of_nodup hnodup' hnodup]
    intro component
    rw [hmem', hmem]

end ArchitectureBoundaries

end FossilCore
