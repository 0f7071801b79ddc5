import Mathlib.Data.Finset.Insert
import FossilCore.Base.BreadthFirst
import FossilCore.Conversation.Lineage

/-!
# Paths of a lineage

`ConversationLineage.path`: a breadth-first search along the edges of some relation types, taken
in the order of their ids.
-/

namespace FossilCore

open Base

namespace ConversationLineage

open ConversationStore BreadthFirst

/-! ## The search -/

def PATH_RELATIONS : Finset String :=
  {"leads_to", "supports", "reframes", "supersedes", "depends_on"}

/-- `relation_types or self.PATH_RELATIONS` -/
def allowedRelations (relation_types : Option (Finset String)) : Finset String :=
  match relation_types with
  | none => PATH_RELATIONS
  | some types => if types = ∅ then PATH_RELATIONS else types

/-- `adjacency.setdefault(source, []).append((edge_id, target))` -/
def addEdge (adjacency : Dict String (List (String × String))) (edge : Json) :
    Dict String (List (String × String)) :=
  let source := strAt edge "source_node_id"
  adjacency.set source
    ((adjacency.get? source).getD [] ++ [(strAt edge "edge_id", strAt edge "target_node_id")])

def adjacencyOf (allowed : Finset String) (edges : List Json) :
    Dict String (List (String × String)) :=
  (sortedBy (fun edge => strAt edge "edge_id") edges).foldl (fun adjacency edge =>
    if strAt edge "relation_type" ∉ allowed then adjacency else addEdge adjacency edge) .empty

/-- `[target for _, target in adjacency.get(current, [])]` -/
def targetsOf (adjacency : Dict String (List (String × String))) (current : String) :
    List String :=
  ((adjacency.get? current).getD []).map Prod.snd

/-- `self.nodes[node_id]` -/
def nodeOf (lineage : Json) (node_id : String) : Except Error Json :=
  match byId "node_id" (nodesOf lineage) node_id with
  | none => .error (.keyError node_id)
  | some node => .ok node

def path (lineage : Json) (start_node_id end_node_id : String)
    (relation_types : Option (Finset String)) : Except Error (List Json) :=
  let adjacency := adjacencyOf (allowedRelations relation_types) (edgesOf lineage)
  (search (targetsOf adjacency) end_node_id ((nodesOf lineage).length + 1)
    (Search.single start_node_id)).mapM (nodeOf lineage)

/-! ## Its graph -/

/-- An edge of an allowed relation type leads from the one node to the other. -/
def Leads (lineage : Json) (relation_types : Option (Finset String)) (a b : String) : Prop :=
  ∃ edge ∈ edgesOf lineage, strAt edge "relation_type" ∈ allowedRelations relation_types ∧
    strAt edge "source_node_id" = a ∧ strAt edge "target_node_id" = b

section Graph

variable {lineage : Json} {relation_types : Option (Finset String)}

theorem targets_foldl_addEdge (allowed : Finset String) (edges : List Json)
    (adjacency : Dict String (List (String × String))) (a : String) :
    targetsOf (edges.foldl (fun adjacency edge =>
      if strAt edge "relation_type" ∉ allowed then adjacency else addEdge adjacency edge)
        adjacency) a =
      targetsOf adjacency a ++ (edges.filter fun edge =>
        strAt edge "relation_type" ∈ allowed ∧ strAt edge "source_node_id" = a).map
          (strAt · "target_node_id") := by
  induction edges generalizing adjacency with
  | nil => simp
  | cons edge edges ih =>
      rw [List.foldl_cons, ih, List.filter_cons]
      by_cases hallowed : strAt edge "relation_type" ∈ allowed
      · rw [if_neg (not_not.mpr hallowed)]
        by_cases hsource : strAt edge "source_node_id" = a
        · rw [if_pos (by simp [hallowed, hsource]), targetsOf, addEdge]
          rw [hsource, Dict.get?_set_self]
          simp [targetsOf]
        · rw [if_neg (by simp [hsource]), targetsOf, addEdge]
          rw [Dict.get?_set_ne _ _ (Ne.symm hsource)]
          rfl
      · rw [if_pos hallowed, if_neg (by simp [hallowed])]

theorem mem_targets_iff {a b : String} :
    b ∈ targetsOf (adjacencyOf (allowedRelations relation_types) (edgesOf lineage)) a ↔
      Leads lineage relation_types a b := by
  have hempty : targetsOf (.empty : Dict String (List (String × String))) a = [] := rfl
  rw [adjacencyOf, targets_foldl_addEdge, hempty, List.nil_append, List.mem_map, Leads]
  simp only [List.mem_filter, mem_sortedBy, decide_eq_true_eq]
  constructor
  · rintro ⟨edge, ⟨hedge, hallowed, hsource⟩, htarget⟩
    exact ⟨edge, hedge, hallowed, hsource, htarget⟩
  · rintro ⟨edge, hedge, hallowed, hsource, htarget⟩
    exact ⟨edge, ⟨hedge, hallowed, hsource⟩, htarget⟩

/-- The ids of the edges order them, whatever the order of the list. -/
theorem adjacencyOf_perm {allowed : Finset String} {edges edges' : List Json}
    (hperm : edges'.Perm edges) (hids : (edges.map (strAt · "edge_id")).Nodup) :
    adjacencyOf allowed edges' = adjacencyOf allowed edges := by
  have hinj := List.inj_on_of_nodup_map hids
  rw [adjacencyOf, adjacencyOf, sortedBy_eq_of_perm hperm fun a ha b hb heq =>
    hinj (hperm.mem_iff.mp ha) (hperm.mem_iff.mp hb) heq]

end Graph

/-! ## Accepted lineages -/

section Accepted

variable {truncate : FloatText → ℤ} {artifacts : Files} {envelope lineage : Json}

def nodeIds (lineage : Json) : List String := (nodesOf lineage).map (strAt · "node_id")

theorem edges_of_foldlM {edges : List Json} {edge_ids edge_ids' : List String}
    (h : edges.foldlM (validateEdge lineage) edge_ids = .ok edge_ids')
    (hnodup : edge_ids.Nodup) :
    (edges.map (strAt · "edge_id")).Nodup ∧
      (∀ edge ∈ edges, strAt edge "edge_id" ∉ edge_ids) ∧
      ∀ edge ∈ edges, strAt edge "source_node_id" ∈ nodeIds lineage ∧
        strAt edge "target_node_id" ∈ nodeIds lineage := by
  induction edges generalizing edge_ids with
  | nil => simp
  | cons edge edges ih =>
      obtain ⟨extended, hedge, hrest⟩ := bind_eq_ok.mp h
      rw [validateEdge] at hedge
      split_ifs at hedge with hseen hmissing
      cases hedge
      obtain ⟨hids, hfresh, hends⟩ := ih hrest (List.nodup_cons.mpr ⟨hseen, hnodup⟩)
      rw [not_or, not_not, not_not] at hmissing
      refine ⟨?_, ?_, ?_⟩
      · rw [List.map_cons, List.nodup_cons]
        refine ⟨fun hmem => ?_, hids⟩
        obtain ⟨other, hother, heq⟩ := List.mem_map.mp hmem
        exact hfresh other hother (heq ▸ List.mem_cons_self)
      · intro other hother
        rcases List.mem_cons.mp hother with rfl | hother
        · exact hseen
        · exact fun hmem => hfresh other hother (List.mem_cons_of_mem _ hmem)
      · intro other hother
        rcases List.mem_cons.mp hother with rfl | hother
        · exact hmissing
        · exact hends other hother

/-- What acceptance establishes about the graph of a lineage. -/
structure WellLinked (lineage : Json) : Prop where
  node_ids : (nodeIds lineage).Nodup
  edge_ids : ((edgesOf lineage).map (strAt · "edge_id")).Nodup
  ends : ∀ edge ∈ edgesOf lineage, strAt edge "source_node_id" ∈ nodeIds lineage ∧
    strAt edge "target_node_id" ∈ nodeIds lineage

theorem wellLinked_of_construct (h : construct truncate artifacts envelope lineage = .ok ()) :
    WellLinked lineage := by
  obtain ⟨⟨⟩, -, h⟩ := bind_eq_ok.mp h
  split_ifs at h
  obtain ⟨⟨⟩, hids, h⟩ := bind_eq_ok.mp h
  obtain ⟨edge_ids, hedges, -⟩ := bind_eq_ok.mp h
  obtain ⟨hedge_ids, -, hends⟩ := edges_of_foldlM hedges List.nodup_nil
  exact ⟨requireDistinct_ok.mp hids, hedge_ids, hends⟩

theorem nodeOf_ok {id : String} {node : Json} (h : nodeOf lineage id = .ok node) :
    node ∈ nodesOf lineage ∧ strAt node "node_id" = id := by
  rw [nodeOf] at h
  cases hfind : byId "node_id" (nodesOf lineage) id with
  | none =>
      rw [hfind] at h
      cases h
  | some found =>
      rw [hfind] at h
      cases h
      obtain ⟨hmem, hid⟩ := mem_of_find? hfind
      exact ⟨List.mem_reverse.mp hmem, hid⟩

/-- Every node of an accepted lineage is looked up by its id. -/
theorem WellLinked.exists_nodeOf (h : WellLinked lineage) {id : String} (hid : id ∈ nodeIds lineage) :
    ∃ node, nodeOf lineage id = .ok node := by
  obtain ⟨node, hnode, rfl⟩ := List.mem_map.mp hid
  refine ⟨node, ?_⟩
  rw [nodeOf, byId_eq_of_nodup h.node_ids hnode rfl]

theorem WellLinked.leads_inside (h : WellLinked lineage) {relation_types : Option (Finset String)}
    {a b : String} (hleads : Leads lineage relation_types a b) : b ∈ nodeIds lineage := by
  obtain ⟨edge, hedge, -, -, rfl⟩ := hleads
  exact (h.ends edge hedge).2

/-- The search through a lineage finds a shortest path, or there is none. -/
theorem WellLinked.search (h : WellLinked lineage) {start_node_id : String}
    (hstart : start_node_id ∈ nodeIds lineage) (end_node_id : String)
    (relation_types : Option (Finset String)) :
    ∃ ids, BreadthFirst.search (targetsOf (adjacencyOf (allowedRelations relation_types)
        (edgesOf lineage))) end_node_id ((nodesOf lineage).length + 1)
        (Search.single start_node_id) = ids ∧
      ((ids = [] ∧ ¬ Relation.ReflTransGen (Leads lineage relation_types) start_node_id
          end_node_id) ∨
        IsShortest (Leads lineage relation_types) start_node_id ids end_node_id) := by
  have hedge : DepthFirst.Edge (targetsOf (adjacencyOf (allowedRelations relation_types)
      (edgesOf lineage))) = Leads lineage relation_types := by
    funext a b
    exact propext mem_targets_iff
  have hlength : (nodeIds lineage).length = (nodesOf lineage).length := List.length_map _
  have hinside : ∀ a ∈ nodeIds lineage, ∀ b ∈ targetsOf (adjacencyOf
      (allowedRelations relation_types) (edgesOf lineage)) a, b ∈ nodeIds lineage :=
    fun a _ b hb => h.leads_inside (mem_targets_iff.mp hb)
  refine ⟨_, rfl, ?_⟩
  rw [← hedge, ← hlength]
  exact search_from hinside hstart

/-- A path is returned exactly when the end can be reached.  It is a shortest one without repeated
nodes, and does not depend on the order in which the edges are listed. -/
theorem path_shortest (haccepted : construct truncate artifacts envelope lineage = .ok ())
    {start_node_id end_node_id : String} (hstart : start_node_id ∈ nodeIds lineage)
    (relation_types : Option (Finset String)) :
    ∃ documents, path lineage start_node_id end_node_id relation_types = .ok documents ∧
      (∀ node ∈ documents, node ∈ nodesOf lineage) ∧
      (documents ≠ [] ↔
        Relation.ReflTransGen (Leads lineage relation_types) start_node_id end_node_id) ∧
      (documents ≠ [] → IsShortest (Leads lineage relation_types) start_node_id
        (documents.map (strAt · "node_id")) end_node_id) ∧
      ∀ reordered, nodesOf reordered = nodesOf lineage →
        (edgesOf reordered).Perm (edgesOf lineage) →
          path reordered start_node_id end_node_id relation_types = .ok documents := by
  have h := wellLinked_of_construct haccepted
  obtain ⟨ids, hids, hfound⟩ := h.search hstart end_node_id relation_types
  have hinside : ∀ id ∈ ids, id ∈ nodeIds lineage := by
    rcases hfound with ⟨rfl, -⟩ | hshortest
    · intro id hid
      cases hid
    · exact hshortest.isWalk.subset hstart fun a _ b hleads => h.leads_inside hleads
  obtain ⟨documents, hdocuments⟩ := mapM_ok_of_forall fun id hid => h.exists_nodeOf (hinside id hid)
  have hnamed : documents.map (strAt · "node_id") = ids := by
    have hall : List.Forall₂ (fun id node => id = strAt node "node_id") ids documents :=
      (mapM_eq_ok.mp hdocuments).imp fun id node hnode => (nodeOf_ok hnode).2.symm
    rw [← List.forall₂_map_right_iff (R := Eq), List.forall₂_eq_eq_eq] at hall
    exact hall.symm
  have hempty : documents = [] ↔ ids = [] := by
    rw [← hnamed, List.map_eq_nil_iff]
  refine ⟨documents, ?_, ?_, ?_, ?_, ?_⟩
  · rw [path, hids]
    exact hdocuments
  · intro node hnode
    obtain ⟨id, -, hid⟩ := exists_of_mem_mapM hdocuments node hnode
    exact (nodeOf_ok hid).1
  · rw [ne_eq, hempty]
    rcases hfound with ⟨rfl, hnone⟩ | hshortest
    · simp [hnone]
    · refine iff_of_true ?_ hshortest.isWalk.reaches
      rintro rfl
      cases hshortest.isWalk.head
  · rw [ne_eq, hempty, hnamed]
    rcases hfound with ⟨rfl, -⟩ | hshortest
    · exact fun hne => absurd rfl hne
    · exact fun _ => hshortest
  · intro reordered hnodes hedges
    have hsame : nodeOf reordered = nodeOf lineage := by
      funext id
      rw [nodeOf, nodeOf, hnodes]
    rw [path, adjacencyOf_perm hedges h.edge_ids, hnodes, hsame, hids]
    exact hdocuments

end Accepted

/-! ## A cycle with two ways out

Two edges lead from the premise to the step, one leads back, and one leads on to the result. -/

section Sample

def linkedNode (node_id : String) : Json :=
  .ofMembers [("node_id", .str node_id), ("kind", .str "conclusion"),
    ("label", .str "label"), ("text", .str "text"), ("evidence_status", .str "verbatim"),
    ("position_state", .str "current"), ("source_message_refs", strings ["msg_01234567"]),
    ("source_span_refs", strings ["span_01234567"])]

def linkedEdge (edge_id source target relation_type : String) : Json :=
  .ofMembers [("edge_id", .str edge_id), ("source_node_id", .str source),
    ("target_node_id", .str target), ("relation_type", .str relation_type)]

def linkedLineage : Json :=
  .ofMembers [("schema_version", .str "fossil.conversation-lineage.v1"),
    ("lineage_id", .str "lin_0123456789ab"), ("conversation_id", .str "conv_0123456789ab"),
    ("nodes", .arr (["ln_000premise", "ln_0000step", "ln_00result"].map linkedNode)),
    ("edges", .arr [linkedEdge "le_00000004" "ln_0000step" "ln_00result" "leads_to",
      linkedEdge "le_00000002" "ln_000premise" "ln_0000step" "supports",
      linkedEdge "le_00000003" "ln_0000step" "ln_000premise" "depends_on",
      linkedEdge "le_00000001" "ln_000premise" "ln_0000step" "leads_to",
      linkedEdge "le_00000005" "ln_000premise" "ln_00result" "challenges"]),
    ("current_conclusion_refs", strings ["ln_00result"])]

theorem nodesOf_linked :
    nodesOf linkedLineage = ["ln_000premise", "ln_0000step", "ln_00result"].map linkedNode := by
  rw [nodesOf, itemsAt, linkedLineage, Json.get?_ofMembers]
  rfl

theorem construct_linked :
    construct (fun _ => 0) evidenceFiles.artifacts (evidenceDocument false).value linkedLineage =
      .ok () := by
  have hschema : lineageSchema linkedLineage = true := by decide +kernel
  have hid : linkedLineage.get? "conversation_id" =
      (evidenceDocument false).value.get? "conversation_id" := by decide +kernel
  have hedges : (edgesOf linkedLineage).foldlM (validateEdge linkedLineage) [] =
      .ok ["le_00000005", "le_00000001", "le_00000003", "le_00000002", "le_00000004"] := by
    decide +kernel
  have hconclusions : conclusionRefs linkedLineage = ["ln_00result"] := by decide +kernel
  have hconclusion : validateConclusion linkedLineage "ln_00result" = .ok () := by decide +kernel
  have hnodup : ((nodesOf linkedLineage).map fun node => strAt node "node_id").Nodup := by
    decide +kernel
  have hrefs : ∀ node ∈ nodesOf linkedLineage, spanRefsOf node = ["span_01234567"] ∧
      (messageRefsOf node).mapM (sourceMessage (evidenceDocument false).value node) =
        .ok [evidenceMessage] := by decide +kernel
  have hspan : "span_01234567" ∈
      (spansOf (evidenceDocument false).value).map fun span => strAt span "span_id" := by
    rw [evidenceDocument, spansOf_evidence]
    simp
  have hnode : ∀ node ∈ nodesOf linkedLineage, validateNode (fun _ => 0) evidenceFiles.artifacts
      (evidenceDocument false).value node = .ok () := by
    intro node hnode
    obtain ⟨hspans, hmessages⟩ := hrefs node hnode
    have hany : ([evidenceMessage].any fun message => !isVerbatim message) = false := by
      decide +kernel
    refine bind_eq_ok.mpr ⟨_, hmessages, bind_eq_ok.mpr ⟨(), forM_ok_iff.mpr ?_, ?_⟩⟩
    · rw [hspans, List.forall_mem_singleton, checkSpanRef, if_pos hspan]
      exact bind_eq_ok.mpr ⟨evidenceText, resolve_evidence false (Or.inl rfl), rfl⟩
    · rw [if_neg (by simp [hany])]
      rfl
  refine bind_eq_ok.mpr ⟨(), validateSchema_ok.mpr hschema, ?_⟩
  rw [if_neg (not_not.mpr hid)]
  refine bind_eq_ok.mpr ⟨(), requireDistinct_ok.mpr hnodup, bind_eq_ok.mpr ⟨_, hedges,
    bind_eq_ok.mpr ⟨(), forM_ok_iff.mpr hnode, forM_ok_iff.mpr ?_⟩⟩⟩
  rw [hconclusions, List.forall_mem_singleton]
  exact hconclusion

theorem path_shortest_linked :
    ∃ documents, path linkedLineage "ln_000premise" "ln_00result" none = .ok documents ∧
      (∀ node ∈ documents, node ∈ nodesOf linkedLineage) ∧
      (documents ≠ [] ↔
        Relation.ReflTransGen (Leads linkedLineage none) "ln_000premise" "ln_00result") ∧
      (documents ≠ [] → IsShortest (Leads linkedLineage none) "ln_000premise"
        (documents.map (strAt · "node_id")) "ln_00result") ∧
      ∀ reordered, nodesOf reordered = nodesOf linkedLineage →
        (edgesOf reordered).Perm (edgesOf linkedLineage) →
          path reordered "ln_000premise" "ln_00result" none = .ok documents :=
  path_shortest construct_linked (by decide +kernel) none

end Sample

end ConversationLineage

end FossilCore
