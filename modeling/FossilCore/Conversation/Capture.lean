import Mathlib.Data.Prod.Lex
import Mathlib.Data.String.Basic
import FossilCore.Base.KeyMap
import FossilCore.Base.ObjectSchema
import FossilCore.Source.Citation

/-!
# Shared-chat captures

`shared_chat_capture.py`: a receipt accounts for the nodes of the graph that a provider exposed of
a conversation, and states whether the capture is complete.  The nodes are given as records with
texts for their ids.
-/

namespace FossilCore

open Base

namespace Error

def sharedChatCaptureError (message : String) : Error := ⟨.sharedChatCaptureError, message⟩

end Error

namespace SharedChatCapture

open Schema (closedObject)

def SHARED_CHAT_CAPTURE_RECEIPT_VERSION : String := "fossil.shared-chat-capture-receipt.v1"

/-! ## The schema -/

def maxItems (n : ℕ) : Schema
  | .arr xs => xs.length ≤ n
  | _ => true

def nullableText : Schema := Schema.allOf [Schema.type [.string, .null], Schema.minLength 1]

def countSchema : Schema := Schema.allOf [Schema.type [.integer], Schema.minimum 0]

def uniqueIds : Schema :=
  Schema.allOf [Schema.type [.array], Schema.uniqueItems, Schema.items (_string 1)]

def sourceSchema (formats : FormatChecker) : Schema :=
  closedObject ["external_ref", "sha256", "byte_count", "captured_at"]
    [("external_ref", _string 1), ("artifact_id", nullableText),
      ("sha256", Schema.allOf [Schema.type [.string], Schema.pattern isHexDigest]),
      ("byte_count", countSchema),
      ("captured_at", Schema.allOf [Schema.type [.string], Schema.format formats.isDateTime])]

def fidelitySchema : Schema := Schema.enum (["verbatim", "reconstructed", "mixed"].map .str)

def unresolvedRefSchema : Schema :=
  closedObject ["from_node_id", "relation", "target_node_id"]
    [("from_node_id", _string 1),
      ("relation", Schema.enum (["parent", "child", "other"].map .str)),
      ("target_node_id", _string 1)]

def unresolvedRefsSchema : Schema :=
  Schema.allOf [Schema.type [.array], Schema.items unresolvedRefSchema]

def graphMembers : List (String × Schema) :=
  [("discovered_node_count", countSchema), ("accounted_node_count", countSchema),
    ("message_node_count", countSchema), ("discovered_node_ids", uniqueIds),
    ("accounted_node_ids", uniqueIds), ("message_node_ids", uniqueIds),
    ("root_node_ids", uniqueIds), ("current_node_id", nullableText),
    ("active_branch_node_ids", uniqueIds), ("non_active_exposed_node_ids", uniqueIds),
    ("unresolved_refs", unresolvedRefsSchema)]

def graphSchema : Schema := closedObject (graphMembers.map Prod.fst) graphMembers

def attemptSchema : Schema :=
  closedObject ["ref", "outcome"]
    [("ref", _string 1),
      ("outcome", Schema.enum (["success", "http_error", "timeout", "connection_error",
        "malformed", "cycle", "other_error"].map .str)),
      ("status_code", Schema.allOf [Schema.type [.integer, .null], Schema.minimum 100,
        Schema.maximum 599])]

def continuationSchema : Schema :=
  closedObject ["state", "mechanism", "attempts", "termination_reason"]
    [("state", Schema.enum (["not_present", "resolved", "unresolved"].map .str)),
      ("mechanism", Schema.type [.string, .null]),
      ("attempts", Schema.allOf [Schema.type [.array], Schema.items attemptSchema]),
      ("termination_reason", Schema.enum (["source_terminal", "continuation_exhausted",
        "http_error", "timeout", "connection_error", "malformed", "cycle",
        "unresolved_reference", "unknown"].map .str))]

def receiptMembers (formats : FormatChecker) : List (String × Schema) :=
  [("schema_version", Schema.const (.str SHARED_CHAT_CAPTURE_RECEIPT_VERSION)),
    ("capture_id", _string 1), ("provider", _string 1), ("adapter_version", nullableText),
    ("source", sourceSchema formats), ("fidelity", fidelitySchema),
    ("completeness", Schema.enum (["complete", "incomplete", "unknown"].map .str)),
    ("graph", graphSchema), ("continuation", continuationSchema)]

/-- The keywords `if` and `then` of the schema. -/
def completeSchema : Schema :=
  Schema.ifThen
    (Schema.allOf [Schema.properties [("completeness", Schema.const (.str "complete"))],
      Schema.required ["completeness"]])
    (Schema.properties [
      ("graph", Schema.properties [("discovered_node_count", Schema.minimum 1),
        ("accounted_node_count", Schema.minimum 1), ("discovered_node_ids", Schema.minItems 1),
        ("accounted_node_ids", Schema.minItems 1), ("unresolved_refs", maxItems 0)]),
      ("continuation", Schema.properties [
        ("state", Schema.enum (["not_present", "resolved"].map .str)),
        ("termination_reason",
          Schema.enum (["source_terminal", "continuation_exhausted"].map .str))])])

def receiptSchema (formats : FormatChecker) : Schema :=
  Schema.allOf [closedObject ["schema_version", "capture_id", "provider", "source", "fidelity",
    "completeness", "graph", "continuation"] (receiptMembers formats), completeSchema]

/-! ## Continuation accounting -/

/-- `all(attempt.get("outcome") == "success" for attempt in attempts)` -/
def allSucceeded : List Json → Except Error Bool
  | [] => .ok true
  | attempt :: rest => do
      let outcome ← liftPy (attempt.getMethod "outcome")
      if outcome = some (.str "success") then allSucceeded rest else return false

def _continuation_is_terminal_success (continuation : Json) : Except Error Bool := do
  let state ← liftPy (continuation.getMethod "state")
  let termination_reason ← liftPy (continuation.getMethod "termination_reason")
  let attempts ← liftPy (continuation.getMethod "attempts")
  let attempts ← iterate (attempts.getD (.arr []))
  if state = some (.str "not_present") then
    return termination_reason = some (.str "source_terminal") ∧ attempts = []
  else if state = some (.str "resolved") then
    if termination_reason = some (.str "continuation_exhausted") ∧ attempts ≠ [] then
      allSucceeded attempts
    else return false
  else return false

/-! ## Validating a receipt -/

/-- `{str(value) for value in graph[field]}` -/
def _ids (graph : Json) (field : String) : Except Error (Finset String) := do
  let values ← liftPy (graph.getItem field) >>= iterate
  return (values.map Json.pyStr).toFinset

def refuse (condition : Prop) [Decidable condition] (message : String) : Except Error Unit :=
  if condition then .error (.sharedChatCaptureError message) else .ok ()

/-- The sets of node ids that the checks read of a graph. -/
structure Accounting where
  discovered : Finset String
  accounted : Finset String
  messages : Finset String
  roots : Finset String
  active : Finset String
  non_active : Finset String

def accountingOf (graph : Json) : Except Error Accounting := do
  let discovered ← _ids graph "discovered_node_ids"
  let accounted ← _ids graph "accounted_node_ids"
  let messages ← _ids graph "message_node_ids"
  let roots ← _ids graph "root_node_ids"
  let active ← _ids graph "active_branch_node_ids"
  let non_active ← _ids graph "non_active_exposed_node_ids"
  return { discovered, accounted, messages, roots, active, non_active }

section Checks

variable (truncate : FloatText → ℤ) (graph : Json) (sets : Accounting)

def checkCount (entry : String × Finset String) : Except Error Unit := do
  let stated ← liftPy (graph.getItem entry.1) >>= toInt truncate
  refuse (stated ≠ entry.2.card)
    ("capture " ++ entry.1 ++ " must equal the number of corresponding node IDs")

def checkCounts : Except Error Unit :=
  [("discovered_node_count", sets.discovered), ("accounted_node_count", sets.accounted),
    ("message_node_count", sets.messages)].forM (checkCount truncate graph)

def checkSubsets : Except Error Unit :=
  [("accounted_node_ids", sets.accounted), ("message_node_ids", sets.messages),
    ("root_node_ids", sets.roots), ("active_branch_node_ids", sets.active),
    ("non_active_exposed_node_ids", sets.non_active)].forM fun entry =>
      refuse (¬ entry.2 ⊆ sets.discovered)
        ("capture " ++ entry.1 ++ " must be a subset of discovered_node_ids")

def checkPartition : Except Error Unit := do
  refuse (sets.active ∩ sets.non_active ≠ ∅)
    "capture active and non-active exposed node sets must be disjoint"
  refuse (sets.active ∪ sets.non_active ≠ sets.discovered)
    "capture active and non-active exposed node sets must partition discovered nodes"

def checkReferences : Except Error Unit := do
  let current_node_id ← liftPy (graph.getItem "current_node_id")
  refuse (current_node_id ≠ .null ∧ current_node_id.pyStr ∉ sets.discovered)
    "capture current_node_id must reference a discovered node"
  let unresolved_refs ← liftPy (graph.getItem "unresolved_refs") >>= iterate
  unresolved_refs.forM fun unresolved => do
    let from_node_id ← liftPy (unresolved.getItem "from_node_id")
    refuse (from_node_id.pyStr ∉ sets.discovered)
      "capture unresolved reference source must be a discovered node"

def checkComplete (candidate : Json) : Except Error Unit := do
  refuse (sets.discovered = ∅) "complete capture requires at least one discovered node"
  refuse (sets.messages = ∅) "complete capture requires at least one message-bearing node"
  refuse (sets.roots = ∅) "complete capture requires at least one root node"
  refuse (sets.accounted ≠ sets.discovered)
    "complete capture requires every discovered node to be accounted for"
  let unresolved_refs ← liftPy (graph.getItem "unresolved_refs")
  refuse unresolved_refs.truthy "complete capture cannot contain unresolved graph references"
  let continuation ← liftPy (candidate.getItem "continuation")
  let success ← _continuation_is_terminal_success continuation
  refuse (!success)
    "complete capture requires successful terminal continuation accounting"

end Checks

variable (truncate : FloatText → ℤ) (formats : FormatChecker)

def validate_shared_chat_capture_receipt (receipt : Json) : Except Error Json := do
  let candidate ← asMapping receipt
  if receiptSchema formats candidate = false then .error ⟨.validationError, ""⟩
  else
    let graph ← liftPy (candidate.getItem "graph")
    let sets ← accountingOf graph
    checkCounts truncate graph sets
    checkSubsets sets
    checkPartition sets
    checkReferences graph sets
    let completeness ← liftPy (candidate.getItem "completeness")
    checkIf (completeness = .str "complete") (checkComplete graph sets candidate)
    return candidate

/-! ## The exposed graph -/

structure Node where
  parent_id : Option String
  child_ids : List String
  message_present : Bool

abbrev Nodes := Dict String Node

inductive Relation where
  | parent
  | child
  | other
  deriving DecidableEq

def Relation.name : Relation → String
  | .parent => "parent"
  | .child => "child"
  | .other => "other"

structure UnresolvedRef where
  from_node_id : String
  relation : Relation
  target_node_id : String
  deriving DecidableEq

def UnresolvedRef.members (r : UnresolvedRef) : List (String × Json) :=
  [("from_node_id", .str r.from_node_id), ("relation", .str r.relation.name),
    ("target_node_id", .str r.target_node_id)]

def UnresolvedRef.json (r : UnresolvedRef) : Json := .ofMembers r.members

/-- What is recorded of a node at which a chain of parents is broken off. -/
def brokenAt (node_id : String) : UnresolvedRef := ⟨node_id, .other, node_id⟩

section Graph

variable (nodes : Nodes)

def parentRefs (node_id : String) (node : Node) : List UnresolvedRef :=
  match node.parent_id with
  | none => []
  | some parent_id =>
      match nodes.get? parent_id with
      | none => [⟨node_id, .parent, parent_id⟩]
      | some parent => if node_id ∈ parent.child_ids then [] else [⟨node_id, .other, parent_id⟩]

def childRef (node_id child_id : String) : Option UnresolvedRef :=
  match nodes.get? child_id with
  | none => some ⟨node_id, .child, child_id⟩
  | some child =>
      if child.parent_id = some node_id then none else some ⟨node_id, .other, child_id⟩

def nodeRefs (node_id : String) : List UnresolvedRef :=
  match nodes.get? node_id with
  | none => []
  | some node => parentRefs nodes node_id node ++ node.child_ids.filterMap (childRef nodes node_id)

/-- The loop from a node along its parents; `remaining` is `len(nodes) - steps`. -/
def brokenChain : ℕ → List String → Option String → Option UnresolvedRef
  | _, _, none => none
  | remaining, visited, some cursor =>
      match nodes.get? cursor with
      | none => none
      | some node =>
          if cursor ∈ visited then some (brokenAt cursor)
          else match remaining with
            | 0 => some (brokenAt cursor)
            | remaining + 1 => brokenChain remaining (cursor :: visited) node.parent_id

def _graph_unresolved_refs : List UnresolvedRef :=
  (sorted nodes.keys).flatMap (nodeRefs nodes) ++
    (sorted nodes.keys).filterMap fun start =>
      brokenChain nodes nodes.entries.length [] (some start)

/-- The loop from the current node; `path` is `reverse_path`, its last member first. -/
def branch : ℕ → List String → String → List String × List UnresolvedRef
  | remaining, path, cursor =>
      if cursor ∈ path then (path, [brokenAt cursor])
      else match remaining with
        | 0 => (path, [brokenAt cursor])
        | remaining + 1 =>
            match (nodes.get? cursor).bind Node.parent_id with
            | none => (cursor :: path, [])
            | some parent_id =>
                -- the graph's own references record a missing parent
                if nodes.contains parent_id then branch remaining (cursor :: path) parent_id
                else (cursor :: path, [])

def _active_branch (current_node_id : Option String) : List String × List UnresolvedRef :=
  match current_node_id with
  | none => ([], [])
  | some current =>
      if nodes.contains current then branch nodes nodes.entries.length [] current
      else match nodes.keys.min? with
        | none => ([], [])
        | some least => ([], [⟨least, .other, current⟩])

end Graph

/-! ## Building a receipt -/

/-- What a receipt states beside the graph. -/
structure CaptureFields where
  capture_id : String
  provider : String
  adapter_version : Option String
  source : Json
  fidelity : String
  continuation : Json

def refKey (r : UnresolvedRef) : String ×ₗ String ×ₗ String :=
  toLex (r.from_node_id, toLex (r.relation.name, r.target_node_id))

/-- The ids of the nodes with a property, in their order. -/
def idsWhere (nodes : Nodes) (keep : Node → Bool) : List String :=
  sorted ((nodes.entries.filter fun entry => keep entry.2).map Prod.fst)

/-- What is derived from the nodes. -/
structure Derived where
  discovered : List String
  roots : List String
  message_nodes : List String
  active : List String
  non_active : List String
  unresolved : List UnresolvedRef
  recorded_current : Option String

def derivedOf (nodes : Nodes) (current_node_id : Option String) : Derived where
  discovered := sorted nodes.keys
  roots := idsWhere nodes fun node => node.parent_id.isNone
  message_nodes := idsWhere nodes Node.message_present
  active := (_active_branch nodes current_node_id).1
  non_active := sorted (nodes.keys.filter (· ∉ (_active_branch nodes current_node_id).1))
  unresolved := sortedBy refKey
    (_graph_unresolved_refs nodes ++ (_active_branch nodes current_node_id).2)
  recorded_current := current_node_id.filter nodes.contains

def Derived.members (d : Derived) : List (String × Json) :=
  [("discovered_node_count", .int d.discovered.length),
    ("accounted_node_count", .int d.discovered.length),
    ("message_node_count", .int d.message_nodes.length),
    ("discovered_node_ids", strings d.discovered),
    ("accounted_node_ids", strings d.discovered),
    ("message_node_ids", strings d.message_nodes),
    ("root_node_ids", strings d.roots),
    ("current_node_id", SourceSnapshotStore.optionalText d.recorded_current),
    ("active_branch_node_ids", strings d.active),
    ("non_active_exposed_node_ids", strings d.non_active),
    ("unresolved_refs", .arr (d.unresolved.map UnresolvedRef.json))]

def Derived.graph (d : Derived) : Json := .ofMembers d.members

/-- Nothing is missing of the graph. -/
def Derived.IsWhole (d : Derived) : Prop :=
  d.discovered ≠ [] ∧ d.message_nodes ≠ [] ∧ d.roots ≠ [] ∧ d.unresolved = []

instance (d : Derived) : Decidable d.IsWhole := inferInstanceAs (Decidable (_ ∧ _))

def completenessOf (d : Derived) (continuation : Json) : Except Error Bool :=
  if d.IsWhole then _continuation_is_terminal_success continuation else .ok false

def receiptMembersOf (capture : CaptureFields) (d : Derived) (complete : Bool) :
    List (String × Json) :=
  [("schema_version", .str SHARED_CHAT_CAPTURE_RECEIPT_VERSION),
    ("capture_id", .str capture.capture_id),
    ("provider", .str capture.provider),
    ("adapter_version", SourceSnapshotStore.optionalText capture.adapter_version),
    ("source", capture.source),
    ("fidelity", .str capture.fidelity),
    ("completeness", .str (if complete then "complete" else "incomplete")),
    ("graph", d.graph),
    ("continuation", capture.continuation)]

def receiptOf (capture : CaptureFields) (d : Derived) (complete : Bool) : Json :=
  .ofMembers (receiptMembersOf capture d complete)

def build_shared_chat_capture_receipt (capture : CaptureFields) (nodes : Nodes)
    (current_node_id : Option String) : Except Error Json := do
  let d := derivedOf nodes current_node_id
  let continuation ← asMapping capture.continuation
  let complete ← completenessOf d continuation
  let source ← asMapping capture.source
  validate_shared_chat_capture_receipt truncate formats
    (receiptOf { capture with source, continuation } d complete)

/-! ## Uses of a receipt -/

/-- The identity of the captured bytes in the artifact store. -/
def expectedArtifactId (sha256 : Sha256) (source_bytes : ByteArray) : String :=
  "art_" ++ Text.take (sha256.hexdigest source_bytes) 32

def bind_shared_chat_capture_source (sha256 : Sha256) (receipt : Json) (source_bytes : ByteArray)
    (artifact_id : Option String) : Except Error Json := do
  let candidate ← validate_shared_chat_capture_receipt truncate formats receipt
  let source ← liftPy (candidate.getItem "source")
  let stated ← liftPy (source.getItem "sha256")
  refuse (stated ≠ .str (sha256.hexdigest source_bytes))
    "capture source sha256 does not match the exact source bytes"
  let byte_count ← liftPy (source.getItem "byte_count") >>= toInt truncate
  refuse (byte_count ≠ source_bytes.size)
    "capture source byte_count does not match the exact source bytes"
  let expected_artifact_id := expectedArtifactId sha256 source_bytes
  let declared_artifact_id := ((← liftPy (source.getMethod "artifact_id"))).getD .null
  refuse (declared_artifact_id ≠ .null ∧ declared_artifact_id ≠ .str expected_artifact_id)
    "capture source artifact identity does not match source sha256"
  refuse (artifact_id.any fun id => id ≠ expected_artifact_id)
    "stored capture artifact identity does not match source sha256"
  validate_shared_chat_capture_receipt truncate formats
    (candidate.set "source" (source.set "artifact_id" (.str expected_artifact_id)))

def require_complete_shared_chat_capture (receipt : Json) : Except Error Json := do
  let candidate ← validate_shared_chat_capture_receipt truncate formats receipt
  let completeness ← liftPy (candidate.getItem "completeness")
  refuse (completeness.pyStr ≠ "complete")
    ("shared-chat capture completeness is " ++ completeness.pyStr ++
      "; complete conversation ingestion is refused")
  return candidate

end SharedChatCapture

end FossilCore
