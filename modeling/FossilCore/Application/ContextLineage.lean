import FossilCore.Application.ContextSecurity

/-!
# Lineage context

`application/query/lineage.py`: the endpoints of retrieved relations are added to the context
from the durable documents of the allowed packs.
-/

namespace FossilCore

open Base

def LINEAGE_CONTEXT_RESOLVER : String := "fossil-lineage-context-v1"

/-- The endpoints chosen so far, and the ids that are already in the context. -/
structure Expansion where
  expansion_ids : List String
  selected_ids : Finset String

namespace Expansion

variable (document_by_id : Dict String Json) (max_expansions : ℤ)

def isFull (state : Expansion) : Bool := (state.expansion_ids.length : ℤ) ≥ max_expansions

def choose (state : Expansion) (identifier : String) : Expansion :=
  ⟨state.expansion_ids ++ [identifier], insert identifier state.selected_ids⟩

def isNew (state : Expansion) (identifier : String) : Bool :=
  identifier ≠ "" ∧ identifier ∉ state.selected_ids ∧ document_by_id.contains identifier

/-- The loop over the reference keys of one relation. -/
def expandKeys (item : Json) : List String → Expansion → Expansion
  | [], state => state
  | key :: keys, state =>
      let identifier := textOf item key
      if state.isNew document_by_id identifier then
        let state := state.choose identifier
        if state.isFull max_expansions then state else expandKeys item keys state
      else expandKeys item keys state

/-- The loop over the selected items. -/
def expandItems : List Json → Expansion → Expansion
  | [], state => state
  | item :: rest, state =>
      if textOf item "document_type" ≠ "relation" then expandItems rest state
      else
        let state := expandKeys document_by_id max_expansions item ["source_ref", "target_ref"] state
        if state.isFull max_expansions then state else expandItems rest state

end Expansion

/-- `{str(document["id"]): document for document in documents if .. in allowed}` -/
def allowedById (documents : List Json) (allowed : List String) :
    Except Error (Dict String Json) := do
  let pairs ← (documents.filter fun document => textOf document "pack_id" ∈ allowed).mapM
    fun document => do
      let id ← liftPy (document.getItem "id")
      return (id.pyStr, document)
  return .ofPairs pairs

/-- A durable document that is added to the context. -/
def expandedItem (document : Json) : Json :=
  document.set "context_expansion" (.ofMembers [
    ("reason", .str "durable_relation_endpoint"),
    ("resolver", .str LINEAGE_CONTEXT_RESOLVER)])

def expandDocument (document_by_id : Dict String Json) (identifier : String) : Except Error Json :=
  match document_by_id.get? identifier with
  | some document => .ok (expandedItem document)
  | none => .error (.keyError identifier)

/-- The items and the diagnostics. -/
def expand_context_with_lineage_diagnostics (context_items documents : List Json)
    (pack_ids : List String) (max_expansions : ℤ) : Except Error (List Json × Json) := do
  if max_expansions < 0 then .error (.valueError "max_expansions must be non-negative")
  else
    let document_by_id ← allowedById documents pack_ids
    let selected ← context_items.mapM asMapping
    let input_ids := itemIds selected
    let state := Expansion.expandItems document_by_id max_expansions selected
      ⟨[], input_ids.toFinset⟩
    let expansions ← state.expansion_ids.mapM (expandDocument document_by_id)
    return (selected ++ expansions, .ofMembers [
      ("resolver", .str LINEAGE_CONTEXT_RESOLVER),
      ("allowed_pack_ids", strings (sortedSet pack_ids)),
      ("input_context_ids", strings input_ids),
      ("expanded_ids", strings state.expansion_ids),
      ("final_context_ids", strings (itemIds (selected ++ expansions))),
      ("max_expansions", .int max_expansions)])

structure LineageResolvedModelService where
  service : ModelService
  documents : Documents
  max_expansions : ℤ
  nonnegative : 0 ≤ max_expansions

namespace LineageResolvedModelService

variable (self : LineageResolvedModelService)

def metadata : Except Error Json := do
  let metadata ← self.service.metadata >>= asMapping
  let runtime ← asMapping ((metadata.get? "runtime").getD (.obj []))
  return metadata.set "runtime" ((runtime
    |>.set "lineage_context_resolver" (.str LINEAGE_CONTEXT_RESOLVER))
    |>.set "lineage_max_expansions" (.str (toString self.max_expansions)))

/-- The request that the wrapped service is run on, and the diagnostics. -/
def resolve (task : Json) : Except Error (Json × Json) := do
  let context_items ← liftPy (task.getMethod "context_items")
  let pack_ids ← UntrustedContextModelService.requestPacks task
  let context_items ← iterate (context_items.getD (.arr []))
  let (expanded, diagnostics) ← expand_context_with_lineage_diagnostics context_items
    self.documents.items pack_ids self.max_expansions
  return (task.set "context_items" (.arr expanded), diagnostics)

def run (task : Json) : Except Error Json := do
  let (request, diagnostics) ← self.resolve task
  let response ← self.service.run request >>= asMapping
  let metadata ← self.metadata
  return (response.set "service" metadata).set "lineage_resolution" diagnostics

end LineageResolvedModelService

end FossilCore
