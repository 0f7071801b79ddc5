import Mathlib.Data.Finset.Insert
import FossilCore.Base.Checks
import FossilCore.Base.Dict
import FossilCore.Base.JsonEquality
import FossilCore.Base.JsonObject
import FossilCore.Base.KeyMap
import FossilCore.Base.Sha2
import FossilCore.Domain.Promotion

/-!
# The untrusted-context boundary

`application/query/security.py`: retrieved items are resolved against the mounted durable
documents before a model sees them, and the model's response is rebuilt before it leaves.
-/

namespace FossilCore

open Base

def CONTEXT_SECURITY_RESOLVER : String := "fossil-untrusted-context-v1"

def UNTRUSTED_SOURCE_DATA : String := "untrusted_source_data"

def _CITATION_KEYS : List String :=
  ["schema_version", "citation_id", "snapshot_id", "artifact_id", "byte_start", "byte_end",
    "passage_hash"]

def _EXECUTABLE_FIELDS : List String :=
  ["actions", "commit", "commit_request", "commit_requests", "proposals", "requested_actions",
    "tool_call", "tool_calls", "tools"]

def _ALLOWED_OUTPUT_FIELDS : List String := ["outcome", "answer_text", "claims", "confidence"]

def _ALLOWED_CLAIM_FIELDS : List String := ["claim_id", "text", "citation"]

/-! ## Canonical context -/

/-- `value.get(key)`, where an absent member is `None`. -/
def member (value : Json) (key : String) : Json := (value.get? key).getD .null

def _canonical_citation (value : Json) : Json :=
  if value.isObj then .ofMembers (_CITATION_KEYS.map fun key => (key, member value key)) else .null

def _authority_projection (value : Json) : Json :=
  .ofMembers [
    ("id", member value "id"),
    ("pack_id", member value "pack_id"),
    ("text", member value "text"),
    ("document_type", member value "document_type"),
    ("current_state", member value "current_state"),
    ("state_history", member value "state_history"),
    ("relation_type", member value "relation_type"),
    ("source_ref", member value "source_ref"),
    ("target_ref", member value "target_ref"),
    ("citation", _canonical_citation (member value "citation"))]

def _untrusted_fingerprint (pack_id text : String) : String :=
  Sha2.hexdigest (pack_id ++ "\x00" ++ text).toUTF8

/-- An item that is forwarded to the model. -/
inductive SecuredItem where
  | resolved (document : Json) (mismatch : Bool)
  | untrusted (identifier pack_id text claimed_document_type : String)

def SecuredItem.json : SecuredItem → Json
  | .resolved document mismatch =>
      document.set "context_security" (.ofMembers [
        ("resolver", .str CONTEXT_SECURITY_RESOLVER),
        ("trust", .str UNTRUSTED_SOURCE_DATA),
        ("authority", .str "durable_identity_resolved"),
        ("retrieved_payload_mismatch", .bool mismatch)])
  | .untrusted identifier pack_id text claimed_document_type =>
      .ofMembers [
        ("id", .str identifier),
        ("pack_id", .str pack_id),
        ("text", .str text),
        ("document_type", .str "untrusted_context"),
        ("context_security", .ofMembers [
          ("resolver", .str CONTEXT_SECURITY_RESOLVER),
          ("trust", .str UNTRUSTED_SOURCE_DATA),
          ("authority", .str "unresolved_untrusted_payload"),
          ("claimed_document_type", .str claimed_document_type)])]

/-- The documents by the texts of their ids; a later one replaces an earlier one. -/
def durableById (documents : List Json) : Dict String Json :=
  .ofPairs ((documents.filter fun document => member document "id" ≠ .null).map fun document =>
    (textOf document "id", document))

/-- The lists and sets that `canonicalize_untrusted_context` fills. -/
structure ContextState where
  secured : List SecuredItem
  seen_durable_ids : Finset String
  seen_untrusted_fingerprints : Finset String
  canonicalized_ids : List String
  mismatched_ids : List String
  demoted_ids : List String
  dropped_ids : List String
  deduplicated_ids : List String

namespace ContextState

def initial : ContextState := ⟨[], ∅, ∅, [], [], [], [], []⟩

def drop (state : ContextState) (identifier : String) : ContextState :=
  { state with
    dropped_ids := state.dropped_ids ++ [if identifier = "" then "<missing-id>" else identifier] }

def deduplicate (state : ContextState) (label : String) : ContextState :=
  { state with deduplicated_ids := state.deduplicated_ids ++ [label] }

def forwardResolved (state : ContextState) (identifier : String) (durable : Json)
    (mismatch : Bool) : ContextState :=
  { state with
    secured := state.secured ++ [.resolved durable mismatch]
    seen_durable_ids := insert identifier state.seen_durable_ids
    canonicalized_ids := state.canonicalized_ids ++ [identifier]
    mismatched_ids :=
      if mismatch then state.mismatched_ids ++ [identifier] else state.mismatched_ids }

def forwardUntrusted (state : ContextState)
    (identifier pack_id text claimed_document_type fingerprint : String) : ContextState :=
  { state with
    secured := state.secured ++ [.untrusted identifier pack_id text claimed_document_type]
    seen_untrusted_fingerprints := insert fingerprint state.seen_untrusted_fingerprints
    demoted_ids := state.demoted_ids ++ [identifier] }

/-- An item whose id names a durable document. -/
def resolve (state : ContextState) (allowed : List String) (raw durable : Json)
    (identifier : String) : ContextState :=
  if textOf durable "pack_id" ∉ allowed then state.drop identifier
  else if identifier ∈ state.seen_durable_ids then state.deduplicate identifier
  else
    state.forwardResolved identifier durable
      (!Json.pyEq (_authority_projection raw) (_authority_projection durable))

/-- An item without a durable document, under its fingerprint. -/
def demoteAs (state : ContextState) (allowed : List String) (raw : Json)
    (fingerprint : String) : ContextState :=
  let identifier := textOf raw "id"
  if textOf raw "pack_id" ∉ allowed then state.drop identifier
  else if fingerprint ∈ state.seen_untrusted_fingerprints then
    state.deduplicate
      (if identifier = "" then "sha256:" ++ Text.take fingerprint 16 else identifier)
  else
    state.forwardUntrusted
      (if identifier = "" then "untrusted_" ++ Text.take fingerprint 24 else identifier)
      (textOf raw "pack_id") (textOf raw "text") (textOf raw "document_type") fingerprint

def demote (state : ContextState) (allowed : List String) (raw : Json) : ContextState :=
  state.demoteAs allowed raw (_untrusted_fingerprint (textOf raw "pack_id") (textOf raw "text"))

def secureItem (durable_by_id : Dict String Json) (allowed : List String) (state : ContextState)
    (raw : Json) : ContextState :=
  let identifier := textOf raw "id"
  match if identifier = "" then none else durable_by_id.get? identifier with
  | some durable => state.resolve allowed raw durable identifier
  | none => state.demote allowed raw

end ContextState

/-- `sorted(set(texts))` -/
def sortedSet (texts : List String) : List String := sorted texts.dedup

/-- `[str(item.get("id", "")) for item in items if item.get("id")]` -/
def itemIds (items : List Json) : List String :=
  (items.filter fun item => (member item "id").truthy).map fun item => textOf item "id"

def contextDiagnostics (allowed : List String) (input_item_count : ℕ) (state : ContextState) :
    Json :=
  let secured := state.secured.map SecuredItem.json
  .ofMembers [
    ("resolver", .str CONTEXT_SECURITY_RESOLVER),
    ("source_text_trust", .str UNTRUSTED_SOURCE_DATA),
    ("allowed_pack_ids", strings (sortedSet allowed)),
    ("input_item_count", .int input_item_count),
    ("forwarded_item_count", .int secured.length),
    ("forwarded_item_ids", strings (itemIds secured)),
    ("forwarded_pack_ids", strings (sortedSet
      ((secured.filter fun item => (member item "pack_id").truthy).map fun item =>
        textOf item "pack_id"))),
    ("canonicalized_ids", strings state.canonicalized_ids),
    ("retrieved_payload_mismatch_ids", strings state.mismatched_ids),
    ("demoted_untrusted_ids", strings state.demoted_ids),
    ("dropped_out_of_scope_ids", strings state.dropped_ids),
    ("deduplicated_ids", strings state.deduplicated_ids)]

/-- The items and the diagnostics. -/
def canonicalize_untrusted_context (context_items documents : List Json)
    (pack_ids : List String) : Except Error (List SecuredItem × Json) := do
  let raw_items ← context_items.mapM asMapping
  let state := raw_items.foldl (ContextState.secureItem (durableById documents) pack_ids) .initial
  return (state.secured, contextDiagnostics pack_ids raw_items.length state)

def _durable_claim_payload (document : Json) : Json :=
  let citation := _canonical_citation (member document "citation")
  .ofMembers ([
    ("claim_id", .str (textOf document "id")),
    ("text", .str (textOf document "text"))] ++
      if citation = .null then [] else [("citation", citation)])

/-! ## The service -/

/-- What a wrapper uses of the service it wraps; both answers are decoded values. -/
structure ModelService where
  metadata : Except Error Json
  run : Json → Except Error Json
  metadata_wf : ∀ value, metadata = .ok value → value.WF
  run_wf : ∀ request response, run request = .ok response → response.WF

/-- The durable documents that a wrapper keeps. -/
structure Documents where
  items : List Json
  mappings : ∀ document ∈ items, document.isObj = true ∧ document.WF

theorem asMapping_ok {item value : Json} :
    asMapping item = .ok value ↔ item = value ∧ value.isObj = true := by
  by_cases h : item.isObj = true
  · rw [asMapping, if_pos h]
    constructor
    · intro heq
      rw [← Except.ok.inj heq]
      exact ⟨rfl, h⟩
    · rintro ⟨rfl, -⟩
      rfl
  · rw [asMapping, if_neg h]
    constructor
    · intro heq
      cases heq
    · rintro ⟨rfl, hobj⟩
      exact absurd hobj h

theorem bind_asMapping_ok {x : Except Error Json} {value : Json} :
    (x >>= asMapping) = .ok value ↔ x = .ok value ∧ value.isObj = true := by
  rw [bind_eq_ok]
  constructor
  · rintro ⟨item, hx, hitem⟩
    obtain ⟨rfl, hobj⟩ := asMapping_ok.mp hitem
    exact ⟨hx, hobj⟩
  · rintro ⟨hx, hobj⟩
    exact ⟨value, hx, asMapping_ok.mpr ⟨rfl, hobj⟩⟩

structure UntrustedContextModelService where
  service : ModelService
  documents : Documents

/-- What the loop over the model's claims has collected. -/
structure ClaimLoop where
  canonical_claims : List Json
  invalid_claim_ids : List String
  blocked_claim_fields : Json

/-- The id that a claim of the model names. -/
def claimId (claim_value : Json) : String :=
  textOf (if claim_value.isObj then claim_value else .obj []) "claim_id"

/-- The durable claim that a claim of the model names. -/
def citedDocument (durable_claims : Dict String Json) (claim_value : Json) : Option Json :=
  if claimId claim_value = "" then none else durable_claims.get? (claimId claim_value)

/-- One claim of the model. -/
def ClaimLoop.step (durable_claims : Dict String Json) (state : ClaimLoop) (claim_value : Json) :
    ClaimLoop :=
  let identifier := claimId claim_value
  match citedDocument durable_claims claim_value with
  | none =>
      { state with
        invalid_claim_ids := state.invalid_claim_ids ++
          [if identifier = "" then "<missing-id>" else identifier] }
  | some document =>
      let extras := sorted
        ((claim_value.fields.map Prod.fst).filter fun key => key ∉ _ALLOWED_CLAIM_FIELDS)
      { state with
        canonical_claims := state.canonical_claims ++ [_durable_claim_payload document]
        blocked_claim_fields :=
          if extras = [] then state.blocked_claim_fields
          else state.blocked_claim_fields.set identifier (strings extras) }

def one : FloatText := ⟨"1.0".toList, by decide⟩

def abstention : Json :=
  .ofMembers [
    ("outcome", .str "insufficient_evidence"),
    ("answer_text", .str "Insufficient evidence."),
    ("claims", .arr []),
    ("confidence", .float one)]

namespace UntrustedContextModelService

variable (self : UntrustedContextModelService)

/-- What `metadata` makes of the metadata of the wrapped service and its runtime. -/
def hardened (metadata runtime : Json) : Json :=
  metadata.set "runtime" (((runtime
    |>.set "context_security_resolver" (.str CONTEXT_SECURITY_RESOLVER))
    |>.set "retrieved_source_text_trust" (.str UNTRUSTED_SOURCE_DATA))
    |>.set "answer_tool_execution" (.str "disabled"))

/-- `metadata.get("runtime", {})` -/
def runtimeOf (metadata : Json) : Json := (metadata.get? "runtime").getD (.obj [])

def metadata : Except Error Json := do
  let metadata ← self.service.metadata >>= asMapping
  let runtime ← asMapping (runtimeOf metadata)
  return hardened metadata runtime

/-- `[str(item) for item in request.get("pack_ids", [])]` -/
def requestPacks (task : Json) : Except Error (List String) := do
  let pack_ids ← liftPy (task.getMethod "pack_ids")
  let items ← iterate (pack_ids.getD (.arr []))
  return items.map Json.pyStr

/-- The items, the diagnostics and the request that the wrapped service is run on. -/
structure Secured where
  secured_items : List SecuredItem
  diagnostics : Json
  request : Json

def secure (task : Json) : Except Error Secured := do
  let pack_ids ← requestPacks task
  let context_items ← iterate ((task.get? "context_items").getD (.arr []))
  let (secured_items, diagnostics) ←
    canonicalize_untrusted_context context_items self.documents.items pack_ids
  let request := (task.set "context_items" (.arr (secured_items.map SecuredItem.json))).set
    "context_security" (.ofMembers [
      ("resolver", .str CONTEXT_SECURITY_RESOLVER),
      ("retrieved_source_text", .str UNTRUSTED_SOURCE_DATA),
      ("retrieved_text_can_issue_policy", .bool false),
      ("model_can_execute_tools", .bool false),
      ("durable_claim_resolution_required", .bool true)])
  return ⟨secured_items, diagnostics, request.eraseAll _EXECUTABLE_FIELDS⟩

/-- Is the document a claim of an allowed pack? -/
def isAllowedClaim (allowed : List String) (document : Json) : Bool :=
  textOf document "pack_id" ∈ allowed ∧ textOf document "document_type" = "claim"

def durableClaims (allowed : List String) : Except Error (Dict String Json) := do
  let pairs ← (self.documents.items.filter (isAllowedClaim allowed)).mapM fun document => do
    let id ← liftPy (document.getItem "id")
    return (id.pyStr, document)
  return .ofPairs pairs

/-- The model's output, as a dictionary. -/
def rawOutput (raw_response : Json) : Json :=
  let value := (raw_response.get? "output").getD (.obj [])
  if value.isObj then value else .obj []

/-- The members of the model's output under allowed keys. -/
def allowedOutput (raw_output : Json) : Json :=
  .obj (raw_output.fields.filter fun field => field.1 ∈ _ALLOWED_OUTPUT_FIELDS)

/-- The claims in the model's output. -/
def claimValues (output : Json) : List Json := ((output.get? "claims").getD (.arr [])).items

def claimLoop (durable_claims : Dict String Json) (output : Json) : ClaimLoop :=
  (claimValues output).foldl (ClaimLoop.step durable_claims) ⟨[], [], .obj []⟩

def finalOutput (output : Json) (state : ClaimLoop) : Json :=
  if state.invalid_claim_ids = [] then output.set "claims" (.arr state.canonical_claims)
  else abstention

def outputDiagnostics (diagnostics response raw_output : Json) (state : ClaimLoop) : Json :=
  (((diagnostics
    |>.set "blocked_response_fields"
      (strings (sorted ((response.fields.map Prod.fst).filter fun key => key ∈ _EXECUTABLE_FIELDS))))
    |>.set "blocked_output_fields"
      (strings (sorted
        ((raw_output.fields.map Prod.fst).filter fun key => key ∉ _ALLOWED_OUTPUT_FIELDS))))
    |>.set "blocked_claim_fields" state.blocked_claim_fields)
    |>.set "invalid_output_claim_ids" (strings state.invalid_claim_ids)

/-- The response that leaves. -/
def rebuilt (durable_claims : Dict String Json) (metadata diagnostics response : Json) : Json :=
  let raw_response := response.eraseAll _EXECUTABLE_FIELDS
  let raw_output := rawOutput raw_response
  let output := allowedOutput raw_output
  let state := claimLoop durable_claims output
  (((raw_response
    |>.set "output" (finalOutput output state))
    |>.set "authority" (.str "candidate_only"))
    |>.set "service" metadata)
    |>.set "context_security" (outputDiagnostics diagnostics response raw_output state)

def run (task : Json) : Except Error Json := do
  let secured ← self.secure task
  let response ← self.service.run secured.request >>= asMapping
  let pack_ids ← requestPacks task
  let durable_claims ← self.durableClaims pack_ids
  let metadata ← self.metadata
  return rebuilt durable_claims metadata secured.diagnostics response

end UntrustedContextModelService

end FossilCore
