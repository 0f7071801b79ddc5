import FossilCore.Base.JsonSchema
import FossilCore.Domain.Lifecycle
import FossilCore.Domain.Promotion

/-!
# The durable acceptance boundary

The registry of event types of `domain/event_contracts.py`, with the payload schema and the
evidence policy of each, and `validate_event_for_commit`.  The two format checks of the
schema validator and the two resolvers are parameters.
-/

namespace FossilCore

open Base

/-- The format checks the installed validator makes on texts. -/
structure FormatChecker where
  isDateTime : String → Bool
  isUriReference : String → Bool

structure Resolvers where
  endpoint_type_resolver : Option EndpointTypeResolver
  promotion_source_resolver : Option PromotionSourceResolver

namespace Error

def eventContractError (message : String) : Error := ⟨.eventContractError, message⟩

def validationError : Error := ⟨.validationError, ""⟩

end Error

structure EvidencePolicy where
  evidence_refs : Bool
  source_snapshot_refs : Bool
  required_provenance_fields : List String

structure EventTypeContract where
  event_type : String
  payload_schema : Schema
  ontology_constraints : Bool
  evidence_policy : EvidencePolicy

def optionalEvidence : EvidencePolicy := ⟨false, false, []⟩

/-! ## Payload schemas -/

def _payload_schema (keys : List String) (members : List (String × Schema)) : Schema :=
  Schema.allOf [Schema.type [.object], Schema.required keys, Schema.properties members]

def _string (min_length : ℕ) : Schema :=
  Schema.allOf [Schema.type [.string], Schema.minLength min_length]

theorem textSchema_iff {s : String} : _string 1 (.str s) = true ↔ s ≠ "" := by
  have hlen : 1 ≤ s.toList.length ↔ s ≠ "" := by
    rw [Nat.one_le_iff_ne_zero, ne_eq, List.length_eq_zero_iff, String.toList_eq_nil_iff]
  rw [← hlen, _string, Schema.allOf_iff]
  simp only [List.forall_mem_cons, List.not_mem_nil, false_implies, implies_true, and_true]
  exact ⟨fun h => of_decide_eq_true h.2, fun h => ⟨rfl, decide_eq_true h⟩⟩

def _string_array (min_items : ℕ) : Schema :=
  Schema.allOf [Schema.type [.array], Schema.minItems min_items, Schema.uniqueItems,
    Schema.items (_string 1)]

def _names (names : List String) : Schema :=
  Schema.allOf [Schema.type [.string], Schema.enum (names.map .str)]

def _CLAIM_STATE : Schema := _names CLAIM_STATES
def _RELATION_STATE : Schema := _names RELATION_STATES
def _RELATION_TYPE : Schema := _names RELATION_TYPES
def _ENTITY_TYPE : Schema := _names ENTITY_TYPES

def _PACK_ID : Schema :=
  Schema.allOf [Schema.type [.string], Schema.pattern (Schema.isPrefixedId "pack_" 16)]

def _RELATION_ENDPOINT_REQUIRED : List String :=
  ["ontology_ref", "relation_type", "source_ref", "source_type", "target_ref", "target_type"]

def _RELATION_ENDPOINT_PROPERTIES : List (String × Schema) :=
  [("ontology_ref", _string 1), ("relation_type", _RELATION_TYPE), ("source_ref", _string 1),
    ("source_type", _ENTITY_TYPE), ("target_ref", _string 1), ("target_type", _ENTITY_TYPE)]

def claimProposedPayload : Schema :=
  _payload_schema ["claim_text"]
    [("claim_text", _string 0), ("citation", Schema.type [.object])]

def claimStateChangedPayload : Schema :=
  _payload_schema ["to_state"]
    [("from_state", _CLAIM_STATE), ("to_state", _CLAIM_STATE),
      ("citation", Schema.type [.object])]

def claimSupersededPayload : Schema :=
  _payload_schema ["superseded_by"]
    [("from_state", _CLAIM_STATE), ("superseded_by", _string 1),
      ("citation", Schema.type [.object])]

def relationProposedPayload : Schema :=
  _payload_schema ["relation_id", "relation_type", "source_ref", "target_ref"]
    (("relation_id", _string 1) :: _RELATION_ENDPOINT_PROPERTIES ++ [("state", _RELATION_STATE)])

def relationStateChangedPayload : Schema :=
  _payload_schema ("relation_id" :: "to_state" :: _RELATION_ENDPOINT_REQUIRED)
    (("relation_id", _string 1) :: ("from_state", _RELATION_STATE) ::
      ("to_state", _RELATION_STATE) :: _RELATION_ENDPOINT_PROPERTIES)

def relationSupersededPayload : Schema :=
  _payload_schema ("relation_id" :: _RELATION_ENDPOINT_REQUIRED)
    (("relation_id", _string 1) :: ("from_state", _RELATION_STATE) ::
      _RELATION_ENDPOINT_PROPERTIES)

def sourcePayload : Schema :=
  _payload_schema ["snapshot_id", "source_id", "reason"]
    [("snapshot_id", _string 1), ("source_id", _string 1), ("reason", _string 0)]

def evidenceRedactedPayload (formats : FormatChecker) : Schema :=
  _payload_schema
    ["artifact_id", "snapshot_ids", "reason", "authority", "request_ref", "redacted_at"]
    [("artifact_id", _string 1), ("snapshot_ids", _string_array 0), ("reason", _string 1),
      ("authority", _string 1), ("request_ref", Schema.type [.string, .null]),
      ("redacted_at",
        Schema.allOf [Schema.type [.string], Schema.format formats.isDateTime])]

def knowledgePromotedPayload : Schema :=
  _payload_schema
    ["contract_version", "source_pack_id", "source_pack_revision", "source_event_id",
      "target_pack_id", "reason"]
    [("contract_version", Schema.const (.str PROMOTION_CONTRACT_VERSION)),
      ("source_pack_id", _PACK_ID), ("source_pack_revision", _string 1),
      ("source_event_id", _string 1), ("target_pack_id", _PACK_ID), ("reason", _string 0)]

def conversationIngestedPayload : Schema :=
  _payload_schema ["conversation_id", "source_status", "source_artifact_ids", "message_ids"]
    [("conversation_id", _string 1),
      ("source_status", _names ["verbatim", "reconstructed", "mixed"]),
      ("source_artifact_ids", _string_array 1), ("message_ids", _string_array 1),
      ("lineage_id", _string 1)]

def reviewCompletedPayload : Schema :=
  _payload_schema ["decision"] [("decision", _string 1)]

def sourceContract (event_type : String) : EventTypeContract :=
  ⟨event_type, sourcePayload, false, ⟨false, true, ["method"]⟩⟩

def EVENT_TYPE_CONTRACTS (formats : FormatChecker) : List EventTypeContract :=
  [⟨"claim.proposed", claimProposedPayload, false, optionalEvidence⟩,
    ⟨"claim.state_changed", claimStateChangedPayload, false, optionalEvidence⟩,
    ⟨"claim.superseded", claimSupersededPayload, false, optionalEvidence⟩,
    ⟨"relation.proposed", relationProposedPayload, true, optionalEvidence⟩,
    ⟨"relation.state_changed", relationStateChangedPayload, true, optionalEvidence⟩,
    ⟨"relation.superseded", relationSupersededPayload, true, optionalEvidence⟩,
    sourceContract "source.stale", sourceContract "source.retracted",
    sourceContract "source.restored",
    ⟨"evidence.redacted", evidenceRedactedPayload formats, false, ⟨false, false, ["method"]⟩⟩,
    ⟨"knowledge.promoted", knowledgePromotedPayload, false, ⟨true, false, ["method"]⟩⟩,
    ⟨"conversation.ingested", conversationIngestedPayload, false, ⟨true, false, []⟩⟩,
    ⟨"review.completed", reviewCompletedPayload, false, ⟨false, false, ["method"]⟩⟩]

/-! ## Validation -/

def event_contract (formats : FormatChecker) (event_type : String) :
    Except Error EventTypeContract :=
  match (EVENT_TYPE_CONTRACTS formats).find? fun contract => contract.event_type = event_type with
  | some contract => .ok contract
  | none =>
      .error (.eventContractError
        s!"unregistered event type cannot cross durable acceptance boundary: {event_type}")

/-- `Draft202012Validator(schema).validate(value)` -/
def validateSchema (schema : Schema) (value : Json) : Except Error Unit :=
  if schema value then .ok () else .error .validationError

theorem validateSchema_ok {schema : Schema} {value : Json} :
    validateSchema schema value = .ok () ↔ schema value = true := by
  by_cases h : schema value = true <;> simp [validateSchema, h]

def _require_nonempty_refs (event : Json) (field : String) : Except Error Unit :=
  match event.get? field with
  | some (.arr (_ :: _)) => .ok ()
  | _ =>
      let event_type := ((event.get? "event_type").getD .null).pyStr
      .error (.eventContractError s!"event type {event_type} requires non-empty {field}")

/-- `except OntologyConstraintError as exc: raise EventContractError(str(exc))` -/
def asContractError (cls : ErrorClass) (x : Except Error Unit) : Except Error Unit :=
  match x with
  | .ok () => .ok ()
  | .error e => .error (if e.cls = cls then .eventContractError e.message else e)

/-- `str(payload[key])` -/
def textAt (payload : Json) (key : String) : Except Error String := do
  let value ← liftPy (payload.getItem key)
  return value.pyStr

def validateProposedRelation (payload : Json) : Except Error Unit :=
  let optional_endpoint_fields := ["ontology_ref", "source_type", "target_type"]
  if (payload.get? "state").getD (.str "proposed") ≠ .str "proposed" then
    .error (.eventContractError
      "relation.proposed must remain proposed; use an accepted relation state transition")
  else if optional_endpoint_fields.all fun field => (payload.get? field).isNone then .ok ()
  else
    let missing := optional_endpoint_fields.filter fun field => !Json.truthy? (payload.get? field)
    if missing ≠ [] then
      .error (.eventContractError
        ("relation.proposed ontology metadata must be complete when supplied: " ++
          Text.join ", " missing))
    else asContractError .ontologyConstraintError do
      let relation_type ← textAt payload "relation_type"
      let source_type ← textAt payload "source_type"
      let target_type ← textAt payload "target_type"
      let ontology_ref ← textAt payload "ontology_ref"
      validate_relation_endpoints relation_type source_type target_type ontology_ref

def validateAcceptedRelation (payload : Json) (resolver : Option EndpointTypeResolver) :
    Except Error Unit :=
  asContractError .ontologyConstraintError do
    let relation_type ← textAt payload "relation_type"
    let source_ref ← textAt payload "source_ref"
    let source_type ← textAt payload "source_type"
    let target_ref ← textAt payload "target_ref"
    let target_type ← textAt payload "target_type"
    let ontology_ref ← textAt payload "ontology_ref"
    validate_resolved_relation_endpoints relation_type source_ref source_type target_ref
      target_type ontology_ref resolver

def _validate_relation_semantics (event_type : String) (payload : Json)
    (resolver : Option EndpointTypeResolver) : Except Error Unit :=
  if event_type = "relation.proposed" then validateProposedRelation payload
  else validateAcceptedRelation payload resolver

def requireProvenance (contract : EventTypeContract) (event : Json) : Except Error Unit :=
  match contract.evidence_policy.required_provenance_fields.find? fun field =>
      !Json.truthy? ((event.get? "provenance").bind fun provenance => provenance.get? field) with
  | none => .ok ()
  | some field =>
      .error (.eventContractError s!"event type {contract.event_type} requires provenance.{field}")

def validate_event_for_commit (formats : FormatChecker) (resolvers : Resolvers) (event : Json) :
    Except Error EventTypeContract := do
  let contract ← event_contract formats (textOf event "event_type")
  let payload := (event.get? "payload").getD .null
  validateSchema contract.payload_schema payload
  checkIf (contract.ontology_constraints ∧ payload.isObj)
    (_validate_relation_semantics contract.event_type payload resolvers.endpoint_type_resolver)
  checkIf (contract.event_type = "knowledge.promoted")
    (asContractError .promotionSourceError do
      let _ ← validate_promotion_source event resolvers.promotion_source_resolver)
  checkIf contract.evidence_policy.evidence_refs (_require_nonempty_refs event "evidence_refs")
  checkIf contract.evidence_policy.source_snapshot_refs
    (_require_nonempty_refs event "source_snapshot_refs")
  requireProvenance contract event
  return contract

/-! ## The envelope -/

def nullableString : Schema := Schema.type [.string, .null]

def eventIdSchema : Schema :=
  Schema.allOf [Schema.type [.string], Schema.pattern (Schema.isPrefixedId "evt_" 16)]

def isEventTypeSegment : List Char → Bool
  | [] => false
  | c :: cs => 'a' ≤ c ∧ c ≤ 'z' ∧ cs.all fun c =>
      ('a' ≤ c ∧ c ≤ 'z') ∨ c.isDigit ∨ c = '_' ∨ c = '-'

/-- `^[a-z][a-z0-9_-]*(\.[a-z][a-z0-9_-]*)+$` -/
def isEventType : String → Bool :=
  Schema.matchesToEnd fun cs =>
    2 ≤ (cs.splitOn '.').length ∧ (cs.splitOn '.').all isEventTypeSegment

def actorSchema : Schema :=
  Schema.allOf [Schema.type [.object],
    Schema.closed ["actor_type", "actor_id", "model_id", "harness_version", "skill_id",
      "skill_version"],
    Schema.required ["actor_type", "actor_id"],
    Schema.properties [
      ("actor_type", Schema.enum
        [.str "human", .str "agent", .str "service", .str "importer", .str "system"]),
      ("actor_id", _string 1), ("model_id", nullableString), ("harness_version", nullableString),
      ("skill_id", nullableString), ("skill_version", nullableString)]]

def refsSchema (min_items : ℕ) : Schema :=
  Schema.allOf [Schema.type [.array], Schema.minItems min_items, Schema.uniqueItems,
    Schema.items (_string 4)]

def provenanceFields : List String :=
  ["method", "software_commit", "ontology_version", "retrieval_policy_version",
    "prompt_or_policy_ref", "trace_id", "model_provider", "model_provider_version",
    "model_runtime", "model_service_version", "benchmark_ref"]

def provenanceSchema : Schema :=
  Schema.allOf [Schema.type [.object], Schema.closed provenanceFields,
    Schema.properties (provenanceFields.map fun field => (field, nullableString))]

def eventProperties (formats : FormatChecker) : List (String × Schema) :=
  let dateTime := Schema.allOf [Schema.type [.string], Schema.format formats.isDateTime]
  [("schema_version", Schema.const (.str "dkg.event.v1")),
    ("event_id", eventIdSchema),
    ("event_type", Schema.allOf [Schema.type [.string], Schema.pattern isEventType]),
    ("occurred_at", dateTime),
    ("recorded_at", dateTime),
    ("pack_id", _PACK_ID),
    ("actor", actorSchema),
    ("subject_refs", refsSchema 1),
    ("caused_by_event_ids", Schema.allOf [Schema.type [.array], Schema.uniqueItems,
      Schema.items eventIdSchema]),
    ("correlation_id", nullableString),
    ("idempotency_key", nullableString),
    ("evidence_refs", refsSchema 0),
    ("source_snapshot_refs", refsSchema 0),
    ("payload_schema", Schema.allOf [nullableString, Schema.format formats.isUriReference]),
    ("payload", Schema.type [.object]),
    ("provenance", provenanceSchema)]

def eventRequired : List String :=
  ["schema_version", "event_id", "event_type", "occurred_at", "recorded_at", "pack_id", "actor",
    "subject_refs", "payload"]

/-- `schemas/events/v1.schema.json` -/
def eventSchema (formats : FormatChecker) : Schema :=
  Schema.allOf [Schema.type [.object], Schema.closed ((eventProperties formats).map Prod.fst),
    Schema.required eventRequired, Schema.properties (eventProperties formats)]

end FossilCore
