import FossilCore.Domain.Ontology

/-!
# Promotion sources

The check of `domain/promotion.py` that binds an accepted promotion to its exact source event.
-/

namespace FossilCore

open Base

def PROMOTION_CONTRACT_VERSION : String := "dkg.promotion.v2"

/-- The mounted-pack resolver of `(pack_id, revision, event_id)`. -/
abbrev PromotionSourceResolver := String → String → String → Resolved Json

namespace Error

def promotionSourceError (message : String) : Error := ⟨.promotionSourceError, message⟩

end Error

def _required_source_pin (payload : Json) (field : String) : Except Error String :=
  match payload.get? field with
  | some (.str value) =>
      if Text.isBlank value then
        .error (.promotionSourceError
          s!"promotion requires a non-empty string {field} source pin")
      else .ok value
  | _ =>
      .error (.promotionSourceError s!"promotion requires a non-empty string {field} source pin")

/-- `value.get(key, "")` printed with `str`. -/
def textOf (value : Json) (key : String) : String := ((value.get? key).getD (.str "")).pyStr

/-- `set(promoted).issubset(set(source))` -/
def subjectsPinned (promoted source : List Json) : Except Error Bool :=
  if promoted.all Json.hashable ∧ source.all Json.hashable then
    .ok (promoted.all fun subject => subject ∈ source)
  else .error .typeError

/-- The comparisons of the resolved source event with the promotion. -/
def checkResolvedSource (event resolved : Json) (source_pack_id source_event_id : String) :
    Except Error Json :=
  if !resolved.isObj then .error (.ofPython .attributeError)
  else if textOf resolved "pack_id" ≠ source_pack_id then
    .error (.promotionSourceError "resolved source pack does not match promotion source_pack_id")
  else if textOf resolved "event_id" ≠ source_event_id then
    .error (.promotionSourceError "resolved source event does not match promotion source_event_id")
  else
    match event.get? "subject_refs" with
    | some (.arr (first :: more)) =>
        match resolved.get? "subject_refs" with
        | some (.arr source_subjects) => do
            if ← subjectsPinned (first :: more) source_subjects then return resolved
            else .error (.promotionSourceError
              "promotion subject_refs must be present in the pinned source event")
        | _ => .error (.promotionSourceError
            "promotion subject_refs must be present in the pinned source event")
    | _ => .error (.promotionSourceError "promotion requires stable subject_refs")

def validate_promotion_source (event : Json) (resolver : Option PromotionSourceResolver) :
    Except Error Json :=
  let unresolvable : Error := .promotionSourceError
    "promotion source event is not resolvable at the pinned source revision"
  match event.get? "payload" with
  | some (.obj fields) => do
      let payload := Json.obj fields
      let source_pack_id ← _required_source_pin payload "source_pack_id"
      let source_revision ← _required_source_pin payload "source_pack_revision"
      let source_event_id ← _required_source_pin payload "source_event_id"
      let target_pack_id := textOf payload "target_pack_id"
      let durable_pack_id := textOf event "pack_id"
      if target_pack_id ≠ durable_pack_id then
        .error (.promotionSourceError "promotion target_pack_id must equal durable pack_id")
      else if source_pack_id = target_pack_id then
        .error (.promotionSourceError "promotion requires different source and target packs")
      else
        match resolver with
        | none => .error (.promotionSourceError
            "promotion source cannot be accepted without a source resolver")
        | some resolve =>
            match resolve source_pack_id source_revision source_event_id with
            | .raises | .none => .error unresolvable
            | .value resolved =>
                checkResolvedSource event resolved source_pack_id source_event_id
  | _ => .error (.promotionSourceError "promotion payload must be an object")

structure PromotionArguments where
  source_pack_id : String
  source_pack_revision : String
  source_event_id : String
  target_pack_id : String
  subject_refs : List String
  occurred_at : String
  recorded_at : String
  idempotency_key : String
  evidence_refs : List String
  reason : String

def strings (ss : List String) : Json := .arr (ss.map .str)

theorem wf_strings (ss : List String) : (strings ss).WF := by
  show Json.WFItems (ss.map Json.str)
  rw [Json.wfItems_iff, List.forall_mem_map]
  exact fun s _ => Json.wf_str s

def build_promotion_event (args : PromotionArguments) (actor : Json) : Except Error Json :=
  if args.subject_refs = [] then
    .error (.valueError "promotion requires at least one stable subject reference")
  else if args.source_pack_id = args.target_pack_id then
    .error (.valueError "promotion requires different source and target packs")
  else if Text.isBlank args.source_pack_revision then
    .error (.valueError "promotion requires an exact non-empty source pack revision")
  else if Text.isBlank args.source_event_id then
    .error (.valueError "promotion requires a stable source event ID")
  else
    .ok (.ofMembers [
      ("schema_version", .str "dkg.event.v1"),
      ("event_type", .str "knowledge.promoted"),
      ("occurred_at", .str args.occurred_at),
      ("recorded_at", .str args.recorded_at),
      ("pack_id", .str args.target_pack_id),
      ("actor", actor),
      ("subject_refs", strings args.subject_refs),
      ("idempotency_key", .str args.idempotency_key),
      ("evidence_refs", strings args.evidence_refs),
      ("payload", .ofMembers [
        ("contract_version", .str PROMOTION_CONTRACT_VERSION),
        ("source_pack_id", .str args.source_pack_id),
        ("source_pack_revision", .str args.source_pack_revision),
        ("source_event_id", .str args.source_event_id),
        ("target_pack_id", .str args.target_pack_id),
        ("reason", .str args.reason)]),
      ("provenance", .ofMembers [("method", .str "explicit_cross_pack_promotion")])])

end FossilCore
