import FossilCore.Application.ContextSecurity
import FossilCore.Base.JsonKeys
import FossilCore.Base.JsonSchema
import FossilCore.Pack.Snapshots

/-!
# Execution receipts

`application/query/receipt.py`: the record of how one query was executed, built from what the
retriever, the reranker and the model say of themselves and of their results.  What the
interpreter makes of texts and of numbers, and what the clock shows, are parameters.
-/

namespace FossilCore

open Base

/-- The letters that `str.lower` leaves as they are, beside digits and underscores. -/
def isSnakeChar (c : Char) : Bool := c.isLower || c.isDigit || c = '_'

/-- `str.lower` and `unicodedata.normalize("NFC", ..)`. -/
structure UnicodeText where
  lower : String → String
  nfc : String → String
  lower_key : ∀ s : String, s.toList.all isSnakeChar = true → lower s = s
  nfc_empty : nfc "" = ""

/-- `int`, `float` and the sum of two floats. -/
structure PyNumbers where
  int : Json → Except Error ℤ
  float : Json → Except Error FloatText
  add : FloatText → FloatText → FloatText
  int_int : ∀ n, int (.int n) = .ok n
  add_atLeast : ∀ x y, Schema.atLeast x 0 = true → Schema.atLeast y 0 = true →
    Schema.atLeast (add x y) 0 = true

/-- The time, and how long the parts of an execution took by a clock that never goes back. -/
structure Moment where
  now : String
  retrieval_latency_ms : FloatText
  model_latency_ms : FloatText
  total_latency_ms : FloatText
  retrieval_atLeast : Schema.atLeast retrieval_latency_ms 0 = true
  model_atLeast : Schema.atLeast model_latency_ms 0 = true
  total_atLeast : Schema.atLeast total_latency_ms 0 = true

namespace Receipt

def _SECRET_KEY_PARTS : List String :=
  ["api_key", "apikey", "authorization", "cookie", "credential", "password", "secret", "token"]

def _ABSTENTION_OUTCOMES : List String :=
  ["insufficient_evidence", "conflicting_evidence", "current_state_unresolved"]

def zero : FloatText := ⟨"0.0".toList, by decide⟩

/-- `value.get(key, default)` as a text. -/
def textOr (value : Json) (key default : String) : String :=
  ((value.get? key).getD (.str default)).pyStr

/-- `str(value) if value is not None else None` -/
def optionalStr : Option Json → Option String
  | none | some .null => none
  | some value => some value.pyStr

/-- `for item in value.get(key, [])` -/
def iterateAt (value : Json) (key : String) : Except Error (List Json) :=
  iterate ((value.get? key).getD (.arr []))

/-- `[str(item) for item in value.get(key, [])]` -/
def textsAt (value : Json) (key : String) : Except Error (List String) := do
  let items ← iterateAt value key
  return items.map Json.pyStr

/-- Append an id that is there and not yet among the ids. -/
def appendNew (ids : List String) (id : String) : List String :=
  if id ≠ "" ∧ id ∉ ids then ids ++ [id] else ids

section

variable (sha256 : Sha256) (unicode : UnicodeText) (numbers : PyNumbers)

/-! ## Texts -/

/-- `re.sub(r"\s+", " ", s)`; the flag tells whether a space has just been written. -/
def collapse : Bool → List Char → List Char
  | _, [] => []
  | written, c :: cs =>
      if Text.isWhitespace c then
        if written then collapse true cs else ' ' :: collapse true cs
      else c :: collapse false cs

def normalize_query (query : String) : String :=
  String.ofList (collapse false (Text.trim (unicode.nfc query)).toList)

def _sha256_text (value : String) : String := sha256.hexdigest value.toUTF8

def _sha256_json (value : Json) : String := _sha256_text sha256 value.dumps

def _is_secret_key (key : String) : Bool :=
  let normalized := String.ofList ((unicode.lower key).toList.map fun c => if c = '-' then '_' else c)
  _SECRET_KEY_PARTS.any fun part => Text.occursIn part normalized

def sanitize_diagnostics (value : Json) : Json := value.prune (_is_secret_key unicode)

/-! ## Services -/

structure ServiceIdentity where
  kind : String
  provider : String
  provider_version : String
  implementation : String
  implementation_version : String
  model_id : Option String
  is_local : Bool
  runtime : Json

def ServiceIdentity.json (identity : ServiceIdentity) : Json :=
  .ofMembers [
    ("kind", .str identity.kind),
    ("provider", .str identity.provider),
    ("provider_version", .str identity.provider_version),
    ("implementation", .str identity.implementation),
    ("implementation_version", .str identity.implementation_version),
    ("model_id", SourceSnapshotStore.optionalText identity.model_id),
    ("local", .bool identity.is_local),
    ("runtime", identity.runtime)]

def _service_identity (metadata : Json) : ServiceIdentity :=
  let value := sanitize_diagnostics unicode metadata
  let stated := (value.get? "runtime").getD (.obj [])
  let runtime := if stated.isObj then stated else .ofMembers [("value", .str stated.pyStr)]
  { kind := textOr value "kind" "unknown"
    provider := textOr value "provider" "unknown"
    provider_version := textOr value "provider_version" "unknown"
    implementation := textOr value "implementation" "unknown"
    implementation_version := textOr value "implementation_version" "unknown"
    model_id := optionalStr (value.get? "model_id")
    is_local := ((value.get? "local").getD (.bool false)).truthy
    runtime := sanitize_diagnostics unicode runtime }

structure RequestedService where
  provider : String
  model_id : Option String
  implementation : String

def RequestedService.json (requested : RequestedService) : Json :=
  .ofMembers [
    ("provider", .str requested.provider),
    ("model_id", SourceSnapshotStore.optionalText requested.model_id),
    ("implementation", .str requested.implementation)]

structure ServiceInvocation where
  role : String
  requested : RequestedService
  actual : ServiceIdentity
  fallback_used : Bool
  attempts : List Json
  latency_ms : Option FloatText
  cost_usd : FloatText

def optionalFloat (x : Option FloatText) : Json := (x.map Json.float).getD .null

def ServiceInvocation.json (service : ServiceInvocation) : Json :=
  .ofMembers [
    ("role", .str service.role),
    ("requested", service.requested.json),
    ("actual", service.actual.json),
    ("fallback_used", .bool service.fallback_used),
    ("attempts", .arr service.attempts),
    ("latency_ms", optionalFloat service.latency_ms),
    ("cost_usd", .float service.cost_usd)]

def attemptKeys : List String :=
  ["provider", "model_id", "implementation", "outcome", "error_type", "fallback_reason"]

def requestedService (requested : Json) (actual : ServiceIdentity) : RequestedService :=
  let value := sanitize_diagnostics unicode requested
  { provider := textOr value "provider" actual.provider
    model_id := (optionalStr (value.get? "model_id")).orElse fun _ => actual.model_id
    implementation := textOr value "implementation" actual.implementation }

/-- The members of an attempt that are kept. -/
def safeAttempt (attempt : Json) : Except Error Json := do
  let attempt ← asMapping attempt
  let item := sanitize_diagnostics unicode attempt
  return .ofMembers (attemptKeys.filterMap fun key => (item.get? key).map fun value => (key, value))

def estimatedCost (metadata : Json) : Json :=
  (metadata.get? "estimated_cost_per_call_usd").getD (.float zero)

/-- The cost that is given, or the one that the metadata estimates. -/
def costOf (metadata : Json) : Option FloatText → Except Error FloatText
  | some cost => .ok cost
  | none => numbers.float (estimatedCost metadata)

def build_service_invocation (role : String) (actual_metadata : Json) (requested : Option Json)
    (attempts : List Json) (latency_ms cost_usd : Option FloatText) :
    Except Error ServiceInvocation := do
  let actual_metadata ← asMapping actual_metadata
  let actual := _service_identity unicode actual_metadata
  let requested ← asMapping (if Json.truthy? requested then requested.getD .null else .obj [])
  let requested_identity := requestedService unicode requested actual
  let safe_attempts ← attempts.mapM (safeAttempt unicode)
  let cost_usd ← costOf numbers actual_metadata cost_usd
  return {
    role
    requested := requested_identity
    actual
    fallback_used := requested_identity.provider ≠ actual.provider ∨
      requested_identity.model_id ≠ actual.model_id ∨
        safe_attempts.any fun item => textOf item "outcome" ∉ ["", "success"]
    attempts := safe_attempts
    latency_ms
    cost_usd }

/-! ## Packs -/

/-- The pairs of a pack and a revision that a mapping or an iterable of mappings states. -/
def statedMounts : Json → Except Error (List (String × String))
  | .obj fields => .ok (fields.map fun field => (field.1, field.2.pyStr))
  | pack_mounts => do
      let items ← iterate pack_mounts
      items.mapM fun item => do
        let pack_id ← liftPy (item.getMethod "pack_id")
        let revision ← liftPy (item.getMethod "revision")
        return ((pack_id.getD (.str "")).pyStr, (revision.getD (.str "")).pyStr)

def addMount (by_pack : Dict String String) (mount : String × String) :
    Except Error (Dict String String) :=
  match by_pack.get? mount.1 with
  | some revision =>
      if revision ≠ mount.2 then
        .error (.valueError "query receipt cannot mount one pack_id at multiple revisions")
      else .ok (by_pack.set mount.1 mount.2)
  | none => .ok (by_pack.set mount.1 mount.2)

def normalize_pack_mounts (pack_mounts : Json) : Except Error (List (String × String)) := do
  let mounts ← statedMounts pack_mounts
  if mounts = [] ∨ ∃ mount ∈ mounts, mount.1 = "" ∨ mount.2 = "" then
    .error (.valueError "query receipt requires non-empty pack_id and exact revision")
  else
    let by_pack ← mounts.foldlM addMount .empty
    return sortedBy Prod.fst by_pack.entries

def mountJson (mount : String × String) : Json :=
  .ofMembers [("pack_id", .str mount.1), ("revision", .str mount.2)]

def _normalize_pack_scope (mounts : List (String × String)) (pack_scope_ids : List String) :
    Except Error (List String) :=
  let mounted_ids := mounts.map Prod.fst
  let scope := sortedSet (if pack_scope_ids = [] then mounted_ids else pack_scope_ids)
  if scope = [] ∨ ¬∀ id ∈ scope, id ∈ mounted_ids then
    .error (.valueError "query receipt pack scope must be a non-empty subset of mounted packs")
  else .ok scope

/-! ## Candidates -/

structure CandidateRecord where
  id : String
  pack_id : String
  rank : ℤ
  score : Option FloatText
  base : Option (ℤ × Option FloatText)
  rerank_score : Option (Option FloatText)

def CandidateRecord.json (record : CandidateRecord) : Json :=
  .ofMembers ([
    ("id", .str record.id),
    ("pack_id", .str record.pack_id),
    ("rank", .int record.rank),
    ("score", optionalFloat record.score)] ++
    (record.base.toList.flatMap fun base =>
      [("base_rank", .int base.1), ("base_score", optionalFloat base.2)]) ++
    record.rerank_score.toList.map fun score => ("rerank_score", optionalFloat score))

/-- `float(value["score"]) if value.get("score") is not None else None` -/
def scoreOf (value : Json) : Except Error (Option FloatText) :=
  match value.get? "score" with
  | none | some .null => .ok none
  | some score => do return some (← numbers.float score)

def rankOf (value : Json) (fallback_rank : ℕ) : Except Error ℤ :=
  numbers.int ((value.get? "rank").getD (.int fallback_rank))

def baseOf (candidate : Json) (fallback_rank : ℕ) :
    Except Error (Option (ℤ × Option FloatText)) := do
  let base := member candidate "base_retrieval"
  if base.isObj then
    let rank ← rankOf numbers base fallback_rank
    let score ← scoreOf numbers base
    return some (rank, score)
  else return none

def rerankOf (candidate : Json) : Except Error (Option (Option FloatText)) := do
  let rerank := member candidate "rerank"
  if rerank.isObj then return some (← scoreOf numbers rerank)
  else return none

def _retrieval_candidate (candidate : Json) (fallback_rank : ℕ) : Except Error CandidateRecord := do
  let stated ← liftPy (candidate.getMethod "retrieval")
  let retrieval ← asMapping (stated.getD (.obj []))
  let rank ← rankOf numbers retrieval fallback_rank
  let score ← scoreOf numbers retrieval
  let base ← baseOf numbers candidate fallback_rank
  let rerank_score ← rerankOf numbers candidate
  return {
    id := textOf candidate "id"
    pack_id := textOf candidate "pack_id"
    rank
    score
    base
    rerank_score }

/-- The reranker's metadata in a candidate. -/
def statedReranker (candidate : Json) : Option Json :=
  let service := member (member candidate "rerank") "service"
  if service.isObj then some service else none

def _reranker_metadata (candidates : List Json) : Option Json := candidates.findSome? statedReranker

/-! ## The response -/

def citationId (claim : Json) : String := textOf (member claim "citation") "citation_id"

def _citation_ids (output : Json) : Except Error (List String) := do
  let claims ← iterateAt output "claims"
  return ((claims.filter fun claim => (member claim "citation").isObj).map citationId).foldl
    appendNew []

def _claim_ids (output : Json) : Except Error (List String) := do
  let claims ← iterateAt output "claims"
  return (claims.filter fun claim => (member claim "claim_id").truthy).map fun claim =>
    textOf claim "claim_id"

structure ResolverRecord where
  resolver : String
  resolved_ids : List String
  added_ids : List String
  removed_ids : List String
  final_context_ids : List String
  diagnostics : Json

def texts (items : List String) : Json := .arr (items.map .str)

def ResolverRecord.json (record : ResolverRecord) : Json :=
  .ofMembers [
    ("resolver", .str record.resolver),
    ("resolved_ids", texts record.resolved_ids),
    ("added_ids", texts record.added_ids),
    ("removed_ids", texts record.removed_ids),
    ("final_context_ids", texts record.final_context_ids),
    ("diagnostics", record.diagnostics)]

def securityKeys : List String :=
  ["source_text_trust", "retrieved_payload_mismatch_ids", "blocked_response_fields",
    "blocked_output_fields", "invalid_output_claim_ids"]

def securityRecord (security : Json) : Except Error ResolverRecord := do
  let resolved_ids ← textsAt security "canonicalized_ids"
  let added_ids ← textsAt security "demoted_untrusted_ids"
  let dropped ← textsAt security "dropped_out_of_scope_ids"
  let deduplicated ← textsAt security "deduplicated_ids"
  let final_context_ids ← textsAt security "forwarded_item_ids"
  return {
    resolver := textOr security "resolver" "unknown"
    resolved_ids
    added_ids
    removed_ids := dropped ++ deduplicated
    final_context_ids
    diagnostics := sanitize_diagnostics unicode (.ofMembers (securityKeys.filterMap fun key =>
      (security.get? key).map fun value => (key, value))) }

def lineageRecord (lineage : Json) : Except Error ResolverRecord := do
  let resolved_ids ← textsAt lineage "expanded_ids"
  let final_context_ids ← textsAt lineage "final_context_ids"
  let max_expansions ← numbers.int ((lineage.get? "max_expansions").getD (.int 0))
  return {
    resolver := textOr lineage "resolver" "unknown"
    resolved_ids
    added_ids := resolved_ids
    removed_ids := []
    final_context_ids
    diagnostics := .ofMembers [("max_expansions", .int max_expansions)] }

/-- The record of a resolver that has left its mapping in the response. -/
def recordOf (value : Json) (record : Json → Except Error ResolverRecord) :
    Except Error (List ResolverRecord) :=
  if value.isObj then do return [← record value] else .ok []

def _resolver_records (response : Json) : Except Error (List ResolverRecord) := do
  let security ← recordOf (member response "context_security") (securityRecord unicode)
  let lineage ← recordOf (member response "lineage_resolution") (lineageRecord numbers)
  return security ++ lineage

def _final_context_ids (candidates : List Json) (resolver_records : List ResolverRecord) :
    List String :=
  match resolver_records.reverse.find? fun record => record.final_context_ids ≠ [] with
  | some record => record.final_context_ids
  | none => itemIds candidates

/-! ## The receipt -/

/-- What a receipt states, apart from its digests. -/
structure Contents where
  recorded_at : String
  query_id : String
  text : String
  normalized : String
  query_sha256 : String
  packs : List (String × String)
  pack_scope_ids : List String
  name : String
  version : String
  build_id : String
  route_id : String
  retrieval_policy_id : String
  mode : String
  services : List ServiceInvocation
  candidates : List CandidateRecord
  resolvers : List ResolverRecord
  context_ids : List String
  outcome : String
  abstained : Bool
  claim_ids : List String
  citation_ids : List String
  confidence : Option FloatText
  authority : String
  latency_ms : FloatText
  cost_usd : FloatText
  trace_ref : String
  run_ref : Option String

namespace Contents

variable (contents : Contents)

def queryJson : Json :=
  .ofMembers [
    ("query_id", .str contents.query_id),
    ("text", .str contents.text),
    ("normalized", .str contents.normalized),
    ("sha256", .str contents.query_sha256)]

def packsJson : Json := .arr (contents.packs.map mountJson)

def projectionJson : Json :=
  .ofMembers [
    ("name", .str contents.name),
    ("version", .str contents.version),
    ("build_id", .str contents.build_id)]

def policyJson : Json :=
  .ofMembers [
    ("route_id", .str contents.route_id),
    ("retrieval_policy_id", .str contents.retrieval_policy_id),
    ("mode", .str contents.mode)]

def servicesJson : Json := .arr (contents.services.map ServiceInvocation.json)

def retrievalJson : Json :=
  .ofMembers [
    ("candidates", .arr (contents.candidates.map CandidateRecord.json)),
    ("candidate_count", .int contents.candidates.length)]

def resolversJson : Json := .arr (contents.resolvers.map ResolverRecord.json)

def contextJson : Json :=
  .ofMembers [
    ("item_ids", texts contents.context_ids),
    ("citation_ids", texts contents.citation_ids)]

def resultJson : Json :=
  .ofMembers [
    ("outcome", .str contents.outcome),
    ("abstained", .bool contents.abstained),
    ("claim_ids", texts contents.claim_ids),
    ("citation_ids", texts contents.citation_ids),
    ("confidence", optionalFloat contents.confidence),
    ("authority", .str contents.authority)]

def telemetryJson : Json :=
  .ofMembers [
    ("latency_ms", .float contents.latency_ms),
    ("cost_usd", .float contents.cost_usd),
    ("trace_ref", .str contents.trace_ref),
    ("run_ref", SourceSnapshotStore.optionalText contents.run_ref)]

def _execution_identity_payload : Json :=
  .ofMembers [
    ("query_sha256", .str contents.query_sha256),
    ("packs", contents.packsJson),
    ("pack_scope_ids", texts contents.pack_scope_ids),
    ("projection", contents.projectionJson),
    ("policy", contents.policyJson),
    ("services", .arr (contents.services.map fun service => .ofMembers [
      ("role", .str service.role),
      ("requested", service.requested.json),
      ("actual", service.actual.json),
      ("fallback_used", .bool service.fallback_used),
      ("attempts", .arr service.attempts)])),
    ("resolvers", texts (contents.resolvers.map (·.resolver)))]

def _result_identity_payload : Json :=
  .ofMembers [
    ("retrieval", contents.retrievalJson),
    ("resolvers", contents.resolversJson),
    ("context", contents.contextJson),
    ("result", contents.resultJson)]

/-- The receipt under this id. -/
def withId (receipt_id : String) : Json :=
  .ofMembers [
    ("schema_version", .str "fossil.query-execution-receipt.v1"),
    ("receipt_id", .str receipt_id),
    ("recorded_at", .str contents.recorded_at),
    ("authority", .str "execution_observability_only"),
    ("query", contents.queryJson),
    ("packs", contents.packsJson),
    ("pack_scope_ids", texts contents.pack_scope_ids),
    ("projection", contents.projectionJson),
    ("policy", contents.policyJson),
    ("services", contents.servicesJson),
    ("retrieval", contents.retrievalJson),
    ("resolvers", contents.resolversJson),
    ("context", contents.contextJson),
    ("result", contents.resultJson),
    ("telemetry", contents.telemetryJson),
    ("execution_identity_sha256",
      .str (_sha256_json sha256 contents._execution_identity_payload)),
    ("result_sha256", .str (_sha256_json sha256 contents._result_identity_payload))]

def receipt_id : String :=
  "qrx_" ++ Text.take (_sha256_json sha256 (contents.withId sha256 "")) 24

def receipt : Json := contents.withId sha256 (contents.receipt_id sha256)

end Contents

/-- `dict(output_value) if isinstance(output_value, Mapping) else {}` -/
def outputOf (response : Json) : Json :=
  let stated := (response.get? "output").getD (.obj [])
  if stated.isObj then stated else .obj []

def confidenceOf (output : Json) : Except Error (Option FloatText) :=
  match output.get? "confidence" with
  | none | some .null => .ok none
  | some confidence => do return some (← numbers.float confidence)

/-- The arguments of `build_query_execution_receipt` that are not results of the query. -/
structure Request where
  query : String
  pack_mounts : Json
  pack_scope_ids : List String
  projection : Json
  policy : Json
  trace_ref : String
  run_ref : Option String
  query_id : Option String

/-- What `build_query_execution_receipt` puts into the receipt. -/
def contentsOf (request : Request) (services : List ServiceInvocation) (candidates : List Json)
    (response : Json) (now : String) (latency_ms cost_usd : FloatText) : Except Error Contents := do
  let normalized := normalize_query unicode request.query
  if normalized = "" then .error (.valueError "query receipt requires a non-empty query")
  else
    let query_sha256 := _sha256_text sha256 normalized
    let packs ← normalize_pack_mounts request.pack_mounts
    let pack_scope_ids ← _normalize_pack_scope packs request.pack_scope_ids
    let projection := sanitize_diagnostics unicode (← asMapping request.projection)
    if ¬∀ key ∈ ["name", "version", "build_id"], textOf projection key ≠ "" then
      .error (.valueError "query receipt requires projection name, version, and build_id")
    else
      let policy := sanitize_diagnostics unicode (← asMapping request.policy)
      if ¬∀ key ∈ ["route_id", "retrieval_policy_id"], textOf policy key ≠ "" then
        .error (.valueError "query receipt requires route_id and retrieval_policy_id")
      else if request.trace_ref = "" then
        .error (.valueError "query receipt requires trace_ref")
      else
        let output := outputOf response
        let resolvers ← _resolver_records unicode numbers response
        let citation_ids ← _citation_ids output
        let candidate_records ← (candidates.zipIdx 1).mapM fun ranked =>
          _retrieval_candidate numbers ranked.1 ranked.2
        let claim_ids ← _claim_ids output
        let confidence ← confidenceOf numbers output
        return {
          recorded_at := now
          query_id := (request.query_id.filter (· ≠ "")).getD ("qry_" ++ Text.take query_sha256 24)
          text := request.query
          normalized
          query_sha256
          packs
          pack_scope_ids
          name := textOf projection "name"
          version := textOf projection "version"
          build_id := textOf projection "build_id"
          route_id := textOf policy "route_id"
          retrieval_policy_id := textOf policy "retrieval_policy_id"
          mode := textOr policy "mode" "unspecified"
          services
          candidates := candidate_records
          resolvers
          context_ids := _final_context_ids candidates resolvers
          outcome := textOr output "outcome" "unknown"
          abstained := textOf output "outcome" ∈ _ABSTENTION_OUTCOMES
          claim_ids
          citation_ids
          confidence
          authority := textOr response "authority" "unknown"
          latency_ms
          cost_usd
          trace_ref := request.trace_ref
          run_ref := request.run_ref }

/-! ## Executions -/

/-- A retriever, with what it says of itself. -/
structure RetrieverService where
  search : String → List String → ℤ → Except Error (List Json)
  metadata : Except Error Json

structure Execution where
  query : String
  pack_mounts : Json
  query_pack_ids : List String
  projection : Json
  policy : Json
  limit : ℤ
  trace_ref : String
  run_ref : Option String
  query_id : Option String
  requested_model : Option Json
  model_attempts : List Json

/-- The task that the model is run on. -/
def modelTask (query : String) (pack_ids : List String) (candidates : List Json) : Json :=
  .ofMembers [
    ("query", .str query),
    ("pack_ids", texts pack_ids),
    ("context_items", .arr candidates),
    ("response_contract", .ofMembers [
      ("outcomes", texts ["answer", "conflicting_evidence", "current_state_unresolved",
        "insufficient_evidence"]),
      ("authority", .str "candidate_only")])]

def rerankerServices (candidates : List Json) : Except Error (List ServiceInvocation) :=
  match _reranker_metadata candidates with
  | none => .ok []
  | some metadata => do
      return [← build_service_invocation unicode numbers "reranker" metadata none [] none none]

/-- The service records, and the costs of the retriever and of the model. -/
def servicesOf (call : Execution) (retriever : RetrieverService) (model_service : ModelService)
    (candidates : List Json) (response : Json) (moment : Moment) :
    Except Error (List ServiceInvocation × FloatText × FloatText) := do
  let retriever_metadata ← retriever.metadata >>= asMapping
  let own_metadata ← model_service.metadata
  let model_metadata ← asMapping ((response.get? "service").getD own_metadata)
  let retriever_cost ← numbers.float (estimatedCost retriever_metadata)
  let model_cost ← numbers.float ((response.get? "cost_usd").getD (estimatedCost model_metadata))
  let retriever_service ← build_service_invocation unicode numbers "retriever" retriever_metadata
    none [] (some moment.retrieval_latency_ms) (some retriever_cost)
  let reranker_services ← rerankerServices unicode numbers candidates
  let model ← build_service_invocation unicode numbers "model" model_metadata
    call.requested_model call.model_attempts (some moment.model_latency_ms) (some model_cost)
  return (retriever_service :: reranker_services ++ [model], retriever_cost, model_cost)

/-- `execute_query_with_receipt`: the response of the model, and the contents of the receipt. -/
def execute (call : Execution) (retriever : RetrieverService) (model_service : ModelService)
    (moment : Moment) : Except Error (Json × Contents) := do
  if call.limit < 1 then
    .error (.valueError "query receipt execution limit must be positive")
  else
    let mounts ← normalize_pack_mounts call.pack_mounts
    if call.query_pack_ids = [] ∨ ¬∀ id ∈ call.query_pack_ids, id ∈ mounts.map Prod.fst then
      .error (.valueError
        "query_pack_ids must be a non-empty subset of mounted exact revisions")
    else
      let candidates ← retriever.search call.query call.query_pack_ids call.limit
      let response ← model_service.run (modelTask call.query call.query_pack_ids candidates) >>=
        asMapping
      let (services, retriever_cost, model_cost) ← servicesOf unicode numbers call retriever
        model_service candidates response moment
      let contents ← contentsOf sha256 unicode numbers
        { query := call.query
          pack_mounts := .arr (mounts.map mountJson)
          pack_scope_ids := call.query_pack_ids
          projection := call.projection
          policy := call.policy
          trace_ref := call.trace_ref
          run_ref := call.run_ref
          query_id := call.query_id }
        services candidates response moment.now moment.total_latency_ms
        (numbers.add retriever_cost model_cost)
      return (response, contents)

def execute_query_with_receipt (call : Execution) (retriever : RetrieverService)
    (model_service : ModelService) (moment : Moment) : Except Error (Json × Json) := do
  let (response, contents) ← execute sha256 unicode numbers call retriever model_service moment
  return (response, contents.receipt sha256)

end

/-! ## What an execution builds -/

variable {sha256 : Sha256} {unicode : UnicodeText} {numbers : PyNumbers}

/-- The contents that are built from these parts, in terms of what the builder calls. -/
structure Built (sha256 : Sha256) (unicode : UnicodeText) (numbers : PyNumbers) (request : Request)
    (services : List ServiceInvocation) (candidates : List Json) (response : Json) (now : String)
    (latency_ms cost_usd : FloatText) (contents : Contents) : Prop where
  recorded_at : contents.recorded_at = now
  query_id : contents.query_id ≠ ""
  text : contents.text = request.query
  normalized : contents.normalized = normalize_query unicode request.query
  normalized_ne : contents.normalized ≠ ""
  query_sha256 : contents.query_sha256 = _sha256_text sha256 contents.normalized
  packs : normalize_pack_mounts request.pack_mounts = .ok contents.packs
  pack_scope_ids : _normalize_pack_scope contents.packs request.pack_scope_ids =
    .ok contents.pack_scope_ids
  projection : contents.name ≠ "" ∧ contents.version ≠ "" ∧ contents.build_id ≠ ""
  policy : contents.route_id ≠ "" ∧ contents.retrieval_policy_id ≠ ""
  mode : request.policy.isObj = true ∧
    contents.mode = textOr (sanitize_diagnostics unicode request.policy) "mode" "unspecified"
  services : contents.services = services
  resolvers : _resolver_records unicode numbers response = .ok contents.resolvers
  citation_ids : _citation_ids (outputOf response) = .ok contents.citation_ids
  records : ((candidates.zipIdx 1).mapM fun ranked =>
    _retrieval_candidate numbers ranked.1 ranked.2) = .ok contents.candidates
  claim_ids : _claim_ids (outputOf response) = .ok contents.claim_ids
  confidence : confidenceOf numbers (outputOf response) = .ok contents.confidence
  context_ids : contents.context_ids = _final_context_ids candidates contents.resolvers
  outcome : contents.outcome = textOr (outputOf response) "outcome" "unknown"
  authority : contents.authority = textOr response "authority" "unknown"
  latency_ms : contents.latency_ms = latency_ms
  cost_usd : contents.cost_usd = cost_usd
  trace_ref : contents.trace_ref ≠ ""

theorem contentsOf_ok {request : Request} {services : List ServiceInvocation}
    {candidates : List Json} {response : Json} {now : String} {latency_ms cost_usd : FloatText}
    {contents : Contents}
    (h : contentsOf sha256 unicode numbers request services candidates response now latency_ms
      cost_usd = .ok contents) :
    Built sha256 unicode numbers request services candidates response now latency_ms cost_usd
      contents := by
  unfold contentsOf at h
  simp only at h
  split at h
  · cases h
  rename_i hnormalized
  obtain ⟨packs, hpacks, h⟩ := bind_eq_ok.mp h
  obtain ⟨pack_scope_ids, hscope, h⟩ := bind_eq_ok.mp h
  obtain ⟨projection, -, h⟩ := bind_eq_ok.mp h
  split at h
  · cases h
  rename_i hprojection
  obtain ⟨policy, hpolicy, h⟩ := bind_eq_ok.mp h
  split at h
  · cases h
  rename_i hroute
  split at h
  · cases h
  rename_i htrace
  obtain ⟨resolvers, hresolvers, h⟩ := bind_eq_ok.mp h
  obtain ⟨citation_ids, hcitations, h⟩ := bind_eq_ok.mp h
  obtain ⟨candidate_records, hcandidates, h⟩ := bind_eq_ok.mp h
  obtain ⟨claim_ids, hclaims, h⟩ := bind_eq_ok.mp h
  obtain ⟨confidence, hconfidence, h⟩ := bind_eq_ok.mp h
  cases h
  obtain ⟨rfl, hmapping⟩ := asMapping_ok.mp hpolicy
  simp only [not_not, List.forall_mem_cons, List.not_mem_nil, false_implies, implies_true,
    and_true] at hprojection hroute
  refine ⟨rfl, ?_, rfl, rfl, hnormalized, rfl, hpacks, hscope, hprojection, hroute,
    ⟨hmapping, rfl⟩, rfl, hresolvers, hcitations, hcandidates, hclaims, hconfidence, rfl, rfl, rfl,
    rfl, rfl, htrace⟩
  cases hid : request.query_id.filter (· ≠ "") with
  | some query_id =>
      have hne := (Option.filter_eq_some_iff.mp hid).2
      simpa [hid] using hne
  | none =>
      simp only [Option.getD_none]
      intro hempty
      simpa using congrArg String.toList hempty

/-- An execution that returns has retrieved, has run the model, and has built the contents. -/
theorem execute_ok {call : Execution} {retriever : RetrieverService} {model_service : ModelService}
    {moment : Moment} {response : Json} {contents : Contents}
    (h : execute sha256 unicode numbers call retriever model_service moment =
      .ok (response, contents)) :
    ∃ mounts candidates services retriever_cost model_cost,
      retriever.search call.query call.query_pack_ids call.limit = .ok candidates ∧
        response.isObj = true ∧
        servicesOf unicode numbers call retriever model_service candidates response moment =
          .ok (services, retriever_cost, model_cost) ∧
        Built sha256 unicode numbers
          { query := call.query
            pack_mounts := mounts
            pack_scope_ids := call.query_pack_ids
            projection := call.projection
            policy := call.policy
            trace_ref := call.trace_ref
            run_ref := call.run_ref
            query_id := call.query_id }
          services candidates response moment.now moment.total_latency_ms
          (numbers.add retriever_cost model_cost) contents := by
  unfold execute at h
  split_ifs at h
  obtain ⟨mounts, -, h⟩ := bind_eq_ok.mp h
  split_ifs at h
  obtain ⟨candidates, hcandidates, h⟩ := bind_eq_ok.mp h
  obtain ⟨answer, hanswer, h⟩ := bind_eq_ok.mp h
  obtain ⟨⟨services, retriever_cost, model_cost⟩, hservices, h⟩ := bind_eq_ok.mp h
  obtain ⟨built, hbuilt, h⟩ := bind_eq_ok.mp h
  cases h
  obtain ⟨stated, -, hmapping⟩ := bind_eq_ok.mp hanswer
  obtain ⟨rfl, hobj⟩ := asMapping_ok.mp hmapping
  exact ⟨_, candidates, services, retriever_cost, model_cost, hcandidates, hobj, hservices,
    contentsOf_ok hbuilt⟩

end Receipt

end FossilCore
