import Mathlib.Data.Finset.Sort
import FossilCore.Adapters.EventStore
import FossilCore.Domain.PackAccess
import FossilCore.Projection.Migration

/-!
# The agent boundary

`CorpusService` of `agent.py`, as programs over the files of a `DurableEventStore`.  The
lower-casing of texts, the retriever, the context provider and the lineages are given from
outside; `uuid` and `temp` are the UUIDs a call draws.
-/

namespace FossilCore

open Base

namespace Error

def capabilityError (message : String) : Error := ⟨.capabilityError, message⟩

def agentProvenanceError (message : String) : Error := ⟨.agentProvenanceError, message⟩

end Error

/-! ## Skills -/

/-- A validated Skill manifest. -/
structure Skill where
  skill_id : String
  version : String
  name : String
  summary : String
  capabilities : List String
  triggers : List String
  risk_notes : Option String

def Skill.manifest (skill : Skill) : Json :=
  .ofMembers ([
    ("schema_version", .str "fossil.agent-skill.v1"),
    ("skill_id", .str skill.skill_id),
    ("version", .str skill.version),
    ("name", .str skill.name),
    ("summary", .str skill.summary),
    ("methodology_ref", .str "SKILL.md"),
    ("capabilities", strings skill.capabilities),
    ("triggers", strings skill.triggers)] ++
      (skill.risk_notes.map fun notes => ("risk_notes", Json.str notes)).toList)

/-- The registered skills; loading refuses a second manifest with the same id. -/
structure SkillRegistry where
  skills : List Skill
  nodup : (skills.map Skill.skill_id).Nodup

namespace SkillRegistry

def list_skills (registry : SkillRegistry) : List Json :=
  (sortedBy Skill.skill_id registry.skills).map Skill.manifest

def get (registry : SkillRegistry) (skill_id : String) : Except Error Skill :=
  match registry.skills.find? fun skill => skill.skill_id = skill_id with
  | some skill => .ok skill
  | none => .error (.keyError skill_id)

def require_capability (registry : SkillRegistry) (skill_id capability : String) :
    Except Error Skill := do
  let skill ← registry.get skill_id
  if capability ∉ skill.capabilities then
    .error (.capabilityError s!"skill {skill_id} does not grant corpus capability {capability}")
  else return skill

end SkillRegistry

/-! ## Sessions -/

structure AgentContext where
  actor_id : String
  model_id : String
  harness_version : String
  skill_id : String
  skill_version : String
  complete : ∀ value ∈ [actor_id, model_id, harness_version, skill_id, skill_version], value ≠ ""

def AgentContext.durable_actor (context : AgentContext) : Json :=
  .ofMembers [
    ("actor_type", .str "agent"),
    ("actor_id", .str context.actor_id),
    ("model_id", .str context.model_id),
    ("harness_version", .str context.harness_version),
    ("skill_id", .str context.skill_id),
    ("skill_version", .str context.skill_version)]

structure Lineage where
  current_conclusions : Except Error Json
  historical_nodes : Except Error Json
  node : String → Except Error Json
  citations : String → Except Error Json
  opposing_positions : String → Except Error Json

/-- `search(query, pack_ids=pack_ids, limit=limit)` of a configured retriever. -/
abbrev Retriever := String → List String → ℤ → Except Error (List Json)

abbrev ContextProvider := Json → Except Error Json

structure CorpusService where
  config : StoreConfig
  root : String
  skills : SkillRegistry
  lineages : Dict String (String × Lineage)
  retriever : Option Retriever
  context_provider : Option ContextProvider
  service_version : String
  lower : String → String

structure ProposeArguments where
  event_type : String
  pack_id : String
  subject_refs : List String
  payload : Json
  occurred_at : String
  recorded_at : String
  idempotency_key : String
  evidence_refs : List String
  source_snapshot_refs : List String
  caused_by_event_ids : List String
  correlation_id : Option String
  provenance : List (String × Json)

namespace CorpusService

def CAPABILITIES : List String :=
  ["search", "context", "read", "lineage", "propose", "validate", "commit", "manage"]

variable (service : CorpusService) (access : PackAccess) (context : AgentContext)

def _authorize (capability : String) : Except Error Skill := do
  let skill ← service.skills.require_capability context.skill_id capability
  if skill.version ≠ context.skill_version then
    .error (.agentProvenanceError (s!"context skill version {context.skill_version} does not match " ++
      s!"registered {skill.version}"))
  else return skill

def _require_actor_match (event : Json) (context : AgentContext) : Except Error Unit := do
  let actor ← liftPy (event.getMethod "actor")
  if actor ≠ some context.durable_actor then
    .error (.agentProvenanceError ("agent event actor/model/harness/skill provenance does not " ++
      "match session context"))
  else return ()

/-- The texts of a request, without empty ones, each at its first place. -/
def requestedPacks (requested : List Json) : List String :=
  ((requested.map Json.pyStr).filter fun text => text ≠ "").eraseDups

def _authorized_pack_ids (requested : Option Json) (access : PackAccess) :
    Except Error (List String) :=
  match requested with
  | none | some .null => .ok (access.read_mounts.sort (· ≤ ·))
  | some (.arr items) => do
      let pack_ids := requestedPacks items
      if pack_ids = [] then
        .error (.valueError "pack_ids must contain at least one readable pack")
      else
        let _ ← pack_ids.mapM fun pack_id => access.require_read (.str pack_id)
        return pack_ids
  | some _ => .error .typeError

def requireScope (allowed : List String) (item : Json) : Except Error Unit :=
  let value := (item.get? "pack_id").getD .null
  let pack_id := if value.truthy then value.pyStr else ""
  if pack_id = "" then .error (.packBoundaryError "retrieval result is missing pack_id")
  else if pack_id ∉ allowed then
    .error (.packBoundaryError
      s!"retrieval result from unmounted pack {pack_id} crossed query boundary")
  else .ok ()

def _require_result_scope (items : List Json) (allowed : List String) : Except Error Unit := do
  let _ ← items.mapM (requireScope allowed)
  return ()

/-! ## Reading -/

/-- What a search shows of an event. -/
def searchResult (event : Json) : Except Error Json := do
  let event_id ← liftPy (event.getItem "event_id")
  let event_type ← liftPy (event.getItem "event_type")
  let pack_id ← liftPy (event.getItem "pack_id")
  let recorded_at ← liftPy (event.getItem "recorded_at")
  let subject_refs ← iterate ((event.get? "subject_refs").getD (.arr []))
  let evidence_refs ← iterate ((event.get? "evidence_refs").getD (.arr []))
  let source_snapshot_refs ← iterate ((event.get? "source_snapshot_refs").getD (.arr []))
  return .ofMembers [
    ("event_id", event_id), ("event_type", event_type), ("pack_id", pack_id),
    ("recorded_at", recorded_at), ("subject_refs", .arr subject_refs),
    ("evidence_refs", .arr evidence_refs), ("source_snapshot_refs", .arr source_snapshot_refs)]

/-- What the loop of a search does with one event: nothing, or a result. -/
def searchEvent (needle : String) (event : Json) : Except Error (Option Json) := do
  let pack_id ← liftPy (event.getItem "pack_id")
  if !(← inPacks pack_id access.read_mounts) then return none
  else if needle ≠ "" ∧ !Text.occursIn needle (service.lower event.dumpsSpaced) then return none
  else return some (← searchResult event)

/-- The loop of a search over the remaining files, which are read one at a time. -/
def searchFiles (needle : String) (limit : ℤ) : List Path → List Json → Fs (List Json)
  | [], results => return results
  | path :: rest, results => do
      let event ← Fs.readJson path
      match ← Program.done (service.searchEvent access needle event) with
      | none => searchFiles needle limit rest results
      | some result =>
          if ((results ++ [result]).length : ℤ) ≥ limit then return results ++ [result]
          else searchFiles needle limit rest (results ++ [result])

def searchRetriever (retriever : Retriever) (query : String) (limit : ℤ) :
    Except Error (List Json) := do
  let pack_ids := access.read_mounts.sort (· ≤ ·)
  let found ← retriever query pack_ids limit
  let results ← found.mapM asMapping
  _require_result_scope results pack_ids
  return results.take limit.toNat

def search (query : String) (limit : ℤ) : Fs (List Json) := do
  let _ ← .done (service._authorize context "search")
  if limit < 1 ∨ limit > 100 then
    .raise (.valueError "search limit must be between 1 and 100")
  else
    match service.retriever with
    | some retriever => .done (searchRetriever access retriever query limit)
    | none => do
        let needle := Text.trim (service.lower query)
        let paths ← Fs.glob []
        service.searchFiles access needle limit (sorted paths) []

def contextItems (result : Json) : Except Error (List Json) := do
  let items ← iterate ((result.get? "items").getD (.arr []))
  items.mapM asMapping

/-- `context`; the request is a mapping. -/
def build_context (request : Json) : Except Error Json := do
  let _ ← service._authorize context "context"
  match service.context_provider with
  | none => .error (.capabilityError "FOSSIL context provider is not configured")
  | some provider =>
      let pack_ids ← _authorized_pack_ids (request.get? "pack_ids") access
      let result ← provider (request.set "pack_ids" (strings pack_ids)) >>= asMapping
      let items ← contextItems result
      _require_result_scope items pack_ids
      return (result.set "items" (.arr items)).set "pack_ids" (strings pack_ids)

def read (event_id : String) : Fs Json := do
  let _ ← .done (service._authorize context "read")
  let event ← DurableEventStore.get event_id
  let pack_id ← .done (liftPy (event.getItem "pack_id"))
  let _ ← .done (access.require_read pack_id)
  return event

/-- What `lineage` shows of a lineage, and of one of its nodes. -/
def describeLineage (conversation_id pack_id : String) (lineage : Lineage)
    (node_id : Option String) : Except Error Json := do
  let current_conclusions ← lineage.current_conclusions
  let historical_nodes ← lineage.historical_nodes
  let result := Json.ofMembers [
    ("conversation_id", .str conversation_id), ("pack_id", .str pack_id),
    ("current_conclusions", current_conclusions), ("historical_nodes", historical_nodes)]
  match node_id with
  | none => return result
  | some node_id =>
      let node ← lineage.node node_id
      let citations ← lineage.citations node_id
      let opposing_positions ← lineage.opposing_positions node_id
      return ((result.set "node" node).set "citations" citations).set "opposing_positions"
        opposing_positions

def lineage (conversation_id : String) (node_id : Option String) : Except Error Json := do
  let _ ← service._authorize context "lineage"
  match service.lineages.get? conversation_id with
  | none => .error (.keyError conversation_id)
  | some (pack_id, lineage) =>
      let _ ← access.require_read (.str pack_id)
      describeLineage conversation_id pack_id lineage node_id

/-! ## Proposing and committing -/

def promptRef : String := s!"{context.skill_id}@{context.skill_version}"

def proposedEvent (args : ProposeArguments) : Json :=
  .ofMembers [
    ("schema_version", .str "dkg.event.v1"),
    ("event_type", .str args.event_type),
    ("occurred_at", .str args.occurred_at),
    ("recorded_at", .str args.recorded_at),
    ("pack_id", .str args.pack_id),
    ("actor", context.durable_actor),
    ("subject_refs", strings args.subject_refs),
    ("caused_by_event_ids", strings args.caused_by_event_ids),
    ("correlation_id", (args.correlation_id.map Json.str).getD .null),
    ("idempotency_key", .str args.idempotency_key),
    ("evidence_refs", strings args.evidence_refs),
    ("source_snapshot_refs", strings args.source_snapshot_refs),
    ("payload", args.payload),
    ("provenance", .ofMembers ([
      ("method", .str "agent_proposal"),
      ("prompt_or_policy_ref", .str (promptRef context))] ++ args.provenance))]

def propose (args : ProposeArguments) (uuid : String) : Except Error Json := do
  let _ ← service._authorize context "propose"
  let _ ← access.require_write (.str args.pack_id)
  service.config.prepare (proposedEvent context args) uuid

def propose_promotion (args : PromotionArguments) (uuid : String) : Except Error Json := do
  let _ ← service._authorize context "propose"
  let _ ← access.require_read (.str args.source_pack_id)
  let _ ← access.require_write (.str args.target_pack_id)
  let event ← build_promotion_event args context.durable_actor
  let provenance := (event.get? "provenance").getD .null
  let event := event.set "provenance"
    (provenance.set "prompt_or_policy_ref" (.str (promptRef context)))
  service.config.prepare event uuid

/-- The checks that `validate` and `commit` share. -/
def authorizeWrite (capability : String) (event : Json) : Except Error Unit := do
  let _ ← service._authorize context capability
  let pack_id ← liftPy (event.getItem "pack_id")
  let _ ← access.require_write pack_id
  _require_actor_match event context

def validate (event : Json) (uuid : String) : Except Error Json := do
  let _ ← service.authorizeWrite access context "validate" event
  service.config.validate event uuid

def commit (event : Json) (uuid temp : String) : Fs Json := do
  let _ ← .done (service.authorizeWrite access context "commit" event)
  DurableEventStore.commit service.config event uuid temp

def manage (action : String) : Except Error Json := do
  let _ ← service._authorize context "manage"
  if action = "capabilities" then
    return .ofMembers [
      ("service_version", .str service.service_version),
      ("capabilities", strings CAPABILITIES),
      ("arbitrary_graph_mutation", .bool false)]
  else if action = "skills" then
    return .ofMembers [("skills", .arr service.skills.list_skills)]
  else if action = "health" then
    return .ofMembers [
      ("status", .str "ok"), ("service_version", .str service.service_version),
      ("event_store_root", .str service.root)]
  else .error (.capabilityError s!"unsupported management action: {action}")

end CorpusService

/-! ## Calls -/

inductive CorpusOperation where
  | search (query : String) (limit : ℤ)
  | context (request : Json)
  | read (event_id : String)
  | lineage (conversation_id : String) (node_id : Option String)
  | propose (args : ProposeArguments) (uuid : String)
  | propose_promotion (args : PromotionArguments) (uuid : String)
  | validate (event : Document) (uuid : String)
  | commit (event : Document) (uuid temp : String)
  | manage (action : String)

/-- A call, with the access and the session it is made under. -/
structure CorpusCall where
  access : PackAccess
  context : AgentContext
  operation : CorpusOperation

namespace CorpusService

def program (service : CorpusService) (call : CorpusCall) : Fs Json :=
  let access := call.access
  let context := call.context
  match call.operation with
  | .search query limit => do return .arr (← service.search access context query limit)
  | .context request => .done (service.build_context access context request)
  | .read event_id => service.read access context event_id
  | .lineage conversation_id node_id =>
      .done (service.lineage access context conversation_id node_id)
  | .propose args uuid => .done (service.propose access context args uuid)
  | .propose_promotion args uuid => .done (service.propose_promotion access context args uuid)
  | .validate event uuid => .done (service.validate access context event.value uuid)
  | .commit event uuid temp => service.commit access context event.value uuid temp
  | .manage action => .done (service.manage context action)

def step (service : CorpusService) (files : Files) (call : CorpusCall) :
    Except Error Json × Files :=
  (service.program call).run fsStep files

end CorpusService

end FossilCore
