import FossilCore.Pack.Fixture

/-!
# Retrieval documents

`retrieval_documents_from_pack_fixtures` of `application/rebuild/pack_corpus.py`: after the
audit, every pack is replayed on its own, and its claims and relations become documents.
-/

namespace FossilCore

open Base

namespace Corpus

/-- `json.loads(path.read_text(encoding="utf-8"))`, for an object. -/
def _load_json (directory : Directory) (root : String) (path : Path) : Except Error Json := do
  let data ← directory.read_bytes path
  let value ← liftPy (Json.loadText data)
  if value.isObj then return value
  else .error (.valueError ("expected JSON object: " ++ fullPath root path))

/-- The events of one root, in the order of their paths. -/
def loadEventRoot (directory : Directory) (root : String) (relative : Json) :
    Except Error (List Json) :=
  (directory.glob (relativePath relative.pyStr)).mapM (_load_json directory root)

def _events_for_pack (directory : Directory) (root : String) (manifest : Json)
    (as_of_recorded_at : Option String) : Except Error (List Json) := do
  let event_roots ← liftPy (manifest.getItem "event_roots")
  let event_roots ← iterate event_roots
  let loaded ← event_roots.mapM (loadEventRoot directory root)
  eventsAsOf as_of_recorded_at loaded.flatten

/-- What the loop over the roots has gathered. -/
structure Gathered where
  events_by_pack : Dict String (List Json)
  state_by_pack : Dict String KnowledgeState
  claim_text : Dict String String
  claim_event : Dict String Json
  relation_event : Dict String Json

def Gathered.empty : Gathered := ⟨.empty, .empty, .empty, .empty, .empty⟩

def gatherEvent (gathered : Gathered) (event : Json) : Except Error Gathered := do
  let event_type ← liftPy (event.getItem "event_type")
  if event_type = .str "claim.proposed" then
    let subject_refs ← liftPy (event.getItem "subject_refs")
    let claim_id ← liftPy subject_refs.getFirst
    let payload ← liftPy (event.getItem "payload")
    let claim_text ← liftPy (payload.getItem "claim_text")
    return { gathered with
      claim_text := gathered.claim_text.set claim_id.pyStr claim_text.pyStr
      claim_event := gathered.claim_event.set claim_id.pyStr event }
  else if event_type = .str "relation.proposed" then
    let payload ← liftPy (event.getItem "payload")
    let relation_id ← liftPy (payload.getItem "relation_id")
    return { gathered with relation_event := gathered.relation_event.set relation_id.pyStr event }
  else return gathered

def gatherPack (disk : Disk) (as_of_recorded_at : Option String) (gathered : Gathered)
    (root : String) : Except Error Gathered := do
  let manifest ← _load_json (disk root) root ["manifest.json"]
  let pack_id ← liftPy (manifest.getItem "pack_id")
  let events ← _events_for_pack (disk root) root manifest as_of_recorded_at
  let state ← KnowledgeState.replay events
  events.foldlM gatherEvent { gathered with
    events_by_pack := gathered.events_by_pack.set pack_id.pyStr events
    state_by_pack := gathered.state_by_pack.set pack_id.pyStr state }

/-! ## Documents -/

/-- `[str(item) for item in event.get(key, [])]` -/
def refTexts (event : Json) (key : String) : Except Error Json := do
  let items ← iterate ((event.get? key).getD (.arr []))
  return strings (items.map Json.pyStr)

/-- `mapping[key]` -/
def subscript {κ α : Type} [DecidableEq κ] (d : Dict κ α) (key : κ) (text : String) :
    Except Error α :=
  match d.get? key with
  | some value => .ok value
  | none => .error (.keyError text)

/-- `sorted(mapping)`, for a loop that looks every key up among texts: the lookup of a number
fails, and keys of several kinds do not compare. -/
def sortedKeys {α : Type} (d : Dict Json α) : Except Error (List String) :=
  let texts := d.keys.filterMap Json.asStr?
  if texts.length = d.keys.length then .ok (sorted texts)
  else if d.keys.length = 1 ∨ d.keys.all fun key => (Json.numberOf key).isSome then
    .error (.keyError ((d.keys.headD .null).pyRepr))
  else .error .typeError

def claimDocument (gathered : Gathered) (pack_id : String) (state : KnowledgeState)
    (claim_id : String) : Except Error Json := do
  let event ← subscript gathered.claim_event claim_id claim_id
  let text ← subscript gathered.claim_text claim_id claim_id
  let current ← subscript state.claims (.str claim_id) claim_id
  let history ← subscript state.claim_history (.str claim_id) claim_id
  let event_id ← liftPy (event.getItem "event_id")
  let evidence_refs ← refTexts event "evidence_refs"
  let source_snapshot_refs ← refTexts event "source_snapshot_refs"
  let citation ← liftPy (((event.get? "payload").getD (.obj [])).getMethod "citation")
  return .ofMembers ([
    ("id", .str claim_id),
    ("pack_id", .str pack_id),
    ("text", .str text),
    ("document_type", .str "claim"),
    ("current_state", .str current),
    ("state_history", strings history),
    ("proposed_event_id", .str event_id.pyStr),
    ("evidence_refs", evidence_refs),
    ("source_snapshot_refs", source_snapshot_refs)] ++
      match citation with
      | some value => if value.isObj then [("citation", value)] else []
      | none => [])

/-- `claim_text.get(reference, reference)`, printed. -/
def endpointText (gathered : Gathered) (reference : Json) : Except Error String :=
  match reference with
  | .str text => .ok ((gathered.claim_text.get? text).getD text)
  | other => if other.hashable then .ok other.pyStr else .error .typeError

def relationDocument (gathered : Gathered) (pack_id : String) (state : KnowledgeState)
    (relation_id : String) : Except Error Json := do
  let relation ← subscript state.relations (.str relation_id) relation_id
  let event ← subscript gathered.relation_event relation_id relation_id
  let source_text ← endpointText gathered relation.source_ref
  let target_text ← endpointText gathered relation.target_ref
  let history ← subscript state.relation_history (.str relation_id) relation_id
  let event_id ← liftPy (event.getItem "event_id")
  let evidence_refs ← refTexts event "evidence_refs"
  let source_snapshot_refs ← refTexts event "source_snapshot_refs"
  return .ofMembers [
    ("id", .str relation_id),
    ("pack_id", .str pack_id),
    ("text", .str (source_text ++ "\nRelation: " ++ relation.relation_type ++ "\n" ++ target_text)),
    ("document_type", .str "relation"),
    ("relation_type", .str relation.relation_type),
    ("source_ref", relation.source_ref),
    ("target_ref", relation.target_ref),
    ("current_state", .str relation.state),
    ("state_history", strings history),
    ("proposed_event_id", .str event_id.pyStr),
    ("evidence_refs", evidence_refs),
    ("source_snapshot_refs", source_snapshot_refs)]

def packDocuments (gathered : Gathered) (pack_id : String) : Except Error (List Json) := do
  let state ← subscript gathered.state_by_pack pack_id pack_id
  let claim_ids ← sortedKeys state.claims
  let claims ← claim_ids.mapM (claimDocument gathered pack_id state)
  let relation_ids ← sortedKeys state.relations
  let relations ← relation_ids.mapM (relationDocument gathered pack_id state)
  return claims ++ relations

/-- `(str(document["pack_id"]), str(document["id"]))` -/
def documentKey (document : Json) : String ×ₗ String :=
  toLex (textOf document "pack_id", textOf document "id")

/-- The documents of what was gathered. -/
def documentsOf (gathered : Gathered) : Except Error (List Json) := do
  let documents ← (sorted gathered.events_by_pack.keys).mapM (packDocuments gathered)
  return sortedBy documentKey documents.flatten

def gather (disk : Disk) (roots : List String) (as_of_recorded_at : Option String) :
    Except Error Gathered :=
  roots.foldlM (gatherPack disk as_of_recorded_at) .empty

end Corpus

def retrieval_documents_from_pack_fixtures (sha256 : Sha256) (formats : FormatChecker)
    (disk : Disk) (roots : List String) (as_of_recorded_at : Option String) :
    Except Error (List Json) := do
  let _ ← validate_pack_fixtures sha256 formats disk roots
  let gathered ← Corpus.gather disk roots as_of_recorded_at
  Corpus.documentsOf gathered

end FossilCore
