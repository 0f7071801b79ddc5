import FossilCore.Application.PackValidation
import FossilCore.Application.TemporalRebuild
import FossilCore.Domain.PackAccess
import FossilCore.Pack.Snapshots

/-!
# The audit of pack directories

`validate_pack_fixtures` of `pack_fixture.py`: the packs are read one after the other, and what
was read is then checked across the packs.
-/

namespace FossilCore

open Base

/-! ## Manifest sets -/

namespace KnowledgePackValidator

variable (formats : FormatChecker)

def addManifest (by_id : PackCatalog) (manifest : Json) : Except Error PackCatalog := do
  KnowledgePackValidator.validate formats manifest
  let pack_id ← liftPy (manifest.getItem "pack_id")
  if by_id.contains pack_id.pyStr then
    .error (.packBoundaryError ("duplicate pack_id: " ++ pack_id.pyStr))
  else return by_id.set pack_id.pyStr manifest

def _validate_catalog (manifests : List Json) : Except Error PackCatalog :=
  manifests.foldlM (addManifest formats) .empty

def requireAvailable (by_id : PackCatalog) (dependency : Json) : Except Error Unit := do
  let required ← liftPy (dependency.getItem "required")
  let pack_id ← liftPy (dependency.getItem "pack_id")
  if required.truthy && !by_id.contains pack_id.pyStr then
    .error (.packBoundaryError ("required dependency " ++ pack_id.pyStr ++ " is unavailable"))
  else return ()

def validate_set (manifests : List Json) : Except Error PackCatalog := do
  let by_id ← _validate_catalog formats manifests
  by_id.values.forM fun manifest =>
    ((manifest.get? "dependencies").getD (.arr [])).items.forM (requireAvailable by_id)
  validate_pack_dependency_graph by_id
  return by_id

end KnowledgePackValidator

/-! ## Events -/

structure PackContents where
  root : String
  manifest : Json
  access : PackAccess
  artifacts : Dict String Json
  snapshots : Dict String Json
  events : List Json

section Reading

variable (sha256 : Sha256) (formats : FormatChecker) (directory : Directory) (root : String)

def eventPathIn (event_root : Path) (event_id : String) : Path :=
  event_root ++ [shardOf "evt_" event_id, fileName event_id]

def missingSelfWrite (pack_id : String) : Error :=
  .packFixtureIntegrityError ("pack " ++ pack_id ++ " contains events but cannot write itself")

/-- The check of an idempotent event's id. -/
def checkEventId (pack_id event_id : String) (idem : Json) : Except Error Unit :=
  if idem.truthy ∧ event_id ≠ deterministic_event_id sha256 (.str pack_id) (.str idem.pyStr) then
    .error (.packFixtureIntegrityError
      ("event_id does not match deterministic idempotency identity: " ++ event_id))
  else .ok ()

/-- One event below an event root. -/
def readEvent (access : PackAccess) (pack_id : String) (event_root : Path) (events : List Json)
    (path : Path) : Except Error (List Json) := do
  let event ← _load_json directory root path
  _validate_schema (eventSchema formats) event (fullPath root path)
  let event_id := textOf event "event_id"
  if event_id ∈ events.map fun event => textOf event "event_id" then
    .error (.packFixtureIntegrityError ("duplicate event_id in pack: " ++ event_id))
  else if event.get? "pack_id" ≠ some (.str pack_id) then
    .error (.packFixtureIntegrityError ("event " ++ event_id ++ " belongs to " ++
      textOf event "pack_id" ++ " but is stored in " ++ pack_id))
  else if pack_id ∉ access.write_targets then .error (missingSelfWrite pack_id)
  else
    checkEventId sha256 pack_id event_id ((event.get? "idempotency_key").getD .null)
    if path ≠ eventPathIn event_root event_id then
      .error (.packFixtureIntegrityError
        ("event path does not match stable identity: " ++ fullPath root path))
    else return events ++ [event]

def readEventRoot (access : PackAccess) (pack_id : String) (events : List Json)
    (relative : Json) : Except Error (List Json) :=
  let event_root := relativePath relative.pyStr
  if !directory.is_dir event_root then
    .error (.packFixtureIntegrityError
      ("event root is missing: " ++ fullPath root event_root))
  else (directory.glob event_root).foldlM
    (readEvent sha256 formats directory root access pack_id event_root) events

def _read_events (manifest : Json) : Except Error (List Json) := do
  let pack_id ← liftPy (manifest.getItem "pack_id")
  let access ← PackAccess.from_manifest manifest
  let event_roots ← liftPy (manifest.getItem "event_roots")
  let event_roots ← iterate event_roots
  event_roots.foldlM (readEventRoot sha256 formats directory root access pack_id.pyStr) []

def readPack (manifest : Json) : Except Error PackContents := do
  let artifacts ← _read_artifacts sha256 directory root manifest
  let snapshots ← _read_snapshots sha256 formats directory root artifacts
  let events ← _read_events sha256 formats directory root manifest
  let access ← PackAccess.from_manifest manifest
  return ⟨root, manifest, access, artifacts, snapshots, events⟩

end Reading

/-! ## References -/

/-- The packs that an identifier was found in. -/
abbrev Owners := Dict String (List String)

/-- `index.setdefault(identifier, set()).add(pack_id)` -/
def addOwner (index : Owners) (identifier pack_id : String) : Owners :=
  let owners := (index.get? identifier).getD []
  index.set identifier (if pack_id ∈ owners then owners else owners ++ [pack_id])

def _owners (index : Owners) (identifier kind : String) : Except Error (List String) :=
  match (index.get? identifier).getD [] with
  | [] => .error (.packFixtureIntegrityError ("unknown " ++ kind ++ " reference: " ++ identifier))
  | owners => .ok owners

/-- The least owner that the pack may read. -/
def _require_readable_owner (access : PackAccess) (owners : List String)
    (identifier kind : String) : Except Error String :=
  match (owners.filter fun owner => owner ∈ access.read_mounts).min? with
  | some owner => .ok owner
  | none => .error (.packFixtureIntegrityError (kind ++ " " ++ identifier ++
      " exists only in packs not mounted by " ++ access.pack_id ++ ": " ++
      (strings (sorted owners)).pyStr))

/-- The reference check that every kind of reference goes through. -/
def requireReadable (access : PackAccess) (index : Owners) (kind identifier : String) :
    Except Error String := do
  let owners ← _owners index identifier kind
  _require_readable_owner access owners identifier kind

structure PackIndex where
  artifact_owners : Owners
  snapshot_owners : Owners
  event_owners : Owners
  claim_owners : Owners
  relation_owners : Owners

def PackIndex.empty : PackIndex := ⟨.empty, .empty, .empty, .empty, .empty⟩

/-- What the index takes from an event. -/
def indexEvent (pack_id : String) (index : PackIndex) (event : Json) : Except Error PackIndex := do
  let event_id := textOf event "event_id"
  let index := { index with event_owners := addOwner index.event_owners event_id pack_id }
  let event_type ← liftPy (event.getItem "event_type")
  if event_type = .str "claim.proposed" then
    let subject_refs ← liftPy (event.getItem "subject_refs")
    let subject ← liftPy subject_refs.getFirst
    return { index with claim_owners := addOwner index.claim_owners subject.pyStr pack_id }
  else if event_type = .str "relation.proposed" then
    let payload ← liftPy (event.getItem "payload")
    let relation_id ← liftPy (payload.getItem "relation_id")
    return { index with
      relation_owners := addOwner index.relation_owners relation_id.pyStr pack_id }
  else return index

def indexPack (index : PackIndex) (entry : String × PackContents) : Except Error PackIndex :=
  let artifact_owners := entry.2.artifacts.keys.foldl
    (fun owners artifact_id => addOwner owners artifact_id entry.1) index.artifact_owners
  let snapshot_owners := entry.2.snapshots.keys.foldl
    (fun owners snapshot_id => addOwner owners snapshot_id entry.1) index.snapshot_owners
  entry.2.events.foldlM (indexEvent entry.1) { index with artifact_owners, snapshot_owners }

/-- The identifiers that more than one pack owns. -/
def sharedIds (index : Owners) : List String :=
  (index.entries.filter fun entry => 1 < entry.2.length).map Prod.fst

def requireUnshared (kind : String) (index : Owners) : Except Error Unit :=
  if sharedIds index = [] then .ok ()
  else .error (.packFixtureIntegrityError ("globally duplicate " ++ kind ++ " IDs across packs: " ++
    (strings (sorted (sharedIds index))).pyStr))

/-! ## Citations -/

def citationSchema : Schema :=
  let properties : List (String × Schema) := [
    ("schema_version", Schema.const (.str "fossil.citation.v1")),
    ("citation_id", prefixedId "cite_" 12),
    ("snapshot_id", prefixedId "snap_" 12),
    ("artifact_id", prefixedId "art_" 16),
    ("byte_start", Schema.allOf [Schema.type [.integer, .null], Schema.minimum 0]),
    ("byte_end", Schema.allOf [Schema.type [.integer, .null], Schema.minimum 1]),
    ("passage_hash", Schema.oneOf [Schema.type [.null], contentHashSchema])]
  Schema.allOf [Schema.type [.object], Schema.closed (properties.map Prod.fst),
    Schema.required (properties.map Prod.fst), Schema.properties properties,
    Schema.ifThen (Schema.properties [("byte_start", Schema.type [.integer])])
      (Schema.properties [("byte_end", Schema.type [.integer]),
        ("passage_hash", Schema.type [.object])]),
    Schema.ifThen (Schema.properties [("byte_end", Schema.type [.integer])])
      (Schema.properties [("byte_start", Schema.type [.integer])])]

/-- The files that the packs were read from. -/
abbrev Disk := String → Directory

section Auditing

variable (sha256 : Sha256) (disk : Disk) (packs : Dict String PackContents) (index : PackIndex)

def citationError (message citation_id : String) : Error :=
  .packFixtureIntegrityError (message ++ ": " ++ citation_id)

/-- `isinstance(value, int)` and its value. -/
def integerOf : Json → Option ℤ
  | .int n => some n
  | .bool b => some (if b then 1 else 0)
  | _ => none

/-- The digest of the cited passage, after the checks of the span. -/
def citedDigest (citation : Json) (citation_id : String) (data : ByteArray) :
    Except Error String :=
  let start := (citation.get? "byte_start").getD .null
  let stop := (citation.get? "byte_end").getD .null
  let passage_hash := (citation.get? "passage_hash").getD .null
  if decide (start = .null) ≠ decide (stop = .null) then
    .error (citationError "citation span must provide both endpoints" citation_id)
  else if start = .null then
    if passage_hash ≠ .null then
      .error (citationError "whole-artifact citation must not include passage_hash" citation_id)
    else .ok "whole-artifact"
  else
    match integerOf start, integerOf stop with
    | some first, some last =>
        if first < 0 ∨ last ≤ first ∨ (data.size : ℤ) < last then
          .error (citationError "citation span is outside source artifact bounds" citation_id)
        else
          let digest := sha256.hexdigest (data.extract first.toNat last.toNat)
          if passage_hash.get? "digest" ≠ some (.str digest) then
            .error (citationError "citation passage hash does not match source bytes" citation_id)
          else .ok digest
    | _, _ => .error (citationError "citation span is outside source artifact bounds" citation_id)

/-- `packs[owner]` -/
def packOf (owner : String) : Except Error PackContents :=
  match packs.get? owner with
  | some pack => .ok pack
  | none => .error (.keyError owner)

def entryOf (entries : Dict String Json) (key : String) : Except Error Json :=
  match entries.get? key with
  | some value => .ok value
  | none => .error (.keyError key)

/-- The audit of a citation; the passage itself is not used. -/
def _citation_bytes (access : PackAccess) (citation : Json) : Except Error Unit := do
  _validate_schema citationSchema citation
    ("citation " ++ ((citation.get? "citation_id").getD .null).pyStr)
  let snapshot_id := textOf citation "snapshot_id"
  let citation_id := textOf citation "citation_id"
  let owner ← requireReadable access index.snapshot_owners "source snapshot" snapshot_id
  let pack ← packOf packs owner
  let snapshot ← entryOf pack.snapshots snapshot_id
  if snapshot.get? "artifact_id" ≠ citation.get? "artifact_id" then
    .error (citationError "citation artifact does not match source snapshot" citation_id)
  else
    let artifact_id := textOf citation "artifact_id"
    let artifact ← entryOf pack.artifacts artifact_id
    let digest ← manifestDigest artifact
    let data ← (disk pack.root).read_bytes (artifactBlobPath digest)
    let passage_digest ← citedDigest sha256 citation citation_id data
    let expected_id := _stable_id sha256 "cite" [snapshot_id, artifact_id,
      ((citation.get? "byte_start").getD .null).pyStr,
      ((citation.get? "byte_end").getD .null).pyStr, passage_digest] 24
    if citation_id ≠ expected_id then
      .error (citationError "citation_id does not match immutable citation identity" citation_id)
    else return ()

/-! ## The audit -/

def auditReference (access : PackAccess) (owners : Owners) (kind : String) (reference : Json) :
    Except Error Unit := do
  let _ ← requireReadable access owners kind reference.pyStr
  return ()

/-- `for reference in value.get(key, []): ..` -/
def auditReferences (access : PackAccess) (owners : Owners) (kind : String) (value : Json)
    (key : String) : Except Error Unit := do
  let references ← iterate ((value.get? key).getD (.arr []))
  references.forM (auditReference access owners kind)

def auditSnapshot (access : PackAccess) (snapshot : Json) : Except Error Unit :=
  let derivation := (snapshot.get? "derivation").getD .null
  if !derivation.isObj then .ok ()
  else auditReferences access index.snapshot_owners "parent source snapshot" derivation
    "parent_snapshot_refs"

/-- One side of a proposed relation. -/
def auditEndpoint (access : PackAccess) (payload : Json) (side : String) : Except Error Unit := do
  let reference ← liftPy (payload.getItem side)
  if !Text.startsWith reference.pyStr "clm_" then return ()
  else auditReference access index.claim_owners "claim" reference

/-- The audit of an event, and whether it has a citation. -/
def auditEvent (access : PackAccess) (event : Json) : Except Error Bool := do
  auditReferences access index.artifact_owners "artifact" event "evidence_refs"
  auditReferences access index.snapshot_owners "source snapshot" event "source_snapshot_refs"
  auditReferences access index.event_owners "causal event" event "caused_by_event_ids"
  let payload := (event.get? "payload").getD (.obj [])
  let citation := (← liftPy (payload.getMethod "citation")).getD .null
  if citation.isObj then _citation_bytes sha256 disk packs index access citation
  let event_type ← liftPy (event.getItem "event_type")
  if event_type = .str "relation.proposed" then
    let payload ← liftPy (event.getItem "payload")
    auditEndpoint index access payload "source_ref"
    auditEndpoint index access payload "target_ref"
  return citation.isObj

/-- `KnowledgeState.replay` under `except (KeyError, ValueError)`. -/
def auditReplay (pack_id : String) (events : List Json) : Except Error Unit := do
  let ordered ← ordered_events events
  match KnowledgeState.replay ordered with
  | .ok _ => .ok ()
  | .error e =>
      if e.cls = .builtin .keyError ∨ e.cls.isValueError then
        .error (.packFixtureIntegrityError
          ("lifecycle replay failed for pack " ++ pack_id ++ ": " ++ e.message))
      else .error e

/-- The audit of a pack, and the number of its citations. -/
def auditPack (entry : String × PackContents) : Except Error ℕ := do
  entry.2.snapshots.values.forM (auditSnapshot index entry.2.access)
  let cited ← entry.2.events.mapM (auditEvent sha256 disk packs index entry.2.access)
  auditReplay entry.1 entry.2.events
  return cited.count true

structure PackFixtureAudit where
  pack_ids : List String
  artifact_count : ℕ
  snapshot_count : ℕ
  event_count : ℕ
  citation_count : ℕ
  claim_count : ℕ
  relation_count : ℕ
  deriving DecidableEq

/-- The checks across the packs. -/
def auditPacks : Except Error PackFixtureAudit := do
  let index ← packs.entries.foldlM indexPack .empty
  requireUnshared "event" index.event_owners
  requireUnshared "claim" index.claim_owners
  requireUnshared "relation" index.relation_owners
  let citations ← packs.entries.mapM (auditPack sha256 disk packs index)
  return {
    pack_ids := sorted packs.keys
    artifact_count := (packs.values.map fun pack => pack.artifacts.keys.length).sum
    snapshot_count := (packs.values.map fun pack => pack.snapshots.keys.length).sum
    event_count := (packs.values.map fun pack => pack.events.length).sum
    citation_count := citations.sum
    claim_count := index.claim_owners.keys.length
    relation_count := index.relation_owners.keys.length }

end Auditing

section Packs

variable (sha256 : Sha256) (formats : FormatChecker) (disk : Disk)

/-- The manifests by their roots. -/
def readManifests (roots : List String) : Except Error (Dict String Json) :=
  roots.foldlM (fun manifest_by_root root => do
    let manifest ← _load_json (disk root) root ["manifest.json"]
    return manifest_by_root.set root manifest) .empty

/-- `validate_set`, under `except (ValidationError, PackBoundaryError)`. -/
def validateManifests (manifests : List Json) : Except Error PackCatalog :=
  match KnowledgePackValidator.validate_set formats manifests with
  | .ok by_id => .ok by_id
  | .error e =>
      if e.cls = .validationError ∨ e.cls = .packBoundaryError then
        .error (.packFixtureIntegrityError
          ("knowledge-pack manifest set is invalid: " ++ e.message))
      else .error e

/-- `{str(manifest["pack_id"]): root for root, manifest in manifest_by_root.items()}` -/
def rootsByPack (manifest_by_root : Dict String Json) : Dict String String :=
  .ofPairs (manifest_by_root.entries.map fun entry => (textOf entry.2 "pack_id", entry.1))

def readPackEntry (root_by_pack : Dict String String) (entry : String × Json) :
    Except Error (String × PackContents) := do
  match root_by_pack.get? entry.1 with
  | none => .error (.keyError entry.1)
  | some root => return (entry.1, ← readPack sha256 formats (disk root) root entry.2)

/-- The packs of the roots, each read from its directory. -/
def readPacks (roots : List String) : Except Error (Dict String PackContents) := do
  if roots = [] then
    .error (.packFixtureIntegrityError "at least one pack root is required")
  else
    let manifest_by_root ← readManifests disk roots
    let manifests ← validateManifests formats manifest_by_root.values
    let root_by_pack := rootsByPack manifest_by_root
    if !(root_by_pack.keys.all (· ∈ manifests.keys) && manifests.keys.all (· ∈ root_by_pack.keys)) then
      .error (.packFixtureIntegrityError "pack roots must have unique pack IDs")
    else
      let packs ← manifests.entries.mapM (readPackEntry sha256 formats disk root_by_pack)
      return .ofPairs packs

def validate_pack_fixtures (roots : List String) : Except Error PackFixtureAudit := do
  let packs ← readPacks sha256 formats disk roots
  auditPacks sha256 disk packs

end Packs

end FossilCore
