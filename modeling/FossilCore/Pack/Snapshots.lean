import FossilCore.Adapters.ArtifactStore
import FossilCore.Pack.Artifacts

/-!
# Source snapshots

`SourceSnapshotStore.put_snapshot` of `source.py`, on the files of a source store and of its
artifact store, and the snapshot audit of `pack_fixture.py`.
-/

namespace FossilCore

open Base

/-! ## Identities -/

/-- One character of `json.dumps(.., ensure_ascii=True)`. -/
def asciiChar (c : Char) : List Char :=
  let unit (n : ℕ) : List Char :=
    '\\' :: 'u' :: (List.range 4).map fun i => Sha2.hexChar (n >>> (4 * (3 - i)))
  if c.toNat < 128 then [c]
  else if c.toNat < 0x10000 then unit c.toNat
  else unit (0xd800 + (c.toNat - 0x10000) / 0x400) ++ unit (0xdc00 + (c.toNat - 0x10000) % 0x400)

/-- `json.dumps(value, sort_keys=True, separators=(",", ":"))` -/
def dumpsAscii (value : Json) : String := String.ofList ((Json.print value).flatMap asciiChar)

/-- `_stable_id` -/
def _stable_id (sha256 : Sha256) (kind : String) (parts : List String) (length : ℕ) : String :=
  kind ++ "_" ++ Text.take (sha256.hexdigest (Text.join "\x1f" parts).toUTF8) length

def locatorKeys : List String := ["url", "identifier", "repository_ref"]

/-- `isinstance(value, str) and bool(value.strip())` -/
def isNonBlank : Json → Bool
  | .str s => !Text.isBlank s
  | _ => false

namespace SourceSnapshotStore

def normalized_locator (locator : Json) : Except Error Json :=
  let member (key : String) := (locator.get? key).getD .null
  if !locatorKeys.any fun key => isNonBlank (member key) then
    .error (.valueError
      "source snapshot requires a non-empty URL, identifier, or repository_ref")
  else .ok (.ofMembers (locatorKeys.map fun key => (key, member key)))

def source_id_for_locator (sha256 : Sha256) (locator : Json) : Except Error String := do
  let normalized ← normalized_locator locator
  return _stable_id sha256 "source" [normalized.dumps] 20

end SourceSnapshotStore

def versionKeys : List String := ["etag", "last_modified", "version_id", "commit_sha"]

/-- The version with its defaults. -/
def fullVersion (version_metadata : Json) : Json :=
  .ofMembers ((versionKeys.map fun key => (key, Json.null)) ++ version_metadata.fields)

def snapshotId (sha256 : Sha256) (source_id digest retrieved_at : String) (version : Json) :
    String :=
  _stable_id sha256 "snap" [source_id, digest, retrieved_at, dumpsAscii version] 24

/-! ## The schema -/

def isHexDigest : String → Bool :=
  Schema.matchesToEnd fun cs => cs.length = 64 ∧ cs.all isHexChar

def contentHashSchema : Schema :=
  Schema.allOf [Schema.type [.object], Schema.closed ["algorithm", "digest"],
    Schema.required ["algorithm", "digest"],
    Schema.properties [("algorithm", Schema.const (.str "sha256")),
      ("digest", Schema.allOf [Schema.type [.string], Schema.pattern isHexDigest])]]

def prefixedId (kind : String) (least : ℕ) : Schema :=
  Schema.allOf [Schema.type [.string], Schema.pattern (Schema.isPrefixedId kind least)]

def unitInterval : Schema :=
  Schema.allOf [Schema.type [.number, .null], Schema.minimum 0, Schema.maximum 1]

def qualityKeys : List String :=
  ["authority", "directness", "independence", "reproducibility", "timeliness"]

def derivationSchema : Schema :=
  Schema.oneOf [Schema.type [.null],
    Schema.allOf [Schema.type [.object], Schema.closed ["method", "parent_snapshot_refs"],
      Schema.required ["method", "parent_snapshot_refs"],
      Schema.properties [("method", _string 1),
        ("parent_snapshot_refs", Schema.allOf [Schema.type [.array], Schema.minItems 1,
          Schema.uniqueItems, Schema.items (prefixedId "snap_" 12)])]]]

def snapshotProperties (formats : FormatChecker) : List (String × Schema) :=
  [("schema_version", Schema.const (.str "fossil.source-snapshot.v1")),
    ("snapshot_id", prefixedId "snap_" 12),
    ("source_id", prefixedId "source_" 8),
    ("source_role", Schema.enum
      (["primary", "secondary", "derived", "reconstructed", "local"].map .str)),
    ("locator", Schema.allOf [Schema.type [.object], Schema.closed locatorKeys,
      Schema.properties (locatorKeys.map fun key => (key, nullableString)),
      Schema.anyOf (locatorKeys.map fun key => Schema.required [key])]),
    ("retrieved_at", Schema.allOf [Schema.type [.string], Schema.format formats.isDateTime]),
    ("published_at", Schema.allOf [nullableString, Schema.format formats.isDateTime]),
    ("artifact_id", prefixedId "art_" 16),
    ("content_hash", contentHashSchema),
    ("version_metadata", Schema.allOf [Schema.type [.object], Schema.closed versionKeys,
      Schema.properties (versionKeys.map fun key => (key, nullableString))]),
    ("quality", Schema.allOf [Schema.type [.object], Schema.closed (qualityKeys ++ ["notes"]),
      Schema.required qualityKeys,
      Schema.properties ((qualityKeys.map fun key => (key, unitInterval)) ++
        [("notes", Schema.type [.string])])]),
    ("derivation", derivationSchema)]

def isDerivedRole : Schema := Schema.enum [.str "derived", .str "reconstructed"]

/-- `schemas/source-snapshot/v1.schema.json` -/
def snapshotSchema (formats : FormatChecker) : Schema :=
  Schema.allOf [Schema.type [.object], Schema.closed ((snapshotProperties formats).map Prod.fst),
    Schema.required ((snapshotProperties formats).map Prod.fst),
    Schema.properties (snapshotProperties formats),
    Schema.ifThen (Schema.properties [("source_role", isDerivedRole)])
      (Schema.properties [("derivation", Schema.type [.object])])]

/-! ## Putting a snapshot -/

/-- The files below the roots of a source store and of its artifact store. -/
structure SourceFiles where
  sources : Files
  artifacts : Files

structure PutSnapshot where
  data : ByteArray
  locator : Json
  retrieved_at : String
  source_role : String
  quality : Json
  published_at : Option String
  version_metadata : Option Json
  derivation : Option Json
  media_type : String
  source_id : Option String
  /-- The UUIDs that the call draws for its temporary files. -/
  blob_uuid : String
  manifest_uuid : String
  snapshot_uuid : String

def isDerived (source_role : String) : Bool := source_role = "derived" ∨ source_role = "reconstructed"

namespace SourceSnapshotStore

def snapshot_path (snapshot_id : String) : Path :=
  ["snapshots", shardOf "snap_" snapshot_id, fileName snapshot_id]

def get_snapshot (snapshot_id : String) : Fs Json := Fs.readJson (snapshot_path snapshot_id)

/-- `self.get_snapshot(parent_id)`; only a text has a prefix to remove. -/
def getParent : Json → Fs Json
  | .str parent_id => get_snapshot parent_id
  | _ => .raise (.ofPython .attributeError)

/-- The reads of the parents, in the order of the references. -/
def getParents : List Json → Fs Unit
  | [] => return ()
  | parent_id :: rest => do
      let _ ← getParent parent_id
      getParents rest

/-- The checks on the derivation, before anything is written. -/
def checkDerivation (call : PutSnapshot) : Fs Unit :=
  let derivation := call.derivation.getD .null
  if isDerived call.source_role then
    if !(derivation.truthy && Json.truthy? (derivation.get? "parent_snapshot_refs")) then
      .raise (.valueError
        (call.source_role ++ " snapshot requires explicit parent_snapshot_refs"))
    else do
      let parents ← .done (iterate ((derivation.get? "parent_snapshot_refs").getD .null))
      getParents parents
  else if call.derivation.isSome then
    .raise (.valueError "primary/secondary/local snapshots must not claim derivation")
  else return ()

def optionalText (text : Option String) : Json := (text.map Json.str).getD .null

theorem wf_optionalText (text : Option String) : (optionalText text).WF := by
  cases text with
  | none => exact Json.wf_null
  | some text => exact Json.wf_str text

/-- The snapshot that a call describes, for the artifact it stored. -/
def snapshotFor (sha256 : Sha256) (call : PutSnapshot) (normalized artifact : Json) :
    Except Error Json := do
  let source_id :=
    match call.source_id with
    | some source_id => if source_id = "" then none else some source_id
    | none => none
  let source_id ←
    match source_id with
    | some source_id => pure source_id
    | none => source_id_for_locator sha256 normalized
  let version := fullVersion (call.version_metadata.getD (.obj []))
  let digest ← manifestDigest artifact
  let artifact_id ← liftPy (artifact.getItem "artifact_id")
  let content_hash ← liftPy (artifact.getItem "content_hash")
  let derivation := call.derivation.getD .null
  return .ofMembers [
    ("schema_version", .str "fossil.source-snapshot.v1"),
    ("snapshot_id", .str (snapshotId sha256 source_id digest call.retrieved_at version)),
    ("source_id", .str source_id),
    ("source_role", .str call.source_role),
    ("locator", normalized),
    ("retrieved_at", .str call.retrieved_at),
    ("published_at", optionalText call.published_at),
    ("artifact_id", artifact_id),
    ("content_hash", content_hash),
    ("version_metadata", version),
    ("quality", call.quality),
    ("derivation", if derivation.truthy then derivation else .null)]

/-- The publication of a validated snapshot. -/
def publishSnapshot (snapshot : Json) (uuid : String) : Fs Json := do
  let snapshot_id := textOf snapshot "snapshot_id"
  let path := snapshot_path snapshot_id
  let encoded := snapshot.canonical
  let published ← publish_immutable path encoded uuid
  if !published then
    let existing ← Fs.readJson path
    if existing.canonical ≠ encoded then .raise ⟨.sourceSnapshotConflict, snapshot_id⟩
    else return existing
  else return snapshot

variable (sha256 : Sha256) (formats : FormatChecker)

def put_snapshot (call : PutSnapshot) (files : SourceFiles) : Except Error Json × SourceFiles :=
  match normalized_locator call.locator with
  | .error e => (.error e, files)
  | .ok normalized =>
      match (checkDerivation call).run fsStep files.sources with
      | (.error e, sources) => (.error e, { files with sources })
      | (.ok (), sources) =>
          match (ArtifactStore.put_bytes sha256 call.data call.media_type call.blob_uuid
              call.manifest_uuid).run fsStep files.artifacts with
          | (.error e, artifacts) => (.error e, ⟨sources, artifacts⟩)
          | (.ok artifact, artifacts) =>
              match snapshotFor sha256 call normalized artifact with
              | .error e => (.error e, ⟨sources, artifacts⟩)
              | .ok snapshot =>
                  match validateSchema (snapshotSchema formats) snapshot with
                  | .error e => (.error e, ⟨sources, artifacts⟩)
                  | .ok () =>
                      let (result, sources) :=
                        (publishSnapshot snapshot call.snapshot_uuid).run fsStep sources
                      (result, ⟨sources, artifacts⟩)

end SourceSnapshotStore

/-! ## The audit -/

section Audit

variable (sha256 : Sha256) (formats : FormatChecker) (directory : Directory) (root : String)
  (artifacts : Dict String Json)

def packSnapshotPath (snapshot_id : String) : Path :=
  "sources" :: SourceSnapshotStore.snapshot_path snapshot_id

def nonLocalArtifact (snapshot_id artifact_id : String) : Error :=
  .packFixtureIntegrityError
    ("source snapshot " ++ snapshot_id ++ " references non-local artifact " ++ artifact_id)

/-- The check that exactly the derived snapshots name their parents. -/
def checkRole (snapshot_id : String) (role derivation : Json) : Except Error Unit :=
  if isDerived role.pyStr then
    if !(derivation.isObj && Json.truthy? (derivation.get? "parent_snapshot_refs")) then
      .error (.packFixtureIntegrityError
        (role.pyStr ++ " snapshot requires parent_snapshot_refs: " ++ snapshot_id))
    else .ok ()
  else if derivation ≠ .null then
    .error (.packFixtureIntegrityError
      ("non-derived snapshot must not claim derivation: " ++ snapshot_id))
  else .ok ()

/-- One snapshot below `sources/snapshots`: its id and the snapshot. -/
def readSnapshot (path : Path) : Except Error (String × Json) := do
  let snapshot ← _load_json directory root path
  _validate_schema (snapshotSchema formats) snapshot (fullPath root path)
  let snapshot_id := textOf snapshot "snapshot_id"
  if path ≠ packSnapshotPath snapshot_id then
    .error (.packFixtureIntegrityError
      ("source snapshot path does not match stable identity: " ++ fullPath root path))
  else
    let locator ← liftPy (snapshot.getItem "locator")
    let expected_source_id ← SourceSnapshotStore.source_id_for_locator sha256 locator
    if snapshot.get? "source_id" ≠ some (.str expected_source_id) then
      .error (.packFixtureIntegrityError ("source_id does not match locator for " ++ snapshot_id))
    else
      let artifact_id := textOf snapshot "artifact_id"
      match artifacts.get? artifact_id with
      | none => .error (nonLocalArtifact snapshot_id artifact_id)
      | some artifact =>
          if snapshot.get? "content_hash" ≠ artifact.get? "content_hash" then
            .error (.packFixtureIntegrityError
              ("source snapshot content hash disagrees with artifact " ++ artifact_id))
          else
            let version_metadata ← liftPy (snapshot.getItem "version_metadata")
            let digest ← manifestDigest snapshot
            let expected_snapshot_id := snapshotId sha256 (textOf snapshot "source_id") digest
              (textOf snapshot "retrieved_at") (fullVersion version_metadata)
            if snapshot_id ≠ expected_snapshot_id then
              .error (.packFixtureIntegrityError
                ("snapshot_id does not match immutable snapshot identity: " ++ snapshot_id))
            else
              let role ← liftPy (snapshot.getItem "source_role")
              let derivation ← liftPy (snapshot.getItem "derivation")
              checkRole snapshot_id role derivation
              return (snapshot_id, snapshot)

def discoverSnapshot (snapshots : Dict String Json) (path : Path) :
    Except Error (Dict String Json) := do
  let (snapshot_id, snapshot) ← readSnapshot sha256 formats directory root artifacts path
  if snapshots.contains snapshot_id then
    .error (.packFixtureIntegrityError ("duplicate source snapshot: " ++ snapshot_id))
  else return snapshots.set snapshot_id snapshot

def _read_snapshots : Except Error (Dict String Json) :=
  (directory.glob ["sources", "snapshots"]).foldlM
    (discoverSnapshot sha256 formats directory root artifacts) .empty

end Audit

end FossilCore
