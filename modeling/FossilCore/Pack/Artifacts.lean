import FossilCore.Adapters.Filesystem
import FossilCore.Base.Dict
import FossilCore.Base.JsonEquality
import FossilCore.Domain.EventContracts
import FossilCore.Domain.Identity

/-!
# The artifacts of a pack directory

The artifact audit of `pack_fixture.py`: the manifests below `artifacts/manifests`, the blobs
they describe, and the indexes that the pack's manifest lists.
-/

namespace FossilCore

open Base

namespace Error

def packFixtureIntegrityError (message : String) : Error := ⟨.packFixtureIntegrityError, message⟩

end Error

/-! ## Pack directories -/

/-- A directory: the files below it, and the directories below it that hold no file. -/
structure Directory where
  files : Files
  folders : List Path

namespace Directory

/-- `sorted(dir.glob("*/*.json"))`; the paths of the map come in increasing order. -/
def glob (directory : Directory) (dir : Path) : List Path :=
  directory.files.keys.filter (isGlobbed dir)

def is_file (directory : Directory) (path : Path) : Bool := directory.files[path]?.isSome

def is_dir (directory : Directory) (path : Path) : Bool :=
  path ∈ directory.folders ∨ directory.files.keys.any fun file => path.isPrefixOf file && path ≠ file

def read_bytes (directory : Directory) (path : Path) : Except Error ByteArray :=
  match directory.files[path]? with
  | some data => .ok data
  | none => .error (.ofPython (.fileNotFoundError (pathText path)))

end Directory

/-- The components of a relative path; pathlib drops the empty ones and the dots. -/
def relativePath (text : String) : Path :=
  ((text.toList.splitOn '/').map String.ofList).filter fun part => part ≠ "" ∧ part ≠ "."

/-- `str(path)` of a path below a root -/
def fullPath (root : String) (path : Path) : String := pathText (root :: path)

/-- The exceptions that a reader of a JSON file turns into an integrity error. -/
def isReadError (exc : PyException) : Bool := exc.cls.isOSError ∨ exc.cls = .jsonDecodeError

def _load_json (directory : Directory) (root : String) (path : Path) : Except Error Json :=
  match directory.files[path]? with
  | none =>
      .error (.packFixtureIntegrityError
        ("invalid JSON fixture " ++ fullPath root path ++ ": No such file or directory"))
  | some data =>
      match Json.loadText data with
      | .error exc =>
          if isReadError exc then
            .error (.packFixtureIntegrityError
              ("invalid JSON fixture " ++ fullPath root path ++ ": " ++ exc.message))
          else .error (.ofPython exc)
      | .ok value =>
          if value.isObj then .ok value
          else .error (.packFixtureIntegrityError
            ("fixture must contain a JSON object: " ++ fullPath root path))

def _validate_schema (schema : Schema) (value : Json) (label : String) : Except Error Unit :=
  match validateSchema schema value with
  | .ok () => .ok ()
  | .error e =>
      .error (.packFixtureIntegrityError (label ++ " failed schema validation: " ++ e.message))

/-! ## Artifact manifests -/

/-- `set(value) == set(keys)`, for a dictionary. -/
def keysAre (value : Json) (keys : List String) : Bool :=
  (value.fields.all fun field => field.1 ∈ keys) && keys.all fun key => (value.get? key).isSome

/-- `isinstance(value, int) and value >= 0` -/
def isNatural : Json → Bool
  | .int n => 0 ≤ n
  | .bool _ => true
  | _ => false

/-- `int(value)`, for such a value. -/
def naturalOf : Json → ℤ
  | .int n => n
  | .bool true => 1
  | _ => 0

def _artifact_manifest_shape (manifest : Json) (label : String) : Except Error Unit := do
  if !keysAre manifest ["artifact_id", "content_hash", "byte_size", "media_type"] then
    .error (.packFixtureIntegrityError (label ++ " artifact manifest fields must be exactly " ++
      "['artifact_id', 'byte_size', 'content_hash', 'media_type']"))
  else
    let content_hash ← liftPy (manifest.getItem "content_hash")
    if !(content_hash.isObj && keysAre content_hash ["algorithm", "digest"]) then
      .error (.packFixtureIntegrityError (label ++ " has invalid content_hash"))
    else if content_hash.get? "algorithm" ≠ some (.str "sha256") then
      .error (.packFixtureIntegrityError (label ++ " must use sha256"))
    else
      let digest ← liftPy (content_hash.getItem "digest")
      if digest.pyStr.toList.length ≠ 64 ∨ !digest.pyStr.toList.all isHexChar then
        .error (.packFixtureIntegrityError (label ++ " has invalid sha256 digest"))
      else
        let byte_size ← liftPy (manifest.getItem "byte_size")
        if !isNatural byte_size then
          .error (.packFixtureIntegrityError (label ++ " has invalid byte_size"))
        else
          match manifest.get? "media_type" with
          | some (.str media_type) =>
              if media_type = "" then
                .error (.packFixtureIntegrityError (label ++ " has invalid media_type"))
              else .ok ()
          | _ => .error (.packFixtureIntegrityError (label ++ " has invalid media_type"))

/-- `str(item["content_hash"]["digest"])` -/
def manifestDigest (item : Json) : Except Error String := liftPy do
  let content_hash ← item.getItem "content_hash"
  let digest ← content_hash.getItem "digest"
  return digest.pyStr

def artifactManifestPath (artifact_id : String) : Path :=
  ["artifacts", "manifests", shardOf "art_" artifact_id, fileName artifact_id]

def artifactBlobPath (digest : String) : Path :=
  ["artifacts", "blobs", "sha256", Text.take digest 2, digest]

/-! ## Reading the artifacts -/

section Reading

variable (sha256 : Sha256) (directory : Directory) (root : String)

/-- One manifest below `artifacts/manifests`: its id and the manifest. -/
def readArtifact (path : Path) : Except Error (String × Json) := do
  let item ← _load_json directory root path
  let artifact_id := textOf item "artifact_id"
  _artifact_manifest_shape item (fullPath root path)
  let digest ← manifestDigest item
  let expected_id := artifact_id_for_digest digest
  if artifact_id ≠ expected_id then
    .error (.packFixtureIntegrityError ("artifact identity mismatch in " ++ fullPath root path ++
      ": expected " ++ expected_id ++ ", got " ++ artifact_id))
  else if path ≠ artifactManifestPath artifact_id then
    .error (.packFixtureIntegrityError
      ("artifact manifest path does not match stable identity: " ++ fullPath root path))
  else if !directory.is_file (artifactBlobPath digest) then
    .error (.packFixtureIntegrityError
      ("artifact blob is missing: " ++ fullPath root (artifactBlobPath digest)))
  else
    let data ← directory.read_bytes (artifactBlobPath digest)
    if sha256.hexdigest data ≠ digest then
      .error (.packFixtureIntegrityError ("artifact hash mismatch for " ++ artifact_id))
    else
      let byte_size ← liftPy (item.getItem "byte_size")
      if (data.size : ℤ) ≠ naturalOf byte_size then
        .error (.packFixtureIntegrityError ("artifact byte_size mismatch for " ++ artifact_id))
      else return (artifact_id, item)

def discoverArtifact (discovered : Dict String Json) (path : Path) :
    Except Error (Dict String Json) := do
  let (artifact_id, item) ← readArtifact sha256 directory root path
  if discovered.contains artifact_id then
    .error (.packFixtureIntegrityError ("duplicate artifact manifest: " ++ artifact_id))
  else return discovered.set artifact_id item

/-- The ends of a line for `str.splitlines`, after the translation of line ends. -/
def isLineEnd (c : Char) : Bool :=
  c ∈ ['\n', '\x0b', '\x0c', '\x1c', '\x1d', '\x1e', '\u0085', '\u2028', '\u2029']

/-- One line of an index. -/
def indexLine (index_path : Path) (indexed : Dict String Json) (numbered : ℕ × String) :
    Except Error (Dict String Json) :=
  let label := fullPath root index_path ++ ":" ++ toString numbered.1
  if Text.isBlank numbered.2 then .ok indexed
  else
    match Json.loads numbered.2 with
    | .error exc =>
        if exc.cls = .jsonDecodeError then
          .error (.packFixtureIntegrityError ("invalid artifact manifest JSONL at " ++ label))
        else .error (.ofPython exc)
    | .ok item =>
        if !item.isObj then
          .error (.packFixtureIntegrityError
            ("artifact manifest JSONL entry must be an object at " ++ label))
        else do
          _artifact_manifest_shape item label
          let artifact_id ← liftPy (item.getItem "artifact_id")
          if indexed.contains artifact_id.pyStr then
            .error (.packFixtureIntegrityError
              ("duplicate artifact index entry: " ++ artifact_id.pyStr))
          else return indexed.set artifact_id.pyStr item

def numberedLines (text : String) : List (ℕ × String) :=
  ((text.toList.splitOnP isLineEnd).map String.ofList).zipIdx.map fun line => (line.2 + 1, line.1)

def indexFile (indexed : Dict String Json) (relative : Json) : Except Error (Dict String Json) := do
  let index_path := relativePath relative.pyStr
  if !directory.is_file index_path then
    .error (.packFixtureIntegrityError
      ("artifact manifest index is missing: " ++ fullPath root index_path))
  else
    let data ← directory.read_bytes index_path
    let text ← liftPy (Json.readText data)
    (numberedLines text).foldlM (indexLine root index_path) indexed

/-- `a == b` for dictionaries of artifact manifests. -/
def sameEntries (a b : Dict String Json) : Bool :=
  (a.keys.all fun key => key ∈ b.keys) && b.entries.all fun entry =>
    match a.get? entry.1 with
    | some value => Json.pyEq value entry.2
    | none => false

def indexMismatch (indexed discovered : Dict String Json) : Error :=
  let missing := sorted (discovered.keys.filter fun id => id ∉ indexed.keys)
  let extra := sorted (indexed.keys.filter fun id => id ∉ discovered.keys)
  let mismatched := sorted (indexed.keys.filter fun id =>
    match indexed.get? id, discovered.get? id with
    | some a, some b => !Json.pyEq a b
    | _, _ => false)
  .packFixtureIntegrityError ("artifact manifest index does not match immutable manifests " ++
    "(missing=" ++ (strings missing).pyStr ++ ", extra=" ++ (strings extra).pyStr ++
    ", mismatched=" ++ (strings mismatched).pyStr ++ ")")

def _read_artifacts (manifest : Json) : Except Error (Dict String Json) := do
  let discovered ← (directory.glob ["artifacts", "manifests"]).foldlM
    (discoverArtifact sha256 directory root) .empty
  let relatives ← iterate ((manifest.get? "artifact_manifests").getD (.arr []))
  let indexed ← relatives.foldlM (indexFile directory root) .empty
  if !sameEntries indexed discovered then .error (indexMismatch indexed discovered)
  else return discovered

end Reading

end FossilCore
