import FossilCore.Base.Canonical
import FossilCore.Base.KeyMap
import FossilCore.Base.Program
import FossilCore.Errors

/-!
# The file system

The file operations of `adapters/filesystem`, as requests on a map from paths below a store's
root to file contents, and `publish_immutable`.  Directories appear with their files, and
`fsync` has no effect on the map.  The UUID that names a temporary file is an argument.
-/

namespace FossilCore

open Base

/-- The components of a path below the root of a store. -/
abbrev Path := List String

abbrev Files := KeyMap Path ByteArray

inductive FsRequest where
  | isPresent (path : Path)
  | read (path : Path)
  | create (path : Path)
  | write (path : Path) (data : ByteArray)
  | link (source target : Path)
  | unlink (path : Path)
  | glob (dir : Path)
  deriving DecidableEq

@[reducible] def FsAnswer : FsRequest → Type
  | .isPresent _ => Bool
  | .read _ => Except PyException ByteArray
  | .glob _ => List Path
  | _ => Except PyException Unit

/-- Does `dir.glob("*/*.json")` match the path? -/
def isGlobbed (dir path : Path) : Bool :=
  match path.drop dir.length with
  | [_, name] => dir.isPrefixOf path && Text.endsWith name ".json"
  | _ => false

def pathText (path : Path) : String := Text.join "/" path

def fsStep : (r : FsRequest) → Files → FsAnswer r × Files
  | .isPresent path, files => (files[path]?.isSome, files)
  | .read path, files =>
      match files[path]? with
      | some data => (.ok data, files)
      | none => (.error (.fileNotFoundError (pathText path)), files)
  | .create path, files =>
      match files[path]? with
      | some _ => (.error .fileExistsError, files)
      | none => (.ok (), files.insert path ByteArray.empty)
  | .write path data, files => (.ok (), files.insert path data)
  | .link source target, files =>
      match files[source]?, files[target]? with
      | none, _ => (.error (.fileNotFoundError (pathText source)), files)
      | some _, some _ => (.error .fileExistsError, files)
      | some data, none => (.ok (), files.insert target data)
  | .unlink path, files =>
      match files[path]? with
      | some _ => (.ok (), files.erase path)
      | none => (.error (.fileNotFoundError (pathText path)), files)
  | .glob dir, files => (files.keys.filter (isGlobbed dir), files)

/-- The answer to a refused deletion; nothing else is refused. -/
def fsRefused : (r : FsRequest) → Option (FsAnswer r)
  | .unlink _ => some (.error .osError)
  | _ => none

abbrev Fs (α : Type) := Program FsRequest FsAnswer Error α

namespace Fs

def ofAnswer {α : Type} (x : Except PyException α) : Fs α := .done (liftPy x)

def isPresent (path : Path) : Fs Bool := Program.call (FsRequest.isPresent path)

def read (path : Path) : Fs ByteArray := .request (.read path) ofAnswer

def create (path : Path) : Fs Unit := .request (.create path) ofAnswer

def write (path : Path) (data : ByteArray) : Fs Unit := .request (.write path data) ofAnswer

def link (source target : Path) : Fs Unit := .request (.link source target) ofAnswer

def unlink (path : Path) : Fs Unit := .request (.unlink path) ofAnswer

def glob (dir : Path) : Fs (List Path) := Program.call (FsRequest.glob dir)

/-- `path.unlink(missing_ok=True)`, or `unlink` under `except FileNotFoundError: pass`. -/
def unlinkMissingOk (path : Path) : Fs Unit :=
  (unlink path).catching fun e =>
    if e.cls.isFileNotFound then pure () else Program.raise e

/-- `json.loads(path.read_text(encoding="utf-8"))` -/
def readJson (path : Path) : Fs Json := do
  let data ← read path
  ofAnswer (Json.loadText data)

end Fs

/-- `path.parent / f".{path.name}.{uuid}.tmp"` -/
def tempPath (path : Path) (uuid : String) : Path :=
  path.dropLast ++ ["." ++ path.getLastD "" ++ "." ++ uuid ++ ".tmp"]

/-- `publish_immutable` through a temporary file at `temp`. -/
def publishVia (temp path : Path) (data : ByteArray) : Fs Bool :=
  Program.ensuring
    (do
      Fs.create temp
      (Fs.write temp data).catching fun e => do
        Fs.unlinkMissingOk temp
        Program.raise e
      (do
        Fs.link temp path
        return true : Fs Bool).catching fun e =>
          if e.cls = .builtin .fileExistsError then pure false else Program.raise e)
    (Fs.unlinkMissingOk temp)

def publish_immutable (path : Path) (data : ByteArray) (uuid : String) : Fs Bool :=
  publishVia (tempPath path uuid) path data

/-! ## What the requests do -/

section Run

variable {files : Files} {path : Path} {data : ByteArray}

@[simp] theorem run_isPresent :
    (Fs.isPresent path).run fsStep files = (.ok files[path]?.isSome, files) := rfl

theorem run_read_some (h : files[path]? = some data) :
    (Fs.read path).run fsStep files = (.ok data, files) := by
  simp [Fs.read, fsStep, h, Fs.ofAnswer]

theorem run_read_none (h : files[path]? = none) :
    (Fs.read path).run fsStep files =
      (.error (.ofPython (.fileNotFoundError (pathText path))), files) := by
  simp [Fs.read, fsStep, h, Fs.ofAnswer]

theorem run_readJson_some {value : Json} (h : files[path]? = some data)
    (hvalue : Json.loadText data = .ok value) :
    (Fs.readJson path).run fsStep files = (.ok value, files) := by
  rw [Fs.readJson, Program.run_bind_ok _ (run_read_some h)]
  simp [Fs.ofAnswer, hvalue]

theorem run_readJson_none (h : files[path]? = none) :
    (Fs.readJson path).run fsStep files =
      (.error (.ofPython (.fileNotFoundError (pathText path))), files) := by
  rw [Fs.readJson, Program.run_bind_error _ (run_read_none h)]

theorem run_unlinkMissingOk :
    (Fs.unlinkMissingOk path).run fsStep files = (.ok (), files.erase path) := by
  cases h : files[path]? with
  | some data =>
      have hunlink : (Fs.unlink path).run fsStep files = (.ok (), files.erase path) := by
        simp [Fs.unlink, fsStep, h, Fs.ofAnswer]
      exact Program.run_catching_ok _ hunlink
  | none =>
      have hunlink : (Fs.unlink path).run fsStep files =
          (.error (.ofPython (.fileNotFoundError (pathText path))), files) := by
        simp [Fs.unlink, fsStep, h, Fs.ofAnswer]
      rw [Fs.unlinkMissingOk, Program.run_catching_error _ hunlink, KeyMap.erase_of_get? h]
      rfl

theorem tempPath_concat (dir : Path) (name uuid : String) :
    tempPath (dir ++ [name]) uuid = dir ++ ["." ++ name ++ "." ++ uuid ++ ".tmp"] := by
  simp [tempPath]

theorem tempPath_ne (dir : Path) (name uuid : String) :
    tempPath (dir ++ [name]) uuid ≠ dir ++ [name] := by
  rw [tempPath_concat]
  intro h
  have hname : "." ++ name ++ "." ++ uuid ++ ".tmp" = name := by simpa using h
  have hlen := congrArg (fun s => s.toList.length) hname
  simp only [String.toList_append, List.length_append] at hlen
  have hdot : ".".toList.length = 1 := by decide
  omega

theorem run_publishVia {temp : Path} (htemp : files[temp]? = none) (hne : temp ≠ path) :
    (publishVia temp path data).run fsStep files =
      match files[path]? with
      | none => (.ok true, files.insert path data)
      | some _ => (.ok false, files) := by
  have hcreate : (Fs.create temp).run fsStep files = (.ok (), files.insert temp ByteArray.empty) := by
    simp [Fs.create, fsStep, htemp, Fs.ofAnswer]
  have hwrite : (Fs.write temp data).run fsStep (files.insert temp ByteArray.empty) =
      (.ok (), files.insert temp data) := by
    simp [Fs.write, fsStep, Fs.ofAnswer, KeyMap.insert_insert]
  have htarget : (files.insert temp data)[path]? = files[path]? := KeyMap.get?_insert_ne _ _ hne
  have hbody : ∀ {x : Except Error Bool} {files' : Files},
      ((do
        Fs.link temp path
        return true : Fs Bool).catching fun e =>
          if e.cls = .builtin .fileExistsError then pure false else Program.raise e).run fsStep
            (files.insert temp data) = (x, files') →
      (publishVia temp path data).run fsStep files = (x, files'.erase temp) := by
    intro x files' hlink
    refine Program.run_ensuring _ ?_ run_unlinkMissingOk
    rw [Program.run_bind_ok _ hcreate, Program.run_bind_ok _ (Program.run_catching_ok _ hwrite)]
    exact hlink
  cases hpath : files[path]? with
  | none =>
      have hlink : (Fs.link temp path).run fsStep (files.insert temp data) =
          (.ok (), (files.insert temp data).insert path data) := by
        simp [Fs.link, fsStep, htarget, hpath, Fs.ofAnswer]
      have hrun := hbody (Program.run_catching_ok _ (Program.run_bind_ok _ hlink))
      rw [hrun, KeyMap.erase_insert_comm _ _ (Ne.symm hne), KeyMap.erase_insert _ htemp]
  | some existing =>
      have hlink : (Fs.link temp path).run fsStep (files.insert temp data) =
          (.error (.ofPython .fileExistsError), files.insert temp data) := by
        simp [Fs.link, fsStep, htarget, hpath, Fs.ofAnswer]
      rw [hbody (Program.run_catching_error _ (Program.run_bind_error _ hlink))]
      show (Except.ok false, (files.insert temp data).erase temp) = (Except.ok false, files)
      rw [KeyMap.erase_insert _ htemp]

/-- A publication creates the target, or finds it and leaves every file as it was. -/
theorem run_publish {dir : Path} {name uuid : String}
    (htemp : files[tempPath (dir ++ [name]) uuid]? = none) :
    (publish_immutable (dir ++ [name]) data uuid).run fsStep files =
      match files[dir ++ [name]]? with
      | none => (.ok true, files.insert (dir ++ [name]) data)
      | some _ => (.ok false, files) :=
  run_publishVia htemp (tempPath_ne dir name uuid)

end Run

end FossilCore
