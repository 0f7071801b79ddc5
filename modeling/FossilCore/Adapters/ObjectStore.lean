import FossilCore.Base.Canonical
import FossilCore.Base.KeyMap
import FossilCore.Base.Program
import FossilCore.Errors

/-!
# The object store

The S3 client as requests on a map from keys to bytes, with conditional create and a listing
in pages, and `_S3ObjectBackend` of `adapters/s3/storage.py` over it.
-/

namespace FossilCore

open Base

abbrev Objects := KeyMap String ByteArray

/-- What `_error_code` reads off an exception of the client. -/
abbrev ClientCode := Option String

/-- The answers to the requests of one enumeration, one after another: each page has its keys,
and a truncated page the token of the next request. -/
inductive Pages where
  | failed (code : ClientCode)
  | last (keys : List String)
  | truncated (keys : List String) (token : Option String) (next : Pages)

/-- All keys of the pages, when every page arrives and every truncated one has a token. -/
def Pages.keys? : Pages → Option (List String)
  | failed _ => none
  | last keys => some keys
  | truncated keys token next =>
      match token with
      | none => none
      | some token => if token = "" then none else next.keys?.map (keys ++ ·)

/-- A way to cut listings into pages. -/
structure Paging where
  pages : List String → Pages
  complete : ∀ keys, (pages keys).keys? = some keys

/-- Every listing fits on one page. -/
def Paging.single : Paging := ⟨.last, fun _ => rfl⟩

inductive S3Request where
  | get (key : String)
  | head (key : String)
  | put (key : String) (data : ByteArray)
  | delete (key : String)
  | list (start : String)
  deriving DecidableEq

@[reducible] def S3Answer : S3Request → Type
  | .get _ => Except ClientCode ByteArray
  | .list _ => Pages
  | _ => Except ClientCode Unit

def s3Step (paging : Paging) : (r : S3Request) → Objects → S3Answer r × Objects
  | .get key, objects =>
      match objects[key]? with
      | some data => (.ok data, objects)
      | none => (.error (some "NoSuchKey"), objects)
  | .head key, objects =>
      match objects[key]? with
      | some _ => (.ok (), objects)
      | none => (.error (some "404"), objects)
  -- `IfNoneMatch="*"`
  | .put key data, objects =>
      match objects[key]? with
      | some _ => (.error (some "PreconditionFailed"), objects)
      | none => (.ok (), objects.insert key data)
  | .delete key, objects => (.ok (), objects.erase key)
  | .list start, objects =>
      (paging.pages (objects.keys.filter (Text.startsWith · start)), objects)

/-- The answer to a failed deletion; nothing else fails. -/
def s3Refused : (r : S3Request) → Option (S3Answer r)
  | .delete _ => some (.error (some "InternalError"))
  | _ => none

abbrev S3 (α : Type) := Program S3Request S3Answer Error α

namespace Error

def remoteStoreUnavailable (message : String) : Error := ⟨.remoteStoreUnavailable, message⟩

def remoteObjectConflict (message : String) : Error := ⟨.remoteObjectConflict, message⟩

end Error

/-- `_S3ObjectBackend`, by the `prefix` it is built with. -/
structure S3Backend where
  root : String

namespace S3Backend

def not_found : List String := ["404", "NoSuchKey", "NotFound", "NoSuchObject"]

def precondition : List String := ["412", "PreconditionFailed", "ConditionalRequestConflict"]

def hasCode (codes : List String) : ClientCode → Bool
  | none => false
  | some code => code ∈ codes

variable (b : S3Backend)

/-- `self.prefix` -/
def base : String := Text.strip b.root '/'

def key (relative : String) : String :=
  let relative := Text.lstrip relative '/'
  if b.base = "" then relative else b.base ++ "/" ++ relative

def read (relative : String) : S3 ByteArray :=
  .request (.get (b.key relative)) fun
    | .ok data => .done (.ok data)
    | .error code =>
        if hasCode not_found code then
          .raise (.ofPython (.fileNotFoundError (b.key relative)))
        else .raise (.remoteStoreUnavailable s!"durable object read failed for {relative}")

def isPresent (relative : String) : S3 Bool :=
  .request (.head (b.key relative)) fun
    | .ok _ => .done (.ok true)
    | .error code =>
        if hasCode not_found code then .done (.ok false)
        else
          .raise (.remoteStoreUnavailable
            s!"durable object existence check failed for {relative}")

def put_immutable (relative : String) (data : ByteArray) : S3 Bool :=
  .request (.put (b.key relative) data) fun
    | .ok _ => .done (.ok true)
    | .error code =>
        if hasCode precondition code then do
          let existing ← b.read relative
          if existing = data then return false
          else
            .raise (.remoteObjectConflict
              s!"stable object key already exists with different content: {relative}")
        else .raise (.remoteStoreUnavailable s!"durable object write failed for {relative}")

def delete (relative : String) : S3 Unit :=
  .request (.delete (b.key relative)) fun
    | .ok _ => .done (.ok ())
    | .error _ =>
        .raise (.remoteStoreUnavailable s!"durable object delete failed for {relative}")

/-- A listed key below the backend's prefix, if it is there. -/
def relative? (key : String) : Option String :=
  if b.base = "" then some key
  else
    let start := b.base ++ "/"
    if Text.startsWith key start then some (Text.drop key start.toList.length) else none

/-- The loop of `iter_keys`. -/
def pageKeys (relative_start : String) : Pages → Except Error (List String)
  | .failed _ =>
      .error (.remoteStoreUnavailable
        s!"durable object enumeration failed for {relative_start}")
  | .last keys => .ok (keys.filterMap b.relative?)
  | .truncated keys token next =>
      match token with
      | none =>
          .error (.remoteStoreUnavailable
            ("durable object enumeration truncated without continuation token: "
              ++ relative_start))
      | some token =>
          if token = "" then
            .error (.remoteStoreUnavailable
              ("durable object enumeration truncated without continuation token: "
                ++ relative_start))
          else do
            let rest ← pageKeys relative_start next
            return keys.filterMap b.relative? ++ rest

def iter_keys (relative_start : String) : S3 (List String) :=
  .request (.list (b.key relative_start)) fun pages => .done (b.pageKeys relative_start pages)

/-- `json.loads(self.backend.read(relative).decode("utf-8"))` -/
def readJson (relative : String) : S3 Json := do
  let data ← b.read relative
  .done (liftPy (Json.loadBytes data))

/-! ## Keys -/

/-- What stands before a relative key. -/
def head : String := if b.base = "" then "" else b.base ++ "/"

theorem key_eq {relative : String} (h : relative.toList.head? ≠ some '/') :
    b.key relative = b.head ++ relative := by
  have hstrip : Text.lstrip relative '/' = relative := by
    apply String.toList_inj.mp
    rw [Text.lstrip, String.toList_ofList]
    cases hl : relative.toList with
    | nil => rfl
    | cons c rest =>
        have hc : c ≠ '/' := by
          rintro rfl
          exact h (by rw [hl]; rfl)
        simp [hc]
  rw [key, head, hstrip]
  by_cases hb : b.base = "" <;> simp [hb]

-- From here on a key is opaque, so that comparing two keys compares their relative parts.
attribute [irreducible] key

theorem relative?_head (t : String) : b.relative? (b.head ++ t) = some t := by
  rw [relative?, head]
  by_cases hb : b.base = ""
  · simp [hb]
  · simp only [if_neg hb, Text.startsWith_append, if_true, Text.drop_append_of_length rfl]

theorem pageKeys_of_keys? {relative_start : String} {pages : Pages} {keys : List String}
    (h : pages.keys? = some keys) :
    b.pageKeys relative_start pages = .ok (keys.filterMap b.relative?) := by
  induction pages generalizing keys with
  | failed code => cases h
  | last ks =>
      cases h
      rfl
  | truncated ks token next ih =>
      cases token with
      | none => cases h
      | some token =>
          simp only [Pages.keys?] at h
          split_ifs at h with htoken
          obtain ⟨rest, hrest, rfl⟩ := Option.map_eq_some_iff.mp h
          simp only [pageKeys, if_neg htoken, ih hrest, List.filterMap_append]
          rfl

/-! ## What the requests do -/

section Run

variable {b} {paging : Paging} {objects : Objects} {relative : String} {data : ByteArray}

theorem run_read_some (h : objects[b.key relative]? = some data) :
    (b.read relative).run (s3Step paging) objects = (.ok data, objects) := by
  simp [read, s3Step, h]

theorem run_read_none (h : objects[b.key relative]? = none) :
    (b.read relative).run (s3Step paging) objects =
      (.error (.ofPython (.fileNotFoundError (b.key relative))), objects) := by
  simp [read, s3Step, h, hasCode, not_found]

theorem run_isPresent :
    (b.isPresent relative).run (s3Step paging) objects =
      (.ok objects[b.key relative]?.isSome, objects) := by
  cases h : objects[b.key relative]? with
  | some data => simp [isPresent, s3Step, h]
  | none => simp [isPresent, s3Step, h, hasCode, not_found]

theorem run_put_none (h : objects[b.key relative]? = none) :
    (b.put_immutable relative data).run (s3Step paging) objects =
      (.ok true, objects.insert (b.key relative) data) := by
  simp [put_immutable, s3Step, h]

theorem run_put_some {existing : ByteArray} (h : objects[b.key relative]? = some existing) :
    (b.put_immutable relative data).run (s3Step paging) objects =
      (if existing = data then .ok false
        else .error (.remoteObjectConflict
          s!"stable object key already exists with different content: {relative}"), objects) := by
  simp only [put_immutable, Program.run_request, s3Step, h, hasCode, precondition]
  simp only [List.mem_cons, true_or, or_true, decide_true, if_true]
  rw [Program.run_bind_ok _ (run_read_some h)]
  by_cases heq : existing = data <;> simp [heq]

theorem run_delete :
    (b.delete relative).run (s3Step paging) objects =
      (.ok (), objects.erase (b.key relative)) := rfl

theorem run_iter_keys :
    (b.iter_keys relative).run (s3Step paging) objects =
      (.ok ((objects.keys.filter (Text.startsWith · (b.key relative))).filterMap b.relative?),
        objects) := by
  simp only [iter_keys, Program.run_request, s3Step, Program.run_done,
    b.pageKeys_of_keys? (paging.complete _)]

theorem run_readJson_some {value : Json} (h : objects[b.key relative]? = some data)
    (hvalue : Json.loadBytes data = .ok value) :
    (b.readJson relative).run (s3Step paging) objects = (.ok value, objects) := by
  rw [readJson, Program.run_bind_ok _ (run_read_some h), hvalue]
  rfl

theorem run_readJson_none (h : objects[b.key relative]? = none) :
    (b.readJson relative).run (s3Step paging) objects =
      (.error (.ofPython (.fileNotFoundError (b.key relative))), objects) := by
  rw [readJson, Program.run_bind_error _ (run_read_none h)]

end Run

end S3Backend

end FossilCore
