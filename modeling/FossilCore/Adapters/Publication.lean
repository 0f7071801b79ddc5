import FossilCore.Adapters.Filesystem

/-!
# Published documents

The stores publish a document as a file of its own under its identity: a file that is already there
is read and has to say the same.
-/

namespace FossilCore

open Base

/-- `publish_immutable`, and the comparison with a file that it finds. -/
def publishDocument (path : Path) (document : Json) (conflict : Error) (uuid : String) :
    Fs Json := do
  let published ← publish_immutable path document.canonical uuid
  if !published then
    let existing ← Fs.readJson path
    if existing.canonical ≠ document.canonical then .raise conflict
    else return existing
  else return document

/-- The file at a path is a document's, if there is one. -/
def IsDocumentAt (files : Files) (path : Path) : Prop :=
  ∀ data, files[path]? = some data → ∃ v : Json, v.WF ∧ data = v.canonical

section Run

variable {files : Files} {document : Json} {conflict : Error}

/-- Reading a document leaves the files alone. -/
theorem run_readJson {path : Path} : (Fs.readJson path).run fsStep files =
    (match files[path]? with
      | some data => liftPy (Json.loadText data)
      | none => .error (.ofPython (.fileNotFoundError (pathText path))), files) := by
  cases hfile : files[path]? with
  | none => exact run_readJson_none hfile
  | some data =>
      rw [Fs.readJson, Program.run_bind_ok _ (run_read_some hfile)]
      rfl

/-- A publication stores the document, or finds one at its path. -/
theorem run_publishDocument (dir : Path) (name : String) {uuid : String} (hwf : document.WF)
    (htemp : files[tempPath (dir ++ [name]) uuid]? = none)
    (hstored : IsDocumentAt files (dir ++ [name])) :
    (publishDocument (dir ++ [name]) document conflict uuid).run fsStep files =
      match files[dir ++ [name]]? with
      | none => (.ok document, files.insert (dir ++ [name]) document.canonical)
      | some data =>
          (if data = document.canonical then Except.ok document else .error conflict, files) := by
  have hpublish : (publish_immutable (dir ++ [name]) document.canonical uuid).run fsStep files = _ :=
    run_publish htemp
  rw [publishDocument]
  cases hfile : files[dir ++ [name]]? with
  | none =>
      rw [hfile] at hpublish
      rw [Program.run_bind_ok _ hpublish]
      rfl
  | some data =>
      obtain ⟨existing, hexisting, rfl⟩ := hstored data hfile
      rw [hfile] at hpublish
      rw [Program.run_bind_ok _ hpublish]
      have hread := run_readJson_some hfile (Json.loadText_canonical hexisting)
      simp only [Bool.not_false, if_true, Program.run_bind_ok _ hread]
      by_cases hsame : existing.canonical = document.canonical
      · have heq := (Json.canonical_inj hexisting hwf).mp hsame
        simp only [heq, ne_eq, not_true_eq_false, if_false, if_true]
        rfl
      · simp only [hsame, ne_eq, not_false_eq_true, if_true, if_false]
        rfl

/-- Where no file's name starts with a dot, no temporary file is there. -/
theorem free_tempPath {dir : Path} {name uuid : String}
    (h : ∀ (path : Path) data, files[path]? = some data → ∀ last, path.getLast? = some last →
      last.toList.head? ≠ some '.') : files[tempPath (dir ++ [name]) uuid]? = none := by
  apply Option.eq_none_iff_forall_ne_some.mpr
  intro data hdata
  rw [tempPath_concat] at hdata
  refine h _ data hdata ("." ++ name ++ "." ++ uuid ++ ".tmp") ?_ ?_
  · rw [List.getLast?_append]
    rfl
  · simp [String.toList_append]

end Run

end FossilCore
