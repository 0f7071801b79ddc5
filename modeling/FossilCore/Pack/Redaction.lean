import Mathlib.Logic.Function.Basic
import FossilCore.Adapters.EventStoreCrashes
import FossilCore.Adapters.ArtifactStore
import FossilCore.Pack.Audited
import FossilCore.Pack.Corpus

/-!
# Redacting an artifact of a pack

`ArtifactStore.redact` on the `artifacts` of a pack directory: it keeps the manifest and deletes
the blob, and the audit asks for the blob of every manifest.
-/

namespace FossilCore

open Base

/-! ## A store below a directory -/

/-- The request of a store whose root is below the directory. -/
def fsStepAt (base : Path) : (r : FsRequest) → Files → FsAnswer r × Files
  | .isPresent path, files => fsStep (.isPresent (base ++ path)) files
  | .read path, files => fsStep (.read (base ++ path)) files
  | .create path, files => fsStep (.create (base ++ path)) files
  | .write path data, files => fsStep (.write (base ++ path) data) files
  | .link source target, files => fsStep (.link (base ++ source) (base ++ target)) files
  | .unlink path, files => fsStep (.unlink (base ++ path)) files
  | .glob dir, files => ((fsStep (.glob (base ++ dir)) files).1.map (List.drop base.length), files)

/-- The request does not change the file at the path. -/
def FsRequest.spares (kept : Path) : FsRequest → Bool
  | .create path | .write path _ | .link _ path | .unlink path => path ≠ kept
  | _ => true

variable {base kept path : Path} {files files' : Files}

theorem fsStepAt_of_spares (r : FsRequest) (files : Files) (h : r.spares kept = true) :
    (fsStepAt base r files).2[base ++ kept]? = files[base ++ kept]? := by
  have hne : ∀ path : Path, path ≠ kept → base ++ path ≠ base ++ kept :=
    fun path hpath heq => hpath (List.append_cancel_left heq)
  cases r with
  | isPresent path => rfl
  | read path =>
      simp only [fsStepAt, fsStep]
      cases files[base ++ path]? <;> rfl
  | create path =>
      simp only [FsRequest.spares, decide_eq_true_eq] at h
      simp only [fsStepAt, fsStep]
      cases files[base ++ path]? with
      | some data => rfl
      | none => exact KeyMap.get?_insert_ne _ _ (hne path h)
  | write path data =>
      simp only [FsRequest.spares, decide_eq_true_eq] at h
      exact KeyMap.get?_insert_ne _ _ (hne path h)
  | link source target =>
      simp only [FsRequest.spares, decide_eq_true_eq] at h
      simp only [fsStepAt, fsStep]
      cases files[base ++ source]? with
      | none => rfl
      | some data =>
          cases files[base ++ target]? with
          | some existing => rfl
          | none => exact KeyMap.get?_insert_ne _ _ (hne target h)
  | unlink path =>
      simp only [FsRequest.spares, decide_eq_true_eq] at h
      simp only [fsStepAt, fsStep]
      cases files[base ++ path]? with
      | some data => exact KeyMap.get?_erase_ne _ (hne path h)
      | none => rfl
  | glob dir => rfl

theorem quiet_unlinkMissingOk (h : path ≠ kept) :
    (Fs.unlinkMissingOk path).Quiet (FsRequest.spares kept) := by
  apply Program.Quiet.follow
  · exact ⟨decide_eq_true h, fun _ => trivial⟩
  · intro x
    cases x with
    | ok a => trivial
    | error e =>
        show Program.Quiet _ (if e.cls.isFileNotFound then pure () else Program.raise e)
        split_ifs <;> trivial

theorem quiet_spares_readJson (path : Path) :
    (Fs.readJson path).Quiet (FsRequest.spares kept) := by
  apply Program.Quiet.bind
  · exact ⟨rfl, fun _ => trivial⟩
  · intro data
    trivial

theorem quiet_publish {data : ByteArray} {uuid : String} (h : path ≠ kept)
    (htemp : tempPath path uuid ≠ kept) :
    (publish_immutable path data uuid).Quiet (FsRequest.spares kept) := by
  apply Program.Quiet.follow
  · apply Program.Quiet.bind
    · exact ⟨decide_eq_true htemp, fun _ => trivial⟩
    · rintro ⟨⟩
      apply Program.Quiet.bind
      · apply Program.Quiet.follow
        · exact ⟨decide_eq_true htemp, fun _ => trivial⟩
        · intro x
          cases x with
          | ok a => trivial
          | error e =>
              apply (quiet_unlinkMissingOk htemp).bind
              intro a
              trivial
      · rintro ⟨⟩
        apply Program.Quiet.follow
        · apply Program.Quiet.bind
          · exact ⟨decide_eq_true h, fun _ => trivial⟩
          · intro a
            trivial
        · intro x
          cases x with
          | ok a => trivial
          | error e =>
              show Program.Quiet _ (if e.cls = .builtin .fileExistsError then pure false
                else Program.raise e)
              split_ifs <;> trivial
  · intro x
    apply (quiet_unlinkMissingOk htemp).follow
    intro y
    cases y <;> trivial

theorem run_readJson_eq_ok {value : Json}
    (h : (Fs.readJson path).run (fsStepAt base) files = (.ok value, files')) :
    files' = files ∧ ∃ data, files[base ++ path]? = some data ∧
      Json.loadText data = .ok value := by
  rw [Fs.readJson, Program.run_bind_eq_ok] at h
  obtain ⟨data, files₁, hread, hvalue⟩ := h
  cases hdata : files[base ++ path]? with
  | none => simp [Fs.read, fsStepAt, fsStep, hdata, Fs.ofAnswer] at hread
  | some found =>
      simp only [Fs.read, Program.run_request, fsStepAt, fsStep, hdata, Fs.ofAnswer, liftPy_ok,
        Program.run_done, Prod.mk.injEq, Except.ok.injEq] at hread
      obtain ⟨rfl, rfl⟩ := hread
      simp only [Fs.ofAnswer, Program.run_done, Prod.mk.injEq] at hvalue
      exact ⟨hvalue.2.symm, found, rfl, liftPy_eq_ok.mp hvalue.1⟩

theorem run_unlinkMissingOk_at :
    (Fs.unlinkMissingOk path).run (fsStepAt base) files = (.ok (), files.erase (base ++ path)) := by
  cases h : files[base ++ path]? with
  | some data =>
      have hunlink : (Fs.unlink path).run (fsStepAt base) files =
          (.ok (), files.erase (base ++ path)) := by
        simp [Fs.unlink, fsStepAt, fsStep, h, Fs.ofAnswer]
      exact Program.run_catching_ok _ hunlink
  | none =>
      have hunlink : (Fs.unlink path).run (fsStepAt base) files =
          (.error (.ofPython (.fileNotFoundError (pathText (base ++ path)))), files) := by
        simp [Fs.unlink, fsStepAt, fsStep, h, Fs.ofAnswer]
      rw [Fs.unlinkMissingOk, Program.run_catching_error _ hunlink, KeyMap.erase_of_get? h]
      rfl

/-! ## What a redaction leaves -/

namespace ArtifactStore

theorem quiet_redact (artifact_id : String) (r : RedactionRequest) (temp : String) :
    (redact artifact_id r temp).Quiet (FsRequest.spares (manifest_path artifact_id)) := by
  have hdelete : ∀ manifest record : Json,
      (delete_blob manifest record).Quiet (FsRequest.spares (manifest_path artifact_id)) := by
    intro manifest record
    apply Program.Quiet.bind
    · trivial
    · intro digest
      apply (quiet_unlinkMissingOk _).bind
      · intro a
        trivial
      · simp [blob_path, manifest_path]
  rw [redact]
  split_ifs with hincomplete
  · trivial
  · apply (quiet_spares_readJson _).bind
    intro manifest
    apply Program.Quiet.bind
    · trivial
    · intro record
      apply (quiet_publish _ _).bind
      · intro published
        split_ifs
        · apply (quiet_spares_readJson _).bind
          intro existing
          split_ifs
          · trivial
          · exact hdelete manifest existing
        · exact hdelete manifest record
      · simp [redaction_path, manifest_path]
      · simp [tempPath, redaction_path, manifest_path]

theorem run_delete_blob {manifest record result : Json}
    (h : (delete_blob manifest record).run (fsStepAt base) files = (.ok result, files')) :
    ∃ digest, digestText manifest = .ok digest ∧ files'[base ++ blob_path digest]? = none := by
  rw [delete_blob, Program.run_bind_eq_ok] at h
  obtain ⟨digest, files₁, hdigest, h⟩ := h
  rw [Program.run_bind_ok _ run_unlinkMissingOk_at] at h
  simp only [Program.run_done, Prod.mk.injEq] at hdigest
  simp only [Program.pure_eq_done, Program.run_done, Prod.mk.injEq] at h
  refine ⟨digest, hdigest.1, ?_⟩
  rw [← h.2]
  exact KeyMap.get?_erase_self _ _

/-- A completed redaction leaves the manifest of the artifact, and no blob for it. -/
theorem run_redact_eq_ok {artifact_id temp : String} {r : RedactionRequest} {record : Json}
    (h : (redact artifact_id r temp).run (fsStepAt base) files = (.ok record, files')) :
    ∃ data manifest digest, files'[base ++ manifest_path artifact_id]? = some data ∧
      Json.loadText data = .ok manifest ∧ digestText manifest = .ok digest ∧
        files'[base ++ blob_path digest]? = none := by
  have hkept : files'[base ++ manifest_path artifact_id]? =
      files[base ++ manifest_path artifact_id]? := by
    have hrun := (quiet_redact artifact_id r temp).run_eq (fsStepAt base)
      (g := fun files : Files => files[base ++ manifest_path artifact_id]?)
      (fun r files hr => fsStepAt_of_spares r files hr) files
    rw [h] at hrun
    exact hrun
  rw [redact] at h
  split_ifs at h
  · cases h
  · obtain ⟨manifest, files₁, hmanifest, hrest⟩ := (Program.run_bind_eq_ok _).mp h
    obtain ⟨-, data, hdata, hload⟩ := run_readJson_eq_ok hmanifest
    obtain ⟨written, files₂, -, hpublish⟩ := (Program.run_bind_eq_ok _).mp hrest
    obtain ⟨published, files₃, -, hdone⟩ := (Program.run_bind_eq_ok _).mp hpublish
    have hdeleted : ∃ files₄ existing result,
        (delete_blob manifest existing).run (fsStepAt base) files₄ = (.ok result, files') := by
      split_ifs at hdone
      · obtain ⟨existing, files₄, -, hexisting⟩ := (Program.run_bind_eq_ok _).mp hdone
        split_ifs at hexisting
        · cases hexisting
        · exact ⟨files₄, existing, record, hexisting⟩
      · exact ⟨files₃, written, record, hdone⟩
    obtain ⟨files₄, existing, result, hdelete⟩ := hdeleted
    obtain ⟨digest, hdigest, hblob⟩ := run_delete_blob hdelete
    exact ⟨data, manifest, digest, hkept.trans hdata, hload, hdigest, hblob⟩

end ArtifactStore

/-! ## The audit afterwards -/

theorem manifestDigest_of_digestText {manifest : Json} {digest : String}
    (h : digestText manifest = .ok digest) : manifestDigest manifest = .ok digest := by
  obtain ⟨content_hash, hcontent, h⟩ := bind_eq_ok.mp h
  obtain ⟨value, hvalue, h⟩ := bind_eq_ok.mp h
  cases value with
  | str s =>
      cases h
      rw [manifestDigest, liftPy_eq_ok.mp hcontent]
      show liftPy (content_hash.getItem "digest" >>= _) = _
      rw [liftPy_eq_ok.mp hvalue]
      rfl
  | _ => cases h

/-- The disk after the files below a root have changed. -/
def Disk.replace (disk : Disk) (root : String) (directory : Directory) : Disk :=
  Function.update disk root directory

/-- After a completed redaction of an artifact in one of the packs the audit refuses the pack set,
and nothing can be rebuilt from it: the manifest is still there, and its blob is missing. -/
theorem refused_after_redact (sha256 : Sha256) (formats : FormatChecker) (disk : Disk)
    (roots : List String) {root : String} (hroot : root ∈ roots) {artifact_id temp : String}
    {r : RedactionRequest} {record : Json} {files' : Files}
    (hredact : (ArtifactStore.redact artifact_id r temp).run (fsStepAt ["artifacts"])
      (disk root).files = (.ok record, files')) (folders : List Path) :
    (∀ audit, validate_pack_fixtures sha256 formats
        (disk.replace root ⟨files', folders⟩) roots ≠ .ok audit) ∧
      ∀ as_of_recorded_at documents, retrieval_documents_from_pack_fixtures sha256 formats
        (disk.replace root ⟨files', folders⟩) roots as_of_recorded_at ≠ .ok documents := by
  have hrefused : ∀ audit, validate_pack_fixtures sha256 formats
      (disk.replace root ⟨files', folders⟩) roots ≠ .ok audit := by
    intro audit haudit
    obtain ⟨packs, index, haudited⟩ := validate_pack_fixtures_ok_iff.mp ⟨audit, haudit⟩
    obtain ⟨pack_id, pack, hget, rfl⟩ := (readPacks_ok haudited.read).1 root hroot
    have hread := read_artifacts_ok (haudited.pack hget).2.artifacts
    rw [Disk.replace, Function.update_self] at hread
    obtain ⟨data, manifest, digest, hdata, hload, hdigest, hblob⟩ :=
      ArtifactStore.run_redact_eq_ok hredact
    obtain ⟨entry, -, hentry⟩ := exists_of_mapM_ok hread _ (mem_glob_manifests hdata)
    have hartifact := readArtifact_ok hentry
    obtain ⟨bytes, hbytes, hloaded, -⟩ := load_json_ok_iff.mp hartifact.loaded
    have hsame : entry.2 = manifest := by
      have heq : some data = some bytes := hdata.symm.trans hbytes
      rw [← Option.some.inj heq, hload] at hloaded
      exact (Except.ok.inj hloaded).symm
    obtain ⟨digest', blob, hdigest', -, hstored, -⟩ := hartifact.stored
    rw [hsame, manifestDigest_of_digestText hdigest] at hdigest'
    rw [← Except.ok.inj hdigest'] at hstored
    exact absurd (hstored.symm.trans hblob) (by simp)
  refine ⟨hrefused, ?_⟩
  intro as_of_recorded_at documents hdocuments
  obtain ⟨audit, haudit, -⟩ := bind_eq_ok.mp hdocuments
  exact hrefused audit haudit

end FossilCore
