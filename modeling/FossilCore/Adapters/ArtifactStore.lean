import FossilCore.Adapters.Filesystem
import FossilCore.Store.ArtifactLedger
import FossilCore.Adapters.EventStore

/-!
# The file system artifact store

`ArtifactStore` of `adapters/filesystem/artifact_store.py`, as programs of file requests, and
the proof that it refines the artifact ledger.
-/

namespace FossilCore

open Base

namespace ArtifactStore

variable (sha256 : Sha256)

def blob_path (digest : String) : Path := ["blobs", "sha256", Text.take digest 2, digest]

def manifest_path (artifact_id : String) : Path :=
  ["manifests", shardOf "art_" artifact_id, fileName artifact_id]

def redaction_path (artifact_id : String) : Path :=
  ["redactions", shardOf "art_" artifact_id, fileName artifact_id]

def get_manifest (artifact_id : String) : Fs Json := Fs.readJson (manifest_path artifact_id)

def is_redacted (artifact_id : String) : Fs Bool := Fs.isPresent (redaction_path artifact_id)

def get_redaction (artifact_id : String) : Fs (Option Json) := do
  let path := redaction_path artifact_id
  let present ← Fs.isPresent path
  if present then
    let value ← Fs.readJson path
    return orNone value
  else return none

/-- The second half of `put_bytes`. -/
def put_manifest (artifact_id : String) (manifest : Json) (temp : String) : Fs Json := do
  let path := manifest_path artifact_id
  let encoded := manifest.canonical
  let published ← publish_immutable path encoded temp
  if !published then
    let existing ← Fs.readJson path
    if existing.canonical ≠ encoded then .raise (.manifestConflict artifact_id)
    else return manifest
  else return manifest

def put_bytes (data : ByteArray) (media_type temp temp' : String) : Fs Json := do
  let digest := sha256.hexdigest data
  let artifact_id := artifact_id_for_digest digest
  let redacted ← is_redacted artifact_id
  if redacted then .raise (.redactedPut artifact_id)
  else
    let manifest := manifestFor digest data media_type
    let path := blob_path digest
    let published ← publish_immutable path data temp
    if !published then
      let existing ← Fs.read path
      if existing ≠ data then .raise (.corruptedBlob artifact_id)
      else put_manifest artifact_id manifest temp'
    else put_manifest artifact_id manifest temp'

def read_bytes (artifact_id : String) : Fs ByteArray := do
  let redacted ← is_redacted artifact_id
  if redacted then .raise (.redactedRead artifact_id)
  else
    let manifest ← get_manifest artifact_id
    let digest ← .done (digestText manifest)
    Fs.read (blob_path digest)

def verify (artifact_id : String) : Fs Bool := do
  let manifest ← get_manifest artifact_id
  let data ← read_bytes artifact_id
  .done (verified sha256 artifact_id manifest data)

/-- The end of `redact`. -/
def delete_blob (manifest record : Json) : Fs Json := do
  let digest ← .done (digestText manifest)
  Fs.unlinkMissingOk (blob_path digest)
  return record

def redact (artifact_id : String) (r : RedactionRequest) (temp : String) : Fs Json :=
  if r.incomplete then .raise .incompleteArtifactRedaction
  else do
    let manifest ← get_manifest artifact_id
    let record ← .done (artifactRecord artifact_id manifest r)
    let path := redaction_path artifact_id
    let encoded := record.canonical
    let published ← publish_immutable path encoded temp
    if !published then
      let existing ← Fs.readJson path
      if existing.canonical ≠ encoded then .raise (.tombstoneConflict artifact_id)
      else delete_blob manifest existing
    else delete_blob manifest record

def program : ArtifactCall → Fs ArtifactReturned
  | .put_bytes data media_type temp temp' => do
      return .document (← put_bytes sha256 data media_type temp temp')
  | .read_bytes id => do return .data (← read_bytes id.text)
  | .verify id => do return .verified (← verify sha256 id.text)
  | .redact id r temp => do return .document (← redact id.text r temp)
  | .get_redaction id => do return .redaction (← get_redaction id.text)

def step (files : Files) (call : ArtifactCall) : Except Error ArtifactReturned × Files :=
  (program sha256 call).run fsStep files

/-! ## The layout -/

def slotPath : ArtifactSlot → Path
  | .blob d => blob_path d.text
  | .manifest id => manifest_path id.text
  | .redaction id => redaction_path id.text

theorem slotPath_inj : Function.Injective slotPath := by
  intro s t h
  cases s <;> cases t <;>
    simp only [slotPath, blob_path, manifest_path, redaction_path, List.cons.injEq, and_true,
      reduceCtorEq, String.reduceEq, false_and, and_false, true_and] at h
  · rw [Digest.ext_text h.2]
  · rw [StableId.ext_text (StableId.fileName_inj h.2)]
  · rw [StableId.ext_text (StableId.fileName_inj h.2)]

def layout : Layout ArtifactSlot Path := ⟨slotPath, slotPath_inj⟩

/-- No file of the layout has a name that begins with a dot. -/
theorem slotPath_eq (slot : ArtifactSlot) :
    ∃ dir name, slotPath slot = dir ++ [name] ∧ name.toList.head? ≠ some '.' := by
  cases slot with
  | blob d =>
      refine ⟨["blobs", "sha256", Text.take d.text 2], d.text, rfl, ?_⟩
      intro hdot
      obtain ⟨rest, hrest⟩ := List.head?_eq_some_iff.mp hdot
      have hhex := d.isHexChar_text '.' (by rw [hrest]; exact List.mem_cons_self)
      exact absurd hhex (by decide)
  | manifest id =>
      obtain ⟨a, b, rest, htext, -⟩ := id.shard_eq
      exact ⟨["manifests", shardOf "art_" id.text], fileName id.text, rfl,
        by simp [fileName, String.toList_append, htext]⟩
  | redaction id =>
      obtain ⟨a, b, rest, htext, -⟩ := id.shard_eq
      exact ⟨["redactions", shardOf "art_" id.text], fileName id.text, rfl,
        by simp [fileName, String.toList_append, htext]⟩

theorem slotPath_ne_tempPath (slot slot' : ArtifactSlot) (uuid : String) :
    slotPath slot' ≠ tempPath (slotPath slot) uuid := by
  obtain ⟨dir, name, hslot, -⟩ := slotPath_eq slot
  obtain ⟨dir', name', hslot', hdot⟩ := slotPath_eq slot'
  rw [hslot, hslot', tempPath_concat]
  intro h
  have hname : name' = "." ++ name ++ "." ++ uuid ++ ".tmp" := by
    simpa using congrArg List.getLast? h
  rw [hname] at hdot
  simp [String.toList_append] at hdot

/-! ## Runs without faults refine the ledger -/

section Refinement

variable {sha256} {l : ArtifactLedger} {files : Files}

theorem run_publish_slot (h : layout.Holds l.contents files) (slot : ArtifactSlot)
    (data : ByteArray) (uuid : String) :
    (publish_immutable (slotPath slot) data uuid).run fsStep files =
      match l.contents slot with
      | none => (.ok true, files.insert (slotPath slot) data)
      | some _ => (.ok false, files) := by
  have hfree : files[tempPath (slotPath slot) uuid]? = none :=
    h.free fun slot' => slotPath_ne_tempPath slot slot' uuid
  have hlookup : files[slotPath slot]? = l.contents slot := h.slot slot
  obtain ⟨dir, name, hslot, -⟩ := slotPath_eq slot
  rw [hslot] at hfree hlookup ⊢
  rw [← hlookup]
  exact run_publish hfree

theorem run_is_redacted (h : layout.Holds l.contents files) (id : ArtifactId) :
    (is_redacted id.text).run fsStep files = (.ok l.redactions[id.text]?.isSome, files) := by
  have hlookup : files[redaction_path id.text]? = l.redactions[id.text]?.map Json.canonical :=
    h.slot (.redaction id)
  rw [is_redacted, run_isPresent, hlookup, Option.isSome_map]

theorem run_read_blob_some (h : layout.Holds l.contents files) {d : Digest} {data : ByteArray}
    (hdata : l.blobs[d.text]? = some data) :
    (Fs.read (blob_path d.text)).run fsStep files = (.ok data, files) :=
  run_read_some ((h.slot (.blob d)).trans hdata)

theorem run_read_blob_none (h : layout.Holds l.contents files) {d : Digest}
    (hdata : l.blobs[d.text]? = none) :
    (Fs.read (blob_path d.text)).run fsStep files =
      (.error (.ofPython (.fileNotFoundError (pathText (blob_path d.text)))), files) :=
  run_read_none ((h.slot (.blob d)).trans hdata)

theorem run_get_manifest_some (h : layout.Holds l.contents files) {id : ArtifactId} {v : Json}
    (hv : l.manifests[id.text]? = some v) (hwf : v.WF) :
    (get_manifest id.text).run fsStep files = (.ok v, files) :=
  run_readJson_some ((h.slot (.manifest id)).trans (congrArg (Option.map Json.canonical) hv))
    (Json.loadText_canonical hwf)

theorem run_get_manifest_none (h : layout.Holds l.contents files) {id : ArtifactId}
    (hv : l.manifests[id.text]? = none) :
    (get_manifest id.text).run fsStep files =
      (.error (.ofPython (.fileNotFoundError (pathText (manifest_path id.text)))), files) :=
  run_readJson_none ((h.slot (.manifest id)).trans (congrArg (Option.map Json.canonical) hv))

theorem run_read_redaction (h : layout.Holds l.contents files) {id : ArtifactId} {v : Json}
    (hv : l.redactions[id.text]? = some v) (hwf : v.WF) :
    (Fs.readJson (redaction_path id.text)).run fsStep files = (.ok v, files) :=
  run_readJson_some ((h.slot (.redaction id)).trans (congrArg (Option.map Json.canonical) hv))
    (Json.loadText_canonical hwf)

theorem run_put_manifest (hvalid : l.Valid sha256) (h : layout.Holds l.contents files)
    (id : ArtifactId) {manifest : Json} (hwf : manifest.WF) (temp : String) :
    SameOutcome ((put_manifest id.text manifest temp).run fsStep files).1
        (l.putManifest id.text manifest).1 ∧
      layout.Holds (l.putManifest id.text manifest).2.contents
        ((put_manifest id.text manifest temp).run fsStep files).2 := by
  have hpublish := run_publish_slot h (.manifest id) manifest.canonical temp
  rw [put_manifest, ArtifactLedger.putManifest]
  simp only [slotPath, ArtifactLedger.contents] at hpublish
  cases hm : l.manifests[id.text]? with
  | none =>
      rw [hm] at hpublish
      simp only [Program.run_bind_ok _ hpublish]
      exact ⟨rfl, holds_insert_manifest h id manifest⟩
  | some existing =>
      rw [hm] at hpublish
      obtain ⟨data, media_type, -, hexisting⟩ := hvalid.manifests _ _ hm
      have hwf' : existing.WF := by
        rw [hexisting]
        exact ArtifactLedger.wf_manifestFor _ _ _
      have hread : (Fs.readJson (manifest_path id.text)).run fsStep files = _ :=
        run_get_manifest_some h hm hwf'
      simp only [Program.run_bind_ok _ hpublish, Bool.not_false, if_true,
        Program.run_bind_ok _ hread, ne_eq, Json.canonical_inj hwf' hwf]
      by_cases heq : existing = manifest
      · simp only [heq, not_true_eq_false, if_false, if_true]
        exact ⟨rfl, h⟩
      · simp only [heq, not_false_eq_true, if_true, if_false]
        exact ⟨rfl, h⟩

theorem run_put_bytes (hvalid : l.Valid sha256) (h : layout.Holds l.contents files)
    (data : ByteArray) (media_type temp temp' : String) :
    SameOutcome ((put_bytes sha256 data media_type temp temp').run fsStep files).1
        (l.put_bytes sha256 data media_type).1 ∧
      layout.Holds (l.put_bytes sha256 data media_type).2.contents
        ((put_bytes sha256 data media_type temp temp').run fsStep files).2 := by
  have hredacted := run_is_redacted h (sha256.digest data).artifactId
  have hwf := ArtifactLedger.wf_manifestFor (sha256.hexdigest data) data media_type
  have hpublish := run_publish_slot h (.blob (sha256.digest data)) data temp
  simp only [slotPath, ArtifactLedger.contents] at hpublish
  rw [put_bytes, ArtifactLedger.put_bytes]
  dsimp only [Digest.artifactId, Sha256.digest] at hredacted hpublish ⊢
  rw [Program.run_bind_ok _ hredacted]
  by_cases hr : l.redactions[artifact_id_for_digest (sha256.hexdigest data)]?.isSome = true
  · rw [if_pos hr, if_pos hr]
    exact ⟨rfl, h⟩
  · rw [if_neg hr, if_neg hr]
    cases hblob : l.blobs[sha256.hexdigest data]? with
    | none =>
        rw [hblob] at hpublish
        rw [Program.run_bind_ok _ hpublish]
        exact run_put_manifest (hvalid.insertBlob data)
          (holds_insert_blob h (sha256.digest data) data) (sha256.digest data).artifactId hwf temp'
    | some existing =>
        rw [hblob] at hpublish
        have hread : (Fs.read (blob_path (sha256.hexdigest data))).run fsStep files = _ :=
          run_read_blob_some (d := sha256.digest data) h hblob
        simp only [Program.run_bind_ok _ hpublish, Bool.not_false, if_true,
          Program.run_bind_ok _ hread]
        by_cases heq : existing = data
        · simp only [heq, ne_eq, not_true_eq_false, if_false, if_true]
          exact run_put_manifest hvalid h (sha256.digest data).artifactId hwf temp'
        · simp only [heq, ne_eq, not_false_eq_true, if_true, if_false]
          exact ⟨rfl, h⟩

/-- Reading the manifest of an id, when the ledger has one. -/
theorem manifest_cases (hvalid : l.Valid sha256) (h : layout.Holds l.contents files)
    (id : ArtifactId) :
    (l.get_manifest id.text = .error (.fileNotFound id.text) ∧
        ∃ e, (get_manifest id.text).run fsStep files = (.error e, files) ∧
          e.cls = (Error.fileNotFound id.text).cls) ∨
      ∃ data media_type, l.get_manifest id.text =
          .ok (manifestFor (sha256.hexdigest data) data media_type) ∧
        (get_manifest id.text).run fsStep files =
          (.ok (manifestFor (sha256.hexdigest data) data media_type), files) := by
  rcases hvalid.get_manifest id with ⟨hm, hl⟩ | ⟨data, media_type, hm, hl⟩
  · exact Or.inl ⟨hl, _, run_get_manifest_none h hm, SameOutcome.missing_cls _ _⟩
  · exact Or.inr ⟨data, media_type, hl,
      run_get_manifest_some h hm (ArtifactLedger.wf_manifestFor _ _ _)⟩

theorem run_read_bytes (hvalid : l.Valid sha256) (h : layout.Holds l.contents files)
    (id : ArtifactId) :
    ∃ x, (read_bytes id.text).run fsStep files = (x, files) ∧
      SameOutcome x (l.read_bytes id.text) := by
  rw [read_bytes, Program.run_bind_ok _ (run_is_redacted h id), ArtifactLedger.read_bytes]
  by_cases hr : l.redactions[id.text]?.isSome = true
  · rw [if_pos hr, if_pos hr]
    exact ⟨_, rfl, rfl⟩
  · rw [if_neg hr, if_neg hr]
    rcases manifest_cases hvalid h id with ⟨hl, e, hrun, hcls⟩ | ⟨data, media_type, hl, hrun⟩
    · exact ⟨_, Program.run_bind_error _ hrun, by rw [hl]; exact hcls⟩
    · rw [Program.run_bind_ok _ hrun, hl]
      simp only [ArtifactLedger.digestText_manifestFor, bind, Except.bind,
        ArtifactLedger.read_blob]
      cases hblob : l.blobs[sha256.hexdigest data]? with
      | none =>
          exact ⟨_, run_read_blob_none (d := sha256.digest data) h hblob, SameOutcome.missing _ _⟩
      | some existing => exact ⟨_, run_read_blob_some (d := sha256.digest data) h hblob, rfl⟩

theorem read_bytes_eq_ok (h : (ArtifactLedger.model sha256).StoredAs layout l files)
    (id : ArtifactId) {data : ByteArray} :
    ((read_bytes id.text).run fsStep files).1 = .ok data ↔ l.read_bytes id.text = .ok data := by
  obtain ⟨x, hrun, hsame⟩ := run_read_bytes h.valid h.holds id
  rw [hrun]
  constructor
  · rintro rfl
    exact hsame.ok_left
  · intro hread
    rw [hread] at hsame
    exact hsame.ok_right

theorem run_verify (hvalid : l.Valid sha256) (h : layout.Holds l.contents files)
    (id : ArtifactId) :
    ∃ x, (verify sha256 id.text).run fsStep files = (x, files) ∧
      SameOutcome x (l.verify sha256 id.text) := by
  rw [verify, ArtifactLedger.verify]
  rcases manifest_cases hvalid h id with ⟨hl, e, hrun, hcls⟩ | ⟨data, media_type, hl, hrun⟩
  · exact ⟨_, Program.run_bind_error _ hrun, by rw [hl]; exact hcls⟩
  · rw [Program.run_bind_ok _ hrun, hl]
    obtain ⟨x, hread, hsame⟩ := run_read_bytes hvalid h id
    cases hx : l.read_bytes id.text with
    | error e =>
        rw [hx] at hsame
        obtain ⟨e', rfl⟩ := hsame.error_right
        refine ⟨_, Program.run_bind_error _ hread, ?_⟩
        simp only [bind, Except.bind]
        exact hsame
    | ok bytes =>
        rw [hx] at hsame
        obtain rfl := hsame.ok_right
        rw [Program.run_bind_ok _ hread]
        exact ⟨_, rfl, SameOutcome.rfl'⟩

theorem run_redact (hvalid : l.Valid sha256) (h : layout.Holds l.contents files)
    (id : ArtifactId) (r : RedactionRequest) (temp : String) :
    SameOutcome ((redact id.text r temp).run fsStep files).1 (l.redact id.text r).1 ∧
      layout.Holds (l.redact id.text r).2.contents
        ((redact id.text r temp).run fsStep files).2 := by
  rw [redact, ArtifactLedger.redact]
  by_cases hr : r.incomplete = true
  · rw [if_pos hr, if_pos hr]
    exact ⟨rfl, h⟩
  · rw [if_neg hr, if_neg hr]
    rcases manifest_cases hvalid h id with ⟨hl, e, hrun, hcls⟩ | ⟨data, media_type, hl, hrun⟩
    · rw [Program.run_bind_error _ hrun, ArtifactLedger.redaction_error hl]
      exact ⟨hcls, h⟩
    · obtain ⟨record, hrecord, hwf, -⟩ := ArtifactLedger.artifactRecord_manifestFor
        (sha256.hexdigest data) data media_type id.text r
      have hpublish := run_publish_slot h (.redaction id) record.canonical temp
      simp only [slotPath, ArtifactLedger.contents] at hpublish
      have hdelete : ∀ (v : Json) (files' : Files),
          (delete_blob (manifestFor (sha256.hexdigest data) data media_type) v).run fsStep files' =
            (.ok v, files'.erase (blob_path (sha256.hexdigest data))) := by
        intro v files'
        simp only [delete_blob, ArtifactLedger.digestText_manifestFor, Program.bind_done_ok,
          Program.run_bind_ok _ run_unlinkMissingOk]
        rfl
      rw [Program.run_bind_ok _ hrun, ArtifactLedger.redaction_ok hl hrecord]
      simp only [hrecord, Program.bind_done_ok]
      cases ht : l.redactions[id.text]? with
      | none =>
          rw [ht] at hpublish
          simp only [Program.run_bind_ok _ hpublish, Bool.not_true, Bool.false_eq_true, if_false,
            hdelete]
          exact ⟨rfl, holds_erase_blob (holds_insert_redaction h id record) (sha256.digest data)⟩
      | some existing =>
          rw [ht] at hpublish
          obtain ⟨-, -, hwf', -⟩ := hvalid.redactions _ _ ht
          simp only [Program.run_bind_ok _ hpublish, Bool.not_false, if_true,
            Program.run_bind_ok _ (run_read_redaction h ht hwf'), ne_eq,
            Json.canonical_inj hwf' hwf]
          by_cases heq : existing = record
          · simp only [heq, not_true_eq_false, if_false, if_true, hdelete]
            exact ⟨rfl, holds_erase_blob h (sha256.digest data)⟩
          · simp only [heq, not_false_eq_true, if_true, if_false]
            exact ⟨rfl, h⟩

theorem run_get_redaction (hvalid : l.Valid sha256) (h : layout.Holds l.contents files)
    (id : ArtifactId) :
    (get_redaction id.text).run fsStep files = (.ok l.redactions[id.text]?, files) := by
  have hpresent := run_is_redacted h id
  rw [is_redacted] at hpresent
  rw [get_redaction, Program.run_bind_ok _ hpresent]
  cases ht : l.redactions[id.text]? with
  | none => rfl
  | some t =>
      obtain ⟨-, -, hwf, hobj⟩ := hvalid.redactions _ _ ht
      refine (Program.run_bind_ok _ (run_read_redaction h ht hwf)).trans ?_
      rw [orNone_of_isObj hobj]
      rfl

/-- Each call answers as the ledger does and leaves its bytes in the files. -/
theorem refines_ledger :
    (ArtifactLedger.model sha256).Refines layout SameOutcome (step sha256) := by
  rintro l files call ⟨hvalid, h⟩
  cases call with
  | put_bytes data media_type temp temp' =>
      obtain ⟨hout, hholds⟩ := run_put_bytes hvalid h data media_type temp temp'
      rw [step, program, Program.run_bind_pure]
      exact ⟨hout.map _, hholds⟩
  | read_bytes id =>
      obtain ⟨x, hrun, hout⟩ := run_read_bytes hvalid h id
      rw [step, program, Program.run_bind_pure, hrun]
      exact ⟨hout.map _, h⟩
  | verify id =>
      obtain ⟨x, hrun, hout⟩ := run_verify hvalid h id
      rw [step, program, Program.run_bind_pure, hrun]
      exact ⟨hout.map _, h⟩
  | redact id r temp =>
      obtain ⟨hout, hholds⟩ := run_redact hvalid h id r temp
      rw [step, program, Program.run_bind_pure]
      exact ⟨hout.map _, hholds⟩
  | get_redaction id =>
      rw [step, program, Program.run_bind_pure, run_get_redaction hvalid h id]
      exact ⟨rfl, h⟩

end Refinement

end ArtifactStore

end FossilCore
