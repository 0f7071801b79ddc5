import FossilCore.Adapters.ArtifactStore
import FossilCore.Adapters.EventStoreCrashes
import FossilCore.Store.ArtifactIntegrity

/-!
# The file system artifact store under crashes

The calls of `ArtifactStore` under scripts that stop the process before any request or have a
deletion refused.  Nothing is asked of the script: a redaction that was stopped finds its tombstone
when it is made again and deletes the blob then.
-/

namespace FossilCore

open Base

theorem always_read_some {kind : FsRequest → Bool} {files : Files} {data : ByteArray}
    {post : Option (Except Error ByteArray) → Files → Prop} (path : Path) (h : files[path]? = some data)
    (hstop : post none files) (hok : post (some (.ok data)) files) :
    (Fs.read path).Always fsStep fsRefused kind post files := by
  refine ⟨?_, fun _ => ⟨hstop, fun a ha => by cases ha⟩⟩
  simp only [fsStep, h]
  exact hok

theorem always_read_none {kind : FsRequest → Bool} {files : Files}
    {post : Option (Except Error ByteArray) → Files → Prop} (path : Path) (h : files[path]? = none)
    (hstop : post none files) (hfail : ∀ exc, post (some (.error (.ofPython exc))) files) :
    (Fs.read path).Always fsStep fsRefused kind post files := by
  refine ⟨?_, fun _ => ⟨hstop, fun a ha => by cases ha⟩⟩
  simp only [fsStep, h]
  exact hfail _

namespace ArtifactStore

variable {sha256 : Sha256} {artifacts : Set ByteArray} {files : Files}

abbrev contents (files : Files) : ArtifactContents := layout.view files

theorem contents_insert (files : Files) (slot : ArtifactSlot) (v : ByteArray) :
    contents (files.insert (slotPath slot) v) =
      Function.update (contents files) slot (some v) := layout.view_insert files slot v

theorem contents_erase (files : Files) (slot : ArtifactSlot) :
    contents (files.erase (slotPath slot)) = Function.update (contents files) slot none :=
  layout.view_erase files slot

/-- No request is protected from the script. -/
def unprotected (_ : FsRequest) : Bool := false

theorem always_publish_slot (slot : ArtifactSlot) {data : ByteArray} {uuid : String}
    {post : Option (Except Error Bool) → Files → Prop}
    (hstay : ∀ o files', (o = none ∨ ∃ exc, o = some (.error (.ofPython exc))) →
      contents files' = contents files → post o files')
    (hput : files[slotPath slot]? = none → ∀ o files',
      (o = none ∨ ∃ exc, o = some (.error (.ofPython exc))) →
      contents files' = contents (files.insert (slotPath slot) data) → post o files')
    (hlost : files[slotPath slot]?.isSome → post (some (.ok false)) files)
    (hwon : files[slotPath slot]? = none →
      post (some (.ok true)) (files.insert (slotPath slot) data)) :
    (publish_immutable (slotPath slot) data uuid).Always fsStep fsRefused unprotected post
      files := by
  have htemp : ∀ slot', slotPath slot' ≠ tempPath (slotPath slot) uuid :=
    fun slot' => slotPath_ne_tempPath slot slot' uuid
  have hinsert : ∀ (files : Files) v,
      contents (files.insert (tempPath (slotPath slot) uuid) v) = contents files :=
    fun files v => layout.view_insert_spare files v htemp
  refine always_publishVia (htemp slot).symm ?_ ?_ ?_ ?_ ?_ ?_ ?_ ?_
  · exact hstay _ _ (Or.inl rfl) rfl
  · intro exc
    exact ⟨hstay _ _ (Or.inr ⟨exc, rfl⟩) rfl,
      hstay _ _ (Or.inr ⟨exc, rfl⟩) (layout.view_erase_spare files htemp)⟩
  · intro _
    exact hstay _ _ (Or.inl rfl) (hinsert files _)
  · intro _ _
    exact hstay _ _ (Or.inl rfl) (hinsert files _)
  · exact fun _ => hlost
  · intro _ _
    exact ⟨hstay _ _ (Or.inl rfl) (hinsert files _),
      fun exc => hstay _ _ (Or.inr ⟨exc, rfl⟩) (hinsert files _)⟩
  · exact fun _ => hwon
  · intro _ hpath _
    have hboth : contents ((files.insert (tempPath (slotPath slot) uuid) data).insert
        (slotPath slot) data) = contents (files.insert (slotPath slot) data) := by
      rw [KeyMap.insert_comm _ _ _ (htemp slot).symm]
      exact hinsert _ _
    exact ⟨hput hpath _ _ (Or.inl rfl) hboth, fun exc => hput hpath _ _ (Or.inr ⟨exc, rfl⟩) hboth⟩

/-- A publication within a put: stopped or failed it leaves what one of its outcomes leaves. -/
theorem always_publish_put {α : Type} {f : Bool → Fs α} {bytes data : ByteArray} {uuid : String}
    (slot : ArtifactSlot)
    (h : ArtifactContents.Sound sha256 artifacts (contents files))
    (hnew : files[slotPath slot]? = none →
      ArtifactContents.Sound sha256 artifacts (contents (files.insert (slotPath slot) bytes)) ∧
        ArtifactContents.Keeps (contents files) (contents (files.insert (slotPath slot) bytes)))
    (hlost : files[slotPath slot]?.isSome → (f false).Always fsStep fsRefused unprotected
      (fun o files' => LeavesPut sha256 artifacts layout data files o files') files)
    (hwon : files[slotPath slot]? = none → (f true).Always fsStep fsRefused unprotected
      (fun o files' => LeavesPut sha256 artifacts layout data files o files')
        (files.insert (slotPath slot) bytes)) :
    (publish_immutable (slotPath slot) bytes uuid >>= f).Always fsStep fsRefused unprotected
      (fun o files' => LeavesPut sha256 artifacts layout data files o files') files := by
  apply Program.Always.bind
  refine always_publish_slot slot ?_ ?_ hlost hwon
  · intro o files' ho hfiles
    have hsound : ArtifactContents.Sound sha256 artifacts (contents files') := by
      rw [hfiles]
      exact h
    have hkeeps : ArtifactContents.Keeps (contents files) (contents files') := by
      rw [hfiles]
      exact .refl _
    rcases ho with rfl | ⟨exc, rfl⟩
    · exact .of_python (Or.inl rfl) hsound hkeeps
    · exact .of_python (Or.inr ⟨exc, rfl⟩) hsound hkeeps
  · intro habsent o files' ho hfiles
    obtain ⟨hsound, hkeeps⟩ := hnew habsent
    rw [← hfiles] at hsound hkeeps
    rcases ho with rfl | ⟨exc, rfl⟩
    · exact .of_python (Or.inl rfl) hsound hkeeps
    · exact .of_python (Or.inr ⟨exc, rfl⟩) hsound hkeeps

theorem always_put_manifest (hfree : sha256.CollisionFree artifacts)
    (h : ArtifactContents.Sound sha256 artifacts (contents files)) {data : ByteArray}
    (hdata : data ∈ artifacts) (hblob : contents files (.blob (sha256.digest data)) = some data)
    (media_type temp : String) :
    (put_manifest (sha256.artifactId data).text
        (manifestFor (sha256.hexdigest data) data media_type) temp).Always fsStep fsRefused
      unprotected (fun o files' => LeavesPut sha256 artifacts layout data files o files') files := by
  have hnew : files[slotPath (.manifest (sha256.artifactId data))]? = none →
      ArtifactContents.Sound sha256 artifacts (contents (files.insert
        (slotPath (.manifest (sha256.artifactId data))) (sha256.manifest data media_type))) ∧
      ArtifactContents.Keeps (contents files) (contents (files.insert
        (slotPath (.manifest (sha256.artifactId data))) (sha256.manifest data media_type))) := by
    intro habsent
    rw [contents_insert]
    exact ⟨h.insertManifest hfree hdata hblob media_type, .insertManifest habsent _⟩
  refine always_publish_put (.manifest (sha256.artifactId data)) h hnew ?_ ?_
  · intro hpresent
    refine always_quiet ?_ fun o => ⟨h, .refl _, fun _ _ _ => ⟨rfl, hpresent⟩⟩
    apply Program.Quiet.bind (quiet_readJson _)
    intro existing
    split <;> trivial
  · intro habsent
    exact ⟨(hnew habsent).1, (hnew habsent).2, by simp⟩

theorem always_put_bytes (hfree : sha256.CollisionFree artifacts)
    (h : ArtifactContents.Sound sha256 artifacts (contents files)) {data : ByteArray}
    (hdata : data ∈ artifacts) (media_type temp temp' : String) :
    (put_bytes sha256 data media_type temp temp').Always fsStep fsRefused unprotected
      (fun o files' => LeavesPut sha256 artifacts layout data files o files') files := by
  rw [put_bytes]
  apply always_isPresent (.of_python (Or.inl rfl) h (.refl _))
  show Program.Always _ _ _ _
    (if files[slotPath (.redaction (sha256.artifactId data))]?.isSome = true then _ else _) _
  cases hred : files[slotPath (.redaction (sha256.artifactId data))]? with
  | some t =>
      refine ⟨h, .refl _, ?_⟩
      rintro e ⟨⟩ hcls
      cases hcls
  | none =>
      have hview := contents_insert files (.blob (sha256.digest data)) data
      have hsound := h.insertBlob hfree hdata
      have hkeeps : ArtifactContents.Keeps (contents files) (Function.update (contents files)
          (.blob (sha256.digest data)) (some data)) := .insertBlob hred
      rw [← hview] at hsound hkeeps
      refine always_publish_put (.blob (sha256.digest data)) h
        (fun _ => ⟨hsound, hkeeps⟩) ?_ ?_
      · intro hpresent
        obtain ⟨existing, hexisting⟩ := Option.isSome_iff_exists.mp hpresent
        obtain rfl := h.blob_eq hfree hdata hexisting
        apply Program.Always.bind
        refine always_read_some _ hexisting (.of_python (Or.inl rfl) h (.refl _)) ?_
        simp only [ne_eq, not_true_eq_false, if_false]
        exact always_put_manifest hfree h hdata hexisting media_type temp'
      · intro habsent
        have hblob : contents (files.insert (slotPath (.blob (sha256.digest data))) data)
            (.blob (sha256.digest data)) = some data := by
          rw [hview, Function.update_self]
        refine (always_put_manifest hfree hsound hdata hblob media_type temp').mono ?_
        -- A blob that was absent had no manifest to be in conflict with.
        intro o files' hput
        refine ⟨hput.sound, hkeeps.trans hput.keeps, ?_⟩
        intro e he hcls
        have hpresent := (hput.conflict e he hcls).2
        rw [show layout.view _ = _ from hview, Function.update_of_ne (by simp),
          h.manifest_absent hdata hred habsent] at hpresent
        cases hpresent

/-- The manifest of an id, when there is one. -/
theorem always_get_manifest {id : ArtifactId} {post : Option (Except Error Json) → Files → Prop}
    (h : ArtifactContents.Sound sha256 artifacts (contents files)) (hstop : post none files)
    (hmissing : ∀ e, post (some (.error e)) files)
    (hok : ∀ data ∈ artifacts, ∀ media_type, sha256.artifactId data = id →
      contents files (.manifest id) = some (sha256.manifest data media_type) →
      post (some (.ok (manifestFor (sha256.hexdigest data) data media_type))) files) :
    (get_manifest id.text).Always fsStep fsRefused unprotected post files := by
  cases hm : files[slotPath (.manifest id)]? with
  | none => exact always_readJson_none hm hstop hmissing
  | some bytes =>
      obtain ⟨data, hdata, media_type, hid, rfl⟩ := h.manifests id bytes hm
      exact always_readJson_some hm
        (Json.loadText_canonical (ArtifactLedger.wf_manifestFor _ _ _)) hstop
        (hok data hdata media_type hid hm)

theorem always_read_bytes (hfree : sha256.CollisionFree artifacts)
    (h : ArtifactContents.Sound sha256 artifacts (contents files)) (id : ArtifactId) :
    (read_bytes id.text).Always fsStep fsRefused unprotected
      (fun o files' => files' = files ∧ ∀ data, o = some (.ok data) →
        ArtifactContents.Recorded sha256 (contents files) id data) files := by
  rw [read_bytes]
  apply always_isPresent ⟨rfl, by simp⟩
  split
  · exact ⟨rfl, by simp⟩
  · apply Program.Always.bind
    refine always_get_manifest h ⟨rfl, by simp⟩ (fun e => ⟨rfl, by simp⟩) ?_
    rintro data hdata media_type rfl hm
    simp only [ArtifactLedger.digestText_manifestFor, Program.bind_done_ok]
    cases hblob : files[slotPath (.blob (sha256.digest data))]? with
    | none =>
        exact always_read_none (slotPath (.blob (sha256.digest data))) hblob ⟨rfl, by simp⟩
          fun exc => ⟨rfl, by simp⟩
    | some data' =>
        refine always_read_some (slotPath (.blob (sha256.digest data))) hblob
          ⟨rfl, by simp⟩ ⟨rfl, ?_⟩
        rintro _ ⟨⟩
        exact h.recorded hfree hdata hm hblob

theorem always_delete_blob (hfree : sha256.CollisionFree artifacts)
    (h : ArtifactContents.Sound sha256 artifacts (contents files)) {data : ByteArray}
    (hdata : data ∈ artifacts)
    (hred : (contents files (.redaction (sha256.artifactId data))).isSome) (media_type : String)
    (record : Json) :
    (delete_blob (manifestFor (sha256.hexdigest data) data media_type) record).Always fsStep
      fsRefused unprotected
      (LeavesRedaction sha256 artifacts layout (sha256.artifactId data) files) files := by
  have hview := contents_erase files (.blob (sha256.digest data))
  simp only [delete_blob, ArtifactLedger.digestText_manifestFor, Program.bind_done_ok]
  apply Program.Always.bind
  show Program.Always _ _ _ _ (Fs.unlinkMissingOk (slotPath (.blob (sha256.digest data)))) _
  apply always_unlinkMissingOk
  · have hsound := h.eraseBlob (d := sha256.digest data) hred
    have hkeeps := ArtifactContents.Keeps.eraseBlob (contents files) (sha256.digest data)
    have herased := h.erased hfree hdata hred
    rw [← hview] at hsound hkeeps herased
    exact ⟨hsound, hkeeps, fun _ _ => herased⟩
  · intro _
    exact ⟨⟨h, .refl _, by simp⟩, ⟨h, .refl _, by simp⟩⟩

theorem always_redact (hfree : sha256.CollisionFree artifacts)
    (h : ArtifactContents.Sound sha256 artifacts (contents files)) (id : ArtifactId)
    (r : RedactionRequest) (temp : String) :
    (redact id.text r temp).Always fsStep fsRefused unprotected
      (LeavesRedaction sha256 artifacts layout id files) files := by
  rw [redact]
  by_cases hr : r.incomplete = true
  · rw [if_pos hr]
    exact ⟨h, .refl _, by simp⟩
  · rw [if_neg hr]
    apply Program.Always.bind
    refine always_get_manifest h ⟨h, .refl _, by simp⟩ (fun e => ⟨h, .refl _, by simp⟩) ?_
    rintro data hdata media_type rfl hm
    obtain ⟨record, hrecord, -, -⟩ := ArtifactLedger.artifactRecord_manifestFor
      (sha256.hexdigest data) data media_type (sha256.artifactId data).text r
    simp only [hrecord, Program.bind_done_ok]
    have hview := contents_insert files (.redaction (sha256.artifactId data)) record.canonical
    have hsound := h.insertRedaction (sha256.artifactId data) record.canonical
    have hkeeps := ArtifactContents.Keeps.insertRedaction (contents files) (sha256.artifactId data)
      record.canonical
    rw [← hview] at hsound hkeeps
    apply Program.Always.bind
    refine always_publish_slot (.redaction (sha256.artifactId data)) ?_ ?_ ?_ ?_
    · intro o files' ho hfiles
      have hkept : ArtifactContents.Keeps (contents files) (contents files') := by
        rw [hfiles]
        exact .refl _
      rw [← hfiles] at h
      rcases ho with rfl | ⟨exc, rfl⟩
      · exact ⟨h, hkept, by simp⟩
      · exact ⟨h, hkept, by simp⟩
    · intro _ o files' ho hfiles
      rw [← hfiles] at hsound hkeeps
      rcases ho with rfl | ⟨exc, rfl⟩
      · exact ⟨hsound, hkeeps, by simp⟩
      · exact ⟨hsound, hkeeps, by simp⟩
    · intro hpresent
      show Program.Always _ _ _ _ (Fs.readJson _ >>= _) _
      apply Program.Always.bind
      refine always_quiet (quiet_readJson _) ?_
      rintro (_ | e | existing)
      · exact ⟨h, .refl _, by simp⟩
      · exact ⟨h, .refl _, by simp⟩
      · show Program.Always _ _ _ _ (if _ then _ else _) _
        split
        · exact ⟨h, .refl _, by simp⟩
        · exact always_delete_blob hfree h hdata hpresent media_type existing
    · intro _
      have hred : (contents (files.insert (slotPath (.redaction (sha256.artifactId data)))
          record.canonical) (.redaction (sha256.artifactId data))).isSome := by
        rw [hview, Function.update_self]
        rfl
      refine (always_delete_blob hfree hsound hdata hred media_type record).mono ?_
      intro o files' hleaves
      exact ⟨hleaves.sound, hkeeps.trans hleaves.keeps, hleaves.erased⟩

/-! ## Runs of attempts -/

def attempt (sha256 : Sha256) : ArtifactAttempt Path :=
  Program.attempt fsStep fsRefused (program sha256)

theorem quiet_verify (id : ArtifactId) :
    (verify sha256 id.text).Quiet FsRequest.readsOnly := by
  refine (quiet_readJson _).bind fun manifest => Program.Quiet.bind ?_ fun _ => trivial
  refine (quiet_isPresent _).bind fun redacted => ?_
  cases redacted with
  | true => trivial
  | false =>
      refine (quiet_readJson _).bind fun manifest => ?_
      exact Program.Quiet.bind (p := .done _) trivial fun digest => ⟨rfl, fun _ => trivial⟩

theorem quiet_get_redaction (id : ArtifactId) :
    (get_redaction id.text).Quiet FsRequest.readsOnly := by
  refine (quiet_isPresent _).bind fun present => ?_
  cases present with
  | true => exact (quiet_readJson _).bind fun _ => trivial
  | false => trivial

theorem always_program (hfree : sha256.CollisionFree artifacts)
    (h : ArtifactContents.Sound sha256 artifacts (contents files)) {call : ArtifactCall}
    (hput : ∀ data media_type temp temp', call = .put_bytes data media_type temp temp' →
      data ∈ artifacts) :
    (program sha256 call).Always fsStep fsRefused unprotected
      (LeavesArtifacts sha256 artifacts layout call files) files := by
  cases call with
  | put_bytes data media_type temp temp' =>
      apply Program.Always.map
      exact (always_put_bytes hfree h (hput data media_type temp temp' rfl) media_type temp
        temp').mono fun _ _ hleaves => .of_put hleaves
  | read_bytes id =>
      apply Program.Always.map
      refine (always_read_bytes hfree h id).mono ?_
      rintro o files' ⟨rfl, hread⟩
      exact .of_read h hread
  | verify id =>
      refine always_quiet ((quiet_verify id).bind (f := fun b => pure (ArtifactReturned.verified b))
        fun _ => trivial) fun o => ?_
      exact ⟨h, .refl _, by simp, by simp, by simp⟩
  | redact id r temp =>
      apply Program.Always.map
      exact (always_redact hfree h id r temp).mono fun _ _ hleaves => .of_redaction hleaves
  | get_redaction id =>
      refine always_quiet ((quiet_get_redaction id).bind
        (f := fun t => pure (ArtifactReturned.redaction t)) fun _ => trivial) fun o => ?_
      exact ⟨h, .refl _, by simp, by simp, by simp⟩

theorem keepsIntegrity (sha256 : Sha256) (attempts : List (Program.Attempt ArtifactCall))
    (hfree : sha256.CollisionFree (putArtifacts attempts)) :
    KeepsIntegrity sha256 layout (attempt sha256) attempts := by
  apply keepsIntegrity_of_leaves
  intro files a ha hsound
  refine (always_program hfree hsound ?_).exec (Program.cutAt_none fsStep fsRefused (fun _ => rfl) _ _ _)
  intro data media_type temp temp' hcall
  exact ⟨a, ha, media_type, temp, temp', hcall⟩

end ArtifactStore

end FossilCore
