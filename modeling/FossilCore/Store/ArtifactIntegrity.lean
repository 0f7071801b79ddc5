import FossilCore.Base.Program
import FossilCore.Store.ArtifactLedger
import Mathlib.Data.Set.Function

/-!
# What artifact stores keep

An artifact store writes the blob before its manifest, and a redaction tombstone before it deletes
the blob.  So at every moment a manifest without a tombstone has its blob, and every manifest and
every blob lies under what it is computed from.  The invariant is about the contents of the slots
alone, and each single effect of a call preserves it.
-/

namespace FossilCore

open Base

deriving instance DecidableEq for Digest

deriving instance DecidableEq for ArtifactSlot

abbrev ArtifactContents := ArtifactSlot → Option ByteArray

/-- The id that the bytes of an artifact give. -/
def Sha256.artifactId (sha256 : Sha256) (data : ByteArray) : ArtifactId :=
  (sha256.digest data).artifactId

/-- The bytes of the manifest of an artifact. -/
def Sha256.manifest (sha256 : Sha256) (data : ByteArray) (media_type : String) : ByteArray :=
  (manifestFor (sha256.hexdigest data) data media_type).canonical

/-- No two of the artifacts have an id in common. -/
def Sha256.CollisionFree (sha256 : Sha256) (artifacts : Set ByteArray) : Prop :=
  Set.InjOn sha256.artifactId artifacts

namespace ArtifactContents

/-- What holds of the contents at every moment of every call. -/
structure Sound (sha256 : Sha256) (artifacts : Set ByteArray) (c : ArtifactContents) : Prop where
  blobs : ∀ d data, c (.blob d) = some data → data ∈ artifacts ∧ sha256.digest data = d
  manifests : ∀ id bytes, c (.manifest id) = some bytes → ∃ data ∈ artifacts, ∃ media_type,
    sha256.artifactId data = id ∧ bytes = sha256.manifest data media_type
  kept : ∀ data ∈ artifacts, (c (.manifest (sha256.artifactId data))).isSome →
    c (.redaction (sha256.artifactId data)) = none → c (.blob (sha256.digest data)) = some data

/-- What no call takes back. -/
structure Keeps (c c' : ArtifactContents) : Prop where
  manifests : ∀ id bytes, c (.manifest id) = some bytes → c' (.manifest id) = some bytes
  redactions : ∀ id, (c (.redaction id)).isSome → (c' (.redaction id)).isSome
  erased : ∀ d : Digest, (c (.redaction d.artifactId)).isSome → c (.blob d) = none →
    c' (.blob d) = none

variable {sha256 : Sha256} {artifacts : Set ByteArray} {c c' c'' : ArtifactContents}

theorem sound_empty : Sound sha256 artifacts fun _ => none := by
  constructor <;> simp

theorem Keeps.refl (c : ArtifactContents) : Keeps c c :=
  ⟨fun _ _ h => h, fun _ h => h, fun _ _ h => h⟩

theorem Keeps.trans (h : Keeps c c') (h' : Keeps c' c'') : Keeps c c'' where
  manifests id bytes hm := h'.manifests id bytes (h.manifests id bytes hm)
  redactions id hr := h'.redactions id (h.redactions id hr)
  erased d hr hb := h'.erased d (h.redactions _ hr) (h.erased d hr hb)

/-- An artifact whose blob is missing, and which is not redacted, has no manifest. -/
theorem Sound.manifest_absent (h : Sound sha256 artifacts c) {data : ByteArray}
    (hdata : data ∈ artifacts) (hred : c (.redaction (sha256.artifactId data)) = none)
    (hblob : c (.blob (sha256.digest data)) = none) :
    c (.manifest (sha256.artifactId data)) = none := by
  apply Option.eq_none_iff_forall_ne_some.mpr
  intro bytes hm
  have hkept := h.kept data hdata (by rw [hm]; rfl) hred
  rw [hblob] at hkept
  cases hkept

theorem Sound.blob_eq (hfree : sha256.CollisionFree artifacts) (h : Sound sha256 artifacts c)
    {data data' : ByteArray} (hdata : data ∈ artifacts)
    (hblob : c (.blob (sha256.digest data)) = some data') : data' = data := by
  obtain ⟨hdata', hdigest⟩ := h.blobs _ _ hblob
  exact hfree hdata' hdata (congrArg Digest.artifactId hdigest)

/-! ## The effects -/

theorem Sound.insertBlob (hfree : sha256.CollisionFree artifacts) (h : Sound sha256 artifacts c)
    {data : ByteArray} (hdata : data ∈ artifacts) :
    Sound sha256 artifacts (Function.update c (.blob (sha256.digest data)) (some data)) := by
  refine ⟨?_, ?_, ?_⟩
  · intro d data' hblob
    by_cases hd : d = sha256.digest data
    · subst hd
      rw [Function.update_self] at hblob
      cases hblob
      exact ⟨hdata, rfl⟩
    · rw [Function.update_of_ne (by simpa using hd)] at hblob
      exact h.blobs d data' hblob
  · intro id bytes hm
    rw [Function.update_of_ne (by simp)] at hm
    exact h.manifests id bytes hm
  · intro data' hdata' hm hred
    rw [Function.update_of_ne (by simp)] at hm hred
    by_cases hd : sha256.digest data' = sha256.digest data
    · obtain rfl := hfree hdata' hdata (congrArg Digest.artifactId hd)
      rw [Function.update_self]
    · rw [Function.update_of_ne (by simpa using hd)]
      exact h.kept data' hdata' hm hred

theorem Keeps.insertBlob {d : Digest} {data : ByteArray}
    (hred : c (.redaction d.artifactId) = none) :
    Keeps c (Function.update c (.blob d) (some data)) := by
  refine ⟨?_, ?_, ?_⟩
  · intro id bytes hm
    rwa [Function.update_of_ne (by simp)]
  · intro id hr
    rwa [Function.update_of_ne (by simp)]
  · intro d' hr hblob
    have hne : d' ≠ d := by
      rintro rfl
      rw [hred] at hr
      cases hr
    rwa [Function.update_of_ne (by simpa using hne)]

theorem Sound.insertManifest (hfree : sha256.CollisionFree artifacts)
    (h : Sound sha256 artifacts c) {data : ByteArray} (hdata : data ∈ artifacts)
    (hblob : c (.blob (sha256.digest data)) = some data) (media_type : String) :
    Sound sha256 artifacts (Function.update c (.manifest (sha256.artifactId data))
      (some (sha256.manifest data media_type))) := by
  refine ⟨?_, ?_, ?_⟩
  · intro d data' hd
    rw [Function.update_of_ne (by simp)] at hd
    exact h.blobs d data' hd
  · intro id bytes hm
    by_cases hid : id = sha256.artifactId data
    · subst hid
      rw [Function.update_self] at hm
      cases hm
      exact ⟨data, hdata, media_type, rfl, rfl⟩
    · rw [Function.update_of_ne (by simpa using hid)] at hm
      exact h.manifests id bytes hm
  · intro data' hdata' hm hred
    rw [Function.update_of_ne (by simp)] at hred ⊢
    by_cases hid : sha256.artifactId data' = sha256.artifactId data
    · obtain rfl := hfree hdata' hdata hid
      exact hblob
    · rw [Function.update_of_ne (by simpa using hid)] at hm
      exact h.kept data' hdata' hm hred

theorem Keeps.insertManifest {id : ArtifactId} (hm : c (.manifest id) = none)
    (bytes : ByteArray) : Keeps c (Function.update c (.manifest id) (some bytes)) := by
  refine ⟨?_, ?_, ?_⟩
  · intro id' bytes' hm'
    have hne : id' ≠ id := by
      rintro rfl
      rw [hm] at hm'
      cases hm'
    rwa [Function.update_of_ne (by simpa using hne)]
  · intro id' hr
    rwa [Function.update_of_ne (by simp)]
  · intro d hr hblob
    rwa [Function.update_of_ne (by simp)]

theorem Sound.insertRedaction (h : Sound sha256 artifacts c) (id : ArtifactId)
    (bytes : ByteArray) :
    Sound sha256 artifacts (Function.update c (.redaction id) (some bytes)) := by
  refine ⟨?_, ?_, ?_⟩
  · intro d data hblob
    rw [Function.update_of_ne (by simp)] at hblob
    exact h.blobs d data hblob
  · intro id' bytes' hm
    rw [Function.update_of_ne (by simp)] at hm
    exact h.manifests id' bytes' hm
  · intro data hdata hm hred
    rw [Function.update_of_ne (by simp)] at hm ⊢
    by_cases hid : sha256.artifactId data = id
    · rw [hid, Function.update_self] at hred
      cases hred
    · rw [Function.update_of_ne (by simpa using hid)] at hred
      exact h.kept data hdata hm hred

theorem Keeps.insertRedaction (c : ArtifactContents) (id : ArtifactId) (bytes : ByteArray) :
    Keeps c (Function.update c (.redaction id) (some bytes)) := by
  refine ⟨?_, ?_, ?_⟩
  · intro id' bytes' hm
    rwa [Function.update_of_ne (by simp)]
  · intro id' hr
    by_cases hid : id' = id
    · subst hid
      rw [Function.update_self]
      rfl
    · rwa [Function.update_of_ne (by simpa using hid)]
  · intro d hr hblob
    rwa [Function.update_of_ne (by simp)]

theorem Sound.eraseBlob (h : Sound sha256 artifacts c) {d : Digest}
    (hred : (c (.redaction d.artifactId)).isSome) :
    Sound sha256 artifacts (Function.update c (.blob d) none) := by
  refine ⟨?_, ?_, ?_⟩
  · intro d' data hblob
    by_cases hd : d' = d
    · subst hd
      rw [Function.update_self] at hblob
      cases hblob
    · rw [Function.update_of_ne (by simpa using hd)] at hblob
      exact h.blobs d' data hblob
  · intro id bytes hm
    rw [Function.update_of_ne (by simp)] at hm
    exact h.manifests id bytes hm
  · intro data hdata hm hnone
    rw [Function.update_of_ne (by simp)] at hm hnone
    have hne : sha256.digest data ≠ d := by
      rintro rfl
      rw [show c (.redaction (sha256.digest data).artifactId) = none from hnone] at hred
      cases hred
    rw [Function.update_of_ne (by simpa using hne)]
    exact h.kept data hdata hm hnone

theorem Keeps.eraseBlob (c : ArtifactContents) (d : Digest) :
    Keeps c (Function.update c (.blob d) none) := by
  refine ⟨?_, ?_, ?_⟩
  · intro id bytes hm
    rwa [Function.update_of_ne (by simp)]
  · intro id hr
    rwa [Function.update_of_ne (by simp)]
  · intro d' hr hblob
    by_cases hd : d' = d
    · subst hd
      exact Function.update_self _ _ _
    · rwa [Function.update_of_ne (by simpa using hd)]

/-- A redacted artifact has no blob left, whatever digest its id has. -/
def Erased (c : ArtifactContents) (id : ArtifactId) : Prop :=
  (c (.redaction id)).isSome ∧ ∀ d : Digest, d.artifactId = id → c (.blob d) = none

theorem Erased.keep {id : ArtifactId} (h : Erased c id) (hkeeps : Keeps c c') : Erased c' id := by
  refine ⟨hkeeps.redactions id h.1, ?_⟩
  rintro d rfl
  exact hkeeps.erased d h.1 (h.2 d rfl)

/-- The deletion of the blob that the manifest of a redacted artifact names. -/
theorem Sound.erased (hfree : sha256.CollisionFree artifacts) (h : Sound sha256 artifacts c)
    {data : ByteArray} (hdata : data ∈ artifacts)
    (hred : (c (.redaction (sha256.artifactId data))).isSome) :
    Erased (Function.update c (.blob (sha256.digest data)) none) (sha256.artifactId data) := by
  refine ⟨by rwa [Function.update_of_ne (by simp)], ?_⟩
  intro d hd
  by_cases heq : d = sha256.digest data
  · subst heq
    exact Function.update_self _ _ _
  · rw [Function.update_of_ne (by simpa using heq)]
    apply Option.eq_none_iff_forall_ne_some.mpr
    intro data' hblob
    obtain ⟨hdata', rfl⟩ := h.blobs d data' hblob
    exact heq (congrArg sha256.digest (hfree hdata' hdata hd))

/-- The manifest of the id records the hash and the length of the bytes, and they give the id. -/
structure Recorded (sha256 : Sha256) (c : ArtifactContents) (id : ArtifactId)
    (data : ByteArray) : Prop where
  id_eq : id = sha256.artifactId data
  manifest : ∃ media_type, c (.manifest id) = some (sha256.manifest data media_type)

/-- What lies under the digest of the manifest of an id is what the manifest was made for. -/
theorem Sound.recorded (hfree : sha256.CollisionFree artifacts) (h : Sound sha256 artifacts c)
    {data data' : ByteArray} (hdata : data ∈ artifacts) {media_type : String}
    (hm : c (.manifest (sha256.artifactId data)) = some (sha256.manifest data media_type))
    (hblob : c (.blob (sha256.digest data)) = some data') :
    Recorded sha256 c (sha256.artifactId data) data' := by
  obtain rfl := h.blob_eq hfree hdata hblob
  exact ⟨rfl, media_type, hm⟩

end ArtifactContents

section Attempts

variable {κ : Type} [Ord κ] [Std.TransOrd κ]

/-- What a call leaves behind, finished or stopped, and what its answer means. -/
structure LeavesArtifacts (sha256 : Sha256) (artifacts : Set ByteArray) (L : Layout ArtifactSlot κ)
    (call : ArtifactCall) (m : KeyMap κ ByteArray) (o : Option (Except Error ArtifactReturned))
    (m' : KeyMap κ ByteArray) : Prop where
  sound : ArtifactContents.Sound sha256 artifacts (L.view m')
  keeps : ArtifactContents.Keeps (L.view m) (L.view m')
  read : ∀ id data, call = .read_bytes id → o = some (.ok (.data data)) →
    ArtifactContents.Recorded sha256 (L.view m) id data
  conflict : ∀ data media_type temp temp' e, call = .put_bytes data media_type temp temp' →
    o = some (.error e) → e.cls = .artifactIntegrityError → m' = m
  redacted : ∀ id r temp t, call = .redact id r temp → o = some (.ok t) →
    ArtifactContents.Erased (L.view m') id

/-- What a put of the bytes, or its second half, leaves behind. -/
structure LeavesPut {α : Type} (sha256 : Sha256) (artifacts : Set ByteArray)
    (L : Layout ArtifactSlot κ) (data : ByteArray) (m : KeyMap κ ByteArray)
    (o : Option (Except Error α)) (m' : KeyMap κ ByteArray) : Prop where
  sound : ArtifactContents.Sound sha256 artifacts (L.view m')
  keeps : ArtifactContents.Keeps (L.view m) (L.view m')
  conflict : ∀ e, o = some (.error e) → e.cls = .artifactIntegrityError →
    m' = m ∧ (L.view m (.manifest (sha256.artifactId data))).isSome

theorem cls_ofPython_ne (exc : PyException) :
    (Error.ofPython exc).cls ≠ .artifactIntegrityError := by
  simp [Error.ofPython]

/-- Nothing is a conflict when the process was stopped or a built-in exception was raised. -/
theorem LeavesPut.of_python {α : Type} {sha256 : Sha256} {artifacts : Set ByteArray}
    {L : Layout ArtifactSlot κ} {data : ByteArray} {m m' : KeyMap κ ByteArray}
    {o : Option (Except Error α)} (ho : o = none ∨ ∃ exc, o = some (.error (.ofPython exc)))
    (hsound : ArtifactContents.Sound sha256 artifacts (L.view m'))
    (hkeeps : ArtifactContents.Keeps (L.view m) (L.view m')) :
    LeavesPut sha256 artifacts L data m o m' := by
  refine ⟨hsound, hkeeps, ?_⟩
  rintro e rfl hcls
  rcases ho with hnone | ⟨exc, hexc⟩
  · cases hnone
  · cases hexc
    exact (cls_ofPython_ne exc hcls).elim

/-- What a redaction leaves behind: the blob is gone once it has returned. -/
structure LeavesRedaction (sha256 : Sha256) (artifacts : Set ByteArray)
    (L : Layout ArtifactSlot κ) (id : ArtifactId) (m : KeyMap κ ByteArray)
    (o : Option (Except Error Json)) (m' : KeyMap κ ByteArray) : Prop where
  sound : ArtifactContents.Sound sha256 artifacts (L.view m')
  keeps : ArtifactContents.Keeps (L.view m) (L.view m')
  erased : ∀ t, o = some (.ok t) → ArtifactContents.Erased (L.view m') id

namespace LeavesArtifacts

variable {sha256 : Sha256} {artifacts : Set ByteArray} {L : Layout ArtifactSlot κ}
  {m m' : KeyMap κ ByteArray}

theorem of_put {data : ByteArray} {media_type temp temp' : String}
    {o : Option (Except Error Json)} (h : LeavesPut sha256 artifacts L data m o m') :
    LeavesArtifacts sha256 artifacts L (.put_bytes data media_type temp temp') m
      (o.map (Except.map ArtifactReturned.document)) m' := by
  refine ⟨h.sound, h.keeps, by simp, ?_, by simp⟩
  intro _ _ _ _ e _ ho hcls
  match o with
  | none => cases ho
  | some (.ok manifest) => cases ho
  | some (.error e') =>
      cases ho
      exact (h.conflict _ rfl hcls).1

theorem of_redaction {id : ArtifactId} {r : RedactionRequest} {temp : String}
    {o : Option (Except Error Json)} (h : LeavesRedaction sha256 artifacts L id m o m') :
    LeavesArtifacts sha256 artifacts L (.redact id r temp) m
      (o.map (Except.map ArtifactReturned.document)) m' := by
  refine ⟨h.sound, h.keeps, by simp, by simp, ?_⟩
  rintro _ _ _ t ⟨⟩ ho
  match o with
  | none => cases ho
  | some (.error e) => cases ho
  | some (.ok record) => exact h.erased record rfl

theorem of_read (h : ArtifactContents.Sound sha256 artifacts (L.view m)) {id : ArtifactId}
    {o : Option (Except Error ByteArray)} (hread : ∀ data, o = some (.ok data) →
      ArtifactContents.Recorded sha256 (L.view m) id data) :
    LeavesArtifacts sha256 artifacts L (.read_bytes id) m
      (o.map (Except.map ArtifactReturned.data)) m := by
  refine ⟨h, .refl _, ?_, by simp, by simp⟩
  rintro _ data ⟨⟩ ho
  match o with
  | none => cases ho
  | some (.error e) => cases ho
  | some (.ok bytes) =>
      cases ho
      exact hread data rfl

end LeavesArtifacts

abbrev ArtifactAttempt (κ : Type) [Ord κ] :=
  KeyMap κ ByteArray → Program.Attempt ArtifactCall →
    Option (Except Error ArtifactReturned) × KeyMap κ ByteArray

/-- The bytes that the calls of a run put. -/
def putArtifacts (attempts : List (Program.Attempt ArtifactCall)) : Set ByteArray :=
  {data | ∃ a ∈ attempts, ∃ media_type temp temp', a.call = .put_bytes data media_type temp temp'}

/-- Whatever the attempts of a run: reads give recorded bytes, manifests stay, a conflict changes
nothing, and a redacted blob stays away. -/
structure KeepsIntegrity (sha256 : Sha256) (L : Layout ArtifactSlot κ)
    (attempt : ArtifactAttempt κ) (attempts : List (Program.Attempt ArtifactCall)) : Prop where
  reads : ∀ before id script rest data, attempts = before ++ ⟨.read_bytes id, script⟩ :: rest →
    (attempt (Runs.after attempt ∅ before) ⟨.read_bytes id, script⟩).1 = some (.ok (.data data)) →
    ArtifactContents.Recorded sha256 (L.view (Runs.after attempt ∅ before)) id data
  manifests : ∀ before rest id bytes, attempts = before ++ rest →
    (Runs.after attempt ∅ before)[L.key (.manifest id)]? = some bytes →
    (Runs.after attempt ∅ attempts)[L.key (.manifest id)]? = some bytes
  conflicts : ∀ before data media_type temp temp' script rest e,
    attempts = before ++ ⟨.put_bytes data media_type temp temp', script⟩ :: rest →
    (attempt (Runs.after attempt ∅ before)
      ⟨.put_bytes data media_type temp temp', script⟩).1 = some (.error e) →
    e.cls = .artifactIntegrityError →
    (attempt (Runs.after attempt ∅ before) ⟨.put_bytes data media_type temp temp', script⟩).2 =
      Runs.after attempt ∅ before
  redactions : ∀ before id r temp script rest t,
    attempts = before ++ ⟨.redact id r temp, script⟩ :: rest →
    (attempt (Runs.after attempt ∅ before) ⟨.redact id r temp, script⟩).1 = some (.ok t) →
    ∀ d : Digest, d.artifactId = id → (Runs.after attempt ∅ attempts)[L.key (.blob d)]? = none

/-- Attempts that each leave artifacts as they should do so over every run. -/
theorem keepsIntegrity_of_leaves {sha256 : Sha256} {L : Layout ArtifactSlot κ}
    {attempt : ArtifactAttempt κ} {attempts : List (Program.Attempt ArtifactCall)}
    (hstep : ∀ m, ∀ a ∈ attempts, ArtifactContents.Sound sha256 (putArtifacts attempts) (L.view m) →
      LeavesArtifacts sha256 (putArtifacts attempts) L a.call m (attempt m a).1 (attempt m a).2) :
    KeepsIntegrity sha256 L attempt attempts := by
  have hempty : ArtifactContents.Sound sha256 (putArtifacts attempts) (L.view ∅) := by
    rw [Layout.view_empty]
    exact ArtifactContents.sound_empty
  have hsound : ∀ before rest, attempts = before ++ rest →
      ArtifactContents.Sound sha256 (putArtifacts attempts) (L.view (Runs.after attempt ∅ before)) := by
    intro before rest hsplit
    refine Runs.invariant (P := fun m => ArtifactContents.Sound sha256 (putArtifacts attempts) (L.view m)) hempty ?_
    intro m a ha hm
    exact (hstep m a (hsplit ▸ List.mem_append_left rest ha) hm).sound
  have hkeeps : ∀ before rest, attempts = before ++ rest →
      ArtifactContents.Keeps (L.view (Runs.after attempt ∅ before)) (L.view (Runs.after attempt ∅ attempts)) := by
    intro before rest hsplit
    have hafter : Runs.after attempt ∅ attempts =
        Runs.after attempt (Runs.after attempt ∅ before) rest := by
      rw [← Runs.after_append, ← hsplit]
    rw [hafter]
    refine (Runs.invariant (P := fun m => ArtifactContents.Sound sha256 (putArtifacts attempts) (L.view m) ∧
      ArtifactContents.Keeps (L.view (Runs.after attempt ∅ before)) (L.view m)) ⟨hsound before rest hsplit, .refl _⟩
      ?_).2
    rintro m a ha ⟨hm, hkept⟩
    have hleaves := hstep m a (hsplit ▸ List.mem_append_right before ha) hm
    exact ⟨hleaves.sound, hkept.trans hleaves.keeps⟩
  have hleaves : ∀ before a rest, attempts = before ++ a :: rest →
      LeavesArtifacts sha256 (putArtifacts attempts) L a.call (Runs.after attempt ∅ before)
        (attempt (Runs.after attempt ∅ before) a).1
        (attempt (Runs.after attempt ∅ before) a).2 := by
    intro before a rest hsplit
    exact hstep _ a (hsplit ▸ List.mem_append_right before List.mem_cons_self)
      (hsound before _ hsplit)
  refine ⟨?_, ?_, ?_, ?_⟩
  · intro before id script rest data hsplit ho
    exact (hleaves before _ rest hsplit).read id data rfl ho
  · intro before rest id bytes hsplit hm
    exact (hkeeps before rest hsplit).manifests id bytes hm
  · intro before data media_type temp temp' script rest e hsplit ho hcls
    exact (hleaves before _ rest hsplit).conflict data media_type temp temp' e rfl ho hcls
  · intro before id r temp script rest t hsplit ho d hd
    have herased := (hleaves before _ rest hsplit).redacted id r temp t rfl ho
    have hlater := hkeeps (before ++ [⟨.redact id r temp, script⟩]) rest (by simp [hsplit])
    rw [Runs.after_append] at hlater
    exact (herased.keep hlater).2 d hd

end Attempts

end FossilCore
