import FossilCore.Base.Separated
import FossilCore.Conversation.Store
import FossilCore.Store.ArtifactGrowth

/-!
# Source ids

The id of a source is a digest of four texts joined with a separator, two of which are free.
Two different sources can be joined to one text; when they cannot is decided here.
-/

namespace FossilCore

open Base

/-- The shortened digests of two texts agree only when the texts do. -/
def Sha256.Separates (sha256 : Sha256) (length : ℕ) (s t : String) : Prop :=
  Text.take (sha256.hexdigest s.toUTF8) length = Text.take (sha256.hexdigest t.toUTF8) length →
    s = t

namespace ArtifactStore

variable {sha256 : Sha256} {files files' : Files}

theorem put_manifest_returns {artifact_id temp : String} {manifest v : Json}
    (h : (put_manifest artifact_id manifest temp).run fsStep files = (.ok v, files')) :
    v = manifest := by
  obtain ⟨published, files₁, -, h⟩ := (Program.run_bind_eq_ok _).mp h
  cases published with
  | true =>
      cases h
      rfl
  | false =>
      obtain ⟨existing, files₂, -, h⟩ := (Program.run_bind_eq_ok _).mp h
      split at h
      · cases h
      · cases h
        rfl

/-- Whatever the files are, a put that succeeds returns the manifest of its bytes. -/
theorem put_bytes_returns {data : ByteArray} {media_type temp temp' : String} {v : Json}
    (h : (put_bytes sha256 data media_type temp temp').run fsStep files = (.ok v, files')) :
    v = manifestFor (sha256.hexdigest data) data media_type := by
  obtain ⟨redacted, files₁, -, h⟩ := (Program.run_bind_eq_ok _).mp h
  cases redacted with
  | true => cases h
  | false =>
      obtain ⟨published, files₂, -, h⟩ := (Program.run_bind_eq_ok _).mp h
      cases published with
      | true => exact put_manifest_returns h
      | false =>
          obtain ⟨existing, files₃, -, h⟩ := (Program.run_bind_eq_ok _).mp h
          split at h
          · cases h
          · exact put_manifest_returns h

end ArtifactStore

namespace ConversationStore

variable {sha256 : Sha256} {call call' : AddSource} {files files' : ConversationFiles}
  {source source' : Json}

/-! ## What is hashed -/

def sourceStatuses : List String := ["verbatim", "reconstructed"]

def artifactIdOf (sha256 : Sha256) (call : AddSource) : String :=
  artifact_id_for_digest (sha256.hexdigest call.data)

/-- The text that the id of a source is the digest of. -/
def sourceText (sha256 : Sha256) (call : AddSource) : String :=
  Text.join "\x1f" [artifactIdOf sha256 call, call.evidence_status, call.label,
    call.external_ref.getD ""]

def sourceWith (sha256 : Sha256) (call : AddSource) : Json :=
  .ofMembers [
    ("source_id", .str ("src" ++ "_" ++
      Text.take (sha256.hexdigest (sourceText sha256 call).toUTF8) 20)),
    ("artifact_id", .str (artifactIdOf sha256 call)),
    ("evidence_status", .str call.evidence_status),
    ("label", .str call.label),
    ("media_type", .str call.media_type),
    ("external_ref", SourceSnapshotStore.optionalText call.external_ref)]

theorem sourceFor_manifestFor :
    sourceFor sha256 call.evidence_status call.media_type call.label call.external_ref
        (manifestFor (sha256.hexdigest call.data) call.data call.media_type) =
      .ok (sourceWith sha256 call) := by
  have hid := liftPy_eq_ok.mpr (Json.getItem_of_get? (ArtifactLedger.get?_artifact_id
    (sha256.hexdigest call.data) call.data call.media_type))
  rw [sourceFor, hid]
  rfl

/-- A source that is returned is the one that its call describes. -/
theorem add_source_ok (h : (add_source sha256 call files).1 = .ok source) :
    call.evidence_status ∈ sourceStatuses ∧ source = sourceWith sha256 call ∧
      ∃ manifest artifacts, (ArtifactStore.put_bytes sha256 call.data call.media_type
        call.blob_uuid call.manifest_uuid).run fsStep files.artifacts =
          (.ok manifest, artifacts) := by
  unfold add_source at h
  split at h
  · cases h
  · next hstatus =>
      obtain ⟨manifest, hput, hsource⟩ := bind_eq_ok.mp h
      have hrun : (ArtifactStore.put_bytes sha256 call.data call.media_type call.blob_uuid
          call.manifest_uuid).run fsStep files.artifacts = (.ok manifest, _) :=
        Prod.ext hput rfl
      rw [ArtifactStore.put_bytes_returns hrun, sourceFor_manifestFor] at hsource
      refine ⟨?_, (Except.ok.inj hsource).symm, manifest, _, hrun⟩
      simp only [sourceStatuses, List.mem_cons, List.not_mem_nil, or_false]
      by_contra hnone
      exact hstatus (not_or.mp hnone)

theorem add_source_of_put {manifest : Json} {artifacts : Files}
    (hstatus : call.evidence_status ∈ sourceStatuses)
    (h : (ArtifactStore.put_bytes sha256 call.data call.media_type call.blob_uuid
      call.manifest_uuid).run fsStep files.artifacts = (.ok manifest, artifacts)) :
    (add_source sha256 call files).1 = .ok (sourceWith sha256 call) := by
  unfold add_source
  rw [if_neg]
  · show (Prod.fst _ >>= _) = _
    rw [h]
    show sourceFor sha256 _ _ _ _ manifest = _
    rw [ArtifactStore.put_bytes_returns h, sourceFor_manifestFor]
  · simp only [sourceStatuses, List.mem_cons, List.not_mem_nil, or_false] at hstatus
    rintro ⟨hverbatim, hreconstructed⟩
    exact hstatus.elim hverbatim hreconstructed

theorem add_source_of_storedAs {l : ArtifactLedger} {manifest : Json}
    (hstored : (ArtifactLedger.model sha256).StoredAs ArtifactStore.layout l files.artifacts)
    (hstatus : call.evidence_status ∈ sourceStatuses)
    (hput : (l.put_bytes sha256 call.data call.media_type).1 = .ok manifest) :
    (add_source sha256 call files).1 = .ok (sourceWith sha256 call) := by
  obtain ⟨hsame, -⟩ := ArtifactStore.run_put_bytes hstored.valid hstored.holds call.data
    call.media_type call.blob_uuid call.manifest_uuid
  rw [hput] at hsame
  exact add_source_of_put hstatus (Prod.ext hsame.ok_right rfl)

/-- A store without files takes any source. -/
theorem add_source_empty (hstatus : call.evidence_status ∈ sourceStatuses) :
    (add_source sha256 call ⟨∅, ∅⟩).1 = .ok (sourceWith sha256 call) := by
  have hput : (ArtifactLedger.empty.put_bytes sha256 call.data call.media_type).1 =
      .ok (manifestFor (sha256.hexdigest call.data) call.data call.media_type) := by
    simp [ArtifactLedger.put_bytes, ArtifactLedger.putManifest, ArtifactLedger.empty]
  exact add_source_of_storedAs (storedAs_emptyArtifacts sha256) hstatus hput

/-! ## One text for two sources -/

theorem separator_notMem_artifactId (sha256 : Sha256) (call : AddSource) :
    '\x1f' ∉ (artifactIdOf sha256 call).toList := by
  intro hc
  rw [artifactIdOf, artifact_id_for_digest, String.toList_append, Text.toList_take,
    List.mem_append] at hc
  rcases hc with hc | hc
  · exact absurd hc (by decide)
  · have hhex := sha256.isHexChar_hexdigest call.data '\x1f' (List.mem_of_mem_take hc)
    exact absurd hhex (by decide)

theorem separator_notMem_status {status : String} (h : status ∈ sourceStatuses) :
    '\x1f' ∉ status.toList := by
  simp only [sourceStatuses, List.mem_cons, List.not_mem_nil, or_false] at h
  rcases h with rfl | rfl <;> decide

/-- The artifact and the status can be read off the hashed text; of the label and the reference
only the joined text can. -/
theorem sourceText_eq_iff (h : call.evidence_status ∈ sourceStatuses)
    (h' : call'.evidence_status ∈ sourceStatuses) :
    sourceText sha256 call = sourceText sha256 call' ↔
      artifactIdOf sha256 call = artifactIdOf sha256 call' ∧
        call.evidence_status = call'.evidence_status ∧
        call.label.toList ++ '\x1f' :: (call.external_ref.getD "").toList =
          call'.label.toList ++ '\x1f' :: (call'.external_ref.getD "").toList := by
  have hsep : ("\x1f" : String).toList = ['\x1f'] := rfl
  rw [sourceText, sourceText, Text.join_cons_inj hsep (separator_notMem_artifactId sha256 call)
    (separator_notMem_artifactId sha256 call'), Text.join_cons_inj hsep (separator_notMem_status h)
    (separator_notMem_status h'), ← @String.toList_inj (Text.join _ _), Text.toList_join_cons,
    Text.toList_join_cons, hsep]
  rfl

/-- The members of a source that its id is there to tell apart. -/
def SameSource (source source' : Json) : Prop :=
  ∀ key ∈ ["artifact_id", "evidence_status", "label", "external_ref"],
    source.get? key = source'.get? key

theorem optionalText_inj {s t : Option String} :
    SourceSnapshotStore.optionalText s = SourceSnapshotStore.optionalText t ↔ s = t := by
  cases s <;> cases t <;> simp [SourceSnapshotStore.optionalText]

theorem get?_sourceWith (sha256 : Sha256) (call : AddSource) :
    (sourceWith sha256 call).get? "artifact_id" = some (.str (artifactIdOf sha256 call)) ∧
      (sourceWith sha256 call).get? "evidence_status" = some (.str call.evidence_status) ∧
      (sourceWith sha256 call).get? "label" = some (.str call.label) ∧
      (sourceWith sha256 call).get? "external_ref" =
        some (SourceSnapshotStore.optionalText call.external_ref) := by
  unfold sourceWith
  simp only [Json.get?_ofMembers]
  exact ⟨rfl, rfl, rfl, rfl⟩

theorem sameSource_iff :
    SameSource (sourceWith sha256 call) (sourceWith sha256 call') ↔
      artifactIdOf sha256 call = artifactIdOf sha256 call' ∧
        call.evidence_status = call'.evidence_status ∧ call.label = call'.label ∧
        call.external_ref = call'.external_ref := by
  obtain ⟨hartifact, hevidence, hlabel, href⟩ := get?_sourceWith sha256 call
  obtain ⟨hartifact', hevidence', hlabel', href'⟩ := get?_sourceWith sha256 call'
  simp only [SameSource, List.forall_mem_cons, hartifact, hartifact', hevidence, hevidence', hlabel,
    hlabel', href, href', Option.some.injEq, Json.str.injEq, optionalText_inj, List.not_mem_nil,
    false_implies, implies_true, and_true]

theorem source_id_eq_iff :
    strAt (sourceWith sha256 call) "source_id" = strAt (sourceWith sha256 call') "source_id" ↔
      Text.take (sha256.hexdigest (sourceText sha256 call).toUTF8) 20 =
        Text.take (sha256.hexdigest (sourceText sha256 call').toUTF8) 20 := by
  have hid : ∀ call, strAt (sourceWith sha256 call) "source_id" =
      "src" ++ "_" ++ Text.take (sha256.hexdigest (sourceText sha256 call).toUTF8) 20 := by
    intro call
    unfold strAt sourceWith
    rw [Json.get?_ofMembers]
    rfl
  rw [hid, hid]
  exact ⟨Text.append_left_cancel, fun h => by rw [h]⟩

/-! ## Calls that no other call can be taken for -/

/-- The label and the reference of a call can be told from the text that they are joined to. -/
def Plain (call : AddSource) : Prop :=
  '\x1f' ∉ call.label.toList ∧
    ∃ ref, call.external_ref = some ref ∧ ref ≠ "" ∧ '\x1f' ∉ ref.toList

theorem eq_of_plain (h : Plain call)
    (heq : call.label.toList ++ '\x1f' :: (call.external_ref.getD "").toList =
      call'.label.toList ++ '\x1f' :: (call'.external_ref.getD "").toList) :
    call.label = call'.label ∧ call.external_ref = call'.external_ref := by
  obtain ⟨hlabel, ref, href, hne, hsep⟩ := h
  rw [href] at heq ⊢
  obtain ⟨hl, -, hr⟩ := (List.append_cons_inj_of_notMem hlabel hsep).mp heq
  refine ⟨String.toList_inj.mp hl, ?_⟩
  replace hr := String.toList_inj.mp hr
  cases hexternal : call'.external_ref with
  | none =>
      rw [hexternal] at hr
      exact absurd hr hne
  | some ref' =>
      rw [hexternal] at hr
      rw [hr]
      rfl

/-- Any other call can be taken for one with another label or another reference. -/
theorem exists_other_of_not_plain (h : ¬Plain call) :
    ∃ label external_ref, label.toList ++ '\x1f' :: (external_ref.getD "").toList =
        call.label.toList ++ '\x1f' :: (call.external_ref.getD "").toList ∧
      ¬(call.label = label ∧ call.external_ref = external_ref) := by
  cases href : call.external_ref with
  | none => exact ⟨call.label, some "", rfl, by simp⟩
  | some ref =>
      by_cases hempty : ref = ""
      · exact ⟨call.label, none, by rw [hempty]; rfl, by simp⟩
      · have hmem : '\x1f' ∈ call.label.toList ∨ '\x1f' ∈ ref.toList := by
          by_contra hnone
          obtain ⟨hlabel, hsep⟩ := not_or.mp hnone
          exact h ⟨hlabel, ref, href, hempty, hsep⟩
        obtain ⟨label, rest, heq, hne⟩ := exists_other_cut_iff.mpr hmem
        refine ⟨String.ofList label, some (String.ofList rest), by simpa using heq, ?_⟩
        rintro ⟨hlabel, -⟩
        exact hne (by rw [hlabel, String.toList_ofList])

/-- No call that succeeds returns a different source under the id of this one. -/
def SourceIdTells (sha256 : Sha256) (call : AddSource) (source : Json) : Prop :=
  ∀ call' files' source', (add_source sha256 call' files').1 = .ok source' →
    sha256.Separates 20 (sourceText sha256 call) (sourceText sha256 call') →
      strAt source "source_id" = strAt source' "source_id" → SameSource source source'

theorem sourceIdTells_iff (h : (add_source sha256 call files).1 = .ok source) :
    SourceIdTells sha256 call source ↔ Plain call := by
  obtain ⟨hstatus, rfl, manifest, artifacts, hput⟩ := add_source_ok h
  constructor
  · intro htells
    by_contra hplain
    obtain ⟨label, external_ref, heq, hne⟩ := exists_other_of_not_plain hplain
    let other : AddSource := { call with label, external_ref }
    have hother : (add_source sha256 other files).1 = .ok (sourceWith sha256 other) :=
      @add_source_of_put sha256 other files _ _ hstatus hput
    have htext : sourceText sha256 call = sourceText sha256 other :=
      (@sourceText_eq_iff sha256 call other hstatus hstatus).mpr ⟨rfl, rfl, heq.symm⟩
    have hsame := htells other files _ hother (fun _ => htext)
      (source_id_eq_iff.mpr (by rw [htext]))
    exact hne (sameSource_iff.mp hsame).2.2
  · intro hplain call' files' source' h' hseparates hid
    obtain ⟨hstatus', rfl, -⟩ := add_source_ok h'
    have htext := hseparates (source_id_eq_iff.mp hid)
    obtain ⟨hartifact, hevidence, hrest⟩ := (sourceText_eq_iff hstatus hstatus').mp htext
    exact sameSource_iff.mpr ⟨hartifact, hevidence, eq_of_plain hplain hrest⟩

end ConversationStore

end FossilCore
