import FossilCore.Store.ArtifactLedger

/-!
# Artifacts are only added

A ledger that grows keeps every blob and every manifest under its id, and its tombstones; what
was read from it is read from it again.  What is put is there to be read.
-/

namespace FossilCore

open Base

namespace ArtifactLedger

structure Grows (l l' : ArtifactLedger) : Prop where
  blobs : ∀ (digest : String) data, l.blobs[digest]? = some data → l'.blobs[digest]? = some data
  manifests : ∀ (id : String) manifest, l.manifests[id]? = some manifest →
    l'.manifests[id]? = some manifest
  redactions : l'.redactions = l.redactions

variable {l l' l'' : ArtifactLedger}

theorem Grows.refl (l : ArtifactLedger) : Grows l l := ⟨fun _ _ h => h, fun _ _ h => h, rfl⟩

theorem Grows.trans (h : Grows l l') (h' : Grows l' l'') : Grows l l'' := by
  refine ⟨?_, ?_, h'.redactions.trans h.redactions⟩
  · exact fun digest data hdata => h'.blobs digest data (h.blobs digest data hdata)
  · exact fun id manifest hmanifest => h'.manifests id manifest (h.manifests id manifest hmanifest)

theorem grows_insertBlob {digest : String} {data : ByteArray} (hfree : l.blobs[digest]? = none) :
    Grows l { l with blobs := l.blobs.insert digest data } := by
  refine ⟨?_, fun _ _ h => h, rfl⟩
  intro other bytes hbytes
  have hne : digest ≠ other := by
    rintro rfl
    rw [hfree] at hbytes
    cases hbytes
  rw [KeyMap.get?_insert_ne _ _ hne]
  exact hbytes

theorem grows_putManifest (artifact_id : String) (manifest : Json) :
    Grows l (l.putManifest artifact_id manifest).2 := by
  rw [putManifest]
  cases hm : l.manifests[artifact_id]? with
  | none =>
      refine ⟨fun _ _ h => h, ?_, rfl⟩
      intro other existing hexisting
      have hne : artifact_id ≠ other := by
        rintro rfl
        rw [hm] at hexisting
        cases hexisting
      rw [KeyMap.get?_insert_ne _ _ hne]
      exact hexisting
  | some existing =>
      by_cases heq : existing = manifest
      · simp only [heq, if_true]
        exact Grows.refl l
      · simp only [heq, if_false]
        exact Grows.refl l

theorem grows_put_bytes (sha256 : Sha256) (data : ByteArray) (media_type : String) :
    Grows l (l.put_bytes sha256 data media_type).2 := by
  rw [put_bytes]
  dsimp only
  split_ifs
  · exact Grows.refl l
  · cases hblob : l.blobs[sha256.hexdigest data]? with
    | none => exact (grows_insertBlob hblob).trans (grows_putManifest _ _)
    | some existing =>
        by_cases heq : existing = data
        · simp only [heq, if_true]
          exact grows_putManifest _ _
        · simp only [heq, if_false]
          exact Grows.refl l

theorem Grows.get_manifest (h : Grows l l') {id : String} {manifest : Json}
    (hget : l.get_manifest id = .ok manifest) : l'.get_manifest id = .ok manifest := by
  rw [ArtifactLedger.get_manifest] at hget ⊢
  cases hm : l.manifests[id]? with
  | none =>
      rw [hm] at hget
      cases hget
  | some existing =>
      rw [hm] at hget
      rw [h.manifests id existing hm]
      exact hget

theorem Grows.read_blob (h : Grows l l') {digest : String} {data : ByteArray}
    (hread : l.read_blob digest = .ok data) : l'.read_blob digest = .ok data := by
  rw [ArtifactLedger.read_blob] at hread ⊢
  cases hb : l.blobs[digest]? with
  | none =>
      rw [hb] at hread
      cases hread
  | some existing =>
      rw [hb] at hread
      rw [h.blobs digest existing hb]
      exact hread

theorem Grows.read_bytes (h : Grows l l') {id : String} {data : ByteArray}
    (hread : l.read_bytes id = .ok data) : l'.read_bytes id = .ok data := by
  rw [ArtifactLedger.read_bytes] at hread ⊢
  rw [h.redactions]
  split_ifs at hread ⊢
  obtain ⟨manifest, hmanifest, hrest⟩ := bind_eq_ok.mp hread
  obtain ⟨digest, hdigest, hblob⟩ := bind_eq_ok.mp hrest
  rw [h.get_manifest hmanifest]
  show (digestText manifest >>= fun digest => l'.read_blob digest) = _
  rw [hdigest]
  exact h.read_blob hblob

/-! ## What is put -/

/-- The ledger has the bytes under their digest, with this manifest, and no tombstone. -/
structure Has (sha256 : Sha256) (l : ArtifactLedger) (data : ByteArray) (media_type : String) :
    Prop where
  blob : l.blobs[sha256.hexdigest data]? = some data
  manifest : l.manifests[artifact_id_for_digest (sha256.hexdigest data)]? =
    some (manifestFor (sha256.hexdigest data) data media_type)
  unredacted : l.redactions[artifact_id_for_digest (sha256.hexdigest data)]? = none

theorem putManifest_ok {artifact_id : String} {manifest v : Json}
    (h : (l.putManifest artifact_id manifest).1 = .ok v) :
    v = manifest ∧ (l.putManifest artifact_id manifest).2.manifests[artifact_id]? =
        some manifest ∧
      (l.putManifest artifact_id manifest).2.blobs = l.blobs ∧
      (l.putManifest artifact_id manifest).2.redactions = l.redactions := by
  rw [putManifest] at h ⊢
  cases hm : l.manifests[artifact_id]? with
  | none =>
      simp only [hm] at h ⊢
      cases h
      exact ⟨rfl, KeyMap.get?_insert_self _ _ _, trivial, trivial⟩
  | some existing =>
      simp only [hm] at h ⊢
      by_cases heq : existing = manifest
      · simp only [heq, if_true] at h ⊢
        cases h
        exact ⟨rfl, by rw [hm, heq], trivial, trivial⟩
      · simp only [heq, if_false] at h
        cases h

theorem put_bytes_ok {sha256 : Sha256} {data : ByteArray} {media_type : String} {v : Json}
    (h : (l.put_bytes sha256 data media_type).1 = .ok v) :
    v = manifestFor (sha256.hexdigest data) data media_type ∧
      (l.put_bytes sha256 data media_type).2.Has sha256 data media_type := by
  rw [put_bytes] at h ⊢
  dsimp only at h ⊢
  by_cases hr : l.redactions[artifact_id_for_digest (sha256.hexdigest data)]?.isSome = true
  · rw [if_pos hr] at h
    cases h
  · rw [if_neg hr] at h ⊢
    have hnone : l.redactions[artifact_id_for_digest (sha256.hexdigest data)]? = none := by
      simpa using hr
    cases hblob : l.blobs[sha256.hexdigest data]? with
    | none =>
        simp only [hblob] at h ⊢
        obtain ⟨hv, hmanifest, hblobs, hredactions⟩ := putManifest_ok h
        refine ⟨hv, ?_, hmanifest, by rw [hredactions]; exact hnone⟩
        rw [hblobs]
        exact KeyMap.get?_insert_self _ _ _
    | some existing =>
        simp only [hblob] at h ⊢
        by_cases heq : existing = data
        · simp only [heq, if_true] at h ⊢
          obtain ⟨hv, hmanifest, hblobs, hredactions⟩ := putManifest_ok h
          refine ⟨hv, ?_, hmanifest, by rw [hredactions]; exact hnone⟩
          rw [hblobs, hblob, heq]
        · simp only [heq, if_false] at h
          cases h

theorem step_put_bytes (sha256 : Sha256) (l : ArtifactLedger) (data : ByteArray)
    (media_type temp temp' : String) :
    (l.step sha256 (.put_bytes data media_type temp temp')).2 =
      (l.put_bytes sha256 data media_type).2 := rfl

theorem Has.read_bytes {sha256 : Sha256} {data : ByteArray} {media_type : String}
    (h : l.Has sha256 data media_type) :
    l.read_bytes (artifact_id_for_digest (sha256.hexdigest data)) = .ok data := by
  rw [ArtifactLedger.read_bytes, h.unredacted, get_manifest, h.manifest]
  show (digestText _ >>= fun digest => l.read_blob digest) = _
  rw [digestText_manifestFor]
  show l.read_blob _ = _
  rw [read_blob, h.blob]

theorem Has.verify {sha256 : Sha256} {data : ByteArray} {media_type : String}
    (h : l.Has sha256 data media_type) :
    l.verify sha256 (artifact_id_for_digest (sha256.hexdigest data)) = .ok true := by
  rw [ArtifactLedger.verify, get_manifest, h.manifest]
  show (l.read_bytes _ >>= fun data => _) = _
  rw [h.read_bytes]
  simp [verified, getItem_content_hash, getItem_digest, getItem_byte_size, bind, Except.bind]
  rfl

/-! ## Stores without redactions -/

/-- Nothing has been redacted, and every manifest has its blob. -/
structure Whole (sha256 : Sha256) (l : ArtifactLedger) : Prop where
  unredacted : ∀ text : String, l.redactions[text]? = none
  blobs : ∀ (text : String) manifest, l.manifests[text]? = some manifest → ∃ data media_type,
    text = artifact_id_for_digest (sha256.hexdigest data) ∧
      manifest = manifestFor (sha256.hexdigest data) data media_type ∧
      l.blobs[sha256.hexdigest data]? = some data

theorem whole_empty (sha256 : Sha256) : Whole sha256 empty := by
  constructor <;> simp [empty]

/-- A manifest was there before, or the call has put it. -/
theorem putManifest_manifests {artifact_id text : String} {manifest m : Json}
    (h : (l.putManifest artifact_id manifest).2.manifests[text]? = some m) :
    l.manifests[text]? = some m ∨
      (text = artifact_id ∧ (l.putManifest artifact_id manifest).1 = .ok manifest) := by
  rw [putManifest] at h ⊢
  cases hm : l.manifests[artifact_id]? with
  | none =>
      simp only [hm] at h ⊢
      by_cases htext : artifact_id = text
      · exact Or.inr ⟨htext.symm, trivial⟩
      · rw [KeyMap.get?_insert_ne _ _ htext] at h
        exact Or.inl h
  | some existing =>
      simp only [hm] at h
      split_ifs at h <;> exact Or.inl h

theorem put_bytes_manifests {sha256 : Sha256} {data : ByteArray} {media_type text : String}
    {m : Json} (h : (l.put_bytes sha256 data media_type).2.manifests[text]? = some m) :
    l.manifests[text]? = some m ∨
      (text = artifact_id_for_digest (sha256.hexdigest data) ∧
        (l.put_bytes sha256 data media_type).1 =
          .ok (manifestFor (sha256.hexdigest data) data media_type)) := by
  rw [put_bytes] at h ⊢
  dsimp only at h ⊢
  split_ifs at h ⊢
  · exact Or.inl h
  · cases hblob : l.blobs[sha256.hexdigest data]? with
    | none =>
        simp only [hblob] at h ⊢
        exact putManifest_manifests h
    | some existing =>
        simp only [hblob] at h ⊢
        by_cases heq : existing = data
        · simp only [heq, if_true] at h ⊢
          exact putManifest_manifests h
        · simp only [heq, if_false] at h
          exact Or.inl h

theorem Whole.put_bytes {sha256 : Sha256} (h : l.Whole sha256) (data : ByteArray)
    (media_type : String) : (l.put_bytes sha256 data media_type).2.Whole sha256 := by
  have hgrows : l.Grows (l.put_bytes sha256 data media_type).2 :=
    grows_put_bytes sha256 data media_type
  constructor
  · intro text
    rw [hgrows.redactions]
    exact h.unredacted text
  · intro text manifest hmanifest
    rcases put_bytes_manifests hmanifest with hold | ⟨htext, hok⟩
    · obtain ⟨data', media_type', hid, hm, hblob⟩ := h.blobs text manifest hold
      exact ⟨data', media_type', hid, hm, hgrows.blobs _ _ hblob⟩
    · obtain ⟨-, hhas⟩ := put_bytes_ok hok
      have hsame := hhas.manifest
      rw [← htext, hmanifest] at hsame
      exact ⟨data, media_type, htext, Option.some.inj hsame, hhas.blob⟩

def isRedaction : ArtifactCall → Bool
  | .redact _ _ _ => true
  | _ => false

theorem Whole.step {sha256 : Sha256} (h : l.Whole sha256) {call : ArtifactCall}
    (hcall : isRedaction call = false) : (l.step sha256 call).2.Whole sha256 := by
  cases call with
  | put_bytes data media_type temp temp' => exact h.put_bytes data media_type
  | redact id r temp => cases hcall
  | _ => exact h

/-! ## Redactions -/

theorem redact_cases (hvalid : l.Valid sha256) (id : ArtifactId) (r : RedactionRequest) :
    (l.redact id.text r).2 = l ∨
      ∃ data media_type, l.manifests[id.text]? =
          some (manifestFor (sha256.hexdigest data) data media_type) ∧
        (l.redact id.text r).2.blobs = l.blobs.erase (sha256.hexdigest data) ∧
        (l.redact id.text r).2.manifests = l.manifests ∧
        (l.redact id.text r).2.redactions[id.text]?.isSome = true ∧
        ∀ other : String, other ≠ id.text →
          (l.redact id.text r).2.redactions[other]? = l.redactions[other]? := by
  rw [redact]
  by_cases hr : r.incomplete = true
  · rw [if_pos hr]
    exact Or.inl rfl
  · rw [if_neg hr]
    rcases hvalid.get_manifest id with ⟨-, hmissing⟩ | ⟨data, media_type, hm, hmanifest⟩
    · rw [redaction_error hmissing]
      exact Or.inl rfl
    · obtain ⟨record, hrecord, -⟩ := artifactRecord_manifestFor (sha256.hexdigest data) data
        media_type id.text r
      rw [redaction_ok hmanifest hrecord]
      dsimp only
      cases ht : l.redactions[id.text]? with
      | none =>
          refine Or.inr ⟨data, media_type, hm, rfl, rfl, ?_, ?_⟩
          · rw [KeyMap.get?_insert_self]
            rfl
          · intro other hother
            exact KeyMap.get?_insert_ne _ _ (Ne.symm hother)
      | some existing =>
          dsimp only
          by_cases hsame : existing = record
          · rw [if_pos hsame]
            refine Or.inr ⟨data, media_type, hm, rfl, rfl, ?_, fun _ _ => rfl⟩
            rw [ht]
            rfl
          · rw [if_neg hsame]
            exact Or.inl rfl

theorem get?_artifact_id (digest : String) (data : ByteArray) (media_type : String) :
    (manifestFor digest data media_type).get? "artifact_id" =
      some (.str (artifact_id_for_digest digest)) := by
  rw [manifestFor, Json.get?_ofMembers]
  rfl

/-- A manifest is filed under the id it states. -/
theorem Valid.manifest_id (hvalid : l.Valid sha256) {text digest media_type : String}
    {data : ByteArray} (h : l.manifests[text]? = some (manifestFor digest data media_type)) :
    artifact_id_for_digest digest = text := by
  obtain ⟨data', media_type', hid, heq⟩ := hvalid.manifests _ _ h
  have hget := congrArg (fun v => v.get? "artifact_id") heq
  simp only [get?_artifact_id, Option.some.injEq, Json.str.injEq] at hget
  rw [hget, hid]

/-- A call keeps every manifest. -/
theorem manifests_step (hvalid : l.Valid sha256) (call : ArtifactCall) {text : String}
    {manifest : Json} (h : l.manifests[text]? = some manifest) :
    (l.step sha256 call).2.manifests[text]? = some manifest := by
  cases call with
  | put_bytes data media_type temp temp' =>
      exact (grows_put_bytes sha256 data media_type).manifests text manifest h
  | redact id r temp =>
      show (l.redact id.text r).2.manifests[text]? = some manifest
      rcases redact_cases hvalid id r with hsame | ⟨data, media_type, -, -, hmanifests, -⟩
      · rw [hsame]
        exact h
      · rw [hmanifests]
        exact h
  | _ => exact h

/-- A call keeps every tombstone. -/
theorem redactions_step (hvalid : l.Valid sha256) (call : ArtifactCall) {text : String}
    (h : (l.step sha256 call).2.redactions[text]? = none) : l.redactions[text]? = none := by
  cases call with
  | put_bytes data media_type temp temp' =>
      rw [step_put_bytes, (grows_put_bytes sha256 data media_type).redactions] at h
      exact h
  | redact id r temp =>
      change (l.redact id.text r).2.redactions[text]? = none at h
      rcases redact_cases hvalid id r with hsame | ⟨data, media_type, -, -, -, hredacted, hothers⟩
      · rw [hsame] at h
        exact h
      · by_cases htext : text = id.text
        · rw [htext] at h
          rw [h] at hredacted
          cases hredacted
        · rw [hothers text htext] at h
          exact h
  | _ => exact h

/-- A call keeps the bytes of an artifact that it does not redact. -/
theorem read_bytes_step (hvalid : l.Valid sha256) (call : ArtifactCall) {id : ArtifactId}
    {data : ByteArray} (h : l.read_bytes id.text = .ok data)
    (hkept : (l.step sha256 call).2.redactions[id.text]? = none) :
    (l.step sha256 call).2.read_bytes id.text = .ok data := by
  cases call with
  | put_bytes data' media_type temp temp' =>
      exact (grows_put_bytes sha256 data' media_type).read_bytes h
  | redact other r temp =>
      change (l.redact other.text r).2.redactions[id.text]? = none at hkept
      show (l.redact other.text r).2.read_bytes id.text = .ok data
      rcases redact_cases hvalid other r with
        hsame | ⟨data', media_type, hm, hblobs, hmanifests, hredacted, hothers⟩
      · rw [hsame]
        exact h
      · have hne : id.text ≠ other.text := by
          intro heq
          rw [heq] at hkept
          rw [hkept] at hredacted
          cases hredacted
        rw [read_bytes] at h ⊢
        rw [hkept]
        split_ifs at h
        rcases hvalid.get_manifest id with ⟨-, hmissing⟩ | ⟨bytes, media_type', hm', hmanifest⟩
        · rw [hmissing] at h
          cases h
        · have hdigest : sha256.hexdigest data' ≠ sha256.hexdigest bytes := by
            intro heq
            rw [← hvalid.manifest_id hm', ← hvalid.manifest_id hm, heq] at hne
            exact hne rfl
          rw [hmanifest] at h
          rw [get_manifest, hmanifests, hm']
          show (digestText _ >>= fun digest => _) = _
          rw [digestText_manifestFor]
          change (digestText _ >>= fun digest => _) = _ at h
          rw [digestText_manifestFor] at h
          change l.read_blob _ = _ at h
          show read_blob _ _ = _
          rw [read_blob, hblobs, KeyMap.get?_erase_ne _ hdigest]
          exact h
  | _ => exact h

end ArtifactLedger

end FossilCore
