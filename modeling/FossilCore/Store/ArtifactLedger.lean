import FossilCore.Base.Layout
import FossilCore.Store.Contract

/-!
# The artifact ledger

What an artifact store is for: blobs under their digests, manifests and redaction tombstones
under artifact ids, and what each call of a store does to them.  Both adapters are compared
with this ledger.
-/

namespace FossilCore

open Base

namespace Error

def artifactIntegrityError (message : String) : Error := ⟨.artifactIntegrityError, message⟩

def artifactRedactedError (message : String) : Error := ⟨.artifactRedactedError, message⟩

def redactedPut (artifact_id : String) : Error :=
  artifactRedactedError
    ("artifact " ++ artifact_id ++
      " was redacted and cannot be republished under the same content identity")

def redactedRead (artifact_id : String) : Error :=
  artifactRedactedError s!"artifact {artifact_id} has been redacted"

def corruptedBlob (artifact_id : String) : Error :=
  artifactIntegrityError s!"hash collision or corrupted blob for {artifact_id}"

def manifestConflict (artifact_id : String) : Error :=
  artifactIntegrityError s!"manifest conflict for {artifact_id}"

def verificationFailed (artifact_id : String) : Error :=
  artifactIntegrityError s!"artifact verification failed for {artifact_id}"

def tombstoneConflict (artifact_id : String) : Error :=
  artifactIntegrityError s!"redaction tombstone conflict for {artifact_id}"

def incompleteArtifactRedaction : Error :=
  valueError "redaction requires reason, authority, and redacted_at"

end Error

def contentHash (digest : String) : Json :=
  .ofMembers [("algorithm", .str "sha256"), ("digest", .str digest)]

def manifestFor (digest : String) (data : ByteArray) (media_type : String) : Json :=
  .ofMembers [
    ("artifact_id", .str (artifact_id_for_digest digest)),
    ("content_hash", contentHash digest),
    ("byte_size", .int data.size),
    ("media_type", .str media_type)]

/-- `manifest["content_hash"]["digest"]`, used as a text. -/
def digestText (manifest : Json) : Except Error String := do
  let content_hash ← liftPy (manifest.getItem "content_hash")
  let digest ← liftPy (content_hash.getItem "digest")
  match digest with
  | .str s => .ok s
  | _ => .error .typeError

def artifactRecord (artifact_id : String) (manifest : Json) (r : RedactionRequest) :
    Except Error Json := do
  let content_hash ← liftPy (manifest.getItem "content_hash")
  let byte_size ← liftPy (manifest.getItem "byte_size")
  let media_type ← liftPy (manifest.getItem "media_type")
  return .ofMembers [
    ("artifact_id", .str artifact_id),
    ("redacted_at", .str r.redacted_at),
    ("reason", .str r.reason),
    ("authority", .str r.authority),
    ("request_ref", r.request_refJson),
    ("content_hash", content_hash),
    ("byte_size", byte_size),
    ("media_type", media_type)]

/-- The comparison at the end of `verify`. -/
def verified (sha256 : Sha256) (artifact_id : String) (manifest : Json) (data : ByteArray) :
    Except Error Bool := do
  let content_hash ← liftPy (manifest.getItem "content_hash")
  let digest ← liftPy (content_hash.getItem "digest")
  if Json.str (sha256.hexdigest data) ≠ digest then .error (.verificationFailed artifact_id)
  else
    let byte_size ← liftPy (manifest.getItem "byte_size")
    if Json.int data.size ≠ byte_size then .error (.verificationFailed artifact_id)
    else return true

structure ArtifactLedger where
  blobs : KeyMap String ByteArray
  manifests : KeyMap String Json
  redactions : KeyMap String Json

/-- A call of an artifact store; `temp` and `temp'` are the UUIDs of its temporary files. -/
inductive ArtifactCall where
  | put_bytes (data : ByteArray) (media_type temp temp' : String)
  | read_bytes (id : ArtifactId)
  | verify (id : ArtifactId)
  | redact (id : ArtifactId) (request : RedactionRequest) (temp : String)
  | get_redaction (id : ArtifactId)

inductive ArtifactReturned where
  | document (v : Json)
  | data (data : ByteArray)
  | verified (b : Bool)
  | redaction (t : Option Json)

namespace ArtifactLedger

def empty : ArtifactLedger := ⟨∅, ∅, ∅⟩

variable (sha256 : Sha256) (l : ArtifactLedger)

def putManifest (artifact_id : String) (manifest : Json) : Except Error Json × ArtifactLedger :=
  match l.manifests[artifact_id]? with
  | none => (.ok manifest, { l with manifests := l.manifests.insert artifact_id manifest })
  | some existing =>
      if existing = manifest then (.ok manifest, l)
      else (.error (.manifestConflict artifact_id), l)

def put_bytes (data : ByteArray) (media_type : String) : Except Error Json × ArtifactLedger :=
  let digest := sha256.hexdigest data
  let artifact_id := artifact_id_for_digest digest
  if l.redactions[artifact_id]?.isSome then (.error (.redactedPut artifact_id), l)
  else
    let manifest := manifestFor digest data media_type
    match l.blobs[digest]? with
    | none =>
        ({ l with blobs := l.blobs.insert digest data } : ArtifactLedger).putManifest
          artifact_id manifest
    | some existing =>
        if existing = data then l.putManifest artifact_id manifest
        else (.error (.corruptedBlob artifact_id), l)

def get_manifest (artifact_id : String) : Except Error Json :=
  match l.manifests[artifact_id]? with
  | none => .error (.fileNotFound artifact_id)
  | some manifest => .ok manifest

def read_blob (digest : String) : Except Error ByteArray :=
  match l.blobs[digest]? with
  | none => .error (.fileNotFound digest)
  | some data => .ok data

def read_bytes (artifact_id : String) : Except Error ByteArray :=
  if l.redactions[artifact_id]?.isSome then .error (.redactedRead artifact_id)
  else do
    let manifest ← l.get_manifest artifact_id
    let digest ← digestText manifest
    l.read_blob digest

def verify (artifact_id : String) : Except Error Bool := do
  let manifest ← l.get_manifest artifact_id
  let data ← l.read_bytes artifact_id
  verified sha256 artifact_id manifest data

/-- The tombstone of a redaction, and the digest of the blob it deletes. -/
def redaction (artifact_id : String) (r : RedactionRequest) : Except Error (Json × String) := do
  let manifest ← l.get_manifest artifact_id
  let record ← artifactRecord artifact_id manifest r
  let digest ← digestText manifest
  return (record, digest)

def redact (artifact_id : String) (r : RedactionRequest) : Except Error Json × ArtifactLedger :=
  if r.incomplete then (.error .incompleteArtifactRedaction, l)
  else
    match l.redaction artifact_id r with
    | .error e => (.error e, l)
    | .ok (record, digest) =>
        match l.redactions[artifact_id]? with
        | none =>
            (.ok record, { l with
              blobs := l.blobs.erase digest
              redactions := l.redactions.insert artifact_id record })
        | some existing =>
            if existing = record then (.ok existing, { l with blobs := l.blobs.erase digest })
            else (.error (.tombstoneConflict artifact_id), l)

def step : ArtifactCall → Except Error ArtifactReturned × ArtifactLedger
  | .put_bytes data media_type _ _ =>
      let (result, l) := l.put_bytes sha256 data media_type
      (result.map .document, l)
  | .read_bytes id => ((l.read_bytes id.text).map .data, l)
  | .verify id => ((l.verify sha256 id.text).map .verified, l)
  | .redact id r _ =>
      let (result, l) := l.redact id.text r
      (result.map .document, l)
  | .get_redaction id => (.ok (.redaction l.redactions[id.text]?), l)

/-- What holds of every ledger that calls build: blobs and manifests are filed under what they
are computed from. -/
structure Valid (sha256 : Sha256) (l : ArtifactLedger) : Prop where
  blobs : ∀ text data, l.blobs[text]? = some data → sha256.hexdigest data = text
  manifests : ∀ text m, l.manifests[text]? = some m → ∃ data media_type,
    artifact_id_for_digest (sha256.hexdigest data) = text ∧
      m = manifestFor (sha256.hexdigest data) data media_type
  redactions : ∀ text t, l.redactions[text]? = some t →
    ∃ id : ArtifactId, id.text = text ∧ t.WF ∧ t.isObj = true

variable {sha256 l}

theorem valid_empty : Valid sha256 empty := by
  constructor <;> simp [empty]

theorem wf_contentHash (digest : String) : (contentHash digest).WF := by
  apply Json.wf_ofMembers
  intro m hm
  simp only [List.mem_cons, List.not_mem_nil, or_false] at hm
  rcases hm with rfl | rfl <;> exact Json.wf_str _

theorem wf_manifestFor (digest : String) (data : ByteArray) (media_type : String) :
    (manifestFor digest data media_type).WF := by
  apply Json.wf_ofMembers
  intro m hm
  simp only [List.mem_cons, List.not_mem_nil, or_false] at hm
  rcases hm with rfl | rfl | rfl | rfl
  · exact Json.wf_str _
  · exact wf_contentHash digest
  · exact Json.wf_int _
  · exact Json.wf_str _

section Manifest

variable (digest : String) (data : ByteArray) (media_type : String)

theorem getItem_content_hash :
    (manifestFor digest data media_type).getItem "content_hash" = .ok (contentHash digest) := by
  apply Json.getItem_of_get?
  rw [manifestFor, Json.get?_ofMembers]
  simp [Json.lookup]

theorem getItem_byte_size :
    (manifestFor digest data media_type).getItem "byte_size" = .ok (.int data.size) := by
  apply Json.getItem_of_get?
  rw [manifestFor, Json.get?_ofMembers]
  simp [Json.lookup]

theorem getItem_media_type :
    (manifestFor digest data media_type).getItem "media_type" = .ok (.str media_type) := by
  apply Json.getItem_of_get?
  rw [manifestFor, Json.get?_ofMembers]
  simp [Json.lookup]

theorem getItem_digest : (contentHash digest).getItem "digest" = .ok (.str digest) := by
  apply Json.getItem_of_get?
  rw [contentHash, Json.get?_ofMembers]
  simp [Json.lookup]

theorem digestText_manifestFor :
    digestText (manifestFor digest data media_type) = .ok digest := by
  simp only [digestText, getItem_content_hash, getItem_digest, liftPy_ok, bind, Except.bind]

theorem artifactRecord_manifestFor (artifact_id : String) (r : RedactionRequest) :
    ∃ record, artifactRecord artifact_id (manifestFor digest data media_type) r = .ok record ∧
      record.WF ∧ record.isObj = true := by
  refine ⟨_, by simp only [artifactRecord, getItem_content_hash, getItem_byte_size,
    getItem_media_type, liftPy_ok, bind, Except.bind]; rfl, ?_, rfl⟩
  apply Json.wf_ofMembers
  intro m hm
  simp only [List.mem_cons, List.not_mem_nil, or_false] at hm
  rcases hm with rfl | rfl | rfl | rfl | rfl | rfl | rfl | rfl
  case inr.inr.inr.inr.inl => exact r.wf_request_refJson
  case inr.inr.inr.inr.inr.inl => exact wf_contentHash digest
  case inr.inr.inr.inr.inr.inr.inl => exact Json.wf_int _
  all_goals exact Json.wf_str _

end Manifest

theorem Valid.insertBlob (h : Valid sha256 l) (data : ByteArray) :
    Valid sha256 { l with blobs := l.blobs.insert (sha256.hexdigest data) data } := by
  refine ⟨?_, h.manifests, h.redactions⟩
  intro text data' hdata
  rw [KeyMap.get?_insert] at hdata
  split_ifs at hdata with htext
  · cases hdata
    exact htext
  · exact h.blobs text data' hdata

theorem Valid.eraseBlob (h : Valid sha256 l) (digest : String) :
    Valid sha256 { l with blobs := l.blobs.erase digest } := by
  refine ⟨?_, h.manifests, h.redactions⟩
  intro text data hdata
  rw [KeyMap.get?_erase] at hdata
  split_ifs at hdata
  exact h.blobs text data hdata

theorem Valid.insertRedaction (h : Valid sha256 l) {id : ArtifactId} {record : Json}
    (hwf : record.WF) (hobj : record.isObj = true) :
    Valid sha256 { l with redactions := l.redactions.insert id.text record } := by
  refine ⟨h.blobs, h.manifests, ?_⟩
  intro text t ht
  rw [KeyMap.get?_insert] at ht
  split_ifs at ht with htext
  · cases ht
    exact ⟨id, htext, hwf, hobj⟩
  · exact h.redactions text t ht

theorem Valid.putManifest (h : Valid sha256 l) (data : ByteArray) (media_type : String) :
    Valid sha256 (l.putManifest (artifact_id_for_digest (sha256.hexdigest data))
      (manifestFor (sha256.hexdigest data) data media_type)).2 := by
  unfold ArtifactLedger.putManifest
  split
  · refine ⟨h.blobs, ?_, h.redactions⟩
    intro text m hm
    rw [KeyMap.get?_insert] at hm
    split_ifs at hm with htext
    · cases hm
      exact ⟨data, media_type, htext, rfl⟩
    · exact h.manifests text m hm
  · split_ifs <;> exact h

theorem Valid.put_bytes (h : Valid sha256 l) (data : ByteArray) (media_type : String) :
    Valid sha256 (l.put_bytes sha256 data media_type).2 := by
  unfold ArtifactLedger.put_bytes
  dsimp only
  split_ifs
  · exact h
  · split
    · exact (h.insertBlob data).putManifest data media_type
    · split_ifs
      · exact h.putManifest data media_type
      · exact h

/-- The manifest of an id, when the ledger has one. -/
theorem Valid.get_manifest (h : Valid sha256 l) (id : ArtifactId) :
    (l.manifests[id.text]? = none ∧ l.get_manifest id.text = .error (.fileNotFound id.text)) ∨
      ∃ data media_type, l.manifests[id.text]? =
          some (manifestFor (sha256.hexdigest data) data media_type) ∧
        l.get_manifest id.text = .ok (manifestFor (sha256.hexdigest data) data media_type) := by
  cases hm : l.manifests[id.text]? with
  | none => exact Or.inl ⟨rfl, by rw [ArtifactLedger.get_manifest, hm]⟩
  | some m =>
      obtain ⟨data, media_type, -, rfl⟩ := h.manifests _ _ hm
      exact Or.inr ⟨data, media_type, rfl, by rw [ArtifactLedger.get_manifest, hm]⟩

theorem redaction_error {artifact_id : String} {e : Error}
    (h : l.get_manifest artifact_id = .error e) (r : RedactionRequest) :
    l.redaction artifact_id r = .error e := by
  rw [redaction, h]
  rfl

theorem redaction_ok {artifact_id digest media_type : String} {data : ByteArray} {record : Json}
    {r : RedactionRequest}
    (h : l.get_manifest artifact_id = .ok (manifestFor digest data media_type))
    (hrecord : artifactRecord artifact_id (manifestFor digest data media_type) r = .ok record) :
    l.redaction artifact_id r = .ok (record, digest) := by
  simp only [redaction, h, hrecord, digestText_manifestFor, bind, Except.bind]
  rfl

theorem Valid.redact (h : Valid sha256 l) (id : ArtifactId) (r : RedactionRequest) :
    Valid sha256 (l.redact id.text r).2 := by
  unfold ArtifactLedger.redact
  by_cases hr : r.incomplete = true
  · rw [if_pos hr]
    exact h
  · rw [if_neg hr]
    rcases h.get_manifest id with ⟨-, hmissing⟩ | ⟨data, media_type, -, hmanifest⟩
    · rw [redaction_error hmissing]
      exact h
    · obtain ⟨record, hrecord, hwf, hobj⟩ := artifactRecord_manifestFor (sha256.hexdigest data)
        data media_type id.text r
      rw [redaction_ok hmanifest hrecord]
      dsimp only
      split
      · exact (h.eraseBlob _).insertRedaction hwf hobj
      · split_ifs
        · exact h.eraseBlob _
        · exact h

theorem Valid.step (h : Valid sha256 l) (call : ArtifactCall) :
    Valid sha256 (l.step sha256 call).2 := by
  cases call with
  | put_bytes data media_type temp temp' => exact h.put_bytes data media_type
  | redact id r temp => exact h.redact id r
  | _ => exact h

end ArtifactLedger

inductive ArtifactSlot where
  | blob (d : Digest)
  | manifest (id : ArtifactId)
  | redaction (id : ArtifactId)

/-- The bytes a ledger stands for. -/
def ArtifactLedger.contents (l : ArtifactLedger) : ArtifactSlot → Option ByteArray
  | .blob d => l.blobs[d.text]?
  | .manifest id => l.manifests[id.text]?.map Json.canonical
  | .redaction id => l.redactions[id.text]?.map Json.canonical

/-- The ledger as a model of an artifact store. -/
abbrev ArtifactLedger.model (sha256 : Sha256) :
    Model ArtifactLedger ArtifactSlot ByteArray ArtifactCall (Except Error ArtifactReturned) where
  contents := ArtifactLedger.contents
  step := ArtifactLedger.step sha256
  Valid := ArtifactLedger.Valid sha256
  valid_step _ call h := h.step call

section Holds

variable {κ : Type} [Ord κ] [Std.TransOrd κ] [Std.LawfulEqOrd κ] {L : Layout ArtifactSlot κ}
  {l : ArtifactLedger} {m : KeyMap κ ByteArray}

omit [Std.LawfulEqOrd κ] in
theorem storedAs_emptyArtifacts (sha256 : Sha256) :
    (ArtifactLedger.model sha256).StoredAs L ArtifactLedger.empty (∅ : KeyMap κ ByteArray) := by
  refine ⟨ArtifactLedger.valid_empty, Layout.holds_empty.congr ?_⟩
  intro slot
  cases slot <;> simp [ArtifactLedger.contents, ArtifactLedger.empty]

theorem holds_insert_blob (h : L.Holds l.contents m) (d : Digest) (data : ByteArray) :
    L.Holds ({ l with blobs := l.blobs.insert d.text data } : ArtifactLedger).contents
      (m.insert (L.key (.blob d)) data) := by
  refine h.insert ?_ ?_
  · simp [ArtifactLedger.contents]
  · intro slot hslot
    cases slot with
    | blob d' =>
        have hne : d.text ≠ d'.text := fun htext => hslot (by rw [Digest.ext_text htext])
        simp only [ArtifactLedger.contents, KeyMap.get?_insert_ne _ _ hne]
    | _ => rfl

theorem holds_erase_blob (h : L.Holds l.contents m) (d : Digest) :
    L.Holds ({ l with blobs := l.blobs.erase d.text } : ArtifactLedger).contents
      (m.erase (L.key (.blob d))) := by
  refine h.erase ?_ ?_
  · simp [ArtifactLedger.contents]
  · intro slot hslot
    cases slot with
    | blob d' =>
        have hne : d.text ≠ d'.text := fun htext => hslot (by rw [Digest.ext_text htext])
        simp only [ArtifactLedger.contents, KeyMap.get?_erase_ne _ hne]
    | _ => rfl

theorem holds_insert_manifest (h : L.Holds l.contents m) (id : ArtifactId) (v : Json) :
    L.Holds ({ l with manifests := l.manifests.insert id.text v } : ArtifactLedger).contents
      (m.insert (L.key (.manifest id)) v.canonical) := by
  refine h.insert ?_ ?_
  · simp [ArtifactLedger.contents]
  · intro slot hslot
    cases slot with
    | manifest id' =>
        have hne : id.text ≠ id'.text := fun htext => hslot (by rw [StableId.ext_text htext])
        simp only [ArtifactLedger.contents, KeyMap.get?_insert_ne _ _ hne]
    | _ => rfl

theorem holds_insert_redaction (h : L.Holds l.contents m) (id : ArtifactId) (v : Json) :
    L.Holds ({ l with redactions := l.redactions.insert id.text v } : ArtifactLedger).contents
      (m.insert (L.key (.redaction id)) v.canonical) := by
  refine h.insert ?_ ?_
  · simp [ArtifactLedger.contents]
  · intro slot hslot
    cases slot with
    | redaction id' =>
        have hne : id.text ≠ id'.text := fun htext => hslot (by rw [StableId.ext_text htext])
        simp only [ArtifactLedger.contents, KeyMap.get?_insert_ne _ _ hne]
    | _ => rfl

end Holds

end FossilCore
