import FossilCore.Adapters.S3EventStore
import FossilCore.Store.ArtifactLedger

/-!
# The S3 artifact store

`S3ArtifactStore` of `adapters/s3/storage.py`, as programs of client requests, and the proof
that it refines the artifact ledger.
-/

namespace FossilCore

open Base

namespace Error

def invalidManifest (artifact_id : String) : Error :=
  artifactIntegrityError s!"invalid manifest for {artifact_id}"

def invalidTombstone (artifact_id : String) : Error :=
  artifactIntegrityError s!"invalid redaction tombstone for {artifact_id}"

end Error

namespace S3ArtifactStore

variable (sha256 : Sha256) (b : S3Backend)

def blob_key (digest : String) : String :=
  "canonical/artifacts/blobs/sha256/" ++ (Text.take digest 2 ++ ("/" ++ digest))

def manifest_key (artifact_id : String) : String :=
  shardedKey "canonical/artifacts/manifests/" "art_" artifact_id

def redaction_key (artifact_id : String) : String :=
  shardedKey "canonical/redactions/artifacts/" "art_" artifact_id

/-- `json.loads` under `except (UnicodeDecodeError, json.JSONDecodeError)`. -/
def readDocument (key : String) (invalid : Error) : S3 Json :=
  (b.readJson key).catching fun e =>
    if e.cls = .builtin .unicodeDecodeError ∨ e.cls = .builtin .jsonDecodeError then .raise invalid
    else .raise e

def get_manifest (artifact_id : String) : S3 Json :=
  readDocument b (manifest_key artifact_id) (.invalidManifest artifact_id)

def is_redacted (artifact_id : String) : S3 Bool := b.isPresent (redaction_key artifact_id)

def get_redaction (artifact_id : String) : S3 (Option Json) := do
  let key := redaction_key artifact_id
  let present ← b.isPresent key
  if !present then return none
  else
    let value ← readDocument b key (.invalidTombstone artifact_id)
    return orNone value

/-- `put_immutable` under `except RemoteObjectConflict`. -/
def putOr (key : String) (data : ByteArray) (conflict : Error) : S3 Bool :=
  (b.put_immutable key data).catching fun e =>
    if e.cls = .remoteObjectConflict then .raise conflict else .raise e

/-- The second half of `put_bytes`. -/
def put_manifest (artifact_id : String) (manifest : Json) : S3 Json := do
  let _ ← putOr b (manifest_key artifact_id) manifest.canonical (.manifestConflict artifact_id)
  return manifest

def put_bytes (data : ByteArray) (media_type : String) : S3 Json := do
  let digest := sha256.hexdigest data
  let artifact_id := artifact_id_for_digest digest
  let redacted ← is_redacted b artifact_id
  if redacted then .raise (.redactedPut artifact_id)
  else
    let manifest := manifestFor digest data media_type
    let _ ← putOr b (blob_key digest) data (.corruptedBlob artifact_id)
    put_manifest b artifact_id manifest

def read_bytes (artifact_id : String) : S3 ByteArray := do
  let redacted ← is_redacted b artifact_id
  if redacted then .raise (.redactedRead artifact_id)
  else
    let manifest ← get_manifest b artifact_id
    let digest ← .done (digestText manifest)
    b.read (blob_key digest)

def verify (artifact_id : String) : S3 Bool := do
  let manifest ← get_manifest b artifact_id
  let data ← read_bytes b artifact_id
  .done (verified sha256 artifact_id manifest data)

def redact (artifact_id : String) (r : RedactionRequest) : S3 Json :=
  if r.incomplete then .raise .incompleteArtifactRedaction
  else do
    let manifest ← get_manifest b artifact_id
    let record ← .done (artifactRecord artifact_id manifest r)
    let _ ← putOr b (redaction_key artifact_id) record.canonical (.tombstoneConflict artifact_id)
    let digest ← .done (digestText manifest)
    b.delete (blob_key digest)
    return record

def program : ArtifactCall → S3 ArtifactReturned
  | .put_bytes data media_type _ _ => do return .document (← put_bytes sha256 b data media_type)
  | .read_bytes id => do return .data (← read_bytes b id.text)
  | .verify id => do return .verified (← verify sha256 b id.text)
  | .redact id r _ => do return .document (← redact b id.text r)
  | .get_redaction id => do return .redaction (← get_redaction b id.text)

def step (paging : Paging) (objects : Objects) (call : ArtifactCall) :
    Except Error ArtifactReturned × Objects :=
  (program sha256 b call).run (s3Step paging) objects

/-! ## The layout -/

def slotKey : ArtifactSlot → String
  | .blob d => blob_key d.text
  | .manifest id => manifest_key id.text
  | .redaction id => redaction_key id.text

theorem blob_key_inj {d e : Digest} (h : blob_key d.text = blob_key e.text) : d = e := by
  have hrest := congrArg String.toList (Text.append_left_cancel h)
  simp only [String.toList_append, Text.toList_take] at hrest
  have hname := (List.append_inj hrest (by
    rw [List.length_take, List.length_take, d.length_text, e.length_text])).2
  exact Digest.ext_text (String.toList_inj.mp (List.append_inj hname rfl).2)

theorem slotKey_inj : Function.Injective slotKey := by
  intro s t h
  have hne : ∀ {dir dir' x y : String}, 21 ≤ dir.toList.length → 21 ≤ dir'.toList.length →
      dir.toList.take 21 ≠ dir'.toList.take 21 → dir ++ x = dir' ++ y → False :=
    fun hp hq hdiff heq => Text.append_ne_append _ _ hp hq hdiff heq
  cases s <;> cases t
  case blob.blob d e => rw [blob_key_inj h]
  case manifest.manifest i j => rw [shardedKey_inj h]
  case redaction.redaction i j => rw [shardedKey_inj h]
  all_goals exact (hne (by decide) (by decide) (by decide) h).elim

theorem head?_slotKey (slot : ArtifactSlot) : (slotKey slot).toList.head? ≠ some '/' := by
  have hhead : (slotKey slot).toList.head? = some 'c' := by
    cases slot <;> exact Text.head?_append _ (by decide)
  rw [hhead]
  decide

def layout : Layout ArtifactSlot String where
  key slot := b.key (slotKey slot)
  inj s t h := by
    dsimp only at h
    rw [b.key_eq (head?_slotKey s), b.key_eq (head?_slotKey t)] at h
    exact slotKey_inj (Text.append_left_cancel h)

/-! ## Runs without faults refine the ledger -/

section Refinement

variable {sha256 b} {paging : Paging} {l : ArtifactLedger} {objects : Objects}

theorem get?_slot (h : (layout b).Holds l.contents objects) (slot : ArtifactSlot) :
    objects[b.key (slotKey slot)]? = l.contents slot := h.slot slot

theorem run_readDocument {slot : ArtifactSlot} {v : Json} (invalid : Error)
    (h : (layout b).Holds l.contents objects) (hv : l.contents slot = some v.canonical)
    (hwf : v.WF) :
    (readDocument b (slotKey slot) invalid).run (s3Step paging) objects = (.ok v, objects) :=
  Program.run_catching_ok _
    (S3Backend.run_readJson_some ((get?_slot h slot).trans hv) (Json.loadBytes_canonical hwf))

theorem run_readDocument_none {slot : ArtifactSlot} (invalid : Error)
    (h : (layout b).Holds l.contents objects) (hv : l.contents slot = none) :
    (readDocument b (slotKey slot) invalid).run (s3Step paging) objects =
      (.error (.ofPython (.fileNotFoundError (b.key (slotKey slot)))), objects) := by
  have hrun : (b.readJson (slotKey slot)).run (s3Step paging) objects = _ :=
    S3Backend.run_readJson_none ((get?_slot h slot).trans hv)
  rw [readDocument, Program.run_catching_error _ hrun]
  simp only [Error.ofPython, PyException.fileNotFoundError, reduceCtorEq, ErrorClass.builtin.injEq,
    or_self, if_false, Program.raise_eq_done, Program.run_done]

theorem run_is_redacted (h : (layout b).Holds l.contents objects) (id : ArtifactId) :
    (is_redacted b id.text).run (s3Step paging) objects =
      (.ok l.redactions[id.text]?.isSome, objects) := by
  have hlookup : objects[b.key (redaction_key id.text)]? =
      l.redactions[id.text]?.map Json.canonical := get?_slot h (.redaction id)
  rw [is_redacted, S3Backend.run_isPresent, hlookup, Option.isSome_map]

/-- A conditional put creates the object, finds the same bytes, or reports the conflict. -/
theorem run_putOr (h : (layout b).Holds l.contents objects) (slot : ArtifactSlot)
    (data : ByteArray) (conflict : Error) :
    (putOr b (slotKey slot) data conflict).run (s3Step paging) objects =
      match l.contents slot with
      | none => (.ok true, objects.insert (b.key (slotKey slot)) data)
      | some existing =>
          (if existing = data then .ok false else .error conflict, objects) := by
  have hlookup := get?_slot h slot
  cases hslot : l.contents slot with
  | none =>
      rw [hslot] at hlookup
      exact Program.run_catching_ok _ (S3Backend.run_put_none hlookup)
  | some existing =>
      dsimp only
      rw [hslot] at hlookup
      have hput : (b.put_immutable (slotKey slot) data).run (s3Step paging) objects = _ :=
        S3Backend.run_put_some hlookup
      by_cases heq : existing = data
      · rw [if_pos heq] at hput ⊢
        exact Program.run_catching_ok _ hput
      · rw [if_neg heq] at hput ⊢
        rw [putOr, Program.run_catching_error _ hput]
        rfl

/-- Reading the manifest of an id, when the ledger has one. -/
theorem manifest_cases (hvalid : l.Valid sha256) (h : (layout b).Holds l.contents objects)
    (id : ArtifactId) :
    (l.get_manifest id.text = .error (.fileNotFound id.text) ∧
        ∃ e, (get_manifest b id.text).run (s3Step paging) objects = (.error e, objects) ∧
          e.cls = (Error.fileNotFound id.text).cls) ∨
      ∃ data media_type, l.get_manifest id.text =
          .ok (manifestFor (sha256.hexdigest data) data media_type) ∧
        (get_manifest b id.text).run (s3Step paging) objects =
          (.ok (manifestFor (sha256.hexdigest data) data media_type), objects) := by
  rcases hvalid.get_manifest id with ⟨hm, hl⟩ | ⟨data, media_type, hm, hl⟩
  · have hslot : l.contents (.manifest id) = none := congrArg (Option.map Json.canonical) hm
    exact Or.inl ⟨hl, _, run_readDocument_none _ h hslot, SameOutcome.missing_cls _ _⟩
  · have hslot : l.contents (.manifest id) = some _ := congrArg (Option.map Json.canonical) hm
    exact Or.inr ⟨data, media_type, hl,
      run_readDocument _ h hslot (ArtifactLedger.wf_manifestFor _ _ _)⟩

variable (paging) in
theorem run_put_manifest (hvalid : l.Valid sha256) (h : (layout b).Holds l.contents objects)
    (id : ArtifactId) {manifest : Json} (hwf : manifest.WF) :
    SameOutcome ((put_manifest b id.text manifest).run (s3Step paging) objects).1
        (l.putManifest id.text manifest).1 ∧
      (layout b).Holds (l.putManifest id.text manifest).2.contents
        ((put_manifest b id.text manifest).run (s3Step paging) objects).2 := by
  have hput : (putOr b (manifest_key id.text) manifest.canonical
    (.manifestConflict id.text)).run (s3Step paging) objects = _ := run_putOr h (.manifest id) _ _
  simp only [ArtifactLedger.contents] at hput
  rw [put_manifest, ArtifactLedger.putManifest]
  cases hm : l.manifests[id.text]? with
  | none =>
      rw [hm] at hput
      rw [Program.run_bind_ok _ hput]
      exact ⟨rfl, holds_insert_manifest h id manifest⟩
  | some existing =>
      obtain ⟨data, media_type, -, hexisting⟩ := hvalid.manifests _ _ hm
      have hwf' : existing.WF := by
        rw [hexisting]
        exact ArtifactLedger.wf_manifestFor _ _ _
      rw [hm] at hput
      simp only [Option.map_some, Json.canonical_inj hwf' hwf] at hput
      dsimp only
      by_cases heq : existing = manifest
      · rw [if_pos heq] at hput ⊢
        rw [Program.run_bind_ok _ hput]
        exact ⟨rfl, h⟩
      · rw [if_neg heq] at hput ⊢
        rw [Program.run_bind_error _ hput]
        exact ⟨rfl, h⟩

variable (paging) in
theorem run_put_bytes (hvalid : l.Valid sha256) (h : (layout b).Holds l.contents objects)
    (data : ByteArray) (media_type : String) :
    SameOutcome ((put_bytes sha256 b data media_type).run (s3Step paging) objects).1
        (l.put_bytes sha256 data media_type).1 ∧
      (layout b).Holds (l.put_bytes sha256 data media_type).2.contents
        ((put_bytes sha256 b data media_type).run (s3Step paging) objects).2 := by
  have hredacted : (is_redacted b (sha256.digest data).artifactId.text).run (s3Step paging)
    objects = _ := run_is_redacted h (sha256.digest data).artifactId
  have hwf := ArtifactLedger.wf_manifestFor (sha256.hexdigest data) data media_type
  rw [put_bytes, ArtifactLedger.put_bytes]
  dsimp only [Digest.artifactId, Sha256.digest] at hredacted ⊢
  rw [Program.run_bind_ok _ hredacted]
  by_cases hr : l.redactions[artifact_id_for_digest (sha256.hexdigest data)]?.isSome = true
  · rw [if_pos hr, if_pos hr]
    exact ⟨rfl, h⟩
  · rw [if_neg hr, if_neg hr]
    have hput : (putOr b (blob_key (sha256.hexdigest data)) data
      (.corruptedBlob (artifact_id_for_digest (sha256.hexdigest data)))).run (s3Step paging)
      objects = _ := run_putOr h (.blob (sha256.digest data)) _ _
    simp only [ArtifactLedger.contents, Sha256.digest] at hput
    cases hblob : l.blobs[sha256.hexdigest data]? with
    | none =>
        rw [hblob] at hput
        rw [Program.run_bind_ok _ hput]
        exact run_put_manifest paging
          (hvalid.insertBlob data) (holds_insert_blob h (sha256.digest data) data)
          (sha256.digest data).artifactId hwf
    | some existing =>
        rw [hblob] at hput
        dsimp only at hput ⊢
        by_cases heq : existing = data
        · rw [if_pos heq] at hput ⊢
          rw [Program.run_bind_ok _ hput]
          exact run_put_manifest paging hvalid h (sha256.digest data).artifactId hwf
        · rw [if_neg heq] at hput ⊢
          rw [Program.run_bind_error _ hput]
          exact ⟨rfl, h⟩

variable (paging) in
theorem run_read_bytes (hvalid : l.Valid sha256) (h : (layout b).Holds l.contents objects)
    (id : ArtifactId) :
    ∃ x, (read_bytes b id.text).run (s3Step paging) objects = (x, objects) ∧
      SameOutcome x (l.read_bytes id.text) := by
  rw [read_bytes, Program.run_bind_ok _ (run_is_redacted h id), ArtifactLedger.read_bytes]
  by_cases hr : l.redactions[id.text]?.isSome = true
  · rw [if_pos hr, if_pos hr]
    exact ⟨_, rfl, rfl⟩
  · rw [if_neg hr, if_neg hr]
    rcases manifest_cases hvalid h id with ⟨hl, e, hrun, hcls⟩ | ⟨data, media_type, hl, hrun⟩
    · exact ⟨_, Program.run_bind_error _ hrun, by rw [hl]; exact hcls⟩
    · rw [Program.run_bind_ok _ hrun, hl]
      simp only [ArtifactLedger.digestText_manifestFor, bind, Except.bind,
        ArtifactLedger.read_blob]
      have hlookup : objects[b.key (blob_key (sha256.hexdigest data))]? =
          l.blobs[sha256.hexdigest data]? := get?_slot h (.blob (sha256.digest data))
      cases hblob : l.blobs[sha256.hexdigest data]? with
      | none => exact ⟨_, S3Backend.run_read_none (hlookup.trans hblob), SameOutcome.missing _ _⟩
      | some existing => exact ⟨_, S3Backend.run_read_some (hlookup.trans hblob), rfl⟩

variable (paging) in
theorem run_verify (hvalid : l.Valid sha256) (h : (layout b).Holds l.contents objects)
    (id : ArtifactId) :
    ∃ x, (verify sha256 b id.text).run (s3Step paging) objects = (x, objects) ∧
      SameOutcome x (l.verify sha256 id.text) := by
  rw [verify, ArtifactLedger.verify]
  rcases manifest_cases hvalid h id with ⟨hl, e, hrun, hcls⟩ | ⟨data, media_type, hl, hrun⟩
  · exact ⟨_, Program.run_bind_error _ hrun, by rw [hl]; exact hcls⟩
  · rw [Program.run_bind_ok _ hrun, hl]
    obtain ⟨x, hread, hsame⟩ := run_read_bytes paging hvalid h id
    cases hx : l.read_bytes id.text with
    | error e =>
        rw [hx] at hsame
        obtain ⟨e', rfl⟩ := hsame.error_right
        refine ⟨_, Program.run_bind_error _ hread, ?_⟩
        simp only [bind, Except.bind]
        exact hsame
    | ok bytes =>
        rw [hx] at hsame
        obtain rfl := hsame.ok_right
        rw [Program.run_bind_ok _ hread]
        exact ⟨_, rfl, SameOutcome.rfl'⟩

variable (paging) in
theorem run_redact (hvalid : l.Valid sha256) (h : (layout b).Holds l.contents objects)
    (id : ArtifactId) (r : RedactionRequest) :
    SameOutcome ((redact b id.text r).run (s3Step paging) objects).1 (l.redact id.text r).1 ∧
      (layout b).Holds (l.redact id.text r).2.contents
        ((redact b id.text r).run (s3Step paging) objects).2 := by
  rw [redact, ArtifactLedger.redact]
  by_cases hr : r.incomplete = true
  · rw [if_pos hr, if_pos hr]
    exact ⟨rfl, h⟩
  · rw [if_neg hr, if_neg hr]
    rcases manifest_cases hvalid h id with ⟨hl, e, hrun, hcls⟩ | ⟨data, media_type, hl, hrun⟩
    · rw [Program.run_bind_error _ hrun, ArtifactLedger.redaction_error hl]
      exact ⟨hcls, h⟩
    · obtain ⟨record, hrecord, hwf, -⟩ := ArtifactLedger.artifactRecord_manifestFor
        (sha256.hexdigest data) data media_type id.text r
      have hput : (putOr b (redaction_key id.text) record.canonical
        (.tombstoneConflict id.text)).run (s3Step paging) objects = _ :=
        run_putOr h (.redaction id) _ _
      simp only [ArtifactLedger.contents] at hput
      rw [Program.run_bind_ok _ hrun, ArtifactLedger.redaction_ok hl hrecord]
      simp only [hrecord, ArtifactLedger.digestText_manifestFor, Program.bind_done_ok]
      cases ht : l.redactions[id.text]? with
      | none =>
          rw [ht] at hput
          rw [Program.run_bind_ok _ hput, Program.run_bind_ok _ S3Backend.run_delete]
          exact ⟨rfl, holds_erase_blob (holds_insert_redaction h id record) (sha256.digest data)⟩
      | some existing =>
          obtain ⟨-, -, hwf', -⟩ := hvalid.redactions _ _ ht
          rw [ht] at hput
          simp only [Option.map_some, Json.canonical_inj hwf' hwf] at hput
          dsimp only
          by_cases heq : existing = record
          · rw [if_pos heq] at hput ⊢
            rw [Program.run_bind_ok _ hput, Program.run_bind_ok _ S3Backend.run_delete]
            exact ⟨heq.symm, holds_erase_blob h (sha256.digest data)⟩
          · rw [if_neg heq] at hput ⊢
            rw [Program.run_bind_error _ hput]
            exact ⟨rfl, h⟩

theorem run_get_redaction (hvalid : l.Valid sha256) (h : (layout b).Holds l.contents objects)
    (id : ArtifactId) :
    (get_redaction b id.text).run (s3Step paging) objects =
      (.ok l.redactions[id.text]?, objects) := by
  have hpresent : (is_redacted b id.text).run (s3Step paging) objects = _ := run_is_redacted h id
  rw [is_redacted] at hpresent
  rw [get_redaction, Program.run_bind_ok _ hpresent]
  cases ht : l.redactions[id.text]? with
  | none => rfl
  | some t =>
      obtain ⟨-, -, hwf, hobj⟩ := hvalid.redactions _ _ ht
      have hslot : l.contents (.redaction id) = some _ := congrArg (Option.map Json.canonical) ht
      have hread : (readDocument b (redaction_key id.text) (.invalidTombstone id.text)).run
        (s3Step paging) objects = _ := run_readDocument _ h hslot hwf
      refine (Program.run_bind_ok _ hread).trans ?_
      rw [orNone_of_isObj hobj]
      rfl

/-- Each call answers as the ledger does and leaves its bytes in the object store. -/
theorem refines_ledger :
    (ArtifactLedger.model sha256).Refines (layout b) SameOutcome (step sha256 b paging) := by
  rintro l objects call ⟨hvalid, h⟩
  cases call with
  | put_bytes data media_type temp temp' =>
      obtain ⟨hout, hholds⟩ := run_put_bytes paging hvalid h data media_type
      rw [step, program, Program.run_bind_pure]
      exact ⟨hout.map _, hholds⟩
  | read_bytes id =>
      obtain ⟨x, hrun, hout⟩ := run_read_bytes paging hvalid h id
      rw [step, program, Program.run_bind_pure, hrun]
      exact ⟨hout.map _, h⟩
  | verify id =>
      obtain ⟨x, hrun, hout⟩ := run_verify paging hvalid h id
      rw [step, program, Program.run_bind_pure, hrun]
      exact ⟨hout.map _, h⟩
  | redact id r temp =>
      obtain ⟨hout, hholds⟩ := run_redact paging hvalid h id r
      rw [step, program, Program.run_bind_pure]
      exact ⟨hout.map _, hholds⟩
  | get_redaction id =>
      rw [step, program, Program.run_bind_pure, run_get_redaction hvalid h id]
      exact ⟨rfl, h⟩

end Refinement

end S3ArtifactStore

end FossilCore
