import FossilCore.Runtime.IncrementalRebuild
import FossilCore.Source.Derivation

/-!
# Exports under redaction

`export_snapshot` and `RedactionPolicy` of `source.py`: what of the stores is shown.  After any
calls, what is withheld is what the redactions of the run name, and everything else is shown with
the bytes that were put.
-/

namespace FossilCore

open Base

namespace SourceSnapshotStore

variable (files : SourceFiles)

def artifactRedacted (artifact_id : String) : Except Error Bool :=
  ((ArtifactStore.is_redacted artifact_id).run fsStep files.artifacts).1

def artifactRedaction (artifact_id : String) : Except Error (Option Json) :=
  ((ArtifactStore.get_redaction artifact_id).run fsStep files.artifacts).1

def artifact_for_snapshot (snapshot_id : String) : Except Error String := do
  let snapshot ← snapshotAt files snapshot_id
  return (← liftPy (snapshot.getItem "artifact_id")).pyStr

def snapshot_is_redacted (snapshot_id : String) : Except Error Bool := do
  let artifact_id ← artifact_for_snapshot files snapshot_id
  artifactRedacted files artifact_id

structure ExportedSnapshot where
  snapshot : Json
  content : Option ByteArray
  redacted : Bool
  redaction : Option Json

def export_snapshot (snapshot_id : String) : Except Error ExportedSnapshot := do
  let snapshot ← snapshotAt files snapshot_id
  let artifact_id ← artifactIdOf snapshot
  let redacted ← artifactRedacted files artifact_id
  if redacted then
    let redaction ← artifactRedaction files artifact_id
    return ⟨snapshot, none, true, redaction⟩
  else
    let data ← artifactBytes files artifact_id
    return ⟨snapshot, some data, false, none⟩

end SourceSnapshotStore

/-! ## The policy on a source store -/

namespace SourceRedactionPolicy

open SourceSnapshotStore

variable (files : SourceFiles)

/-- The loop over `evidence_refs`. -/
def evidenceShown : List Json → Except Error Bool
  | [] => .ok true
  | artifact_id :: rest => do
      let redacted ← artifactRedacted files artifact_id.pyStr
      if redacted then return false else evidenceShown rest

/-- The loop over `source_snapshot_refs`; a snapshot that is not there is passed over. -/
def snapshotsShown : List Json → Except Error Bool
  | [] => .ok true
  | snapshot_id :: rest =>
      match snapshot_is_redacted files snapshot_id.pyStr with
      | .ok true => .ok false
      | .ok false => snapshotsShown rest
      | .error e => if e.cls.isFileNotFound then snapshotsShown rest else .error e

/-- The items of `event.get(key, [])` -/
def refsAt (event : Json) (key : String) : Except Error (List Json) := do
  let refs ← liftPy (event.getMethod key)
  iterate (refs.getD (.arr []))

def event_visible (event : Json) : Except Error Bool := do
  let shown ← refsAt event "evidence_refs" >>= evidenceShown files
  if shown then refsAt event "source_snapshot_refs" >>= snapshotsShown files
  else return false

def visible_events : List Json → Except Error (List Json)
  | [] => .ok []
  | event :: rest => do
      let visible ← event_visible files event
      let shown ← visible_events rest
      return if visible then event :: shown else shown

def export_event (event : Json) : Except Error (Option Json) := do
  let visible ← event_visible files event
  return if visible then some event else none

end SourceRedactionPolicy

/-! ## Redactions of a ledger -/

namespace ArtifactLedger

variable {sha256 : Sha256} {l : ArtifactLedger}

/-- A redaction is refused, or files its record, where there was none or the same one. -/
theorem redact_spec (l : ArtifactLedger) (artifact_id : String) (r : RedactionRequest) :
    (∃ e, l.redact artifact_id r = (.error e, l)) ∨
      ∃ record digest, l.redact artifact_id r = (.ok record, { l with
          blobs := l.blobs.erase digest
          redactions := l.redactions.insert artifact_id record }) ∧
        (l.redactions[artifact_id]? = none ∨ l.redactions[artifact_id]? = some record) := by
  rw [redact]
  split_ifs with hr
  · exact Or.inl ⟨_, rfl⟩
  cases hredaction : l.redaction artifact_id r with
  | error e => exact Or.inl ⟨e, rfl⟩
  | ok pair =>
      obtain ⟨record, digest⟩ := pair
      cases ht : l.redactions[artifact_id]? with
      | none => exact Or.inr ⟨record, digest, rfl, Or.inl rfl⟩
      | some existing =>
          by_cases hsame : existing = record
          · subst hsame
            have hinsert : l.redactions.insert artifact_id existing = l.redactions := by
              apply KeyMap.ext
              intro other
              rw [KeyMap.get?_insert]
              split_ifs with hother
              · rw [← hother, ht]
              · rfl
            exact Or.inr ⟨existing, digest, by simp only [hinsert, if_true], Or.inr rfl⟩
          · exact Or.inl ⟨_, by simp only [hsame, if_false]; rfl⟩

/-- Every manifest without a tombstone has its blob. -/
def Readable (sha256 : Sha256) (l : ArtifactLedger) : Prop :=
  ∀ (text : String) manifest, l.manifests[text]? = some manifest → l.redactions[text]? = none →
    ∃ data media_type, artifact_id_for_digest (sha256.hexdigest data) = text ∧
      manifest = manifestFor (sha256.hexdigest data) data media_type ∧
      l.blobs[sha256.hexdigest data]? = some data

theorem Readable.put_bytes (h : l.Readable sha256) (data : ByteArray) (media_type : String) :
    (l.put_bytes sha256 data media_type).2.Readable sha256 := by
  have hgrows : l.Grows (l.put_bytes sha256 data media_type).2 :=
    grows_put_bytes sha256 data media_type
  intro text manifest hmanifest hkept
  rw [hgrows.redactions] at hkept
  rcases put_bytes_manifests hmanifest with hold | ⟨htext, hok⟩
  · obtain ⟨data', media_type', hid, hm, hblob⟩ := h text manifest hold hkept
    exact ⟨data', media_type', hid, hm, hgrows.blobs _ _ hblob⟩
  · obtain ⟨-, hhas⟩ := put_bytes_ok hok
    have hsame := hhas.manifest
    rw [← htext, hmanifest] at hsame
    exact ⟨data, media_type, htext.symm, Option.some.inj hsame, hhas.blob⟩

/-- The blob that a redaction deletes is the one of the redacted artifact alone. -/
theorem Readable.redact (h : l.Readable sha256) (hvalid : l.Valid sha256) (id : ArtifactId)
    (r : RedactionRequest) : (l.redact id.text r).2.Readable sha256 := by
  rcases redact_cases hvalid id r with
    hsame | ⟨data, media_type, hm, hblobs, hmanifests, hredacted, hothers⟩
  · rw [hsame]
    exact h
  · intro text manifest hmanifest hkept
    have hne : text ≠ id.text := by
      rintro rfl
      rw [hkept] at hredacted
      cases hredacted
    rw [hmanifests] at hmanifest
    rw [hothers text hne] at hkept
    obtain ⟨data', media_type', hid, rfl, hblob⟩ := h text manifest hmanifest hkept
    have hdigest : sha256.hexdigest data ≠ sha256.hexdigest data' := by
      intro heq
      apply hne
      rw [← hid, ← heq]
      exact hvalid.manifest_id hm
    refine ⟨data', media_type', hid, rfl, ?_⟩
    rw [hblobs, KeyMap.get?_erase_ne _ hdigest]
    exact hblob

theorem Readable.step (h : l.Readable sha256) (hvalid : l.Valid sha256) (call : ArtifactCall) :
    (l.step sha256 call).2.Readable sha256 := by
  cases call with
  | put_bytes data media_type temp temp' => exact h.put_bytes data media_type
  | redact id r temp => exact h.redact hvalid id r
  | _ => exact h

theorem Readable.read_bytes (h : l.Readable sha256) {text : String} {manifest : Json}
    (hmanifest : l.manifests[text]? = some manifest) (hkept : l.redactions[text]? = none) :
    ∃ data media_type, manifest = manifestFor (sha256.hexdigest data) data media_type ∧
      l.read_bytes text = .ok data := by
  obtain ⟨data, media_type, rfl, hm, hblob⟩ := h text manifest hmanifest hkept
  subst hm
  exact ⟨data, media_type, rfl, (Has.mk hblob hmanifest hkept).read_bytes⟩

end ArtifactLedger

/-! ## Redactions of a run -/

namespace SourceSnapshotStore

/-- A redaction of the artifact was answered with the record, somewhere in the run. -/
def RedactedBy (sha256 : Sha256) (formats : FormatChecker) (calls : List Call)
    (artifact_id : String) (record : Json) : Prop :=
  ∃ (id : ArtifactId) (r : RedactionRequest) (temp : String), id.text = artifact_id ∧
    Runs.Answered (step sha256 formats) ⟨∅, ∅⟩ calls (.artifact (.redact id r temp))
      (.ok (.artifact (.document record)))

section Redactions

variable {sha256 : Sha256} {formats : FormatChecker} {calls : List Call} {l : ArtifactLedger}
  {files : SourceFiles} {artifact_id : String} {record : Json}

theorem redactedBy_append {call : Call} : RedactedBy sha256 formats (calls ++ [call]) artifact_id
      record ↔
    RedactedBy sha256 formats calls artifact_id record ∨
      ∃ (id : ArtifactId) (r : RedactionRequest) (temp : String), id.text = artifact_id ∧
        call = .artifact (.redact id r temp) ∧
        (step sha256 formats (Runs.after (step sha256 formats) ⟨∅, ∅⟩ calls) call).1 =
          .ok (.artifact (.document record)) := by
  simp only [RedactedBy, Runs.answered_concat]
  constructor
  · rintro ⟨id, r, temp, hid, hanswered | ⟨rfl, hanswer⟩⟩
    · exact Or.inl ⟨id, r, temp, hid, hanswered⟩
    · exact Or.inr ⟨id, r, temp, hid, rfl, hanswer⟩
  · rintro (⟨id, r, temp, hid, hanswered⟩ | ⟨id, r, temp, hid, rfl, hanswer⟩)
    · exact ⟨id, r, temp, hid, Or.inl hanswered⟩
    · exact ⟨id, r, temp, hid, Or.inr ⟨rfl, hanswer⟩⟩

/-- What holds after any calls: the tombstones are those of the run, and what has none can be
read. -/
structure AccountedFor (sha256 : Sha256) (formats : FormatChecker) (calls : List Call)
    (l : ArtifactLedger) : Prop where
  consistent : Consistent sha256 formats l (Runs.after (step sha256 formats) ⟨∅, ∅⟩ calls)
  readable : l.Readable sha256
  redactions : ∀ artifact_id record, l.redactions[artifact_id]? = some record ↔
    RedactedBy sha256 formats calls artifact_id record

theorem AccountedFor.put_snapshot (h : AccountedFor sha256 formats calls l) (call : SnapshotCall) :
    ∃ l', AccountedFor sha256 formats (calls ++ [.put_snapshot call]) l' := by
  obtain ⟨l', hconsistent, -, hledger, -⟩ := h.consistent.put_snapshot call
  have hreadable : l'.Readable sha256 ∧ ∀ text : String, l'.redactions[text]? =
      l.redactions[text]? := by
    rcases hledger with rfl | rfl
    · exact ⟨h.readable, fun _ => rfl⟩
    · refine ⟨h.readable.put_bytes _ _, ?_⟩
      rw [(ArtifactLedger.grows_put_bytes sha256 _ _).redactions]
      exact fun _ => rfl
  refine ⟨l', ?_, hreadable.1, ?_⟩
  · rw [Runs.after_append]
    exact hconsistent
  · intro artifact_id record
    rw [hreadable.2, h.redactions, redactedBy_append]
    refine ⟨Or.inl, ?_⟩
    rintro (hold | ⟨id, r, temp, -, hcall, -⟩)
    · exact hold
    · cases hcall

theorem answer_redact (h : (ArtifactLedger.model sha256).StoredAs ArtifactStore.layout l
      files.artifacts) (id : ArtifactId) (r : RedactionRequest) (temp : String) (record : Json) :
    (step sha256 formats files (.artifact (.redact id r temp))).1 =
        .ok (.artifact (.document record)) ↔ (l.redact id.text r).1 = .ok record := by
  have hsame : SameOutcome (ArtifactStore.step sha256 files.artifacts (.redact id r temp)).1
      ((l.redact id.text r).1.map .document) :=
    (ArtifactStore.refines_ledger l files.artifacts (.redact id r temp) h).1
  show ((ArtifactStore.step sha256 files.artifacts (.redact id r temp)).1.map Returned.artifact) =
    _ ↔ _
  generalize (ArtifactStore.step sha256 files.artifacts (.redact id r temp)).1 = x at hsame ⊢
  cases hredact : (l.redact id.text r).1 with
  | error e =>
      rw [hredact] at hsame
      obtain ⟨e', rfl⟩ := hsame.error_right
      exact iff_of_false (by simp [Except.map]) (by simp)
  | ok written =>
      rw [hredact] at hsame
      cases hsame.ok_right
      simp [Except.map]

theorem AccountedFor.artifact (h : AccountedFor sha256 formats calls l) (call : ArtifactCall) :
    AccountedFor sha256 formats (calls ++ [.artifact call]) (l.step sha256 call).2 := by
  have hvalid := h.consistent.stored.valid
  refine ⟨?_, h.readable.step hvalid call, ?_⟩
  · rw [Runs.after_append]
    exact h.consistent.put_artifact call
  intro artifact_id record
  rw [redactedBy_append, ← h.redactions]
  generalize hfiles : Runs.after (step sha256 formats) ⟨∅, ∅⟩ calls = files
  have hstored := h.consistent.stored
  rw [hfiles] at hstored
  by_cases hcall : ArtifactLedger.isRedaction call = true
  · cases call with
    | redact id r temp =>
        have hanswer : ∀ record, (step sha256 formats files (.artifact (.redact id r temp))).1 =
            .ok (.artifact (.document record)) ↔ (l.redact id.text r).1 = .ok record :=
          fun record => answer_redact hstored id r temp record
        change (l.redact id.text r).2.redactions[artifact_id]? = some record ↔ _
        rcases l.redact_spec id.text r with ⟨e, hredact⟩ | ⟨written, digest, hredact, hbefore⟩
        · rw [hredact]
          refine ⟨Or.inl, ?_⟩
          rintro (hold | ⟨id', r', temp', -, heq, hok⟩)
          · exact hold
          · cases heq
            rw [(hanswer record), hredact] at hok
            cases hok
        · rw [hredact, KeyMap.get?_insert]
          constructor
          · intro hrecord
            split_ifs at hrecord with htext
            · cases hrecord
              exact Or.inr ⟨id, r, temp, htext, rfl, (hanswer record).mpr (by rw [hredact])⟩
            · exact Or.inl hrecord
          · rintro (hold | ⟨id', r', temp', htext, heq, hok⟩)
            · split_ifs with htext
              · rw [htext, hold] at hbefore
                rcases hbefore with hnone | hsome
                · cases hnone
                · exact hsome.symm
              · exact hold
            · cases heq
              rw [if_pos htext]
              rw [hanswer record, hredact] at hok
              cases hok
              rfl
    | _ => cases hcall
  · have hsame : (l.step sha256 call).2.redactions[artifact_id]? = l.redactions[artifact_id]? := by
      cases call with
      | redact id r temp => exact absurd rfl hcall
      | put_bytes data media_type temp temp' =>
          rw [ArtifactLedger.step_put_bytes,
            (ArtifactLedger.grows_put_bytes sha256 data media_type).redactions]
      | _ => rfl
    rw [hsame]
    refine ⟨Or.inl, ?_⟩
    rintro (hold | ⟨id, r, temp, -, heq, -⟩)
    · exact hold
    · cases heq
      exact absurd rfl hcall

theorem accounted_run (sha256 : Sha256) (formats : FormatChecker) (calls : List Call) :
    ∃ l, AccountedFor sha256 formats calls l := by
  induction calls using List.reverseRecOn with
  | nil =>
      refine ⟨.empty, consistent_empty sha256 formats, ?_, ?_⟩
      · intro text manifest hmanifest
        simp [ArtifactLedger.empty] at hmanifest
      · intro artifact_id record
        refine iff_of_false (by simp [ArtifactLedger.empty]) ?_
        rintro ⟨id, r, temp, -, before, rest, heq, -⟩
        simp at heq
  | append_singleton calls call ih =>
      obtain ⟨l, h⟩ := ih
      cases call with
      | artifact call => exact ⟨_, h.artifact call⟩
      | put_snapshot call => exact h.put_snapshot call

end Redactions

/-! ## Exports of a run -/

section Exports

variable {sha256 : Sha256} {formats : FormatChecker} {calls : List Call} {l : ArtifactLedger}
  {files : SourceFiles} {snapshot_id artifact_id : String} {snapshot : Json}

theorem artifactRedacted_eq (h : (ArtifactLedger.model sha256).StoredAs ArtifactStore.layout l
    files.artifacts) (artifact_id : String) :
    artifactRedacted files artifact_id = .ok l.redactions[artifact_id]?.isSome := by
  by_cases hid : ∃ id : ArtifactId, id.text = artifact_id
  · obtain ⟨id, rfl⟩ := hid
    rw [artifactRedacted, ArtifactStore.run_is_redacted h.holds id]
  · have hnone : l.redactions[artifact_id]? = none := by
      apply Option.eq_none_iff_forall_ne_some.mpr
      intro t ht
      obtain ⟨id, hid', -⟩ := h.valid.redactions _ _ ht
      exact hid ⟨id, hid'⟩
    have hfree : files.artifacts[ArtifactStore.redaction_path artifact_id]? = none := by
      apply h.holds.free
      intro slot hslot
      cases slot with
      | redaction id =>
          simp only [ArtifactStore.layout, ArtifactStore.slotPath, ArtifactStore.redaction_path,
            List.cons.injEq, and_true, true_and] at hslot
          exact hid ⟨id, StableId.fileName_inj hslot.2⟩
      | blob d =>
          simp [ArtifactStore.layout, ArtifactStore.slotPath, ArtifactStore.blob_path,
            ArtifactStore.redaction_path] at hslot
      | manifest id =>
          simp [ArtifactStore.layout, ArtifactStore.slotPath, ArtifactStore.manifest_path,
            ArtifactStore.redaction_path] at hslot
    rw [artifactRedacted, ArtifactStore.is_redacted, run_isPresent, hfree, hnone]
    rfl

/-- The artifact of a stored snapshot: its id, and the manifest that is there for it. -/
theorem Consistent.artifact_of_snapshot (h : Consistent sha256 formats l files)
    (hat : SourceSnapshotStore.snapshotAt files snapshot_id = .ok snapshot) :
    ∃ (id : ArtifactId) (digest : String) (data : ByteArray) (media_type : String),
      snapshot.get? "artifact_id" = some (.str id.text) ∧
        snapshot.get? "content_hash" = some (contentHash digest) ∧
        l.manifests[id.text]? = some (manifestFor digest data media_type) := by
  obtain ⟨call, hdescribes, -⟩ := h.snapshotAt hat
  obtain ⟨normalized, source_id, -, -, rfl⟩ := hdescribes.shape
  have hreads := reads_snapshotWith sha256 call.call normalized source_id
  refine ⟨⟨_, isPrefixedId_artifact (sha256.digest call.call.data)⟩, _, _, _, ?_,
    hreads.content_hash, hdescribes.artifact⟩
  rw [get?_snapshotWith]
  rfl

theorem export_snapshot_eq {redacted : Bool} (hat : snapshotAt files snapshot_id = .ok snapshot)
    (hid : snapshot.get? "artifact_id" = some (.str artifact_id))
    (hredacted : artifactRedacted files artifact_id = .ok redacted) :
    export_snapshot files snapshot_id = if redacted = true then
        (artifactRedaction files artifact_id).map fun redaction => ⟨snapshot, none, true, redaction⟩
      else (artifactBytes files artifact_id).map fun data => ⟨snapshot, some data, false, none⟩ := by
  simp only [export_snapshot, hat, artifactIdOf_ok_iff.mpr hid, hredacted, bind, Except.bind]
  cases redacted with
  | true => cases artifactRedaction files artifact_id <;> rfl
  | false => cases artifactBytes files artifact_id <;> rfl

/-- What is exported of a stored snapshot: its record when its artifact is redacted, and else the
bytes of the digest that it states. -/
structure Exports (sha256 : Sha256) (formats : FormatChecker) (calls : List Call) (snapshot : Json)
    (exported : ExportedSnapshot) : Prop where
  same : exported.snapshot = snapshot
  redacted : exported.redacted = true ↔
    ∃ record, RedactedBy sha256 formats calls (textOf snapshot "artifact_id") record
  withheld : exported.redacted = true → exported.content = none ∧
    ∃ record, exported.redaction = some record ∧
      RedactedBy sha256 formats calls (textOf snapshot "artifact_id") record
  shown : exported.redacted = false → exported.redaction = none ∧
    ∃ data, exported.content = some data ∧
      snapshot.get? "content_hash" = some (contentHash (sha256.hexdigest data))

theorem AccountedFor.export_snapshot (h : AccountedFor sha256 formats calls l)
    (hat : snapshotAt (Runs.after (step sha256 formats) ⟨∅, ∅⟩ calls) snapshot_id = .ok snapshot) :
    ∃ exported, SourceSnapshotStore.export_snapshot (Runs.after (step sha256 formats) ⟨∅, ∅⟩ calls)
      snapshot_id = .ok exported ∧ Exports sha256 formats calls snapshot exported := by
  obtain ⟨id, digest, data, media_type, hid, hhash, hmanifest⟩ := h.consistent.artifact_of_snapshot hat
  have hstored := h.consistent.stored
  have hredactions := h.redactions id.text
  have hreadable := h.readable.read_bytes hmanifest
  generalize Runs.after (step sha256 formats) ⟨∅, ∅⟩ calls = files at hat hstored ⊢
  have htext : textOf snapshot "artifact_id" = id.text := textOf_of_get? hid
  have hrun := export_snapshot_eq hat hid (artifactRedacted_eq hstored id.text)
  cases ht : l.redactions[id.text]? with
  | some record =>
      have hby := (hredactions record).mp ht
      have hread : artifactRedaction files id.text = .ok (some record) := by
        rw [artifactRedaction, ArtifactStore.run_get_redaction hstored.valid hstored.holds, ht]
      refine ⟨⟨snapshot, none, true, some record⟩, ?_, rfl, ?_, ?_, ?_⟩
      · rw [hrun, ht, hread]
        rfl
      · rw [htext]
        exact iff_of_true rfl ⟨record, hby⟩
      · rw [htext]
        exact fun _ => ⟨rfl, record, rfl, hby⟩
      · intro hfalse
        cases hfalse
  | none =>
      obtain ⟨bytes, media, hsame, hbytes⟩ := hreadable ht
      have hread : artifactBytes files id.text = .ok bytes :=
        (ArtifactStore.read_bytes_eq_ok hstored id).mpr hbytes
      have hdigest : digest = sha256.hexdigest bytes := by
        have hget := congrArg (fun v => v.getItem "content_hash") hsame
        simp only [ArtifactLedger.getItem_content_hash, Except.ok.injEq] at hget
        have hinner := congrArg (fun v => v.getItem "digest") hget
        simp only [ArtifactLedger.getItem_digest, Except.ok.injEq, Json.str.injEq] at hinner
        exact hinner
      refine ⟨⟨snapshot, some bytes, false, none⟩, ?_, rfl, ?_, ?_, ?_⟩
      · rw [hrun, ht, hread]
        rfl
      · refine iff_of_false (by simp) ?_
        rw [htext]
        rintro ⟨record, hby⟩
        rw [(hredactions record).mpr hby] at ht
        cases ht
      · intro htrue
        cases htrue
      · rw [hhash, hdigest]
        exact fun _ => ⟨rfl, bytes, rfl, rfl⟩

end Exports

end SourceSnapshotStore

/-! ## Visible events -/

namespace SourceRedactionPolicy

open SourceSnapshotStore

section Visible

variable {sha256 : Sha256} {formats : FormatChecker} {calls : List Call} {l : ArtifactLedger}
  {files : SourceFiles} {refs : List Json} {event : Json}

/-- The references of the event are listed, when there are any. -/
structure ListsRefs (event : Json) : Prop where
  evidence : ∃ refs, refsAt event "evidence_refs" = .ok refs
  snapshots : ∃ refs, refsAt event "source_snapshot_refs" = .ok refs

/-- Nothing that the event refers to was redacted in the run. -/
structure Visible (sha256 : Sha256) (formats : FormatChecker) (calls : List Call) (event : Json) :
    Prop where
  evidence : ∀ refs, refsAt event "evidence_refs" = .ok refs → ∀ ref ∈ refs, ∀ record,
    ¬ RedactedBy sha256 formats calls ref.pyStr record
  snapshots : ∀ refs, refsAt event "source_snapshot_refs" = .ok refs → ∀ ref ∈ refs,
    ∀ snapshot, snapshotAt (Runs.after (step sha256 formats) ⟨∅, ∅⟩ calls) ref.pyStr =
      .ok snapshot → ∀ record,
        ¬ RedactedBy sha256 formats calls (textOf snapshot "artifact_id") record

theorem evidenceShown_eq (h : (ArtifactLedger.model sha256).StoredAs ArtifactStore.layout l
    files.artifacts) (refs : List Json) : ∃ shown, evidenceShown files refs = .ok shown ∧
      (shown = true ↔ ∀ ref ∈ refs, l.redactions[ref.pyStr]? = none) := by
  induction refs with
  | nil => exact ⟨true, rfl, by simp⟩
  | cons ref rest ih =>
      obtain ⟨shown, hrest, hiff⟩ := ih
      rw [evidenceShown, artifactRedacted_eq h]
      cases ht : l.redactions[ref.pyStr]? with
      | some record => exact ⟨false, rfl, by rw [List.forall_mem_cons, ht]; simp⟩
      | none =>
          refine ⟨shown, hrest, ?_⟩
          rw [List.forall_mem_cons, hiff]
          simp only [ht, true_and]

theorem snapshot_is_redacted_eq (h : AccountedFor sha256 formats calls l) (snapshot_id : String) :
    let files := Runs.after (step sha256 formats) ⟨∅, ∅⟩ calls
    (∃ e, snapshot_is_redacted files snapshot_id = .error e ∧ e.cls.isFileNotFound = true ∧
        ∀ snapshot, snapshotAt files snapshot_id ≠ .ok snapshot) ∨
      ∃ snapshot, snapshotAt files snapshot_id = .ok snapshot ∧
        snapshot_is_redacted files snapshot_id =
          .ok l.redactions[textOf snapshot "artifact_id"]?.isSome := by
  intro files
  cases hfile : files.sources[snapshot_path snapshot_id]? with
  | none =>
      have hat : snapshotAt files snapshot_id =
          .error (.ofPython (.fileNotFoundError (pathText (snapshot_path snapshot_id)))) := by
        rw [snapshotAt, get_snapshot, run_readJson_none hfile]
      refine Or.inl ⟨.ofPython (.fileNotFoundError (pathText (snapshot_path snapshot_id))), ?_, rfl, ?_⟩
      · rw [snapshot_is_redacted, artifact_for_snapshot, hat]
        rfl
      · intro snapshot hsome
        rw [hat] at hsome
        cases hsome
  | some data =>
      obtain ⟨snapshot, hat⟩ := readable_of_file h.consistent.documents hfile
      obtain ⟨id, -, -, -, hid, -, -⟩ := h.consistent.artifact_of_snapshot hat
      refine Or.inr ⟨snapshot, hat, ?_⟩
      have hitem : liftPy (snapshot.getItem "artifact_id") = .ok (.str id.text) :=
        liftPy_eq_ok.mpr (Json.getItem_of_get? hid)
      have hartifact : artifact_for_snapshot files snapshot_id = .ok id.text := by
        rw [artifact_for_snapshot, hat]
        show (liftPy (snapshot.getItem "artifact_id") >>= _) = _
        rw [hitem]
        rfl
      rw [snapshot_is_redacted, hartifact, textOf_of_get? hid]
      exact artifactRedacted_eq h.consistent.stored id.text

theorem snapshotsShown_eq (h : AccountedFor sha256 formats calls l) (refs : List Json) :
    let files := Runs.after (step sha256 formats) ⟨∅, ∅⟩ calls
    ∃ shown, snapshotsShown files refs = .ok shown ∧
      (shown = true ↔ ∀ ref ∈ refs, ∀ snapshot, snapshotAt files ref.pyStr = .ok snapshot →
        l.redactions[textOf snapshot "artifact_id"]? = none) := by
  intro files
  induction refs with
  | nil => exact ⟨true, rfl, by simp⟩
  | cons ref rest ih =>
      obtain ⟨shown, hrest, hiff⟩ := ih
      rw [snapshotsShown]
      simp only [List.forall_mem_cons]
      rcases snapshot_is_redacted_eq h ref.pyStr with
        ⟨e, hredacted, hmissing, hnone⟩ | ⟨snapshot, hat, hredacted⟩
      · rw [hredacted]
        refine ⟨shown, by simp only [hmissing, if_true, hrest], ?_⟩
        rw [hiff]
        refine ⟨fun hall => ⟨fun snapshot hat => absurd hat (hnone snapshot), hall⟩, And.right⟩
      · rw [hredacted]
        have hown : (∀ other, snapshotAt files ref.pyStr = .ok other →
            l.redactions[textOf other "artifact_id"]? = none) ↔
              l.redactions[textOf snapshot "artifact_id"]? = none := by
          constructor
          · exact fun hall => hall snapshot hat
          · intro hkept other hother
            cases hat.symm.trans hother
            exact hkept
        rw [hown]
        cases ht : l.redactions[textOf snapshot "artifact_id"]? with
        | some record => exact ⟨false, rfl, by simp⟩
        | none => exact ⟨shown, hrest, by simp [hiff]⟩

theorem unredacted_iff (h : AccountedFor sha256 formats calls l) (artifact_id : String) :
    l.redactions[artifact_id]? = none ↔
      ∀ record, ¬ RedactedBy sha256 formats calls artifact_id record := by
  rw [Option.eq_none_iff_forall_ne_some]
  exact forall_congr' fun record => not_congr (h.redactions artifact_id record)

theorem event_visible_eq (h : AccountedFor sha256 formats calls l) (hrefs : ListsRefs event) :
    ∃ visible, event_visible (Runs.after (step sha256 formats) ⟨∅, ∅⟩ calls) event = .ok visible ∧
      (visible = true ↔ Visible sha256 formats calls event) := by
  obtain ⟨evidence, hevidence⟩ := hrefs.evidence
  obtain ⟨snapshots, hsnapshots⟩ := hrefs.snapshots
  obtain ⟨shown, hshown, hshown_iff⟩ := evidenceShown_eq h.consistent.stored evidence
  obtain ⟨shown', hshown', hshown_iff'⟩ := snapshotsShown_eq h snapshots
  have hboth : Visible sha256 formats calls event ↔ shown = true ∧ shown' = true := by
    rw [hshown_iff, hshown_iff']
    simp only [unredacted_iff h]
    constructor
    · exact fun hv => ⟨hv.evidence evidence hevidence, hv.snapshots snapshots hsnapshots⟩
    · rintro ⟨hfirst, hsecond⟩
      constructor
      · intro refs hrefs
        cases hevidence.symm.trans hrefs
        exact hfirst
      · intro refs hrefs
        cases hsnapshots.symm.trans hrefs
        exact hsecond
  rw [event_visible, hevidence]
  show ∃ visible, (evidenceShown _ evidence >>= _) = _ ∧ _
  rw [hshown]
  cases shown with
  | false => exact ⟨false, rfl, by simp [hboth]⟩
  | true =>
      refine ⟨shown', ?_, by simp [hboth]⟩
      show (refsAt event "source_snapshot_refs" >>= _) = _
      rw [hsnapshots]
      exact hshown'

/-- A policy that reads the same snapshots and tombstones from two maps says the same. -/
theorem event_visible_eq_policy (h : AccountedFor sha256 formats calls l) {policy : RedactionPolicy}
    (hsnapshots : ∀ snapshot_id, policy.snapshots[snapshot_id]? =
      (snapshotAt (Runs.after (step sha256 formats) ⟨∅, ∅⟩ calls) snapshot_id).toOption)
    (hredactions : policy.redactions = l.redactions) (event : Json) :
    event_visible (Runs.after (step sha256 formats) ⟨∅, ∅⟩ calls) event =
      policy.event_visible event := by
  have hredacted : ∀ artifact_id, l.redactions[artifact_id]?.isSome =
      policy.is_redacted artifact_id := by
    intro artifact_id
    rw [RedactionPolicy.is_redacted, hredactions]
  have hevidence : ∀ refs, evidenceShown (Runs.after (step sha256 formats) ⟨∅, ∅⟩ calls) refs =
      .ok (!refs.any fun ref => policy.is_redacted ref.pyStr) := by
    intro refs
    induction refs with
    | nil => rfl
    | cons ref rest ih =>
        rw [evidenceShown, artifactRedacted_eq h.consistent.stored, List.any_cons, hredacted]
        cases policy.is_redacted ref.pyStr with
        | true => rfl
        | false => exact ih
  have hshown : snapshotsShown (Runs.after (step sha256 formats) ⟨∅, ∅⟩ calls) =
      policy.snapshotsVisible := by
    funext refs
    induction refs with
    | nil => rfl
    | cons ref rest ih =>
        rw [snapshotsShown, RedactionPolicy.snapshotsVisible, hsnapshots]
        rcases snapshot_is_redacted_eq h ref.pyStr with
          ⟨e, hmissed, hmissing, hnone⟩ | ⟨snapshot, hat, hfound⟩
        · rw [hmissed]
          cases hat : snapshotAt (Runs.after (step sha256 formats) ⟨∅, ∅⟩ calls) ref.pyStr with
          | ok snapshot => exact absurd hat (hnone snapshot)
          | error e' =>
              simp only [hmissing, if_true]
              exact ih
        · obtain ⟨id, -, -, -, hid, -, -⟩ := h.consistent.artifact_of_snapshot hat
          rw [hfound, hat, textOf_of_get? hid, hredacted]
          simp only [Except.toOption, Json.getItem_of_get? hid, liftPy_ok, bind, Except.bind]
          cases hid' : policy.is_redacted (Json.str id.text).pyStr with
          | true =>
              have hgone : policy.is_redacted id.text = true := hid'
              simp only [hgone]
              rfl
          | false =>
              have hlive : policy.is_redacted id.text = false := hid'
              simp only [hlive]
              exact ih
  rw [event_visible, RedactionPolicy.event_visible, hshown, refsAt, refsAt]
  cases event.getMethod "evidence_refs" with
  | error exc => rfl
  | ok evidence =>
      simp only [liftPy_ok, bind, Except.bind]
      cases iterate (evidence.getD (.arr [])) with
      | error e => rfl
      | ok refs =>
          simp only [hevidence]
          cases refs.any fun ref => policy.is_redacted ref.pyStr with
          | true => rfl
          | false =>
              cases event.getMethod "source_snapshot_refs" with
              | error exc => rfl
              | ok refs => rfl

end Visible

end SourceRedactionPolicy

end FossilCore
