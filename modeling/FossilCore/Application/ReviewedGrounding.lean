import FossilCore.Application.ReviewedBatch
import FossilCore.Source.Exports

/-!
# What reviewed evidence leaves behind

After any ingests, between which artifacts and snapshots may be put and artifacts redacted, the
events are proposals alone, and each cites one stored snapshot and the artifact of it.
-/

namespace FossilCore

open Base

namespace SourceSnapshotStore

variable {sha256 : Sha256} {formats : FormatChecker} {l : ArtifactLedger}
  {files files' : SourceFiles} {snapshot : Json}

/-- The snapshot that a call answers with is stored. -/
theorem put_snapshot_stored (h : Consistent sha256 formats l files) (call : SnapshotCall)
    (hput : put_snapshot sha256 formats call.call files = (.ok snapshot, files')) :
    snapshotAt files' (strAt snapshot "snapshot_id") = .ok snapshot := by
  rw [put_snapshot] at hput
  cases hnormalized : normalized_locator call.call.locator with
  | error e =>
      rw [hnormalized] at hput
      cases hput
  | ok normalized =>
      obtain ⟨x, hcheck, -⟩ := run_checkDerivation files.sources call.call
      simp only [hnormalized, hcheck] at hput
      cases x with
      | error e => cases hput
      | ok done =>
          obtain ⟨⟩ := done
          dsimp only at hput
          have hartifact := ArtifactStore.run_put_bytes h.stored.valid h.stored.holds
            call.call.data call.call.media_type call.call.blob_uuid call.call.manifest_uuid
          generalize (ArtifactStore.put_bytes sha256 call.call.data call.call.media_type
            call.call.blob_uuid call.call.manifest_uuid).run fsStep files.artifacts = r
            at hartifact hput
          obtain ⟨result, artifacts⟩ := r
          cases result with
          | error e => cases hput
          | ok artifact =>
              obtain ⟨rfl, -⟩ := ArtifactLedger.put_bytes_ok hartifact.1.ok_left
              cases hfor : snapshotFor sha256 call.call normalized (manifestFor
                  (sha256.hexdigest call.call.data) call.call.data call.call.media_type) with
              | error e =>
                  simp only [hfor] at hput
                  cases hput
              | ok described =>
                  cases hvalid : validateSchema (snapshotSchema formats) described with
                  | error e =>
                      simp only [hfor, hvalid] at hput
                      cases hput
                  | ok _ =>
                      obtain ⟨source_id, -, rfl⟩ := snapshotFor_manifestFor.mp hfor
                      have hwf := call.wf_snapshotWith sha256 hnormalized source_id
                      simp only [hfor, hvalid, run_publishSnapshot h.documents hwf] at hput
                      obtain ⟨id, hid, htext, -⟩ :=
                        snapshot_id_of_schema (validateSchema_ok.mp hvalid)
                      rw [htext] at hput
                      have hstored : snapshot = snapshotWith sha256 call.call normalized source_id ∧
                          files'.sources[snapshot_path id]? = some snapshot.canonical := by
                        cases hfile : files.sources[snapshot_path id]? with
                        | none =>
                            rw [hfile] at hput
                            cases hput
                            exact ⟨rfl, KeyMap.get?_insert_self _ _ _⟩
                        | some data =>
                            rw [hfile] at hput
                            dsimp only at hput
                            split at hput
                            case isTrue heq =>
                              cases hput
                              exact ⟨rfl, by rw [hfile, heq]⟩
                            case isFalse => cases hput
                      obtain ⟨rfl, hfile⟩ := hstored
                      rw [strAt_of_get? hid]
                      exact snapshotAt_of_file hwf hfile

end SourceSnapshotStore

namespace ReviewedEvidence

open DurableEventStore (event_path redaction_path)
open SourceSnapshotStore (snapshotAt export_snapshot)

/-- A call of the service, or one of the source store made beside it. -/
inductive ReviewCall where
  | ingest (batch : Batch)
  | source (call : SourceSnapshotStore.Call)

def reviewStep (config : StoreConfig) (lower : String → String) (files : IngestFiles) :
    ReviewCall → Option (Except Error Json) × IngestFiles
  | .ingest batch =>
      let (result, files) := ingest config lower batch files
      (some result, files)
  | .source call =>
      (none, { files with
        sources := (SourceSnapshotStore.step config.sha256 config.formats files.sources call).2 })

/-- The snapshot that an event cites, alone and with its artifact. -/
structure Cites (sources : SourceFiles) (event snapshot : Json) : Prop where
  stored : ∃ snapshot_id, snapshotAt sources snapshot_id = .ok snapshot ∧
    event.get? "source_snapshot_refs" = some (.arr [.str snapshot_id])
  artifact : ∃ artifact_id, snapshot.get? "artifact_id" = some (.str artifact_id) ∧
    event.get? "evidence_refs" = some (.arr [.str artifact_id])

/-- A reviewed event: a claim that was proposed, of a stored source. -/
structure Proposal (config : StoreConfig) (sources : SourceFiles) (event : Json) : Prop where
  accepted : Accepted config.formats config.resolvers event
  proposed : event.get? "event_type" = some (.str "claim.proposed")
  grounded : ∃ snapshot, Cites sources event snapshot

/-- The event files are those of reviewed events. -/
structure Reviewed (config : StoreConfig) (files : IngestFiles) : Prop where
  sources : ∃ l, SourceSnapshotStore.Consistent config.sha256 config.formats l files.sources
  ledger : OfLedger config files.events
  events : ∀ (path : Path) data, files.events[path]? = some data → ∃ event,
    path = event_path (idText event) ∧ data = event.canonical ∧
      Proposal config files.sources event

section Grounding

variable {config : StoreConfig} {lower : String → String} {batch : Batch}
  {files files' : IngestFiles} {sources sources' : SourceFiles} {artifact_id snapshot_id : String}
  {event snapshot : Json} {index : ℕ} {draft : ReviewedClaimDraft}

/-- The gate changes the id of an event at most. -/
theorem get?_of_validate
    (h : config.validate (claimEvent batch artifact_id snapshot_id index draft)
      (batch.uuid index) = .ok event) {key : String} (hkey : key ≠ "event_id") :
    event.get? key = (claimEvent batch artifact_id snapshot_id index draft).get? key := by
  obtain ⟨hassigned, -⟩ := prepare_ok (validate_ok h).1
  rcases assignId_ok hassigned with ⟨-, rfl⟩ | ⟨-, -, rfl⟩ | ⟨-, -, rfl⟩
  · exact Json.get?_set_ne _ _ hkey
  · exact Json.get?_set_ne _ _ hkey
  · rfl

theorem proposal_of_prepared
    (h : config.validate (claimEvent batch artifact_id snapshot_id index draft)
      (batch.uuid index) = .ok event)
    (hat : snapshotAt sources snapshot_id = .ok snapshot)
    (hartifact : snapshot.get? "artifact_id" = some (.str artifact_id)) :
    Proposal config sources event := by
  refine ⟨(validate_ok h).2, ?_, snapshot, ⟨snapshot_id, hat, ?_⟩, artifact_id, hartifact, ?_⟩
  · rw [get?_of_validate h (by decide)]
    exact Json.get?_member (by simp) (by simp)
  · rw [get?_of_validate h (by decide)]
    exact Json.get?_member (by simp) (by simp)
  · rw [get?_of_validate h (by decide)]
    exact Json.get?_member (by simp) (by simp)

theorem Proposal.mono (h : Proposal config sources event)
    (hfiles : ∀ (path : Path) data, sources.sources[path]? = some data →
      sources'.sources[path]? = some data) : Proposal config sources' event := by
  obtain ⟨snapshot, ⟨snapshot_id, hat, hcited⟩, hartifact⟩ := h.grounded
  exact ⟨h.accepted, h.proposed, snapshot,
    ⟨snapshot_id, SourceSnapshotStore.snapshotAt_mono hfiles hat, hcited⟩, hartifact⟩

theorem Proposal.congr (h : Proposal config sources event)
    (hsame : sources'.sources = sources.sources) : Proposal config sources' event :=
  h.mono fun path data hdata => by rwa [hsame]

/-- What a batch does to the source store is what its one snapshot call does, if it is made. -/
theorem prepare_sources (config : StoreConfig) (lower : String → String) (batch : Batch)
    (sources : SourceFiles) : (prepare config lower batch sources).2 = sources ∨
      (prepare config lower batch sources).2 =
        (SourceSnapshotStore.put_snapshot config.sha256 config.formats batch.source.call
          sources).2 := by
  rw [prepare]
  cases openReceipt config.sha256 config.formats lower batch.opening with
  | error e => exact Or.inl rfl
  | ok receipt =>
      cases _normalize_source_kind lower batch.opening.source_kind with
      | error e => exact Or.inl rfl
      | ok source_kind =>
          dsimp only
          split
          · exact Or.inl rfl
          · right
            generalize SourceSnapshotStore.put_snapshot config.sha256 config.formats
              batch.source.call sources = r
            obtain ⟨result, sources'⟩ := r
            cases result with
            | error e => rfl
            | ok snapshot =>
                dsimp only
                split
                · rfl
                · cases prepareEvents config batch (strAt snapshot "artifact_id")
                    (strAt snapshot "snapshot_id") 0 batch.claims <;> rfl

theorem ingest_sources (config : StoreConfig) (lower : String → String) (batch : Batch)
    (files : IngestFiles) : (ingest config lower batch files).2.sources =
      (prepare config lower batch files.sources).2 := by
  cases hprepared : (prepare config lower batch files.sources).1 with
  | error e =>
      rw [ingest]
      generalize prepare config lower batch files.sources = prepared at hprepared ⊢
      obtain ⟨result, sources⟩ := prepared
      obtain rfl : result = .error e := hprepared
      rfl
  | ok p =>
      cases p with
      | rejected receipt =>
          rw [ingest]
          generalize prepare config lower batch files.sources = prepared at hprepared ⊢
          obtain ⟨result, sources⟩ := prepared
          obtain rfl : result = .ok (.rejected receipt) := hprepared
          rfl
      | proposals receipt events => exact (ingest_proposals hprepared).2.2

/-- Of a prepared batch, every event is a proposal over the source that was preserved. -/
theorem proposals_of_prepared {receipt : Json} {events : List Json} {l : ArtifactLedger}
    (h : SourceSnapshotStore.Consistent config.sha256 config.formats l sources)
    (hprepared : (prepare config lower batch sources).1 = .ok (.proposals receipt events)) :
    ∀ event ∈ events, Proposal config (prepare config lower batch sources).2 event := by
  obtain ⟨snapshot, hput, -, hevents⟩ := prepare_proposals hprepared
  obtain ⟨l', hconsistent, -⟩ := h.put_snapshot batch.source
  have hat := SourceSnapshotStore.put_snapshot_stored h batch.source hput
  rw [hput] at hconsistent
  obtain ⟨id, -, -, -, hartifact, -, -⟩ := hconsistent.artifact_of_snapshot hat
  rw [strAt_of_get? hartifact] at hevents
  intro event hevent
  obtain ⟨index, draft, hvalidate⟩ := (prepareEvents_ok hevents).2 event hevent
  exact proposal_of_prepared hvalidate hat hartifact

/-- What a call keeps of the stores: every file of the events and of the sources. -/
structure Grown (files files' : IngestFiles) : Prop where
  events : ∀ (path : Path) data, files.events[path]? = some data →
    files'.events[path]? = some data
  sources : ∀ (path : Path) data, files.sources.sources[path]? = some data →
    files'.sources.sources[path]? = some data

theorem Reviewed.of_events (h : Reviewed config files)
    (hsources : ∃ l, SourceSnapshotStore.Consistent config.sha256 config.formats l files'.sources)
    (hgrown : ∀ (path : Path) data, files.sources.sources[path]? = some data →
      files'.sources.sources[path]? = some data) (hevents : files'.events = files.events) :
    Reviewed config files' ∧ Grown files files' := by
  refine ⟨⟨hsources, ?_, ?_⟩, ?_, hgrown⟩
  · rw [hevents]
    exact h.ledger
  · intro path data hdata
    rw [hevents] at hdata
    obtain ⟨event, hpath, hcanonical, hproposal⟩ := h.events path data hdata
    exact ⟨event, hpath, hcanonical, hproposal.mono hgrown⟩
  · rw [hevents]
    exact fun _ _ hdata => hdata

theorem Reviewed.step (h : Reviewed config files) (call : ReviewCall) :
    Reviewed config (reviewStep config lower files call).2 ∧
      Grown files (reviewStep config lower files call).2 := by
  obtain ⟨l, hconsistent⟩ := h.sources
  cases call with
  | source call =>
      obtain ⟨l', hconsistent', hlater, -⟩ := hconsistent.step call
      exact h.of_events ⟨l', hconsistent'⟩ hlater.files rfl
  | ingest batch =>
      show Reviewed config (ingest config lower batch files).2 ∧
        Grown files (ingest config lower batch files).2
      have hsources : ∃ l', SourceSnapshotStore.Consistent config.sha256 config.formats l'
            (ingest config lower batch files).2.sources ∧
          ∀ (path : Path) data, files.sources.sources[path]? = some data →
            (ingest config lower batch files).2.sources.sources[path]? = some data := by
        rw [ingest_sources]
        rcases prepare_sources config lower batch files.sources with hsame | hput
        · rw [hsame]
          exact ⟨l, hconsistent, fun _ _ hdata => hdata⟩
        · rw [hput]
          obtain ⟨l', hconsistent', hlater, -⟩ := hconsistent.put_snapshot batch.source
          exact ⟨l', hconsistent', hlater.files⟩
      obtain ⟨l', hconsistent', hgrown⟩ := hsources
      cases hprepared : (prepare config lower batch files.sources).1 with
      | error e => exact h.of_events ⟨l', hconsistent'⟩ hgrown (ingest_error hprepared).2
      | ok p =>
          cases p with
          | rejected receipt =>
              exact h.of_events ⟨l', hconsistent'⟩ hgrown (ingest_rejected hprepared).2
          | proposals receipt events =>
              obtain ⟨done, hinitial, hfit, hfiled, hledger⟩ := ingest_filed h.ledger hprepared
              have hnew := proposals_of_prepared hconsistent hprepared
              rw [← ingest_sources] at hnew
              refine ⟨⟨⟨l', hconsistent'⟩, hledger, ?_⟩, ?_, hgrown⟩
              · intro path data hdata
                rcases hfiled.cases path with ⟨entry, hentry, rfl, hhere⟩ | ⟨-, hsame⟩
                · obtain ⟨event, hevent, rfl⟩ := List.mem_map.mp hentry
                  rw [hhere] at hdata
                  cases hdata
                  exact ⟨event, rfl, rfl, hnew event (hinitial.subset hevent)⟩
                · rw [hsame] at hdata
                  obtain ⟨event, hpath, hcanonical, hproposal⟩ := h.events path data hdata
                  exact ⟨event, hpath, hcanonical, hproposal.mono hgrown⟩
              · intro path data hdata
                rcases hfiled.cases path with ⟨entry, hentry, rfl, hhere⟩ | ⟨-, hsame⟩
                · rw [hhere, hfit.fits.free entry hentry data hdata]
                · rw [hsame]
                  exact hdata

theorem Grown.refl (files : IngestFiles) : Grown files files :=
  ⟨fun _ _ hdata => hdata, fun _ _ hdata => hdata⟩

theorem Grown.trans {files'' : IngestFiles} (h : Grown files files') (h' : Grown files' files'') :
    Grown files files'' :=
  ⟨fun path data hdata => h'.events path data (h.events path data hdata),
    fun path data hdata => h'.sources path data (h.sources path data hdata)⟩

theorem Reviewed.run (h : Reviewed config files) (calls : List ReviewCall) :
    Reviewed config (Runs.after (reviewStep config lower) files calls) ∧
      Grown files (Runs.after (reviewStep config lower) files calls) := by
  induction calls generalizing files with
  | nil => exact ⟨h, Grown.refl files⟩
  | cons call calls ih =>
      obtain ⟨hstep, hgrown⟩ := h.step call
      obtain ⟨hrun, hgrown'⟩ := ih hstep
      exact ⟨hrun, hgrown.trans hgrown'⟩

theorem reviewed_empty (config : StoreConfig) : Reviewed config ⟨⟨∅, ∅⟩, ∅⟩ where
  sources := ⟨_, SourceSnapshotStore.consistent_empty config.sha256 config.formats⟩
  ledger := ⟨_, storedAs_empty⟩
  events path data hdata := by simp at hdata

end Grounding

end ReviewedEvidence

/-- After any ingests, between which sources are put and redacted, every file of the event store is
an accepted proposal that cites one stored snapshot and its artifact; the manifest of the artifact
of a stored snapshot is there and states the hash of the snapshot; and no file of the event store
is lost or changed by what comes after. -/
theorem reviewed_events_grounded (config : StoreConfig) (lower : String → String)
    (calls more : List ReviewedEvidence.ReviewCall) :
    let files := Runs.after (ReviewedEvidence.reviewStep config lower) ⟨⟨∅, ∅⟩, ∅⟩ calls
    (∀ (path : Path) data, files.events[path]? = some data → ∃ event,
      path = DurableEventStore.event_path (ReviewedEvidence.idText event) ∧
        data = event.canonical ∧ ReviewedEvidence.Proposal config files.sources event) ∧
    (∀ snapshot_id snapshot,
      SourceSnapshotStore.snapshotAt files.sources snapshot_id = .ok snapshot →
      ∃ artifact_id manifest, snapshot.get? "artifact_id" = some (.str artifact_id) ∧
        (ArtifactStore.get_manifest artifact_id).run fsStep files.sources.artifacts =
          (.ok manifest, files.sources.artifacts) ∧
        manifest.get? "content_hash" = snapshot.get? "content_hash") ∧
    ∀ (path : Path) data, files.events[path]? = some data →
      (Runs.after (ReviewedEvidence.reviewStep config lower) ⟨⟨∅, ∅⟩, ∅⟩
        (calls ++ more)).events[path]? = some data := by
  intro files
  obtain ⟨hreviewed, -⟩ :=
    @ReviewedEvidence.Reviewed.run config lower _ (ReviewedEvidence.reviewed_empty config) calls
  refine ⟨hreviewed.events, ?_, ?_⟩
  · intro snapshot_id snapshot hat
    obtain ⟨l, hconsistent⟩ := hreviewed.sources
    obtain ⟨id, digest, data, media_type, hid, hhash, hmanifest⟩ :=
      hconsistent.artifact_of_snapshot hat
    refine ⟨id.text, _, hid, ArtifactStore.run_get_manifest_some hconsistent.stored.holds hmanifest
      (ArtifactLedger.wf_manifestFor _ _ _), ?_⟩
    rw [hhash]
    exact Json.getItem_ok_iff.mp (ArtifactLedger.getItem_content_hash _ _ _)
  intro path data hdata
  rw [Runs.after_append]
  exact (hreviewed.run more).2.events path data hdata

end FossilCore
