import FossilCore.Application.ReviewedEvidence
import FossilCore.Base.Filing
import FossilCore.Adapters.OperationIds
import FossilCore.Source.Derivation

/-!
# Batches of reviewed claims

The whole of `ingest` of `application/ingest/reviewed_evidence.py`: the source is preserved, all
events of the batch are validated, and then they are committed one after another.
-/

namespace FossilCore

open Base

namespace ReviewedEvidence

def rawLogSourceKinds : List String := ["raw_ci_log", "raw_build_log", "raw_runtime_log"]

structure ReviewedClaimDraft where
  subject_ref : String
  claim_text : String
  reason : String

/-- A call of `ingest`; `uuid` and `temp` are the UUIDs that the event store draws, in order. -/
structure Batch where
  opening : Ingest
  source : SourceSnapshotStore.SnapshotCall
  claims : List ReviewedClaimDraft
  actor : Json
  actor_wf : actor.WF
  occurred_at : String
  recorded_at : String
  uuid : ℕ → String
  temp : ℕ → String

structure IngestFiles where
  sources : SourceFiles
  events : Files

/-- `receipt[key][inner] = v` -/
def setIn (receipt : Json) (key inner : String) (v : Json) : Json :=
  receipt.set key (((receipt.get? key).getD .null).set inner v)

def idempotencyKey (batch : Batch) (index : ℕ) (draft : ReviewedClaimDraft) : String :=
  "reviewed-evidence-ingest:" ++ batch.opening.correlation_id ++ ":" ++ toString index ++ ":" ++
    draft.subject_ref

def claimEvent (batch : Batch) (artifact_id snapshot_id : String) (index : ℕ)
    (draft : ReviewedClaimDraft) : Json :=
  .ofMembers [
    ("schema_version", .str "dkg.event.v1"),
    ("event_type", .str "claim.proposed"),
    ("occurred_at", .str batch.occurred_at),
    ("recorded_at", .str batch.recorded_at),
    ("pack_id", .str (packIdOf batch.opening)),
    ("actor", batch.actor),
    ("subject_refs", .arr [.str draft.subject_ref]),
    ("correlation_id", .str batch.opening.correlation_id),
    ("idempotency_key", .str (idempotencyKey batch index draft)),
    ("evidence_refs", .arr [.str artifact_id]),
    ("source_snapshot_refs", .arr [.str snapshot_id]),
    ("payload", .ofMembers [("claim_text", .str draft.claim_text), ("reason", .str draft.reason)]),
    ("provenance", .ofMembers [("method", .str "reviewed_evidence_ingest"),
      ("prompt_or_policy_ref", .str "skills/research-ingestion/manifest.json"),
      ("benchmark_ref", .str batch.opening.review_ref)])]

/-- The loop over the drafts. -/
def prepareEvents (config : StoreConfig) (batch : Batch) (artifact_id snapshot_id : String) :
    ℕ → List ReviewedClaimDraft → Except Error (List Json)
  | _, [] => .ok []
  | index, draft :: rest => do
      if Text.trim draft.subject_ref = "" then
        .error (ingestError "reviewed synthesis requires a stable subject_ref")
      else if Text.trim draft.claim_text = "" then
        .error (ingestError "reviewed synthesis requires non-empty claim_text")
      else
        let event ← config.validate (claimEvent batch artifact_id snapshot_id index draft)
          (batch.uuid index)
        let events ← prepareEvents config batch artifact_id snapshot_id (index + 1) rest
        return event :: events

/-- What `ingest` has when it comes to its commits, or returns without any. -/
inductive Prepared where
  | rejected (receipt : Json)
  | proposals (receipt : Json) (events : List Json)

def rejectedReceipt (receipt : Json) : Json :=
  setIn ((receipt.set "status" (.str "rejected")).set "rejection_reason"
    (.str "raw_ci_or_log_noise_not_wholesale_ingestable")) "validation" "source"
      (.str "rejected_by_ingest_policy")

def preservedReceipt (receipt : Json) (source_kind artifact_id snapshot_id : String) : Json :=
  setIn (receipt.set "source" (.ofMembers [("source_kind", .str source_kind),
    ("preserved", .bool true), ("artifact_id", .str artifact_id),
    ("snapshot_id", .str snapshot_id)])) "validation" "source" (.str "passed")

def validatedReceipt (receipt : Json) : Json :=
  setIn (setIn (setIn receipt "validation" "events" (.str "passed"))
    "validation" "provenance" (.str "passed")) "validation" "evidence" (.str "passed")

def proposedReceipt (receipt : Json) (committed : List Json) : Json :=
  ((receipt.set "status" (.str "proposed")).set "proposal_event_ids"
    (.arr (committed.map fun event => .str (strAt event "event_id")))).set "proposal_count"
      (.int committed.length)

/-- `ingest` before its commits. -/
def prepare (config : StoreConfig) (lower : String → String) (batch : Batch)
    (sources : SourceFiles) : Except Error Prepared × SourceFiles :=
  match openReceipt config.sha256 config.formats lower batch.opening with
  | .error e => (.error e, sources)
  | .ok receipt =>
      match _normalize_source_kind lower batch.opening.source_kind with
      | .error e => (.error e, sources)
      | .ok source_kind =>
          if source_kind ∈ rawLogSourceKinds then (.ok (.rejected (rejectedReceipt receipt)), sources)
          else
            match SourceSnapshotStore.put_snapshot config.sha256 config.formats batch.source.call
                sources with
            | (.error e, sources) => (.error e, sources)
            | (.ok snapshot, sources) =>
                let artifact_id := strAt snapshot "artifact_id"
                let snapshot_id := strAt snapshot "snapshot_id"
                if batch.claims = [] then
                  (.error (ingestError
                    "reviewed evidence ingest requires at least one synthesis proposal"), sources)
                else
                  match prepareEvents config batch artifact_id snapshot_id 0 batch.claims with
                  | .error e => (.error e, sources)
                  | .ok events =>
                      (.ok (.proposals (validatedReceipt
                        (preservedReceipt receipt source_kind artifact_id snapshot_id)) events),
                        sources)

/-- `[self.event_store.commit(event) for event in prepared_events]` -/
def commitAll (config : StoreConfig) (uuid temp : ℕ → String) :
    ℕ → List Json → Files → Except Error (List Json) × Files
  | _, [], files => (.ok [], files)
  | index, event :: rest, files =>
      match (DurableEventStore.commit config event (uuid index) (temp index)).run fsStep files with
      | (.error e, files) => (.error e, files)
      | (.ok committed, files) =>
          match commitAll config uuid temp (index + 1) rest files with
          | (.error e, files) => (.error e, files)
          | (.ok others, files) => (.ok (committed :: others), files)

def ingest (config : StoreConfig) (lower : String → String) (batch : Batch) (files : IngestFiles) :
    Except Error Json × IngestFiles :=
  match prepare config lower batch files.sources with
  | (.error e, sources) => (.error e, { files with sources })
  | (.ok (.rejected receipt), sources) => (.ok receipt, { files with sources })
  | (.ok (.proposals receipt prepared), sources) =>
      match commitAll config batch.uuid batch.temp 0 prepared files.events with
      | (.error e, events) => (.error e, ⟨sources, events⟩)
      | (.ok committed, events) => (.ok (proposedReceipt receipt committed), ⟨sources, events⟩)

/-! ## The gate, once more -/

section Gate

variable {config : StoreConfig} {event : Document} {candidate : Json} {uuid : String}

theorem assignId_obj (fields : List (String × Json)) (uuid : String) :
    config.assignId (.obj fields) uuid =
      if Idempotent (.obj fields) then
        if Json.truthy? (Json.get? "event_id" (.obj fields)) = true ∧
            Json.get? "event_id" (.obj fields) ≠ some (.str (config.operationId (.obj fields))) then
          .error (.idempotencyConflict "event_id does not match deterministic idempotency identity")
        else .ok (Json.set (.obj fields) "event_id" (.str (config.operationId (.obj fields))))
      else if !Json.truthy? (Json.get? "event_id" (.obj fields)) then
        .ok (Json.set (.obj fields) "event_id" (.str (new_id "evt" uuid)))
      else .ok (.obj fields) := rfl

/-- What the gate lets through it lets through again, as it is. -/
theorem validate_again (h : config.validate event.value uuid = .ok candidate) (uuid' : String) :
    config.validate candidate uuid' = .ok candidate := by
  obtain ⟨hprepared, henvelope, contract, hcontract⟩ := validate_ok h
  obtain ⟨hassigned, -⟩ := prepare_ok hprepared
  have hwf := wf_assignId event.wf hassigned
  obtain ⟨hget, hpattern⟩ := get?_event_id henvelope
  have htruthy : Json.truthy? (candidate.get? "event_id") = true := by
    rw [hget]
    have hne : strAt candidate "event_id" ≠ "" := by
      intro hempty
      rw [hempty] at hpattern
      revert hpattern
      decide
    simp [Json.truthy?, Json.truthy, hne]
  have hassign : config.assignId candidate uuid' = .ok candidate := by
    by_cases hboth : Idempotent candidate
    · obtain ⟨p, k, hop⟩ := namesOperation_of_truthy henvelope hboth.2
      have hid := event_id_of_validate h hop
      have hexpected : config.operationId candidate = config.idOf (p, k) := by
        rw [StoreConfig.operationId, hop.pack_id, hop.idempotency_key]
        rfl
      obtain ⟨fields, rfl⟩ := isObj_of_envelope henvelope
      rw [assignId_obj, if_pos hboth, hexpected, hid, if_neg (by simp), hwf.set_self hid]
    · obtain ⟨fields, rfl⟩ := isObj_of_envelope henvelope
      rw [assignId_obj, if_neg hboth, if_neg (by rw [htruthy]; decide)]
  have hprepare : config.prepare candidate uuid' = .ok candidate :=
    bind_eq_ok.mpr ⟨candidate, hassign, bind_eq_ok.mpr ⟨(), validateSchema_ok.mpr henvelope, rfl⟩⟩
  exact bind_eq_ok.mpr ⟨candidate, hprepare, bind_eq_ok.mpr ⟨contract, hcontract, rfl⟩⟩

end Gate

/-! ## Events that fit a store -/

open DurableEventStore (event_path redaction_path)

def idText (event : Json) : String := strAt event "event_id"

/-- Where an event is filed, and as what. -/
def entryOf (event : Json) : Path × ByteArray := (event_path (idText event), event.canonical)

/-- The events can be filed together: none is redacted, and no other content is under their ids,
in the files or among them. -/
structure EventsFit (files : Files) (events : List Json) : Prop where
  live : ∀ event ∈ events, files[redaction_path (idText event)]? = none
  fits : Filing.Fits files (events.map entryOf)

/-- The files with the events among them. -/
def EventsFiled (files : Files) (events : List Json) (files' : Files) : Prop :=
  Filing.Filed files (events.map entryOf) files'

section Filing

variable {config : StoreConfig} {files files₀ files' : Files} {event : Json}
  {events done rest : List Json}

theorem event_path_inj {a b : String} (h : event_path a = event_path b) : a = b := by
  simp only [event_path, List.cons.injEq, and_true] at h
  exact StableId.fileName_inj h.2

theorem event_path_ne_redaction_path (a b : String) : event_path a ≠ redaction_path b := by
  intro h
  have hlen := congrArg List.length h
  simp [event_path, redaction_path, DurableEventStore.redactions] at hlen

theorem EventsFiled.redaction (h : EventsFiled files events files') (text : String) :
    files'[redaction_path text]? = files[redaction_path text]? := by
  apply h.elsewhere
  intro e he
  obtain ⟨event, -, rfl⟩ := List.mem_map.mp he
  exact (event_path_ne_redaction_path _ _).symm

/-- The next event fits when the files that were reached have no tombstone and no other content
under its id. -/
theorem eventsFit_concat_iff (hfit : EventsFit files₀ done) (h : EventsFiled files₀ done files) :
    EventsFit files₀ (done ++ [event]) ↔ files[redaction_path (idText event)]? = none ∧
      ∀ data, files[event_path (idText event)]? = some data → data = event.canonical := by
  have hmap : (done ++ [event]).map entryOf = done.map entryOf ++ [entryOf event] := by simp
  have hnext := Filing.fits_concat_iff (e := entryOf event) hfit.fits h
  rw [h.redaction]
  constructor
  · rintro ⟨hlive, hfits⟩
    rw [hmap] at hfits
    exact ⟨hlive event (by simp), hnext.mp hfits⟩
  · rintro ⟨hlive, hdata⟩
    refine ⟨?_, ?_⟩
    · intro other hother
      rcases List.mem_append.mp hother with hother | hother
      · exact hfit.live other hother
      · obtain rfl := List.mem_singleton.mp hother
        exact hlive
    · rw [hmap]
      exact hnext.mpr hdata

theorem EventsFiled.concat (h : EventsFiled files₀ done files)
    (hfit : EventsFit files₀ (done ++ [event]))
    (hhere : files'[event_path (idText event)]? = some event.canonical)
    (helse : ∀ path, path ≠ event_path (idText event) → files'[path]? = files[path]?) :
    EventsFiled files₀ (done ++ [event]) files' := by
  have hmap : (done ++ [event]).map entryOf = done.map entryOf ++ [entryOf event] := by simp
  have hfits := hfit.fits
  rw [hmap] at hfits
  rw [EventsFiled, hmap]
  exact Filing.Filed.concat (e := entryOf event) h hfits hhere helse

theorem fits_nil (files : Files) : EventsFit files [] := ⟨by simp, Filing.Fits.nil files⟩

theorem filed_nil (files : Files) : EventsFiled files [] files := Filing.Filed.nil files

/-- An event that the gate has let through. -/
structure Committable (config : StoreConfig) (event : Json) : Prop where
  stored : ∃ id : EventId, StoredEvent config id event
  again : ∀ uuid, config.validate event uuid = .ok event

theorem idText_eq {id : EventId} (hid : StoredEvent config id event) : idText event = id.text := by
  rw [idText, strAt, hid.event_id]
  rfl

/-- What a commit of such an event does: it is refused, or found, or filed. -/
inductive Commits (config : StoreConfig) (files : Files) (event : Json) :
    Except Error Json × Files → Prop
  | refused (e : Error) (h : files[redaction_path (idText event)]? ≠ none ∨
      ∃ data, files[event_path (idText event)]? = some data ∧ data ≠ event.canonical) :
      Commits config files event (.error e, files)
  | found (hlive : files[redaction_path (idText event)]? = none)
      (h : files[event_path (idText event)]? = some event.canonical) :
      Commits config files event (.ok event, files)
  | filed (hlive : files[redaction_path (idText event)]? = none)
      (h : files[event_path (idText event)]? = none) :
      Commits config files event
        (.ok event, files.insert (event_path (idText event)) event.canonical)

/-- The files are those of some ledger. -/
def OfLedger (config : StoreConfig) (files : Files) : Prop :=
  ∃ l, (Ledger.model config).StoredAs DurableEventStore.layout l files

theorem commits_run (h : OfLedger config files) (hevent : Committable config event)
    (uuid temp : String) :
    Commits config files event ((DurableEventStore.commit config event uuid temp).run fsStep files) ∧
      OfLedger config ((DurableEventStore.commit config event uuid temp).run fsStep files).2 := by
  obtain ⟨l, hl⟩ := h
  obtain ⟨id, hid⟩ := hevent.stored
  obtain ⟨hsame, hholds⟩ := DurableEventStore.run_commit hl ⟨event, hid.wf⟩ uuid temp
  have hvalid : (l.commit config ⟨event, hid.wf⟩ uuid).2.Valid config :=
    hl.valid.step (.commit ⟨event, hid.wf⟩ uuid temp)
  have htombstone := DurableEventStore.get?_tombstone hl id
  have hstored := DurableEventStore.get?_event hl id
  rw [← idText_eq hid] at htombstone hstored
  generalize (DurableEventStore.commit config event uuid temp).run fsStep files = r
    at hsame hholds ⊢
  obtain ⟨result, files'⟩ := r
  refine ⟨?_, _, hvalid, hholds⟩
  cases ht : l.tombstones[id.text]? with
  | some t =>
      have hcommit : l.commit config ⟨event, hid.wf⟩ uuid = (.error (.redactedCommit id.text), l) := by
        simp [Ledger.commit, hevent.again, eventIdText_of_get? hid.event_id, ht]
      rw [hcommit] at hsame hholds
      obtain ⟨e, rfl⟩ := hsame.error_right
      obtain rfl := hholds.unique hl.holds
      refine .refused e (Or.inl ?_)
      rw [htombstone, idText_eq hid, ht]
      simp
  | none =>
      have hlive : files[redaction_path (idText event)]? = none := by
        rw [htombstone, idText_eq hid, ht]
        rfl
      cases he : l.events[id.text]? with
      | none =>
          have hcommit : l.commit config ⟨event, hid.wf⟩ uuid =
              (.ok event, { l with events := l.events.insert id.text event }) := by
            simp [Ledger.commit, hevent.again, eventIdText_of_get? hid.event_id, ht, he]
          rw [hcommit] at hsame hholds
          obtain rfl := hsame.ok_right
          have hinsert := holds_insert_event hl.holds id event
          obtain rfl := hholds.unique hinsert
          show Commits config files event (.ok event, files.insert (event_path id.text) _)
          rw [← idText_eq hid]
          refine .filed hlive ?_
          rw [hstored, idText_eq hid, he]
          rfl
      | some existing =>
          have hfile : files[event_path (idText event)]? = some existing.canonical := by
            rw [hstored, idText_eq hid, he]
            rfl
          by_cases heq : existing = event
          · subst heq
            have hcommit : l.commit config ⟨existing, hid.wf⟩ uuid = (.ok existing, l) := by
              simp [Ledger.commit, hevent.again, eventIdText_of_get? hid.event_id, ht, he]
            rw [hcommit] at hsame hholds
            obtain rfl := hsame.ok_right
            obtain rfl := hholds.unique hl.holds
            exact .found hlive hfile
          · have hcommit : l.commit config ⟨event, hid.wf⟩ uuid =
                (.error (.differentContent id.text), l) := by
              simp [Ledger.commit, hevent.again, eventIdText_of_get? hid.event_id, ht, he, heq]
            rw [hcommit] at hsame hholds
            obtain ⟨e, rfl⟩ := hsame.error_right
            obtain rfl := hholds.unique hl.holds
            refine .refused e (Or.inr ⟨_, hfile, ?_⟩)
            intro hbytes
            obtain ⟨_, -, hother⟩ := hl.valid.events _ _ he
            exact heq ((Json.canonical_inj hother.wf hid.wf).mp hbytes)

/-! ## Batches of commits -/

/-- What a batch of commits does to the files, where `done` was committed before: all events are
filed, or those up to the first that does not fit. -/
inductive CommitsAll (files₀ : Files) (done events : List Json) :
    Except Error (List Json) × Files → Prop
  | all (files' : Files) (hfit : EventsFit files₀ (done ++ events))
      (hfiled : EventsFiled files₀ (done ++ events) files') :
      CommitsAll files₀ done events (.ok events, files')
  | upTo (e : Error) (before : List Json) (event : Json) (rest : List Json) (files' : Files)
      (heq : events = before ++ event :: rest) (hfit : EventsFit files₀ (done ++ before))
      (hnext : ¬ EventsFit files₀ (done ++ before ++ [event]))
      (hfiled : EventsFiled files₀ (done ++ before) files') :
      CommitsAll files₀ done events (.error e, files')

theorem commitAll_run (uuid temp : ℕ → String) (index : ℕ) (h : OfLedger config files)
    (hall : ∀ event ∈ events, Committable config event) (hfit : EventsFit files₀ done)
    (hfiled : EventsFiled files₀ done files) :
    CommitsAll files₀ done events (commitAll config uuid temp index events files) ∧
      OfLedger config (commitAll config uuid temp index events files).2 := by
  induction events generalizing files done index with
  | nil =>
      refine ⟨.all files ?_ ?_, h⟩
      · rwa [List.append_nil]
      · rwa [List.append_nil]
  | cons event rest ih =>
      obtain ⟨hevent, hrest⟩ := List.forall_mem_cons.mp hall
      obtain ⟨hcommits, hledger⟩ := commits_run h hevent (uuid index) (temp index)
      have hnext := @eventsFit_concat_iff _ _ event _ hfit hfiled
      rw [commitAll]
      generalize (DurableEventStore.commit config event (uuid index) (temp index)).run fsStep files
        = r at hcommits hledger ⊢
      -- An event that was found or filed is one more that is done.
      have hstep : ∀ files', EventsFit files₀ (done ++ [event]) →
          EventsFiled files₀ (done ++ [event]) files' → OfLedger config files' →
          CommitsAll files₀ done (event :: rest)
            (match commitAll config uuid temp (index + 1) rest files' with
            | (.error e, files) => (.error e, files)
            | (.ok others, files) => (.ok (event :: others), files)) ∧
          OfLedger config
            (match commitAll config uuid temp (index + 1) rest files' with
            | (.error e, files) => ((Except.error e : Except Error (List Json)), files)
            | (.ok others, files) => (.ok (event :: others), files)).2 := by
        intro files' hfit' hfiled' h'
        obtain ⟨hothers, hledger'⟩ := ih (index + 1) h' hrest hfit' hfiled'
        generalize commitAll config uuid temp (index + 1) rest files' = r' at hothers hledger' ⊢
        cases hothers with
        | all files'' hfit'' hfiled'' =>
            rw [List.append_assoc] at hfit'' hfiled''
            exact ⟨.all files'' hfit'' hfiled'', hledger'⟩
        | upTo e before next rest' files'' heq hfit'' hnext'' hfiled'' =>
            rw [List.append_assoc] at hfit'' hfiled''
            rw [List.append_assoc, List.append_assoc] at hnext''
            refine ⟨.upTo e (event :: before) next rest' files'' (by rw [heq]; rfl) hfit'' ?_
              hfiled'', hledger'⟩
            rw [List.append_assoc]
            exact hnext''
      cases hcommits with
      | refused e hrefused =>
          refine ⟨.upTo e [] event rest files rfl ?_ ?_ ?_, hledger⟩
          · rwa [List.append_nil]
          · rw [List.append_nil, hnext]
            rintro ⟨hlive, hdata⟩
            rcases hrefused with hgone | ⟨data, hthere, hother⟩
            · exact hgone hlive
            · exact hother (hdata data hthere)
          · rwa [List.append_nil]
      | found hlive hthere =>
          have hfit' := hnext.mpr ⟨hlive, fun data hdata =>
            Option.some.inj (hdata.symm.trans hthere)⟩
          exact hstep files hfit' (hfiled.concat hfit' hthere fun _ _ => rfl) hledger
      | filed hlive hfree =>
          have hfit' := hnext.mpr ⟨hlive, fun data hdata => by
            rw [hfree] at hdata
            cases hdata⟩
          refine hstep _ hfit' (hfiled.concat hfit' (KeyMap.get?_insert_self _ _ _) ?_) hledger
          intro path hpath
          exact KeyMap.get?_insert_ne _ _ (Ne.symm hpath)

end Filing

/-! ## Prepared batches -/

section Prepared

variable {config : StoreConfig} {lower : String → String} {batch : Batch}
  {sources sources' : SourceFiles} {artifact_id snapshot_id : String} {events : List Json}

theorem wf_claimEvent (batch : Batch) (artifact_id snapshot_id : String) (index : ℕ)
    (draft : ReviewedClaimDraft) : (claimEvent batch artifact_id snapshot_id index draft).WF := by
  apply Json.wf_ofMembers
  have hpayload : (Json.ofMembers [("claim_text", .str draft.claim_text),
      ("reason", .str draft.reason)]).WF := Json.wf_ofMembers (by simp [Json.wf_str])
  have hprovenance : (Json.ofMembers [("method", .str "reviewed_evidence_ingest"),
      ("prompt_or_policy_ref", .str "skills/research-ingestion/manifest.json"),
      ("benchmark_ref", .str batch.opening.review_ref)]).WF :=
    Json.wf_ofMembers (by simp [Json.wf_str])
  simp [Json.wf_str, Json.wf_arr_iff, batch.actor_wf, hpayload, hprovenance]

/-- The events come from the drafts, each through the gate. -/
theorem prepareEvents_ok {index : ℕ} {drafts : List ReviewedClaimDraft}
    (h : prepareEvents config batch artifact_id snapshot_id index drafts = .ok events) :
    events.length = drafts.length ∧ ∀ event ∈ events, ∃ i draft,
      config.validate (claimEvent batch artifact_id snapshot_id i draft) (batch.uuid i) =
        .ok event := by
  induction drafts generalizing index events with
  | nil =>
      cases h
      exact ⟨rfl, by simp⟩
  | cons draft rest ih =>
      rw [prepareEvents] at h
      split at h
      · cases h
      · split at h
        · cases h
        · obtain ⟨event, hevent, h⟩ := bind_eq_ok.mp h
          obtain ⟨others, hothers, h⟩ := bind_eq_ok.mp h
          cases h
          obtain ⟨hlength, hall⟩ := ih hothers
          refine ⟨by simp [hlength], ?_⟩
          intro other hother
          rcases List.mem_cons.mp hother with rfl | hother
          · exact ⟨index, draft, hevent⟩
          · exact hall other hother

theorem committable_of_prepared {index : ℕ} {draft : ReviewedClaimDraft} {event : Json}
    (h : config.validate (claimEvent batch artifact_id snapshot_id index draft)
      (batch.uuid index) = .ok event) : Committable config event where
  stored := @storedEvent_of_validate config ⟨_, wf_claimEvent batch artifact_id snapshot_id index
    draft⟩ event _ h
  again := @validate_again config ⟨_, wf_claimEvent batch artifact_id snapshot_id index draft⟩
    event _ h

/-- What was done when a batch is ready for its commits. -/
theorem prepare_proposals {receipt : Json}
    (h : (prepare config lower batch sources).1 = .ok (.proposals receipt events)) :
    ∃ snapshot, SourceSnapshotStore.put_snapshot config.sha256 config.formats batch.source.call
        sources = (.ok snapshot, (prepare config lower batch sources).2) ∧
      batch.claims ≠ [] ∧ prepareEvents config batch (strAt snapshot "artifact_id")
        (strAt snapshot "snapshot_id") 0 batch.claims = .ok events := by
  rw [prepare] at h ⊢
  cases hopen : openReceipt config.sha256 config.formats lower batch.opening with
  | error e =>
      rw [hopen] at h
      cases h
  | ok opened =>
      simp only [hopen] at h ⊢
      cases hkind : _normalize_source_kind lower batch.opening.source_kind with
      | error e =>
          rw [hkind] at h
          cases h
      | ok source_kind =>
          simp only [hkind] at h ⊢
          split at h
          · cases h
          next hraw =>
          rw [if_neg hraw]
          generalize SourceSnapshotStore.put_snapshot config.sha256 config.formats
            batch.source.call sources = r at h ⊢
          obtain ⟨result, sources'⟩ := r
          cases result with
          | error e => cases h
          | ok snapshot =>
              dsimp only at h ⊢
              split at h
              · cases h
              next hclaims =>
              rw [if_neg hclaims]
              cases hevents : prepareEvents config batch (strAt snapshot "artifact_id")
                  (strAt snapshot "snapshot_id") 0 batch.claims with
              | error e =>
                  rw [hevents] at h
                  cases h
              | ok prepared =>
                  rw [hevents] at h
                  cases h
                  exact ⟨snapshot, rfl, hclaims, hevents⟩

theorem committable_of_proposals {receipt : Json}
    (h : (prepare config lower batch sources).1 = .ok (.proposals receipt events)) :
    ∀ event ∈ events, Committable config event := by
  obtain ⟨snapshot, -, -, hevents⟩ := prepare_proposals h
  intro event hevent
  obtain ⟨i, draft, hvalidate⟩ := (prepareEvents_ok hevents).2 event hevent
  exact committable_of_prepared hvalidate

end Prepared

/-! ## Atomic ingests -/

/-- A call that raises has added no event of the batch, and one that returns has them all. -/
structure Atomic (files : Files) (events : List Json) (result : Except Error Json)
    (files' : Files) : Prop where
  raised : ∀ e, result = .error e → ∀ event ∈ events,
    files[event_path (idText event)]? = none → files'[event_path (idText event)]? = none
  returned : ∀ receipt, result = .ok receipt → ∀ event ∈ events,
    files'[event_path (idText event)]? = some event.canonical

/-- Whatever would be filed of the batch before an event that does not fit is filed already. -/
def NoneStranded (files : Files) (events : List Json) : Prop :=
  ∀ before event rest, events = before ++ event :: rest → EventsFit files before →
    ¬ EventsFit files (before ++ [event]) →
    ∀ done ∈ before, files[event_path (idText done)]? = some done.canonical

theorem EventsFit.of_append {files : Files} {done rest : List Json}
    (h : EventsFit files (done ++ rest)) : EventsFit files done where
  live event hevent := h.live event (List.mem_append_left rest hevent)
  fits := by
    have hfits := h.fits
    rw [List.map_append] at hfits
    exact hfits.of_append

section Ingest

variable {config : StoreConfig} {lower : String → String} {batch : Batch} {files : IngestFiles}

/-- The commits of a prepared batch. -/
theorem ingest_proposals {receipt : Json} {events : List Json}
    (h : (prepare config lower batch files.sources).1 = .ok (.proposals receipt events)) :
    ((ingest config lower batch files).1 =
        ((commitAll config batch.uuid batch.temp 0 events files.events).1.map
          (proposedReceipt receipt))) ∧
      (ingest config lower batch files).2.events =
        (commitAll config batch.uuid batch.temp 0 events files.events).2 ∧
      (ingest config lower batch files).2.sources = (prepare config lower batch files.sources).2 := by
  rw [ingest]
  generalize prepare config lower batch files.sources = prepared at h ⊢
  obtain ⟨result, sources⟩ := prepared
  obtain rfl : result = .ok (.proposals receipt events) := h
  dsimp only
  generalize commitAll config batch.uuid batch.temp 0 events files.events = r
  obtain ⟨committed, files'⟩ := r
  cases committed with
  | error e => exact ⟨rfl, rfl, rfl⟩
  | ok committed => exact ⟨rfl, rfl, rfl⟩

theorem ingest_error {e : Error}
    (h : (prepare config lower batch files.sources).1 = .error e) :
    (ingest config lower batch files).1 = .error e ∧
      (ingest config lower batch files).2.events = files.events := by
  rw [ingest]
  generalize prepare config lower batch files.sources = prepared at h ⊢
  obtain ⟨result, sources⟩ := prepared
  obtain rfl : result = .error e := h
  exact ⟨rfl, rfl⟩

theorem ingest_rejected {receipt : Json}
    (h : (prepare config lower batch files.sources).1 = .ok (.rejected receipt)) :
    (ingest config lower batch files).1 = .ok receipt ∧
      (ingest config lower batch files).2.events = files.events := by
  rw [ingest]
  generalize prepare config lower batch files.sources = prepared at h ⊢
  obtain ⟨result, sources⟩ := prepared
  obtain rfl : result = .ok (.rejected receipt) := h
  exact ⟨rfl, rfl⟩

/-- An `ingest` files a prefix of its events, and nothing else. -/
theorem ingest_filed (h : OfLedger config files.events) {receipt : Json} {events : List Json}
    (hprepared : (prepare config lower batch files.sources).1 = .ok (.proposals receipt events)) :
    ∃ done, done <+: events ∧ EventsFit files.events done ∧
      EventsFiled files.events done (ingest config lower batch files).2.events ∧
      OfLedger config (ingest config lower batch files).2.events := by
  obtain ⟨-, hevents, -⟩ := ingest_proposals hprepared
  obtain ⟨hrun, hledger⟩ := commitAll_run batch.uuid batch.temp 0 h
    (committable_of_proposals hprepared) (fits_nil files.events) (filed_nil files.events)
  rw [hevents]
  generalize commitAll config batch.uuid batch.temp 0 events files.events = committed
    at hrun hledger ⊢
  cases hrun with
  | all files' hfit hfiled => exact ⟨events, List.prefix_rfl, hfit, hfiled, hledger⟩
  | upTo e before event rest files' heq hfit hnext hfiled =>
      subst heq
      exact ⟨before, List.prefix_append _ _, hfit, hfiled, hledger⟩

/-- When the whole batch fits, all of it is filed. -/
theorem atomic_of_fit {events : List Json} {result : Except Error Json} {files files' : Files}
    (hfit : EventsFit files events) (hfiled : EventsFiled files events files')
    (hresult : ∃ receipt, result = .ok receipt) :
    Atomic files events result files' ∧ NoneStranded files events := by
  refine ⟨⟨?_, ?_⟩, ?_⟩
  · rintro e rfl
    obtain ⟨receipt, hreceipt⟩ := hresult
    cases hreceipt
  · intro receipt _ event hevent
    exact hfiled.here _ (List.mem_map_of_mem hevent)
  · rintro before event rest rfl _ hnext
    rw [List.append_cons] at hfit
    exact absurd hfit.of_append hnext

/-- When it does not, the batch is atomic exactly when nothing of it was left to file. -/
theorem atomic_iff_of_upTo {e : Error} {before rest : List Json} {event : Json}
    {files files' : Files} (hfit : EventsFit files before)
    (hnext : ¬ EventsFit files (before ++ [event])) (hfiled : EventsFiled files before files') :
    Atomic files (before ++ event :: rest) (.error e) files' ↔
      NoneStranded files (before ++ event :: rest) := by
  constructor
  · intro h before' event' rest' heq hfit' hnext'
    obtain rfl := Filing.first_split_unique (fun _ _ => EventsFit.of_append) heq hfit hnext hfit'
      hnext'
    intro done hdone
    have hhere := hfiled.here _ (List.mem_map_of_mem hdone)
    cases hold : files[event_path (idText done)]? with
    | none =>
        have hgone := h.raised e rfl done (List.mem_append_left _ hdone) hold
        rw [entryOf, hgone] at hhere
        cases hhere
    | some data => rw [hfit.fits.free _ (List.mem_map_of_mem hdone) data hold, entryOf]
  · intro h
    have hsame : files' = files := by
      apply hfiled.unchanged_iff.mp
      intro entry hentry
      obtain ⟨done, hdone, rfl⟩ := List.mem_map.mp hentry
      exact h before event rest rfl hfit hnext done hdone
    rw [hsame]
    exact ⟨fun _ _ _ _ hnone => hnone, fun _ hreceipt => by cases hreceipt⟩

end Ingest

end ReviewedEvidence

/-- Whatever the stores hold, an `ingest` that raises before its commits leaves the events as they
were, and so does one that is rejected; one whose events fit the store together proposes them all;
and one whose events do not raises and is atomic exactly when the events that it filed were there
before. -/
theorem ingest_atomic_iff (config : StoreConfig) (lower : String → String) (calls : List EventCall)
    (sources : SourceFiles) (batch : ReviewedEvidence.Batch) :
    let events := Runs.after (DurableEventStore.step config) ∅ calls
    let prepared := (ReviewedEvidence.prepare config lower batch sources).1
    let r := ReviewedEvidence.ingest config lower batch ⟨sources, events⟩
    (∀ e, prepared = .error e → r.1 = .error e ∧ r.2.events = events) ∧
      (∀ receipt, prepared = .ok (.rejected receipt) → r.1 = .ok receipt ∧ r.2.events = events) ∧
      ∀ receipt proposals, prepared = .ok (.proposals receipt proposals) →
        (r.1 = .ok (ReviewedEvidence.proposedReceipt receipt proposals) ↔
          ReviewedEvidence.EventsFit events proposals) ∧
        ((∃ e, r.1 = .error e) ↔ ¬ ReviewedEvidence.EventsFit events proposals) ∧
        (∃ done, done <+: proposals ∧
          ReviewedEvidence.EventsFiled events done r.2.events) ∧
        (ReviewedEvidence.Atomic events proposals r.1 r.2.events ↔
          ReviewedEvidence.NoneStranded events proposals) := by
  intro events prepared r
  refine ⟨fun e h => ReviewedEvidence.ingest_error h,
    fun receipt h => ReviewedEvidence.ingest_rejected h, ?_⟩
  intro receipt proposals h
  obtain ⟨hresult, hevents, -⟩ :=
    @ReviewedEvidence.ingest_proposals config lower batch ⟨sources, events⟩ _ _ h
  have hledger : ReviewedEvidence.OfLedger config events :=
    ⟨_, DurableEventStore.refines_ledger.after storedAs_empty calls⟩
  have hrun := (ReviewedEvidence.commitAll_run batch.uuid batch.temp 0 hledger
    (ReviewedEvidence.committable_of_proposals h) (ReviewedEvidence.fits_nil events)
    (ReviewedEvidence.filed_nil events)).1
  change r.1 = _ at hresult
  change r.2.events = _ at hevents
  dsimp only at hresult hevents
  rw [hresult, hevents]
  generalize ReviewedEvidence.commitAll config batch.uuid batch.temp 0 proposals events = committed
    at hrun ⊢
  cases hrun with
  | all files' hfit hfiled =>
      obtain ⟨hatomic, hnone⟩ := ReviewedEvidence.atomic_of_fit hfit hfiled
        ⟨ReviewedEvidence.proposedReceipt receipt proposals, rfl⟩
      refine ⟨⟨fun _ => hfit, fun _ => rfl⟩, ⟨?_, fun hnot => absurd hfit hnot⟩,
        ⟨proposals, List.prefix_rfl, hfiled⟩, ⟨fun _ => hnone, fun _ => hatomic⟩⟩
      rintro ⟨e, he⟩
      cases he
  | upTo e before event rest files' heq hfit hnext hfiled =>
      subst heq
      have hnot : ¬ ReviewedEvidence.EventsFit events (before ++ event :: rest) := by
        intro hall
        rw [List.append_cons] at hall
        exact hnext hall.of_append
      refine ⟨⟨?_, fun hall => absurd hall hnot⟩, ⟨fun _ => hnot, fun _ => ⟨e, rfl⟩⟩,
        ⟨before, List.prefix_append _ _, hfiled⟩,
        ReviewedEvidence.atomic_iff_of_upTo hfit hnext hfiled⟩
      intro hreceipt
      cases hreceipt

namespace ReviewedEvidence

open DurableEventStore (event_path redaction_path)

def reviewedBatch : Batch where
  opening := reviewedIngest
  source := SourceSnapshotStore.evidenceCall
  claims := [⟨"claim_01", "first", "reviewed"⟩, ⟨"claim_02", "second", "reviewed"⟩]
  actor := .ofMembers [("actor_type", .str "human"), ("actor_id", .str "operator")]
  actor_wf := by decide +kernel
  occurred_at := "2026-01-01T00:00:00Z"
  recorded_at := "2026-01-01T00:00:00Z"
  uuid _ := "u1"
  temp _ := "t1"

/-- The claims of the batch with their ids. -/
def firstClaim : Json :=
  (claimEvent reviewedBatch (artifact_id_for_digest SourceSnapshotStore.evidenceDigest)
    SourceSnapshotStore.evidenceSnapshotId 0 ⟨"claim_01", "first", "reviewed"⟩).set "event_id"
      (.str "evt_ef16691a0d72d65a5e940efa14e820cc")

def secondClaim : Json :=
  (claimEvent reviewedBatch (artifact_id_for_digest SourceSnapshotStore.evidenceDigest)
    SourceSnapshotStore.evidenceSnapshotId 1 ⟨"claim_02", "second", "reviewed"⟩).set "event_id"
      (.str "evt_d76d7b40e175b7b5072c268100247897")

/-- An event of another pack that brings the id of the second claim, and no key. -/
def taken : Document where
  value := minimalEvent "evt_d76d7b40e175b7b5072c268100247897" "claim.proposed"
    "2026-01-01T00:00:00Z" "pack_fedcba9876543210" ["claim_02"] [("claim_text", .str "other")] []
  wf := by decide +kernel

theorem prepareEvents_reviewedBatch : prepareEvents .plain reviewedBatch
    (artifact_id_for_digest SourceSnapshotStore.evidenceDigest)
    SourceSnapshotStore.evidenceSnapshotId 0 reviewedBatch.claims =
      .ok [firstClaim, secondClaim] := by
  decide +kernel

theorem prepare_reviewedBatch : ∃ receipt, (prepare .plain id reviewedBatch ⟨∅, ∅⟩).1 =
    .ok (.proposals receipt [firstClaim, secondClaim]) := by
  obtain ⟨artifacts, hput, -, -⟩ := SourceSnapshotStore.put_evidence
  obtain ⟨receipt, hopen⟩ : ∃ receipt,
      openReceipt .hashlib StoreConfig.plain.formats id reviewedIngest = .ok receipt := ⟨_, rfl⟩
  have hartifact : strAt SourceSnapshotStore.evidenceSnapshot "artifact_id" =
      artifact_id_for_digest SourceSnapshotStore.evidenceDigest := by
    rw [SourceSnapshotStore.evidenceSnapshot_eq]
    exact strAt_of_get? (Json.get?_member (by simp) (by simp))
  have hsnapshot : strAt SourceSnapshotStore.evidenceSnapshot "snapshot_id" =
      SourceSnapshotStore.evidenceSnapshotId := by
    rw [SourceSnapshotStore.evidenceSnapshot_eq]
    exact strAt_of_get? (Json.get?_member (by simp) (by simp))
  have hkind : _normalize_source_kind id reviewedIngest.source_kind = .ok "paper" := by decide
  have hclaims : reviewedBatch.claims ≠ [] := List.cons_ne_nil _ _
  refine ⟨validatedReceipt (preservedReceipt receipt "paper"
    (artifact_id_for_digest SourceSnapshotStore.evidenceDigest)
    SourceSnapshotStore.evidenceSnapshotId), ?_⟩
  simp only [prepare, show reviewedBatch.opening = reviewedIngest from rfl, hkind,
    show reviewedBatch.source = SourceSnapshotStore.evidenceCall from rfl,
    show StoreConfig.plain.sha256 = .hashlib from rfl, hopen, hput, hartifact, hsnapshot,
    prepareEvents_reviewedBatch, if_neg hclaims, if_neg (show "paper" ∉ rawLogSourceKinds by decide)]

/-- Where the id of the second claim is taken, the first is left behind alone. -/
theorem reviewedBatch_stranded : ¬ NoneStranded
    (Runs.after (DurableEventStore.step .plain) ∅ [.commit taken "u1" "t1"])
    [firstClaim, secondClaim] := by
  have hempty : (Ledger.model .plain).StoredAs DurableEventStore.layout Ledger.empty ∅ :=
    storedAs_empty
  have hl := DurableEventStore.refines_ledger.after hempty [.commit taken "u1" "t1"]
  have hvalidate : StoreConfig.plain.validate taken.value "u1" = .ok taken.value := by
    decide +kernel
  have hid : taken.value.get? "event_id" =
      some (.str "evt_d76d7b40e175b7b5072c268100247897") := by decide +kernel
  have hcommit : Ledger.empty.step .plain (.commit taken "u1" "t1") = (.ok (.event taken.value),
      ⟨(∅ : KeyMap String Json).insert "evt_d76d7b40e175b7b5072c268100247897" taken.value, ∅⟩) :=
    Ledger.step_commit hvalidate hid Std.ExtTreeMap.getElem?_empty Std.ExtTreeMap.getElem?_empty
  have hledger : Runs.after (Ledger.model .plain).step Ledger.empty [.commit taken "u1" "t1"] =
      ⟨(∅ : KeyMap String Json).insert "evt_d76d7b40e175b7b5072c268100247897" taken.value, ∅⟩ :=
    congrArg Prod.snd hcommit
  rw [hledger] at hl
  have hfirst : idText firstClaim = "evt_ef16691a0d72d65a5e940efa14e820cc" := by decide +kernel
  have hsecond : idText secondClaim = "evt_d76d7b40e175b7b5072c268100247897" := by decide +kernel
  have hevent := DurableEventStore.get?_event hl
  have htombstone := DurableEventStore.get?_tombstone hl
  generalize Runs.after (DurableEventStore.step .plain) ∅ [.commit taken "u1" "t1"] = files
    at hevent htombstone ⊢
  have hfree : files[event_path (idText firstClaim)]? = none := by
    rw [hfirst]
    refine (hevent ⟨"evt_ef16691a0d72d65a5e940efa14e820cc", by decide⟩).trans ?_
    rw [KeyMap.get?_insert_ne _ _ (by decide)]
    simp
  have hlive : files[redaction_path (idText firstClaim)]? = none := by
    rw [hfirst]
    refine (htombstone ⟨"evt_ef16691a0d72d65a5e940efa14e820cc", by decide⟩).trans ?_
    simp
  have htaken : files[event_path (idText secondClaim)]? = some taken.value.canonical := by
    rw [hsecond]
    refine (hevent ⟨"evt_d76d7b40e175b7b5072c268100247897", by decide⟩).trans ?_
    rw [KeyMap.get?_insert_self]
    rfl
  intro hnone
  have hthere := hnone [firstClaim] secondClaim [] rfl ⟨by simpa using hlive, ?_, by simp⟩ ?_
    firstClaim List.mem_cons_self
  · rw [hfree] at hthere
    simp at hthere
  · intro e he v hv
    rw [List.map_singleton, List.mem_singleton] at he
    rw [he] at hv
    exact absurd (hv.symm.trans hfree) (by simp)
  · intro hfit
    have hsame := hfit.fits.free (entryOf secondClaim) (by simp) _ htaken
    have hwf : secondClaim.WF := (wf_claimEvent _ _ _ _ _).set (Json.wf_str _)
    have heq := (Json.canonical_inj taken.wf hwf).mp hsame
    revert heq
    decide +kernel

end ReviewedEvidence

end FossilCore
