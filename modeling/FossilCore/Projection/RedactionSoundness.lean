import FossilCore.Base.Runs
import FossilCore.Runtime.ProjectorPrefix

/-!
# Redaction of a projection under crashes

The operations of the adapter and of the worker on one ledger, in which client calls fail before
or after they take effect and the process may stop before any request.  An event that the ledger
has as redacted has no episode left, as long as every episode that is added is also recorded.
-/

namespace FossilCore

open Base

inductive ProjectionOperation where
  | apply_event (event : Json)
  | remove_event (event_id reason : String)
  | purge_redacted (events : List Json)
  | purge_event_redactions (tombstones : List Json)
  | rebuild (events : List Json)
  | run_once (source : EventSource)

/-- An operation, with the adapter whose policy holds during it. -/
structure ProjectionCall where
  adapter : GraphitiProjectionAdapter
  operation : ProjectionOperation

def ProjectionCall.program (call : ProjectionCall) : ProjectionProgram Unit :=
  match call.operation with
  | .apply_event event => call.adapter.apply_event_async event >>= fun _ => pure ()
  | .remove_event event_id reason => remove_event_async event_id reason >>= fun _ => pure ()
  | .purge_redacted events => call.adapter.purge_redacted_async events >>= fun _ => pure ()
  | .purge_event_redactions tombstones =>
      purge_event_redactions_async tombstones >>= fun _ => pure ()
  | .rebuild events => call.adapter.rebuild_async events >>= fun _ => pure ()
  | .run_once source => call.adapter.run_once_async source >>= fun _ => pure ()

/-- A client call that fails is an outcome of the client, so that no request is refused. -/
def neverRefused : (r : ProjectionRequest) → Option r.Answer := fun _ => none

/-- The request between which and the addition before it the process must not stop. -/
def ProjectionRequest.recordsAddition : ProjectionRequest → Bool
  | .record_applied _ _ => true
  | _ => false

/-- No addition takes effect and fails all the same. -/
def Client.AddsAtomically (client : Client) : Prop :=
  ∀ n content error, client.outcome n (.add_episode content) ≠ .failedAfter error

/-- Every episode is recorded under its event, and no event that is redacted has one. -/
structure Accounted (w : ProjectionWorld) : Prop where
  tracked : ∀ episode ∈ w.graph.episodes, ∃ event_id record,
    episode.name = episodeName event_id ∧ w.ledger.applied[event_id]? = some record ∧
      (record.episode_uuid = none ∨ record.episode_uuid = some episode.uuid)
  erased : ∀ event_id, w.ledger.is_redacted event_id = true →
    ∀ episode ∈ w.graph.episodes, episode.name ≠ episodeName event_id

theorem accounted_fresh : Accounted .fresh :=
  ⟨fun _ h => (List.not_mem_nil h).elim, fun _ h => by cases h⟩

namespace Accounted

variable {w : ProjectionWorld} (h : Accounted w)

include h

theorem called : Accounted ⟨w.ledger, w.graph.called⟩ := ⟨h.tracked, h.erased⟩

theorem removed (uuid : String) : Accounted ⟨w.ledger, (w.graph.remove uuid).called⟩ :=
  ⟨fun episode he => h.tracked episode (List.mem_filter.mp he).1,
    fun event_id hid episode he => h.erased event_id hid episode (List.mem_filter.mp he).1⟩

theorem failed (event_id : String) (record : FailureRecord) :
    Accounted ⟨w.ledger.record_failure event_id record, w.graph⟩ := ⟨h.tracked, h.erased⟩

/-- An event may be recorded as redacted once it has no episode. -/
theorem redacted {event_id : String} (record : RedactionRecord)
    (hnone : ∀ episode ∈ w.graph.episodes, episode.name ≠ episodeName event_id) :
    Accounted ⟨w.ledger.record_redaction event_id record, w.graph⟩ := by
  refine ⟨?_, ?_⟩
  · simp only [ProjectionLedger.applied_record_redaction]
    exact h.tracked
  · intro other hother
    rw [ProjectionLedger.is_redacted_record_redaction, Bool.or_eq_true] at hother
    rcases hother with hold | heq
    · exact h.erased other hold
    · rw [← of_decide_eq_true heq]
      exact hnone

theorem none_of_unapplied {event_id : String} (hnew : w.ledger.applied[event_id]? = none) :
    ∀ episode ∈ w.graph.episodes, episode.name ≠ episodeName event_id := by
  intro episode hepisode hname
  obtain ⟨other, record, hother, happlied, -⟩ := h.tracked episode hepisode
  rw [← episodeName_inj.mp (hname.symm.trans hother), hnew] at happlied
  cases happlied

/-- After the removal of the UUID on record the event has no episode. -/
theorem none_of_removed {event_id uuid : String} {record : AppliedRecord}
    (happlied : w.ledger.applied[event_id]? = some record)
    (huuid : record.episode_uuid = some uuid) :
    ∀ episode ∈ (w.graph.remove uuid).called.episodes, episode.name ≠ episodeName event_id := by
  intro episode hepisode hname
  obtain ⟨hepisode, hne⟩ := List.mem_filter.mp hepisode
  obtain ⟨other, record', hother, happlied', hnamed⟩ := h.tracked episode hepisode
  rw [← episodeName_inj.mp (hname.symm.trans hother), happlied] at happlied'
  cases happlied'
  rw [huuid] at hnamed
  rcases hnamed with hnone | hsome
  · cases hnone
  · exact of_decide_eq_true hne (Option.some.inj hsome).symm

/-- An addition and its record. -/
theorem added {event_id uuid : String} {content : EpisodeContent} {record : AppliedRecord}
    (hlive : w.ledger.is_redacted event_id = false) (hnew : w.ledger.is_applied event_id = false)
    (hname : content.name = episodeName event_id)
    (huuid : record.episode_uuid = none ∨ record.episode_uuid = some uuid) :
    Accounted ⟨w.ledger.record_applied event_id record, (w.graph.add uuid content).called⟩ := by
  have hnone : w.ledger.applied[event_id]? = none := by
    rw [← Option.not_isSome_iff_eq_none, ← ProjectionLedger.is_applied, hnew]
    decide
  refine ⟨?_, ?_⟩
  · intro episode hepisode
    rw [ProjectionLedger.record_applied_new hnew]
    rcases List.mem_append.mp hepisode with hold | hlast
    · obtain ⟨other, record', hother, happlied, hnamed⟩ := h.tracked episode hold
      refine ⟨other, record', hother, ?_, hnamed⟩
      have hne : event_id ≠ other := by
        rintro rfl
        rw [hnone] at happlied
        cases happlied
      rw [KeyMap.get?_insert_ne _ _ hne]
      exact happlied
    · rw [List.mem_singleton.mp hlast]
      exact ⟨event_id, record, hname, KeyMap.get?_insert_self _ _ _, huuid⟩
  · intro other hother episode hepisode
    rw [ProjectionLedger.is_redacted_record_applied] at hother
    rcases List.mem_append.mp hepisode with hold | hlast
    · exact h.erased other hother episode hold
    · rw [List.mem_singleton.mp hlast]
      intro heq
      rw [episodeName_inj.mp (hname.symm.trans heq), hother] at hlive
      cases hlive

end Accounted

/-! ## Programs that keep every episode accounted for -/

/-- However the program is stopped outside an addition and its record, every episode is
accounted for. -/
def Safe {α : Type} (client : Client) (p : ProjectionProgram α) (w : ProjectionWorld) : Prop :=
  p.Always (projectionStep client) neverRefused ProjectionRequest.recordsAddition
    (fun _ w => Accounted w) w

section Safe

variable {α β : Type} {client : Client} {w : ProjectionWorld}

theorem safe_done (h : Accounted w) (x : Except Error α) : Safe client (.done x) w := h

theorem safe_request (h : Accounted w) {r : ProjectionRequest} {next : r.Answer → ProjectionProgram α}
    (hnext : Safe client (next (projectionStep client r w).1) (projectionStep client r w).2) :
    Safe client (.request r next) w :=
  ⟨hnext, fun _ => ⟨h, fun a ha => by cases ha⟩⟩

theorem Safe.bind {p : ProjectionProgram α} {f : α → ProjectionProgram β}
    (hp : Safe client p w) (hf : ∀ a w, Accounted w → Safe client (f a) w) :
    Safe client (p >>= f) w := by
  apply Program.Always.bind
  apply Program.Always.mono hp
  intro o w hw
  match o with
  | none => exact hw
  | some (.error e) => exact hw
  | some (.ok a) => exact hf a w hw

theorem safe_remove_event (h : Accounted w) (event_id reason : String) :
    Safe client (remove_event_async event_id reason) w := by
  rw [remove_event_async]
  apply safe_request h
  show Safe client (if w.ledger.is_redacted event_id = true then _ else _) w
  cases w.ledger.is_redacted event_id with
  | true => exact safe_done h _
  | false =>
      apply safe_request h
      dsimp only [projectionStep, ProjectionLedger.get_applied, Program.follow]
      cases happlied : w.ledger.applied[event_id]? with
      | none =>
          apply safe_request h
          exact safe_done (h.redacted _ (h.none_of_unapplied happlied)) _
      | some applied =>
          dsimp only
          cases huuid : applied.episode_uuid.filter (· ≠ "") with
          | none =>
              apply safe_request h
              exact safe_done (h.failed event_id _) _
          | some uuid =>
              have hrecord := (Option.filter_eq_some_iff.mp huuid).1
              apply safe_request h
              simp only [projectionStep]
              cases client.outcome w.graph.calls (.remove_episode uuid) with
              | done named =>
                  apply safe_request (h.removed uuid)
                  exact safe_done ((h.removed uuid).redacted _
                    (h.none_of_removed happlied hrecord)) _
              | failedBefore error =>
                  apply safe_request h.called
                  exact safe_done (h.called.failed event_id _) _
              | failedAfter error =>
                  apply safe_request (h.removed uuid)
                  exact safe_done ((h.removed uuid).failed event_id _) _

variable {adapter : GraphitiProjectionAdapter}

theorem safe_exclude (h : Accounted w) (group_id : Json) (event_id : String) :
    Safe client (GraphitiProjectionAdapter.exclude group_id event_id) w := by
  rw [GraphitiProjectionAdapter.exclude]
  apply safe_request h
  show Safe client (if w.ledger.is_applied event_id = true then _ else _) w
  cases happlied : w.ledger.is_applied event_id with
  | true => exact safe_remove_event h event_id _
  | false =>
      have hnone : w.ledger.applied[event_id]? = none := by
        rw [← Option.not_isSome_iff_eq_none, ← ProjectionLedger.is_applied, happlied]
        decide
      apply safe_request h
      exact safe_done (h.redacted _ (h.none_of_unapplied hnone)) _

theorem safe_materialize (hadds : client.AddsAtomically) (h : Accounted w) (event group_id : Json)
    {event_id : String} (hlive : w.ledger.is_redacted event_id = false) :
    Safe client (adapter.materialize event group_id event_id) w := by
  rw [GraphitiProjectionAdapter.materialize]
  apply safe_request h
  show Safe client (if w.ledger.is_applied event_id = true then _ else _) w
  cases hnew : w.ledger.is_applied event_id with
  | true => exact safe_done h _
  | false =>
      rw [if_neg (by decide), GraphitiProjectionAdapter.addEpisode]
      cases adapter.reference_time event with
      | error error =>
          apply safe_request h
          exact safe_done (h.failed event_id _) _
      | ok u =>
          apply safe_request h
          simp only [projectionStep]
          cases houtcome : client.outcome w.graph.calls
              (.add_episode ⟨episodeName event_id, event, group_id⟩) with
          | done named =>
              -- the record is the request the process does not stop before
              refine ⟨?_, fun hkind => by cases hkind⟩
              apply safe_done
              apply h.added hlive hnew rfl
              cases named with
              | true => exact Or.inr rfl
              | false => exact Or.inl rfl
          | failedBefore error =>
              apply safe_request h.called
              exact safe_done (h.called.failed event_id _) _
          | failedAfter error => exact (hadds _ _ _ houtcome).elim

theorem safe_apply_event (hadds : client.AddsAtomically) (h : Accounted w) (event : Json) :
    Safe client (adapter.apply_event_async event) w := by
  rw [GraphitiProjectionAdapter.apply_event_async]
  apply Safe.bind (safe_done h _)
  intro id w h
  apply Safe.bind (safe_done h _)
  intro group_id w h
  apply Safe.bind (safe_done h _)
  intro event_id w h
  apply safe_request h
  show Safe client (if w.ledger.is_redacted event_id = true then _ else _) w
  cases hlive : w.ledger.is_redacted event_id with
  | true => exact safe_done h _
  | false =>
      rw [if_neg (by decide)]
      cases adapter.event_visible event with
      | error e => exact safe_done h _
      | ok visible =>
          cases visible with
          | true => exact safe_materialize hadds h event group_id hlive
          | false => exact safe_exclude h group_id event_id

theorem safe_forEach {f : β → ProjectionProgram α}
    (hf : ∀ b w, Accounted w → Safe client (f b) w) (h : Accounted w) (xs : List β) :
    Safe client (Program.forEach f xs) w := by
  induction xs generalizing w with
  | nil => exact safe_done h _
  | cons x xs ih =>
      rw [Program.forEach]
      apply Safe.bind (hf x w h)
      intro a w h
      apply Safe.bind (ih h)
      intro as w h
      exact safe_done h _

theorem safe_purgeHidden (h : Accounted w) (events : List Json) :
    Safe client (adapter.purgeHidden events) w := by
  induction events generalizing w with
  | nil => exact safe_done h _
  | cons event events ih =>
      rw [GraphitiProjectionAdapter.purgeHidden]
      apply Safe.bind (safe_done h _)
      intro id w h
      apply Safe.bind (safe_done h _)
      intro visible w h
      split
      · exact ih h
      · apply Safe.bind (safe_done h _)
        intro event_id w h
        apply safe_request h
        show Safe client (if w.ledger.is_applied event_id = true then _ else _) w
        split
        · apply safe_request h
          show Safe client (if w.ledger.is_redacted event_id = true then _ else _) w
          split
          · exact ih h
          · apply Safe.bind (safe_remove_event h event_id _)
            intro receipt w h
            apply Safe.bind (ih h)
            intro receipts w h
            exact safe_done h _
        · exact ih h

theorem safe_purge_event_redactions (h : Accounted w) (tombstones : List Json) :
    Safe client (purge_event_redactions_async tombstones) w := by
  induction tombstones generalizing w with
  | nil => exact safe_done h _
  | cons tombstone tombstones ih =>
      rw [purge_event_redactions_async]
      apply Safe.bind (safe_done h _)
      intro id w h
      apply safe_request h
      show Safe client (if w.ledger.is_redacted id.pyStr = true then _ else _) w
      split
      · exact ih h
      · apply Safe.bind (safe_remove_event h _ _)
        intro receipt w h
        apply Safe.bind (ih h)
        intro receipts w h
        exact safe_done h _

theorem safe_scanEvent (hadds : client.AddsAtomically) (h : Accounted w) (event : Json) :
    Safe client (adapter.scanEvent event) w := by
  rw [GraphitiProjectionAdapter.scanEvent]
  apply Safe.bind (safe_done h _)
  intro id w h
  apply safe_request h
  show Safe client (if w.ledger.is_redacted id.pyStr = true then _ else _) w
  split
  · exact safe_done h _
  · apply safe_request h
    show Safe client (if w.ledger.is_applied id.pyStr = true then _ else _) w
    split
    · exact safe_done h _
    · exact safe_apply_event hadds h event

theorem safe_scan (hadds : client.AddsAtomically) (h : Accounted w) (events : List Json) :
    Safe client (adapter.scan events) w := by
  induction events generalizing w with
  | nil => exact safe_done h _
  | cons event events ih =>
      rw [GraphitiProjectionAdapter.scan]
      apply Safe.bind (safe_scanEvent hadds h event)
      intro receipt w h
      split
      · exact safe_done h _
      · apply Safe.bind (ih h)
        intro receipts w h
        exact safe_done h _

theorem safe_run_once (hadds : client.AddsAtomically) (h : Accounted w) (source : EventSource) :
    Safe client (adapter.run_once_async source) w := by
  rw [GraphitiProjectionAdapter.run_once_async]
  apply Safe.bind (safe_purge_event_redactions h _)
  intro purged w h
  split
  · exact safe_done h _
  · apply Safe.bind (safe_done h _)
    intro ordered w h
    apply Safe.bind (safe_scan hadds h ordered)
    intro receipts w h
    exact safe_done h _

theorem safe_program (hadds : client.AddsAtomically) (h : Accounted w) (call : ProjectionCall) :
    Safe client call.program w := by
  have hunit : ∀ {α : Type} (a : α) w, Accounted w →
      Safe client (pure () : ProjectionProgram Unit) w := fun _ w h => safe_done h _
  rw [ProjectionCall.program]
  cases call.operation with
  | apply_event event => exact (safe_apply_event hadds h event).bind hunit
  | remove_event event_id reason => exact (safe_remove_event h event_id reason).bind hunit
  | purge_event_redactions tombstones =>
      exact (safe_purge_event_redactions h tombstones).bind hunit
  | run_once source => exact (safe_run_once hadds h source).bind hunit
  | purge_redacted events =>
      refine Safe.bind ?_ hunit
      rw [GraphitiProjectionAdapter.purge_redacted_async]
      split
      · exact safe_done h _
      · apply Safe.bind (safe_done h _)
        intro ordered w h
        exact safe_purgeHidden h ordered
  | rebuild events =>
      refine Safe.bind ?_ hunit
      rw [GraphitiProjectionAdapter.rebuild_async]
      apply Safe.bind (safe_done h _)
      intro ordered w h
      exact safe_forEach (fun event w h => safe_apply_event hadds h event) h ordered

end Safe

/-! ## Runs -/

/-- One operation, under a script that may stop the process before any request. -/
def projectionAttempt (client : Client) :
    ProjectionWorld → Program.Attempt ProjectionCall → Option (Except Error Unit) × ProjectionWorld :=
  Program.attempt (projectionStep client) neverRefused ProjectionCall.program

/-- The process is not stopped between an addition and its record. -/
def RecordsAdditions (client : Client) (w : ProjectionWorld)
    (a : Program.Attempt ProjectionCall) : Prop :=
  a.call.program.cutAt (projectionStep client) neverRefused ProjectionRequest.recordsAddition
    a.script w = false

/-- When no addition fails after it took effect and the process is never stopped between an
addition and its record, an event that the ledger has as redacted has no episode. -/
theorem projection_redaction_sound (client : Client) (hadds : client.AddsAtomically)
    (attempts : List (Program.Attempt ProjectionCall))
    (hmeets : Runs.Meets (projectionAttempt client) (RecordsAdditions client) .fresh attempts) :
    let w := Runs.after (projectionAttempt client) .fresh attempts
    ∀ event_id, w.ledger.is_redacted event_id = true →
      ∀ episode ∈ w.graph.episodes, episode.name ≠ episodeName event_id := by
  intro w
  have hw : Accounted w := by
    apply Runs.invariant_of_meets accounted_fresh hmeets
    intro w a h hcut
    exact Program.Always.exec (safe_program hadds h a.call) hcut
  exact hw.erased

/-! ## An addition that is not recorded -/

def notedEvent : Json := notedAt "evt_0000000000000001" "2026-01-01T00:00:00Z"

/-- The event is applied, under a script, and then removed. -/
def applyThenRemove (script : List Program.Decision) : List (Program.Attempt ProjectionCall) :=
  [⟨⟨.plain, .apply_event notedEvent⟩, script⟩,
    ⟨⟨.plain, .remove_event "evt_0000000000000001" "redaction"⟩, []⟩]

/-- A client whose additions are reported as failed. -/
def Client.timedOut : Client :=
  ⟨numberedUuid, numberedUuid_injective, fun _ _ => .failedAfter (.valueError "timeout")⟩

def afterRemoval (client : Client) (script : List Program.Decision) : ProjectionWorld :=
  Runs.after (projectionAttempt client) .fresh (applyThenRemove script)

/-- The redacted event keeps its episode when the addition was reported as failed, and when the
process stopped before it was recorded. -/
theorem redacted_event_has_episode :
    ((afterRemoval .timedOut []).ledger.is_redacted "evt_0000000000000001" = true ∧
      (afterRemoval .timedOut []).graph.episodes.map (fun episode => episode.name) =
        [episodeName "evt_0000000000000001"]) ∧
    ((afterRemoval .reliable [.go, .go, .go, .stop]).ledger.is_redacted
        "evt_0000000000000001" = true ∧
      (afterRemoval .reliable [.go, .go, .go, .stop]).graph.episodes.map
        (fun episode => episode.name) = [episodeName "evt_0000000000000001"]) := by
  decide +kernel

theorem projection_redaction_sound_of_one :
    let w := afterRemoval .reliable []
    ∀ event_id, w.ledger.is_redacted event_id = true →
      ∀ episode ∈ w.graph.episodes, episode.name ≠ episodeName event_id := by
  apply projection_redaction_sound .reliable (fun n content error h => by cases h)
  exact ⟨Program.cutAt_nil _ _ _ _ _, Program.cutAt_nil _ _ _ _ _, trivial⟩

end FossilCore
