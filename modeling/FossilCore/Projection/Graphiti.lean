import FossilCore.Base.Program
import FossilCore.Projection.Migration

/-!
# The Graphiti projection

`projection/ledger.py` and the adapter of `projection/graphiti.py`: the ledger records which
events were materialized as episodes and which were redacted, the client adds and removes the
episodes.  The client is outside the repository: its calls take effect, fail, or fail after
taking effect as `Client` says, and each episode it adds has a UUID of its own.
-/

namespace FossilCore

open Base

/-! ## The ledger -/

structure AppliedRecord where
  group_id : Json
  episode_name : String
  episode_uuid : Option String

inductive FailureCause where
  | raised (error : Error)
  | redactionRebuildRequired (detail : String)

structure FailureRecord where
  group_id : Json
  episode_uuid : Option String
  cause : FailureCause

structure RedactionRecord where
  group_id : Option Json
  reason : String
  episode_uuid : Option String

structure ProjectionLedger where
  applied : KeyMap String AppliedRecord
  failures : List (String × FailureRecord)
  redactions : KeyMap String RedactionRecord

namespace ProjectionLedger

def fresh : ProjectionLedger := ⟨∅, [], ∅⟩

variable (ledger : ProjectionLedger) (event_id : String)

def is_applied : Bool := ledger.applied[event_id]?.isSome

def get_applied : Option AppliedRecord := ledger.applied[event_id]?

def is_redacted : Bool := ledger.redactions[event_id]?.isSome

/-- The first record stays. -/
def record_applied (record : AppliedRecord) : ProjectionLedger :=
  if ledger.is_applied event_id then ledger
  else { ledger with applied := ledger.applied.insert event_id record }

def record_failure (record : FailureRecord) : ProjectionLedger :=
  { ledger with failures := ledger.failures ++ [(event_id, record)] }

/-- The first record stays. -/
def record_redaction (record : RedactionRecord) : ProjectionLedger :=
  if ledger.is_redacted event_id then ledger
  else { ledger with redactions := ledger.redactions.insert event_id record }

end ProjectionLedger

/-! ## The graph and its client -/

/-- An episode to be added: its name, its body and its group. -/
structure EpisodeContent where
  name : String
  episode_body : Json
  group_id : Json

structure Episode extends EpisodeContent where
  uuid : String

/-- The episodes in the graph, the number of client calls so far, and the contents of the
episodes that were ever added, in the order they were added. -/
structure Graph where
  episodes : List Episode
  calls : ℕ
  history : List EpisodeContent

def Graph.empty : Graph := ⟨[], 0, []⟩

inductive ClientCall where
  | add_episode (content : EpisodeContent)
  | remove_episode (uuid : String)

/-- What becomes of a client call.  The result of a call that adds an episode may or may not
name the episode's UUID. -/
inductive ClientOutcome where
  | done (named : Bool)
  | failedBefore (error : Error)
  | failedAfter (error : Error)

/-- `uuid` is the UUID that an episode gets when the call of that number adds it. -/
structure Client where
  uuid : ℕ → String
  fresh : Function.Injective uuid
  outcome : ℕ → ClientCall → ClientOutcome

/-- No call takes effect and fails all the same. -/
def Client.Atomic (client : Client) : Prop :=
  ∀ n call error, client.outcome n call ≠ .failedAfter error

namespace Graph

def called (graph : Graph) : Graph := { graph with calls := graph.calls + 1 }

def add (graph : Graph) (uuid : String) (content : EpisodeContent) : Graph :=
  { graph with
    episodes := graph.episodes ++ [⟨content, uuid⟩]
    history := graph.history ++ [content] }

def remove (graph : Graph) (uuid : String) : Graph :=
  { graph with episodes := graph.episodes.filter fun episode => episode.uuid ≠ uuid }

end Graph

structure ProjectionWorld where
  ledger : ProjectionLedger
  graph : Graph

/-- A fresh ledger and an empty graph. -/
def ProjectionWorld.fresh : ProjectionWorld := ⟨.fresh, .empty⟩

inductive ProjectionRequest where
  | is_redacted (event_id : String)
  | is_applied (event_id : String)
  | get_applied (event_id : String)
  | record_applied (event_id : String) (record : AppliedRecord)
  | record_failure (event_id : String) (record : FailureRecord)
  | record_redaction (event_id : String) (record : RedactionRecord)
  | add_episode (content : EpisodeContent)
  | remove_episode (uuid : String)

def ProjectionRequest.Answer : ProjectionRequest → Type
  | is_redacted _ | is_applied _ => Bool
  | get_applied _ => Option AppliedRecord
  | record_applied _ _ | record_failure _ _ | record_redaction _ _ => Unit
  | add_episode _ => Except Error (Option String)
  | remove_episode _ => Except Error Unit

abbrev ProjectionProgram := Program ProjectionRequest ProjectionRequest.Answer Error

namespace ProjectionProgram

def is_redacted (event_id : String) : ProjectionProgram Bool :=
  Program.call (ProjectionRequest.is_redacted event_id)

def is_applied (event_id : String) : ProjectionProgram Bool :=
  Program.call (ProjectionRequest.is_applied event_id)

def get_applied (event_id : String) : ProjectionProgram (Option AppliedRecord) :=
  Program.call (ProjectionRequest.get_applied event_id)

def record_applied (event_id : String) (record : AppliedRecord) : ProjectionProgram Unit :=
  Program.call (ProjectionRequest.record_applied event_id record)

def record_failure (event_id : String) (record : FailureRecord) : ProjectionProgram Unit :=
  Program.call (ProjectionRequest.record_failure event_id record)

def record_redaction (event_id : String) (record : RedactionRecord) : ProjectionProgram Unit :=
  Program.call (ProjectionRequest.record_redaction event_id record)

def add_episode (content : EpisodeContent) : ProjectionProgram (Except Error (Option String)) :=
  Program.call (ProjectionRequest.add_episode content)

def remove_episode (uuid : String) : ProjectionProgram (Except Error Unit) :=
  Program.call (ProjectionRequest.remove_episode uuid)

end ProjectionProgram

/-- How the ledger and the client answer a request. -/
def projectionStep (client : Client) : (r : ProjectionRequest) → ProjectionWorld →
    r.Answer × ProjectionWorld
  | .is_redacted event_id, w => (w.ledger.is_redacted event_id, w)
  | .is_applied event_id, w => (w.ledger.is_applied event_id, w)
  | .get_applied event_id, w => (w.ledger.get_applied event_id, w)
  | .record_applied event_id record, w =>
      ((), { w with ledger := w.ledger.record_applied event_id record })
  | .record_failure event_id record, w =>
      ((), { w with ledger := w.ledger.record_failure event_id record })
  | .record_redaction event_id record, w =>
      ((), { w with ledger := w.ledger.record_redaction event_id record })
  | .add_episode content, w =>
      let uuid := client.uuid w.graph.calls
      match client.outcome w.graph.calls (.add_episode content) with
      | .done named =>
          (.ok (if named then some uuid else none),
            { w with graph := (w.graph.add uuid content).called })
      | .failedBefore error => (.error error, { w with graph := w.graph.called })
      | .failedAfter error => (.error error, { w with graph := (w.graph.add uuid content).called })
  | .remove_episode uuid, w =>
      match client.outcome w.graph.calls (.remove_episode uuid) with
      | .done _ => (.ok (), { w with graph := (w.graph.remove uuid).called })
      | .failedBefore error => (.error error, { w with graph := w.graph.called })
      | .failedAfter error => (.error error, { w with graph := (w.graph.remove uuid).called })

/-! ## The adapter -/

inductive ReceiptStatus where
  | applied
  | skipped
  | redacted
  | failed
  deriving DecidableEq

structure ProjectionReceipt where
  event_id : String
  status : ReceiptStatus
  detail : Option String

/-- `fromisoformat` is the parser of the standard library. -/
structure GraphitiProjectionAdapter where
  visibility_policy : Option (Json → Except Error Bool)
  fromisoformat : String → Except Error Unit

def episodeName (event_id : String) : String := "dkg-event:" ++ event_id

/-- `text.replace("Z", "+00:00")` -/
def withUtcOffset (text : String) : String :=
  String.ofList (text.toList.flatMap fun c => if c = 'Z' then "+00:00".toList else [c])

/-- An identifier used as a text: other values have no `removeprefix`. -/
def idOf (event_id : Json) : Except Error String :=
  match event_id with
  | .str text => .ok text
  | _ => .error (.ofPython .attributeError)

def visibilityReason : String := "source/evidence redaction visibility policy"

def uuidUnavailable : String :=
  "episode UUID unavailable in applied record; redaction-aware rebuild required"

def remove_event_async (event_id reason : String) : ProjectionProgram ProjectionReceipt := do
  if ← ProjectionProgram.is_redacted event_id then
    return ⟨event_id, .skipped, some "projection already redacted"⟩
  else
    match ← ProjectionProgram.get_applied event_id with
    | none =>
        ProjectionProgram.record_redaction event_id ⟨none, reason, none⟩
        return ⟨event_id, .redacted,
          some "event was not materialized in this projection build"⟩
    | some applied =>
        match applied.episode_uuid.filter (· ≠ "") with
        | none =>
            ProjectionProgram.record_failure event_id
              ⟨applied.group_id, none, .redactionRebuildRequired uuidUnavailable⟩
            return ⟨event_id, .failed, some uuidUnavailable⟩
        | some episode_uuid =>
            match ← ProjectionProgram.remove_episode episode_uuid with
            | .error error =>
                ProjectionProgram.record_failure event_id
                  ⟨applied.group_id, some episode_uuid, .raised error⟩
                return ⟨event_id, .failed, some error.message⟩
            | .ok () =>
                ProjectionProgram.record_redaction event_id
                  ⟨some applied.group_id, reason, some episode_uuid⟩
                return ⟨event_id, .redacted, some "Graphiti episode removed"⟩

namespace GraphitiProjectionAdapter

variable (adapter : GraphitiProjectionAdapter)

def event_visible (event : Json) : Except Error Bool :=
  match adapter.visibility_policy with
  | none => .ok true
  | some policy => policy event

def reference_time (event : Json) : Except Error Unit := do
  match ← liftPy (event.getItem "occurred_at") with
  | .str text => adapter.fromisoformat (withUtcOffset text)
  | _ => .error (.ofPython .attributeError)

/-- The `try` of `apply_event_async`: the UUID of the added episode, when the client names it. -/
def addEpisode (event : Json) (content : EpisodeContent) :
    ProjectionProgram (Except Error (Option String)) :=
  match adapter.reference_time event with
  | .error error => .done (.ok (.error error))
  | .ok () => ProjectionProgram.add_episode content

/-- `apply_event_async` once the event is seen to be visible. -/
def materialize (event group_id : Json) (event_id : String) :
    ProjectionProgram ProjectionReceipt := do
  if ← ProjectionProgram.is_applied event_id then
    return ⟨event_id, .skipped, some "already applied"⟩
  else
    match ← adapter.addEpisode event ⟨episodeName event_id, event, group_id⟩ with
    | .error error =>
        ProjectionProgram.record_failure event_id ⟨group_id, none, .raised error⟩
        return ⟨event_id, .failed, some error.message⟩
    | .ok episode_uuid =>
        ProjectionProgram.record_applied event_id ⟨group_id, episodeName event_id, episode_uuid⟩
        return ⟨event_id, .applied, none⟩

/-- `apply_event_async` once the event is seen to be hidden. -/
def exclude (group_id : Json) (event_id : String) : ProjectionProgram ProjectionReceipt := do
  if ← ProjectionProgram.is_applied event_id then
    remove_event_async event_id visibilityReason
  else
    ProjectionProgram.record_redaction event_id ⟨some group_id, visibilityReason, none⟩
    return ⟨event_id, .redacted, some "event excluded by redaction visibility policy"⟩

def apply_event_async (event : Json) : ProjectionProgram ProjectionReceipt := do
  let event_id ← .done (liftPy (event.getItem "event_id"))
  let group_id ← .done (liftPy (event.getItem "pack_id"))
  let event_id ← .done (idOf event_id)
  if ← ProjectionProgram.is_redacted event_id then
    return ⟨event_id, .skipped, some "projection redacted"⟩
  else
    let visible ← .done (adapter.event_visible event)
    if visible then adapter.materialize event group_id event_id
    else exclude group_id event_id

/-- The loop of `purge_redacted_async`. -/
def purgeHidden : List Json → ProjectionProgram (List ProjectionReceipt)
  | [] => return []
  | event :: events => do
      let event_id ← .done (liftPy (event.getItem "event_id"))
      if ← .done (adapter.event_visible event) then purgeHidden events
      else do
        let event_id ← .done (idOf event_id)
        if ← ProjectionProgram.is_applied event_id then
          if ← ProjectionProgram.is_redacted event_id then purgeHidden events
          else do
            let receipt ← remove_event_async event_id visibilityReason
            let receipts ← purgeHidden events
            return receipt :: receipts
        else purgeHidden events

/-- `events` are the contents of the files under `events_root`. -/
def purge_redacted_async (events : List Json) : ProjectionProgram (List ProjectionReceipt) :=
  if adapter.visibility_policy.isNone then return []
  else do
    let ordered ← .done (ordered_events events)
    adapter.purgeHidden ordered

/-- `events` are the contents of the files under `events_root`. -/
def rebuild_async (events : List Json) : ProjectionProgram (List ProjectionReceipt) := do
  let ordered ← .done (ordered_events events)
  Program.forEach adapter.apply_event_async ordered

end GraphitiProjectionAdapter

def purge_event_redactions_async : List Json → ProjectionProgram (List ProjectionReceipt)
  | [] => return []
  | tombstone :: tombstones => do
      let event_id ← .done (liftPy (tombstone.getItem "event_id"))
      if ← ProjectionProgram.is_redacted event_id.pyStr then
        purge_event_redactions_async tombstones
      else do
        let receipt ← remove_event_async event_id.pyStr "durable event redaction tombstone"
        let receipts ← purge_event_redactions_async tombstones
        return receipt :: receipts

/-! ## What the operations do -/

namespace ProjectionLedger

variable {ledger : ProjectionLedger} {event_id : String}

theorem record_applied_new (h : ledger.is_applied event_id = false) (record : AppliedRecord) :
    ledger.record_applied event_id record =
      { ledger with applied := ledger.applied.insert event_id record } := by
  rw [record_applied, h]
  rfl

theorem record_redaction_new (h : ledger.is_redacted event_id = false)
    (record : RedactionRecord) : ledger.record_redaction event_id record =
      { ledger with redactions := ledger.redactions.insert event_id record } := by
  rw [record_redaction, h]
  rfl

/-- Does the ledger have the event as applied or as redacted? -/
def marked (ledger : ProjectionLedger) (event_id : String) : Bool :=
  ledger.is_applied event_id || ledger.is_redacted event_id

variable (ledger event_id) (other : String)

theorem is_applied_record_applied (record : AppliedRecord) :
    (ledger.record_applied event_id record).is_applied other =
      (ledger.is_applied other || decide (event_id = other)) := by
  cases h : ledger.is_applied event_id with
  | true =>
      rw [record_applied, h, if_pos rfl]
      by_cases heq : event_id = other
      · rw [← heq, h, Bool.true_or]
      · rw [decide_eq_false heq, Bool.or_false]
  | false =>
      rw [record_applied_new h, is_applied, is_applied, KeyMap.get?_insert]
      by_cases heq : event_id = other
      · rw [if_pos heq, decide_eq_true heq, Bool.or_true]
        rfl
      · rw [if_neg heq, decide_eq_false heq, Bool.or_false]

theorem is_redacted_record_applied (record : AppliedRecord) :
    (ledger.record_applied event_id record).is_redacted other = ledger.is_redacted other := by
  rw [record_applied]
  split <;> rfl

theorem is_redacted_record_redaction (record : RedactionRecord) :
    (ledger.record_redaction event_id record).is_redacted other =
      (ledger.is_redacted other || decide (event_id = other)) := by
  cases h : ledger.is_redacted event_id with
  | true =>
      rw [record_redaction, h, if_pos rfl]
      by_cases heq : event_id = other
      · rw [← heq, h, Bool.true_or]
      · rw [decide_eq_false heq, Bool.or_false]
  | false =>
      rw [record_redaction_new h, is_redacted, is_redacted, KeyMap.get?_insert]
      by_cases heq : event_id = other
      · rw [if_pos heq, decide_eq_true heq, Bool.or_true]
        rfl
      · rw [if_neg heq, decide_eq_false heq, Bool.or_false]

theorem applied_record_redaction (record : RedactionRecord) :
    (ledger.record_redaction event_id record).applied = ledger.applied := by
  rw [record_redaction]
  split <;> rfl

theorem is_applied_record_redaction (record : RedactionRecord) :
    (ledger.record_redaction event_id record).is_applied other = ledger.is_applied other := by
  rw [is_applied, applied_record_redaction, is_applied]

theorem marked_record_applied (record : AppliedRecord) :
    (ledger.record_applied event_id record).marked other =
      (ledger.marked other || decide (event_id = other)) := by
  rw [marked, is_applied_record_applied, is_redacted_record_applied, marked, Bool.or_right_comm]

theorem marked_record_redaction (record : RedactionRecord) :
    (ledger.record_redaction event_id record).marked other =
      (ledger.marked other || decide (event_id = other)) := by
  rw [marked, is_applied_record_redaction, is_redacted_record_redaction, marked, Bool.or_assoc]

end ProjectionLedger

/-- Everything `remove_event_async` can do. -/
inductive Removal (client : Client) (event_id : String) (w : ProjectionWorld) :
    ReceiptStatus → ProjectionWorld → Prop where
  | already (hredacted : w.ledger.is_redacted event_id = true) : Removal client event_id w .skipped w
  | unmaterialized (record : RedactionRecord) (hlive : w.ledger.is_redacted event_id = false)
      (happlied : w.ledger.applied[event_id]? = none) :
      Removal client event_id w .redacted ⟨w.ledger.record_redaction event_id record, w.graph⟩
  | untracked (applied : AppliedRecord) (failure : FailureRecord)
      (hlive : w.ledger.is_redacted event_id = false)
      (happlied : w.ledger.applied[event_id]? = some applied) :
      Removal client event_id w .failed ⟨w.ledger.record_failure event_id failure, w.graph⟩
  | refused (applied : AppliedRecord) (failure : FailureRecord)
      (hlive : w.ledger.is_redacted event_id = false)
      (happlied : w.ledger.applied[event_id]? = some applied) :
      Removal client event_id w .failed
        ⟨w.ledger.record_failure event_id failure, w.graph.called⟩
  | lost (applied : AppliedRecord) (failure : FailureRecord) (uuid : String) (error : Error)
      (hlive : w.ledger.is_redacted event_id = false)
      (happlied : w.ledger.applied[event_id]? = some applied)
      (houtcome : client.outcome w.graph.calls (.remove_episode uuid) = .failedAfter error) :
      Removal client event_id w .failed
        ⟨w.ledger.record_failure event_id failure, (w.graph.remove uuid).called⟩
  | removed (applied : AppliedRecord) (record : RedactionRecord) (uuid : String)
      (hlive : w.ledger.is_redacted event_id = false)
      (happlied : w.ledger.applied[event_id]? = some applied)
      (huuid : applied.episode_uuid = some uuid) :
      Removal client event_id w .redacted
        ⟨w.ledger.record_redaction event_id record, (w.graph.remove uuid).called⟩

section Requests

variable {α : Type} (client : Client) (event_id : String) (w : ProjectionWorld)

@[simp] theorem run_is_redacted (f : Bool → ProjectionProgram α) :
    (ProjectionProgram.is_redacted event_id >>= f).run (projectionStep client) w =
      (f (w.ledger.is_redacted event_id)).run (projectionStep client) w := rfl

@[simp] theorem run_is_applied (f : Bool → ProjectionProgram α) :
    (ProjectionProgram.is_applied event_id >>= f).run (projectionStep client) w =
      (f (w.ledger.is_applied event_id)).run (projectionStep client) w := rfl

@[simp] theorem run_get_applied (f : Option AppliedRecord → ProjectionProgram α) :
    (ProjectionProgram.get_applied event_id >>= f).run (projectionStep client) w =
      (f w.ledger.applied[event_id]?).run (projectionStep client) w := rfl

@[simp] theorem run_record_applied (record : AppliedRecord) (f : Unit → ProjectionProgram α) :
    (ProjectionProgram.record_applied event_id record >>= f).run (projectionStep client) w =
      (f ()).run (projectionStep client) ⟨w.ledger.record_applied event_id record, w.graph⟩ := rfl

@[simp] theorem run_record_failure (record : FailureRecord) (f : Unit → ProjectionProgram α) :
    (ProjectionProgram.record_failure event_id record >>= f).run (projectionStep client) w =
      (f ()).run (projectionStep client) ⟨w.ledger.record_failure event_id record, w.graph⟩ := rfl

@[simp] theorem run_record_redaction (record : RedactionRecord) (f : Unit → ProjectionProgram α) :
    (ProjectionProgram.record_redaction event_id record >>= f).run (projectionStep client) w =
      (f ()).run (projectionStep client) ⟨w.ledger.record_redaction event_id record, w.graph⟩ := rfl

theorem run_add_episode (content : EpisodeContent)
    (f : Except Error (Option String) → ProjectionProgram α) :
    (ProjectionProgram.add_episode content >>= f).run (projectionStep client) w =
      (f (projectionStep client (.add_episode content) w).1).run (projectionStep client)
        (projectionStep client (.add_episode content) w).2 := rfl

theorem run_remove_episode (uuid : String) (f : Except Error Unit → ProjectionProgram α) :
    (ProjectionProgram.remove_episode uuid >>= f).run (projectionStep client) w =
      (f (projectionStep client (.remove_episode uuid) w).1).run (projectionStep client)
        (projectionStep client (.remove_episode uuid) w).2 := rfl

end Requests

theorem run_remove_event (client : Client) (event_id reason : String) (w : ProjectionWorld) :
    ∃ receipt w', (remove_event_async event_id reason).run (projectionStep client) w =
      (.ok receipt, w') ∧ receipt.event_id = event_id ∧
        Removal client event_id w receipt.status w' := by
  rw [remove_event_async, run_is_redacted]
  cases hredacted : w.ledger.is_redacted event_id with
  | true => exact ⟨_, w, rfl, rfl, .already hredacted⟩
  | false =>
      rw [if_neg (by decide), run_get_applied]
      cases happlied : w.ledger.applied[event_id]? with
      | none => exact ⟨_, _, rfl, rfl, .unmaterialized _ hredacted happlied⟩
      | some applied =>
          dsimp only
          cases huuid : applied.episode_uuid.filter (· ≠ "") with
          | none => exact ⟨_, _, rfl, rfl, .untracked applied _ hredacted happlied⟩
          | some uuid =>
              have hrecord := (Option.filter_eq_some_iff.mp huuid).1
              dsimp only
              rw [run_remove_episode]
              simp only [projectionStep]
              cases houtcome : client.outcome w.graph.calls (.remove_episode uuid) with
              | done named =>
                  exact ⟨_, _, rfl, rfl, .removed applied _ uuid hredacted happlied hrecord⟩
              | failedBefore error =>
                  exact ⟨_, _, rfl, rfl, .refused applied _ hredacted happlied⟩
              | failedAfter error =>
                  exact ⟨_, _, rfl, rfl, .lost applied _ uuid error hredacted happlied houtcome⟩

/-- Everything `apply_event_async` can do with an event of that id. -/
inductive Application (client : Client) (adapter : GraphitiProjectionAdapter) (event : Json)
    (event_id : String) (w : ProjectionWorld) : ReceiptStatus → ProjectionWorld → Prop where
  | redacted (hredacted : w.ledger.is_redacted event_id = true) :
      Application client adapter event event_id w .skipped w
  | excluded (record : RedactionRecord) (hlive : w.ledger.is_redacted event_id = false)
      (hhidden : adapter.event_visible event = .ok false)
      (hnew : w.ledger.is_applied event_id = false) :
      Application client adapter event event_id w .redacted
        ⟨w.ledger.record_redaction event_id record, w.graph⟩
  | withdrawn (status : ReceiptStatus) (w' : ProjectionWorld)
      (hhidden : adapter.event_visible event = .ok false)
      (happlied : w.ledger.is_applied event_id = true)
      (hremoval : Removal client event_id w status w') :
      Application client adapter event event_id w status w'
  | already (hlive : w.ledger.is_redacted event_id = false)
      (hvisible : adapter.event_visible event = .ok true)
      (happlied : w.ledger.is_applied event_id = true) :
      Application client adapter event event_id w .skipped w
  | undated (failure : FailureRecord) (error : Error)
      (hlive : w.ledger.is_redacted event_id = false)
      (hvisible : adapter.event_visible event = .ok true)
      (hnew : w.ledger.is_applied event_id = false)
      (htime : adapter.reference_time event = .error error) :
      Application client adapter event event_id w .failed
        ⟨w.ledger.record_failure event_id failure, w.graph⟩
  | refused (failure : FailureRecord) (content : EpisodeContent) (error : Error)
      (hlive : w.ledger.is_redacted event_id = false)
      (hvisible : adapter.event_visible event = .ok true)
      (hnew : w.ledger.is_applied event_id = false)
      (htime : adapter.reference_time event = .ok ())
      (hname : content.name = episodeName event_id) (hbody : content.episode_body = event)
      (houtcome : client.outcome w.graph.calls (.add_episode content) = .failedBefore error) :
      Application client adapter event event_id w .failed
        ⟨w.ledger.record_failure event_id failure, w.graph.called⟩
  | lost (failure : FailureRecord) (content : EpisodeContent) (error : Error)
      (hlive : w.ledger.is_redacted event_id = false)
      (hvisible : adapter.event_visible event = .ok true)
      (hnew : w.ledger.is_applied event_id = false)
      (htime : adapter.reference_time event = .ok ())
      (hname : content.name = episodeName event_id) (hbody : content.episode_body = event)
      (houtcome : client.outcome w.graph.calls (.add_episode content) = .failedAfter error) :
      Application client adapter event event_id w .failed
        ⟨w.ledger.record_failure event_id failure,
          (w.graph.add (client.uuid w.graph.calls) content).called⟩
  | added (record : AppliedRecord) (content : EpisodeContent) (named : Bool)
      (hlive : w.ledger.is_redacted event_id = false)
      (hvisible : adapter.event_visible event = .ok true)
      (hnew : w.ledger.is_applied event_id = false)
      (htime : adapter.reference_time event = .ok ())
      (hname : content.name = episodeName event_id) (hbody : content.episode_body = event)
      (houtcome : client.outcome w.graph.calls (.add_episode content) = .done named)
      (huuid : record.episode_uuid = if named then some (client.uuid w.graph.calls) else none) :
      Application client adapter event event_id w .applied
        ⟨w.ledger.record_applied event_id record,
          (w.graph.add (client.uuid w.graph.calls) content).called⟩

/-- What an event must have for `apply_event_async` not to raise. -/
structure Addressed (event : Json) (event_id : String) : Prop where
  event_id : event.get? "event_id" = some (.str event_id)
  pack_id : ∃ pack_id, event.get? "pack_id" = some pack_id

theorem Addressed.unique {event : Json} {event_id event_id' : String}
    (h : Addressed event event_id) (h' : Addressed event event_id') : event_id = event_id' := by
  have heq := h.event_id.symm.trans h'.event_id
  cases heq
  rfl

theorem eq_of_idOf {id : Json} {event_id : String} (h : idOf id = .ok event_id) :
    id = .str event_id := by
  cases id with
  | str text =>
      cases h
      rfl
  | _ => cases h

namespace GraphitiProjectionAdapter

variable (client : Client) (adapter : GraphitiProjectionAdapter)

theorem run_exclude (group_id : Json) {event : Json} {event_id : String} {w : ProjectionWorld}
    (hlive : w.ledger.is_redacted event_id = false)
    (hhidden : adapter.event_visible event = .ok false) :
    ∃ receipt w', (exclude group_id event_id).run (projectionStep client) w = (.ok receipt, w') ∧
      receipt.event_id = event_id ∧
        Application client adapter event event_id w receipt.status w' := by
  rw [exclude, run_is_applied]
  cases happlied : w.ledger.is_applied event_id with
  | false => exact ⟨_, _, rfl, rfl, .excluded _ hlive hhidden happlied⟩
  | true =>
      obtain ⟨receipt, w', hrun, hid, hremoval⟩ :=
        run_remove_event client event_id visibilityReason w
      exact ⟨receipt, w', hrun, hid, .withdrawn _ _ hhidden happlied hremoval⟩

theorem run_materialize (group_id : Json) {event : Json} {event_id : String} {w : ProjectionWorld}
    (hlive : w.ledger.is_redacted event_id = false)
    (hvisible : adapter.event_visible event = .ok true) :
    ∃ receipt w', (adapter.materialize event group_id event_id).run (projectionStep client) w =
      (.ok receipt, w') ∧ receipt.event_id = event_id ∧
        Application client adapter event event_id w receipt.status w' := by
  rw [materialize, run_is_applied]
  cases happlied : w.ledger.is_applied event_id with
  | true => exact ⟨_, _, rfl, rfl, .already hlive hvisible happlied⟩
  | false =>
      rw [if_neg (by decide), addEpisode]
      cases htime : adapter.reference_time event with
      | error error => exact ⟨_, _, rfl, rfl, .undated _ error hlive hvisible happlied htime⟩
      | ok u =>
          simp only [run_add_episode, projectionStep]
          cases houtcome : client.outcome w.graph.calls
              (.add_episode ⟨episodeName event_id, event, group_id⟩) with
          | done named =>
              exact ⟨_, _, rfl, rfl,
                .added _ _ named hlive hvisible happlied htime rfl rfl houtcome rfl⟩
          | failedBefore error =>
              exact ⟨_, _, rfl, rfl,
                .refused _ _ error hlive hvisible happlied htime rfl rfl houtcome⟩
          | failedAfter error =>
              exact ⟨_, _, rfl, rfl,
                .lost _ _ error hlive hvisible happlied htime rfl rfl houtcome⟩

/-- Applying an event raises and changes nothing, or has one of the effects. -/
theorem run_apply_event (event : Json) (w : ProjectionWorld) :
    (∃ e, (adapter.apply_event_async event).run (projectionStep client) w = (.error e, w) ∧
      ∀ event_id, Addressed event event_id → w.ledger.is_redacted event_id = false ∧
        adapter.event_visible event = .error e) ∨
    ∃ event_id receipt w', Addressed event event_id ∧
      (adapter.apply_event_async event).run (projectionStep client) w = (.ok receipt, w') ∧
        receipt.event_id = event_id ∧
          Application client adapter event event_id w receipt.status w' := by
  cases hid : event.getItem "event_id" with
  | error exc =>
      refine Or.inl ⟨.ofPython exc, by rw [apply_event_async, hid]; rfl, ?_⟩
      intro event_id haddressed
      rw [Json.getItem_of_get? haddressed.event_id] at hid
      cases hid
  | ok id =>
      cases hpack : event.getItem "pack_id" with
      | error exc =>
          refine Or.inl ⟨.ofPython exc, by rw [apply_event_async, hid, hpack]; rfl, ?_⟩
          intro event_id haddressed
          obtain ⟨pack_id, hpack_id⟩ := haddressed.pack_id
          rw [Json.getItem_of_get? hpack_id] at hpack
          cases hpack
      | ok group_id =>
          cases htext : idOf id with
          | error e =>
              refine Or.inl ⟨e, by rw [apply_event_async, hid, hpack]; simp [htext], ?_⟩
              intro event_id haddressed
              rw [Json.getItem_of_get? haddressed.event_id] at hid
              cases hid
              cases htext
          | ok event_id =>
              obtain rfl := eq_of_idOf htext
              have haddressed : Addressed event event_id :=
                ⟨Json.getItem_ok_iff.mp hid, group_id, Json.getItem_ok_iff.mp hpack⟩
              simp only [apply_event_async, hid, hpack, liftPy_ok, Program.bind_done_ok, htext,
                run_is_redacted]
              cases hredacted : w.ledger.is_redacted event_id with
              | true =>
                  exact Or.inr ⟨event_id, _, w, haddressed, rfl, rfl, .redacted hredacted⟩
              | false =>
                  cases hvisible : adapter.event_visible event with
                  | error e =>
                      refine Or.inl ⟨e, rfl, ?_⟩
                      intro other hother
                      obtain rfl := haddressed.unique hother
                      exact ⟨hredacted, rfl⟩
                  | ok visible =>
                      cases visible with
                      | true =>
                          obtain ⟨receipt, w', hrun, hid, happlication⟩ :=
                            run_materialize client adapter group_id hredacted hvisible
                          exact Or.inr ⟨event_id, receipt, w', haddressed, hrun, hid, happlication⟩
                      | false =>
                          obtain ⟨receipt, w', hrun, hid, happlication⟩ :=
                            run_exclude client adapter group_id hredacted hvisible
                          exact Or.inr ⟨event_id, receipt, w', haddressed, hrun, hid, happlication⟩

end GraphitiProjectionAdapter

/-! ## A sample -/

def numberedUuid (n : ℕ) : String := String.ofList (List.replicate (n + 1) 'u')

theorem numberedUuid_injective : Function.Injective numberedUuid := by
  intro m n h
  have hlength := congrArg (fun text => text.toList.length) h
  simpa [numberedUuid] using hlength

/-- A client whose calls all take effect. -/
def Client.reliable : Client := ⟨numberedUuid, numberedUuid_injective, fun _ _ => .done true⟩

theorem Client.atomic_reliable : Client.reliable.Atomic := by
  rintro n call error ⟨⟩

/-- An adapter without a policy; the parser is that of the times the samples carry. -/
def GraphitiProjectionAdapter.plain : GraphitiProjectionAdapter :=
  ⟨none, fun text => if Text.endsWith text "+00:00" then .ok () else .error (.valueError text)⟩

/-- An event with the members that a projection reads. -/
def notedAt (event_id recorded_at : String) : Json :=
  .obj [("event_id", .str event_id), ("occurred_at", .str recorded_at),
    ("pack_id", .str "pack_0123456789abcdef"), ("recorded_at", .str recorded_at)]

theorem keyed_notedAt (event_id recorded_at : String) : Keyed (notedAt event_id recorded_at) :=
  ⟨⟨_, rfl⟩, ⟨_, rfl⟩⟩

end FossilCore
