import Mathlib.Data.Finset.Max
import Mathlib.Data.Prod.Lex
import FossilCore.Base.Checks
import FossilCore.Base.JsonObject
import FossilCore.Base.KeyMap
import FossilCore.Base.Latest
import FossilCore.Domain.Lifecycle
import FossilCore.Domain.Promotion

/-!
# Source lifecycle

`SourceLifecycleState` of `domain/provenance.py`, on arbitrary JSON events: the status of a source
snapshot is the one that its latest event sets.
-/

namespace FossilCore

open Base

structure SourceStatus where
  snapshot_id : String
  state : String
  reason : Json
  last_event_id : String
  deriving DecidableEq

structure SourceLifecycleState where
  statuses : Dict String SourceStatus

namespace SourceLifecycleState

def VALID : List String := ["source.stale", "source.retracted", "source.restored"]

/-- The state that an event type of `VALID` sets. -/
def newState (event_type : String) : Except Error String :=
  if event_type = "source.stale" then .ok "stale"
  else if event_type = "source.retracted" then .ok "retracted"
  else if event_type = "source.restored" then .ok "active"
  else .error (.keyError event_type)

/-- `event.get("event_type") in cls.VALID` -/
def isValid (event : Json) : Except Error Bool := do
  let event_type ← liftPy (event.getMethod "event_type")
  return (← memberOf (event_type.getD .null) VALID).isSome

def validEvents : List Json → Except Error (List Json)
  | [] => .ok []
  | event :: rest => do
      let valid ← isValid event
      let events ← validEvents rest
      return if valid then event :: events else events

def keyed (event : Json) : Except Error ((String ×ₗ String) × Json) := do
  let recorded_at ← liftPy (event.getItem "recorded_at")
  let event_id ← liftPy (event.getItem "event_id")
  return (toLex (recorded_at.pyStr, event_id.pyStr), event)

/-- The status that an event sets. -/
def statusFrom (event : Json) : Except Error SourceStatus := do
  let payload ← liftPy (event.getItem "payload")
  let snapshot_id ← liftPy (payload.getItem "snapshot_id")
  let event_type ← liftPy (event.getItem "event_type")
  let new_state ← newState event_type.pyStr
  let reason ← liftPy (payload.getMethod "reason")
  let event_id ← liftPy (event.getItem "event_id")
  return {
    snapshot_id := snapshot_id.pyStr
    state := new_state
    reason := reason.getD .null
    last_event_id := event_id.pyStr }

def replay (events : List Json) : Except Error SourceLifecycleState := do
  let valid ← validEvents events
  let pairs ← valid.mapM keyed
  let statuses ← ((sortedBy Prod.fst pairs).map Prod.snd).mapM statusFrom
  return ⟨Dict.ofPairs (statuses.map fun status => (status.snapshot_id, status))⟩

def status (self : SourceLifecycleState) (snapshot_id : String) : String :=
  ((self.statuses.get? snapshot_id).getD ⟨snapshot_id, "active", .null, ""⟩).state

/-! ## Source lifecycle events -/

/-- What replay reads of an event of one of the three types. -/
structure SourceEvent (event : Json) : Prop where
  event_type : ∃ event_type ∈ VALID, event.get? "event_type" = some (.str event_type)
  recorded_at : ∃ value, event.get? "recorded_at" = some value
  event_id : ∃ value, event.get? "event_id" = some value
  payload : ∃ payload value, event.get? "payload" = some payload ∧
    payload.get? "snapshot_id" = some value

/-- Events of other types are passed over. -/
def Replayable (event : Json) : Prop := isValid event = .ok false ∨ SourceEvent event

def isSource (event : Json) : Bool := (isValid event).toOption.getD false

def eventId (event : Json) : String := textOf event "event_id"

def orderKey (event : Json) : String ×ₗ String := toLex (textOf event "recorded_at", eventId event)

def payloadOf (event : Json) : Json := (event.get? "payload").getD .null

def snapshotOf (event : Json) : String := textOf (payloadOf event) "snapshot_id"

def stateFrom (event : Json) : String := (newState (textOf event "event_type")).toOption.getD ""

def statusOf (event : Json) : SourceStatus where
  snapshot_id := snapshotOf event
  state := stateFrom event
  reason := ((payloadOf event).get? "reason").getD .null
  last_event_id := eventId event

/-- A source lifecycle event of the snapshot. -/
def Concerns (snapshot_id : String) (event : Json) : Prop :=
  isSource event = true ∧ snapshotOf event = snapshot_id

instance (snapshot_id : String) (event : Json) : Decidable (Concerns snapshot_id event) :=
  inferInstanceAs (Decidable (_ ∧ _))

variable {events events' : List Json} {event : Json} {snapshot_id : String}

theorem textOf_of_get? {v value : Json} {key : String} (h : v.get? key = some value) :
    textOf v key = value.pyStr := by
  rw [textOf, h, Option.getD_some]

theorem getItem_ok {v value : Json} {key : String} (h : v.get? key = some value) :
    liftPy (v.getItem key) = .ok value :=
  liftPy_eq_ok.mpr (Json.getItem_of_get? h)

theorem getMethod_ok {v value : Json} {key : String} (h : v.get? key = some value)
    (other : String) : liftPy (v.getMethod other) = .ok (v.get? other) := by
  cases v with
  | obj fields => rfl
  | _ => cases h

theorem SourceEvent.isValid (h : SourceEvent event) :
    SourceLifecycleState.isValid event = .ok true := by
  obtain ⟨event_type, hmem, hget⟩ := h.event_type
  rw [SourceLifecycleState.isValid, getMethod_ok hget, hget]
  change Except.ok (if event_type ∈ VALID then some event_type else none).isSome = _
  rw [if_pos hmem]
  rfl

theorem SourceEvent.isSource (h : SourceEvent event) :
    SourceLifecycleState.isSource event = true := by
  rw [SourceLifecycleState.isSource, h.isValid]
  rfl

theorem newState_ok {event_type : String} (h : event_type ∈ VALID) :
    newState event_type = .ok ((newState event_type).toOption.getD "") := by
  rcases List.mem_cons.mp h with rfl | h
  · rfl
  rcases List.mem_cons.mp h with rfl | h
  · rfl
  · rw [List.mem_singleton.mp h]
    rfl

theorem SourceEvent.keyed (h : SourceEvent event) :
    SourceLifecycleState.keyed event = .ok (orderKey event, event) := by
  obtain ⟨recorded_at, hrecorded⟩ := h.recorded_at
  obtain ⟨event_id, hid⟩ := h.event_id
  rw [SourceLifecycleState.keyed, getItem_ok hrecorded, getItem_ok hid, orderKey, eventId,
    textOf_of_get? hrecorded, textOf_of_get? hid]
  rfl

theorem SourceEvent.statusFrom (h : SourceEvent event) :
    SourceLifecycleState.statusFrom event = .ok (statusOf event) := by
  obtain ⟨event_type, hmem, htype⟩ := h.event_type
  obtain ⟨event_id, hid⟩ := h.event_id
  obtain ⟨payload, snapshot, hpayload, hsnapshot⟩ := h.payload
  have hpayloadOf : payloadOf event = payload := by rw [payloadOf, hpayload, Option.getD_some]
  rw [SourceLifecycleState.statusFrom, getItem_ok hpayload]
  change (liftPy (payload.getItem "snapshot_id") >>= _) = _
  rw [getItem_ok hsnapshot, getItem_ok htype, getItem_ok hid, getMethod_ok hsnapshot]
  change (newState event_type >>= _) = _
  rw [newState_ok hmem, statusOf, snapshotOf, stateFrom, eventId, hpayloadOf,
    textOf_of_get? hsnapshot, textOf_of_get? htype, textOf_of_get? hid]
  rfl

/-! ## The outcome of a replay -/

theorem validEvents_ok (h : ∀ event ∈ events, Replayable event) :
    validEvents events = .ok (events.filter isSource) := by
  induction events with
  | nil => rfl
  | cons event events ih =>
      rw [validEvents, ih fun other hother => h other (List.mem_cons_of_mem _ hother)]
      rcases h event List.mem_cons_self with hother | hsource
      · rw [List.filter_cons_of_neg (by rw [isSource, hother]; decide), hother]
        rfl
      · rw [List.filter_cons_of_pos hsource.isSource, hsource.isValid]
        rfl

theorem sourceEvent_of_mem (h : ∀ event ∈ events, Replayable event) (hevent : event ∈ events)
    (hsource : isSource event = true) : SourceEvent event := by
  rcases h event hevent with hother | hsource
  · rw [isSource, hother] at hsource
    cases hsource
  · exact hsource

/-- The source lifecycle events, in the order of the replay. -/
def ordered (events : List Json) : List Json :=
  sortedBy orderKey (events.filter isSource)

theorem replay_ok (h : ∀ event ∈ events, Replayable event) :
    replay events =
      .ok ⟨Dict.ofPairs ((ordered events).map fun event => (snapshotOf event, statusOf event))⟩ := by
  have hsource : ∀ event ∈ events.filter isSource, SourceEvent event := by
    intro event hevent
    obtain ⟨hmem, hsource⟩ := List.mem_filter.mp hevent
    exact sourceEvent_of_mem h hmem hsource
  have hstatus : ∀ event ∈ ordered events, statusFrom event = .ok (statusOf event) :=
    fun event hevent => (hsource event (mem_sortedBy.mp hevent)).statusFrom
  have hkeyed := mapM_of_forall fun event hevent => (hsource event hevent).keyed
  rw [replay, validEvents_ok h]
  change (List.mapM keyed _ >>= _) = _
  rw [hkeyed]
  change (List.mapM statusFrom ((sortedBy Prod.fst _).map Prod.snd) >>= _) = _
  rw [sortedBy_map, List.map_map]
  change (List.mapM statusFrom ((ordered events).map id) >>= _) = _
  rw [List.map_id, mapM_of_forall hstatus]
  change Except.ok _ = _
  rw [List.map_map]
  rfl

/-- The events of a snapshot, in the order of the replay. -/
theorem get?_replay {state : SourceLifecycleState} (h : ∀ event ∈ events, Replayable event)
    (hreplay : replay events = .ok state) (snapshot_id : String) :
    state.statuses.get? snapshot_id =
      (sortedBy orderKey (events.filter fun event => Concerns snapshot_id event)).getLast?.map
        statusOf := by
  rw [replay_ok h] at hreplay
  cases hreplay
  dsimp only
  rw [get?_ofPairs_getLast?, List.filter_map, List.getLast?_map, Option.map_map, ordered]
  change Option.map statusOf ((List.filter (fun event => snapshotOf event = snapshot_id) _).getLast?) = _
  rw [sortedBy_filter, List.filter_filter]
  congr 3
  apply List.filter_congr
  intro event _
  by_cases hsource : isSource event = true <;> simp [Concerns, hsource]

/-- The greatest event of the snapshot, by the time it was recorded at and then by its id. -/
def IsLatest (events : List Json) (snapshot_id : String) (event : Json) : Prop :=
  event ∈ events ∧ Concerns snapshot_id event ∧
    ∀ other ∈ events, Concerns snapshot_id other → orderKey other ≤ orderKey event

/-- No two source lifecycle events have one id. -/
def DistinctIds (events : List Json) : Prop :=
  ∀ event ∈ events, ∀ other ∈ events, isSource event = true → isSource other = true →
    eventId event = eventId other → event = other

theorem exists_isLatest (hevent : event ∈ events) (hconcerns : Concerns snapshot_id event) :
    ∃ latest, IsLatest events snapshot_id latest := by
  have hmem : event ∈ (events.filter fun event => Concerns snapshot_id event).toFinset := by
    simpa using ⟨hevent, hconcerns⟩
  obtain ⟨latest, hlatest, hgreatest⟩ := Finset.exists_max_image _ orderKey ⟨event, hmem⟩
  obtain ⟨hlatest, hconcerns⟩ := List.mem_filter.mp (List.mem_toFinset.mp hlatest)
  refine ⟨latest, hlatest, of_decide_eq_true hconcerns, fun other hother hsame => ?_⟩
  exact hgreatest other (by simpa using ⟨hother, hsame⟩)

/-- The entry of a snapshot is what its latest event sets. -/
theorem get?_replay_latest {state : SourceLifecycleState}
    (h : ∀ event ∈ events, Replayable event) (hids : DistinctIds events)
    (hreplay : replay events = .ok state) (hlatest : IsLatest events snapshot_id event) :
    state.statuses.get? snapshot_id = some (statusOf event) := by
  obtain ⟨hevent, hconcerns, hgreatest⟩ := hlatest
  rw [get?_replay h hreplay, getLast?_sortedBy (x := event)]
  · rfl
  · exact List.mem_filter.mpr ⟨hevent, decide_eq_true hconcerns⟩
  · intro other hother
    obtain ⟨hmem, hsame⟩ := List.mem_filter.mp hother
    exact hgreatest other hmem (of_decide_eq_true hsame)
  · intro a ha b hb hkey
    obtain ⟨ha, hconcernsA⟩ := List.mem_filter.mp ha
    obtain ⟨hb, hconcernsB⟩ := List.mem_filter.mp hb
    have hid : eventId a = eventId b := congrArg Prod.snd (toLex.injective hkey)
    exact hids a ha b hb (of_decide_eq_true hconcernsA).1 (of_decide_eq_true hconcernsB).1 hid

theorem status_replay_latest {state : SourceLifecycleState}
    (h : ∀ event ∈ events, Replayable event) (hids : DistinctIds events)
    (hreplay : replay events = .ok state) (hlatest : IsLatest events snapshot_id event) :
    state.status snapshot_id = stateFrom event := by
  rw [status, get?_replay_latest h hids hreplay hlatest]
  rfl

theorem status_replay_none {state : SourceLifecycleState}
    (h : ∀ event ∈ events, Replayable event) (hreplay : replay events = .ok state)
    (hnone : ∀ event ∈ events, ¬ Concerns snapshot_id event) :
    state.status snapshot_id = "active" := by
  have hempty : (events.filter fun event => Concerns snapshot_id event) = [] := by
    rw [List.filter_eq_nil_iff]
    exact fun event hevent hconcerns => hnone event hevent (of_decide_eq_true hconcerns)
  rw [status, get?_replay h hreplay, hempty, sortedBy_of_pairwise List.Pairwise.nil]
  rfl

/-- The status of a snapshot is the one that its latest event sets, and it is the same for every
two sets of events with the same events of the snapshot. -/
theorem replay_status_eq_latest (events : List Json) (h : ∀ event ∈ events, Replayable event)
    (hids : DistinctIds events) :
    ∃ state, replay events = .ok state ∧ ∀ snapshot_id,
      ((∃ event, IsLatest events snapshot_id event ∧
          state.status snapshot_id = stateFrom event) ∨
        (∀ event ∈ events, ¬ Concerns snapshot_id event) ∧
          state.status snapshot_id = "active") ∧
      ∀ events' : List Json, (∀ event ∈ events', Replayable event) → DistinctIds events' →
        (∀ event, Concerns snapshot_id event → (event ∈ events ↔ event ∈ events')) →
        ∃ state', replay events' = .ok state' ∧
          state'.status snapshot_id = state.status snapshot_id := by
  refine ⟨_, replay_ok h, fun snapshot_id => ?_⟩
  by_cases hsome : ∃ event ∈ events, Concerns snapshot_id event
  · obtain ⟨event, hevent, hconcerns⟩ := hsome
    obtain ⟨latest, hlatest⟩ := exists_isLatest hevent hconcerns
    have hstatus := status_replay_latest h hids (replay_ok h) hlatest
    refine ⟨Or.inl ⟨latest, hlatest, hstatus⟩, fun events' h' hids' hsame => ?_⟩
    refine ⟨_, replay_ok h', ?_⟩
    obtain ⟨hmem, hconcerns, hgreatest⟩ := hlatest
    have hlatest' : IsLatest events' snapshot_id latest :=
      ⟨(hsame latest hconcerns).mp hmem, hconcerns, fun other hother hof =>
        hgreatest other ((hsame other hof).mpr hother) hof⟩
    rw [hstatus, status_replay_latest h' hids' (replay_ok h') hlatest']
  · have hnone : ∀ event ∈ events, ¬ Concerns snapshot_id event :=
      fun event hevent hconcerns => hsome ⟨event, hevent, hconcerns⟩
    have hstatus := status_replay_none h (replay_ok h) hnone
    refine ⟨Or.inr ⟨hnone, hstatus⟩, fun events' h' hids' hsame => ?_⟩
    refine ⟨_, replay_ok h', ?_⟩
    have hnone' : ∀ event ∈ events', ¬ Concerns snapshot_id event :=
      fun event hevent hconcerns => hnone event ((hsame event hconcerns).mpr hevent) hconcerns
    rw [hstatus, status_replay_none h' (replay_ok h') hnone']

/-- A source lifecycle event as `build_source_state_event` makes it. -/
def sourceStateEvent (event_id event_type snapshot_id recorded_at : String) : Json :=
  .ofMembers [
    ("event_id", .str event_id),
    ("event_type", .str event_type),
    ("recorded_at", .str recorded_at),
    ("payload", .ofMembers [("snapshot_id", .str snapshot_id), ("reason", .str "")])]

theorem sourceEvent_sourceStateEvent {event_id event_type snapshot_id recorded_at : String}
    (h : event_type ∈ VALID) :
    SourceEvent (sourceStateEvent event_id event_type snapshot_id recorded_at) where
  event_type := ⟨event_type, h, by rw [sourceStateEvent, Json.get?_ofMembers]; rfl⟩
  recorded_at := ⟨.str recorded_at, by rw [sourceStateEvent, Json.get?_ofMembers]; rfl⟩
  event_id := ⟨.str event_id, by rw [sourceStateEvent, Json.get?_ofMembers]; rfl⟩
  payload := ⟨_, .str snapshot_id, by rw [sourceStateEvent, Json.get?_ofMembers]; rfl,
    by rw [Json.get?_ofMembers]; rfl⟩

/-- A retraction and a restoration recorded at one time. -/
def sampleEvents : List Json :=
  [sourceStateEvent "evt_2" "source.restored" "snap_a" "2026-01-01T00:00:00Z",
    sourceStateEvent "evt_1" "source.retracted" "snap_a" "2026-01-01T00:00:00Z"]

theorem replay_status_eq_latest_sample : ∃ state, replay sampleEvents = .ok state ∧
    ∀ snapshot_id,
      ((∃ event, IsLatest sampleEvents snapshot_id event ∧
          state.status snapshot_id = stateFrom event) ∨
        (∀ event ∈ sampleEvents, ¬ Concerns snapshot_id event) ∧
          state.status snapshot_id = "active") ∧
      ∀ events' : List Json, (∀ event ∈ events', Replayable event) → DistinctIds events' →
        (∀ event, Concerns snapshot_id event → (event ∈ sampleEvents ↔ event ∈ events')) →
        ∃ state', replay events' = .ok state' ∧
          state'.status snapshot_id = state.status snapshot_id := by
  apply replay_status_eq_latest
  · simp only [sampleEvents, List.forall_mem_cons, List.not_mem_nil, false_implies, implies_true,
      and_true]
    exact ⟨Or.inr (sourceEvent_sourceStateEvent (by decide)),
      Or.inr (sourceEvent_sourceStateEvent (by decide))⟩
  · have hids : ∀ event_id event_type snapshot_id recorded_at,
        eventId (sourceStateEvent event_id event_type snapshot_id recorded_at) = event_id := by
      intro event_id event_type snapshot_id recorded_at
      rw [eventId, textOf, sourceStateEvent, Json.get?_ofMembers]
      rfl
    simp only [DistinctIds, sampleEvents, List.forall_mem_cons, List.not_mem_nil, false_implies,
      implies_true, and_true, hids]
    simp

end SourceLifecycleState

end FossilCore
