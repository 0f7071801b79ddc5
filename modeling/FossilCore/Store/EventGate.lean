import FossilCore.Base.Canonical
import FossilCore.Domain.AcceptedEvent
import FossilCore.Domain.Identity

/-!
# The event gate

What `commit` does to a caller's event before it reaches a backend, the same in both event
stores: it assigns the durable identity, validates the envelope and applies the acceptance
registry.
-/

namespace FossilCore

open Base

/-- A JSON value as a decoder or a dictionary display builds it. -/
structure Document where
  value : Json
  wf : value.WF

/-- What an event store is built with. -/
structure StoreConfig where
  sha256 : Sha256
  formats : FormatChecker
  resolvers : Resolvers

/-- A store that is given no resolver, with every UTC time text taken for a time. -/
def StoreConfig.plain : StoreConfig :=
  ⟨.hashlib, ⟨fun text => Text.endsWith text "Z", fun _ => true⟩, ⟨none, none⟩⟩

/-- An event with the required members, as a caller builds it. -/
def minimalEvent (event_id event_type recorded_at pack_id : String) (subject_refs : List String)
    (payload : List (String × Json)) (more : List (String × Json)) : Json :=
  .ofMembers ([
    ("schema_version", .str "dkg.event.v1"),
    ("event_id", .str event_id),
    ("event_type", .str event_type),
    ("occurred_at", .str recorded_at),
    ("recorded_at", .str recorded_at),
    ("pack_id", .str pack_id),
    ("actor", .ofMembers [("actor_type", .str "human"), ("actor_id", .str "operator")]),
    ("subject_refs", .arr (subject_refs.map .str)),
    ("payload", .ofMembers payload)] ++ more)

/-- A first event of a store. -/
def proposal : Document where
  value := minimalEvent "evt_0123456789abcdef" "claim.proposed" "2026-01-01T00:00:00Z"
    "pack_0123456789abcdef" ["claim_01"] [("claim_text", .str "text")] []
  wf := by decide +kernel

namespace Error

def idempotencyConflict (message : String) : Error := ⟨.idempotencyConflict, message⟩

def eventRedactedError (message : String) : Error := ⟨.eventRedactedError, message⟩

def eventRedactionConflict (message : String) : Error := ⟨.eventRedactionConflict, message⟩

end Error

namespace StoreConfig

variable (config : StoreConfig)

/-- The first half of `prepare`; `uuid` is the one `new_id` draws. -/
def assignId (event : Json) (uuid : String) : Except Error Json := do
  let pack_id ← liftPy (event.getMethod "pack_id")
  let idem ← liftPy (event.getMethod "idempotency_key")
  let supplied := event.get? "event_id"
  if Json.truthy? pack_id ∧ Json.truthy? idem then
    let expected :=
      deterministic_event_id config.sha256 (pack_id.getD .null) (idem.getD .null)
    if Json.truthy? supplied ∧ supplied ≠ some (.str expected) then
      .error (.idempotencyConflict "event_id does not match deterministic idempotency identity")
    else return event.set "event_id" (.str expected)
  else if !Json.truthy? supplied then return event.set "event_id" (.str (new_id "evt" uuid))
  else return event

def prepare (event : Json) (uuid : String) : Except Error Json := do
  let candidate ← config.assignId event uuid
  validateSchema (eventSchema config.formats) candidate
  return candidate

def validate (event : Json) (uuid : String) : Except Error Json := do
  let candidate ← config.prepare event uuid
  let _ ← validate_event_for_commit config.formats config.resolvers candidate
  return candidate

end StoreConfig

/-- `candidate["event_id"]`, used as a text. -/
def eventIdText (candidate : Json) : Except Error String :=
  match candidate.getItem "event_id" with
  | .ok (.str s) => .ok s
  | .ok _ => .error (.ofPython .attributeError)
  | .error exc => .error (.ofPython exc)

/-- The event is stored under the id: it passed the gate and carries the id. -/
structure StoredEvent (config : StoreConfig) (id : EventId) (event : Json) : Prop where
  wf : event.WF
  accepted : Accepted config.formats config.resolvers event
  event_id : event.get? "event_id" = some (.str id.text)

variable {config : StoreConfig}

/-- The two texts that name a retryable operation are both given. -/
def Idempotent (event : Json) : Prop :=
  Json.truthy? (event.get? "pack_id") = true ∧ Json.truthy? (event.get? "idempotency_key") = true

instance (event : Json) : Decidable (Idempotent event) := inferInstanceAs (Decidable (_ ∧ _))

/-- The id of the operation that an idempotent event names. -/
def StoreConfig.operationId (config : StoreConfig) (event : Json) : String :=
  deterministic_event_id config.sha256 ((event.get? "pack_id").getD .null)
    ((event.get? "idempotency_key").getD .null)

/-- The three ways an event gets its id. -/
theorem assignId_ok {event candidate : Json} {uuid : String}
    (h : config.assignId event uuid = .ok candidate) :
    (Idempotent event ∧ candidate = event.set "event_id" (.str (config.operationId event))) ∨
      (¬ Idempotent event ∧ Json.truthy? (event.get? "event_id") = false ∧
        candidate = event.set "event_id" (.str (new_id "evt" uuid))) ∨
      (¬ Idempotent event ∧ Json.truthy? (event.get? "event_id") = true ∧ candidate = event) := by
  unfold StoreConfig.assignId at h
  obtain ⟨pack_id, hpack, h⟩ := bind_eq_ok.mp h
  obtain ⟨idem, hidem, h⟩ := bind_eq_ok.mp h
  obtain ⟨fields, rfl⟩ : ∃ fields, event = .obj fields := by
    cases event with
    | obj fields => exact ⟨fields, rfl⟩
    | _ => cases hpack
  cases hpack
  cases hidem
  dsimp only at h
  split at h
  · next hboth =>
    split at h
    · cases h
    · cases h
      exact Or.inl ⟨hboth, rfl⟩
  · next hboth =>
    split at h
    · next hfalsy =>
      cases h
      exact Or.inr (Or.inl ⟨hboth, by simpa using hfalsy, rfl⟩)
    · next htruthy =>
      cases h
      exact Or.inr (Or.inr ⟨hboth, by simpa using htruthy, rfl⟩)

theorem wf_assignId {event candidate : Json} {uuid : String} (h : event.WF)
    (hc : config.assignId event uuid = .ok candidate) : candidate.WF := by
  rcases assignId_ok hc with ⟨-, rfl⟩ | ⟨-, -, rfl⟩ | ⟨-, -, rfl⟩
  · exact h.set (Json.wf_str _)
  · exact h.set (Json.wf_str _)
  · exact h

theorem prepare_ok {event candidate : Json} {uuid : String}
    (h : config.prepare event uuid = .ok candidate) :
    config.assignId event uuid = .ok candidate ∧ eventSchema config.formats candidate = true := by
  unfold StoreConfig.prepare at h
  obtain ⟨assigned, hassigned, h⟩ := bind_eq_ok.mp h
  obtain ⟨⟨⟩, hschema, h⟩ := bind_eq_ok.mp h
  cases h
  exact ⟨hassigned, validateSchema_ok.mp hschema⟩

theorem validate_ok {event candidate : Json} {uuid : String}
    (h : config.validate event uuid = .ok candidate) :
    config.prepare event uuid = .ok candidate ∧
      Accepted config.formats config.resolvers candidate := by
  unfold StoreConfig.validate at h
  obtain ⟨prepared, hprepared, h⟩ := bind_eq_ok.mp h
  obtain ⟨contract, hcontract, h⟩ := bind_eq_ok.mp h
  cases h
  exact ⟨hprepared, (prepare_ok hprepared).2, contract, hcontract⟩

theorem eventIdText_of_get? {candidate : Json} {s : String}
    (h : candidate.get? "event_id" = some (.str s)) : eventIdText candidate = .ok s := by
  rw [eventIdText, Json.getItem_of_get? h]

/-- What the gate lets through can be stored under an id it carries. -/
theorem storedEvent_of_validate {event : Document} {candidate : Json} {uuid : String}
    (h : config.validate event.value uuid = .ok candidate) :
    ∃ id : EventId, StoredEvent config id candidate := by
  obtain ⟨hprepared, haccepted⟩ := validate_ok h
  obtain ⟨hassigned, henvelope⟩ := prepare_ok hprepared
  obtain ⟨hget, hpattern⟩ := get?_event_id henvelope
  exact ⟨⟨strAt candidate "event_id", hpattern⟩, wf_assignId event.wf hassigned, haccepted, hget⟩

theorem StoredEvent.id_of_get? {id id' : EventId} {event : Json} (h : StoredEvent config id event)
    (hid : event.get? "event_id" = some (.str id'.text)) : id' = id := by
  have heq := hid.symm.trans h.event_id
  exact StableId.ext_text (Json.str.inj (Option.some.inj heq))

theorem StoredEvent.id_eq {id id' : EventId} {event : Json} (h : StoredEvent config id event)
    (h' : StoredEvent config id' event) : id = id' :=
  h'.id_of_get? h.event_id

end FossilCore
