import FossilCore.Base.Runs
import FossilCore.Store.EventGate

/-!
# The event ledger

What an event store is for: events and redaction tombstones under their ids, and what each
call of a store does to them.  Both adapters are compared with this ledger.
-/

namespace FossilCore

open Base

structure RedactionRequest where
  reason : String
  authority : String
  redacted_at : String
  request_ref : Option String

namespace RedactionRequest

def request_refJson (r : RedactionRequest) : Json :=
  match r.request_ref with
  | some ref => .str ref
  | none => .null

def incomplete (r : RedactionRequest) : Bool :=
  r.reason = "" ∨ r.authority = "" ∨ r.redacted_at = ""

/-- The members of the tombstone that the request determines. -/
def requested (r : RedactionRequest) : List (String × Json) :=
  [("reason", .str r.reason), ("authority", .str r.authority),
    ("redacted_at", .str r.redacted_at), ("request_ref", r.request_refJson)]

/-- `not any(existing.get(key) != value for key, value in requested.items())` -/
def agrees (r : RedactionRequest) (existing : Json) : Except Error Bool :=
  if existing.isObj then
    .ok (r.requested.all fun member => (existing.get? member.1).getD .null = member.2)
  else .error (.ofPython .attributeError)

theorem wf_request_refJson (r : RedactionRequest) : r.request_refJson.WF := by
  rw [request_refJson]
  cases r.request_ref
  · exact Json.wf_null
  · exact Json.wf_str _

end RedactionRequest

def tombstoneFor (sha256 : Sha256) (event_id : String) (event : Json) (r : RedactionRequest) :
    Except Error Json := do
  let pack_id ← liftPy (event.getItem "pack_id")
  let event_type ← liftPy (event.getItem "event_type")
  let recorded_at ← liftPy (event.getItem "recorded_at")
  return .ofMembers [
    ("event_id", .str event_id),
    ("pack_id", pack_id),
    ("event_type", event_type),
    ("recorded_at", recorded_at),
    ("canonical_hash", .ofMembers [
      ("algorithm", .str "sha256"),
      ("digest", .str (sha256.hexdigest event.canonical))]),
    ("redacted_at", .str r.redacted_at),
    ("reason", .str r.reason),
    ("authority", .str r.authority),
    ("request_ref", r.request_refJson)]

namespace Error

def fileNotFound (name : String) : Error := ofPython (.fileNotFoundError name)

def redactedCommit (event_id : String) : Error :=
  eventRedactedError
    s!"event {event_id} was redacted and cannot be republished under the same identity"

def redactedGet (event_id : String) : Error :=
  eventRedactedError s!"event {event_id} has been redacted"

def differentContent (event_id : String) : Error :=
  idempotencyConflict s!"event {event_id} already exists with different content"

def incompleteRedaction : Error :=
  valueError "event redaction requires reason, authority, and redacted_at"

def differentTombstone (event_id : String) : Error :=
  eventRedactionConflict s!"event {event_id} already has a different redaction tombstone"

def unpublishedTombstone (event_id : String) : Error :=
  eventRedactionConflict s!"could not publish event redaction tombstone for {event_id}"

end Error

structure Ledger where
  events : KeyMap String Json
  tombstones : KeyMap String Json

/-- A call of an event store.  `uuid` and `temp` are the UUIDs a commit or a redaction draws for
a new id and for a temporary file. -/
inductive EventCall where
  | commit (event : Document) (uuid temp : String)
  | get (id : EventId)
  | redact (id : EventId) (request : RedactionRequest) (temp : String)
  | get_redaction (id : EventId)
  | iter_events
  | iter_redactions

inductive Returned where
  | event (e : Json)
  | redaction (t : Option Json)
  | listing (es : List Json)
  deriving DecidableEq

/-- The position of an id in a listing. -/
def listingKey (kind text : String) : List String := [shardOf kind text, fileName text]

namespace Ledger

def empty : Ledger := ⟨∅, ∅⟩

def commit (config : StoreConfig) (l : Ledger) (event : Document) (uuid : String) :
    Except Error Json × Ledger :=
  match config.validate event.value uuid with
  | .error e => (.error e, l)
  | .ok candidate =>
      match eventIdText candidate with
      | .error e => (.error e, l)
      | .ok id =>
          if l.tombstones[id]?.isSome then (.error (.redactedCommit id), l)
          else
            match l.events[id]? with
            | none => (.ok candidate, { l with events := l.events.insert id candidate })
            | some existing =>
                if existing = candidate then (.ok existing, l)
                else (.error (.differentContent id), l)

def get (l : Ledger) (id : EventId) : Except Error Json :=
  if l.tombstones[id.text]?.isSome then .error (.redactedGet id.text)
  else
    match l.events[id.text]? with
    | none => .error (.fileNotFound id.text)
    | some event => .ok event

def redact (config : StoreConfig) (l : Ledger) (id : EventId) (r : RedactionRequest) :
    Except Error Json × Ledger :=
  if r.incomplete then (.error .incompleteRedaction, l)
  else
    match l.tombstones[id.text]? with
    | some existing =>
        match r.agrees existing with
        | .error e => (.error e, l)
        | .ok true => (.ok existing, l)
        | .ok false => (.error (.differentTombstone id.text), l)
    | none =>
        match l.events[id.text]? with
        | none => (.error (.fileNotFound id.text), l)
        | some event =>
            match tombstoneFor config.sha256 id.text event r with
            | .error e => (.error e, l)
            | .ok tombstone =>
                (.ok tombstone, ⟨l.events.erase id.text, l.tombstones.insert id.text tombstone⟩)

/-- The contents in the order of their files. -/
def listing (m : KeyMap String Json) : List Json :=
  (sortedBy (listingKey "evt_") m.keys).filterMap fun id => m[id]?

def step (config : StoreConfig) (l : Ledger) : EventCall → Except Error Returned × Ledger
  | .commit event uuid _ =>
      let (result, l) := l.commit config event uuid
      (result.map .event, l)
  | .get id => ((l.get id).map .event, l)
  | .redact id r _ =>
      let (result, l) := l.redact config id r
      (result.map .event, l)
  | .get_redaction id => (.ok (.redaction l.tombstones[id.text]?), l)
  | .iter_events => (.ok (.listing (listing l.events)), l)
  | .iter_redactions => (.ok (.listing (listing l.tombstones)), l)

/-- A stored tombstone: canonical content that names its event and has no payload. -/
structure IsTombstone (id : EventId) (tombstone : Json) : Prop where
  wf : tombstone.WF
  isObj : tombstone.isObj = true
  event_id : tombstone.get? "event_id" = some (.str id.text)
  payload : tombstone.get? "payload" = none

/-- What holds of every ledger that calls build. -/
structure Valid (config : StoreConfig) (l : Ledger) : Prop where
  events : ∀ text e, l.events[text]? = some e → ∃ id : EventId, id.text = text ∧
    StoredEvent config id e
  tombstones : ∀ text t, l.tombstones[text]? = some t → ∃ id : EventId, id.text = text ∧
    IsTombstone id t
  erased : ∀ text : String, l.tombstones[text]?.isSome → l.events[text]? = none

variable {config : StoreConfig} {l : Ledger}

theorem valid_empty : Valid config empty := by
  constructor <;> simp [empty]

theorem tombstoneFor_ok {id : EventId} {event : Json} {r : RedactionRequest}
    (h : StoredEvent config id event) :
    ∃ tombstone, tombstoneFor config.sha256 id.text event r = .ok tombstone ∧
      IsTombstone id tombstone := by
  have hpack := get?_pack_id h.accepted.envelope
  have htype := get?_event_type h.accepted.envelope
  have hrecorded := get?_recorded_at h.accepted.envelope
  refine ⟨_, by simp only [tombstoneFor, Json.getItem_of_get? hpack, Json.getItem_of_get? htype,
    Json.getItem_of_get? hrecorded, liftPy_ok, bind, Except.bind]; rfl, ?_, rfl, ?_, ?_⟩
  · apply Json.wf_ofMembers
    intro m hm
    have hnested : (Json.ofMembers [("algorithm", .str "sha256"),
        ("digest", .str (config.sha256.hexdigest event.canonical))]).WF := by
      apply Json.wf_ofMembers
      intro m hm
      simp only [List.mem_cons, List.not_mem_nil, or_false] at hm
      rcases hm with rfl | rfl <;> exact Json.wf_str _
    simp only [List.mem_cons, List.not_mem_nil, or_false] at hm
    rcases hm with rfl | rfl | rfl | rfl | rfl | rfl | rfl | rfl | rfl
    case inr.inr.inr.inr.inl => exact hnested
    case inr.inr.inr.inr.inr.inr.inr.inr => exact r.wf_request_refJson
    all_goals exact Json.wf_str _
  · rw [Json.get?_ofMembers]
    simp [Json.lookup]
  · rw [Json.get?_ofMembers]
    simp [Json.lookup]

/-- A tombstone agrees with the request it was made for. -/
theorem agrees_tombstoneFor {event_id : String} {event tombstone : Json} {r : RedactionRequest}
    (h : tombstoneFor config.sha256 event_id event r = .ok tombstone) :
    r.agrees tombstone = .ok true := by
  unfold tombstoneFor at h
  obtain ⟨pack_id, -, h⟩ := bind_eq_ok.mp h
  obtain ⟨event_type, -, h⟩ := bind_eq_ok.mp h
  obtain ⟨recorded_at, -, h⟩ := bind_eq_ok.mp h
  cases h
  rw [RedactionRequest.agrees, if_pos (show (Json.ofMembers _).isObj = true from rfl)]
  simp only [RedactionRequest.requested, List.all_cons, List.all_nil, Json.get?_ofMembers]
  simp [Json.lookup]

variable (config) in
theorem validate_cases (event : Document) (uuid : String) :
    (∃ e, config.validate event.value uuid = .error e) ∨
      ∃ candidate, ∃ id : EventId, config.validate event.value uuid = .ok candidate ∧
        StoredEvent config id candidate ∧ eventIdText candidate = .ok id.text := by
  cases h : config.validate event.value uuid with
  | error e => exact Or.inl ⟨e, rfl⟩
  | ok candidate =>
      obtain ⟨id, hid⟩ := storedEvent_of_validate h
      exact Or.inr ⟨candidate, id, rfl, hid, eventIdText_of_get? hid.event_id⟩

variable (config) in
/-- Everything a call can do to the ledger. -/
theorem step_cases (l : Ledger) (call : EventCall) :
    (l.step config call).2 = l ∨
      (∃ event uuid temp candidate, ∃ id : EventId, call = .commit event uuid temp ∧
        StoredEvent config id candidate ∧ l.tombstones[id.text]? = none ∧
        l.events[id.text]? = none ∧ (l.step config call).1 = .ok (.event candidate) ∧
        (l.step config call).2 = { l with events := l.events.insert id.text candidate }) ∨
      (∃ id r temp event tombstone, call = .redact id r temp ∧ l.tombstones[id.text]? = none ∧
        l.events[id.text]? = some event ∧
        tombstoneFor config.sha256 id.text event r = .ok tombstone ∧
        (l.step config call).1 = .ok (.event tombstone) ∧
        (l.step config call).2 =
          ⟨l.events.erase id.text, l.tombstones.insert id.text tombstone⟩) := by
  cases call with
  | commit event uuid temp =>
      rcases validate_cases config event uuid with
        ⟨e, he⟩ | ⟨candidate, id, hvalidate, hstored, hid⟩
      · exact Or.inl (by simp only [step, commit, he])
      · cases ht : l.tombstones[id.text]? with
        | some tombstone =>
            exact Or.inl (by simp only [step, commit, hvalidate, hid, ht, Option.isSome_some, if_true])
        | none =>
            cases he : l.events[id.text]? with
            | none =>
                refine Or.inr (Or.inl ⟨event, uuid, temp, candidate, id, rfl, hstored, ht, he, ?_, ?_⟩)
                · simp [step, commit, hvalidate, hid, ht, he, Except.map]
                · simp [step, commit, hvalidate, hid, ht, he]
            | some existing =>
                refine Or.inl ?_
                by_cases heq : existing = candidate
                · simp [step, commit, hvalidate, hid, ht, he, heq]
                · simp [step, commit, hvalidate, hid, ht, he, heq]
  | redact id r temp =>
      by_cases hr : r.incomplete
      · exact Or.inl (by simp only [step, redact, hr, if_true])
      · cases ht : l.tombstones[id.text]? with
        | some existing =>
            refine Or.inl ?_
            cases hagrees : r.agrees existing with
            | error e => simp only [step, redact, hr, ht, hagrees]; rfl
            | ok agrees =>
                cases agrees <;> simp only [step, redact, hr, ht, hagrees] <;> rfl
        | none =>
            cases he : l.events[id.text]? with
            | none => exact Or.inl (by simp only [step, redact, hr, ht, he]; rfl)
            | some event =>
                cases htomb : tombstoneFor config.sha256 id.text event r with
                | error e =>
                    exact Or.inl (by simp only [step, redact, hr, ht, he, htomb]; rfl)
                | ok tombstone =>
                    refine Or.inr (Or.inr ⟨id, r, temp, event, tombstone, rfl, ht, he, htomb, ?_, ?_⟩)
                    · simp only [step, redact, hr, ht, he, htomb]
                      rfl
                    · simp only [step, redact, hr, ht, he, htomb]
                      rfl
  | _ => exact Or.inl rfl

/-- A first commit of an event under a free id. -/
theorem step_commit {event : Document} {uuid temp text : String} {candidate : Json}
    (hvalidate : config.validate event.value uuid = .ok candidate)
    (hid : candidate.get? "event_id" = some (.str text)) (htomb : l.tombstones[text]? = none)
    (hfree : l.events[text]? = none) :
    l.step config (.commit event uuid temp) =
      (.ok (.event candidate), { l with events := l.events.insert text candidate }) := by
  simp [step, commit, hvalidate, eventIdText_of_get? hid, htomb, hfree, Except.map]

theorem Valid.step (h : Valid config l) (call : EventCall) :
    Valid config (l.step config call).2 := by
  rcases step_cases config l call with heq |
    ⟨event, uuid, temp, candidate, id, -, hstored, htomb, hevents, -, heq⟩ |
    ⟨id, r, temp, event, tombstone, -, htomb, hevents, hfor, -, heq⟩
  · rw [heq]
    exact h
  · rw [heq]
    refine ⟨?_, h.tombstones, ?_⟩
    · intro text e he
      rw [KeyMap.get?_insert] at he
      split_ifs at he with htext
      · cases he
        exact ⟨id, htext, hstored⟩
      · exact h.events text e he
    · intro text ht
      have hne : id.text ≠ text := by
        rintro rfl
        rw [htomb] at ht
        cases ht
      rw [KeyMap.get?_insert_ne _ _ hne]
      exact h.erased text ht
  · rw [heq]
    obtain ⟨id', hid', hstored⟩ := h.events _ _ hevents
    obtain rfl := StableId.ext_text hid'
    obtain ⟨tombstone', hfor', hburied⟩ := tombstoneFor_ok (r := r) hstored
    rw [hfor] at hfor'
    cases hfor'
    refine ⟨?_, ?_, ?_⟩
    · intro text e he
      rw [KeyMap.get?_erase] at he
      split_ifs at he
      exact h.events text e he
    · intro text t ht
      rw [KeyMap.get?_insert] at ht
      split_ifs at ht with htext
      · cases ht
        exact ⟨id', htext, hburied⟩
      · exact h.tombstones text t ht
    · intro text ht
      rw [KeyMap.get?_insert] at ht
      rw [KeyMap.get?_erase]
      split_ifs at ht ⊢ with htext
      · rfl
      · exact h.erased text ht

theorem valid_after (calls : List EventCall) :
    Valid config (Runs.after (step config) empty calls) :=
  Runs.invariant valid_empty fun _ call _ h => h.step call

theorem tombstone_step {text : String} {t : Json} (h : l.tombstones[text]? = some t)
    (call : EventCall) : (l.step config call).2.tombstones[text]? = some t := by
  rcases step_cases config l call with heq |
    ⟨event, uuid, temp, candidate, id, -, -, -, -, -, heq⟩ |
    ⟨id, r, temp, event, tombstone, -, htomb, -, -, -, heq⟩
  · rw [heq]
    exact h
  · rw [heq]
    exact h
  · rw [heq]
    have hne : id.text ≠ text := by
      rintro rfl
      rw [htomb] at h
      cases h
    simpa only [KeyMap.get?_insert_ne _ _ hne] using h

variable (config) in
/-- A stored event stays, unless the call redacts it. -/
theorem event_step {id : EventId} {e : Json} (h : l.events[id.text]? = some e)
    (hlive : l.tombstones[id.text]? = none) (call : EventCall) :
    ((l.step config call).2.events[id.text]? = some e ∧
        (l.step config call).2.tombstones[id.text]? = none) ∨
      ∃ r temp t, call = .redact id r temp ∧ (l.step config call).1 = .ok (.event t) := by
  rcases step_cases config l call with heq |
    ⟨event, uuid, temp, candidate, id', -, -, -, hfree, -, heq⟩ |
    ⟨id', r, temp, event, tombstone, hcall, -, -, -, hout, heq⟩
  · rw [heq]
    exact Or.inl ⟨h, hlive⟩
  · rw [heq]
    have hne : id'.text ≠ id.text := by
      intro htext
      rw [htext, h] at hfree
      cases hfree
    exact Or.inl ⟨by simpa only [KeyMap.get?_insert_ne _ _ hne] using h, hlive⟩
  · by_cases hid : id' = id
    · subst hid
      exact Or.inr ⟨r, temp, tombstone, hcall, hout⟩
    · have hne : id'.text ≠ id.text := fun htext => hid (StableId.ext_text htext)
      rw [heq]
      exact Or.inl ⟨by simpa only [KeyMap.get?_erase_ne _ hne] using h,
        by simpa only [KeyMap.get?_insert_ne _ _ hne] using hlive⟩

end Ledger

end FossilCore
