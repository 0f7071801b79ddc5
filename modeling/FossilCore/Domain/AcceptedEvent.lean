import FossilCore.Domain.EventContracts

/-!
# Accepted events

What the envelope schema and the commit gate establish about an event: its texts, its payload
under the schema of its type, and the checks made on relation endpoints.
-/

namespace FossilCore

open Base

/-- The text under a key; empty when there is none. -/
def strAt (v : Json) (key : String) : String := ((v.get? key).bind Json.asStr?).getD ""

def payloadOf (event : Json) : Json := (event.get? "payload").getD .null

/-- `event["subject_refs"][0]` of an event whose subjects are texts. -/
def subjectOf (event : Json) : String :=
  match event.get? "subject_refs" with
  | some (.arr (.str s :: _)) => s
  | _ => ""

theorem strAt_of_get? {v : Json} {key s : String} (h : v.get? key = some (.str s)) :
    strAt v key = s := by
  simp [strAt, h, Json.asStr?]

/-- The event passes the gate of a store: the envelope schema and the registry. -/
structure Accepted (formats : FormatChecker) (resolvers : Resolvers) (event : Json) : Prop where
  envelope : eventSchema formats event = true
  contract : ∃ contract, validate_event_for_commit formats resolvers event = .ok contract

variable {formats : FormatChecker} {resolvers : Resolvers} {event : Json}

/-! ## The envelope -/

theorem isObj_of_envelope (h : eventSchema formats event = true) : ∃ fields, event = .obj fields :=
  Schema.isObj_of_type (Schema.allOf_iff.mp h _ (by simp))

theorem get?_of_envelope {key : String} (h : eventSchema formats event = true) (schema : Schema)
    (hkey : key ∈ eventRequired) (hschema : (key, schema) ∈ eventProperties formats) :
    ∃ w, event.get? key = some w ∧ schema w = true := by
  have hrequired : Schema.required eventRequired event = true :=
    Schema.allOf_iff.mp h _ (by simp)
  have hproperties : Schema.properties (eventProperties formats) event = true :=
    Schema.allOf_iff.mp h _ (by simp)
  obtain ⟨fields, rfl⟩ := isObj_of_envelope h
  obtain ⟨w, hw⟩ := Schema.get?_of_required hrequired hkey
  exact ⟨w, hw, Schema.of_properties hproperties hschema hw⟩

/-- A required member whose schema begins with the type of texts is a text. -/
theorem str_of_envelope (h : eventSchema formats event = true) (key : String)
    (more : List Schema) (hkey : key ∈ eventRequired)
    (hschema : (key, Schema.allOf (Schema.type [.string] :: more)) ∈ eventProperties formats) :
    event.get? key = some (.str (strAt event key)) ∧
      ∀ schema ∈ more, schema (.str (strAt event key)) = true := by
  obtain ⟨w, hw, hall⟩ := get?_of_envelope h _ hkey hschema
  have hparts := Schema.allOf_iff.mp hall
  obtain ⟨s, rfl⟩ := Schema.isStr_of_type (hparts _ (by simp))
  rw [strAt_of_get? hw]
  exact ⟨hw, fun schema hmem => hparts schema (List.mem_cons_of_mem _ hmem)⟩

theorem get?_event_id (h : eventSchema formats event = true) :
    event.get? "event_id" = some (.str (strAt event "event_id")) ∧
      Schema.isPrefixedId "evt_" 16 (strAt event "event_id") = true := by
  have hid := str_of_envelope h "event_id" [Schema.pattern (Schema.isPrefixedId "evt_" 16)]
    (by decide) (by simp [eventProperties, eventIdSchema])
  exact ⟨hid.1, hid.2 (Schema.pattern (Schema.isPrefixedId "evt_" 16)) (by simp)⟩

theorem get?_event_type (h : eventSchema formats event = true) :
    event.get? "event_type" = some (.str (strAt event "event_type")) :=
  (str_of_envelope h "event_type" [Schema.pattern isEventType] (by decide)
    (by simp [eventProperties])).1

theorem get?_recorded_at (h : eventSchema formats event = true) :
    event.get? "recorded_at" = some (.str (strAt event "recorded_at")) :=
  (str_of_envelope h "recorded_at" [Schema.format formats.isDateTime] (by decide)
    (by simp [eventProperties])).1

theorem get?_pack_id (h : eventSchema formats event = true) :
    event.get? "pack_id" = some (.str (strAt event "pack_id")) :=
  (str_of_envelope h "pack_id" [Schema.pattern (Schema.isPrefixedId "pack_" 16)] (by decide)
    (by simp [eventProperties, _PACK_ID])).1

theorem get?_payload (h : eventSchema formats event = true) :
    ∃ fields, event.get? "payload" = some (.obj fields) ∧ payloadOf event = .obj fields := by
  obtain ⟨w, hw, htype⟩ := get?_of_envelope h (Schema.type [.object])
    (by decide : "payload" ∈ eventRequired) (by simp [eventProperties])
  obtain ⟨fields, rfl⟩ := Schema.isObj_of_type htype
  exact ⟨fields, hw, by rw [payloadOf, hw]; rfl⟩

theorem get?_subject_refs (h : eventSchema formats event = true) :
    ∃ more, event.get? "subject_refs" = some (.arr (.str (subjectOf event) :: more)) := by
  obtain ⟨w, hw, hrefs⟩ := get?_of_envelope h (refsSchema 1)
    (by decide : "subject_refs" ∈ eventRequired) (by simp [eventProperties])
  have hparts := Schema.allOf_iff.mp hrefs
  obtain ⟨xs, rfl⟩ := Schema.isArr_of_type (hparts _ (by simp))
  have hmin : 1 ≤ xs.length := by
    simpa [Schema.minItems] using hparts (Schema.minItems 1) (by simp)
  have hitems : ∀ x ∈ xs, _string 4 x = true := by
    have hall := hparts (Schema.items (_string 4)) (by simp)
    exact List.all_eq_true.mp hall
  cases xs with
  | nil => simp at hmin
  | cons x more =>
      obtain ⟨s, rfl⟩ := Schema.isStr_of_type
        (Schema.allOf_iff.mp (hitems x List.mem_cons_self) _ (by simp))
      have hsubject : subjectOf event = s := by simp [subjectOf, hw]
      exact ⟨more, by rw [hsubject, hw]⟩

/-! ## The payload -/

theorem asContractError_ok {cls : ErrorClass} {x : Except Error Unit} :
    asContractError cls x = .ok () ↔ x = .ok () := by
  cases x <;> simp [asContractError]

theorem validate_event_ok {contract : EventTypeContract}
    (h : validate_event_for_commit formats resolvers event = .ok contract) :
    event_contract formats (textOf event "event_type") = .ok contract ∧
      contract.payload_schema (payloadOf event) = true ∧
      (contract.ontology_constraints = true → (payloadOf event).isObj = true →
        _validate_relation_semantics contract.event_type (payloadOf event)
          resolvers.endpoint_type_resolver = .ok ()) ∧
      (contract.event_type = "knowledge.promoted" →
        ∃ resolved, validate_promotion_source event resolvers.promotion_source_resolver =
          .ok resolved) := by
  unfold validate_event_for_commit at h
  obtain ⟨found, hfound, h⟩ := bind_eq_ok.mp h
  obtain ⟨⟨⟩, hschema, h⟩ := bind_eq_ok.mp h
  obtain ⟨⟨⟩, hrelation, h⟩ := bind_eq_ok.mp h
  obtain ⟨⟨⟩, hpromotion, h⟩ := bind_eq_ok.mp h
  obtain ⟨-, -, h⟩ := bind_eq_ok.mp h
  obtain ⟨-, -, h⟩ := bind_eq_ok.mp h
  obtain ⟨-, -, h⟩ := bind_eq_ok.mp h
  cases h
  refine ⟨hfound, ?_, ?_, ?_⟩
  · exact validateSchema_ok.mp hschema
  · intro hconstrained hobj
    exact checkIf_ok.mp hrelation ⟨hconstrained, hobj⟩
  · intro hkind
    obtain ⟨resolved, hresolved, -⟩ :=
      bind_eq_ok.mp (asContractError_ok.mp (checkIf_ok.mp hpromotion hkind))
    exact ⟨resolved, hresolved⟩

theorem isObj_of_payload {keys : List String} {members : List (String × Schema)} {v : Json}
    (h : _payload_schema keys members v = true) : ∃ fields, v = .obj fields :=
  Schema.isObj_of_type (Schema.allOf_iff.mp h _ (by simp))

/-- A member of an accepted payload whose schema begins with the type of texts is a text. -/
theorem str_of_member {keys : List String} {members : List (String × Schema)} {v w : Json}
    {key : String} (h : _payload_schema keys members v = true) (more : List Schema)
    (hschema : (key, Schema.allOf (Schema.type [.string] :: more)) ∈ members)
    (hw : v.get? key = some w) :
    w = .str (strAt v key) ∧ ∀ schema ∈ more, schema w = true := by
  have hproperties : Schema.properties members v = true := Schema.allOf_iff.mp h _ (by simp)
  have hparts := Schema.allOf_iff.mp (Schema.of_properties hproperties hschema hw)
  obtain ⟨s, rfl⟩ := Schema.isStr_of_type (hparts _ (by simp))
  rw [strAt_of_get? hw]
  exact ⟨rfl, fun schema hmem => hparts schema (List.mem_cons_of_mem _ hmem)⟩

theorem get?_of_payload {keys : List String} {members : List (String × Schema)} {v : Json}
    {key : String} (h : _payload_schema keys members v = true) (hkey : key ∈ keys) :
    ∃ w, v.get? key = some w := by
  have hrequired : Schema.required keys v = true := Schema.allOf_iff.mp h _ (by simp)
  obtain ⟨fields, rfl⟩ := isObj_of_payload h
  exact Schema.get?_of_required hrequired hkey

theorem str_of_payload {keys : List String} {members : List (String × Schema)} {v : Json}
    (h : _payload_schema keys members v = true) (key : String) (more : List Schema)
    (hkey : key ∈ keys)
    (hschema : (key, Schema.allOf (Schema.type [.string] :: more)) ∈ members) :
    v.get? key = some (.str (strAt v key)) ∧
      ∀ schema ∈ more, schema (.str (strAt v key)) = true := by
  obtain ⟨w, hw⟩ := get?_of_payload h hkey
  obtain ⟨rfl, hmore⟩ := str_of_member h _ hschema hw
  exact ⟨hw, hmore⟩

theorem mem_of_enum {names : List String} {s : String}
    (h : Schema.enum (names.map .str) (.str s) = true) : s ∈ names := by
  simpa [Schema.enum] using h

/-! ## The registry -/

theorem event_contract_type {kind : String} {contract : EventTypeContract}
    (h : event_contract formats kind = .ok contract) :
    contract.event_type = kind ∧ contract ∈ EVENT_TYPE_CONTRACTS formats := by
  unfold event_contract at h
  split at h
  · next found hfound =>
    cases h
    exact ⟨by simpa using List.find?_some hfound, List.mem_of_find?_eq_some hfound⟩
  · cases h

theorem eq_of_registered {contract other : EventTypeContract}
    (h : contract ∈ EVENT_TYPE_CONTRACTS formats) (h' : other ∈ EVENT_TYPE_CONTRACTS formats)
    (htype : contract.event_type = other.event_type) : contract = other := by
  have hnodup : ((EVENT_TYPE_CONTRACTS formats).map EventTypeContract.event_type).Nodup := by
    simp [EVENT_TYPE_CONTRACTS, sourceContract]
  exact List.inj_on_of_nodup_map hnodup h h' htype

/-- An accepted event satisfies the contract registered for its type. -/
theorem Accepted.payload (h : Accepted formats resolvers event) (contract : EventTypeContract)
    (hmem : contract ∈ EVENT_TYPE_CONTRACTS formats)
    (hkind : strAt event "event_type" = contract.event_type) :
    contract.payload_schema (payloadOf event) = true ∧
      (contract.ontology_constraints = true →
        _validate_relation_semantics contract.event_type (payloadOf event)
          resolvers.endpoint_type_resolver = .ok ()) := by
  obtain ⟨found, hfound⟩ := h.contract
  obtain ⟨hlookup, hschema, hsemantics, -⟩ := validate_event_ok hfound
  obtain ⟨htype, hfoundmem⟩ := event_contract_type hlookup
  have htext : textOf event "event_type" = strAt event "event_type" := by
    rw [textOf, get?_event_type h.envelope]
    rfl
  have heq : found = contract := by
    apply eq_of_registered hfoundmem hmem
    rw [htype, htext, hkind]
  subst heq
  obtain ⟨fields, -, hpayload⟩ := get?_payload h.envelope
  exact ⟨hschema, fun hconstrained => hsemantics hconstrained (by rw [hpayload]; rfl)⟩

end FossilCore
