import FossilCore.Domain.LifecycleInvariant
import FossilCore.Store.EventGate

/-!
# The endpoints of active relations

The gate resolves the endpoints that a transition event restates, and the replayed state keeps
those of the proposal.  Where every activation restates the endpoints of the proposal, every
active relation connects kinds that the ontology allows.
-/

namespace FossilCore

open Base

namespace KnowledgeState

variable {state state' : KnowledgeState}

theorem relations_change_claim (state : KnowledgeState) (claim_id target : Json)
    (expected : Option Json) :
    (state.change_claim claim_id target expected).2.relations = state.relations := by
  rw [change_claim]
  split
  · rfl
  · dsimp only
    split <;> rfl

theorem relations_markStale (state : KnowledgeState) (premise_id : Json)
    (relations : List RelationRecord) :
    (state.markStale premise_id relations).2.relations = state.relations := by
  induction relations generalizing state with
  | nil => rfl
  | cons relation rest ih =>
      have hchange := relations_change_claim state relation.source_ref (.str "stale_pending_review")
        none
      rw [markStale]
      split
      · rfl
      · exact ih state
      · split
        · rfl
        · split
          · exact ih state
          · split
            · next heq =>
                rw [heq] at hchange
                exact hchange
            · next heq =>
                rw [heq] at hchange
                rw [ih, hchange]

/-- The payload describes the relation of the record. -/
structure Describes (payload : Json) (record : RelationRecord) : Prop where
  relation_id : payload.get? "relation_id" = some record.relation_id
  relation_type : payload.get? "relation_type" = some (.str record.relation_type)
  source_ref : payload.get? "source_ref" = some record.source_ref
  target_ref : payload.get? "target_ref" = some record.target_ref

theorem describes_of_readProposal {payload : Json} {record : RelationRecord}
    (h : state.readProposal payload = .ok record) :
    Describes payload record ∧
      (payload.get? "state").getD (.str "proposed") = .str record.state := by
  obtain ⟨relation_id, hid, h⟩ := bind_eq_ok.mp h
  obtain ⟨known, hknown, h⟩ := bind_eq_ok.mp h
  cases known with
  | true => cases h
  | false =>
      obtain ⟨relation_type, htype, h⟩ := bind_eq_ok.mp h
      obtain ⟨type_member, hmember, h⟩ := bind_eq_ok.mp h
      cases type_member with
      | none => cases h
      | some name =>
          obtain ⟨state_member, hstate, h⟩ := bind_eq_ok.mp h
          cases state_member with
          | none => cases h
          | some relation_state =>
              obtain ⟨source_ref, hsource, h⟩ := bind_eq_ok.mp h
              obtain ⟨target_ref, htarget, h⟩ := bind_eq_ok.mp h
              cases h
              rw [(memberOf_some hmember).1] at htype
              exact ⟨⟨get?_of_getItem hid, get?_of_getItem htype, get?_of_getItem hsource,
                get?_of_getItem htarget⟩, (memberOf_some hstate).1⟩

/-- The payload moves the relation under the id to a state. -/
structure Moves (kind payload id : Json) (target : String) : Prop where
  relation_id : payload.get? "relation_id" = some id
  target : transitionTarget kind payload = .ok (.str target)

theorem moves_of_readTransition {kind payload id : Json} {record : RelationRecord}
    {target : String} (h : state.readTransition kind payload = .ok (id, record, target)) :
    state.relations.get? id = some record ∧ Moves kind payload id target := by
  obtain ⟨relation_id, hid, h⟩ := bind_eq_ok.mp h
  obtain ⟨_, -, h⟩ := bind_eq_ok.mp h
  split at h
  · cases h
  · next record' hrecord =>
      dsimp only at h
      split at h
      · cases h
      · obtain ⟨to_state, hto, h⟩ := bind_eq_ok.mp h
        obtain ⟨member, hmember, h⟩ := bind_eq_ok.mp h
        cases member with
        | none => cases h
        | some s =>
            cases h
            rw [(memberOf_some hmember).1] at hto
            exact ⟨hrecord, get?_of_getItem hid, hto⟩

/-- Everything an event can do to the relations. -/
inductive RelationStep (event : Json) (relations : Dict Json RelationRecord) :
    Dict Json RelationRecord → Prop where
  | same : RelationStep event relations relations
  | propose {payload : Json} {record : RelationRecord}
      (hkind : event.get? "event_type" = some (.str "relation.proposed"))
      (hpayload : event.get? "payload" = some payload) (hdescribes : Describes payload record)
      (hstate : (payload.get? "state").getD (.str "proposed") = .str record.state) :
      RelationStep event relations (relations.set record.relation_id record)
  | move {kind payload id : Json} {record : RelationRecord} {target : String}
      (hkind : event.get? "event_type" = some kind)
      (hkinds : kind = .str "relation.state_changed" ∨ kind = .str "relation.superseded")
      (hpayload : event.get? "payload" = some payload)
      (hrecord : relations.get? id = some record) (hmoves : Moves kind payload id target) :
      RelationStep event relations (relations.set id { record with state := target })

theorem readHead_ok {event kind payload subject : Json}
    (h : readHead event = .ok (kind, payload, subject)) :
    event.get? "event_type" = some kind ∧ event.get? "payload" = some payload := by
  rw [readHead] at h
  cases hkind : event.getItem "event_type" with
  | error e =>
      rw [hkind] at h
      cases h
  | ok kind' =>
      cases hpayload : event.getItem "payload" with
      | error e =>
          rw [hkind, hpayload] at h
          cases h
      | ok payload' =>
          cases hrefs : event.getItem "subject_refs" with
          | error e =>
              rw [hkind, hpayload, hrefs] at h
              cases h
          | ok refs =>
              cases hfirst : refs.getFirst with
              | error e =>
                  simp [hkind, hpayload, hrefs, hfirst, bind, Except.bind] at h
              | ok first =>
                  simp only [hkind, hpayload, hrefs, hfirst, bind, Except.bind, pure, Except.pure,
                    liftPy_ok, Except.ok.injEq, Prod.mk.injEq] at h
                  obtain ⟨rfl, rfl, -⟩ := h
                  exact ⟨Json.getItem_ok_iff.mp hkind, Json.getItem_ok_iff.mp hpayload⟩

theorem relationStep_apply {event : Json} (h : state.apply event = (.ok (), state')) :
    RelationStep event state.relations state'.relations := by
  rw [apply] at h
  split at h
  · cases h
  · next kind payload subject hhead =>
      obtain ⟨hkind, hpayload⟩ := readHead_ok hhead
      rw [applyKind] at h
      split_ifs at h with hproposed hchanged hsuperseded hrelation hhash hmoved
      · rw [proposeClaim] at h
        split at h
        · cases h
        · cases h
        · cases h
          exact .same
      · split at h
        · cases h
        · next to_state _ =>
            have hsame := relations_change_claim state subject to_state (payload.get? "from_state")
            rw [h] at hsame
            rw [hsame]
            exact .same
      · split at h
        · cases h
        · next from_state _ =>
            have hsame := relations_change_claim state subject (.str "superseded") from_state
            split at h
            · cases h
            · next state₁ hchange =>
                rw [hchange] at hsame
                have hstale := relations_markStale state₁ subject state₁.relations.values
                rw [← mark_dependents_stale, h] at hstale
                rw [hstale, hsame]
                exact .same
      · rw [proposeRelation] at h
        split at h
        · cases h
        · next record hread =>
            obtain ⟨hdescribes, hstate⟩ := describes_of_readProposal hread
            cases h
            exact .propose (by rw [hkind, hrelation]) hpayload hdescribes hstate
      · cases h
      · rw [moveRelation] at h
        split at h
        · cases h
        · next hread =>
            obtain ⟨hrecord, hmoves⟩ := moves_of_readTransition hread
            dsimp only at h
            split at h
            · cases h
            · cases h
              exact .move hkind hmoved hpayload hrecord hmoves
      · cases h
        exact .same

end KnowledgeState

/-! ## Accepted transitions -/

/-- The resolver knows both endpoints, and the ontology allows their kinds. -/
def EndpointsResolved (resolver : Option EndpointTypeResolver) (relation_type : String)
    (source_ref target_ref : Json) : Prop :=
  ∃ resolve source target source_type target_type, resolver = some resolve ∧
    source_ref = .str source ∧ target_ref = .str target ∧
    resolve source = .value source_type ∧ resolve target = .value target_type ∧
    EndpointsAllowed relation_type source_type target_type

variable {formats : FormatChecker} {resolvers : Resolvers} {event : Json}

/-- What the registry establishes about an event of a registered type. -/
theorem payload_of_validated {found : EventTypeContract}
    (h : validate_event_for_commit formats resolvers event = .ok found)
    (contract : EventTypeContract) (hmem : contract ∈ EVENT_TYPE_CONTRACTS formats)
    (hkind : event.get? "event_type" = some (.str contract.event_type)) :
    contract.payload_schema (payloadOf event) = true ∧
      (contract.ontology_constraints = true → (payloadOf event).isObj = true →
        _validate_relation_semantics contract.event_type (payloadOf event)
          resolvers.endpoint_type_resolver = .ok ()) := by
  obtain ⟨hlookup, hschema, hsemantics, -⟩ := validate_event_ok h
  obtain ⟨htype, hfound⟩ := event_contract_type hlookup
  have heq : found = contract := by
    apply eq_of_registered hfound hmem
    rw [htype, textOf, hkind]
    rfl
  subst heq
  exact ⟨hschema, hsemantics⟩

theorem textAt_of_get? {payload : Json} {key s : String} (h : payload.get? key = some (.str s)) :
    textAt payload key = .ok s := by
  rw [textAt, Json.getItem_of_get? h]
  rfl

theorem proposed_of_validated {found : EventTypeContract}
    (h : validate_event_for_commit formats resolvers event = .ok found)
    (hkind : event.get? "event_type" = some (.str "relation.proposed")) :
    ((payloadOf event).get? "state").getD (.str "proposed") = .str "proposed" := by
  obtain ⟨hschema, hsemantics⟩ := payload_of_validated h
    ⟨"relation.proposed", relationProposedPayload, true, optionalEvidence⟩
    (by simp [EVENT_TYPE_CONTRACTS]) hkind
  obtain ⟨fields, hfields⟩ := isObj_of_payload hschema
  have hchecked := hsemantics rfl (by rw [hfields]; rfl)
  rw [_validate_relation_semantics, if_pos rfl, validateProposedRelation] at hchecked
  by_contra hnot
  rw [if_pos hnot] at hchecked
  cases hchecked

/-- A state change of a relation passes the gate only with resolved endpoints. -/
theorem resolved_of_validated {found : EventTypeContract}
    (h : validate_event_for_commit formats resolvers event = .ok found)
    (hkind : event.get? "event_type" = some (.str "relation.state_changed")) :
    ∃ relation_type source target,
      (payloadOf event).get? "relation_type" = some (.str relation_type) ∧
      (payloadOf event).get? "source_ref" = some (.str source) ∧
      (payloadOf event).get? "target_ref" = some (.str target) ∧
      EndpointsResolved resolvers.endpoint_type_resolver relation_type (.str source)
        (.str target) := by
  obtain ⟨hschema, hsemantics⟩ := payload_of_validated h
    ⟨"relation.state_changed", relationStateChangedPayload, true, optionalEvidence⟩
    (by simp [EVENT_TYPE_CONTRACTS]) hkind
  have htext : ∀ key ∈ _RELATION_ENDPOINT_REQUIRED,
      (∃ more, (key, Schema.allOf (Schema.type [.string] :: more)) ∈
        _RELATION_ENDPOINT_PROPERTIES) →
      ∃ s, (payloadOf event).get? key = some (.str s) := by
    rintro key hkey ⟨more, hmore⟩
    exact ⟨_, (str_of_payload hschema key more (by simp [hkey]) (by simp [hmore])).1⟩
  obtain ⟨relation_type, htype⟩ := htext "relation_type" (by simp [_RELATION_ENDPOINT_REQUIRED])
    ⟨_, by simp [_RELATION_ENDPOINT_PROPERTIES, _RELATION_TYPE, _names]; rfl⟩
  obtain ⟨source, hsource⟩ := htext "source_ref" (by simp [_RELATION_ENDPOINT_REQUIRED])
    ⟨_, by simp [_RELATION_ENDPOINT_PROPERTIES, _string]; rfl⟩
  obtain ⟨target, htarget⟩ := htext "target_ref" (by simp [_RELATION_ENDPOINT_REQUIRED])
    ⟨_, by simp [_RELATION_ENDPOINT_PROPERTIES, _string]; rfl⟩
  obtain ⟨fields, hfields⟩ := isObj_of_payload hschema
  have hchecked := hsemantics rfl (by rw [hfields]; rfl)
  rw [_validate_relation_semantics, if_neg (by simp), validateAcceptedRelation,
    asContractError_ok] at hchecked
  obtain ⟨_, htype', hchecked⟩ := bind_eq_ok.mp hchecked
  obtain ⟨_, hsource', hchecked⟩ := bind_eq_ok.mp hchecked
  obtain ⟨source_type, -, hchecked⟩ := bind_eq_ok.mp hchecked
  obtain ⟨_, htarget', hchecked⟩ := bind_eq_ok.mp hchecked
  obtain ⟨target_type, -, hchecked⟩ := bind_eq_ok.mp hchecked
  obtain ⟨ontology_ref, -, hchecked⟩ := bind_eq_ok.mp hchecked
  cases (textAt_of_get? htype).symm.trans htype'
  cases (textAt_of_get? hsource).symm.trans hsource'
  cases (textAt_of_get? htarget).symm.trans htarget'
  obtain ⟨resolve, hresolver, hs, ht, hallowed⟩ := validate_resolved_ok hchecked
  exact ⟨relation_type, source, target, htype, hsource, htarget, resolve, source, target,
    source_type, target_type, hresolver, rfl, rfl, hs, ht, hallowed⟩

/-! ## Runs -/

/-- The event proposes the relation of the record. -/
def ProposedBy (event : Json) (record : RelationRecord) : Prop :=
  event.get? "event_type" = some (.str "relation.proposed") ∧
    KnowledgeState.Describes (payloadOf event) record

/-- The event moves a relation to the state `active`. -/
def Activates (event : Json) : Prop :=
  event.get? "event_type" = some (.str "relation.state_changed") ∧
    (payloadOf event).get? "to_state" = some (.str "active")

/-- Every activation names the relation type and the endpoints that the proposal of its relation
names. -/
def ActivationsRestate (events : List Json) : Prop :=
  ∀ activation ∈ events, Activates activation →
    ∀ proposal ∈ events, proposal.get? "event_type" = some (.str "relation.proposed") →
      (payloadOf proposal).get? "relation_id" = (payloadOf activation).get? "relation_id" →
      ∀ key ∈ ["relation_type", "source_ref", "target_ref"],
        (payloadOf activation).get? key = (payloadOf proposal).get? key

/-- Every recorded relation was proposed, and an active one has resolved endpoints. -/
def RelationsSound (resolver : Option EndpointTypeResolver) (events : List Json)
    (relations : Dict Json RelationRecord) : Prop :=
  ∀ id record, relations.get? id = some record →
    record.relation_id = id ∧ (∃ proposal ∈ events, ProposedBy proposal record) ∧
      (record.state = "active" →
        EndpointsResolved resolver record.relation_type record.source_ref record.target_ref)

theorem RelationsSound.set {resolver : Option EndpointTypeResolver} {events : List Json}
    {relations : Dict Json RelationRecord} (h : RelationsSound resolver events relations)
    (record : RelationRecord) (hproposed : ∃ proposal ∈ events, ProposedBy proposal record)
    (hactive : record.state = "active" →
      EndpointsResolved resolver record.relation_type record.source_ref record.target_ref) :
    RelationsSound resolver events (relations.set record.relation_id record) := by
  intro id other hother
  rw [Dict.get?_set] at hother
  split_ifs at hother with hid
  · cases hother
    exact ⟨hid, hproposed, hactive⟩
  · exact h id other hother

theorem payloadOf_of_get? {payload : Json} (h : event.get? "payload" = some payload) :
    payloadOf event = payload := by
  rw [payloadOf, h]
  rfl

/-- One accepted event keeps the relations sound. -/
theorem RelationsSound.step {events : List Json} {relations relations' : Dict Json RelationRecord}
    (h : RelationsSound resolvers.endpoint_type_resolver events relations)
    (hrestate : ActivationsRestate events) (hmem : event ∈ events)
    (haccepted : ∃ contract, validate_event_for_commit formats resolvers event = .ok contract)
    (hstep : KnowledgeState.RelationStep event relations relations') :
    RelationsSound resolvers.endpoint_type_resolver events relations' := by
  obtain ⟨contract, hvalid⟩ := haccepted
  cases hstep with
  | same => exact h
  | @propose payload record hkind hpayload hdescribes hstate =>
      have hproposed := proposed_of_validated hvalid hkind
      rw [payloadOf_of_get? hpayload, hstate] at hproposed
      apply h.set record ⟨event, hmem, hkind, by rwa [payloadOf_of_get? hpayload]⟩
      intro hactive
      rw [hactive] at hproposed
      simp at hproposed
  | @move kind payload id record target hkind hkinds hpayload hrecord hmoves =>
      obtain ⟨rfl, ⟨proposal, hproposal, hprop, hdescribes⟩, -⟩ := h id record hrecord
      apply h.set { record with state := target }
        ⟨proposal, hproposal, hprop, hdescribes.1, hdescribes.2, hdescribes.3, hdescribes.4⟩
      intro hactive
      have htarget : target = "active" := hactive
      subst htarget
      rcases hkinds with rfl | rfl
      · -- The endpoints that the gate resolved are those of the proposal.
        obtain ⟨relation_type, source, target, htype, hsource, htarget, hresolved⟩ :=
          resolved_of_validated hvalid hkind
        have hto : (payloadOf event).get? "to_state" = some (.str "active") := by
          rw [payloadOf_of_get? hpayload]
          exact get?_of_getItem hmoves.target
        have hid : (payloadOf proposal).get? "relation_id" =
            (payloadOf event).get? "relation_id" := by
          rw [payloadOf_of_get? hpayload, hdescribes.relation_id, hmoves.relation_id]
        have hsame := hrestate event hmem ⟨hkind, hto⟩ proposal hproposal hprop hid
        have htype' := (hsame "relation_type" (by simp)).symm.trans htype
        have hsource' := (hsame "source_ref" (by simp)).symm.trans hsource
        have htarget' := (hsame "target_ref" (by simp)).symm.trans htarget
        rw [hdescribes.relation_type] at htype'
        rw [hdescribes.source_ref] at hsource'
        rw [hdescribes.target_ref] at htarget'
        cases htype'
        rw [Option.some.inj hsource', Option.some.inj htarget']
        exact hresolved
      · have hother := hmoves.target
        simp [KnowledgeState.transitionTarget] at hother

theorem RelationsSound.replayFrom {events rest : List Json} {state state' : KnowledgeState}
    (h : RelationsSound resolvers.endpoint_type_resolver events state.relations)
    (hrestate : ActivationsRestate events) (hrest : ∀ event ∈ rest, event ∈ events)
    (haccepted : ∀ event ∈ events,
      ∃ contract, validate_event_for_commit formats resolvers event = .ok contract)
    (hreplay : state.replayFrom rest = .ok state') :
    RelationsSound resolvers.endpoint_type_resolver events state'.relations := by
  induction rest generalizing state with
  | nil =>
      cases hreplay
      exact h
  | cons event rest ih =>
      rw [KnowledgeState.replayFrom] at hreplay
      split at hreplay
      · cases hreplay
      · next happly =>
          have hmem := hrest event List.mem_cons_self
          apply ih _ (fun other hother => hrest other (List.mem_cons_of_mem event hother)) hreplay
          exact h.step hrestate hmem (haccepted event hmem)
            (KnowledgeState.relationStep_apply happly)

/-- In a replay of accepted events in which every activation restates the endpoints of its
proposal, the recorded endpoints of every active relation resolve to kinds that the ontology
allows, in every state on the way. -/
theorem active_relations_allowed {events : List Json}
    (haccepted : ∀ event ∈ events,
      ∃ contract, validate_event_for_commit formats resolvers event = .ok contract)
    (hrestate : ActivationsRestate events) {before later : List Json}
    (hsplit : events = before ++ later) {state : KnowledgeState}
    (hreplay : KnowledgeState.replay before = .ok state) (id : Json) (record : RelationRecord)
    (hrecord : state.relations.get? id = some record) (hactive : record.state = "active") :
    EndpointsResolved resolvers.endpoint_type_resolver record.relation_type record.source_ref
      record.target_ref := by
  have hempty : RelationsSound resolvers.endpoint_type_resolver events
      KnowledgeState.empty.relations := by
    intro id record hnone
    cases hnone
  have hrest : ∀ event ∈ before, event ∈ events :=
    fun event hmem => hsplit ▸ List.mem_append_left later hmem
  exact (hempty.replayFrom hrestate hrest haccepted hreplay id record hrecord).2.2 hactive

/-! ## A laundered relation -/

/-- A resolver that knows one concept and takes every other reference for a claim. -/
def sampleResolvers : Resolvers :=
  ⟨some fun ref => .value (if ref = "concept_01" then "Concept" else "Claim"), none⟩

/-- The proposal of a relation, with these endpoints. -/
def relationProposal (source_ref target_ref : String) : Json :=
  minimalEvent "evt_0123456789abcdf1" "relation.proposed" "2026-01-01T00:00:00Z"
    "pack_0123456789abcdef" ["relation_01"]
    [("relation_id", .str "relation_01"), ("relation_type", .str "BROADER_THAN"),
      ("source_ref", .str source_ref), ("target_ref", .str target_ref)] []

/-- Its activation, with the concept as both endpoints. -/
def relationActivation : Json :=
  minimalEvent "evt_0123456789abcdf2" "relation.state_changed" "2026-01-02T00:00:00Z"
    "pack_0123456789abcdef" ["relation_01"]
    [("relation_id", .str "relation_01"), ("to_state", .str "active"),
      ("ontology_ref", .str "dkg.core@1.0.0"), ("relation_type", .str "BROADER_THAN"),
      ("source_ref", .str "concept_01"), ("source_type", .str "Concept"),
      ("target_ref", .str "concept_01"), ("target_type", .str "Concept")] []

theorem exists_ok_of_toBool {α : Type} {x : Except Error α} (h : x.toBool = true) :
    ∃ a, x = .ok a := by
  cases x with
  | ok a => exact ⟨a, rfl⟩
  | error e => cases h

theorem relationEvents_accepted (event : Json)
    (h : event ∈ [relationProposal "concept_01" "concept_01",
      relationProposal "claim_01" "claim_02", relationActivation]) :
    ∃ contract, validate_event_for_commit StoreConfig.plain.formats sampleResolvers event =
      .ok contract := by
  apply exists_ok_of_toBool
  revert event
  decide +kernel

theorem active_relations_allowed_of_concept :
    ∃ state record,
      KnowledgeState.replay [relationProposal "concept_01" "concept_01", relationActivation] =
        .ok state ∧
      state.relations.get? (.str "relation_01") = some record ∧ record.state = "active" ∧
      EndpointsResolved sampleResolvers.endpoint_type_resolver record.relation_type
        record.source_ref record.target_ref := by
  have haccepted : ∀ event ∈ [relationProposal "concept_01" "concept_01", relationActivation],
      ∃ contract, validate_event_for_commit StoreConfig.plain.formats sampleResolvers event =
        .ok contract := by
    intro event hevent
    apply relationEvents_accepted
    rcases List.mem_pair.mp hevent with rfl | rfl <;> simp
  have hrestate : ActivationsRestate
      [relationProposal "concept_01" "concept_01", relationActivation] := by
    unfold ActivationsRestate Activates
    decide +kernel
  exact ⟨_, _, rfl, rfl, rfl, active_relations_allowed haccepted hrestate
    (List.append_nil _).symm rfl (.str "relation_01") _ rfl rfl⟩

/-- The gate accepts both events, the relation becomes active, and its recorded endpoints are
claims, which the ontology does not allow for its type. -/
theorem laundered_relation_active :
    (∃ contract, validate_event_for_commit StoreConfig.plain.formats sampleResolvers
        (relationProposal "claim_01" "claim_02") = .ok contract) ∧
      (∃ contract, validate_event_for_commit StoreConfig.plain.formats sampleResolvers
        relationActivation = .ok contract) ∧
      ∃ state record,
        KnowledgeState.replay [relationProposal "claim_01" "claim_02", relationActivation] =
          .ok state ∧
        state.relations.get? (.str "relation_01") = some record ∧ record.state = "active" ∧
        ¬ EndpointsResolved sampleResolvers.endpoint_type_resolver record.relation_type
          record.source_ref record.target_ref := by
  refine ⟨relationEvents_accepted _ (by simp), relationEvents_accepted _ (by simp), _, _, rfl, rfl,
    rfl, ?_⟩
  rintro ⟨resolve, source, target, source_type, target_type, hresolver, hsource, -, hs, -, hallowed⟩
  cases hresolver
  cases hsource
  cases hs
  obtain ⟨types, hmem, hkind, -⟩ := hallowed
  have hall : ∀ entry ∈ RELATION_ENDPOINT_TYPES, entry.1 = "BROADER_THAN" →
      "Claim" ∉ entry.2.source_types := by decide
  exact hall _ hmem rfl hkind

end FossilCore
