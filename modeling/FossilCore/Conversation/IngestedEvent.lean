import FossilCore.Adapters.Acceptance
import FossilCore.Base.ObjectSchema
import FossilCore.Conversation.Committed

/-!
# Events of ingested conversations

The event that records a conversation passes the gate of an event store exactly when no two of
the conversation's sources share an artifact: the artifacts become references, and the schemas
of events want references to be distinct.
-/

namespace FossilCore

open Base

namespace ConversationStore

/-- What a caller gives for the event of a conversation, as the event schema wants it. -/
structure IngestRequest (formats : FormatChecker) where
  pack_id : String
  pack_ok : Schema.isPrefixedId "pack_" 16 pack_id = true
  actor_id : String
  actor_ok : actor_id ≠ ""
  occurred_at : String
  occurred_ok : formats.isDateTime occurred_at = true
  recorded_at : String
  recorded_ok : formats.isDateTime recorded_at = true

def artifactIds (envelope : Json) : List String :=
  (sourcesOf envelope).map fun source => strAt source "artifact_id"

def messageIds (truncate : FloatText → ℤ) (envelope : Json) : List String :=
  (ordered_messages truncate envelope).map fun message => strAt message "message_id"

theorem wf_build_ingested_event (truncate : FloatText → ℤ) (envelope : Json)
    (pack_id actor_id occurred_at recorded_at : String) :
    (build_ingested_event truncate envelope pack_id actor_id occurred_at recorded_at).WF := by
  apply Json.wf_ofMembers
  simp only [List.forall_mem_cons, List.not_mem_nil, false_imp_iff, implies_true, and_true]
  refine ⟨Json.wf_str _, Json.wf_str _, Json.wf_str _, Json.wf_str _, Json.wf_str _, ?_,
    wf_strings _, wf_strings _, Json.wf_str _, ?_⟩
  · apply Json.wf_ofMembers
    simp [Json.wf_str]
  · apply Json.wf_ofMembers
    simp [Json.wf_str, wf_strings]

def ingestedEvent (truncate : FloatText → ℤ) (envelope : Json) {formats : FormatChecker}
    (request : IngestRequest formats) : Document :=
  ⟨build_ingested_event truncate envelope request.pack_id request.actor_id request.occurred_at
    request.recorded_at, wf_build_ingested_event _ _ _ _ _ _⟩

/-! ## Its id -/

section Ingested

variable {config : StoreConfig} {truncate : FloatText → ℤ} {envelope : Json}
  (request : IngestRequest config.formats)

theorem isObj_ingested : (ingestedEvent truncate envelope request).value.isObj = true := rfl

theorem get?_pack_id_ingested : (ingestedEvent truncate envelope request).value.get? "pack_id" =
    some (.str request.pack_id) := by
  show (Json.ofMembers _).get? "pack_id" = _
  rw [Json.get?_ofMembers]
  rfl

theorem get?_idempotency_key_ingested :
    (ingestedEvent truncate envelope request).value.get? "idempotency_key" =
      some (.str ("conversation-ingested:" ++ strAt envelope "conversation_id")) := by
  show (Json.ofMembers _).get? "idempotency_key" = _
  rw [Json.get?_ofMembers]
  rfl

theorem assignId_ingested (uuid : String) :
    config.assignId (ingestedEvent truncate envelope request).value uuid =
      .ok (identified config (ingestedEvent truncate envelope request).value) := by
  apply assignId_of_idempotent rfl
  · constructor
    · refine truthy?_str (get?_pack_id_ingested request) ?_
      intro hempty
      have hok := request.pack_ok
      rw [hempty] at hok
      exact absurd hok (by decide)
    · refine truthy?_str (get?_idempotency_key_ingested request) ?_
      intro hempty
      have hlen := congrArg (fun s : String => s.toList.length) hempty
      simp [String.toList_append] at hlen
  · show (Json.ofMembers _).get? "event_id" = none
    rw [Json.get?_ofMembers]
    rfl

/-! ## Its envelope -/

/-- What a stored conversation provides for the event's references and payload. -/
structure Referable (truncate : FloatText → ℤ) (envelope : Json) : Prop where
  conversation_id : Schema.isPrefixedId "conv_" 12 (strAt envelope "conversation_id") = true
  source_status : strAt envelope "source_status" ∈ ["verbatim", "reconstructed", "mixed"]
  artifacts : artifactIds envelope ≠ []
  artifact_ids : ∀ id ∈ artifactIds envelope, Schema.isPrefixedId "art_" 16 id = true
  messages : messageIds truncate envelope ≠ []
  message_ids : ∀ id ∈ messageIds truncate envelope, Schema.isPrefixedId "msg_" 8 id = true
  distinct_messages : (messageIds truncate envelope).Nodup

theorem referable_of_wellFormed {formats : FormatChecker} {artifacts : Files}
    (hschema : conversationSchema formats envelope = true)
    (hwell : WellFormed truncate artifacts envelope) : Referable truncate envelope where
  conversation_id := (conversation_id_of_schema hschema).2
  source_status := by
    obtain ⟨w, hget, hw⟩ := Schema.member_of_object hschema "source_status"
      (Schema.enum (["verbatim", "reconstructed", "mixed"].map .str)) (by decide)
      (by simp [conversationProperties])
    obtain ⟨s, hs, rfl⟩ := Schema.str_of_enum hw
    rw [strAt_of_get? hget]
    exact hs
  artifacts := by
    rw [artifactIds, ne_eq, List.map_eq_nil_iff]
    exact itemsAt_ne_nil hschema "sources" sourceSchema (by decide)
      (by simp [conversationProperties])
  artifact_ids := by
    intro text htext
    obtain ⟨source, hsource, rfl⟩ := List.mem_map.mp htext
    obtain ⟨id, -, hid⟩ := artifact_id_of_schema (source_of_mem hschema hsource)
    rw [hid]
    exact id.ok
  messages := by
    rw [messageIds, ne_eq, List.map_eq_nil_iff, ordered_messages]
    intro hnil
    have hperm := sortedBy_perm (fun message => integerAt truncate message "sequence")
      (messagesOf envelope)
    rw [hnil] at hperm
    exact itemsAt_ne_nil hschema "messages" (messageSchema formats) (by decide)
      (by simp [conversationProperties]) hperm.symm.eq_nil
  message_ids := by
    intro text htext
    obtain ⟨message, hmessage, rfl⟩ := List.mem_map.mp htext
    obtain ⟨w, hget, hw⟩ := Schema.member_of_object
      (message_of_mem hschema (mem_sortedBy.mp hmessage)) "message_id" (prefixedId "msg_" 8)
      (by decide) (by simp [messageProperties])
    obtain ⟨s, rfl, hs⟩ := str_of_prefixedId hw
    rw [strAt_of_get? hget]
    exact hs
  distinct_messages :=
    ((sortedBy_perm _ _).map fun message => strAt message "message_id").nodup_iff.mpr
      hwell.message_ids

theorem refsSchema_strings {n : ℕ} {ids : List String} :
    refsSchema n (strings ids) = true ↔
      n ≤ ids.length ∧ ids.Nodup ∧ ∀ id ∈ ids, 4 ≤ id.toList.length := by
  rw [refsSchema, Schema.allOf_iff]
  simp only [List.forall_mem_cons, List.not_mem_nil, false_imp_iff, implies_true, and_true,
    strings, Schema.items_strings]
  simp [Schema.type, Schema.hasType, Schema.minItems, Schema.uniqueItems, Schema.nodup_strings,
    _string, Schema.allOf, Schema.minLength]

theorem string_array_strings {n : ℕ} {ids : List String} :
    _string_array n (strings ids) = true ↔
      n ≤ ids.length ∧ ids.Nodup ∧ ∀ id ∈ ids, 1 ≤ id.toList.length := by
  rw [_string_array, Schema.allOf_iff]
  simp only [List.forall_mem_cons, List.not_mem_nil, false_imp_iff, implies_true, and_true,
    strings, Schema.items_strings]
  simp [Schema.type, Schema.hasType, Schema.minItems, Schema.uniqueItems, Schema.nodup_strings,
    _string, Schema.allOf, Schema.minLength]

theorem get?_identified (key : String) :
    (identified config (ingestedEvent truncate envelope request).value).get? key =
      if "event_id" = key then
        some (.str (config.operationId (ingestedEvent truncate envelope request).value))
      else (ingestedEvent truncate envelope request).value.get? key :=
  Json.get?_set rfl _ _ _

theorem get?_evidence_refs_ingested :
    (identified config (ingestedEvent truncate envelope request).value).get? "evidence_refs" =
      some (strings (artifactIds envelope)) := by
  rw [get?_identified, if_neg (by decide)]
  show (Json.ofMembers _).get? "evidence_refs" = _
  rw [Json.get?_ofMembers]
  rfl

theorem eventIdSchema_text {s : String} (h : Schema.isPrefixedId "evt_" 16 s = true) :
    eventIdSchema (.str s) = true := by
  have hpattern : Schema.pattern (Schema.isPrefixedId "evt_" 16) (.str s) = true := h
  exact Schema.of_text s hpattern

theorem actorSchema_importer {actor_id : String} (h : actor_id ≠ "") :
    actorSchema (.ofMembers [("actor_type", .str "importer"), ("actor_id", .str actor_id)]) =
      true := by
  rw [actorSchema, Schema.object_iff rfl]
  have hget : ∀ key, (Json.ofMembers [("actor_type", .str "importer"),
      ("actor_id", .str actor_id)]).get? key = _ :=
    fun key => Json.get?_ofMembers_of_nodup (by simp) key
  have hlen : 1 ≤ actor_id.toList.length := by
    rw [Nat.one_le_iff_ne_zero, ne_eq, List.length_eq_zero_iff, String.toList_eq_nil_iff]
    exact h
  refine ⟨?_, ?_, ?_⟩
  · intro key hkey
    have hmem := Schema.mem_keys_of_ofMembers hkey
    simp only [List.map_cons, List.map_nil, List.mem_cons, List.not_mem_nil, or_false] at hmem
    rcases hmem with rfl | rfl <;> simp
  · intro key hkey
    rw [hget]
    simp only [List.mem_cons, List.not_mem_nil, or_false] at hkey
    rcases hkey with rfl | rfl <;> rfl
  · intro m hm w hw
    rw [hget] at hw
    simp only [List.mem_cons, List.not_mem_nil, or_false] at hm
    rcases hm with rfl | rfl | rfl | rfl | rfl | rfl <;> simp [Json.lookup] at hw <;> subst hw
    · rfl
    · exact Schema.of_text _ (by simpa [Schema.minLength] using hlen)

/-- The envelope schema rejects the event only for artifacts that occur twice. -/
theorem eventSchema_ingested_iff (href : Referable truncate envelope) :
    eventSchema config.formats
        (identified config (ingestedEvent truncate envelope request).value) = true ↔
      (artifactIds envelope).Nodup := by
  have hobj : (identified config (ingestedEvent truncate envelope request).value).isObj = true :=
    Json.isObj_set (isObj_ingested request) _ _
  rw [eventSchema, Schema.object_iff hobj]
  constructor
  · rintro ⟨-, -, hmembers⟩
    have hrefs : refsSchema 0 (strings (artifactIds envelope)) = true :=
      hmembers ("evidence_refs", refsSchema 0) (by simp [eventProperties]) _
        (get?_evidence_refs_ingested request)
    exact (refsSchema_strings.mp hrefs).2.1
  · intro hnodup
    have hget : ∀ key, (ingestedEvent truncate envelope request).value.get? key = _ :=
      fun key => Json.get?_ofMembers_of_nodup (by simp) key
    refine ⟨?_, ?_, ?_⟩
    · intro key hkey
      rw [get?_identified] at hkey
      split_ifs at hkey with hid
      · subst hid
        simp [eventProperties]
      · have hmem := Schema.mem_keys_of_ofMembers hkey
        simp only [List.map_cons, List.map_nil, List.mem_cons, List.not_mem_nil, or_false] at hmem
        rcases hmem with rfl | rfl | rfl | rfl | rfl | rfl | rfl | rfl | rfl | rfl <;>
          simp [eventProperties]
    · intro key hkey
      rw [get?_identified, hget]
      simp only [eventRequired, List.mem_cons, List.not_mem_nil, or_false] at hkey
      rcases hkey with rfl | rfl | rfl | rfl | rfl | rfl | rfl | rfl | rfl <;> rfl
    · intro m hm w hw
      rw [get?_identified, hget] at hw
      simp only [eventProperties, List.mem_cons, List.not_mem_nil, or_false] at hm
      rcases hm with rfl | rfl | rfl | rfl | rfl | rfl | rfl | rfl | rfl | rfl | rfl | rfl | rfl |
        rfl | rfl | rfl <;> simp [Json.lookup] at hw <;> subst hw
      · rfl
      · dsimp only
        exact eventIdSchema_text (isPrefixedId_operationId config _)
      · have htype : Schema.pattern isEventType (.str "conversation.ingested") = true := by
          decide +kernel
        exact Schema.of_text "conversation.ingested" htype
      · exact Schema.of_text _ request.occurred_ok
      · exact Schema.of_text _ request.recorded_ok
      · exact Schema.of_text _ request.pack_ok
      · exact actorSchema_importer request.actor_ok
      · refine refsSchema_strings.mpr ⟨le_refl 1, List.nodup_singleton _, ?_⟩
        intro id hid
        obtain rfl := List.mem_singleton.mp hid
        have hlen := Schema.length_of_isPrefixedId href.conversation_id
        omega
      · rfl
      · refine refsSchema_strings.mpr ⟨Nat.zero_le _, hnodup, ?_⟩
        intro id hid
        have hlen := Schema.length_of_isPrefixedId (href.artifact_ids id hid)
        omega
      · rfl

/-! ## Its payload -/

theorem get?_payload_ingested :
    (identified config (ingestedEvent truncate envelope request).value).get? "payload" =
      some (.ofMembers [
        ("conversation_id", .str (strAt envelope "conversation_id")),
        ("source_status", .str (strAt envelope "source_status")),
        ("source_artifact_ids", strings (artifactIds envelope)),
        ("message_ids", strings (messageIds truncate envelope))]) := by
  rw [get?_identified, if_neg (by decide)]
  show (Json.ofMembers _).get? "payload" = _
  rw [Json.get?_ofMembers]
  rfl

theorem get?_event_type_ingested :
    (identified config (ingestedEvent truncate envelope request).value).get? "event_type" =
      some (.str "conversation.ingested") := by
  rw [get?_identified, if_neg (by decide)]
  show (Json.ofMembers _).get? "event_type" = _
  rw [Json.get?_ofMembers]
  rfl

theorem conversationIngestedPayload_of_nodup (href : Referable truncate envelope)
    (hnodup : (artifactIds envelope).Nodup) :
    conversationIngestedPayload (.ofMembers [
      ("conversation_id", .str (strAt envelope "conversation_id")),
      ("source_status", .str (strAt envelope "source_status")),
      ("source_artifact_ids", strings (artifactIds envelope)),
      ("message_ids", strings (messageIds truncate envelope))]) = true := by
  have hget : ∀ key, (Json.ofMembers [
      ("conversation_id", .str (strAt envelope "conversation_id")),
      ("source_status", .str (strAt envelope "source_status")),
      ("source_artifact_ids", strings (artifactIds envelope)),
      ("message_ids", strings (messageIds truncate envelope))]).get? key = _ :=
    fun key => Json.get?_ofMembers_of_nodup (by simp) key
  rw [conversationIngestedPayload, _payload_schema, Schema.allOf_iff]
  simp only [List.forall_mem_cons, List.not_mem_nil, false_imp_iff, implies_true, and_true]
  refine ⟨rfl, (Schema.required_iff rfl).mpr ?_, (Schema.properties_iff rfl).mpr ?_⟩
  · intro key hkey
    rw [hget]
    simp only [List.mem_cons, List.not_mem_nil, or_false] at hkey
    rcases hkey with rfl | rfl | rfl | rfl <;> rfl
  · intro m hm w hw
    rw [hget] at hw
    simp only [List.mem_cons, List.not_mem_nil, or_false] at hm
    rcases hm with rfl | rfl | rfl | rfl | rfl <;> simp [Json.lookup] at hw <;> subst hw
    · have hlen := Schema.length_of_isPrefixedId href.conversation_id
      refine Schema.of_text _ ?_
      simp only [Schema.minLength, decide_eq_true_eq]
      omega
    · refine Schema.of_text _ ?_
      rw [Schema.enum, decide_eq_true_eq]
      exact List.mem_map_of_mem href.source_status
    · refine string_array_strings.mpr
        ⟨List.length_pos_iff.mpr href.artifacts, hnodup, ?_⟩
      intro id hid
      have hlen := Schema.length_of_isPrefixedId (href.artifact_ids id hid)
      omega
    · refine string_array_strings.mpr
        ⟨List.length_pos_iff.mpr href.messages, href.distinct_messages, ?_⟩
      intro id hid
      have hlen := Schema.length_of_isPrefixedId (href.message_ids id hid)
      omega

theorem validate_event_ingested (href : Referable truncate envelope)
    (hnodup : (artifactIds envelope).Nodup) :
    ∃ contract, validate_event_for_commit config.formats config.resolvers
      (identified config (ingestedEvent truncate envelope request).value) = .ok contract := by
  have htype : textOf (identified config (ingestedEvent truncate envelope request).value)
      "event_type" = "conversation.ingested" := by
    rw [textOf, get?_event_type_ingested request]
    rfl
  have hcontract : event_contract config.formats "conversation.ingested" =
      .ok ⟨"conversation.ingested", conversationIngestedPayload, false, ⟨true, false, []⟩⟩ := by
    simp [event_contract, EVENT_TYPE_CONTRACTS, sourceContract]
  have hpayload := validateSchema_ok.mpr (conversationIngestedPayload_of_nodup href hnodup)
  have hrefs : _require_nonempty_refs
      (identified config (ingestedEvent truncate envelope request).value) "evidence_refs" =
        .ok () := by
    rw [_require_nonempty_refs, get?_evidence_refs_ingested request]
    cases hids : artifactIds envelope with
    | nil => exact absurd hids href.artifacts
    | cons id ids => rfl
  refine ⟨⟨"conversation.ingested", conversationIngestedPayload, false, ⟨true, false, []⟩⟩, ?_⟩
  rw [validate_event_for_commit, htype, hcontract, get?_payload_ingested]
  simp only [bind, Except.bind, Option.getD_some, hpayload, hrefs, checkIf, requireProvenance,
    String.reduceEq, Bool.false_eq_true, false_and, if_false, if_true, List.find?_nil]
  rfl

theorem validate_ingested_iff (href : Referable truncate envelope) (uuid : String) :
    (∃ candidate, config.validate (ingestedEvent truncate envelope request).value uuid =
        .ok candidate) ↔ (artifactIds envelope).Nodup := by
  rw [← eventSchema_ingested_iff request href]
  constructor
  · rintro ⟨candidate, h⟩
    obtain ⟨hassigned, hschema, -⟩ := validate_ok_iff.mp h
    rw [assignId_ingested] at hassigned
    cases hassigned
    exact hschema
  · intro hschema
    have hcontract :=
      validate_event_ingested request href ((eventSchema_ingested_iff request href).mp hschema)
    exact ⟨_, validate_ok_iff.mpr ⟨assignId_ingested request uuid, hschema, hcontract⟩⟩

/-! ## Committing it -/

/-- An event store that has not seen the event of a committed conversation accepts it exactly
when the conversation's sources have distinct artifacts. -/
theorem ingested_committed_iff {envelope : Document} {uuid : String} {files : ConversationFiles}
    {v : Json}
    (hcommit : (commit config.sha256 truncate config.formats envelope.value uuid files).1 = .ok v)
    (calls : List EventCall)
    (hunseen : Unseen config (Runs.after (DurableEventStore.step config) ∅ calls)
      (ingestedEvent truncate v request)) (uuid' temp : String) :
    (∃ e, ((DurableEventStore.commit config (ingestedEvent truncate v request).value uuid'
        temp).run fsStep (Runs.after (DurableEventStore.step config) ∅ calls)).1 = .ok e) ↔
      (artifactIds v).Nodup := by
  obtain ⟨rfl, hschema, hvalid⟩ := commit_accepted envelope.wf hcommit
  have href := referable_of_wellFormed hschema (wellFormed_of_validate hvalid)
  have haccepted := commit_ok_iff (ingestedEvent truncate envelope.value request) uuid' temp
    (isObj_ingested request) (assignId_ingested request uuid') hunseen
  exact haccepted.trans (validate_ingested_iff request href uuid')

end Ingested

/-! ## Two conversations over one artifact -/

def sampleRequest : IngestRequest StoreConfig.plain.formats where
  pack_id := "pack_0123456789abcdef"
  pack_ok := by decide +kernel
  actor_id := "importer"
  actor_ok := by decide
  occurred_at := "2026-01-01T00:00:00Z"
  occurred_ok := by decide +kernel
  recorded_at := "2026-01-01T00:00:00Z"
  recorded_ok := by decide +kernel

theorem artifactIds_evidence (source_ids : List String) :
    artifactIds (evidenceConversation source_ids) = source_ids.map fun _ => evidenceId := by
  rw [artifactIds, sourcesOf_evidence, List.map_map]
  apply List.map_congr_left
  intro source_id _
  exact artifact_id_evidence source_id

theorem ingested_committed_iff_single :
    (∃ e, ((DurableEventStore.commit .plain (ingestedEvent (fun _ => 0)
        (evidenceDocument false).value sampleRequest).value "u4" "u5").run fsStep ∅).1 = .ok e) ↔
      (artifactIds (evidenceDocument false).value).Nodup :=
  ingested_committed_iff sampleRequest (commit_evidence false) [] (unseen_empty _ _) "u4" "u5"

/-- A stored conversation whose event no store takes. -/
theorem shared_artifact_refused :
    (commit .hashlib (fun _ => 0) StoreConfig.plain.formats (evidenceDocument true).value "u3"
      evidenceFiles).1 = .ok (evidenceDocument true).value ∧
    Unseen .plain ∅ (ingestedEvent (fun _ => 0) (evidenceDocument true).value sampleRequest) ∧
    ¬ ∃ e, ((DurableEventStore.commit .plain (ingestedEvent (fun _ => 0)
      (evidenceDocument true).value sampleRequest).value "u4" "u5").run fsStep ∅).1 = .ok e := by
  have hcommit := commit_evidence true
  obtain ⟨-, hschema, hvalid⟩ := commit_accepted (evidenceDocument true).wf hcommit
  have href := referable_of_wellFormed hschema (wellFormed_of_validate hvalid)
  refine ⟨hcommit, unseen_empty _ _, ?_⟩
  intro h
  have haccepted := (commit_ok_iff _ "u4" "u5" (isObj_ingested sampleRequest)
    (assignId_ingested sampleRequest "u4")
    (show Unseen _ (Runs.after (DurableEventStore.step .plain) ∅ []) _ from
      unseen_empty _ _)).mp h
  have hnodup := (validate_ingested_iff sampleRequest href "u4").mp haccepted
  rw [evidenceDocument, artifactIds_evidence] at hnodup
  simp [evidenceSourceIds] at hnodup

end ConversationStore

end FossilCore
