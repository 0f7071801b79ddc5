import FossilCore.Base.ObjectSchema
import FossilCore.Conversation.SharedChat
import FossilCore.Conversation.SourceIds

/-!
# Reconstructed envelopes

When the envelope that is built of a spec is accepted.  Each marker is searched for from the
beginning of the text, so that its span is its first occurrence in the whole text: the spans follow
one another exactly when these first occurrences do.
-/

namespace FossilCore

open Base

namespace SharedChat

open ConversationStore

/-! ## Specs -/

/-- What the schema of conversations wants of what a spec says of a message. -/
structure MessageSpec.Conforms (m : MessageSpec) : Prop where
  message_id : Schema.isPrefixedId "msg_" 8 m.message_id = true
  role : m.role ∈ ["human", "assistant", "system", "tool", "other"]
  actor_id : m.actor_id ≠ ""
  marker : m.marker ≠ ""

structure Spec where
  conversation_id : String
  title : String
  reconstruction_basis_refs : List String
  messages : List MessageSpec

/-- The JSON of a spec. -/
structure Spec.SaidBy (spec : Spec) (v : Json) : Prop where
  conversation_id : v.get? "conversation_id" = some (.str spec.conversation_id)
  title : v.get? "title" = some (.str spec.title)
  reconstruction_basis_refs :
    v.get? "reconstruction_basis_refs" = some (strings spec.reconstruction_basis_refs)
  messages : ∃ items, v.get? "messages" = some (.arr items) ∧ List.Forall₂ Says items spec.messages

structure Spec.Conforms (spec : Spec) : Prop where
  conversation_id : Schema.isPrefixedId "conv_" 12 spec.conversation_id = true
  distinct_refs : spec.reconstruction_basis_refs.Nodup
  refs : "" ∉ spec.reconstruction_basis_refs
  messages : spec.messages ≠ []
  distinct_messages : (spec.messages.map MessageSpec.message_id).Nodup
  conforms : ∀ m ∈ spec.messages, m.Conforms

variable {sha256 : Sha256} {truncate : FloatText → ℤ} {formats : FormatChecker}
  {artifacts : Files} {source : Json} {source_id artifact_id : String} {data : ByteArray}
  {spec : Spec}

def envelopeAt (sha256 : Sha256) (source_id : String) (spec : Spec) (source : Json)
    (starts : List ℕ) : Json :=
  envelopeOf (.str spec.conversation_id) (.str spec.title)
    (strings spec.reconstruction_basis_refs) source
    (builtAt sha256 source_id 0 none (spec.messages.zip starts))

theorem envelopeFor_ok (h : Stored artifacts source source_id artifact_id data) {v envelope : Json}
    (hsaid : spec.SaidBy v) {message_by_index : List (String × Json)} :
    envelopeFor sha256 artifacts v source = .ok (envelope, message_by_index) ↔
      ∃ starts, List.Forall₂ (FirstAt data) spec.messages starts ∧
        envelope = envelopeAt sha256 source_id spec source starts ∧
        message_by_index = (builtAt sha256 source_id 0 none (spec.messages.zip starts)).map
          Built.index := by
  obtain ⟨items, hitems, hspoken⟩ := hsaid.messages
  have hget : ∀ {key w}, v.get? key = some w → liftPy (v.getItem key) = .ok w :=
    fun hkey => liftPy_eq_ok.mpr (Json.getItem_of_get? hkey)
  rw [envelopeFor, hget hitems, hget hsaid.conversation_id, hget hsaid.title,
    hget hsaid.reconstruction_basis_refs]
  change (buildMessages sha256 artifacts source 0 none items >>= fun built =>
    Except.ok (SharedChat.envelopeOf (.str spec.conversation_id) (.str spec.title)
      (strings spec.reconstruction_basis_refs) source built, built.map Built.index)) = _ ↔ _
  rw [bind_eq_ok]
  constructor
  · rintro ⟨built, hbuilt, henvelope⟩
    obtain ⟨starts, hstarts, rfl⟩ := (buildMessages_ok h hspoken).mp hbuilt
    cases henvelope
    exact ⟨starts, hstarts, rfl, rfl⟩
  · rintro ⟨starts, hstarts, rfl, rfl⟩
    exact ⟨_, (buildMessages_ok h hspoken).mpr ⟨starts, hstarts, rfl⟩, rfl⟩

/-! ## The parts of an envelope -/

section Parts

variable (sha256 source_id) (spec source) (starts : List ℕ)

theorem sourcesOf_envelopeAt :
    sourcesOf (envelopeAt sha256 source_id spec source starts) = [source] := by
  rw [sourcesOf, itemsAt, envelopeAt, SharedChat.envelopeOf, Json.get?_ofMembers]
  rfl

theorem spansOf_envelopeAt :
    spansOf (envelopeAt sha256 source_id spec source starts) =
      (builtAt sha256 source_id 0 none (spec.messages.zip starts)).map Built.span := by
  rw [spansOf, itemsAt, envelopeAt, SharedChat.envelopeOf, Json.get?_ofMembers]
  rfl

theorem messagesOf_envelopeAt :
    messagesOf (envelopeAt sha256 source_id spec source starts) =
      (builtAt sha256 source_id 0 none (spec.messages.zip starts)).map Built.message := by
  rw [messagesOf, itemsAt, envelopeAt, SharedChat.envelopeOf, Json.get?_ofMembers]
  rfl

theorem status_envelopeAt :
    strAt (envelopeAt sha256 source_id spec source starts) "source_status" = "reconstructed" := by
  rw [strAt, envelopeAt, SharedChat.envelopeOf, Json.get?_ofMembers]
  rfl

theorem conversation_id_envelopeAt :
    strAt (envelopeAt sha256 source_id spec source starts) "conversation_id" =
      spec.conversation_id := by
  rw [strAt, envelopeAt, SharedChat.envelopeOf, Json.get?_ofMembers]
  rfl

end Parts

section Messages

variable (message_id : String) (sequence : ℕ) (previous_message_id : Option String)
  (role actor_id marker : String) (span_id : Json)

theorem get?_messageFor :
    (messageFor message_id sequence previous_message_id role actor_id marker span_id).get?
        "message_id" = some (.str message_id) ∧
      (messageFor message_id sequence previous_message_id role actor_id marker span_id).get?
        "sequence" = some (.int sequence) ∧
      (messageFor message_id sequence previous_message_id role actor_id marker span_id).get?
        "parent_message_id" = some (SourceSnapshotStore.optionalText previous_message_id) ∧
      (messageFor message_id sequence previous_message_id role actor_id marker span_id).get?
        "evidence_status" = some (.str "reconstructed") ∧
      (messageFor message_id sequence previous_message_id role actor_id marker span_id).get?
        "source_span_refs" = some (.arr [span_id]) := by
  simp only [messageFor, Json.get?_ofMembers]
  exact ⟨rfl, rfl, rfl, rfl, rfl⟩

end Messages

section Built

variable (sequence : ℕ) (previous_message_id : Option String)

theorem spans_builtAt (placed : List (MessageSpec × ℕ)) :
    (builtAt sha256 source_id sequence previous_message_id placed).map Built.span =
      placed.map fun p => spanAt sha256 source_id "reconstructed" p.2 (stopOf p) := by
  induction placed generalizing sequence previous_message_id with
  | nil => rfl
  | cons p placed ih =>
      rw [builtAt, List.map_cons, ih, List.map_cons]
      rfl

theorem message_ids_builtAt (placed : List (MessageSpec × ℕ)) :
    (builtAt sha256 source_id sequence previous_message_id placed).map
        (fun built => strAt built.message "message_id") =
      placed.map fun p => p.1.message_id := by
  induction placed generalizing sequence previous_message_id with
  | nil => rfl
  | cons p placed ih =>
      rw [builtAt, List.map_cons, ih, List.map_cons]
      exact congrArg (· :: _) (strAt_of_get? (get?_messageFor _ _ _ _ _ _ _).1)

theorem sequences_builtAt (placed : List (MessageSpec × ℕ)) :
    (builtAt sha256 source_id sequence previous_message_id placed).map
        (fun built => integerAt truncate built.message "sequence") =
      (List.range' sequence placed.length).map fun n : ℕ => (n : ℤ) := by
  induction placed generalizing sequence previous_message_id with
  | nil => rfl
  | cons p placed ih =>
      rw [builtAt, List.map_cons, ih, List.length_cons, List.range'_succ, List.map_cons]
      exact congrArg (· :: _) (integerAt_int (get?_messageFor _ _ _ _ _ _ _).2.1)

/-- Every message follows the one before it, and the first one what was there before. -/
theorem mem_builtAt {placed : List (MessageSpec × ℕ)} {built : Built}
    (h : built ∈ builtAt sha256 source_id sequence previous_message_id placed) :
    ∃ p ∈ placed, ∃ n parent, sequence ≤ n ∧
      built = builtFor sha256 source_id n parent p ∧
      (parent = previous_message_id ∨ ∃ q k parent', k < n ∧ parent = some q.1.message_id ∧
        builtFor sha256 source_id k parent' q ∈
          builtAt sha256 source_id sequence previous_message_id placed) := by
  induction placed generalizing sequence previous_message_id with
  | nil => cases h
  | cons p placed ih =>
      rcases List.mem_cons.mp h with rfl | h
      · exact ⟨p, List.mem_cons_self, sequence, previous_message_id, le_rfl, rfl, Or.inl rfl⟩
      · obtain ⟨q, hq, n, parent, hn, rfl, hparent⟩ := ih _ _ h
        refine ⟨q, List.mem_cons_of_mem _ hq, n, parent, by omega, rfl, Or.inr ?_⟩
        rcases hparent with rfl | ⟨q', k, parent', hk, rfl, hmem⟩
        · exact ⟨p, sequence, previous_message_id, by omega, rfl, List.mem_cons_self⟩
        · exact ⟨q', k, parent', hk, rfl, List.mem_cons_of_mem _ hmem⟩

end Built

/-! ## The schema -/

theorem isPrefixedId_spanId (sha256 : Sha256) (source_id status : String) (start stop : ℕ) :
    Schema.isPrefixedId "span_" 8 (spanId sha256 source_id status start stop) = true := by
  refine Schema.isPrefixedId_iff.mpr ⟨(sha256.hexdigest (Text.join "\x1f" [source_id,
    toString start, toString stop, status]).toUTF8).toList.take 20, [], ?_, ?_, ?_, Or.inl rfl⟩
  · simp [spanId, _stable_id, String.toList_append, Text.toList_take]
  · rw [List.length_take, sha256.length_hexdigest]
    decide
  · intro c hc
    exact isWordChar_of_isHexChar (sha256.isHexChar_hexdigest _ c (List.mem_of_mem_take hc))

theorem prefixedId_iff {kind s : String} {least : ℕ} :
    prefixedId kind least (.str s) = true ↔ Schema.isPrefixedId kind least s = true := by
  rw [prefixedId, Schema.allOf_iff]
  simp [Schema.type, Schema.hasType, Schema.pattern]

theorem atLeast_iff {least n : ℤ} :
    Schema.allOf [Schema.type [.integer], Schema.minimum least] (.int n) = true ↔ least ≤ n := by
  rw [Schema.allOf_iff]
  simp [Schema.type, Schema.hasType, Schema.minimum]

theorem nullableString_optional (s : Option String) :
    nullableString (SourceSnapshotStore.optionalText s) = true := by
  cases s <;> rfl

theorem spanSchema_spanAt {start stop : ℕ} (h : start < stop) :
    spanSchema (spanAt sha256 source_id "reconstructed" start stop) = true := by
  refine (Schema.closedObject_display [
    ("span_id", .str (spanId sha256 source_id "reconstructed" start stop), prefixedId "span_" 8),
    ("source_id", .str source_id, _string 0),
    ("byte_start", .int start, Schema.allOf [Schema.type [.integer], Schema.minimum 0]),
    ("byte_end", .int stop, Schema.allOf [Schema.type [.integer], Schema.minimum 1]),
    ("evidence_status", .str "reconstructed", evidenceStatusSchema)] (by simp)).mpr ?_
  have hstatus : evidenceStatusSchema (.str "reconstructed") = true := by decide
  have htext : _string 0 (.str source_id) = true := by simp [_string, Schema.allOf, Schema.type,
    Schema.hasType, Schema.minLength]
  simp only [List.forall_mem_cons, List.not_mem_nil, false_implies, implies_true, and_true,
    prefixedId_iff, isPrefixedId_spanId, atLeast_iff, hstatus, htext, true_and]
  omega

theorem messageActorSchema_actor {m : MessageSpec} (h : m.Conforms) :
    messageActorSchema (_actor m.role m.actor_id) = true := by
  refine (Schema.closedObject_full [("actor_id", .str m.actor_id, _string 1),
    ("role", .str m.role,
      Schema.enum (["human", "assistant", "system", "tool", "other"].map .str)),
    ("provider", if m.role = "assistant" then .str "ChatGPT share page" else .null,
      nullableString),
    ("model_id", .null, nullableString), ("run_id", .null, nullableString),
    ("tool_id", .null, nullableString)] (by simp) (by simp)).mpr ?_
  have hrole : Schema.enum (["human", "assistant", "system", "tool", "other"].map .str)
      (.str m.role) = true := decide_eq_true (List.mem_map_of_mem h.role)
  have hprovider : nullableString
      (if m.role = "assistant" then .str "ChatGPT share page" else .null) = true := by
    split_ifs <;> rfl
  have hnull : nullableString .null = true := rfl
  simp only [List.forall_mem_cons, List.not_mem_nil, false_implies, implies_true, and_true,
    textSchema_iff, hrole, hprovider, hnull]
  exact h.actor_id

theorem messageSchema_builtFor {m : MessageSpec} (h : m.Conforms) (sequence start : ℕ)
    (previous_message_id : Option String) :
    messageSchema formats
      (builtFor sha256 source_id sequence previous_message_id (m, start)).message = true := by
  refine (Schema.closedObject_full [("message_id", .str m.message_id, prefixedId "msg_" 8),
    ("sequence", .int sequence, Schema.allOf [Schema.type [.integer], Schema.minimum 0]),
    ("parent_message_id", SourceSnapshotStore.optionalText previous_message_id, nullableString),
    ("occurred_at", .null, Schema.allOf [nullableString, Schema.format formats.isDateTime]),
    ("actor", _actor m.role m.actor_id, messageActorSchema),
    ("evidence_status", .str "reconstructed", evidenceStatusSchema),
    ("text", .str m.marker, _string 1),
    ("source_span_refs", .arr [.str (placedSpanId sha256 source_id (m, start))], spanRefsSchema)]
    (by simp) (by simp [messageRequired])).mpr ?_
  have htime : Schema.allOf [nullableString, Schema.format formats.isDateTime] .null = true := rfl
  have hstatus : evidenceStatusSchema (.str "reconstructed") = true := by decide
  have hrefs : ∀ s, spanRefsSchema (.arr [.str s]) = true := by
    intro s
    simp [spanRefsSchema, Schema.allOf, Schema.type, Schema.hasType, Schema.minItems, Schema.items,
      Schema.uniqueItems, _string, Schema.minLength]
  simp only [List.forall_mem_cons, List.not_mem_nil, false_implies, implies_true, and_true,
    textSchema_iff, prefixedId_iff, h.message_id, atLeast_iff, nullableString_optional, htime,
    messageActorSchema_actor h, hstatus, hrefs, true_and]
  exact ⟨Int.natCast_nonneg sequence, h.marker⟩

theorem listSchema_iff {item : Schema} {xs : List Json} :
    Schema.allOf [Schema.type [.array], Schema.minItems 1, Schema.items item] (.arr xs) = true ↔
      xs ≠ [] ∧ ∀ x ∈ xs, item x = true := by
  rw [Schema.allOf_iff]
  simp [Schema.type, Schema.hasType, Schema.minItems, Schema.items, Nat.one_le_iff_ne_zero]

theorem occursAt_of_zip {starts : List ℕ} (hstarts : List.Forall₂ (FirstAt data) spec.messages starts)
    {p : MessageSpec × ℕ} (hp : p ∈ spec.messages.zip starts) :
    OccursAt data p.1.marker.toUTF8 p.2 :=
  (List.forall₂_zip hstarts (show (p.1, p.2) ∈ _ from hp)).1

theorem lt_stopOf (hspec : spec.Conforms) {starts : List ℕ} {p : MessageSpec × ℕ}
    (hp : p ∈ spec.messages.zip starts) : p.2 < stopOf p := by
  have hmem : p.1 ∈ spec.messages := (List.of_mem_zip (show (p.1, p.2) ∈ _ from hp)).1
  have hpos := size_toUTF8_pos (hspec.conforms p.1 hmem).marker
  rw [stopOf]
  omega

theorem conversationSchema_envelopeAt (hspec : spec.Conforms) (hsource : sourceSchema source = true)
    {starts : List ℕ} (hstarts : List.Forall₂ (FirstAt data) spec.messages starts) :
    conversationSchema formats (envelopeAt sha256 source_id spec source starts) = true := by
  let built := builtAt sha256 source_id 0 none (spec.messages.zip starts)
  have hbuilt : ∀ b ∈ built, ∃ p ∈ spec.messages.zip starts, ∃ n parent,
      b = builtFor sha256 source_id n parent p := by
    intro b hb
    obtain ⟨p, hp, n, parent, -, heq, -⟩ := mem_builtAt 0 none hb
    exact ⟨p, hp, n, parent, heq⟩
  have hne : built ≠ [] := by
    obtain ⟨m, ms, hms⟩ := List.exists_cons_of_ne_nil hspec.messages
    rw [hms] at hstarts
    obtain ⟨start, starts, -, -, rfl⟩ := List.forall₂_cons_left_iff.mp hstarts
    simp [built, hms, builtAt]
  have hspans : ∀ x ∈ built.map Built.span, spanSchema x = true := by
    intro x hx
    obtain ⟨b, hb, rfl⟩ := List.mem_map.mp hx
    obtain ⟨p, hp, n, parent, rfl⟩ := hbuilt b hb
    exact spanSchema_spanAt (lt_stopOf hspec hp)
  have hmessages : ∀ x ∈ built.map Built.message, messageSchema formats x = true := by
    intro x hx
    obtain ⟨b, hb, rfl⟩ := List.mem_map.mp hx
    obtain ⟨⟨m, start⟩, hp, n, parent, rfl⟩ := hbuilt b hb
    exact messageSchema_builtFor (hspec.conforms m (List.of_mem_zip hp).1) n start parent
  have hrefs : Schema.allOf [Schema.type [.array], Schema.items (_string 1), Schema.uniqueItems]
      (strings spec.reconstruction_basis_refs) = true := by
    rw [Schema.allOf_iff]
    simp only [List.forall_mem_cons, List.not_mem_nil, false_implies, implies_true, and_true,
      strings, Schema.items_strings, textSchema_iff]
    refine ⟨rfl, fun s hs hempty => hspec.refs (hempty ▸ hs), ?_⟩
    exact decide_eq_true (Schema.nodup_strings.mpr hspec.distinct_refs)
  refine (Schema.closedObject_full [
    ("schema_version", .str "fossil.conversation.v1",
      Schema.const (.str "fossil.conversation.v1")),
    ("conversation_id", .str spec.conversation_id, prefixedId "conv_" 12),
    ("source_status", .str "reconstructed",
      Schema.enum (["verbatim", "reconstructed", "mixed"].map .str)),
    ("title", .str spec.title, Schema.type [.string]),
    ("reconstruction_basis_refs", strings spec.reconstruction_basis_refs,
      Schema.allOf [Schema.type [.array], Schema.items (_string 1), Schema.uniqueItems]),
    ("sources", .arr [source],
      Schema.allOf [Schema.type [.array], Schema.minItems 1, Schema.items sourceSchema]),
    ("spans", .arr (built.map Built.span),
      Schema.allOf [Schema.type [.array], Schema.minItems 1, Schema.items spanSchema]),
    ("messages", .arr (built.map Built.message),
      Schema.allOf [Schema.type [.array], Schema.minItems 1,
        Schema.items (messageSchema formats)])]
    (by simp) (by simp [conversationRequired])).mpr ?_
  have hversion : Schema.const (.str "fossil.conversation.v1")
      (.str "fossil.conversation.v1") = true := by decide
  have hstatus : Schema.enum (["verbatim", "reconstructed", "mixed"].map .str)
      (.str "reconstructed") = true := by decide
  have htitle : Schema.type [.string] (.str spec.title) = true := rfl
  simp only [List.forall_mem_cons, List.not_mem_nil, false_implies, implies_true, and_true,
    hversion, prefixedId_iff, hspec.conversation_id, hstatus, htitle, hrefs, listSchema_iff,
    true_and, ne_eq, List.cons_ne_nil, not_false_eq_true, hsource, List.map_eq_nil_iff, hne]
  exact ⟨hspans, hmessages⟩

/-! ## Provenance -/

section Provenance

variable {starts : List ℕ}

theorem mem_spans_iff {span : Json} :
    span ∈ spansOf (envelopeAt sha256 source_id spec source starts) ↔
      ∃ p ∈ spec.messages.zip starts,
        span = spanAt sha256 source_id "reconstructed" p.2 (stopOf p) := by
  rw [spansOf_envelopeAt, spans_builtAt, List.mem_map]
  simp only [eq_comm]

theorem span_ids_envelopeAt :
    (spansOf (envelopeAt sha256 source_id spec source starts)).map (strAt · "span_id") =
      (spec.messages.zip starts).map (placedSpanId sha256 source_id) := by
  rw [spansOf_envelopeAt, spans_builtAt, List.map_map]
  apply List.map_congr_left
  intro p _
  exact strAt_of_get? (get?_spanAt _ _ _ _).1

/-- The ids of the spans tell them apart. -/
def DistinctSpans (sha256 : Sha256) (source_id : String) (spec : Spec) (starts : List ℕ) : Prop :=
  ((spec.messages.zip starts).map (placedSpanId sha256 source_id)).Nodup

theorem DistinctSpans.span_ids (h : DistinctSpans sha256 source_id spec starts) (source : Json) :
    ((spansOf (envelopeAt sha256 source_id spec source starts)).map (strAt · "span_id")).Nodup := by
  rw [span_ids_envelopeAt]
  exact h

theorem holdsSpan_envelopeAt (hdistinct : DistinctSpans sha256 source_id spec starts) {span : Json}
    (hspan : span ∈ spansOf (envelopeAt sha256 source_id spec source starts)) :
    HoldsSpan (envelopeAt sha256 source_id spec source starts) source span where
  source_mem := by
    rw [sourcesOf_envelopeAt]
    exact List.mem_singleton_self source
  source_only other hother _ := by
    rw [sourcesOf_envelopeAt] at hother
    exact List.mem_singleton.mp hother
  span_mem := hspan
  span_only other hother hid := by
    exact List.inj_on_of_nodup_map (hdistinct.span_ids source) hother hspan hid

theorem validateSpan_envelopeAt (hspec : spec.Conforms)
    (h : Stored artifacts source source_id artifact_id data)
    (hdistinct : DistinctSpans sha256 source_id spec starts)
    (hstarts : List.Forall₂ (FirstAt data) spec.messages starts) {span : Json}
    (hspan : span ∈ spansOf (envelopeAt sha256 source_id spec source starts)) :
    validateSpan truncate artifacts (envelopeAt sha256 source_id spec source starts) span =
      .ok () := by
  have hheld := holdsSpan_envelopeAt hdistinct hspan
  obtain ⟨p, hp, rfl⟩ := mem_spans_iff.mp hspan
  obtain ⟨hid, hsource_id, -, -, hstatus⟩ :=
    @get?_spanAt sha256 source_id "reconstructed" p.2 (stopOf p)
  have hfind := find?_eq_of_only hheld.source_mem hheld.source_only
    (strAt_of_get? h.describes.source_id)
  obtain ⟨hsize, -⟩ := occursAt_of_zip hstarts hp
  have hresolve : resolve_span_bytes truncate artifacts
      (envelopeAt sha256 source_id spec source starts)
      (spanId sha256 source_id "reconstructed" p.2 (stopOf p)) = _ :=
    resolve_spanAt h.describes hheld h.readable
  rw [if_pos ⟨lt_stopOf hspec hp, hsize⟩] at hresolve
  have hverbatim : isVerbatim (spanAt sha256 source_id "reconstructed" p.2 (stopOf p)) = false := by
    rw [isVerbatim, strAt_of_get? hstatus]
    rfl
  rw [validateSpan, strAt_of_get? hsource_id, hfind, strAt_of_get? hid]
  dsimp only
  rw [if_neg (by simp [hverbatim]), hresolve]
  rfl

theorem message_ids_envelopeAt (hlength : spec.messages.length = starts.length) :
    (messagesOf (envelopeAt sha256 source_id spec source starts)).map (strAt · "message_id") =
      spec.messages.map MessageSpec.message_id := by
  have hzip : (spec.messages.zip starts).map Prod.fst = spec.messages :=
    List.map_fst_zip (le_of_eq hlength)
  rw [messagesOf_envelopeAt, List.map_map]
  refine (message_ids_builtAt 0 none (spec.messages.zip starts)).trans ?_
  conv_rhs => rw [← hzip, List.map_map]
  rfl

theorem validateParent_envelopeAt (hspec : spec.Conforms)
    (hlength : spec.messages.length = starts.length) {message : Json}
    (hmessage : message ∈ messagesOf (envelopeAt sha256 source_id spec source starts)) :
    validateParent truncate (envelopeAt sha256 source_id spec source starts) message = .ok () := by
  have hnodup : ((messagesOf (envelopeAt sha256 source_id spec source starts)).map
      (strAt · "message_id")).Nodup := by
    rw [message_ids_envelopeAt hlength]
    exact hspec.distinct_messages
  rw [messagesOf_envelopeAt] at hmessage
  obtain ⟨built, hbuilt, rfl⟩ := List.mem_map.mp hmessage
  obtain ⟨p, -, n, parent, -, rfl, hparent⟩ := mem_builtAt 0 none hbuilt
  obtain ⟨-, hsequence, hparent_id, -⟩ := get?_messageFor p.1.message_id n parent p.1.role
    p.1.actor_id p.1.marker (.str (placedSpanId sha256 source_id p))
  rw [validateParent, builtFor, hparent_id]
  rcases hparent with rfl | ⟨q, k, parent', hk, rfl, hq⟩
  · rfl
  · obtain ⟨hid, hsequence', -⟩ := get?_messageFor q.1.message_id k parent' q.1.role
      q.1.actor_id q.1.marker (.str (placedSpanId sha256 source_id q))
    have hmem : (builtFor sha256 source_id k parent' q).message ∈
        messagesOf (envelopeAt sha256 source_id spec source starts) := by
      rw [messagesOf_envelopeAt]
      exact List.mem_map_of_mem hq
    have hfind := find?_eq_of_nodup hnodup hmem (strAt_of_get? hid)
    simp only [SourceSnapshotStore.optionalText, Option.map_some, Option.getD_some]
    rw [hfind]
    dsimp only
    rw [integerAt_int hsequence, builtFor, integerAt_int hsequence', if_neg (by omega)]

theorem validateMessage_envelopeAt (hspec : spec.Conforms)
    (hdistinct : DistinctSpans sha256 source_id spec starts)
    (hlength : spec.messages.length = starts.length) {message : Json}
    (hmessage : message ∈ messagesOf (envelopeAt sha256 source_id spec source starts)) :
    validateMessage truncate artifacts (envelopeAt sha256 source_id spec source starts) message =
      .ok () := by
  have hparent : validateParent truncate (envelopeAt sha256 source_id spec source starts) message =
      .ok () := validateParent_envelopeAt hspec hlength hmessage
  rw [messagesOf_envelopeAt] at hmessage
  obtain ⟨built, hbuilt, rfl⟩ := List.mem_map.mp hmessage
  obtain ⟨p, hp, n, parent, -, rfl, -⟩ := mem_builtAt 0 none hbuilt
  obtain ⟨-, -, -, hstatus, hrefs⟩ := get?_messageFor p.1.message_id n parent
    p.1.role p.1.actor_id p.1.marker (.str (placedSpanId sha256 source_id p))
  have hspan_refs : spanRefsOf (builtFor sha256 source_id n parent p).message =
      [placedSpanId sha256 source_id p] := by
    rw [spanRefsOf, itemsAt, builtFor, hrefs]
    rfl
  have hmem : spanAt sha256 source_id "reconstructed" p.2 (stopOf p) ∈
      spansOf (envelopeAt sha256 source_id spec source starts) := mem_spans_iff.mpr ⟨p, hp, rfl⟩
  have hheld := holdsSpan_envelopeAt hdistinct hmem
  have hfind := find?_eq_of_only hheld.span_mem hheld.span_only
    (strAt_of_get? (get?_spanAt _ _ _ _).1)
  have hspan : referencedSpan (envelopeAt sha256 source_id spec source starts)
      (builtFor sha256 source_id n parent p).message (placedSpanId sha256 source_id p) =
        .ok (spanAt sha256 source_id "reconstructed" p.2 (stopOf p)) := by
    rw [referencedSpan, placedSpanId, hfind]
  have hverbatim : isVerbatim (builtFor sha256 source_id n parent p).message = false := by
    rw [isVerbatim, builtFor, strAt_of_get? hstatus]
    rfl
  rw [validateMessage, hparent, hspan_refs]
  simp only [bind, Except.bind, List.mapM_cons, List.mapM_nil, hspan, pure, Except.pure,
    hverbatim, Bool.false_eq_true, if_false]

theorem validateStatus_envelopeAt :
    validateStatus (envelopeAt sha256 source_id spec source starts) = .ok () := by
  have hstatuses : ∀ message ∈ messagesOf (envelopeAt sha256 source_id spec source starts),
      strAt message "evidence_status" = "reconstructed" := by
    intro message hmessage
    rw [messagesOf_envelopeAt] at hmessage
    obtain ⟨built, hbuilt, rfl⟩ := List.mem_map.mp hmessage
    obtain ⟨p, -, n, parent, -, rfl, -⟩ := mem_builtAt 0 none hbuilt
    exact strAt_of_get? (get?_messageFor p.1.message_id n parent p.1.role p.1.actor_id p.1.marker
      (.str (placedSpanId sha256 source_id p))).2.2.2.1
  rw [validateStatus, status_envelopeAt, if_neg (by simp), if_neg]
  rintro ⟨-, hmem⟩
  obtain ⟨message, hmessage, hverbatim⟩ := List.mem_map.mp hmem
  rw [hstatuses message hmessage] at hverbatim
  exact absurd hverbatim (by decide)

/-- The provenance of an envelope is in order when its spans are distinct. -/
theorem validate_envelopeAt (hspec : spec.Conforms)
    (h : Stored artifacts source source_id artifact_id data)
    (hverify : ∃ verified, verifyArtifact sha256 artifacts artifact_id = .ok verified)
    (hdistinct : DistinctSpans sha256 source_id spec starts)
    (hstarts : List.Forall₂ (FirstAt data) spec.messages starts) :
    _validate_provenance sha256 truncate artifacts
      (envelopeAt sha256 source_id spec source starts) = .ok () := by
  obtain ⟨verified, hverify⟩ := hverify
  refine bind_eq_ok.mpr ⟨(), requireDistinct_ok.mpr ?_, bind_eq_ok.mpr
    ⟨(), forM_ok_iff.mpr ?_, bind_eq_ok.mpr ⟨(), requireDistinct_ok.mpr ?_,
      bind_eq_ok.mpr ⟨(), forM_ok_iff.mpr ?_, bind_eq_ok.mpr
        ⟨(), requireDistinct_ok.mpr ?_, ?_⟩⟩⟩⟩⟩
  · rw [sourcesOf_envelopeAt]
    exact List.nodup_singleton _
  · intro s hs
    rw [sourcesOf_envelopeAt, List.mem_singleton] at hs
    rw [hs, strAt_of_get? h.describes.artifact_id, hverify]
    rfl
  · rw [span_ids_envelopeAt]
    exact hdistinct
  · intro span hspan
    exact validateSpan_envelopeAt hspec h hdistinct hstarts hspan
  · rw [message_ids_envelopeAt hstarts.length_eq]
    exact hspec.distinct_messages
  · have hsequences : ((messagesOf (envelopeAt sha256 source_id spec source starts)).map
        fun message => integerAt truncate message "sequence").Nodup := by
      rw [messagesOf_envelopeAt, List.map_map]
      refine (congrArg List.Nodup (sequences_builtAt 0 none (spec.messages.zip starts))).mpr ?_
      exact List.Nodup.map Nat.cast_injective (List.nodup_range' 1)
    rw [if_pos hsequences]
    refine bind_eq_ok.mpr ⟨(), forM_ok_iff.mpr fun message hmessage => ?_, ?_⟩
    · exact validateMessage_envelopeAt hspec hdistinct hstarts.length_eq hmessage
    · exact validateStatus_envelopeAt

end Provenance

end SharedChat

end FossilCore
