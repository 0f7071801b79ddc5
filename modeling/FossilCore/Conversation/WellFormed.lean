import FossilCore.Base.Checks
import FossilCore.Base.Forest
import FossilCore.Conversation.Store
import FossilCore.Store.ArtifactGrowth

/-!
# Well-formed conversations

What the provenance check establishes about an envelope over the artifacts it was made for, and
that it stays so whatever is stored later.
-/

namespace FossilCore

open Base

namespace ConversationStore

/-! ## The shape of an envelope -/

section Shape

variable {formats : FormatChecker} {envelope : Json}

theorem item_of_mem (h : conversationSchema formats envelope = true) {key : String} {item : Schema}
    (hkey : key ∈ conversationRequired)
    (hmember : (key, Schema.allOf [Schema.type [.array], Schema.minItems 1, Schema.items item]) ∈
      conversationProperties formats) {v : Json} (hv : v ∈ itemsAt envelope key) :
    item v = true := by
  obtain ⟨w, hget, hw⟩ := Schema.member_of_object h _ _ hkey hmember
  obtain ⟨xs, rfl, hall⟩ := Schema.arr_of_items hw
    (List.mem_cons_of_mem _ (List.mem_singleton_self (Schema.items item)))
  rw [itemsAt, hget] at hv
  exact hall v hv

theorem itemsAt_ne_nil (h : conversationSchema formats envelope = true) (key : String)
    (item : Schema) (hkey : key ∈ conversationRequired)
    (hmember : (key, Schema.allOf [Schema.type [.array], Schema.minItems 1, Schema.items item]) ∈
      conversationProperties formats) : itemsAt envelope key ≠ [] := by
  obtain ⟨w, hget, hw⟩ := Schema.member_of_object h _ _ hkey hmember
  obtain ⟨xs, rfl, -⟩ := Schema.arr_of_items hw
    (List.mem_cons_of_mem _ (List.mem_singleton_self (Schema.items item)))
  have hlen : Schema.minItems 1 (.arr xs) = true := Schema.allOf_iff.mp hw _ (by simp)
  rw [itemsAt, hget]
  rintro rfl
  exact absurd hlen (by decide)

theorem source_of_mem (h : conversationSchema formats envelope = true) {source : Json}
    (hsource : source ∈ sourcesOf envelope) : sourceSchema source = true :=
  item_of_mem h (by decide) (by simp [conversationProperties]) hsource

theorem span_of_mem (h : conversationSchema formats envelope = true) {span : Json}
    (hspan : span ∈ spansOf envelope) : spanSchema span = true :=
  item_of_mem h (by decide) (by simp [conversationProperties]) hspan

theorem message_of_mem (h : conversationSchema formats envelope = true) {message : Json}
    (hmessage : message ∈ messagesOf envelope) : messageSchema formats message = true :=
  item_of_mem h (by decide) (by simp [conversationProperties]) hmessage

theorem str_of_prefixedId {kind : String} {least : ℕ} {v : Json}
    (h : prefixedId kind least v = true) :
    ∃ s, v = .str s ∧ Schema.isPrefixedId kind least s = true := by
  obtain ⟨s, rfl, hall⟩ := Schema.str_of_strings h
  exact ⟨s, rfl, hall (Schema.pattern _) List.mem_cons_self⟩

theorem conversation_id_of_schema (h : conversationSchema formats envelope = true) :
    envelope.get? "conversation_id" = some (.str (strAt envelope "conversation_id")) ∧
      Schema.isPrefixedId "conv_" 12 (strAt envelope "conversation_id") = true := by
  obtain ⟨w, hget, hw⟩ := Schema.member_of_object h "conversation_id" (prefixedId "conv_" 12)
    (by decide) (by simp [conversationProperties])
  obtain ⟨s, rfl, hs⟩ := str_of_prefixedId hw
  rw [strAt_of_get? hget]
  exact ⟨hget, hs⟩

/-- The artifact of a source, as an id of the artifact store. -/
theorem artifact_id_of_schema {source : Json} (h : sourceSchema source = true) :
    ∃ id : ArtifactId, source.get? "artifact_id" = some (.str id.text) ∧
      strAt source "artifact_id" = id.text := by
  obtain ⟨w, hget, hw⟩ := Schema.member_of_object h "artifact_id" (prefixedId "art_" 16)
    (by decide) (by simp)
  obtain ⟨s, rfl, hs⟩ := str_of_prefixedId hw
  exact ⟨⟨s, hs⟩, hget, strAt_of_get? hget⟩

end Shape

/-! ## Well-formedness -/

/-- The span is drawn from the source. -/
structure DrawnFrom (envelope span source : Json) : Prop where
  mem : source ∈ sourcesOf envelope
  source_id : strAt source "source_id" = strAt span "source_id"

/-- The span lies within the data, and these are the bytes it cuts out. -/
structure Cuts (truncate : FloatText → ℤ) (span : Json) (data bytes : ByteArray) : Prop where
  start_nonneg : 0 ≤ integerAt truncate span "byte_start"
  start_lt : integerAt truncate span "byte_start" < integerAt truncate span "byte_end"
  stop_le : integerAt truncate span "byte_end" ≤ data.size
  bytes_eq : bytes = data.extract (integerAt truncate span "byte_start").toNat
    (integerAt truncate span "byte_end").toNat

/-- The bytes of its artifact that a span denotes. -/
def Denotes (truncate : FloatText → ℤ) (artifacts : Files) (envelope span : Json)
    (bytes : ByteArray) : Prop :=
  ∃ source data, DrawnFrom envelope span source ∧
    artifactBytes artifacts (strAt source "artifact_id") = .ok data ∧ Cuts truncate span data bytes

def IsParent (envelope parent message : Json) : Prop :=
  parent ∈ messagesOf envelope ∧ message ∈ messagesOf envelope ∧
    message.get? "parent_message_id" = some (.str (strAt parent "message_id"))

def concat (parts : List ByteArray) : ByteArray := parts.foldr (· ++ ·) ByteArray.empty

/-- The text of the message is what its spans, all verbatim, denote one after the other. -/
def VerbatimText (truncate : FloatText → ℤ) (artifacts : Files) (envelope message : Json) : Prop :=
  ∃ parts,
    List.Forall₂ (fun span_id bytes => ∃ span ∈ spansOf envelope, strAt span "span_id" = span_id ∧
      isVerbatim span = true ∧ Denotes truncate artifacts envelope span bytes)
      (spanRefsOf message) parts ∧
    (strAt message "text").toUTF8 = concat parts

structure WellFormed (truncate : FloatText → ℤ) (artifacts : Files) (envelope : Json) : Prop where
  source_ids : ((sourcesOf envelope).map fun source => strAt source "source_id").Nodup
  span_ids : ((spansOf envelope).map fun span => strAt span "span_id").Nodup
  message_ids : ((messagesOf envelope).map fun message => strAt message "message_id").Nodup
  sequences : ((messagesOf envelope).map fun message =>
    integerAt truncate message "sequence").Nodup
  parent_present : ∀ message ∈ messagesOf envelope, ∀ parent_id,
    message.get? "parent_message_id" = some (.str parent_id) →
      ∃ parent, IsParent envelope parent message
  parent_before : ∀ parent message, IsParent envelope parent message →
    integerAt truncate parent "sequence" < integerAt truncate message "sequence"
  forest : IsForest (IsParent envelope)
  spans : ∀ span ∈ spansOf envelope, ∃ bytes, Denotes truncate artifacts envelope span bytes
  verbatim_spans : ∀ span ∈ spansOf envelope, isVerbatim span = true →
    ∀ source, DrawnFrom envelope span source → strAt source "evidence_status" ≠ "reconstructed"
  verbatim_text : ∀ message ∈ messagesOf envelope, isVerbatim message = true →
    VerbatimText truncate artifacts envelope message

/-! ## The checks -/

section Checks

variable {sha256 : Sha256} {truncate : FloatText → ℤ} {formats : FormatChecker}
  {artifacts artifacts' : Files} {envelope span source message parent : Json}

theorem find?_eq_of_nodup {α : Type} {key : α → String} {xs : List α} {x : α}
    (h : (xs.map key).Nodup) (hx : x ∈ xs) {k : String} (hk : key x = k) :
    xs.find? (fun y => key y = k) = some x := by
  cases hfind : xs.find? (fun y => key y = k) with
  | none =>
      have hnone := List.find?_eq_none.mp hfind x hx
      simp [hk] at hnone
  | some y =>
      have hy : key y = k := by simpa using List.find?_some hfind
      rw [List.inj_on_of_nodup_map h (List.mem_of_find?_eq_some hfind) hx (hy.trans hk.symm)]

theorem mem_of_find? {key : String} {xs : List Json} {v : Json} {id : String}
    (h : xs.find? (fun y => strAt y key = id) = some v) : v ∈ xs ∧ strAt v key = id :=
  ⟨List.mem_of_find?_eq_some h, by simpa using List.find?_some h⟩

theorem requireDistinct_ok {ids : List String} {text : String} :
    requireDistinct ids text = .ok () ↔ ids.Nodup := by
  rw [requireDistinct]
  split_ifs with h <;> simp [h]

/-- A span that resolves is one of the envelope, and denotes what it resolves to. -/
theorem resolve_span_bytes_ok {span_id : String} {bytes : ByteArray}
    (h : resolve_span_bytes truncate artifacts envelope span_id = .ok bytes) :
    ∃ span ∈ spansOf envelope, strAt span "span_id" = span_id ∧
      Denotes truncate artifacts envelope span bytes := by
  rw [resolve_span_bytes] at h
  cases hspan : (spansOf envelope).find? fun span => strAt span "span_id" = span_id with
  | none =>
      rw [hspan] at h
      cases h
  | some span =>
      rw [hspan] at h
      obtain ⟨hmem, hid⟩ := mem_of_find? hspan
      refine ⟨span, hmem, hid, ?_⟩
      cases hsource : (sourcesOf envelope).find? fun source =>
          strAt source "source_id" = strAt span "source_id" with
      | none =>
          simp only [hsource] at h
          cases h
      | some source =>
          simp only [hsource] at h
          obtain ⟨data, hdata, hcut⟩ := bind_eq_ok.mp h
          obtain ⟨hsmem, hsid⟩ := mem_of_find? hsource
          split_ifs at hcut with hbounds
          push Not at hbounds
          obtain ⟨hstart, hlt, hstop⟩ := hbounds
          cases hcut
          exact ⟨source, data, ⟨hsmem, hsid⟩, hdata, hstart, hlt, hstop, rfl⟩

/-- With distinct ids, the span of an id resolves to what it denotes. -/
theorem denotes_of_resolve (hids : ((spansOf envelope).map fun s => strAt s "span_id").Nodup)
    (hspan : span ∈ spansOf envelope) {bytes : ByteArray}
    (h : resolve_span_bytes truncate artifacts envelope (strAt span "span_id") = .ok bytes) :
    Denotes truncate artifacts envelope span bytes := by
  obtain ⟨span', hmem, hid, hdenotes⟩ := resolve_span_bytes_ok h
  rwa [← List.inj_on_of_nodup_map hids hmem hspan hid]

theorem validateSpan_ok
    (hsources : ((sourcesOf envelope).map fun s => strAt s "source_id").Nodup)
    (hspans : ((spansOf envelope).map fun s => strAt s "span_id").Nodup)
    (hspan : span ∈ spansOf envelope)
    (h : validateSpan truncate artifacts envelope span = .ok ()) :
    (∃ bytes, Denotes truncate artifacts envelope span bytes) ∧
      (isVerbatim span = true → ∀ source, DrawnFrom envelope span source →
        strAt source "evidence_status" ≠ "reconstructed") := by
  rw [validateSpan] at h
  cases hfind : (sourcesOf envelope).find? fun source =>
      strAt source "source_id" = strAt span "source_id" with
  | none =>
      simp only [hfind] at h
      cases h
  | some source =>
      simp only [hfind] at h
      split_ifs at h with hstatus
      obtain ⟨bytes, hbytes, -⟩ := bind_eq_ok.mp h
      refine ⟨⟨bytes, denotes_of_resolve hspans hspan hbytes⟩, ?_⟩
      rintro hverbatim source' ⟨hmem, hid⟩ hreconstructed
      have hsame := find?_eq_of_nodup hsources hmem hid
      rw [hfind] at hsame
      cases hsame
      exact hstatus ⟨hreconstructed, hverbatim⟩

theorem validateParent_ok (h : validateParent truncate envelope message = .ok ())
    {parent_id : String} (hget : message.get? "parent_message_id" = some (.str parent_id)) :
    ∃ parent ∈ messagesOf envelope, strAt parent "message_id" = parent_id ∧
      integerAt truncate parent "sequence" < integerAt truncate message "sequence" := by
  rw [validateParent, hget] at h
  cases hfind : (messagesOf envelope).find? fun m => strAt m "message_id" = parent_id with
  | none =>
      simp only [hfind] at h
      cases h
  | some parent =>
      simp only [hfind] at h
      obtain ⟨hmem, hid⟩ := mem_of_find? hfind
      split_ifs at h with hlt
      exact ⟨parent, hmem, hid, not_le.mp hlt⟩

theorem referencedSpan_ok {span_id : String}
    (h : referencedSpan envelope message span_id = .ok span) :
    span ∈ spansOf envelope ∧ strAt span "span_id" = span_id := by
  rw [referencedSpan] at h
  cases hfind : (spansOf envelope).find? fun span => strAt span "span_id" = span_id with
  | none =>
      simp only [hfind] at h
      cases h
  | some found =>
      simp only [hfind] at h
      cases h
      exact mem_of_find? hfind

/-- The text of a span encodes to the bytes it denotes. -/
theorem resolve_span_text_ok {span_id text : String}
    (h : resolve_span_text truncate artifacts envelope span_id = .ok text) :
    resolve_span_bytes truncate artifacts envelope span_id = .ok text.toUTF8 := by
  obtain ⟨data, hdata, htext⟩ := bind_eq_ok.mp h
  cases hdecode : Json.decode data with
  | error e =>
      rw [hdecode] at htext
      cases htext
  | ok decoded =>
      rw [hdecode] at htext
      cases htext
      rw [hdata, Json.toUTF8_of_decode hdecode]

theorem toUTF8_join (texts : List String) :
    (Text.join "" texts).toUTF8 = concat (texts.map String.toUTF8) := by
  induction texts with
  | nil => rfl
  | cons text texts ih =>
      have hjoin : Text.join "" (text :: texts) = text ++ Text.join "" texts := by
        cases texts with
        | nil => simp [Text.join]
        | cons _ _ => simp [Text.join]
      rw [hjoin, List.map_cons, concat, List.foldr_cons, ← concat, ← ih]
      exact String.toByteArray_append

/-- What a message that passes is checked for. -/
theorem validateMessage_ok
    (hspans : ((spansOf envelope).map fun s => strAt s "span_id").Nodup)
    (h : validateMessage truncate artifacts envelope message = .ok ()) :
    validateParent truncate envelope message = .ok () ∧
      (isVerbatim message = true → VerbatimText truncate artifacts envelope message) := by
  obtain ⟨⟨⟩, hparent, hrest⟩ := bind_eq_ok.mp h
  obtain ⟨spans, hreferenced, hverbatim⟩ := bind_eq_ok.mp hrest
  refine ⟨hparent, ?_⟩
  intro hmessage
  rw [if_pos hmessage] at hverbatim
  split_ifs at hverbatim with hall
  obtain ⟨texts, htexts, htext⟩ := bind_eq_ok.mp hverbatim
  split_ifs at htext with hequal
  have hrefs : ∀ span_id ∈ spanRefsOf message, ∃ span ∈ spansOf envelope,
      strAt span "span_id" = span_id ∧ isVerbatim span = true := by
    intro span_id hid
    obtain ⟨span, hspan, hfound⟩ := exists_of_mapM_ok hreferenced span_id hid
    obtain ⟨hmem, heq⟩ := referencedSpan_ok hfound
    have hnone : ¬ (!isVerbatim span) = true := fun hfalse =>
      hall (List.any_eq_true.mpr ⟨span, hspan, hfalse⟩)
    exact ⟨span, hmem, heq, by simpa using hnone⟩
  refine ⟨texts.map String.toUTF8, ?_, ?_⟩
  · rw [List.forall₂_map_right_iff]
    refine List.Forall₂.imp ?_
      ((List.forall₂_and_left _ _).mpr ⟨hrefs, mapM_eq_ok.mp htexts⟩)
    rintro span_id text ⟨⟨span, hmem, rfl, hstatus⟩, htext⟩
    exact ⟨span, hmem, rfl, hstatus,
      denotes_of_resolve hspans hmem (resolve_span_text_ok htext)⟩
  · rw [← not_not.mp hequal, toUTF8_join]

/-- The provenance check accepts well-formed envelopes only. -/
theorem wellFormed_of_validate
    (h : _validate_provenance sha256 truncate artifacts envelope = .ok ()) :
    WellFormed truncate artifacts envelope := by
  obtain ⟨⟨⟩, hsources, h⟩ := bind_eq_ok.mp h
  obtain ⟨⟨⟩, -, h⟩ := bind_eq_ok.mp h
  obtain ⟨⟨⟩, hspans, h⟩ := bind_eq_ok.mp h
  obtain ⟨⟨⟩, hdrawn, h⟩ := bind_eq_ok.mp h
  obtain ⟨⟨⟩, hmessages, h⟩ := bind_eq_ok.mp h
  split_ifs at h with hsequences
  obtain ⟨⟨⟩, hchecked, -⟩ := bind_eq_ok.mp h
  rw [requireDistinct_ok] at hsources hspans hmessages
  have hspan := fun span hmem => validateSpan_ok hsources hspans hmem (forM_ok_iff.mp hdrawn span hmem)
  have hmessage := fun message hmem => validateMessage_ok hspans (forM_ok_iff.mp hchecked message hmem)
  have hbefore : ∀ parent message, IsParent envelope parent message →
      integerAt truncate parent "sequence" < integerAt truncate message "sequence" := by
    rintro parent message ⟨hparent, hmem, hget⟩
    obtain ⟨found, hfound, hid, hlt⟩ := validateParent_ok (hmessage message hmem).1 hget
    rwa [← List.inj_on_of_nodup_map hmessages hfound hparent hid]
  refine ⟨hsources, hspans, hmessages, hsequences, ?_, hbefore, IsForest.of_rank ?_ hbefore,
    fun span hmem => (hspan span hmem).1, fun span hmem => (hspan span hmem).2,
    fun message hmem => (hmessage message hmem).2⟩
  · intro message hmem parent_id hget
    obtain ⟨parent, hparent, rfl, -⟩ := validateParent_ok (hmessage message hmem).1 hget
    exact ⟨parent, hparent, hmem, hget⟩
  · rintro p p' message ⟨hp, -, hget⟩ ⟨hp', -, hget'⟩
    rw [hget] at hget'
    have hid : strAt p "message_id" = strAt p' "message_id" := by simpa using hget'
    exact List.inj_on_of_nodup_map hmessages hp hp' hid

end Checks

end ConversationStore

end FossilCore
