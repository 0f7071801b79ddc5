import FossilCore.Base.Patterns
import FossilCore.Conversation.Reconstruction

/-!
# The order of the markers

The spans of a reconstruction follow one another in the order of its messages exactly when the
first occurrences of the markers do, wherever else the markers may stand.
-/

namespace FossilCore

open Base

namespace SharedChat

open ConversationStore

/-! ## Positions -/

/-- At these positions the markers do not overlap, and stand in the order of the messages. -/
def InOrder (ms : List MessageSpec) (starts : List ℕ) : Prop :=
  (ms.zip starts).Pairwise fun p q => stopOf p ≤ q.2

/-- The markers can be found one after the other. -/
def Successive (data : ByteArray) (ms : List MessageSpec) : Prop :=
  ∃ starts, List.Forall₂ (fun m i => OccursAt data m.marker.toUTF8 i) ms starts ∧ InOrder ms starts

/-- The first occurrences of the markers come one after the other. -/
def FirstsSuccessive (data : ByteArray) (ms : List MessageSpec) : Prop :=
  ∃ starts, List.Forall₂ (FirstAt data) ms starts ∧ InOrder ms starts

variable {data : ByteArray} {ms : List MessageSpec} {starts : List ℕ}

theorem exists_firstAt {m : MessageSpec} {i : ℕ} (h : OccursAt data m.marker.toUTF8 i) :
    ∃ start, FirstAt data m start := by
  have hex : ∃ i, OccursAt data m.marker.toUTF8 i := ⟨i, h⟩
  exact ⟨Nat.find hex, Nat.find_spec hex, fun j hj => Nat.find_min' hex hj⟩

theorem exists_firsts
    (h : List.Forall₂ (fun m i => OccursAt data m.marker.toUTF8 i) ms starts) :
    ∃ firsts, List.Forall₂ (FirstAt data) ms firsts := by
  induction h with
  | nil => exact ⟨[], .nil⟩
  | cons hm _ ih =>
      obtain ⟨start, hstart⟩ := exists_firstAt hm
      obtain ⟨firsts, hfirsts⟩ := ih
      exact ⟨start :: firsts, .cons hstart hfirsts⟩

/-! ## The spans of the messages -/

/-- The span that a message refers to starts and stops here. -/
def HasSpan (truncate : FloatText → ℤ) (envelope message : Json) (bounds : ℤ × ℤ) : Prop :=
  ∃ span ∈ spansOf envelope, spanRefsOf message = [strAt span "span_id"] ∧
    bounds = (integerAt truncate span "byte_start", integerAt truncate span "byte_end")

/-- The spans of the messages increase and do not overlap, in the order of the messages. -/
def SpansFollow (truncate : FloatText → ℤ) (envelope : Json) : Prop :=
  ∃ bounds, List.Forall₂ (HasSpan truncate envelope) (messagesOf envelope) bounds ∧
    bounds.Pairwise fun s t => s.1 < t.1 ∧ s.2 ≤ t.1

section Bounds

variable {sha256 : Sha256} {truncate : FloatText → ℤ} {source_id : String} {spec : Spec}
  {source : Json}

def boundsOf (p : MessageSpec × ℕ) : ℤ × ℤ := (p.2, stopOf p)

theorem hasSpan_unique {envelope : Json}
    (hids : ((spansOf envelope).map (strAt · "span_id")).Nodup) :
    Relator.RightUnique (HasSpan truncate envelope) := by
  rintro message s t ⟨span, hspan, hrefs, rfl⟩ ⟨span', hspan', hrefs', rfl⟩
  have hid := List.singleton_inj.mp (hrefs.symm.trans hrefs')
  rw [List.inj_on_of_nodup_map hids hspan hspan' hid]

theorem hasSpan_builtFor {p : MessageSpec × ℕ} (hp : p ∈ spec.messages.zip starts) (n : ℕ)
    (parent : Option String) :
    HasSpan truncate (envelopeAt sha256 source_id spec source starts)
      (builtFor sha256 source_id n parent p).message (boundsOf p) := by
  obtain ⟨hid, -, hstart, hstop, -⟩ :=
    @get?_spanAt sha256 source_id "reconstructed" p.2 (stopOf p)
  refine ⟨_, mem_spans_iff.mpr ⟨p, hp, rfl⟩, ?_, ?_⟩
  · obtain ⟨-, -, -, -, hrefs⟩ := get?_messageFor p.1.message_id n parent p.1.role p.1.actor_id
      p.1.marker (.str (placedSpanId sha256 source_id p))
    rw [spanRefsOf, itemsAt, builtFor, hrefs, strAt_of_get? hid]
    rfl
  · rw [integerAt_int hstart, integerAt_int hstop]
    rfl

theorem forall₂_hasSpan {placed : List (MessageSpec × ℕ)}
    (hplaced : ∀ p ∈ placed, p ∈ spec.messages.zip starts) (n : ℕ) (parent : Option String) :
    List.Forall₂ (HasSpan truncate (envelopeAt sha256 source_id spec source starts))
      ((builtAt sha256 source_id n parent placed).map Built.message) (placed.map boundsOf) := by
  induction placed generalizing n parent with
  | nil => exact .nil
  | cons p placed ih =>
      exact .cons (hasSpan_builtFor (hplaced p List.mem_cons_self) n parent)
        (ih (fun q hq => hplaced q (List.mem_cons_of_mem p hq)) (n + 1) (some p.1.message_id))

/-- With distinct spans, the spans of an envelope follow one another where its markers do. -/
theorem spansFollow_envelopeAt_iff (hspec : spec.Conforms)
    (hdistinct : DistinctSpans sha256 source_id spec starts) :
    SpansFollow truncate (envelopeAt sha256 source_id spec source starts) ↔
      InOrder spec.messages starts := by
  have hbounds : List.Forall₂ (HasSpan truncate (envelopeAt sha256 source_id spec source starts))
      (messagesOf (envelopeAt sha256 source_id spec source starts))
      ((spec.messages.zip starts).map boundsOf) := by
    rw [messagesOf_envelopeAt]
    exact forall₂_hasSpan (fun p hp => hp) 0 none
  rw [InOrder]
  constructor
  · rintro ⟨bounds, hspans, hfollow⟩
    have heq := (hasSpan_unique (hdistinct.span_ids source)).forall₂ hspans hbounds
    rw [heq, List.pairwise_map] at hfollow
    exact hfollow.imp fun h => Int.ofNat_le.mp h.2
  · intro horder
    refine ⟨_, hbounds, List.pairwise_map.mpr (horder.imp_of_mem ?_)⟩
    intro p q hp _ hle
    have hlt := lt_stopOf hspec hp
    simp only [boundsOf]
    omega

end Bounds

/-! ## Span ids -/

/-- The text that the id of a span is the digest of. -/
def spanText (source_id : String) (p : MessageSpec × ℕ) : String :=
  Text.join "\x1f" [source_id, toString p.2, toString (stopOf p), "reconstructed"]

theorem toString_nat_inj {m n : ℕ} (h : toString m = toString n) : m = n := by
  have hdigits := congrArg (fun s => Nat.ofDigitChars 10 s.toList 0) h
  simpa only [Nat.toString_eq_repr, Nat.toList_repr, Nat.ofDigitChars_ten_toDigits] using hdigits

theorem spanText_start {source_id : String} {p q : MessageSpec × ℕ}
    (h : spanText source_id p = spanText source_id q) : p.2 = q.2 := by
  have hsep : ∀ n : ℕ, '\x1f' ∉ (toString n).toList := by
    intro n hmem
    exact absurd (Pattern.isDigit_of_mem_toString hmem) (by decide)
  rw [spanText, spanText, Text.join_cons_cancel, Text.join_cons_inj rfl (hsep _) (hsep _)] at h
  exact toString_nat_inj h.1

theorem placedSpanId_start {sha256 : Sha256} {source_id : String} {p q : MessageSpec × ℕ}
    (hseparates : sha256.Separates 20 (spanText source_id p) (spanText source_id q))
    (h : placedSpanId sha256 source_id p = placedSpanId sha256 source_id q) : p.2 = q.2 := by
  apply spanText_start
  apply hseparates
  have htext := congrArg String.toList h
  simp only [placedSpanId, spanId, _stable_id, String.toList_append, List.append_cancel_left_eq]
    at htext
  exact String.toList_inj.mp htext

/-- The digest tells the spans of the markers' first occurrences apart. -/
def SeparatesSpans (sha256 : Sha256) (source_id : String) (data : ByteArray)
    (ms : List MessageSpec) : Prop :=
  ∀ p q : MessageSpec × ℕ, p.1 ∈ ms → q.1 ∈ ms → FirstAt data p.1 p.2 → FirstAt data q.1 q.2 →
    sha256.Separates 20 (spanText source_id p) (spanText source_id q)

theorem distinctSpans_of_inOrder {sha256 : Sha256} {source_id : String} {spec : Spec}
    (hspec : spec.Conforms) (hseparates : SeparatesSpans sha256 source_id data spec.messages)
    (hstarts : List.Forall₂ (FirstAt data) spec.messages starts)
    (horder : InOrder spec.messages starts) : DistinctSpans sha256 source_id spec starts := by
  rw [DistinctSpans, List.Nodup, List.pairwise_map]
  refine List.Pairwise.imp_of_mem ?_ horder
  intro p q hp hq hle hid
  have hlt := lt_stopOf hspec hp
  have hsame := placedSpanId_start (hseparates p q (List.of_mem_zip (show (p.1, p.2) ∈ _ from hp)).1
    (List.of_mem_zip (show (q.1, q.2) ∈ _ from hq)).1 (List.forall₂_zip hstarts hp)
    (List.forall₂_zip hstarts hq)) hid
  omega

/-! ## The source -/

section Source

variable {sha256 : Sha256} {truncate : FloatText → ℤ} {formats : FormatChecker}
  {call : AddSource}

def sourceIdOf (sha256 : Sha256) (call : AddSource) : String :=
  "src" ++ "_" ++ Text.take (sha256.hexdigest (sourceText sha256 call).toUTF8) 20

/-- The store has the bytes of the call under their id. -/
def HasBytes (sha256 : Sha256) (artifacts : Files) (data : ByteArray) : Prop :=
  ∃ l media_type, (ArtifactLedger.model sha256).StoredAs ArtifactStore.layout l artifacts ∧
    l.Has sha256 data media_type

theorem stored_sourceWith {artifacts : Files} (h : HasBytes sha256 artifacts call.data)
    (hstatus : call.evidence_status = "reconstructed") :
    Stored artifacts (sourceWith sha256 call) (sourceIdOf sha256 call) (artifactIdOf sha256 call)
      call.data := by
  obtain ⟨l, media_type, hstored, hhas⟩ := h
  obtain ⟨hartifact, hevidence, -⟩ := get?_sourceWith sha256 call
  refine ⟨⟨?_, hartifact, _, hevidence⟩, by rw [hevidence, hstatus], ?_⟩
  · rw [sourceWith, Json.get?_ofMembers]
    rfl
  · exact (artifactBytes_eq_ok hstored (sha256.digest call.data).artifactId).mpr hhas.read_bytes

theorem verify_sourceWith {artifacts : Files} (h : HasBytes sha256 artifacts call.data) :
    ∃ verified, verifyArtifact sha256 artifacts (artifactIdOf sha256 call) = .ok verified := by
  obtain ⟨l, media_type, hstored, hhas⟩ := h
  obtain ⟨x, hrun, hsame⟩ := ArtifactStore.run_verify hstored.valid hstored.holds
    (sha256.digest call.data).artifactId
  have hverify := hhas.verify
  rw [show artifact_id_for_digest (sha256.hexdigest call.data) =
    (sha256.digest call.data).artifactId.text from rfl] at hverify
  rw [hverify] at hsame
  refine ⟨true, ?_⟩
  rw [verifyArtifact, show artifactIdOf sha256 call = (sha256.digest call.data).artifactId.text
    from rfl, hrun]
  exact hsame.ok_right

theorem isPrefixedId_sourceIdOf : Schema.isPrefixedId "src_" 8 (sourceIdOf sha256 call) = true := by
  refine Schema.isPrefixedId_iff.mpr
    ⟨(sha256.hexdigest (sourceText sha256 call).toUTF8).toList.take 20, [], ?_, ?_, ?_, Or.inl rfl⟩
  · simp [sourceIdOf, String.toList_append, Text.toList_take]
  · rw [List.length_take, sha256.length_hexdigest]
    decide
  · intro c hc
    exact isWordChar_of_isHexChar (sha256.isHexChar_hexdigest _ c (List.mem_of_mem_take hc))

theorem sourceSchema_sourceWith (hstatus : call.evidence_status = "reconstructed") :
    sourceSchema (sourceWith sha256 call) = true := by
  refine (Schema.closedObject_full [("source_id", .str (sourceIdOf sha256 call), prefixedId "src_" 8),
    ("artifact_id", .str (artifactIdOf sha256 call), prefixedId "art_" 16),
    ("evidence_status", .str call.evidence_status, evidenceStatusSchema),
    ("label", .str call.label, Schema.type [.string]),
    ("media_type", .str call.media_type, Schema.type [.string]),
    ("external_ref", SourceSnapshotStore.optionalText call.external_ref, nullableString)]
    (by simp) (by simp)).mpr ?_
  have hartifact : Schema.isPrefixedId "art_" 16 (artifactIdOf sha256 call) = true :=
    (sha256.digest call.data).artifactId.ok
  have htext : ∀ s, Schema.type [.string] (.str s) = true := fun s => rfl
  have hevidence : evidenceStatusSchema (.str "reconstructed") = true := by decide
  simp only [List.forall_mem_cons, List.not_mem_nil, false_implies, implies_true, and_true,
    prefixedId_iff, isPrefixedId_sourceIdOf, hartifact, hstatus, hevidence, htext,
    nullableString_optional]

/-! ## Building an envelope -/

variable {surroundings : Surroundings} {v : Json} {given : Option Json}
  {files files' : ConversationFiles} {spec : Spec}

/-- The source is opened as the one that this call describes, and the store has its bytes. -/
structure Opens (sha256 : Sha256) (surroundings : Surroundings) (v : Json) (given : Option Json)
    (files files' : ConversationFiles) (call : AddSource) : Prop where
  opened : openSource sha256 surroundings v given files = (.ok (sourceWith sha256 call), files')
  reconstructed : call.evidence_status = "reconstructed"
  stored : HasBytes sha256 files'.artifacts call.data

/-- No other conversation has the id of the spec. -/
def NoConflict (sha256 : Sha256) (files : ConversationFiles) (call : AddSource) (spec : Spec) :
    Prop :=
  ∀ starts, List.Forall₂ (FirstAt call.data) spec.messages starts → ∀ bytes,
    files.conversations[_path spec.conversation_id]? = some bytes →
      bytes = (envelopeAt sha256 (sourceIdOf sha256 call) spec (sourceWith sha256 call)
        starts).canonical

/-- The call succeeds, and the spans of its messages follow one another. -/
def Follows (sha256 : Sha256) (truncate : FloatText → ℤ) (formats : FormatChecker)
    (surroundings : Surroundings) (v : Json) (given : Option Json) (files : ConversationFiles) :
    Prop :=
  ∃ envelope message_by_index,
    (_build_envelope sha256 truncate formats surroundings v given files).1 =
      .ok (envelope, message_by_index) ∧ SpansFollow truncate envelope

theorem wf_sourceWith (sha256 : Sha256) (call : AddSource) : (sourceWith sha256 call).WF := by
  apply Json.wf_ofMembers
  simp [Json.wf_str, SourceSnapshotStore.wf_optionalText]

theorem wf_builtFor (sha256 : Sha256) (source_id : String) (n : ℕ) (parent : Option String)
    (p : MessageSpec × ℕ) :
    (builtFor sha256 source_id n parent p).span.WF ∧
      (builtFor sha256 source_id n parent p).message.WF := by
  constructor
  · apply Json.wf_ofMembers
    simp [Json.wf_str, Json.wf_int]
  · apply Json.wf_ofMembers
    have hactor : (_actor p.1.role p.1.actor_id).WF := by
      apply Json.wf_ofMembers
      by_cases hrole : p.1.role = "assistant" <;> simp [Json.wf_str, Json.wf_null, hrole]
    simp [Json.wf_str, Json.wf_int, Json.wf_null, Json.wf_arr_iff,
      SourceSnapshotStore.wf_optionalText, hactor]

theorem wf_envelopeAt {source : Json} (hsource : source.WF) (sha256 : Sha256) (source_id : String)
    (spec : Spec) (starts : List ℕ) : (envelopeAt sha256 source_id spec source starts).WF := by
  have hbuilt : ∀ b ∈ builtAt sha256 source_id 0 none (spec.messages.zip starts),
      b.span.WF ∧ b.message.WF := by
    intro b hb
    obtain ⟨p, -, n, parent, -, rfl, -⟩ := mem_builtAt 0 none hb
    exact wf_builtFor sha256 source_id n parent p
  apply Json.wf_ofMembers
  simp only [List.forall_mem_cons, List.not_mem_nil, false_implies, implies_true, and_true]
  refine ⟨Json.wf_str _, Json.wf_str _, Json.wf_str _, Json.wf_str _, wf_strings _, ?_, ?_, ?_⟩
  · rw [Json.wf_arr_iff, List.forall_mem_singleton]
    exact hsource
  · rw [Json.wf_arr_iff, List.forall_mem_map]
    exact fun b hb => (hbuilt b hb).1
  · rw [Json.wf_arr_iff, List.forall_mem_map]
    exact fun b hb => (hbuilt b hb).2

/-- What a call does once its source is open and its markers are found. -/
theorem build_envelope_eq (hopens : Opens sha256 surroundings v given files files' call)
    (hsaid : spec.SaidBy v) {starts : List ℕ}
    (hstarts : List.Forall₂ (FirstAt call.data) spec.messages starts) :
    (_build_envelope sha256 truncate formats surroundings v given files).1 =
      (commit sha256 truncate formats (envelopeAt sha256 (sourceIdOf sha256 call) spec
        (sourceWith sha256 call) starts) surroundings.uuid files').1.map fun envelope =>
          (envelope, (builtAt sha256 (sourceIdOf sha256 call) 0 none
            (spec.messages.zip starts)).map Built.index) := by
  have hstored := stored_sourceWith hopens.stored hopens.reconstructed
  rw [_build_envelope, hopens.opened]
  dsimp only
  rw [(envelopeFor_ok hstored hsaid).mpr ⟨starts, hstarts, rfl, rfl⟩]

theorem follows_of_firsts (hopens : Opens sha256 surroundings v given files files' call)
    (hwell : AllWellFormed truncate formats files') (hsaid : spec.SaidBy v)
    (hspec : spec.Conforms) (hfree : NoConflict sha256 files' call spec)
    (hseparates : SeparatesSpans sha256 (sourceIdOf sha256 call) call.data spec.messages)
    (hfirsts : FirstsSuccessive call.data spec.messages) :
    Follows sha256 truncate formats surroundings v given files := by
  obtain ⟨starts, hstarts, horder⟩ := hfirsts
  have hdistinct := distinctSpans_of_inOrder hspec hseparates hstarts horder
  have hstored := stored_sourceWith hopens.stored hopens.reconstructed
  let envelope := envelopeAt sha256 (sourceIdOf sha256 call) spec (sourceWith sha256 call) starts
  have hschema : conversationSchema formats envelope = true :=
    conversationSchema_envelopeAt hspec (sourceSchema_sourceWith hopens.reconstructed) hstarts
  have hvalid : _validate_provenance sha256 truncate files'.artifacts envelope = .ok () :=
    validate_envelopeAt hspec hstored (verify_sourceWith hopens.stored) hdistinct hstarts
  have hwf : envelope.WF := wf_envelopeAt (wf_sourceWith sha256 call) sha256 _ spec starts
  have hid : strAt envelope "conversation_id" = spec.conversation_id :=
    conversation_id_envelopeAt _ _ _ _ _
  have hcommit : (commit sha256 truncate formats envelope surroundings.uuid files').1 =
      .ok envelope := by
    rw [commit, validateSchema_ok.mpr hschema]
    simp only [hvalid, run_publishEnvelope hwell hwf]
    cases hstored_as : files'.conversations[_path (strAt envelope "conversation_id")]? with
    | none => rfl
    | some bytes =>
        rw [hid] at hstored_as
        exact if_pos (hfree starts hstarts bytes hstored_as)
  refine ⟨envelope, (builtAt sha256 (sourceIdOf sha256 call) 0 none
    (spec.messages.zip starts)).map Built.index, ?_,
    (spansFollow_envelopeAt_iff hspec hdistinct).mpr horder⟩
  rw [build_envelope_eq hopens hsaid hstarts, hcommit]
  rfl

theorem firsts_of_follows (hopens : Opens sha256 surroundings v given files files' call)
    (hsaid : spec.SaidBy v) (hspec : spec.Conforms)
    (hsuccessive : Successive call.data spec.messages)
    (hfollows : Follows sha256 truncate formats surroundings v given files) :
    FirstsSuccessive call.data spec.messages := by
  obtain ⟨positions, hoccurs, -⟩ := hsuccessive
  obtain ⟨starts, hstarts⟩ := exists_firsts hoccurs
  obtain ⟨envelope, message_by_index, hbuilt, hspans⟩ := hfollows
  rw [build_envelope_eq hopens hsaid hstarts] at hbuilt
  cases hcommit : (commit sha256 truncate formats (envelopeAt sha256 (sourceIdOf sha256 call) spec
      (sourceWith sha256 call) starts) surroundings.uuid files').1 with
  | error e =>
      rw [hcommit] at hbuilt
      cases hbuilt
  | ok committed =>
      rw [hcommit] at hbuilt
      cases hbuilt
      obtain ⟨rfl, -, hvalid⟩ :=
        commit_accepted (wf_envelopeAt (wf_sourceWith sha256 call) sha256 _ spec starts) hcommit
      have hdistinct := (wellFormed_of_validate hvalid).span_ids
      rw [span_ids_envelopeAt] at hdistinct
      exact ⟨starts, hstarts, (spansFollow_envelopeAt_iff hspec hdistinct).mp hspans⟩

/-- A spec whose markers can be found one after the other gives an envelope whose spans follow one
another exactly when already the first occurrences of its markers do: every marker is searched for
from the beginning of the text. -/
theorem build_envelope_follows_iff
    (hopens : Opens sha256 surroundings v given files files' call)
    (hwell : AllWellFormed truncate formats files') (hsaid : spec.SaidBy v)
    (hspec : spec.Conforms) (hfree : NoConflict sha256 files' call spec)
    (hseparates : SeparatesSpans sha256 (sourceIdOf sha256 call) call.data spec.messages) :
    (Successive call.data spec.messages →
        Follows sha256 truncate formats surroundings v given files) ↔
      (Successive call.data spec.messages → FirstsSuccessive call.data spec.messages) := by
  constructor
  · intro hfollows hsuccessive
    exact firsts_of_follows hopens hsaid hspec hsuccessive (hfollows hsuccessive)
  · intro hfirsts hsuccessive
    exact follows_of_firsts hopens hwell hsaid hspec hfree hseparates (hfirsts hsuccessive)

/-- What `add_source` puts into a store can be searched. -/
theorem opens_add_source {l : ArtifactLedger} {source : Json}
    (hstored : (ArtifactLedger.model sha256).StoredAs ArtifactStore.layout l files.artifacts)
    (hcall : sourceCall surroundings v = .ok call) (hstatus : call.evidence_status = "reconstructed")
    (hsource : (add_source sha256 call files).1 = .ok source) :
    Opens sha256 surroundings v none files (add_source sha256 call files).2 call := by
  obtain ⟨-, rfl, manifest, artifacts, hrun⟩ := add_source_ok hsource
  obtain ⟨hsame, -⟩ := ArtifactStore.run_put_bytes hstored.valid hstored.holds call.data
    call.media_type call.blob_uuid call.manifest_uuid
  rw [hrun] at hsame
  obtain ⟨-, hhas⟩ := ArtifactLedger.put_bytes_ok hsame.ok_left
  obtain ⟨hstored', -⟩ := stillRead_put_bytes hstored call.data call.media_type call.blob_uuid
    call.manifest_uuid
  have hartifacts : (add_source sha256 call files).2.artifacts =
      ((ArtifactStore.put_bytes sha256 call.data call.media_type call.blob_uuid
        call.manifest_uuid).run fsStep files.artifacts).2 := by
    rw [add_source, if_neg (by rw [hstatus]; simp)]
  refine ⟨?_, hstatus, _, call.media_type, ?_, hhas⟩
  · rw [openSource, hcall]
    exact Prod.ext hsource rfl
  · rw [hartifacts]
    exact hstored'

end Source

/-! ## Two messages of a chat -/

section Sample

def chatSpec (first second : String) : Spec where
  conversation_id := "conv_0123456789ab"
  title := "chat"
  reconstruction_basis_refs := []
  messages := [⟨"msg_00000001", "human", "reader", first⟩,
    ⟨"msg_00000002", "assistant", "model", second⟩]

def messageJson (m : MessageSpec) : Json :=
  .ofMembers [("message_id", .str m.message_id), ("role", .str m.role),
    ("actor_id", .str m.actor_id), ("marker", .str m.marker)]

def specJson (spec : Spec) : Json :=
  .ofMembers [("conversation_id", .str spec.conversation_id), ("title", .str spec.title),
    ("source_path", .str "chat.md"), ("source_label", .str "chat"), ("external_ref", .null),
    ("reconstruction_basis_refs", strings spec.reconstruction_basis_refs),
    ("messages", .arr (spec.messages.map messageJson))]

theorem saidBy_specJson (spec : Spec) : spec.SaidBy (specJson spec) := by
  have hspoken : ∀ m, Says (messageJson m) m := by
    intro m
    constructor <;> rw [messageJson, Json.get?_ofMembers] <;> rfl
  constructor
  · rw [specJson, Json.get?_ofMembers]
    rfl
  · rw [specJson, Json.get?_ofMembers]
    rfl
  · rw [specJson, Json.get?_ofMembers]
    rfl
  · refine ⟨spec.messages.map messageJson, ?_, ?_⟩
    · rw [specJson, Json.get?_ofMembers]
      rfl
    · rw [List.forall₂_map_left_iff, List.forall₂_same]
      exact fun m _ => hspoken m

theorem conforms_chatSpec {first second : String} (hfirst : first ≠ "") (hsecond : second ≠ "") :
    (chatSpec first second).Conforms where
  conversation_id := by
    dsimp only [chatSpec]
    decide +kernel
  distinct_refs := List.nodup_nil
  refs := List.not_mem_nil
  messages := List.cons_ne_nil _ _
  distinct_messages := by
    simp [chatSpec]
  conforms m hm := by
    simp only [chatSpec, List.mem_cons, List.not_mem_nil, or_false] at hm
    have hids : ∀ id ∈ ["msg_00000001", "msg_00000002"], Schema.isPrefixedId "msg_" 8 id = true := by
      decide +kernel
    rcases hm with rfl | rfl
    · exact ⟨hids _ (by simp), by simp, by simp, hfirst⟩
    · exact ⟨hids _ (by simp), by simp, by simp, hsecond⟩

def chatSurroundings (text : String) : Surroundings where
  read_bytes _ := .ok text.toUTF8
  blob_uuid := "u1"
  manifest_uuid := "u2"
  uuid := "u3"

def chatCall (text : String) : AddSource where
  data := text.toUTF8
  evidence_status := "reconstructed"
  media_type := "text/markdown"
  label := "chat"
  external_ref := none
  blob_uuid := "u1"
  manifest_uuid := "u2"

theorem sourceCall_chat (text : String) (spec : Spec) :
    sourceCall (chatSurroundings text) (specJson spec) = .ok (chatCall text) := by
  have hget : ∀ {key w}, (specJson spec).get? key = some w →
      liftPy ((specJson spec).getItem key) = .ok w :=
    fun hkey => liftPy_eq_ok.mpr (Json.getItem_of_get? hkey)
  have hpath : (specJson spec).get? "source_path" = some (.str "chat.md") := by
    rw [specJson, Json.get?_ofMembers]
    rfl
  have hlabel : (specJson spec).get? "source_label" = some (.str "chat") := by
    rw [specJson, Json.get?_ofMembers]
    rfl
  have href : (specJson spec).get? "external_ref" = some .null := by
    rw [specJson, Json.get?_ofMembers]
    rfl
  rw [sourceCall, hget hpath, textItem, hget hlabel, optionalItem, hget href]
  rfl

theorem opens_chat (text : String) (spec : Spec) :
    Opens .hashlib (chatSurroundings text) (specJson spec) none ⟨∅, ∅⟩
      (add_source .hashlib (chatCall text) ⟨∅, ∅⟩).2 (chatCall text) :=
  opens_add_source (storedAs_emptyArtifacts .hashlib) (sourceCall_chat text spec) rfl
    (add_source_empty (by simp [chatCall, sourceStatuses]))

theorem conversations_chat (text : String) (path : Path) :
    (add_source .hashlib (chatCall text) ⟨∅, ∅⟩).2.conversations[path]? = none := by
  rw [add_source, if_neg (by simp [chatCall])]
  simp

theorem firstAt_of_findBytes {m : MessageSpec} {start : ℕ}
    (h : findBytes data m.marker.toUTF8 0 = some start) : FirstAt data m start := by
  have hleast := findBytes_eq_some.mp h
  rwa [behind_zero] at hleast

theorem allWellFormed_chat (text : String) :
    AllWellFormed (fun _ => 0) StoreConfig.plain.formats
      (add_source .hashlib (chatCall text) ⟨∅, ∅⟩).2 := by
  intro path bytes hbytes
  rw [conversations_chat] at hbytes
  cases hbytes

theorem noConflict_chat (text : String) (spec : Spec) :
    NoConflict .hashlib (add_source .hashlib (chatCall text) ⟨∅, ∅⟩).2 (chatCall text) spec := by
  intro starts _ bytes hbytes
  rw [conversations_chat] at hbytes
  cases hbytes

/-- The digest tells two spans apart when it tells the first occurrences of two markers apart. -/
theorem separatesSpans_chat {text first second source_id : String} {i j : ℕ}
    (hfirst : findBytes text.toUTF8 first.toUTF8 0 = some i)
    (hsecond : findBytes text.toUTF8 second.toUTF8 0 = some j)
    (hseparates : ∀ s t, s = spanText source_id (⟨"", "", "", first⟩, i) →
      t = spanText source_id (⟨"", "", "", second⟩, j) →
        Sha256.hashlib.Separates 20 s t ∧ Sha256.hashlib.Separates 20 t s) :
    SeparatesSpans .hashlib source_id text.toUTF8 (chatSpec first second).messages := by
  have hsame : ∀ s, Sha256.hashlib.Separates 20 s s := fun s _ => rfl
  have hmark : ∀ p : MessageSpec × ℕ, p.1 ∈ (chatSpec first second).messages →
      FirstAt text.toUTF8 p.1 p.2 →
        spanText source_id p = spanText source_id (⟨"", "", "", first⟩, i) ∨
          spanText source_id p = spanText source_id (⟨"", "", "", second⟩, j) := by
    rintro ⟨m, start⟩ hm hstart
    simp only [chatSpec, List.mem_cons, List.not_mem_nil, or_false] at hm
    rcases hm with rfl | rfl
    · obtain rfl : start = i := hstart.unique (firstAt_of_findBytes hfirst)
      exact Or.inl rfl
    · obtain rfl : start = j := hstart.unique (firstAt_of_findBytes hsecond)
      exact Or.inr rfl
  intro p q hp hq hpstart hqstart
  rcases hmark p hp hpstart with hp | hp <;> rcases hmark q hq hqstart with hq | hq <;> rw [hp, hq]
  · exact hsame _
  · exact (hseparates _ _ rfl rfl).1
  · exact (hseparates _ _ rfl rfl).2
  · exact hsame _

theorem build_envelope_follows_iff_chat :
    (Successive "hello world".toUTF8 (chatSpec "hello" "world").messages →
        Follows .hashlib (fun _ => 0) StoreConfig.plain.formats (chatSurroundings "hello world")
          (specJson (chatSpec "hello" "world")) none ⟨∅, ∅⟩) ↔
      (Successive "hello world".toUTF8 (chatSpec "hello" "world").messages →
        FirstsSuccessive "hello world".toUTF8 (chatSpec "hello" "world").messages) := by
  have hfirst : findBytes "hello world".toUTF8 "hello".toUTF8 0 = some 0 := by decide +kernel
  have hsecond : findBytes "hello world".toUTF8 "world".toUTF8 0 = some 6 := by decide +kernel
  refine build_envelope_follows_iff (opens_chat "hello world" (chatSpec "hello" "world"))
    (allWellFormed_chat _) (saidBy_specJson _) (conforms_chatSpec (by decide) (by decide))
    (noConflict_chat _ _) (separatesSpans_chat hfirst hsecond ?_)
  rintro s t rfl rfl
  constructor
  · exact fun h => absurd h (by decide +kernel)
  · exact fun h => absurd h (by decide +kernel)

/-- Two messages with the same marker, which stands in the text twice. -/
theorem repeated_marker_refused :
    ¬ ∀ (sha256 : Sha256) (truncate : FloatText → ℤ) (formats : FormatChecker)
      (surroundings : Surroundings) (v : Json) (given : Option Json)
      (files files' : ConversationFiles) (call : AddSource) (spec : Spec),
      Opens sha256 surroundings v given files files' call →
      AllWellFormed truncate formats files' → spec.SaidBy v → spec.Conforms →
      NoConflict sha256 files' call spec →
      SeparatesSpans sha256 (sourceIdOf sha256 call) call.data spec.messages →
      Successive call.data spec.messages →
        Follows sha256 truncate formats surroundings v given files := by
  intro h
  have hspec : (chatSpec "hi" "hi").Conforms := conforms_chatSpec (by decide) (by decide)
  have hfind : findBytes "hi hi".toUTF8 "hi".toUTF8 0 = some 0 := by decide +kernel
  have hsuccessive : Successive "hi hi".toUTF8 (chatSpec "hi" "hi").messages :=
    ⟨[0, 3], .cons (by decide +kernel) (.cons (by decide +kernel) .nil),
      List.pairwise_pair.mpr (by decide +kernel)⟩
  have hfollows := h .hashlib (fun _ => 0) StoreConfig.plain.formats (chatSurroundings "hi hi")
    (specJson (chatSpec "hi" "hi")) none ⟨∅, ∅⟩ _ (chatCall "hi hi") (chatSpec "hi" "hi")
    (opens_chat _ _) (allWellFormed_chat _) (saidBy_specJson _) hspec (noConflict_chat _ _)
    (separatesSpans_chat hfind hfind fun s t hs ht => by rw [hs, ht]; exact ⟨fun _ => rfl, fun _ => rfl⟩)
    hsuccessive
  obtain ⟨starts, hstarts, horder⟩ :=
    firsts_of_follows (opens_chat "hi hi" (chatSpec "hi" "hi")) (saidBy_specJson _) hspec hsuccessive
      hfollows
  obtain ⟨start, rest, hstart, hrest, rfl⟩ := List.forall₂_cons_left_iff.mp hstarts
  obtain ⟨next, rest, hnext, -, rfl⟩ := List.forall₂_cons_left_iff.mp hrest
  obtain rfl : start = 0 := hstart.unique (firstAt_of_findBytes hfind)
  obtain rfl : next = 0 := hnext.unique (firstAt_of_findBytes hfind)
  have hle := List.rel_of_pairwise_cons horder List.mem_cons_self
  exact absurd hle (by decide +kernel)

end Sample

end SharedChat

end FossilCore
