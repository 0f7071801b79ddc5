import FossilCore.Conversation.SourceIds
import FossilCore.Conversation.Spans

/-!
# Shared-chat reconstructions

`_build_envelope` of `ingest_shared_chat_reconstructions.py`: a conversation is built from a spec
whose markers are searched for in the bytes of one source.  What a file of the repository holds is
a parameter, and the label and the reference of a source are texts.
-/

namespace FossilCore

open Base

namespace SharedChat

open ConversationStore

/-! ## Building the envelope -/

def _actor (role actor_id : String) : Json :=
  .ofMembers [
    ("actor_id", .str actor_id),
    ("role", .str role),
    ("provider", if role = "assistant" then .str "ChatGPT share page" else .null),
    ("model_id", .null),
    ("run_id", .null),
    ("tool_id", .null)]

def messageFor (message_id : String) (sequence : ℕ) (previous_message_id : Option String)
    (role actor_id marker : String) (span_id : Json) : Json :=
  .ofMembers [
    ("message_id", .str message_id),
    ("sequence", .int sequence),
    ("parent_message_id", SourceSnapshotStore.optionalText previous_message_id),
    ("occurred_at", .null),
    ("actor", _actor role actor_id),
    ("evidence_status", .str "reconstructed"),
    ("text", .str marker),
    ("source_span_refs", .arr [span_id])]

/-- What the loop appends for a message: a span, the message, and its entry by index. -/
structure Built where
  span : Json
  message : Json
  index : String × Json

variable (sha256 : Sha256) (artifacts : Files)

/-- The loop over the messages of the spec. -/
def buildMessages (source : Json) : ℕ → Option String → List Json → Except Error (List Built)
  | _, _, [] => .ok []
  | sequence, previous_message_id, message_spec :: rest => do
      let marker ← liftPy (message_spec.getItem "marker")
      let span ← span_for_text sha256 artifacts source marker.pyStr 0 none
      let message_id ← liftPy (message_spec.getItem "message_id")
      let role ← liftPy (message_spec.getItem "role")
      let actor_id ← liftPy (message_spec.getItem "actor_id")
      let span_id ← liftPy (span.getItem "span_id")
      let others ← buildMessages source (sequence + 1) (some message_id.pyStr) rest
      return {
        span
        message := messageFor message_id.pyStr sequence previous_message_id role.pyStr
          actor_id.pyStr marker.pyStr span_id
        index := (message_id.pyStr, span_id) } :: others

def envelopeOf (conversation_id title reconstruction_basis_refs source : Json)
    (built : List Built) : Json :=
  .ofMembers [
    ("schema_version", .str "fossil.conversation.v1"),
    ("conversation_id", conversation_id),
    ("source_status", .str "reconstructed"),
    ("title", title),
    ("reconstruction_basis_refs", reconstruction_basis_refs),
    ("sources", .arr [source]),
    ("spans", .arr (built.map Built.span)),
    ("messages", .arr (built.map Built.message))]

/-- The envelope that is committed, and `message_by_index`. -/
def envelopeFor (spec source : Json) : Except Error (Json × List (String × Json)) := do
  let message_specs ← liftPy (spec.getItem "messages") >>= iterate
  let built ← buildMessages sha256 artifacts source 0 none message_specs
  let conversation_id ← liftPy (spec.getItem "conversation_id")
  let title ← liftPy (spec.getItem "title")
  let reconstruction_basis_refs ← liftPy (spec.getItem "reconstruction_basis_refs")
  return (envelopeOf conversation_id title reconstruction_basis_refs source built,
    built.map Built.index)

/-- `spec[key]`, for a text. -/
def textItem (spec : Json) (key : String) : Except Error String := do
  match ← liftPy (spec.getItem key) with
  | .str s => return s
  | _ => .error .typeError

def optionalItem (spec : Json) (key : String) : Except Error (Option String) := do
  match ← liftPy (spec.getItem key) with
  | .str s => return some s
  | .null => return none
  | _ => .error .typeError

/-- What a call draws at random and reads from the repository. -/
structure Surroundings where
  read_bytes : Json → Except Error ByteArray
  blob_uuid : String
  manifest_uuid : String
  uuid : String

def sourceCall (surroundings : Surroundings) (spec : Json) : Except Error AddSource := do
  let source_path ← liftPy (spec.getItem "source_path")
  let data ← surroundings.read_bytes source_path
  let label ← textItem spec "source_label"
  let external_ref ← optionalItem spec "external_ref"
  return {
    data
    evidence_status := "reconstructed"
    media_type := "text/markdown"
    label
    external_ref
    blob_uuid := surroundings.blob_uuid
    manifest_uuid := surroundings.manifest_uuid }

def openSource (surroundings : Surroundings) (spec : Json) (source : Option Json)
    (files : ConversationFiles) : Except Error Json × ConversationFiles :=
  match source with
  | some source => (.ok source, files)
  | none =>
      match sourceCall surroundings spec with
      | .error e => (.error e, files)
      | .ok call => add_source sha256 call files

def _build_envelope (truncate : FloatText → ℤ) (formats : FormatChecker)
    (surroundings : Surroundings) (spec : Json) (source : Option Json)
    (files : ConversationFiles) :
    Except Error (Json × List (String × Json)) × ConversationFiles :=
  match openSource sha256 surroundings spec source files with
  | (.error e, files) => (.error e, files)
  | (.ok source, files) =>
      match envelopeFor sha256 files.artifacts spec source with
      | .error e => (.error e, files)
      | .ok (envelope, message_by_index) =>
          let (result, files) := commit sha256 truncate formats envelope surroundings.uuid files
          (result.map fun envelope => (envelope, message_by_index), files)

/-! ## What the messages become -/

structure MessageSpec where
  message_id : String
  role : String
  actor_id : String
  marker : String

/-- The JSON of a message of the spec, with texts for its members. -/
structure Says (v : Json) (m : MessageSpec) : Prop where
  message_id : v.get? "message_id" = some (.str m.message_id)
  role : v.get? "role" = some (.str m.role)
  actor_id : v.get? "actor_id" = some (.str m.actor_id)
  marker : v.get? "marker" = some (.str m.marker)

variable {sha256 artifacts} {source : Json} {source_id artifact_id : String} {data : ByteArray}

/-- The first occurrence of a marker. -/
def FirstAt (data : ByteArray) (m : MessageSpec) (start : ℕ) : Prop :=
  IsLeast {i | OccursAt data m.marker.toUTF8 i} start

def stopOf (placed : MessageSpec × ℕ) : ℕ := placed.2 + placed.1.marker.toUTF8.size

def placedSpanId (sha256 : Sha256) (source_id : String) (placed : MessageSpec × ℕ) : String :=
  spanId sha256 source_id "reconstructed" placed.2 (stopOf placed)

def builtFor (sha256 : Sha256) (source_id : String) (sequence : ℕ)
    (previous_message_id : Option String) (placed : MessageSpec × ℕ) : Built where
  span := spanAt sha256 source_id "reconstructed" placed.2 (stopOf placed)
  message := messageFor placed.1.message_id sequence previous_message_id placed.1.role
    placed.1.actor_id placed.1.marker (.str (placedSpanId sha256 source_id placed))
  index := (placed.1.message_id, .str (placedSpanId sha256 source_id placed))

/-- What is built of messages whose markers were found at these positions. -/
def builtAt (sha256 : Sha256) (source_id : String) :
    ℕ → Option String → List (MessageSpec × ℕ) → List Built
  | _, _, [] => []
  | sequence, previous_message_id, placed :: rest =>
      builtFor sha256 source_id sequence previous_message_id placed ::
        builtAt sha256 source_id (sequence + 1) (some placed.1.message_id) rest

/-- The source is in the store, and is a reconstruction. -/
structure Stored (artifacts : Files) (source : Json) (source_id artifact_id : String)
    (data : ByteArray) : Prop where
  describes : Describes source source_id artifact_id
  reconstructed : source.get? "evidence_status" = some (.str "reconstructed")
  readable : artifactBytes artifacts artifact_id = .ok data

theorem span_for_marker (h : Stored artifacts source source_id artifact_id data)
    (m : MessageSpec) (span : Json) :
    span_for_text sha256 artifacts source m.marker 0 none = .ok span ↔
      ∃ start, FirstAt data m start ∧
        span = spanAt sha256 source_id "reconstructed" start (stopOf (m, start)) := by
  have hstatus : spanStatus source none = .ok "reconstructed" :=
    bind_eq_ok.mpr ⟨_, liftPy_eq_ok.mpr (Json.getItem_of_get? h.reconstructed), rfl⟩
  rw [span_for_text_eq_ok h.describes]
  constructor
  · rintro ⟨-, data', status, start, hdata, hstatus', hkth, rfl⟩
    cases hdata.symm.trans h.readable
    cases hstatus'.symm.trans hstatus
    exact ⟨start, isKth_zero.mp hkth, rfl⟩
  · rintro ⟨start, hfirst, rfl⟩
    exact ⟨le_rfl, data, "reconstructed", start, h.readable, hstatus, isKth_zero.mpr hfirst, rfl⟩

theorem buildMessages_ok (h : Stored artifacts source source_id artifact_id data)
    {items : List Json} {ms : List MessageSpec} (hspoken : List.Forall₂ Says items ms)
    {sequence : ℕ} {previous_message_id : Option String} {built : List Built} :
    buildMessages sha256 artifacts source sequence previous_message_id items = .ok built ↔
      ∃ starts, List.Forall₂ (FirstAt data) ms starts ∧
        built = builtAt sha256 source_id sequence previous_message_id (ms.zip starts) := by
  induction hspoken generalizing sequence previous_message_id built with
  | nil =>
      rw [buildMessages]
      constructor
      · intro hbuilt
        cases hbuilt
        exact ⟨[], .nil, rfl⟩
      · rintro ⟨starts, hstarts, rfl⟩
        cases hstarts
        rfl
  | @cons item m items ms hm hspoken ih =>
      have hget : ∀ {key s}, item.get? key = some (.str s) → liftPy (item.getItem key) = .ok (.str s) :=
        fun hkey => liftPy_eq_ok.mpr (Json.getItem_of_get? hkey)
      rw [buildMessages, hget hm.marker, hget hm.message_id, hget hm.role, hget hm.actor_id]
      change (span_for_text sha256 artifacts source m.marker 0 none >>= fun span =>
        liftPy (span.getItem "span_id") >>= fun span_id =>
          buildMessages sha256 artifacts source (sequence + 1) (some m.message_id) items >>=
            fun others => Except.ok (⟨span, messageFor m.message_id sequence previous_message_id
              m.role m.actor_id m.marker span_id, (m.message_id, span_id)⟩ :: others)) = _ ↔ _
      rw [bind_eq_ok]
      constructor
      · rintro ⟨span, hspan, hbuilt⟩
        obtain ⟨start, hfirst, rfl⟩ := (span_for_marker h m span).mp hspan
        obtain ⟨span_id, hid, hbuilt⟩ := bind_eq_ok.mp hbuilt
        obtain ⟨others, hothers, hbuilt⟩ := bind_eq_ok.mp hbuilt
        obtain ⟨starts, hstarts, rfl⟩ := ih.mp hothers
        have hid' := Json.getItem_ok_iff.mp (liftPy_eq_ok.mp hid)
        cases (get?_spanAt source_id "reconstructed" start (stopOf (m, start))).1.symm.trans hid'
        cases hbuilt
        exact ⟨start :: starts, .cons hfirst hstarts, rfl⟩
      · rintro ⟨starts, hstarts, rfl⟩
        obtain ⟨start, starts, hfirst, hrest, rfl⟩ := List.forall₂_cons_left_iff.mp hstarts
        refine ⟨_, (span_for_marker h m _).mpr ⟨start, hfirst, rfl⟩, ?_⟩
        refine bind_eq_ok.mpr ⟨_, liftPy_eq_ok.mpr (Json.getItem_of_get?
          (get?_spanAt source_id "reconstructed" start (stopOf (m, start))).1), ?_⟩
        exact bind_eq_ok.mpr ⟨_, ih.mpr ⟨starts, hrest, rfl⟩, rfl⟩

end SharedChat

end FossilCore
