import FossilCore.Adapters.ArtifactStore
import FossilCore.Pack.Snapshots
import FossilCore.Store.EventGate

/-!
# The conversation store

`ConversationStore` of `conversation.py`: envelopes of messages over the bytes of an artifact
store.  A stored envelope has passed its schema, so that its members are read as what the schema
says they are.  What `int` makes of a float is a parameter.
-/

namespace FossilCore

open Base

namespace Error

def conversationProvenanceError (message : String) : Error :=
  ⟨.conversationProvenanceError, message⟩

def conversationConflict (conversation_id : String) : Error :=
  ⟨.conversationConflict,
    s!"conversation {conversation_id} already exists with different content"⟩

end Error

/-! ## The schema -/

def evidenceStatusSchema : Schema := Schema.enum (["verbatim", "reconstructed"].map .str)

def sourceSchema : Schema :=
  Schema.allOf [Schema.type [.object],
    Schema.closed ["source_id", "artifact_id", "evidence_status", "label", "media_type",
      "external_ref"],
    Schema.required ["source_id", "artifact_id", "evidence_status"],
    Schema.properties [("source_id", prefixedId "src_" 8), ("artifact_id", prefixedId "art_" 16),
      ("evidence_status", evidenceStatusSchema), ("label", Schema.type [.string]),
      ("media_type", Schema.type [.string]), ("external_ref", nullableString)]]

def spanSchema : Schema :=
  Schema.allOf [Schema.type [.object],
    Schema.closed ["span_id", "source_id", "byte_start", "byte_end", "evidence_status"],
    Schema.required ["span_id", "source_id", "byte_start", "byte_end", "evidence_status"],
    Schema.properties [("span_id", prefixedId "span_" 8), ("source_id", _string 0),
      ("byte_start", Schema.allOf [Schema.type [.integer], Schema.minimum 0]),
      ("byte_end", Schema.allOf [Schema.type [.integer], Schema.minimum 1]),
      ("evidence_status", evidenceStatusSchema)]]

def messageActorSchema : Schema :=
  Schema.allOf [Schema.type [.object],
    Schema.closed ["actor_id", "role", "provider", "model_id", "run_id", "tool_id"],
    Schema.required ["actor_id", "role"],
    Schema.properties [("actor_id", _string 1),
      ("role", Schema.enum (["human", "assistant", "system", "tool", "other"].map .str)),
      ("provider", nullableString), ("model_id", nullableString), ("run_id", nullableString),
      ("tool_id", nullableString)]]

/-- A list of distinct texts, not empty. -/
def spanRefsSchema : Schema :=
  Schema.allOf [Schema.type [.array], Schema.minItems 1, Schema.items (_string 0),
    Schema.uniqueItems]

def messageRequired : List String :=
  ["message_id", "sequence", "parent_message_id", "actor", "evidence_status", "text",
    "source_span_refs"]

def messageProperties (formats : FormatChecker) : List (String × Schema) :=
  [("message_id", prefixedId "msg_" 8),
    ("sequence", Schema.allOf [Schema.type [.integer], Schema.minimum 0]),
    ("parent_message_id", nullableString),
    ("occurred_at", Schema.allOf [nullableString, Schema.format formats.isDateTime]),
    ("actor", messageActorSchema),
    ("evidence_status", evidenceStatusSchema),
    ("text", _string 1),
    ("source_span_refs", spanRefsSchema)]

def messageSchema (formats : FormatChecker) : Schema :=
  Schema.allOf [Schema.type [.object], Schema.closed ((messageProperties formats).map Prod.fst),
    Schema.required messageRequired, Schema.properties (messageProperties formats)]

def conversationProperties (formats : FormatChecker) : List (String × Schema) :=
  [("schema_version", Schema.const (.str "fossil.conversation.v1")),
    ("conversation_id", prefixedId "conv_" 12),
    ("source_status", Schema.enum (["verbatim", "reconstructed", "mixed"].map .str)),
    ("title", Schema.type [.string]),
    ("reconstruction_basis_refs", Schema.allOf [Schema.type [.array], Schema.items (_string 1),
      Schema.uniqueItems]),
    ("sources", Schema.allOf [Schema.type [.array], Schema.minItems 1,
      Schema.items sourceSchema]),
    ("spans", Schema.allOf [Schema.type [.array], Schema.minItems 1, Schema.items spanSchema]),
    ("messages", Schema.allOf [Schema.type [.array], Schema.minItems 1,
      Schema.items (messageSchema formats)])]

def conversationRequired : List String :=
  ["schema_version", "conversation_id", "source_status", "sources", "spans", "messages"]

/-- `schemas/conversation/v1.schema.json` -/
def conversationSchema (formats : FormatChecker) : Schema :=
  Schema.allOf [Schema.type [.object],
    Schema.closed ((conversationProperties formats).map Prod.fst),
    Schema.required conversationRequired, Schema.properties (conversationProperties formats)]

/-! ## Reading an envelope -/

/-- The members of a list under a key. -/
def itemsAt (v : Json) (key : String) : List Json := ((v.get? key).getD .null).items

def sourcesOf (envelope : Json) : List Json := itemsAt envelope "sources"

def spansOf (envelope : Json) : List Json := itemsAt envelope "spans"

def messagesOf (envelope : Json) : List Json := itemsAt envelope "messages"

/-- The span ids that a message or a lineage node refers to. -/
def spanRefsOf (v : Json) : List String := (itemsAt v "source_span_refs").filterMap Json.asStr?

def isVerbatim (v : Json) : Bool := strAt v "evidence_status" = "verbatim"

/-- `int(value[key])`, for a member that the schema has found to be an integer. -/
def integerAt (truncate : FloatText → ℤ) (v : Json) (key : String) : ℤ :=
  match v.get? key with
  | some (.int n) => n
  | some (.float x) => truncate x
  | _ => 0

/-- The files below the roots of a conversation store and of its artifact store. -/
structure ConversationFiles where
  conversations : Files
  artifacts : Files

namespace ConversationStore

variable (sha256 : Sha256) (truncate : FloatText → ℤ) (artifacts : Files)

def artifactBytes (artifact_id : String) : Except Error ByteArray :=
  ((ArtifactStore.read_bytes artifact_id).run fsStep artifacts).1

def verifyArtifact (artifact_id : String) : Except Error Bool :=
  ((ArtifactStore.verify sha256 artifact_id).run fsStep artifacts).1

def outOfBounds (span_id : String) : Error :=
  .conversationProvenanceError s!"span {span_id} is outside immutable source artifact bounds"

def missingSource (span_id source_id : String) : Error :=
  .conversationProvenanceError s!"span {span_id} references missing source {source_id}"

def resolve_span_bytes (envelope : Json) (span_id : String) : Except Error ByteArray :=
  match (spansOf envelope).find? fun span => strAt span "span_id" = span_id with
  | none => .error (.keyError span_id)
  | some span =>
      match (sourcesOf envelope).find? fun source =>
          strAt source "source_id" = strAt span "source_id" with
      | none => .error (missingSource span_id (strAt span "source_id"))
      | some source => do
          let data ← artifactBytes artifacts (strAt source "artifact_id")
          let start := integerAt truncate span "byte_start"
          let stop := integerAt truncate span "byte_end"
          if start < 0 ∨ stop ≤ start ∨ (data.size : ℤ) < stop then .error (outOfBounds span_id)
          else return data.extract start.toNat stop.toNat

def resolve_span_text (envelope : Json) (span_id : String) : Except Error String := do
  let data ← resolve_span_bytes truncate artifacts envelope span_id
  match Json.decode data with
  | .ok text => .ok text
  | .error _ => .error (.conversationProvenanceError s!"span {span_id} is not valid UTF-8 text")

/-! ## Provenance -/

/-- The check that a dictionary by the ids is as long as the list. -/
def requireDistinct (ids : List String) (message : String) : Except Error Unit :=
  if ids.Nodup then .ok () else .error (.conversationProvenanceError message)

def validateSpan (envelope span : Json) : Except Error Unit := do
  let span_id := strAt span "span_id"
  match (sourcesOf envelope).find? fun source =>
      strAt source "source_id" = strAt span "source_id" with
  | none => .error (.conversationProvenanceError s!"span {span_id} references unknown source")
  | some source =>
      if strAt source "evidence_status" = "reconstructed" ∧ isVerbatim span then
        .error (.conversationProvenanceError
          "a reconstructed source cannot silently yield a verbatim span")
      else
        let _ ← resolve_span_bytes truncate artifacts envelope span_id
        return ()

def validateParent (envelope message : Json) : Except Error Unit :=
  let message_id := strAt message "message_id"
  match message.get? "parent_message_id" with
  | some (.str parent_id) =>
      match (messagesOf envelope).find? fun m => strAt m "message_id" = parent_id with
      | none =>
          .error (.conversationProvenanceError s!"message {message_id} references missing parent")
      | some parent =>
          if integerAt truncate message "sequence" ≤ integerAt truncate parent "sequence" then
            .error (.conversationProvenanceError
              "message parent must occur before the child message")
          else .ok ()
  | _ => .ok ()

/-- The span of a message's reference. -/
def referencedSpan (envelope message : Json) (span_id : String) : Except Error Json :=
  match (spansOf envelope).find? fun span => strAt span "span_id" = span_id with
  | none =>
      let message_id := strAt message "message_id"
      .error (.conversationProvenanceError
        s!"message {message_id} references missing span {span_id}")
  | some span => .ok span

def validateMessage (envelope message : Json) : Except Error Unit := do
  validateParent truncate envelope message
  let referenced_spans ← (spanRefsOf message).mapM (referencedSpan envelope message)
  if isVerbatim message then
    if referenced_spans.any fun span => !isVerbatim span then
      .error (.conversationProvenanceError
        "verbatim message cannot depend on reconstructed source spans")
    else
      let texts ← (spanRefsOf message).mapM (resolve_span_text truncate artifacts envelope)
      if Text.join "" texts ≠ strAt message "text" then
        .error (.conversationProvenanceError
          "verbatim message text must exactly equal its immutable source span(s)")
      else return ()
  else return ()

def validateStatus (envelope : Json) : Except Error Unit :=
  let source_status := strAt envelope "source_status"
  let statuses := messagesOf envelope |>.map fun message => strAt message "evidence_status"
  if source_status = "verbatim" ∧ ¬(statuses ≠ [] ∧ ∀ status ∈ statuses, status = "verbatim") then
    .error (.conversationProvenanceError
      "verbatim conversation cannot contain reconstructed messages")
  else if source_status = "reconstructed" ∧ "verbatim" ∈ statuses then
    .error (.conversationProvenanceError
      "reconstructed conversation cannot silently contain verbatim messages; use mixed")
  else .ok ()

def _validate_provenance (envelope : Json) : Except Error Unit := do
  requireDistinct ((sourcesOf envelope).map fun source => strAt source "source_id")
    "duplicate source_id"
  (sourcesOf envelope).forM fun source => do
    let _ ← verifyArtifact sha256 artifacts (strAt source "artifact_id")
    return ()
  requireDistinct ((spansOf envelope).map fun span => strAt span "span_id") "duplicate span_id"
  (spansOf envelope).forM (validateSpan truncate artifacts envelope)
  requireDistinct ((messagesOf envelope).map fun message => strAt message "message_id")
    "duplicate message_id"
  if ((messagesOf envelope).map fun message => integerAt truncate message "sequence").Nodup then
    (messagesOf envelope).forM (validateMessage truncate artifacts envelope)
    validateStatus envelope
  else .error (.conversationProvenanceError "message sequence values must be unique")

/-! ## Operations -/

def _path (conversation_id : String) : Path :=
  [shardOf "conv_" conversation_id, fileName conversation_id]

def publishEnvelope (candidate : Json) (uuid : String) : Fs Json := do
  let conversation_id := strAt candidate "conversation_id"
  let path := _path conversation_id
  let data := candidate.canonical
  let published ← publish_immutable path data uuid
  if published then return candidate
  else
    let existing ← Fs.readJson path
    if existing.canonical = data then return existing
    else .raise (.conversationConflict conversation_id)

def commit (formats : FormatChecker) (envelope : Json) (uuid : String)
    (files : ConversationFiles) : Except Error Json × ConversationFiles :=
  match validateSchema (conversationSchema formats) envelope with
  | .error e => (.error e, files)
  | .ok () =>
      match _validate_provenance sha256 truncate files.artifacts envelope with
      | .error e => (.error e, files)
      | .ok () =>
          let (result, conversations) :=
            (publishEnvelope envelope uuid).run fsStep files.conversations
          (result, { files with conversations })

/-- The source that `add_source` describes, for the artifact that it stored. -/
def sourceFor (evidence_status media_type label : String) (external_ref : Option String)
    (manifest : Json) : Except Error Json := do
  let artifact_id ← liftPy (manifest.getItem "artifact_id")
  let source_id := _stable_id sha256 "src"
    [artifact_id.pyStr, evidence_status, label, external_ref.getD ""] 20
  return .ofMembers [
    ("source_id", .str source_id),
    ("artifact_id", artifact_id),
    ("evidence_status", .str evidence_status),
    ("label", .str label),
    ("media_type", .str media_type),
    ("external_ref", SourceSnapshotStore.optionalText external_ref)]

structure AddSource where
  data : ByteArray
  evidence_status : String
  media_type : String
  label : String
  external_ref : Option String
  /-- The UUIDs that the call draws for its temporary files. -/
  blob_uuid : String
  manifest_uuid : String

def add_source (call : AddSource) (files : ConversationFiles) :
    Except Error Json × ConversationFiles :=
  if call.evidence_status ≠ "verbatim" ∧ call.evidence_status ≠ "reconstructed" then
    (.error (.valueError "source evidence_status must be verbatim or reconstructed"), files)
  else
    let (result, artifacts) := (ArtifactStore.put_bytes sha256 call.data call.media_type
      call.blob_uuid call.manifest_uuid).run fsStep files.artifacts
    (result >>= sourceFor sha256 call.evidence_status call.media_type call.label call.external_ref,
      { files with artifacts })

def get (conversation_id : String) (files : ConversationFiles) : Except Error Json :=
  ((Fs.readJson (_path conversation_id)).run fsStep files.conversations).1

/-- `data.find(target, cursor)` -/
def findBytes (data target : ByteArray) (cursor : ℕ) : Option ℕ :=
  (List.range' cursor (data.size + 1 - target.size - cursor)).find? fun start =>
    data.extract start (start + target.size) = target

/-- Where the occurrence with this number starts, counted from the cursor. -/
def occurrenceFrom (data target : ByteArray) : ℕ → ℕ → Option ℕ
  | 0, cursor => findBytes data target cursor
  | n + 1, cursor =>
      (findBytes data target cursor).bind fun start =>
        occurrenceFrom data target n (start + target.size)

/-- The evidence status of a span: the given one, or the one of its source. -/
def spanStatus (source : Json) : Option String → Except Error String
  | none => do return (← liftPy (source.getItem "evidence_status")).pyStr
  | some status =>
      if status = "" then do return (← liftPy (source.getItem "evidence_status")).pyStr
      else return status

def span_for_text (source : Json) (needle : String) (occurrence : ℤ)
    (evidence_status : Option String) : Except Error Json :=
  if occurrence < 0 then .error (.valueError "occurrence must be non-negative")
  else do
    let artifact_id ← liftPy (source.getItem "artifact_id")
    let data ← artifactBytes artifacts artifact_id.pyStr
    let target := needle.toUTF8
    match occurrenceFrom data target occurrence.toNat 0 with
    | none => .error (.valueError ("source text not found: " ++ Text.repr needle))
    | some start =>
        let stop := start + target.size
        let status ← spanStatus source evidence_status
        let source_id ← liftPy (source.getItem "source_id")
        return .ofMembers [
          ("span_id", .str (_stable_id sha256 "span"
            [source_id.pyStr, toString start, toString stop, status] 20)),
          ("source_id", source_id),
          ("byte_start", .int start),
          ("byte_end", .int stop),
          ("evidence_status", .str status)]

def ordered_messages (envelope : Json) : List Json :=
  sortedBy (fun message => integerAt truncate message "sequence") (messagesOf envelope)

def build_ingested_event (envelope : Json) (pack_id actor_id occurred_at recorded_at : String) :
    Json :=
  let conversation_id := strAt envelope "conversation_id"
  let artifact_ids := (sourcesOf envelope).map fun source => strAt source "artifact_id"
  .ofMembers [
    ("schema_version", .str "dkg.event.v1"),
    ("event_type", .str "conversation.ingested"),
    ("occurred_at", .str occurred_at),
    ("recorded_at", .str recorded_at),
    ("pack_id", .str pack_id),
    ("actor", .ofMembers [("actor_type", .str "importer"), ("actor_id", .str actor_id)]),
    ("subject_refs", strings [conversation_id]),
    ("evidence_refs", strings artifact_ids),
    ("idempotency_key", .str ("conversation-ingested:" ++ conversation_id)),
    ("payload", .ofMembers [
      ("conversation_id", .str conversation_id),
      ("source_status", .str (strAt envelope "source_status")),
      ("source_artifact_ids", strings artifact_ids),
      ("message_ids", strings ((ordered_messages truncate envelope).map fun message =>
        strAt message "message_id"))])]

/-! ## Calls -/

/-- A call of a conversation store. -/
inductive Call where
  | add_source (call : AddSource)
  | span_for_text (source : Document) (needle : String) (occurrence : ℤ)
      (evidence_status : Option String)
  | resolve_span_text (envelope : Document) (span_id : String)
  | commit (envelope : Document) (uuid : String)
  | get (conversation_id : String)

inductive Returned where
  | document (v : Json)
  | text (s : String)

def step (formats : FormatChecker) (files : ConversationFiles) :
    Call → Except Error Returned × ConversationFiles
  | .add_source call =>
      let (result, files) := add_source sha256 call files
      (result.map .document, files)
  | .span_for_text source needle occurrence evidence_status =>
      ((span_for_text sha256 files.artifacts source.value needle occurrence evidence_status).map
        .document, files)
  | .resolve_span_text envelope span_id =>
      ((resolve_span_text truncate files.artifacts envelope.value span_id).map .text, files)
  | .commit envelope uuid =>
      let (result, files) := commit sha256 truncate formats envelope.value uuid files
      (result.map .document, files)
  | .get conversation_id => ((get conversation_id files).map .document, files)

end ConversationStore

end FossilCore
