import FossilCore.Conversation.WellFormed

/-!
# Committed conversations

What a commit does to the files of a conversation store, and that every conversation that a run
of calls leaves in the store is well formed.
-/

namespace FossilCore

open Base

namespace ConversationStore

/-! ## Artifacts that stay readable -/

section Growth

variable {sha256 : Sha256} {truncate : FloatText → ℤ} {formats : FormatChecker}
  {artifacts artifacts' : Files} {l : ArtifactLedger} {envelope span source message : Json}

theorem artifactBytes_eq_ok
    (h : (ArtifactLedger.model sha256).StoredAs ArtifactStore.layout l artifacts) (id : ArtifactId)
    {data : ByteArray} :
    artifactBytes artifacts id.text = .ok data ↔ l.read_bytes id.text = .ok data := by
  obtain ⟨x, hrun, hsame⟩ := ArtifactStore.run_read_bytes h.valid h.holds id
  rw [artifactBytes, hrun]
  constructor
  · rintro rfl
    exact hsame.ok_left
  · intro hread
    rw [hread] at hsame
    exact hsame.ok_right

/-- Every artifact that can be read stays readable, with the same bytes. -/
def StillRead (artifacts artifacts' : Files) : Prop :=
  ∀ (id : ArtifactId) data, artifactBytes artifacts id.text = .ok data →
    artifactBytes artifacts' id.text = .ok data

theorem stillRead_put_bytes
    (h : (ArtifactLedger.model sha256).StoredAs ArtifactStore.layout l artifacts)
    (data : ByteArray) (media_type temp temp' : String) :
    (ArtifactLedger.model sha256).StoredAs ArtifactStore.layout
        (l.put_bytes sha256 data media_type).2
        ((ArtifactStore.put_bytes sha256 data media_type temp temp').run fsStep artifacts).2 ∧
      StillRead artifacts
        ((ArtifactStore.put_bytes sha256 data media_type temp temp').run fsStep artifacts).2 := by
  obtain ⟨-, hholds⟩ := ArtifactStore.run_put_bytes h.valid h.holds data media_type temp temp'
  have hstored : (ArtifactLedger.model sha256).StoredAs ArtifactStore.layout
      (l.put_bytes sha256 data media_type).2
      ((ArtifactStore.put_bytes sha256 data media_type temp temp').run fsStep artifacts).2 :=
    ⟨h.valid.put_bytes data media_type, hholds⟩
  refine ⟨hstored, ?_⟩
  intro id bytes hread
  rw [artifactBytes_eq_ok h] at hread
  rw [artifactBytes_eq_ok hstored]
  exact (ArtifactLedger.grows_put_bytes sha256 data media_type).read_bytes hread

theorem Denotes.mono (hschema : conversationSchema formats envelope = true)
    (hread : StillRead artifacts artifacts') {bytes : ByteArray}
    (h : Denotes truncate artifacts envelope span bytes) :
    Denotes truncate artifacts' envelope span bytes := by
  obtain ⟨source, data, hdrawn, hdata, hcuts⟩ := h
  obtain ⟨id, -, hid⟩ := artifact_id_of_schema (source_of_mem hschema hdrawn.mem)
  rw [hid] at hdata
  exact ⟨source, data, hdrawn, by rw [hid]; exact hread id data hdata, hcuts⟩

theorem VerbatimText.mono (hschema : conversationSchema formats envelope = true)
    (hread : StillRead artifacts artifacts')
    (h : VerbatimText truncate artifacts envelope message) :
    VerbatimText truncate artifacts' envelope message := by
  obtain ⟨parts, hparts, htext⟩ := h
  refine ⟨parts, hparts.imp ?_, htext⟩
  rintro span_id bytes ⟨span, hspan, hid, hverbatim, hdenotes⟩
  exact ⟨span, hspan, hid, hverbatim, hdenotes.mono hschema hread⟩

theorem WellFormed.mono (hschema : conversationSchema formats envelope = true)
    (hread : StillRead artifacts artifacts') (h : WellFormed truncate artifacts envelope) :
    WellFormed truncate artifacts' envelope where
  source_ids := h.source_ids
  span_ids := h.span_ids
  message_ids := h.message_ids
  sequences := h.sequences
  parent_present := h.parent_present
  parent_before := h.parent_before
  forest := h.forest
  spans span hspan := by
    obtain ⟨bytes, hdenotes⟩ := h.spans span hspan
    exact ⟨bytes, hdenotes.mono hschema hread⟩
  verbatim_spans := h.verbatim_spans
  verbatim_text message hmessage hverbatim :=
    (h.verbatim_text message hmessage hverbatim).mono hschema hread

end Growth

/-! ## Commits -/

/-- The file is a well-formed conversation at its path. -/
def IsConversation (truncate : FloatText → ℤ) (formats : FormatChecker) (artifacts : Files)
    (path : Path) (data : ByteArray) : Prop :=
  ∃ envelope, Json.loadText data = .ok envelope ∧ data = envelope.canonical ∧
    path = _path (strAt envelope "conversation_id") ∧
    conversationSchema formats envelope = true ∧ WellFormed truncate artifacts envelope

def AllWellFormed (truncate : FloatText → ℤ) (formats : FormatChecker)
    (files : ConversationFiles) : Prop :=
  ∀ path data, files.conversations[path]? = some data →
    IsConversation truncate formats files.artifacts path data

/-- What every call keeps: a stored artifact ledger, and well-formed conversations. -/
structure Consistent (sha256 : Sha256) (truncate : FloatText → ℤ) (formats : FormatChecker)
    (files : ConversationFiles) : Prop where
  artifacts : ∃ l, (ArtifactLedger.model sha256).StoredAs ArtifactStore.layout l files.artifacts
  conversations : AllWellFormed truncate formats files

section Commit

variable {sha256 : Sha256} {truncate : FloatText → ℤ} {formats : FormatChecker}
  {files : ConversationFiles} {envelope : Json}

theorem head?_of_isPrefixedId {s : String} (h : Schema.isPrefixedId "conv_" 12 s = true) :
    (fileName s).toList.head? ≠ some '.' := by
  obtain ⟨body, tail, htext, -⟩ := Schema.isPrefixedId_iff.mp h
  simp [fileName, String.toList_append, htext]

/-- The temporary file of a publication is none of the conversations. -/
theorem free_temp (h : AllWellFormed truncate formats files) (conversation_id uuid : String) :
    files.conversations[tempPath (_path conversation_id) uuid]? = none := by
  apply Option.eq_none_iff_forall_ne_some.mpr
  intro data hdata
  obtain ⟨envelope, -, -, hpath, hschema, -⟩ := h _ data hdata
  have hhead := head?_of_isPrefixedId (conversation_id_of_schema hschema).2
  have htemp := tempPath_concat [shardOf "conv_" conversation_id] (fileName conversation_id) uuid
  rw [show [shardOf "conv_" conversation_id] ++ [fileName conversation_id] =
    _path conversation_id from rfl, hpath] at htemp
  have hname : fileName (strAt envelope "conversation_id") =
      "." ++ fileName conversation_id ++ "." ++ uuid ++ ".tmp" := by
    simpa [_path] using congrArg List.getLast? htemp
  rw [hname] at hhead
  simp [String.toList_append] at hhead

/-- A publication stores the envelope, or finds a conversation of that id. -/
theorem run_publishEnvelope (h : AllWellFormed truncate formats files) (hwf : envelope.WF)
    (uuid : String) :
    (publishEnvelope envelope uuid).run fsStep files.conversations =
      match files.conversations[_path (strAt envelope "conversation_id")]? with
      | none => (.ok envelope,
          files.conversations.insert (_path (strAt envelope "conversation_id")) envelope.canonical)
      | some data =>
          (if data = envelope.canonical then Except.ok envelope
            else .error (.conversationConflict (strAt envelope "conversation_id")),
            files.conversations) := by
  have htemp : files.conversations[tempPath ([shardOf "conv_" (strAt envelope "conversation_id")] ++
      [fileName (strAt envelope "conversation_id")]) uuid]? = none := free_temp h _ uuid
  have hpublish : (publish_immutable (_path (strAt envelope "conversation_id")) envelope.canonical
      uuid).run fsStep files.conversations = _ := run_publish htemp
  rw [publishEnvelope]
  cases hfile : files.conversations[_path (strAt envelope "conversation_id")]? with
  | none =>
      rw [show files.conversations[[shardOf "conv_" (strAt envelope "conversation_id")] ++
        [fileName (strAt envelope "conversation_id")]]? = none from hfile] at hpublish
      rw [Program.run_bind_ok _ hpublish]
      rfl
  | some data =>
      obtain ⟨existing, hload, hdata, -⟩ := h _ data hfile
      rw [show files.conversations[[shardOf "conv_" (strAt envelope "conversation_id")] ++
        [fileName (strAt envelope "conversation_id")]]? = some data from hfile] at hpublish
      rw [Program.run_bind_ok _ hpublish]
      have hread := run_readJson_some hfile hload
      simp only [Bool.false_eq_true, if_false, Program.run_bind_ok _ hread]
      rw [hdata]
      by_cases hsame : existing.canonical = envelope.canonical
      · have heq := (Json.canonical_inj (Json.wf_loadText hload) hwf).mp hsame
        rw [if_pos hsame, if_pos hsame, heq]
        rfl
      · rw [if_neg hsame, if_neg hsame]
        rfl

theorem run_readJson_ok {path : Path} {conversations conversations' : Files} {v : Json}
    (h : (Fs.readJson path).run fsStep conversations = (.ok v, conversations')) :
    ∃ data, Json.loadText data = .ok v := by
  rw [Fs.readJson] at h
  obtain ⟨data, files', -, hload⟩ := (Program.run_bind_eq_ok _).mp h
  refine ⟨data, ?_⟩
  have hvalue : liftPy (Json.loadText data) = .ok v := congrArg Prod.fst hload
  exact liftPy_eq_ok.mp hvalue

/-- A publication that succeeds returns the envelope, whatever the files. -/
theorem publishEnvelope_ok {conversations conversations' : Files} (hwf : envelope.WF)
    {uuid : String} {v : Json}
    (h : (publishEnvelope envelope uuid).run fsStep conversations = (.ok v, conversations')) :
    v = envelope := by
  rw [publishEnvelope] at h
  obtain ⟨published, files', -, h⟩ := (Program.run_bind_eq_ok _).mp h
  cases published with
  | true =>
      cases h
      rfl
  | false =>
      obtain ⟨existing, files'', hread, h⟩ := (Program.run_bind_eq_ok _).mp h
      split_ifs at h with hsame
      · cases h
        obtain ⟨data, hload⟩ := run_readJson_ok hread
        exact (Json.canonical_inj (Json.wf_loadText hload) hwf).mp hsame
      · cases h

/-- A commit that succeeds returns the envelope, which passed every check. -/
theorem commit_accepted (hwf : envelope.WF) {uuid : String} {v : Json}
    (h : (commit sha256 truncate formats envelope uuid files).1 = .ok v) :
    v = envelope ∧ conversationSchema formats envelope = true ∧
      _validate_provenance sha256 truncate files.artifacts envelope = .ok () := by
  rw [commit] at h
  cases hschema : validateSchema (conversationSchema formats) envelope with
  | error e =>
      rw [hschema] at h
      cases h
  | ok _ =>
      rw [hschema] at h
      cases hvalid : _validate_provenance sha256 truncate files.artifacts envelope with
      | error e =>
          rw [hvalid] at h
          cases h
      | ok _ =>
          rw [hvalid] at h
          exact ⟨publishEnvelope_ok hwf (Prod.ext h rfl), validateSchema_ok.mp hschema, rfl⟩

/-- A commit leaves the conversations alone, or adds the envelope, which passed every check. -/
theorem commit_files (h : AllWellFormed truncate formats files) (hwf : envelope.WF)
    (uuid : String) :
    (commit sha256 truncate formats envelope uuid files).2 = files ∨
      (conversationSchema formats envelope = true ∧
        _validate_provenance sha256 truncate files.artifacts envelope = .ok () ∧
        (commit sha256 truncate formats envelope uuid files).2 =
          ⟨files.conversations.insert (_path (strAt envelope "conversation_id")) envelope.canonical,
            files.artifacts⟩) := by
  rw [commit]
  cases hschema : validateSchema (conversationSchema formats) envelope with
  | error e => exact Or.inl rfl
  | ok _ =>
      cases hvalid : _validate_provenance sha256 truncate files.artifacts envelope with
      | error e => exact Or.inl rfl
      | ok _ =>
          simp only [run_publishEnvelope h hwf uuid]
          cases hfile : files.conversations[_path (strAt envelope "conversation_id")]? with
          | none => exact Or.inr ⟨validateSchema_ok.mp hschema, trivial, rfl⟩
          | some data => exact Or.inl rfl

/-! ## Every call keeps the conversations well formed -/

theorem Consistent.commit (h : Consistent sha256 truncate formats files) (hwf : envelope.WF)
    (uuid : String) :
    Consistent sha256 truncate formats
      (ConversationStore.commit sha256 truncate formats envelope uuid files).2 := by
  rcases commit_files h.conversations hwf uuid with hsame | ⟨hschema, hvalid, hfiles⟩
  · rw [hsame]
    exact h
  · rw [hfiles]
    refine ⟨h.artifacts, ?_⟩
    intro path data hdata
    rw [KeyMap.get?_insert] at hdata
    split_ifs at hdata with hpath
    · cases hdata
      exact ⟨envelope, Json.loadText_canonical hwf, rfl, hpath.symm, hschema,
        wellFormed_of_validate hvalid⟩
    · exact h.conversations path data hdata

theorem Consistent.add_source (h : Consistent sha256 truncate formats files) (call : AddSource) :
    Consistent sha256 truncate formats (ConversationStore.add_source sha256 call files).2 := by
  rw [ConversationStore.add_source]
  split_ifs with hstatus
  · exact h
  · obtain ⟨l, hstored⟩ := h.artifacts
    obtain ⟨hstored', hread⟩ := stillRead_put_bytes hstored call.data call.media_type
      call.blob_uuid call.manifest_uuid
    refine ⟨⟨_, hstored'⟩, ?_⟩
    intro path data hdata
    obtain ⟨envelope, hload, heq, hpath, hschema, hwell⟩ := h.conversations path data hdata
    exact ⟨envelope, hload, heq, hpath, hschema, hwell.mono hschema hread⟩

theorem Consistent.step (h : Consistent sha256 truncate formats files) (call : Call) :
    Consistent sha256 truncate formats (step sha256 truncate formats files call).2 := by
  cases call with
  | add_source call => exact h.add_source call
  | commit envelope uuid => exact h.commit envelope.wf uuid
  | _ => exact h

end Commit

/-- The files of a new conversation store over an artifact store with a history. -/
def initial (sha256 : Sha256) (history : List ArtifactCall) : ConversationFiles :=
  ⟨∅, Runs.after (ArtifactStore.step sha256) ∅ history⟩

theorem consistent_after (sha256 : Sha256) (truncate : FloatText → ℤ) (formats : FormatChecker)
    (history : List ArtifactCall) (calls : List Call) :
    Consistent sha256 truncate formats
      (Runs.after (step sha256 truncate formats) (initial sha256 history) calls) := by
  refine Runs.invariant ?_ fun files call _ h => h.step call
  refine ⟨⟨_, ArtifactStore.refines_ledger.after (storedAs_emptyArtifacts sha256) history⟩, ?_⟩
  intro path data hdata
  simp [initial] at hdata

/-- Every conversation that a run leaves in the store is well formed. -/
theorem committed_wellFormed (sha256 : Sha256) (truncate : FloatText → ℤ)
    (formats : FormatChecker) (history : List ArtifactCall) (calls : List Call) :
    AllWellFormed truncate formats
      (Runs.after (step sha256 truncate formats) (initial sha256 history) calls) :=
  (consistent_after sha256 truncate formats history calls).conversations

/-! ## A small conversation

One message over one artifact.  Its sources share the artifact, and one of its two spans claims
less than its source would allow. -/

section Sample

def evidenceText : ByteArray := "evidence".toUTF8

def evidenceId : String := "art_ee8250fb76e094b34b471f13a73dbbe5"

def evidenceSource (source_id : String) : Json :=
  .ofMembers [("source_id", .str source_id), ("artifact_id", .str evidenceId),
    ("evidence_status", .str "verbatim")]

def evidenceSpan (span_id evidence_status : String) : Json :=
  .ofMembers [("span_id", .str span_id), ("source_id", .str "src_checkpoint"),
    ("byte_start", .int 0), ("byte_end", .int 8), ("evidence_status", .str evidence_status)]

def evidenceMessage : Json :=
  .ofMembers [("message_id", .str "msg_01234567"), ("sequence", .int 0),
    ("parent_message_id", .null),
    ("actor", .ofMembers [("actor_id", .str "operator"), ("role", .str "human")]),
    ("evidence_status", .str "verbatim"), ("text", .str "evidence"),
    ("source_span_refs", strings ["span_01234567"])]

def evidenceConversation (source_ids : List String) : Json :=
  .ofMembers [("schema_version", .str "fossil.conversation.v1"),
    ("conversation_id", .str "conv_0123456789ab"), ("source_status", .str "verbatim"),
    ("sources", .arr (source_ids.map evidenceSource)),
    ("spans", .arr [evidenceSpan "span_01234567" "verbatim",
      evidenceSpan "span_89abcdef" "reconstructed"]),
    ("messages", .arr [evidenceMessage])]

/-- A conversation store over an artifact store that has the bytes. -/
def evidenceFiles : ConversationFiles :=
  initial .hashlib [.put_bytes evidenceText "text/plain" "u1" "u2"]

theorem evidenceId_eq :
    evidenceId = artifact_id_for_digest (Sha256.hashlib.hexdigest evidenceText) := by
  decide +kernel

theorem storedAs_evidence : (ArtifactLedger.model .hashlib).StoredAs ArtifactStore.layout
    (ArtifactLedger.empty.put_bytes .hashlib evidenceText "text/plain").2
    evidenceFiles.artifacts := by
  have hafter := ArtifactStore.refines_ledger.after (storedAs_emptyArtifacts .hashlib)
    [.put_bytes evidenceText "text/plain" "u1" "u2"]
  rwa [Runs.after_cons, Runs.after_nil, ArtifactLedger.step_put_bytes] at hafter

theorem has_evidence : (ArtifactLedger.empty.put_bytes .hashlib evidenceText "text/plain").2.Has
    .hashlib evidenceText "text/plain" := by
  have hok : (ArtifactLedger.empty.put_bytes .hashlib evidenceText "text/plain").1 =
      .ok (manifestFor (Sha256.hashlib.hexdigest evidenceText) evidenceText "text/plain") := by
    simp [ArtifactLedger.put_bytes, ArtifactLedger.putManifest, ArtifactLedger.empty]
  exact (ArtifactLedger.put_bytes_ok hok).2

theorem artifactBytes_evidence :
    artifactBytes evidenceFiles.artifacts evidenceId = .ok evidenceText := by
  rw [evidenceId_eq]
  exact (artifactBytes_eq_ok storedAs_evidence (Sha256.hashlib.digest evidenceText).artifactId).mpr
    has_evidence.read_bytes

theorem verifyArtifact_evidence :
    verifyArtifact .hashlib evidenceFiles.artifacts evidenceId = .ok true := by
  obtain ⟨x, hrun, hsame⟩ := ArtifactStore.run_verify storedAs_evidence.valid
    storedAs_evidence.holds (Sha256.hashlib.digest evidenceText).artifactId
  have hverify := has_evidence.verify
  rw [show (Sha256.hashlib.digest evidenceText).artifactId.text =
    artifact_id_for_digest (Sha256.hashlib.hexdigest evidenceText) from rfl] at hrun hsame
  rw [hverify] at hsame
  rw [verifyArtifact, evidenceId_eq, hrun]
  exact hsame.ok_right

section Members

variable (source_ids : List String)

@[simp] theorem sourcesOf_evidence :
    sourcesOf (evidenceConversation source_ids) = source_ids.map evidenceSource := by
  rw [sourcesOf, itemsAt, evidenceConversation, Json.get?_ofMembers]
  rfl

@[simp] theorem spansOf_evidence : spansOf (evidenceConversation source_ids) =
    [evidenceSpan "span_01234567" "verbatim", evidenceSpan "span_89abcdef" "reconstructed"] := by
  rw [spansOf, itemsAt, evidenceConversation, Json.get?_ofMembers]
  rfl

@[simp] theorem messagesOf_evidence :
    messagesOf (evidenceConversation source_ids) = [evidenceMessage] := by
  rw [messagesOf, itemsAt, evidenceConversation, Json.get?_ofMembers]
  rfl

@[simp] theorem source_status_evidence :
    strAt (evidenceConversation source_ids) "source_status" = "verbatim" := by
  rw [strAt, evidenceConversation, Json.get?_ofMembers]
  rfl

@[simp] theorem source_id_evidence (source_id : String) :
    strAt (evidenceSource source_id) "source_id" = source_id := by
  rw [strAt, evidenceSource, Json.get?_ofMembers]
  rfl

@[simp] theorem artifact_id_evidence (source_id : String) :
    strAt (evidenceSource source_id) "artifact_id" = evidenceId := by
  rw [strAt, evidenceSource, Json.get?_ofMembers]
  rfl

@[simp] theorem status_evidenceSource (source_id : String) :
    strAt (evidenceSource source_id) "evidence_status" = "verbatim" := by
  rw [strAt, evidenceSource, Json.get?_ofMembers]
  rfl

@[simp] theorem span_id_evidence (span_id evidence_status : String) :
    strAt (evidenceSpan span_id evidence_status) "span_id" = span_id := by
  rw [strAt, evidenceSpan, Json.get?_ofMembers]
  rfl

@[simp] theorem span_source_evidence (span_id evidence_status : String) :
    strAt (evidenceSpan span_id evidence_status) "source_id" = "src_checkpoint" := by
  rw [strAt, evidenceSpan, Json.get?_ofMembers]
  rfl

@[simp] theorem isVerbatim_evidence (span_id evidence_status : String) :
    isVerbatim (evidenceSpan span_id evidence_status) = decide (evidence_status = "verbatim") := by
  rw [isVerbatim, strAt, evidenceSpan, Json.get?_ofMembers]
  rfl

end Members

/-- One source, or two that share the artifact. -/
def evidenceSourceIds (shared : Bool) : List String :=
  if shared then ["src_checkpoint", "src_transcript"] else ["src_checkpoint"]

theorem find?_evidenceSource (shared : Bool) :
    (sourcesOf (evidenceConversation (evidenceSourceIds shared))).find? (fun source =>
      strAt source "source_id" = "src_checkpoint") = some (evidenceSource "src_checkpoint") := by
  cases shared <;> simp [evidenceSourceIds]

theorem integerAt_evidence (span_id status : String) :
    integerAt (fun _ => 0) (evidenceSpan span_id status) "byte_start" = 0 ∧
      integerAt (fun _ => 0) (evidenceSpan span_id status) "byte_end" = 8 := by
  constructor
  · rw [integerAt, evidenceSpan, Json.get?_ofMembers]
    rfl
  · rw [integerAt, evidenceSpan, Json.get?_ofMembers]
    rfl

theorem resolve_evidence (shared : Bool) {span_id : String}
    (hspan : span_id = "span_01234567" ∨ span_id = "span_89abcdef") :
    resolve_span_bytes (fun _ => 0) evidenceFiles.artifacts
      (evidenceConversation (evidenceSourceIds shared)) span_id = .ok evidenceText := by
  have hsize : evidenceText.size = 8 := by decide +kernel
  have hextract : evidenceText.extract 0 8 = evidenceText := by decide +kernel
  have hfound : ∃ status, (spansOf (evidenceConversation (evidenceSourceIds shared))).find?
      (fun span => strAt span "span_id" = span_id) = some (evidenceSpan span_id status) := by
    rcases hspan with rfl | rfl <;> simp
  obtain ⟨status, hfound⟩ := hfound
  rw [resolve_span_bytes, hfound]
  simp only [span_source_evidence, find?_evidenceSource, artifact_id_evidence,
    integerAt_evidence]
  refine bind_eq_ok.mpr ⟨evidenceText, artifactBytes_evidence, ?_⟩
  rw [if_neg (by rw [hsize]; decide)]
  exact congrArg Except.ok hextract

theorem validateSpan_evidence (shared : Bool) {span_id status : String}
    (hspan : span_id = "span_01234567" ∨ span_id = "span_89abcdef") :
    validateSpan (fun _ => 0) evidenceFiles.artifacts
      (evidenceConversation (evidenceSourceIds shared)) (evidenceSpan span_id status) =
        .ok () := by
  rw [validateSpan]
  simp only [span_source_evidence, span_id_evidence, find?_evidenceSource, status_evidenceSource,
    resolve_evidence shared hspan, String.reduceEq, false_and, if_false]
  rfl

theorem validateMessage_evidence (shared : Bool) :
    validateMessage (fun _ => 0) evidenceFiles.artifacts
      (evidenceConversation (evidenceSourceIds shared)) evidenceMessage = .ok () := by
  have hparent : evidenceMessage.get? "parent_message_id" = some .null := by decide +kernel
  have hverbatim : isVerbatim evidenceMessage = true := by decide +kernel
  have hrefs : spanRefsOf evidenceMessage = ["span_01234567"] := by decide +kernel
  have htext : strAt evidenceMessage "text" = "evidence" := by decide +kernel
  have hspan : resolve_span_text (fun _ => 0) evidenceFiles.artifacts
      (evidenceConversation (evidenceSourceIds shared)) "span_01234567" = .ok "evidence" := by
    refine bind_eq_ok.mpr ⟨evidenceText, resolve_evidence shared (Or.inl rfl), ?_⟩
    rw [evidenceText, Json.decode_toUTF8]
  simp [validateMessage, validateParent, referencedSpan, hparent, hverbatim, hrefs, htext, hspan,
    Text.join, bind, Except.bind, pure, Except.pure]

theorem validate_evidence (shared : Bool) :
    _validate_provenance .hashlib (fun _ => 0) evidenceFiles.artifacts
      (evidenceConversation (evidenceSourceIds shared)) = .ok () := by
  have hstatus : strAt evidenceMessage "evidence_status" = "verbatim" := by decide +kernel
  have hverify : ∀ source ∈ sourcesOf (evidenceConversation (evidenceSourceIds shared)),
      (do
        let _ ← verifyArtifact .hashlib evidenceFiles.artifacts (strAt source "artifact_id")
        return () : Except Error Unit) = .ok () := by
    intro source hsource
    rw [sourcesOf_evidence] at hsource
    obtain ⟨source_id, -, rfl⟩ := List.mem_map.mp hsource
    rw [artifact_id_evidence, verifyArtifact_evidence]
    rfl
  refine bind_eq_ok.mpr ⟨(), requireDistinct_ok.mpr ?_, bind_eq_ok.mpr
    ⟨(), forM_ok_iff.mpr hverify, bind_eq_ok.mpr ⟨(), requireDistinct_ok.mpr ?_,
      bind_eq_ok.mpr ⟨(), forM_ok_iff.mpr ?_, bind_eq_ok.mpr
        ⟨(), requireDistinct_ok.mpr ?_, ?_⟩⟩⟩⟩⟩
  · cases shared <;> simp [evidenceSourceIds]
  · simp
  · intro span hspan
    simp only [spansOf_evidence, List.mem_cons, List.not_mem_nil, or_false] at hspan
    rcases hspan with rfl | rfl
    · exact validateSpan_evidence shared (Or.inl rfl)
    · exact validateSpan_evidence shared (Or.inr rfl)
  · simp
  · rw [messagesOf_evidence, List.map_singleton, if_pos (List.nodup_singleton _)]
    refine bind_eq_ok.mpr ⟨(), forM_ok_iff.mpr ?_, ?_⟩
    · intro message hmessage
      rw [List.mem_singleton.mp hmessage]
      exact validateMessage_evidence shared
    · simp [validateStatus, hstatus]

/-- The conversation as an argument of a commit. -/
def evidenceDocument (shared : Bool) : Document where
  value := evidenceConversation (evidenceSourceIds shared)
  wf := by cases shared <;> decide +kernel

/-- The conversation is accepted by an empty store. -/
theorem commit_evidence (shared : Bool) :
    (commit .hashlib (fun _ => 0) StoreConfig.plain.formats (evidenceDocument shared).value "u3"
      evidenceFiles).1 = .ok (evidenceDocument shared).value := by
  have hschema : conversationSchema StoreConfig.plain.formats (evidenceDocument shared).value =
      true := by
    cases shared <;> decide +kernel
  have hnone : AllWellFormed (fun _ => 0) StoreConfig.plain.formats evidenceFiles :=
    (consistent_after .hashlib (fun _ => 0) StoreConfig.plain.formats _ []).conversations
  have hvalid : _validate_provenance .hashlib (fun _ => 0) evidenceFiles.artifacts
      (evidenceDocument shared).value = .ok () := validate_evidence shared
  rw [commit, validateSchema_ok.mpr hschema]
  simp only [hvalid, run_publishEnvelope hnone (evidenceDocument shared).wf]
  rfl

end Sample

end ConversationStore

end FossilCore
