import FossilCore.Conversation.Committed

/-!
# Conversation lineage

`ConversationLineage` of `conversation.py`: the checks on a lineage record over an envelope, and
the citations of its nodes.  Acceptance looks at the status of the messages that a node refers
to, and not at the status of its spans.
-/

namespace FossilCore

open Base

namespace ConversationLineage

open ConversationStore

/-! ## The schema -/

def nodeProperties : List (String × Schema) :=
  [("node_id", prefixedId "ln_" 8),
    ("kind", Schema.enum (["observation", "question", "claim", "challenge", "rebuttal",
      "assumption", "conclusion", "position_change", "decision"].map .str)),
    ("label", _string 1),
    ("text", _string 1),
    ("evidence_status", evidenceStatusSchema),
    ("position_state", Schema.enum
      (["current", "historical", "opposing", "unresolved"].map .str)),
    ("source_message_refs", spanRefsSchema),
    ("source_span_refs", spanRefsSchema)]

def nodeSchema : Schema :=
  Schema.allOf [Schema.type [.object], Schema.closed (nodeProperties.map Prod.fst),
    Schema.required (nodeProperties.map Prod.fst), Schema.properties nodeProperties]

def edgeProperties : List (String × Schema) :=
  [("edge_id", prefixedId "le_" 8),
    ("source_node_id", _string 0),
    ("target_node_id", _string 0),
    ("relation_type", Schema.enum (["leads_to", "supports", "challenges", "rebuts", "reframes",
      "supersedes", "depends_on"].map .str))]

def edgeSchema : Schema :=
  Schema.allOf [Schema.type [.object], Schema.closed (edgeProperties.map Prod.fst),
    Schema.required (edgeProperties.map Prod.fst), Schema.properties edgeProperties]

def lineageProperties : List (String × Schema) :=
  [("schema_version", Schema.const (.str "fossil.conversation-lineage.v1")),
    ("lineage_id", prefixedId "lin_" 12),
    ("conversation_id", _string 0),
    ("nodes", Schema.allOf [Schema.type [.array], Schema.minItems 1, Schema.items nodeSchema]),
    ("edges", Schema.allOf [Schema.type [.array], Schema.items edgeSchema]),
    ("current_conclusion_refs", spanRefsSchema)]

/-- `schemas/conversation-lineage/v1.schema.json` -/
def lineageSchema : Schema :=
  Schema.allOf [Schema.type [.object], Schema.closed (lineageProperties.map Prod.fst),
    Schema.required (lineageProperties.map Prod.fst), Schema.properties lineageProperties]

/-! ## Reading a record -/

def nodesOf (lineage : Json) : List Json := itemsAt lineage "nodes"

def edgesOf (lineage : Json) : List Json := itemsAt lineage "edges"

def conclusionRefs (lineage : Json) : List String :=
  (itemsAt lineage "current_conclusion_refs").filterMap Json.asStr?

def messageRefsOf (node : Json) : List String :=
  (itemsAt node "source_message_refs").filterMap Json.asStr?

/-- `{item[key]: item for item in items}.get(id)`: of the items with the id, the last. -/
def byId (key : String) (items : List Json) (id : String) : Option Json :=
  items.reverse.find? fun item => strAt item key = id

/-! ## Acceptance -/

variable (truncate : FloatText → ℤ) (artifacts : Files)

def validateEdge (lineage : Json) (edge_ids : List String) (edge : Json) :
    Except Error (List String) :=
  let edge_id := strAt edge "edge_id"
  let node_ids := (nodesOf lineage).map fun node => strAt node "node_id"
  if edge_id ∈ edge_ids then .error (.conversationProvenanceError "duplicate lineage edge_id")
  else if strAt edge "source_node_id" ∉ node_ids ∨ strAt edge "target_node_id" ∉ node_ids then
    .error (.conversationProvenanceError "lineage edge references missing node")
  else .ok (edge_id :: edge_ids)

def sourceMessage (envelope node : Json) (message_id : String) : Except Error Json :=
  match byId "message_id" (messagesOf envelope) message_id with
  | some message => .ok message
  | none =>
      let node_id := strAt node "node_id"
      .error (.conversationProvenanceError s!"lineage node {node_id} references missing message")

def checkSpanRef (envelope node : Json) (span_id : String) : Except Error Unit :=
  if span_id ∈ (spansOf envelope).map fun span => strAt span "span_id" then do
    let _ ← resolve_span_bytes truncate artifacts envelope span_id
    return ()
  else
    let node_id := strAt node "node_id"
    .error (.conversationProvenanceError s!"lineage node {node_id} references missing span")

def validateNode (envelope node : Json) : Except Error Unit := do
  let source_messages ← (messageRefsOf node).mapM (sourceMessage envelope node)
  (spanRefsOf node).forM (checkSpanRef truncate artifacts envelope node)
  if isVerbatim node ∧ (source_messages.any fun message => !isVerbatim message) = true then
    .error (.conversationProvenanceError
      "verbatim-derived lineage node cannot depend on reconstructed messages")
  else return ()

def validateConclusion (lineage : Json) (node_id : String) : Except Error Unit :=
  match byId "node_id" (nodesOf lineage) node_id with
  | none =>
      .error (.conversationProvenanceError s!"current conclusion references missing node {node_id}")
  | some node =>
      if strAt node "kind" ≠ "conclusion" ∧ strAt node "kind" ≠ "decision" then
        .error (.conversationProvenanceError
          "current conclusion ref must point to a conclusion or decision")
      else if strAt node "position_state" ≠ "current" then
        .error (.conversationProvenanceError
          "current conclusion ref must point to current position state")
      else .ok ()

def _validate_references (envelope lineage : Json) : Except Error Unit := do
  requireDistinct ((nodesOf lineage).map fun node => strAt node "node_id")
    "duplicate lineage node_id"
  let _ ← (edgesOf lineage).foldlM (validateEdge lineage) []
  (nodesOf lineage).forM (validateNode truncate artifacts envelope)
  (conclusionRefs lineage).forM (validateConclusion lineage)

/-- The construction of a `ConversationLineage`. -/
def construct (envelope lineage : Json) : Except Error Unit := do
  validateSchema lineageSchema lineage
  if lineage.get? "conversation_id" ≠ envelope.get? "conversation_id" then
    .error (.conversationProvenanceError
      "lineage conversation_id does not match conversation envelope")
  else _validate_references truncate artifacts envelope lineage

/-! ## Citations -/

def citationFor (span source : Json) (text : String) : Json :=
  .ofMembers [
    ("span_id", .str (strAt span "span_id")),
    ("artifact_id", .str (strAt source "artifact_id")),
    ("evidence_status", .str (strAt span "evidence_status")),
    ("byte_start", (span.get? "byte_start").getD .null),
    ("byte_end", (span.get? "byte_end").getD .null),
    ("text", .str text)]

def citation (envelope : Json) (span_id : String) : Except Error Json :=
  match byId "span_id" (spansOf envelope) span_id with
  | none => .error (.keyError span_id)
  | some span =>
      match byId "source_id" (sourcesOf envelope) (strAt span "source_id") with
      | none => .error (.keyError (strAt span "source_id"))
      | some source => do
          let text ← resolve_span_text truncate artifacts envelope span_id
          return citationFor span source text

def citations (envelope lineage : Json) (node_id : String) : Except Error (List Json) :=
  match byId "node_id" (nodesOf lineage) node_id with
  | none => .error (.keyError node_id)
  | some node => (spanRefsOf node).mapM (citation truncate artifacts envelope)

/-! ## Citations of a committed conversation -/

section Citations

variable {truncate artifacts} {artifacts' : Files} {envelope lineage node span : Json}

theorem byId_eq_of_nodup {key : String} {items : List Json} {item : Json}
    (h : (items.map fun v => strAt v key).Nodup) (hitem : item ∈ items) {id : String}
    (hid : strAt item key = id) : byId key items id = some item := by
  refine find?_eq_of_nodup ?_ (List.mem_reverse.mpr hitem) hid
  rw [List.map_reverse]
  exact List.nodup_reverse.mpr h

theorem isVerbatim_citationFor (span source : Json) (text : String) :
    isVerbatim (citationFor span source text) = isVerbatim span := by
  have hstatus : strAt (citationFor span source text) "evidence_status" =
      strAt span "evidence_status" := by
    rw [strAt, citationFor, Json.get?_ofMembers]
    rfl
  rw [isVerbatim, isVerbatim, hstatus]

/-- A span of the conversation can be cited when it is text. -/
theorem citation_eq (artifacts' : Files) (hwell : WellFormed truncate artifacts envelope)
    (hspan : span ∈ spansOf envelope) :
    ∃ source, citation truncate artifacts' envelope (strAt span "span_id") =
      (resolve_span_text truncate artifacts' envelope (strAt span "span_id") >>= fun text =>
        .ok (citationFor span source text)) := by
  obtain ⟨bytes, source, data, hdrawn, -, -⟩ := hwell.spans span hspan
  refine ⟨source, ?_⟩
  rw [citation, byId_eq_of_nodup hwell.span_ids hspan rfl]
  dsimp only
  rw [byId_eq_of_nodup hwell.source_ids hdrawn.mem hdrawn.source_id]
  rfl

/-- Every span that the node refers to is text. -/
def Citable (truncate : FloatText → ℤ) (artifacts : Files) (envelope node : Json) : Prop :=
  ∀ span_id ∈ spanRefsOf node, ∃ text,
    resolve_span_text truncate artifacts envelope span_id = .ok text

/-- What acceptance establishes about nodes: their ids are distinct and their spans exist. -/
structure Grounded (envelope lineage : Json) : Prop where
  node_ids : ((nodesOf lineage).map fun node => strAt node "node_id").Nodup
  spans : ∀ node ∈ nodesOf lineage, ∀ span_id ∈ spanRefsOf node,
    ∃ span ∈ spansOf envelope, strAt span "span_id" = span_id

theorem grounded_of_construct (h : construct truncate artifacts envelope lineage = .ok ()) :
    Grounded envelope lineage := by
  obtain ⟨⟨⟩, -, h⟩ := bind_eq_ok.mp h
  split_ifs at h
  obtain ⟨⟨⟩, hids, h⟩ := bind_eq_ok.mp h
  obtain ⟨edge_ids, -, h⟩ := bind_eq_ok.mp h
  obtain ⟨⟨⟩, hnodes, -⟩ := bind_eq_ok.mp h
  refine ⟨requireDistinct_ok.mp hids, ?_⟩
  intro node hnode span_id hid
  obtain ⟨source_messages, -, hchecked⟩ := bind_eq_ok.mp (forM_ok_iff.mp hnodes node hnode)
  obtain ⟨⟨⟩, hspans, -⟩ := bind_eq_ok.mp hchecked
  have hspan := forM_ok_iff.mp hspans span_id hid
  rw [checkSpanRef] at hspan
  split_ifs at hspan with hmem
  exact List.mem_map.mp hmem

theorem citations_eq (hground : Grounded envelope lineage) (hnode : node ∈ nodesOf lineage) :
    citations truncate artifacts envelope lineage (strAt node "node_id") =
      (spanRefsOf node).mapM (citation truncate artifacts envelope) := by
  rw [citations, byId_eq_of_nodup hground.node_ids hnode rfl]

/-- The citations of a node are verbatim exactly when its spans are, if it has citations. -/
theorem citations_verbatim_iff (hwell : WellFormed truncate artifacts envelope)
    (hground : Grounded envelope lineage) (hnode : node ∈ nodesOf lineage) :
    (∀ cs, citations truncate artifacts' envelope lineage (strAt node "node_id") = .ok cs →
        ∀ c ∈ cs, isVerbatim c = true) ↔
      (Citable truncate artifacts' envelope node →
        ∀ span ∈ spansOf envelope, strAt span "span_id" ∈ spanRefsOf node →
          isVerbatim span = true) := by
  rw [citations_eq hground hnode]
  constructor
  · intro h hcitable span hspan href
    have hall : ∀ span_id ∈ spanRefsOf node, ∃ c,
        citation truncate artifacts' envelope span_id = .ok c := by
      intro span_id hid
      obtain ⟨span', hspan', rfl⟩ := hground.spans node hnode span_id hid
      obtain ⟨source, hcitation⟩ := citation_eq artifacts' hwell hspan'
      obtain ⟨text, htext⟩ := hcitable _ hid
      rw [htext] at hcitation
      exact ⟨_, hcitation⟩
    obtain ⟨cs, hcs⟩ := mapM_ok_of_forall hall
    obtain ⟨c, hc, hcitation⟩ := exists_of_mapM_ok hcs _ href
    obtain ⟨source, heq⟩ := citation_eq artifacts' hwell hspan
    rw [hcitation] at heq
    obtain ⟨text, -, hfor⟩ := bind_eq_ok.mp heq.symm
    cases hfor
    rw [← isVerbatim_citationFor]
    exact h cs hcs _ hc
  · intro h cs hcs c hc
    have hcitable : Citable truncate artifacts' envelope node := by
      intro span_id hid
      obtain ⟨c', -, hcitation⟩ := exists_of_mapM_ok hcs span_id hid
      obtain ⟨span, hspan, rfl⟩ := hground.spans node hnode span_id hid
      obtain ⟨source, heq⟩ := citation_eq artifacts' hwell hspan
      rw [hcitation] at heq
      obtain ⟨text, htext, -⟩ := bind_eq_ok.mp heq.symm
      exact ⟨text, htext⟩
    obtain ⟨span_id, hid, hcitation⟩ := exists_of_mem_mapM hcs c hc
    obtain ⟨span, hspan, rfl⟩ := hground.spans node hnode span_id hid
    obtain ⟨source, heq⟩ := citation_eq artifacts' hwell hspan
    rw [hcitation] at heq
    obtain ⟨text, -, hfor⟩ := bind_eq_ok.mp heq.symm
    cases hfor
    rw [isVerbatim_citationFor]
    exact h hcitable span hspan hid

/-- Verbatim nodes have verbatim citations exactly when no verbatim node whose spans are all
text refers to a span that is not verbatim. -/
theorem verbatim_nodes_iff {sha256 : Sha256} {formats : FormatChecker} {conversation : Document}
    {uuid : String} {files : ConversationFiles}
    (hcommit : (commit sha256 truncate formats conversation.value uuid files).1 = .ok envelope)
    (haccepted : construct truncate artifacts envelope lineage = .ok ()) :
    (∀ node ∈ nodesOf lineage, isVerbatim node = true → ∀ cs,
        citations truncate artifacts' envelope lineage (strAt node "node_id") = .ok cs →
          ∀ c ∈ cs, isVerbatim c = true) ↔
      ∀ node ∈ nodesOf lineage, isVerbatim node = true →
        Citable truncate artifacts' envelope node →
          ∀ span ∈ spansOf envelope, strAt span "span_id" ∈ spanRefsOf node →
            isVerbatim span = true := by
  obtain ⟨rfl, -, hvalid⟩ := commit_accepted conversation.wf hcommit
  have hwell := wellFormed_of_validate hvalid
  have hground := grounded_of_construct haccepted
  apply forall₂_congr
  intro node hnode
  exact imp_congr_right fun _ => citations_verbatim_iff hwell hground hnode

end Citations

/-! ## A node that refers to a span directly -/

section Sample

def sampleNode (span_id : String) : Json :=
  .ofMembers [("node_id", .str "ln_01234567"), ("kind", .str "conclusion"),
    ("label", .str "conclusion"), ("text", .str "the conclusion"),
    ("evidence_status", .str "verbatim"), ("position_state", .str "current"),
    ("source_message_refs", strings ["msg_01234567"]), ("source_span_refs", strings [span_id])]

/-- A lineage of one verbatim node, over the message of the small conversation. -/
def sampleLineage (span_id : String) : Json :=
  .ofMembers [("schema_version", .str "fossil.conversation-lineage.v1"),
    ("lineage_id", .str "lin_0123456789ab"), ("conversation_id", .str "conv_0123456789ab"),
    ("nodes", .arr [sampleNode span_id]), ("edges", .arr []),
    ("current_conclusion_refs", strings ["ln_01234567"])]

theorem nodesOf_sample (span_id : String) :
    nodesOf (sampleLineage span_id) = [sampleNode span_id] := by
  rw [nodesOf, itemsAt, sampleLineage, Json.get?_ofMembers]
  rfl

theorem construct_sample {span_id : String}
    (hspan : span_id = "span_01234567" ∨ span_id = "span_89abcdef") :
    construct (fun _ => 0) evidenceFiles.artifacts (evidenceDocument false).value
      (sampleLineage span_id) = .ok () := by
  have hschema : lineageSchema (sampleLineage span_id) = true := by
    rcases hspan with rfl | rfl <;> decide +kernel
  have hid : (sampleLineage span_id).get? "conversation_id" =
      (evidenceDocument false).value.get? "conversation_id" := by
    rcases hspan with rfl | rfl <;> decide +kernel
  have hedges : edgesOf (sampleLineage span_id) = [] := by
    rw [edgesOf, itemsAt, sampleLineage, Json.get?_ofMembers]
    rfl
  have hconclusions : conclusionRefs (sampleLineage span_id) = ["ln_01234567"] := by
    rw [conclusionRefs, itemsAt, sampleLineage, Json.get?_ofMembers]
    rfl
  have hconclusion : validateConclusion (sampleLineage span_id) "ln_01234567" = .ok () := by
    rcases hspan with rfl | rfl <;> decide +kernel
  have hrefs : spanRefsOf (sampleNode span_id) = [span_id] := by
    rcases hspan with rfl | rfl <;> decide +kernel
  have hmessage : (messageRefsOf (sampleNode span_id)).mapM
      (sourceMessage (evidenceDocument false).value (sampleNode span_id)) =
        .ok [evidenceMessage] := by
    rcases hspan with rfl | rfl <;> decide +kernel
  have hchecked : checkSpanRef (fun _ => 0) evidenceFiles.artifacts (evidenceDocument false).value
      (sampleNode span_id) span_id = .ok () := by
    rw [checkSpanRef, if_pos]
    · exact bind_eq_ok.mpr ⟨evidenceText, resolve_evidence false hspan, rfl⟩
    · rw [evidenceDocument, spansOf_evidence]
      rcases hspan with rfl | rfl <;> simp
  have hnode : validateNode (fun _ => 0) evidenceFiles.artifacts (evidenceDocument false).value
      (sampleNode span_id) = .ok () := by
    refine bind_eq_ok.mpr ⟨_, hmessage, bind_eq_ok.mpr ⟨(), forM_ok_iff.mpr ?_, ?_⟩⟩
    · rw [hrefs]
      simpa using hchecked
    · have hany : ([evidenceMessage].any fun message => !isVerbatim message) = false := by
        decide +kernel
      rw [if_neg (by simp [hany])]
      rfl
  refine bind_eq_ok.mpr ⟨(), validateSchema_ok.mpr hschema, ?_⟩
  rw [if_neg (not_not.mpr hid)]
  refine bind_eq_ok.mpr ⟨(), requireDistinct_ok.mpr ?_, ?_⟩
  · rw [nodesOf_sample]
    exact List.nodup_singleton _
  · rw [hedges, nodesOf_sample, hconclusions]
    refine bind_eq_ok.mpr ⟨[], rfl, bind_eq_ok.mpr ⟨(), forM_ok_iff.mpr ?_, forM_ok_iff.mpr ?_⟩⟩
    · simpa using hnode
    · simpa using hconclusion

theorem verbatim_nodes_iff_sample :
    (∀ node ∈ nodesOf (sampleLineage "span_01234567"), isVerbatim node = true → ∀ cs,
        citations (fun _ => 0) evidenceFiles.artifacts (evidenceDocument false).value
          (sampleLineage "span_01234567") (strAt node "node_id") = .ok cs →
            ∀ c ∈ cs, isVerbatim c = true) ↔
      ∀ node ∈ nodesOf (sampleLineage "span_01234567"), isVerbatim node = true →
        Citable (fun _ => 0) evidenceFiles.artifacts (evidenceDocument false).value node →
          ∀ span ∈ spansOf (evidenceDocument false).value,
            strAt span "span_id" ∈ spanRefsOf node → isVerbatim span = true :=
  verbatim_nodes_iff (commit_evidence false) (construct_sample (Or.inl rfl))

/-- A verbatim node of an accepted lineage with a citation that is not verbatim. -/
theorem reconstructed_citation :
    (commit .hashlib (fun _ => 0) StoreConfig.plain.formats (evidenceDocument false).value "u3"
      evidenceFiles).1 = .ok (evidenceDocument false).value ∧
    construct (fun _ => 0) evidenceFiles.artifacts (evidenceDocument false).value
      (sampleLineage "span_89abcdef") = .ok () ∧
    isVerbatim (sampleNode "span_89abcdef") = true ∧
    ∃ c, citations (fun _ => 0) evidenceFiles.artifacts (evidenceDocument false).value
        (sampleLineage "span_89abcdef") "ln_01234567" = .ok [c] ∧
      c.get? "evidence_status" = some (.str "reconstructed") := by
  refine ⟨commit_evidence false, construct_sample (Or.inr rfl), by decide +kernel, ?_⟩
  have hnode : byId "node_id" (nodesOf (sampleLineage "span_89abcdef")) "ln_01234567" =
      some (sampleNode "span_89abcdef") := by decide +kernel
  have hrefs : spanRefsOf (sampleNode "span_89abcdef") = ["span_89abcdef"] := by decide +kernel
  have hspan : byId "span_id" (spansOf (evidenceDocument false).value) "span_89abcdef" =
      some (evidenceSpan "span_89abcdef" "reconstructed") := by decide +kernel
  have hsource : byId "source_id" (sourcesOf (evidenceDocument false).value)
      (strAt (evidenceSpan "span_89abcdef" "reconstructed") "source_id") =
        some (evidenceSource "src_checkpoint") := by decide +kernel
  have htext : resolve_span_text (fun _ => 0) evidenceFiles.artifacts
      (evidenceDocument false).value "span_89abcdef" = .ok "evidence" := by
    refine bind_eq_ok.mpr ⟨evidenceText, resolve_evidence false (Or.inr rfl), ?_⟩
    rw [evidenceText, Json.decode_toUTF8]
  have hcitation : citation (fun _ => 0) evidenceFiles.artifacts (evidenceDocument false).value
      "span_89abcdef" = .ok (citationFor (evidenceSpan "span_89abcdef" "reconstructed")
        (evidenceSource "src_checkpoint") "evidence") := by
    rw [citation, hspan]
    dsimp only
    rw [hsource]
    exact bind_eq_ok.mpr ⟨"evidence", htext, rfl⟩
  refine ⟨citationFor (evidenceSpan "span_89abcdef" "reconstructed")
    (evidenceSource "src_checkpoint") "evidence", ?_, ?_⟩
  · rw [citations, hnode]
    dsimp only
    rw [hrefs]
    exact mapM_eq_ok.mpr (.cons hcitation .nil)
  · decide +kernel

end Sample

end ConversationLineage

end FossilCore
