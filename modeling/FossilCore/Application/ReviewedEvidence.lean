import FossilCore.Application.PackValidation
import FossilCore.Conversation.SourceIds

/-!
# Reviewed evidence

How an ingest of `application/ingest/reviewed_evidence.py` begins: the checks made before any store
is touched, and the receipt it opens.  The id of the receipt is a digest of three joined texts.
What `str.lower` does is a parameter.
-/

namespace FossilCore

open Base

namespace ReviewedEvidence

def ingestError (message : String) : Error := ⟨.reviewedEvidenceIngestError, message⟩

def receiptIdText (correlation_id review_ref pack_id : String) : String :=
  correlation_id ++ "\x1f" ++ review_ref ++ "\x1f" ++ pack_id

def _receipt_id (sha256 : Sha256) (correlation_id review_ref pack_id : String) : String :=
  "ingest_receipt_" ++
    Text.take (sha256.hexdigest (receiptIdText correlation_id review_ref pack_id).toUTF8) 24

def _normalize_source_kind (lower : String → String) (source_kind : String) :
    Except Error String :=
  let normalized := lower (Text.trim source_kind)
  if normalized = "" then
    .error (ingestError "reviewed evidence ingest requires a non-empty source_kind")
  else .ok normalized

def sharedPackKinds : List String := ["common", "domain"]

def requiresPromotion (manifest : Json) : Bool :=
  ((manifest.get? "kind").getD (.str "")).pyStr ∈ sharedPackKinds

def _base_receipt (sha256 : Sha256) (pack_id source_kind review_ref correlation_id : String)
    (requires_explicit_promotion : Bool) : Json :=
  .ofMembers [
    ("schema_version", .str "fossil.reviewed-evidence-ingest-receipt.v1"),
    ("receipt_id", .str (_receipt_id sha256 correlation_id review_ref pack_id)),
    ("authority", .str "non_authoritative_receipt"),
    ("pack_id", .str pack_id),
    ("review_ref", .str review_ref),
    ("correlation_id", .str correlation_id),
    ("source", .ofMembers [("source_kind", .str source_kind), ("preserved", .bool false),
      ("artifact_id", .null), ("snapshot_id", .null)]),
    ("validation", .ofMembers [("pack", .str "passed"), ("source", .str "not_run"),
      ("events", .str "not_run"), ("provenance", .str "not_run"), ("evidence", .str "not_run"),
      ("ontology", .str "not_applicable")]),
    ("proposal_event_ids", .arr []),
    ("proposal_count", .int 0),
    ("accepted_count", .int 0),
    ("requires_explicit_promotion", .bool requires_explicit_promotion),
    ("rejection_reason", .null)]

/-- What a call of `ingest` gives for its receipt. -/
structure Ingest where
  pack_manifest : Json
  source_kind : String
  review_ref : String
  correlation_id : String
  requested_outcome : String

/-- `str(manifest["pack_id"])` -/
def packIdOf (call : Ingest) : String := strAt call.pack_manifest "pack_id"

/-- The beginning of `ingest`, up to the receipt. -/
def openReceipt (sha256 : Sha256) (formats : FormatChecker) (lower : String → String)
    (call : Ingest) : Except Error Json := do
  KnowledgePackValidator.validate formats call.pack_manifest
  let pack_id := (← liftPy (call.pack_manifest.getItem "pack_id")).pyStr
  let writable ← listed (.str pack_id) call.pack_manifest "write_targets"
  if !writable then
    .error (ingestError
      "reviewed evidence ingest requires the target pack as an explicit write target")
  else if call.review_ref = "" ∨ call.correlation_id = "" then
    .error (ingestError "reviewed evidence ingest requires review_ref and correlation_id")
  else if call.requested_outcome ≠ "proposed" then
    .error (ingestError ("accepted shared knowledge requires explicit review/promotion; " ++
      "reviewed evidence ingest emits proposals only"))
  else
    let source_kind ← _normalize_source_kind lower call.source_kind
    return _base_receipt sha256 pack_id source_kind call.review_ref call.correlation_id
      (requiresPromotion call.pack_manifest)

/-! ## Opened receipts -/

section Opened

variable {sha256 : Sha256} {formats : FormatChecker} {lower : String → String}
  {call call' : Ingest} {receipt receipt' : Json}

/-- The pack of a validated manifest, and a character that its id does not have. -/
theorem pack_id_of_validate {manifest : Json}
    (h : KnowledgePackValidator.validate formats manifest = .ok ()) :
    manifest.get? "pack_id" = some (.str (strAt manifest "pack_id")) ∧
      '\x1f' ∉ (strAt manifest "pack_id").toList := by
  have hschema := schema_of_validate h
  obtain ⟨fields, rfl⟩ :=
    Schema.isObj_of_type (Schema.allOf_iff.mp hschema _ List.mem_cons_self)
  obtain ⟨w, hget⟩ := Schema.get?_of_required (Schema.allOf_iff.mp hschema
    (Schema.required ["contract_version", "pack_id", "name", "kind", "schema_version",
      "read_mounts", "write_targets", "event_roots", "artifact_manifests"]) (by simp))
    (show "pack_id" ∈ _ by simp)
  have hid : _PACK_ID w = true :=
    Schema.of_properties (Schema.allOf_iff.mp hschema
      (Schema.properties (knowledgePackProperties formats)) (by simp))
      (by simp [knowledgePackProperties]) hget
  have hparts := Schema.allOf_iff.mp hid
  have htype := hparts (Schema.type [.string]) List.mem_cons_self
  have hpattern := hparts (Schema.pattern (Schema.isPrefixedId "pack_" 16)) (by simp)
  obtain ⟨pack_id, rfl⟩ := Schema.isStr_of_type htype
  have hat : strAt (.obj fields) "pack_id" = pack_id := by
    rw [strAt, hget]
    rfl
  rw [hat]
  refine ⟨hget, ?_⟩
  obtain ⟨body, tail, htext, -, hall, htail⟩ := Schema.isPrefixedId_iff.mp hpattern
  rw [htext, List.mem_append, List.mem_append]
  rintro (hc | hc | hc)
  · exact absurd hc (by decide)
  · exact absurd (hall _ hc) (by decide)
  · rcases htail with rfl | rfl
    · cases hc
    · exact absurd hc (by decide)

/-- What `ingest` has made sure of when it opens a receipt, and what the receipt states. -/
theorem openReceipt_ok (h : openReceipt sha256 formats lower call = .ok receipt) :
    '\x1f' ∉ (packIdOf call).toList ∧ call.review_ref ≠ "" ∧ call.correlation_id ≠ "" ∧
      ∃ source_kind promotion, receipt = _base_receipt sha256 (packIdOf call) source_kind
        call.review_ref call.correlation_id promotion := by
  obtain ⟨⟨⟩, hvalid, h⟩ := bind_eq_ok.mp h
  obtain ⟨hget, hsep⟩ := pack_id_of_validate hvalid
  have hitem := liftPy_eq_ok.mpr (Json.getItem_of_get? hget)
  obtain ⟨id, hid, h⟩ := bind_eq_ok.mp h
  obtain rfl : _ = id := Except.ok.inj (hitem.symm.trans hid)
  obtain ⟨writable, -, h⟩ := bind_eq_ok.mp h
  split at h
  · cases h
  · split at h
    · cases h
    · next hempty =>
        split at h
        · cases h
        · obtain ⟨source_kind, -, h⟩ := bind_eq_ok.mp h
          obtain ⟨hreview, hcorrelation⟩ := not_or.mp hempty
          exact ⟨hsep, hreview, hcorrelation, source_kind, _, (Except.ok.inj h).symm⟩

/-- A receipt is opened for other references too, as long as they are not empty. -/
theorem openReceipt_of_refs (h : openReceipt sha256 formats lower call = .ok receipt)
    {review_ref correlation_id : String} (hreview : review_ref ≠ "")
    (hcorrelation : correlation_id ≠ "") :
    ∃ source_kind promotion,
      openReceipt sha256 formats lower { call with review_ref, correlation_id } =
        .ok (_base_receipt sha256 (packIdOf call) source_kind review_ref correlation_id
          promotion) := by
  obtain ⟨⟨⟩, hvalid, h⟩ := bind_eq_ok.mp h
  obtain ⟨hget, -⟩ := pack_id_of_validate hvalid
  have hitem := liftPy_eq_ok.mpr (Json.getItem_of_get? hget)
  obtain ⟨id, hid, h⟩ := bind_eq_ok.mp h
  obtain rfl : _ = id := Except.ok.inj (hitem.symm.trans hid)
  obtain ⟨writable, hlisted, h⟩ := bind_eq_ok.mp h
  have hnone : ¬(review_ref = "" ∨ correlation_id = "") := not_or.mpr ⟨hreview, hcorrelation⟩
  unfold openReceipt
  rw [hvalid]
  show ∃ source_kind promotion, (liftPy _ >>= _) = _
  rw [hitem]
  show ∃ source_kind promotion, (listed _ _ _ >>= _) = _
  rw [hlisted]
  split at h
  · cases h
  · next hwritable =>
      split at h
      · cases h
      · split at h
        · cases h
        · next houtcome =>
            obtain ⟨source_kind, hkind, h⟩ := bind_eq_ok.mp h
            refine ⟨source_kind, requiresPromotion call.pack_manifest, ?_⟩
            show (if _ then _ else _) = _
            rw [if_neg hwritable, if_neg hnone, if_neg houtcome, hkind]
            rfl

/-! ## Receipt ids -/

/-- The members of a receipt that its id is there to tell apart. -/
def SameReceipt (receipt receipt' : Json) : Prop :=
  ∀ key ∈ ["correlation_id", "review_ref", "pack_id"], receipt.get? key = receipt'.get? key

theorem sameReceipt_iff {pack_id pack_id' source_kind source_kind' review_ref review_ref'
    correlation_id correlation_id' : String} {promotion promotion' : Bool} :
    SameReceipt
        (_base_receipt sha256 pack_id source_kind review_ref correlation_id promotion)
        (_base_receipt sha256 pack_id' source_kind' review_ref' correlation_id' promotion') ↔
      correlation_id = correlation_id' ∧ review_ref = review_ref' ∧ pack_id = pack_id' := by
  have hget : ∀ pack_id source_kind review_ref correlation_id promotion,
      let receipt := _base_receipt sha256 pack_id source_kind review_ref correlation_id promotion
      receipt.get? "correlation_id" = some (.str correlation_id) ∧
        receipt.get? "review_ref" = some (.str review_ref) ∧
        receipt.get? "pack_id" = some (.str pack_id) := by
    intro pack_id source_kind review_ref correlation_id promotion
    unfold _base_receipt
    simp only [Json.get?_ofMembers]
    exact ⟨rfl, rfl, rfl⟩
  obtain ⟨hc, hr, hp⟩ := hget pack_id source_kind review_ref correlation_id promotion
  obtain ⟨hc', hr', hp'⟩ := hget pack_id' source_kind' review_ref' correlation_id' promotion'
  simp only [SameReceipt, List.forall_mem_cons, hc, hc', hr, hr', hp, hp', Option.some.injEq,
    Json.str.injEq, List.not_mem_nil, false_implies, implies_true, and_true]

theorem receipt_id_eq_iff {pack_id pack_id' source_kind source_kind' review_ref review_ref'
    correlation_id correlation_id' : String} {promotion promotion' : Bool} :
    strAt (_base_receipt sha256 pack_id source_kind review_ref correlation_id promotion)
          "receipt_id" =
        strAt (_base_receipt sha256 pack_id' source_kind' review_ref' correlation_id' promotion')
          "receipt_id" ↔
      Text.take (sha256.hexdigest (receiptIdText correlation_id review_ref pack_id).toUTF8) 24 =
        Text.take (sha256.hexdigest
          (receiptIdText correlation_id' review_ref' pack_id').toUTF8) 24 := by
  have hid : ∀ pack_id source_kind review_ref correlation_id promotion,
      strAt (_base_receipt sha256 pack_id source_kind review_ref correlation_id promotion)
        "receipt_id" = _receipt_id sha256 correlation_id review_ref pack_id := by
    intro pack_id source_kind review_ref correlation_id promotion
    unfold strAt _base_receipt
    rw [Json.get?_ofMembers]
    rfl
  rw [hid, hid]
  unfold _receipt_id
  exact ⟨Text.append_left_cancel, fun h => by rw [h]⟩

/-- The pack can be read off the hashed text; of the two references only the joined text can. -/
theorem receiptIdText_eq_iff {pack_id pack_id' review_ref review_ref' correlation_id
    correlation_id' : String} (h : '\x1f' ∉ pack_id.toList) (h' : '\x1f' ∉ pack_id'.toList) :
    receiptIdText correlation_id review_ref pack_id =
        receiptIdText correlation_id' review_ref' pack_id' ↔
      correlation_id.toList ++ '\x1f' :: review_ref.toList =
          correlation_id'.toList ++ '\x1f' :: review_ref'.toList ∧ pack_id = pack_id' := by
  have htext : ∀ correlation_id review_ref pack_id : String,
      (receiptIdText correlation_id review_ref pack_id).toList =
        correlation_id.toList ++ '\x1f' :: review_ref.toList ++ '\x1f' :: pack_id.toList := by
    intro correlation_id review_ref pack_id
    unfold receiptIdText
    simp [String.toList_append]
  rw [← String.toList_inj, htext, htext, append_cons_inj_of_last h h', String.toList_inj]

/-- No receipt that is opened for other references or another pack has the id of this one. -/
def ReceiptIdTells (sha256 : Sha256) (formats : FormatChecker) (lower : String → String)
    (call : Ingest) (receipt : Json) : Prop :=
  ∀ call' receipt', openReceipt sha256 formats lower call' = .ok receipt' →
    sha256.Separates 24 (receiptIdText call.correlation_id call.review_ref (packIdOf call))
        (receiptIdText call'.correlation_id call'.review_ref (packIdOf call')) →
      strAt receipt "receipt_id" = strAt receipt' "receipt_id" → SameReceipt receipt receipt'

theorem receiptIdTells_iff (h : openReceipt sha256 formats lower call = .ok receipt) :
    ReceiptIdTells sha256 formats lower call receipt ↔
      '\x1f' ∉ call.correlation_id.toList.tail ∧ '\x1f' ∉ call.review_ref.toList.dropLast := by
  obtain ⟨hsep, -, -, source_kind, promotion, rfl⟩ := openReceipt_ok h
  rw [← not_or, ← exists_other_inner_cut_iff, not_exists]
  constructor
  · rintro htells correlation ⟨review, hcorrelation, hreview, heq, hne⟩
    obtain ⟨source_kind', promotion', hother⟩ := openReceipt_of_refs h
      (show String.ofList review ≠ "" from fun hempty => hreview (by simpa using hempty))
      (show String.ofList correlation ≠ "" from fun hempty => hcorrelation (by simpa using hempty))
    have htext := (receiptIdText_eq_iff hsep hsep).mpr
      ⟨show call.correlation_id.toList ++ '\x1f' :: call.review_ref.toList =
          (String.ofList correlation).toList ++ '\x1f' :: (String.ofList review).toList by
        rw [String.toList_ofList, String.toList_ofList, heq], rfl⟩
    have hsame := htells _ _ hother (fun _ => htext) (receipt_id_eq_iff.mpr (by rw [htext]))
    apply hne
    rw [(sameReceipt_iff.mp hsame).1, String.toList_ofList]
  · intro hnone call' receipt' h' hseparates hid
    obtain ⟨hsep', hreview', hcorrelation', source_kind', promotion', rfl⟩ := openReceipt_ok h'
    have htext := hseparates (receipt_id_eq_iff.mp hid)
    obtain ⟨hjoined, hpack⟩ := (receiptIdText_eq_iff hsep hsep').mp htext
    have hcorrelation : call'.correlation_id.toList = call.correlation_id.toList := by
      by_contra hne
      exact hnone _ ⟨call'.review_ref.toList, by simpa using hcorrelation', by simpa using hreview',
        hjoined.symm, hne⟩
    rw [hcorrelation] at hjoined
    have hreview := (List.cons.inj (List.append_cancel_left hjoined)).2
    exact sameReceipt_iff.mpr ⟨String.toList_inj.mp hcorrelation.symm, String.toList_inj.mp hreview,
      hpack⟩

end Opened

end ReviewedEvidence

/-! ## Identities -/

/-- The id of a source tells it from every other exactly when its label and its reference are
without the separator and the reference is there; the id of a receipt does exactly when its
references have the separator at most on the outside. -/
theorem identities_tell_iff (sha256 : Sha256) (formats : FormatChecker) (lower : String → String) :
    (∀ (call : ConversationStore.AddSource) (files : ConversationFiles) (source : Json),
      (ConversationStore.add_source sha256 call files).1 = .ok source →
        (ConversationStore.SourceIdTells sha256 call source ↔
          '\x1f' ∉ call.label.toList ∧
            ∃ ref, call.external_ref = some ref ∧ ref ≠ "" ∧ '\x1f' ∉ ref.toList)) ∧
    ∀ (call : ReviewedEvidence.Ingest) (receipt : Json),
      ReviewedEvidence.openReceipt sha256 formats lower call = .ok receipt →
        (ReviewedEvidence.ReceiptIdTells sha256 formats lower call receipt ↔
          '\x1f' ∉ call.correlation_id.toList.tail ∧
            '\x1f' ∉ call.review_ref.toList.dropLast) :=
  ⟨fun _ _ _ h => ConversationStore.sourceIdTells_iff h,
    fun _ _ h => ReviewedEvidence.receiptIdTells_iff h⟩

def noteSource (external_ref : Option String) : ConversationStore.AddSource where
  data := "note".toUTF8
  evidence_status := "verbatim"
  media_type := "text/plain"
  label := "notes"
  external_ref := external_ref
  blob_uuid := "u1"
  manifest_uuid := "u2"

theorem add_noteSource (external_ref : Option String) :
    (ConversationStore.add_source .hashlib (noteSource external_ref) ⟨∅, ∅⟩).1 =
      .ok (ConversationStore.sourceWith .hashlib (noteSource external_ref)) :=
  ConversationStore.add_source_empty List.mem_cons_self

def reviewedIngest : ReviewedEvidence.Ingest where
  pack_manifest := commonManifest
  source_kind := "paper"
  review_ref := "review-1"
  correlation_id := "run-1"
  requested_outcome := "proposed"

theorem open_reviewedIngest : ∃ receipt,
    ReviewedEvidence.openReceipt .hashlib anyFormat id reviewedIngest = .ok receipt :=
  ⟨_, rfl⟩

theorem identities_tell_of_plain :
    ConversationStore.SourceIdTells .hashlib (noteSource (some "ref-1"))
        (ConversationStore.sourceWith .hashlib (noteSource (some "ref-1"))) ∧
      ∃ receipt, ReviewedEvidence.ReceiptIdTells .hashlib anyFormat id reviewedIngest receipt := by
  obtain ⟨hsource, hreceipt⟩ := identities_tell_iff .hashlib anyFormat id
  obtain ⟨receipt, hopen⟩ := open_reviewedIngest
  refine ⟨(hsource _ ⟨∅, ∅⟩ _ (add_noteSource (some "ref-1"))).mpr ?_, receipt,
    (hreceipt _ _ hopen).mpr ?_⟩
  · exact ⟨by decide, "ref-1", rfl, by decide, by decide⟩
  · decide

/-- A source without a reference has the id of the one whose reference is empty. -/
theorem source_id_of_no_ref :
    ∃ source source', (ConversationStore.add_source .hashlib (noteSource none) ⟨∅, ∅⟩).1 =
        .ok source ∧
      (ConversationStore.add_source .hashlib (noteSource (some "")) ⟨∅, ∅⟩).1 = .ok source' ∧
      strAt source "source_id" = strAt source' "source_id" ∧
      ¬ConversationStore.SameSource source source' := by
  refine ⟨_, _, add_noteSource none, add_noteSource (some ""), rfl, fun hsame => ?_⟩
  have hnone := (ConversationStore.sameSource_iff.mp hsame).2.2.2
  cases hnone

end FossilCore
