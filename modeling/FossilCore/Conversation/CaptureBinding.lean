import FossilCore.Conversation.CaptureReceipt

/-!
# Captures bound to their bytes

A receipt is bound to the bytes whose digest and count it states.  Binding records the identity of
the bytes in the artifact store, and leaves the rest of the receipt, its validity and its
completeness as they were.
-/

namespace FossilCore

open Base Json

namespace SharedChatCapture

open Schema (closedObject closedObject_set)

/-! ## Receipts that agree on what is checked -/

section Congruence

variable {v w : Json} {formats : FormatChecker} {truncate : FloatText → ℤ}

/-- The parts of a receipt that the checks read. -/
structure SameChecked (v w : Json) : Prop where
  graph : v.get? "graph" = w.get? "graph"
  completeness : v.get? "completeness" = w.get? "completeness"
  continuation : v.get? "continuation" = w.get? "continuation"

theorem completeSchema_congr (hv : v.isObj = true) (hw : w.isObj = true) (h : SameChecked v w) :
    completeSchema v = completeSchema w := by
  have hcondition : Schema.allOf [Schema.properties
      [("completeness", Schema.const (.str "complete"))], Schema.required ["completeness"]] v =
      Schema.allOf [Schema.properties [("completeness", Schema.const (.str "complete"))],
        Schema.required ["completeness"]] w := by
    rw [Bool.eq_iff_iff, Schema.allOf_iff, Schema.allOf_iff]
    simp only [List.forall_mem_cons, List.not_mem_nil, false_implies, implies_true, and_true,
      Schema.required_iff hv, Schema.required_iff hw, h.completeness]
    rw [Schema.properties_congr hv hw (by simpa using h.completeness)]
  rw [completeSchema, Schema.ifThen, Schema.ifThen, hcondition,
    Schema.properties_congr hv hw (by simpa using ⟨h.graph, h.continuation⟩)]

theorem checkComplete_congr (hv : v.isObj = true) (hw : w.isObj = true)
    (h : v.get? "continuation" = w.get? "continuation") (graph : Json) (sets : Accounting) :
    checkComplete graph sets v = checkComplete graph sets w := by
  rw [checkComplete, checkComplete, getItem_congr hv hw h]

theorem validate_ok {receipt candidate : Json}
    (h : validate_shared_chat_capture_receipt truncate formats receipt = .ok candidate) :
    candidate = receipt ∧ receipt.isObj = true ∧ receiptSchema formats receipt = true := by
  rw [validate_shared_chat_capture_receipt, bind_eq_ok] at h
  obtain ⟨other, hmapping, h⟩ := h
  rw [asMapping] at hmapping
  split at hmapping
  case isFalse => cases hmapping
  case isTrue hobj =>
    cases hmapping
    split at h
    case isTrue => cases h
    case isFalse hschema =>
      refine ⟨?_, hobj, by simpa using hschema⟩
      obtain ⟨graph, -, h⟩ := bind_eq_ok.mp h
      obtain ⟨sets, -, h⟩ := bind_eq_ok.mp h
      obtain ⟨-, -, h⟩ := bind_eq_ok.mp h
      obtain ⟨-, -, h⟩ := bind_eq_ok.mp h
      obtain ⟨-, -, h⟩ := bind_eq_ok.mp h
      obtain ⟨-, -, h⟩ := bind_eq_ok.mp h
      obtain ⟨completeness, -, h⟩ := bind_eq_ok.mp h
      obtain ⟨-, -, h⟩ := bind_eq_ok.mp h
      exact (Except.ok.inj h).symm

/-- A valid receipt stays valid when what the checks read is left as it was. -/
theorem validate_congr (hw : w.isObj = true) (h : SameChecked w v)
    (hschema : receiptSchema formats w = true)
    (hvalid : validate_shared_chat_capture_receipt truncate formats v = .ok v) :
    validate_shared_chat_capture_receipt truncate formats w = .ok w := by
  obtain ⟨-, hv, hschema'⟩ := validate_ok hvalid
  rw [validate_shared_chat_capture_receipt, asMapping, if_pos hv] at hvalid
  rw [validate_shared_chat_capture_receipt, asMapping, if_pos hw]
  obtain ⟨_, hmapping, hvalid⟩ := bind_eq_ok.mp hvalid
  cases hmapping
  rw [if_neg (by rw [hschema']; decide)] at hvalid
  refine bind_eq_ok.mpr ⟨_, rfl, ?_⟩
  rw [if_neg (by rw [hschema]; decide), getItem_congr hw hv h.graph,
    getItem_congr hw hv h.completeness]
  obtain ⟨graph, hgraph, hvalid⟩ := bind_eq_ok.mp hvalid
  obtain ⟨sets, hsets, hvalid⟩ := bind_eq_ok.mp hvalid
  obtain ⟨_, hcounts, hvalid⟩ := bind_eq_ok.mp hvalid
  obtain ⟨_, hsubsets, hvalid⟩ := bind_eq_ok.mp hvalid
  obtain ⟨_, hpartition, hvalid⟩ := bind_eq_ok.mp hvalid
  obtain ⟨_, hreferences, hvalid⟩ := bind_eq_ok.mp hvalid
  obtain ⟨completeness, hcompleteness, hvalid⟩ := bind_eq_ok.mp hvalid
  obtain ⟨_, hcomplete, -⟩ := bind_eq_ok.mp hvalid
  rw [← checkComplete_congr hw hv h.continuation] at hcomplete
  exact bind_eq_ok.mpr ⟨graph, hgraph, bind_eq_ok.mpr ⟨sets, hsets, bind_eq_ok.mpr ⟨_, hcounts,
    bind_eq_ok.mpr ⟨_, hsubsets, bind_eq_ok.mpr ⟨_, hpartition, bind_eq_ok.mpr ⟨_, hreferences,
      bind_eq_ok.mpr ⟨completeness, hcompleteness, bind_eq_ok.mpr ⟨_, hcomplete, rfl⟩⟩⟩⟩⟩⟩⟩⟩

end Congruence

/-! ## Binding -/

section Binding

variable {sha256 : Sha256} {truncate : FloatText → ℤ} {formats : FormatChecker}
  {receipt bound : Json} {source_bytes : ByteArray} {artifact_id : Option String}

/-- The source states the digest and the count of the bytes, and no other identity of them. -/
structure StatesBytes (sha256 : Sha256) (truncate : FloatText → ℤ) (source : Json)
    (source_bytes : ByteArray) : Prop where
  digest : source.get? "sha256" = some (.str (sha256.hexdigest source_bytes))
  count : ∃ n, source.get? "byte_count" = some n ∧ toInt truncate n = .ok source_bytes.size
  identity : ∀ v, source.get? "artifact_id" = some v →
    v = .null ∨ v = .str (expectedArtifactId sha256 source_bytes)

/-- The receipt with the identity of its bytes. -/
def boundTo (sha256 : Sha256) (receipt source : Json) (source_bytes : ByteArray) : Json :=
  receipt.set "source"
    (source.set "artifact_id" (.str (expectedArtifactId sha256 source_bytes)))

theorem expectedArtifactId_ne (sha256 : Sha256) (source_bytes : ByteArray) :
    expectedArtifactId sha256 source_bytes ≠ "" := by
  intro h
  have hlist := congrArg String.toList h
  rw [expectedArtifactId, String.toList_append] at hlist
  simp at hlist

theorem source_of_schema
    (h : receiptSchema formats receipt = true) :
    ∃ source, receipt.get? "source" = some source ∧ sourceSchema formats source = true ∧
      source.isObj = true := by
  have hclosed := Schema.allOf_iff.mp h _ List.mem_cons_self
  obtain ⟨source, hsource, hschema⟩ := Schema.member_of_object hclosed "source"
    (sourceSchema formats) (by simp) (by simp [receiptMembers])
  obtain ⟨fields, rfl⟩ :=
    Schema.isObj_of_type (Schema.allOf_iff.mp hschema _ List.mem_cons_self)
  exact ⟨_, hsource, hschema, rfl⟩

theorem validate_boundTo {source : Json}
    (hvalid : validate_shared_chat_capture_receipt truncate formats receipt = .ok receipt)
    (hsource : receipt.get? "source" = some source) :
    validate_shared_chat_capture_receipt truncate formats
        (boundTo sha256 receipt source source_bytes) =
      .ok (boundTo sha256 receipt source source_bytes) := by
  obtain ⟨-, hobj, hschema⟩ := validate_ok hvalid
  obtain ⟨source', hsource', hsourceSchema, hsourceObj⟩ := source_of_schema hschema
  cases hsource.symm.trans hsource'
  have hother : ∀ key, key ≠ "source" →
      (boundTo sha256 receipt source source_bytes).get? key = receipt.get? key :=
    fun key hne => get?_set_ne _ receipt hne
  have hsame : SameChecked (boundTo sha256 receipt source source_bytes) receipt :=
    ⟨hother _ (by decide), hother _ (by decide), hother _ (by decide)⟩
  have hboundObj := isObj_set hobj "source"
    (source.set "artifact_id" (.str (expectedArtifactId sha256 source_bytes)))
  have hnewSource : sourceSchema formats
      (source.set "artifact_id" (.str (expectedArtifactId sha256 source_bytes))) = true :=
    closedObject_set (by simp) (List.mem_cons_of_mem _ List.mem_cons_self)
      ((@nullableText_optional (some (expectedArtifactId sha256 source_bytes))).mpr
        fun h => expectedArtifactId_ne sha256 source_bytes (Option.some.inj h))
      hsourceObj hsourceSchema
  refine validate_congr hboundObj hsame ?_ hvalid
  have hparts := Schema.allOf_iff.mp hschema
  rw [receiptSchema, Schema.allOf_iff]
  simp only [List.forall_mem_cons, List.not_mem_nil, false_implies, implies_true, and_true]
  refine ⟨closedObject_set (by simp [receiptMembers]) (by simp [receiptMembers]) hnewSource hobj
    (hparts _ List.mem_cons_self), ?_⟩
  rw [boundTo, completeSchema_congr hboundObj hobj hsame]
  exact hparts _ (List.mem_cons_of_mem _ List.mem_cons_self)

theorem checkIdentity_iff {declared : Option Json} {expected : String} :
    ¬ (declared.getD .null ≠ .null ∧ declared.getD .null ≠ .str expected) ↔
      ∀ v, declared = some v → v = .null ∨ v = .str expected := by
  cases declared with
  | none => simp
  | some v =>
      simp only [Option.getD_some, Option.some.injEq, forall_eq']
      tauto

/-- A receipt is bound when it is valid and states the bytes, and no other identity of
them is given; the bound receipt is the receipt with the identity of its bytes. -/
theorem bind_ok_iff :
    bind_shared_chat_capture_source truncate formats sha256 receipt source_bytes artifact_id =
        .ok bound ↔
      validate_shared_chat_capture_receipt truncate formats receipt = .ok receipt ∧
        (∀ id, artifact_id = some id → id = expectedArtifactId sha256 source_bytes) ∧
        ∃ source, receipt.get? "source" = some source ∧
          StatesBytes sha256 truncate source source_bytes ∧
          bound = boundTo sha256 receipt source source_bytes := by
  rw [bind_shared_chat_capture_source, bind_eq_ok]
  constructor
  · rintro ⟨candidate, hvalid, h⟩
    obtain ⟨rfl, -, hschema⟩ := validate_ok hvalid
    obtain ⟨source, hsource, -, hsourceObj⟩ := source_of_schema hschema
    rw [getItem_of_get? hsource] at h
    obtain ⟨_, hitem, h⟩ := bind_eq_ok.mp h
    cases hitem
    obtain ⟨stated, hstated, h⟩ := bind_eq_ok.mp h
    obtain ⟨_, hdigest, h⟩ := bind_eq_ok.mp h
    obtain ⟨count, hcount, h⟩ := bind_eq_ok.mp h
    obtain ⟨_, hsize, h⟩ := bind_eq_ok.mp h
    rw [getMethod_of_isObj hsourceObj] at h
    obtain ⟨declared, hdeclared, h⟩ := bind_eq_ok.mp h
    cases hdeclared
    obtain ⟨_, hidentity, h⟩ := bind_eq_ok.mp h
    obtain ⟨_, hgiven, h⟩ := bind_eq_ok.mp h
    have hdigest' := not_not.mp (refuse_ok.mp hdigest)
    have hsize' := not_not.mp (refuse_ok.mp hsize)
    obtain ⟨n, hn, hint⟩ := bind_eq_ok.mp hcount
    rw [hdigest'] at hstated
    rw [hsize'] at hint
    refine ⟨hvalid, ?_, source, hsource, ⟨getItem_ok_iff.mp (liftPy_eq_ok.mp hstated),
      ⟨n, getItem_ok_iff.mp (liftPy_eq_ok.mp hn), hint⟩,
      checkIdentity_iff.mp (refuse_ok.mp hidentity)⟩, ?_⟩
    · rintro id rfl
      simpa using refuse_ok.mp hgiven
    · have hbound := @validate_boundTo sha256 truncate formats _ source_bytes source hvalid hsource
      exact Except.ok.inj (h.symm.trans hbound)
  · rintro ⟨hvalid, hgiven, source, hsource, hstates, rfl⟩
    obtain ⟨-, -, hschema⟩ := validate_ok hvalid
    obtain ⟨source', hsource', -, hsourceObj⟩ := source_of_schema hschema
    cases hsource.symm.trans hsource'
    obtain ⟨n, hn, hint⟩ := hstates.count
    have hgiven' : ¬ (artifact_id.any fun id => id ≠ expectedArtifactId sha256 source_bytes) =
        true := by
      cases artifact_id with
      | none => simp
      | some id => simp [hgiven id rfl]
    refine ⟨receipt, hvalid, ?_⟩
    rw [getItem_of_get? hsource]
    refine bind_eq_ok.mpr ⟨source, rfl, ?_⟩
    rw [getItem_of_get? hstates.digest, getItem_of_get? hn, getMethod_of_isObj hsourceObj]
    refine bind_eq_ok.mpr ⟨_, rfl, bind_eq_ok.mpr ⟨(), refuse_ok.mpr (not_not.mpr rfl), ?_⟩⟩
    refine bind_eq_ok.mpr ⟨_, hint, bind_eq_ok.mpr ⟨(), refuse_ok.mpr (not_not.mpr rfl), ?_⟩⟩
    refine bind_eq_ok.mpr ⟨_, rfl, bind_eq_ok.mpr ⟨(),
      refuse_ok.mpr (checkIdentity_iff.mpr hstates.identity), ?_⟩⟩
    exact bind_eq_ok.mpr ⟨(), refuse_ok.mpr hgiven', validate_boundTo hvalid hsource⟩

/-! ## After binding -/

theorem statesBytes_set {source : Json} (hobj : source.isObj = true)
    (h : StatesBytes sha256 truncate source source_bytes) :
    StatesBytes sha256 truncate
      (source.set "artifact_id" (.str (expectedArtifactId sha256 source_bytes))) source_bytes := by
  have hother : ∀ key, key ≠ "artifact_id" →
      (source.set "artifact_id" (.str (expectedArtifactId sha256 source_bytes))).get? key =
        source.get? key := fun key hne => get?_set_ne _ source hne
  refine ⟨(hother _ (by decide)).trans h.digest, ?_, ?_⟩
  · obtain ⟨n, hn, hint⟩ := h.count
    exact ⟨n, (hother _ (by decide)).trans hn, hint⟩
  · intro v hv
    rw [get?_set hobj, if_pos rfl] at hv
    exact Or.inr (Option.some.inj hv).symm

/-- Binding a bound receipt again changes nothing. -/
theorem bind_again
    (h : bind_shared_chat_capture_source truncate formats sha256 receipt source_bytes artifact_id =
      .ok bound) :
    bind_shared_chat_capture_source truncate formats sha256 bound source_bytes
      (some (expectedArtifactId sha256 source_bytes)) = .ok bound := by
  obtain ⟨hvalid, -, source, hsource, hstates, rfl⟩ := bind_ok_iff.mp h
  obtain ⟨-, hobj, hschema⟩ := validate_ok hvalid
  obtain ⟨source', hsource', -, hsourceObj⟩ := source_of_schema hschema
  cases hsource.symm.trans hsource'
  refine bind_ok_iff.mpr ⟨validate_boundTo hvalid hsource, fun id hid => (Option.some.inj hid).symm,
    _, ?_, statesBytes_set hsourceObj hstates, ?_⟩
  · rw [boundTo, get?_set hobj, if_pos rfl]
  · rw [boundTo, boundTo, set_set, set_set]

theorem require_complete_ok_iff {candidate : Json} :
    require_complete_shared_chat_capture truncate formats receipt = .ok candidate ↔
      validate_shared_chat_capture_receipt truncate formats receipt = .ok receipt ∧
        receipt.get? "completeness" = some (.str "complete") ∧ candidate = receipt := by
  rw [require_complete_shared_chat_capture, bind_eq_ok]
  constructor
  · rintro ⟨other, hvalid, h⟩
    obtain ⟨rfl, -, hschema⟩ := validate_ok hvalid
    obtain ⟨completeness, hcompleteness, h⟩ := bind_eq_ok.mp h
    obtain ⟨_, hcomplete, h⟩ := bind_eq_ok.mp h
    have hget := getItem_ok_iff.mp (liftPy_eq_ok.mp hcompleteness)
    have hclosed := Schema.allOf_iff.mp hschema _ List.mem_cons_self
    obtain ⟨v, hv, hnames⟩ := Schema.member_of_object hclosed "completeness"
      (Schema.enum (["complete", "incomplete", "unknown"].map .str)) (by simp)
      (by simp [receiptMembers])
    obtain ⟨name, -, rfl⟩ := Schema.str_of_enum hnames
    have hname : completeness = .str name := Option.some.inj (hget.symm.trans hv)
    have htext := not_not.mp (refuse_ok.mp hcomplete)
    rw [hname] at hget htext
    change name = "complete" at htext
    rw [htext] at hget
    exact ⟨hvalid, hget, (Except.ok.inj h).symm⟩
  · rintro ⟨hvalid, hcomplete, rfl⟩
    refine ⟨_, hvalid, ?_⟩
    rw [getItem_of_get? hcomplete]
    exact bind_eq_ok.mpr ⟨_, rfl, bind_eq_ok.mpr ⟨(), refuse_ok.mpr (not_not.mpr rfl), rfl⟩⟩

/-- A receipt is bound exactly when it is valid and states the bytes, and no other identity of
them is given.  The bound receipt differs in the identity of its bytes only, binding it again
changes nothing, and it may be ingested when the receipt could. -/
theorem capture_bound_once (sha256 : Sha256) (truncate : FloatText → ℤ) (formats : FormatChecker)
    (receipt : Json) (source_bytes : ByteArray) (artifact_id : Option String) (bound : Json) :
    (bind_shared_chat_capture_source truncate formats sha256 receipt source_bytes artifact_id =
        .ok bound ↔
      validate_shared_chat_capture_receipt truncate formats receipt = .ok receipt ∧
        (∀ id, artifact_id = some id → id = expectedArtifactId sha256 source_bytes) ∧
        ∃ source, receipt.get? "source" = some source ∧
          StatesBytes sha256 truncate source source_bytes ∧
          bound = boundTo sha256 receipt source source_bytes) ∧
    (bind_shared_chat_capture_source truncate formats sha256 receipt source_bytes artifact_id =
        .ok bound →
      bind_shared_chat_capture_source truncate formats sha256 bound source_bytes
          (some (expectedArtifactId sha256 source_bytes)) = .ok bound ∧
        (∀ key, key ≠ "source" → bound.get? key = receipt.get? key) ∧
        (require_complete_shared_chat_capture truncate formats bound = .ok bound ↔
          require_complete_shared_chat_capture truncate formats receipt = .ok receipt)) := by
  refine ⟨bind_ok_iff, ?_⟩
  intro h
  obtain ⟨hvalid, -, source, hsource, -, rfl⟩ := bind_ok_iff.mp h
  have hother : ∀ key, key ≠ "source" →
      (boundTo sha256 receipt source source_bytes).get? key = receipt.get? key :=
    fun key hne => get?_set_ne _ receipt hne
  refine ⟨bind_again h, hother, ?_⟩
  rw [require_complete_ok_iff, require_complete_ok_iff, hother "completeness" (by decide)]
  have hbound := @validate_boundTo sha256 truncate formats _ source_bytes source hvalid hsource
  simp only [hbound, hvalid, true_and]

end Binding

/-- Build the receipt of the exposed nodes, bind it to the captured bytes and ask for a complete
capture. -/
def ingestableReceipt (truncate : FloatText → ℤ) (formats : FormatChecker) (sha256 : Sha256)
    (capture : CaptureFields) (nodes : Nodes) (current_node_id : Option String)
    (source_bytes : ByteArray) : Except Error Json := do
  let receipt ← build_shared_chat_capture_receipt truncate formats capture nodes current_node_id
  let bound ← bind_shared_chat_capture_source truncate formats sha256 receipt source_bytes none
  require_complete_shared_chat_capture truncate formats bound

end SharedChatCapture

end FossilCore
