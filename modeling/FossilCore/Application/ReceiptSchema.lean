import FossilCore.Application.ReceiptKeys
import FossilCore.Base.ObjectSchema

/-!
# Receipts against their schema

`schemas/query-execution-receipt/v1.schema.json`.  What a receipt states is copied from the
services and from their results, some of it without a look at its range: the receipt conforms to
its schema exactly when these parts do.
-/

namespace FossilCore

open Base Json

namespace Receipt

open Schema (closedObject)

/-! ## The schema -/

def sha256Schema : Schema := Schema.allOf [Schema.type [.string], Schema.pattern isHexDigest]

/-- `^qrx_[0-9a-f]{24}$` -/
def isReceiptId : String → Bool :=
  Schema.matchesToEnd fun cs =>
    "qrx_".toList.isPrefixOf cs ∧ (cs.drop 4).length = 24 ∧ (cs.drop 4).all isHexChar

def arrayOf (item : Schema) : Schema := Schema.allOf [Schema.type [.array], Schema.items item]

def textOrNull : Schema := Schema.type [.string, .null]

def numberOrNull : Schema := Schema.type [.number, .null]

def serviceIdentitySchema : Schema :=
  closedObject ["kind", "provider", "provider_version", "implementation", "implementation_version",
    "model_id", "local", "runtime"]
    [("kind", _string 1), ("provider", _string 1), ("provider_version", _string 1),
      ("implementation", _string 1), ("implementation_version", _string 1),
      ("model_id", textOrNull), ("local", Schema.type [.boolean]),
      ("runtime", Schema.type [.object])]

def requestedServiceSchema : Schema :=
  closedObject ["provider", "model_id", "implementation"]
    [("provider", _string 1), ("model_id", textOrNull), ("implementation", _string 1)]

def attemptMembers : List (String × Schema) :=
  [("provider", Schema.type [.string]), ("model_id", textOrNull),
    ("implementation", Schema.type [.string]), ("outcome", Schema.type [.string]),
    ("error_type", Schema.type [.string]), ("fallback_reason", Schema.type [.string])]

def attemptSchema : Schema := closedObject [] attemptMembers

def serviceInvocationSchema : Schema :=
  closedObject ["role", "requested", "actual", "fallback_used", "attempts", "latency_ms",
    "cost_usd"]
    [("role", _string 1), ("requested", requestedServiceSchema),
      ("actual", serviceIdentitySchema), ("fallback_used", Schema.type [.boolean]),
      ("attempts", arrayOf attemptSchema),
      ("latency_ms", Schema.allOf [numberOrNull, Schema.minimum 0]),
      ("cost_usd", Schema.allOf [numberOrNull, Schema.minimum 0])]

def rankSchema : Schema := Schema.allOf [Schema.type [.integer], Schema.minimum 1]

def candidateSchema : Schema :=
  closedObject ["id", "pack_id", "rank", "score"]
    [("id", _string 1), ("pack_id", _string 1), ("rank", rankSchema), ("score", numberOrNull),
      ("base_rank", rankSchema), ("base_score", numberOrNull), ("rerank_score", numberOrNull)]

def resolverSchema : Schema :=
  closedObject ["resolver", "resolved_ids", "added_ids", "removed_ids", "final_context_ids",
    "diagnostics"]
    [("resolver", _string 1), ("resolved_ids", arrayOf (Schema.type [.string])),
      ("added_ids", arrayOf (Schema.type [.string])),
      ("removed_ids", arrayOf (Schema.type [.string])),
      ("final_context_ids", arrayOf (Schema.type [.string])),
      ("diagnostics", Schema.type [.object])]

def querySchema : Schema :=
  closedObject ["query_id", "text", "normalized", "sha256"]
    [("query_id", _string 1), ("text", _string 1), ("normalized", _string 1),
      ("sha256", sha256Schema)]

def packSchema : Schema :=
  closedObject ["pack_id", "revision"] [("pack_id", _string 1), ("revision", _string 1)]

def projectionSchema : Schema :=
  closedObject ["name", "version", "build_id"]
    [("name", _string 1), ("version", _string 1), ("build_id", _string 1)]

def policySchema : Schema :=
  closedObject ["route_id", "retrieval_policy_id", "mode"]
    [("route_id", _string 1), ("retrieval_policy_id", _string 1), ("mode", _string 1)]

def retrievalSchema : Schema :=
  closedObject ["candidates", "candidate_count"]
    [("candidates", arrayOf candidateSchema),
      ("candidate_count", Schema.allOf [Schema.type [.integer], Schema.minimum 0])]

def contextSchema : Schema :=
  closedObject ["item_ids", "citation_ids"]
    [("item_ids", arrayOf (_string 1)), ("citation_ids", arrayOf (_string 1))]

def resultSchema : Schema :=
  closedObject ["outcome", "abstained", "claim_ids", "citation_ids", "confidence", "authority"]
    [("outcome", _string 1), ("abstained", Schema.type [.boolean]),
      ("claim_ids", arrayOf (_string 1)), ("citation_ids", arrayOf (_string 1)),
      ("confidence", Schema.allOf [numberOrNull, Schema.minimum 0, Schema.maximum 1]),
      ("authority", _string 1)]

def telemetrySchema : Schema :=
  closedObject ["latency_ms", "cost_usd", "trace_ref", "run_ref"]
    [("latency_ms", Schema.allOf [Schema.type [.number], Schema.minimum 0]),
      ("cost_usd", Schema.allOf [Schema.type [.number], Schema.minimum 0]),
      ("trace_ref", _string 1), ("run_ref", textOrNull)]

def scopeSchema : Schema :=
  Schema.allOf [Schema.type [.array], Schema.minItems 1, Schema.uniqueItems,
    Schema.items (_string 1)]

def receiptSchema (formats : FormatChecker) : Schema :=
  closedObject ["schema_version", "receipt_id", "recorded_at", "authority", "query", "packs",
    "pack_scope_ids", "projection", "policy", "services", "retrieval", "resolvers", "context",
    "result", "telemetry", "execution_identity_sha256", "result_sha256"]
    [("schema_version", Schema.const (.str "fossil.query-execution-receipt.v1")),
      ("receipt_id", Schema.allOf [Schema.type [.string], Schema.pattern isReceiptId]),
      ("recorded_at", Schema.allOf [Schema.type [.string], Schema.format formats.isDateTime]),
      ("authority", Schema.const (.str "execution_observability_only")),
      ("query", querySchema),
      ("packs", Schema.allOf [Schema.type [.array], Schema.minItems 1, Schema.items packSchema]),
      ("pack_scope_ids", scopeSchema),
      ("projection", projectionSchema),
      ("policy", policySchema),
      ("services", Schema.allOf [Schema.type [.array], Schema.minItems 2,
        Schema.items serviceInvocationSchema]),
      ("retrieval", retrievalSchema),
      ("resolvers", arrayOf resolverSchema),
      ("context", contextSchema),
      ("result", resultSchema),
      ("telemetry", telemetrySchema),
      ("execution_identity_sha256", sha256Schema),
      ("result_sha256", sha256Schema)]

/-! ## Values against their schemas -/

theorem arrayOf_iff {item : Schema} {xs : List Json} :
    arrayOf item (.arr xs) = true ↔ ∀ x ∈ xs, item x = true := by
  rw [arrayOf, Schema.allOf_iff]
  simp only [List.forall_mem_cons, List.not_mem_nil, false_implies, implies_true, and_true]
  exact ⟨fun h => List.all_eq_true.mp h.2, fun h => ⟨rfl, List.all_eq_true.mpr h⟩⟩

theorem arrayOf_texts {item : Schema} {ids : List String} :
    arrayOf item (texts ids) = true ↔ ∀ id ∈ ids, item (.str id) = true := by
  rw [texts, arrayOf_iff, List.forall_mem_map]

theorem arrayOf_strings (ids : List String) :
    arrayOf (Schema.type [.string]) (texts ids) = true := by
  rw [arrayOf_texts]
  exact fun _ _ => rfl

theorem textOrNull_optional (s : Option String) :
    textOrNull (SourceSnapshotStore.optionalText s) = true := by
  cases s <;> rfl

theorem numberOrNull_optional (x : Option FloatText) : numberOrNull (optionalFloat x) = true := by
  cases x <;> rfl

/-- A number that is not less than zero, or none. -/
def AtLeastZero (x : Option FloatText) : Prop := ∀ y, x = some y → Schema.atLeast y 0 = true

theorem minimum_iff {x : Option FloatText} :
    Schema.allOf [numberOrNull, Schema.minimum 0] (optionalFloat x) = true ↔ AtLeastZero x := by
  rw [Schema.allOf_iff]
  simp only [List.forall_mem_cons, List.not_mem_nil, false_implies, implies_true, and_true,
    numberOrNull_optional, true_and]
  cases x with
  | none => simp [AtLeastZero, optionalFloat, Schema.minimum]
  | some y => simp [AtLeastZero, optionalFloat, Schema.minimum]

theorem rankSchema_iff {n : ℤ} : rankSchema (.int n) = true ↔ 1 ≤ n := by
  rw [rankSchema, Schema.allOf_iff]
  simp only [List.forall_mem_cons, List.not_mem_nil, false_implies, implies_true, and_true]
  exact ⟨fun h => of_decide_eq_true h.2, fun h => ⟨rfl, decide_eq_true h⟩⟩

theorem sha256Schema_digest (sha256 : Sha256) (data : ByteArray) :
    sha256Schema (.str (sha256.hexdigest data)) = true := by
  apply Schema.of_text
  apply decide_eq_true
  apply Or.inl
  rw [decide_eq_true_eq, List.all_eq_true]
  exact ⟨sha256.length_hexdigest data, sha256.isHexChar_hexdigest data⟩

/-! ## The parts of a receipt -/

theorem serviceIdentitySchema_iff {identity : ServiceIdentity} :
    serviceIdentitySchema identity.json = true ↔
      identity.kind ≠ "" ∧ identity.provider ≠ "" ∧ identity.provider_version ≠ "" ∧
        identity.implementation ≠ "" ∧ identity.implementation_version ≠ "" ∧
          identity.runtime.isObj = true := by
  refine (Schema.closedObject_display [("kind", .str identity.kind, _string 1),
    ("provider", .str identity.provider, _string 1),
    ("provider_version", .str identity.provider_version, _string 1),
    ("implementation", .str identity.implementation, _string 1),
    ("implementation_version", .str identity.implementation_version, _string 1),
    ("model_id", SourceSnapshotStore.optionalText identity.model_id, textOrNull),
    ("local", .bool identity.is_local, Schema.type [.boolean]),
    ("runtime", identity.runtime, Schema.type [.object])] (by simp)).trans ?_
  have hobj : Schema.type [.object] identity.runtime = true ↔ identity.runtime.isObj = true := by
    cases identity.runtime <;> simp [Schema.type, Schema.hasType, isObj]
  have hlocal : Schema.type [.boolean] (.bool identity.is_local) = true := rfl
  simp only [List.forall_mem_cons, List.not_mem_nil, false_implies, implies_true, and_true,
    textSchema_iff, textOrNull_optional, hobj, hlocal, true_and]

theorem requestedServiceSchema_iff {requested : RequestedService} :
    requestedServiceSchema requested.json = true ↔
      requested.provider ≠ "" ∧ requested.implementation ≠ "" := by
  refine (Schema.closedObject_display [("provider", .str requested.provider, _string 1),
    ("model_id", SourceSnapshotStore.optionalText requested.model_id, textOrNull),
    ("implementation", .str requested.implementation, _string 1)] (by simp)).trans ?_
  simp only [List.forall_mem_cons, List.not_mem_nil, false_implies, implies_true, and_true,
    textSchema_iff, textOrNull_optional, true_and]

theorem serviceInvocationSchema_iff {service : ServiceInvocation} :
    serviceInvocationSchema service.json = true ↔
      service.role ≠ "" ∧ requestedServiceSchema service.requested.json = true ∧
        serviceIdentitySchema service.actual.json = true ∧
          (∀ attempt ∈ service.attempts, attemptSchema attempt = true) ∧
            AtLeastZero service.latency_ms ∧ Schema.atLeast service.cost_usd 0 = true := by
  refine (Schema.closedObject_display [("role", .str service.role, _string 1),
    ("requested", service.requested.json, requestedServiceSchema),
    ("actual", service.actual.json, serviceIdentitySchema),
    ("fallback_used", .bool service.fallback_used, Schema.type [.boolean]),
    ("attempts", .arr service.attempts, arrayOf attemptSchema),
    ("latency_ms", optionalFloat service.latency_ms,
      Schema.allOf [numberOrNull, Schema.minimum 0]),
    ("cost_usd", optionalFloat (some service.cost_usd),
      Schema.allOf [numberOrNull, Schema.minimum 0])] (by simp)).trans ?_
  have hfallback : Schema.type [.boolean] (.bool service.fallback_used) = true := rfl
  have hcost : AtLeastZero (some service.cost_usd) ↔ Schema.atLeast service.cost_usd 0 = true := by
    simp [AtLeastZero]
  simp only [List.forall_mem_cons, List.not_mem_nil, false_implies, implies_true, and_true,
    textSchema_iff, arrayOf_iff, minimum_iff, hfallback, hcost, true_and]

theorem candidateSchema_iff {record : CandidateRecord} :
    candidateSchema record.json = true ↔
      record.id ≠ "" ∧ record.pack_id ≠ "" ∧ 1 ≤ record.rank ∧
        ∀ base, record.base = some base → 1 ≤ base.1 := by
  have hjson : record.json = .ofMembers (Schema.shown [("id", some (.str record.id), _string 1),
      ("pack_id", some (.str record.pack_id), _string 1),
      ("rank", some (.int record.rank), rankSchema),
      ("score", some (optionalFloat record.score), numberOrNull),
      ("base_rank", record.base.map fun base => .int base.1, rankSchema),
      ("base_score", record.base.map fun base => optionalFloat base.2, numberOrNull),
      ("rerank_score", record.rerank_score.map optionalFloat, numberOrNull)]) := by
    unfold CandidateRecord.json Schema.shown
    cases record.base <;> cases record.rerank_score <;> rfl
  rw [hjson]
  refine (Schema.closedObject_iff _ (by simp) (by simp)).trans ?_
  simp only [List.forall_mem_cons, List.not_mem_nil, false_implies, implies_true, and_true,
    Option.some.injEq, forall_eq', textSchema_iff, rankSchema_iff, numberOrNull_optional, true_and,
    Option.map_eq_some_iff, forall_exists_index, and_imp, forall_apply_eq_imp_iff₂]

theorem resolverSchema_iff {record : ResolverRecord} :
    resolverSchema record.json = true ↔
      record.resolver ≠ "" ∧ record.diagnostics.isObj = true := by
  refine (Schema.closedObject_display [("resolver", .str record.resolver, _string 1),
    ("resolved_ids", texts record.resolved_ids, arrayOf (Schema.type [.string])),
    ("added_ids", texts record.added_ids, arrayOf (Schema.type [.string])),
    ("removed_ids", texts record.removed_ids, arrayOf (Schema.type [.string])),
    ("final_context_ids", texts record.final_context_ids, arrayOf (Schema.type [.string])),
    ("diagnostics", record.diagnostics, Schema.type [.object])] (by simp)).trans ?_
  have hobj : Schema.type [.object] record.diagnostics = true ↔
      record.diagnostics.isObj = true := by
    cases record.diagnostics <;> simp [Schema.type, Schema.hasType, isObj]
  simp only [List.forall_mem_cons, List.not_mem_nil, false_implies, implies_true, and_true,
    textSchema_iff, arrayOf_strings, hobj, true_and]

/-! ## Whole receipts -/

section

variable {sha256 : Sha256} {contents : Contents}

/-- A number of the unit interval, or none. -/
def InUnit (x : Option FloatText) : Prop :=
  ∀ y, x = some y → Schema.atLeast y 0 = true ∧ Schema.atMost y 1 = true

theorem unit_iff {x : Option FloatText} :
    Schema.allOf [numberOrNull, Schema.minimum 0, Schema.maximum 1] (optionalFloat x) = true ↔
      InUnit x := by
  rw [Schema.allOf_iff]
  simp only [List.forall_mem_cons, List.not_mem_nil, false_implies, implies_true, and_true,
    numberOrNull_optional, true_and]
  cases x <;> simp [InUnit, optionalFloat, Schema.minimum, Schema.maximum]

theorem querySchema_iff (h : contents.query_sha256 = _sha256_text sha256 contents.normalized) :
    querySchema contents.queryJson = true ↔
      contents.query_id ≠ "" ∧ contents.text ≠ "" ∧ contents.normalized ≠ "" := by
  refine (Schema.closedObject_display [("query_id", .str contents.query_id, _string 1),
    ("text", .str contents.text, _string 1), ("normalized", .str contents.normalized, _string 1),
    ("sha256", .str contents.query_sha256, sha256Schema)] (by simp)).trans ?_
  have hdigest : sha256Schema (.str contents.query_sha256) = true := by
    rw [h]
    exact sha256Schema_digest sha256 _
  simp only [List.forall_mem_cons, List.not_mem_nil, false_implies, implies_true, and_true,
    textSchema_iff, hdigest]

theorem packSchema_iff {mount : String × String} :
    packSchema (mountJson mount) = true ↔ mount.1 ≠ "" ∧ mount.2 ≠ "" := by
  refine (Schema.closedObject_display [("pack_id", .str mount.1, _string 1),
    ("revision", .str mount.2, _string 1)] (by simp)).trans ?_
  simp only [List.forall_mem_cons, List.not_mem_nil, false_implies, implies_true, and_true,
    textSchema_iff]

theorem projectionSchema_iff :
    projectionSchema contents.projectionJson = true ↔
      contents.name ≠ "" ∧ contents.version ≠ "" ∧ contents.build_id ≠ "" := by
  refine (Schema.closedObject_display [("name", .str contents.name, _string 1),
    ("version", .str contents.version, _string 1),
    ("build_id", .str contents.build_id, _string 1)] (by simp)).trans ?_
  simp only [List.forall_mem_cons, List.not_mem_nil, false_implies, implies_true, and_true,
    textSchema_iff]

theorem policySchema_iff :
    policySchema contents.policyJson = true ↔
      contents.route_id ≠ "" ∧ contents.retrieval_policy_id ≠ "" ∧ contents.mode ≠ "" := by
  refine (Schema.closedObject_display [("route_id", .str contents.route_id, _string 1),
    ("retrieval_policy_id", .str contents.retrieval_policy_id, _string 1),
    ("mode", .str contents.mode, _string 1)] (by simp)).trans ?_
  simp only [List.forall_mem_cons, List.not_mem_nil, false_implies, implies_true, and_true,
    textSchema_iff]

theorem retrievalSchema_iff :
    retrievalSchema contents.retrievalJson = true ↔
      ∀ record ∈ contents.candidates, candidateSchema record.json = true := by
  refine (Schema.closedObject_display [
    ("candidates", .arr (contents.candidates.map CandidateRecord.json), arrayOf candidateSchema),
    ("candidate_count", .int contents.candidates.length,
      Schema.allOf [Schema.type [.integer], Schema.minimum 0])] (by simp)).trans ?_
  have hcount : Schema.allOf [Schema.type [.integer], Schema.minimum 0]
      (.int contents.candidates.length) = true := by
    rw [Schema.allOf_iff]
    simp only [List.forall_mem_cons, List.not_mem_nil, false_implies, implies_true, and_true]
    exact ⟨rfl, decide_eq_true (Int.natCast_nonneg contents.candidates.length)⟩
  simp only [List.forall_mem_cons, List.not_mem_nil, false_implies, implies_true, and_true,
    arrayOf_iff, List.forall_mem_map, hcount]

theorem contextSchema_iff :
    contextSchema contents.contextJson = true ↔
      (∀ id ∈ contents.context_ids, id ≠ "") ∧ ∀ id ∈ contents.citation_ids, id ≠ "" := by
  refine (Schema.closedObject_display [
    ("item_ids", texts contents.context_ids, arrayOf (_string 1)),
    ("citation_ids", texts contents.citation_ids, arrayOf (_string 1))] (by simp)).trans ?_
  simp only [List.forall_mem_cons, List.not_mem_nil, false_implies, implies_true, and_true,
    arrayOf_texts, textSchema_iff]

theorem resultSchema_iff :
    resultSchema contents.resultJson = true ↔
      contents.outcome ≠ "" ∧ (∀ id ∈ contents.claim_ids, id ≠ "") ∧
        (∀ id ∈ contents.citation_ids, id ≠ "") ∧ InUnit contents.confidence ∧
          contents.authority ≠ "" := by
  refine (Schema.closedObject_display [("outcome", .str contents.outcome, _string 1),
    ("abstained", .bool contents.abstained, Schema.type [.boolean]),
    ("claim_ids", texts contents.claim_ids, arrayOf (_string 1)),
    ("citation_ids", texts contents.citation_ids, arrayOf (_string 1)),
    ("confidence", optionalFloat contents.confidence,
      Schema.allOf [numberOrNull, Schema.minimum 0, Schema.maximum 1]),
    ("authority", .str contents.authority, _string 1)] (by simp)).trans ?_
  have habstained : Schema.type [.boolean] (.bool contents.abstained) = true := rfl
  simp only [List.forall_mem_cons, List.not_mem_nil, false_implies, implies_true, and_true,
    arrayOf_texts, textSchema_iff, unit_iff, habstained, true_and]

theorem telemetrySchema_iff :
    telemetrySchema contents.telemetryJson = true ↔
      Schema.atLeast contents.latency_ms 0 = true ∧ Schema.atLeast contents.cost_usd 0 = true ∧
        contents.trace_ref ≠ "" := by
  refine (Schema.closedObject_display [
    ("latency_ms", .float contents.latency_ms,
      Schema.allOf [Schema.type [.number], Schema.minimum 0]),
    ("cost_usd", .float contents.cost_usd, Schema.allOf [Schema.type [.number], Schema.minimum 0]),
    ("trace_ref", .str contents.trace_ref, _string 1),
    ("run_ref", SourceSnapshotStore.optionalText contents.run_ref, textOrNull)] (by simp)).trans ?_
  have hnumber : ∀ x, Schema.allOf [Schema.type [.number], Schema.minimum 0] (.float x) = true ↔
      Schema.atLeast x 0 = true := by
    intro x
    rw [Schema.allOf_iff]
    simp only [List.forall_mem_cons, List.not_mem_nil, false_implies, implies_true, and_true]
    exact ⟨fun h => h.2, fun h => ⟨rfl, h⟩⟩
  simp only [List.forall_mem_cons, List.not_mem_nil, false_implies, implies_true, and_true,
    textSchema_iff, textOrNull_optional, hnumber]

theorem normalize_query_empty (unicode : UnicodeText) : normalize_query unicode "" = "" := by
  rw [normalize_query, unicode.nfc_empty]
  rfl

/-- Every mounted pack has a name and a revision, and there is one. -/
theorem normalize_pack_mounts_ok {value : Json} {packs : List (String × String)}
    (h : normalize_pack_mounts value = .ok packs) :
    packs ≠ [] ∧ ∀ mount ∈ packs, mount.1 ≠ "" ∧ mount.2 ≠ "" := by
  obtain ⟨mounts, -, h⟩ := bind_eq_ok.mp h
  split_ifs at h with hstated
  obtain ⟨by_pack, hfold, h⟩ := bind_eq_ok.mp h
  cases h
  rw [not_or] at hstated
  obtain ⟨hne, hstated⟩ := hstated
  have hset : ∀ {d e : Dict String String} {mount : String × String},
      addMount d mount = .ok e → e = d.set mount.1 mount.2 := by
    intro d e mount hadd
    unfold addMount at hadd
    split at hadd
    · split_ifs at hadd
      exact (Except.ok.inj hadd).symm
    · exact (Except.ok.inj hadd).symm
  have hmounts : ∀ key revision, by_pack.get? key = some revision → (key, revision) ∈ mounts := by
    refine foldlM_induction (fun mounts d => ∀ key revision, d.get? key = some revision →
      (key, revision) ∈ mounts) ?_ ?_ hfold
    · intro key revision hget
      cases hget
    · intro seen mount d e _ ih hadd key revision hget
      rw [hset hadd, Dict.get?_set] at hget
      split_ifs at hget with hkey
      · cases hget
        subst hkey
        exact List.mem_append_right _ List.mem_cons_self
      · exact List.mem_append_left _ (ih key revision hget)
  have hfilled : mounts ≠ [] → by_pack.entries ≠ [] := by
    refine foldlM_induction (fun mounts d => mounts ≠ [] → d.entries ≠ []) ?_ ?_ hfold
    · exact fun h => absurd rfl h
    · intro seen mount d e _ _ hadd _ hempty
      have hget : e.get? mount.1 = some mount.2 := by
        rw [hset hadd, Dict.get?_set, if_pos rfl]
      rw [← Dict.mem_entries_iff, hempty] at hget
      cases hget
  refine ⟨fun hempty => hfilled hne ?_, fun mount hmount => ?_⟩
  · exact List.length_eq_zero_iff.mp
      ((sortedBy_perm Prod.fst by_pack.entries).length_eq.symm.trans (congrArg List.length hempty))
  · have hmem := hmounts mount.1 mount.2 (Dict.mem_entries_iff.mp (mem_sortedBy.mp hmount))
    refine ⟨fun hid => hstated ⟨_, hmem, Or.inl hid⟩, fun hrevision => hstated ⟨_, hmem, Or.inr ?_⟩⟩
    exact hrevision

theorem _normalize_pack_scope_ok {mounts : List (String × String)} {ids scope : List String}
    (h : _normalize_pack_scope mounts ids = .ok scope) :
    scope ≠ [] ∧ scope.Nodup ∧ ∀ id ∈ scope, id ∈ mounts.map Prod.fst := by
  unfold _normalize_pack_scope at h
  simp only at h
  split_ifs at h with hscope hids hids
  all_goals
    rw [not_or, not_not] at hids
    cases h
    refine ⟨hids.1, ?_, hids.2⟩
    rw [sortedSet, sorted]
    exact (List.mergeSort_perm _ _).nodup_iff.mpr (List.nodup_dedup _)

/-- Ids that are collected are not empty. -/
theorem ne_of_mem_appendNew {found ids : List String} (h : ∀ id ∈ ids, id ≠ "") :
    ∀ id ∈ found.foldl appendNew ids, id ≠ "" := by
  induction found generalizing ids with
  | nil => exact h
  | cons new found ih =>
      apply ih
      unfold appendNew
      split_ifs with hnew
      · intro id hid
        rcases List.mem_append.mp hid with hold | hlast
        · exact h id hold
        · rw [List.mem_singleton.mp hlast]
          exact hnew.1
      · exact h

theorem _citation_ids_ok {output : Json} {ids : List String} (h : _citation_ids output = .ok ids) :
    ∀ id ∈ ids, id ≠ "" := by
  obtain ⟨claims, -, h⟩ := bind_eq_ok.mp h
  cases h
  apply ne_of_mem_appendNew
  simp

theorem FloatText.text_ne_nil (x : FloatText) : x.text ≠ [] := by
  intro hempty
  have hok := x.ok
  rw [hempty] at hok
  exact absurd hok (by decide)

/-- Only the empty text is written as the empty text. -/
theorem pyStr_eq_empty_iff {v : Json} : v.pyStr = "" ↔ v = .str "" := by
  refine ⟨fun h => ?_, fun h => h ▸ rfl⟩
  cases v with
  | str s => exact congrArg Json.str h
  | null => exact absurd h (by decide)
  | bool b => cases b <;> exact absurd h (by decide)
  | int n =>
      change toString n = "" at h
      cases n with
      | ofNat n => exact absurd h Nat.repr_ne_empty
      | negSucc n =>
          change "-" ++ (n + 1).repr = "" at h
          simpa using congrArg String.toList h
  | float x =>
      simp only [pyStr, pyRepr] at h
      split_ifs at h
      · exact absurd h (by decide)
      · exact absurd h (by decide)
      · exact absurd h (by decide)
      · rw [← String.toList_eq_nil_iff, String.toList_ofList] at h
        exact absurd h (FloatText.text_ne_nil x)
  | arr xs =>
      simp only [pyStr, pyRepr] at h
      simpa using congrArg String.toList h
  | obj fs =>
      simp only [pyStr, pyRepr] at h
      simpa using congrArg String.toList h

theorem _claim_ids_ok {output : Json} {ids : List String} (h : _claim_ids output = .ok ids) :
    ∀ id ∈ ids, id ≠ "" := by
  obtain ⟨claims, -, h⟩ := bind_eq_ok.mp h
  cases h
  rw [List.forall_mem_map]
  intro claim hclaim
  obtain ⟨-, htruthy⟩ := List.mem_filter.mp hclaim
  unfold member at htruthy
  rw [textOf, ne_eq, pyStr_eq_empty_iff]
  intro hempty
  cases hget : claim.get? "claim_id" with
  | none => simp [hget, truthy] at htruthy
  | some value =>
      rw [hget] at htruthy hempty
      rw [Option.getD_some] at htruthy hempty
      rw [hempty] at htruthy
      simp [truthy] at htruthy

end

/-! ## Receipts that are built -/

theorem isReceiptId_receipt_id (sha256 : Sha256) (contents : Contents) :
    isReceiptId (contents.receipt_id sha256) = true := by
  unfold Contents.receipt_id
  have htake : (Text.take (_sha256_json sha256 (contents.withId sha256 "")) 24).toList =
      (_sha256_json sha256 (contents.withId sha256 "")).toList.take 24 := String.toList_ofList
  have hlen : (_sha256_json sha256 (contents.withId sha256 "")).toList.length = 64 :=
    sha256.length_hexdigest _
  have hchars : ∀ c ∈ (_sha256_json sha256 (contents.withId sha256 "")).toList,
      isHexChar c = true := sha256.isHexChar_hexdigest _
  generalize _sha256_json sha256 (contents.withId sha256 "") = digest at htake hlen hchars
  apply decide_eq_true
  apply Or.inl
  rw [String.toList_append, htake]
  have hprefix : "qrx_".toList.length = 4 := by decide
  have hdrop : ("qrx_".toList ++ digest.toList.take 24).drop 4 = digest.toList.take 24 :=
    List.drop_left' hprefix
  apply decide_eq_true
  rw [hdrop]
  refine ⟨?_, ?_, ?_⟩
  · rw [List.isPrefixOf_iff_prefix]
    exact List.prefix_append _ _
  · rw [List.length_take]
    omega
  · rw [List.all_eq_true]
    exact fun c hc => hchars c (List.mem_of_mem_take hc)

variable {sha256 : Sha256} {unicode : UnicodeText} {numbers : PyNumbers} {request : Request}
  {services : List ServiceInvocation} {candidates : List Json} {response : Json} {now : String}
  {latency_ms cost_usd : FloatText} {contents : Contents}

theorem Built.scope_conforms (hbuilt : Built sha256 unicode numbers request services candidates
    response now latency_ms cost_usd contents) :
    scopeSchema (texts contents.pack_scope_ids) = true := by
  obtain ⟨hne, hnodup, hmounted⟩ := _normalize_pack_scope_ok hbuilt.pack_scope_ids
  obtain ⟨-, hpacks⟩ := normalize_pack_mounts_ok hbuilt.packs
  rw [scopeSchema, Schema.allOf_iff]
  simp only [List.forall_mem_cons, List.not_mem_nil, false_implies, implies_true, and_true]
  refine ⟨rfl, ?_, decide_eq_true (Schema.nodup_strings.mpr hnodup), ?_⟩
  · apply decide_eq_true
    rw [List.length_map]
    exact List.length_pos_iff.mpr hne
  · rw [texts, Schema.items_strings]
    intro id hid
    obtain ⟨mount, hmount, rfl⟩ := List.mem_map.mp (hmounted id hid)
    exact textSchema_iff.mpr (hpacks mount hmount).1

theorem Built.packs_conform (hbuilt : Built sha256 unicode numbers request services candidates
    response now latency_ms cost_usd contents) :
    Schema.allOf [Schema.type [.array], Schema.minItems 1, Schema.items packSchema]
      contents.packsJson = true := by
  obtain ⟨hne, hpacks⟩ := normalize_pack_mounts_ok hbuilt.packs
  rw [Schema.allOf_iff]
  simp only [List.forall_mem_cons, List.not_mem_nil, false_implies, implies_true, and_true]
  refine ⟨rfl, ?_, ?_⟩
  · apply decide_eq_true
    rw [List.length_map]
    exact List.length_pos_iff.mpr hne
  · apply List.all_eq_true.mpr
    rw [List.forall_mem_map]
    exact fun mount hmount => packSchema_iff.mpr (hpacks mount hmount)

theorem receiptKeys_nodup : receiptKeys.Nodup := by simp [receiptKeys]

/-- The parts of a receipt that decide whether it conforms. -/
theorem receiptSchema_iff {formats : FormatChecker}
    (hbuilt : Built sha256 unicode numbers request services candidates response now latency_ms
      cost_usd contents)
    (hnow : formats.isDateTime now = true) (hlatency : Schema.atLeast latency_ms 0 = true)
    (hservices : 2 ≤ services.length) :
    receiptSchema formats (contents.receipt sha256) = true ↔
      contents.mode ≠ "" ∧
        (∀ service ∈ services, serviceInvocationSchema service.json = true) ∧
          (∀ record ∈ contents.candidates, candidateSchema record.json = true) ∧
            (∀ record ∈ contents.resolvers, resolverSchema record.json = true) ∧
              (∀ id ∈ contents.context_ids, id ≠ "") ∧
                (contents.outcome ≠ "" ∧ contents.authority ≠ "" ∧ InUnit contents.confidence) ∧
                  Schema.atLeast contents.cost_usd 0 = true := by
  have hid : Schema.allOf [Schema.type [.string], Schema.pattern isReceiptId]
      (.str (contents.receipt_id sha256)) = true :=
    Schema.of_text _ (isReceiptId_receipt_id sha256 contents)
  have hrecorded : Schema.allOf [Schema.type [.string], Schema.format formats.isDateTime]
      (.str contents.recorded_at) = true := by
    rw [hbuilt.recorded_at]
    exact Schema.of_text _ hnow
  have htext : contents.text ≠ "" := by
    intro hempty
    apply hbuilt.normalized_ne
    rw [hbuilt.normalized, ← hbuilt.text, hempty, normalize_query_empty]
  have hquery : querySchema contents.queryJson = true :=
    (querySchema_iff hbuilt.query_sha256).mpr ⟨hbuilt.query_id, htext, hbuilt.normalized_ne⟩
  have hitems : Schema.allOf [Schema.type [.array], Schema.minItems 2,
      Schema.items serviceInvocationSchema] contents.servicesJson = true ↔
      ∀ service ∈ services, serviceInvocationSchema service.json = true := by
    have hlen : Schema.minItems 2 contents.servicesJson = true := by
      apply decide_eq_true
      rw [List.length_map, hbuilt.services]
      exact hservices
    rw [Schema.allOf_iff]
    simp only [List.forall_mem_cons, List.not_mem_nil, false_implies, implies_true, and_true, hlen,
      true_and]
    rw [Contents.servicesJson, hbuilt.services]
    have hall : Schema.items serviceInvocationSchema
        (.arr (services.map ServiceInvocation.json)) = true ↔ _ := List.all_eq_true
    rw [hall, List.forall_mem_map]
    exact ⟨fun h => h.2, fun h => ⟨rfl, h⟩⟩
  refine (Schema.closedObject_display [
    ("schema_version", .str "fossil.query-execution-receipt.v1",
      Schema.const (.str "fossil.query-execution-receipt.v1")),
    ("receipt_id", .str (contents.receipt_id sha256),
      Schema.allOf [Schema.type [.string], Schema.pattern isReceiptId]),
    ("recorded_at", .str contents.recorded_at,
      Schema.allOf [Schema.type [.string], Schema.format formats.isDateTime]),
    ("authority", .str "execution_observability_only",
      Schema.const (.str "execution_observability_only")),
    ("query", contents.queryJson, querySchema),
    ("packs", contents.packsJson,
      Schema.allOf [Schema.type [.array], Schema.minItems 1, Schema.items packSchema]),
    ("pack_scope_ids", texts contents.pack_scope_ids, scopeSchema),
    ("projection", contents.projectionJson, projectionSchema),
    ("policy", contents.policyJson, policySchema),
    ("services", contents.servicesJson,
      Schema.allOf [Schema.type [.array], Schema.minItems 2,
        Schema.items serviceInvocationSchema]),
    ("retrieval", contents.retrievalJson, retrievalSchema),
    ("resolvers", contents.resolversJson, arrayOf resolverSchema),
    ("context", contents.contextJson, contextSchema),
    ("result", contents.resultJson, resultSchema),
    ("telemetry", contents.telemetryJson, telemetrySchema),
    ("execution_identity_sha256",
      .str (_sha256_json sha256 contents._execution_identity_payload), sha256Schema),
    ("result_sha256", .str (_sha256_json sha256 contents._result_identity_payload),
      sha256Schema)] ?_).trans ?_
  · exact receiptKeys_nodup
  have hversion : Schema.const (.str "fossil.query-execution-receipt.v1")
      (.str "fossil.query-execution-receipt.v1") = true := decide_eq_true rfl
  have hauthority : Schema.const (.str "execution_observability_only")
      (.str "execution_observability_only") = true := decide_eq_true rfl
  have hresolvers : arrayOf resolverSchema contents.resolversJson = true ↔
      ∀ record ∈ contents.resolvers, resolverSchema record.json = true := by
    rw [Contents.resolversJson, arrayOf_iff, List.forall_mem_map]
  have hprojection : projectionSchema contents.projectionJson = true :=
    projectionSchema_iff.mpr hbuilt.projection
  have hcitations := _citation_ids_ok hbuilt.citation_ids
  have hclaims := _claim_ids_ok hbuilt.claim_ids
  have hspent : Schema.atLeast contents.latency_ms 0 = true := by
    rw [hbuilt.latency_ms]
    exact hlatency
  simp only [List.forall_mem_cons, List.not_mem_nil, false_implies, implies_true, and_true,
    hversion, hid, hrecorded, hauthority, hquery, hbuilt.packs_conform, hbuilt.scope_conforms,
    hprojection, policySchema_iff, hitems, retrievalSchema_iff, hresolvers, contextSchema_iff,
    resultSchema_iff, telemetrySchema_iff, sha256Schema_digest, _sha256_json, _sha256_text,
    true_and]
  constructor
  · rintro ⟨⟨-, -, hmode⟩, hservices, hcandidates, hresolvers, ⟨hcontext, -⟩,
      ⟨houtcome, -, -, hconfidence, hauthority⟩, -, hcost, -⟩
    exact ⟨hmode, hservices, hcandidates, hresolvers, hcontext,
      ⟨houtcome, hauthority, hconfidence⟩, hcost⟩
  · rintro ⟨hmode, hservices, hcandidates, hresolvers, hcontext,
      ⟨houtcome, hauthority, hconfidence⟩, hcost⟩
    exact ⟨⟨hbuilt.policy.1, hbuilt.policy.2, hmode⟩, hservices, hcandidates, hresolvers,
      ⟨hcontext, hcitations⟩, ⟨houtcome, hclaims, hcitations, hconfidence, hauthority⟩, hspent,
      hcost, hbuilt.trace_ref⟩

end Receipt

end FossilCore
