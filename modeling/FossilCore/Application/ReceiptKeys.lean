import FossilCore.Application.ExecutionReceipt

/-!
# Keys of a receipt

No mapping in a receipt, however deep, has a key that the receipt's own test for secrets matches:
the keys that the builder writes are plain, and the values that it copies have been pruned.
-/

namespace FossilCore

open Base Json

namespace Receipt

variable {sha256 : Sha256} {unicode : UnicodeText} {numbers : PyNumbers}

/-! ## Plain keys -/

/-- A key in lower case in which no part of a secret occurs. -/
def isPlainKey (key : String) : Bool :=
  key.toList.all isSnakeChar && !_SECRET_KEY_PARTS.any fun part => Text.occursIn part key

theorem not_secret_of_plain {key : String} (h : isPlainKey key = true) :
    _is_secret_key unicode key = false := by
  obtain ⟨hchars, hparts⟩ := Bool.and_eq_true_iff.mp h
  have hdash : (key.toList.map fun c => if c = '-' then '_' else c) = key.toList := by
    have hmap : ∀ c ∈ key.toList, (if c = '-' then '_' else c) = id c := by
      intro c hc
      have hchar := List.all_eq_true.mp hchars c hc
      rw [if_neg]
      · rfl
      · rintro rfl
        exact absurd hchar (by decide)
    rw [List.map_congr_left hmap, List.map_id]
  unfold _is_secret_key
  rw [unicode.lower_key key hchars, hdash, String.ofList_toList]
  simpa using hparts

def receiptKeys : List String :=
  ["schema_version", "receipt_id", "recorded_at", "authority", "query", "packs", "pack_scope_ids",
    "projection", "policy", "services", "retrieval", "resolvers", "context", "result", "telemetry",
    "execution_identity_sha256", "result_sha256"]

/-- The keys that are written somewhere in a receipt. -/
def writtenKeys : List String :=
  receiptKeys ++ ["kind", "provider", "provider_version", "implementation",
    "implementation_version", "model_id", "local", "runtime", "outcome", "error_type",
    "fallback_reason", "role", "requested", "actual", "fallback_used", "attempts", "latency_ms",
    "cost_usd", "id", "pack_id", "rank", "score", "base_rank", "base_score", "rerank_score",
    "resolver", "resolved_ids", "added_ids", "removed_ids", "final_context_ids", "diagnostics",
    "max_expansions", "query_id", "text", "normalized", "sha256", "revision", "name", "version",
    "build_id", "route_id", "retrieval_policy_id", "mode", "candidates", "candidate_count",
    "item_ids", "citation_ids", "abstained", "claim_ids", "confidence", "authority", "trace_ref",
    "run_ref"]

theorem writtenKeys_plain : writtenKeys.all isPlainKey = true := by decide +kernel

theorem plain_of_written {key : String} (h : key ∈ writtenKeys) : isPlainKey key = true :=
  List.all_eq_true.mp writtenKeys_plain key h

theorem not_secret_of_written {key : String} (h : key ∈ writtenKeys) :
    _is_secret_key unicode key = false :=
  not_secret_of_plain (plain_of_written h)

/-- A display of written keys has no secret of its own. -/
theorem freeOf_display (keys : List String) (hwritten : keys ⊆ writtenKeys)
    {members : List (String × Json)} (hkeys : members.map Prod.fst = keys)
    (h : ∀ m ∈ members, m.2.FreeOf (_is_secret_key unicode)) :
    (ofMembers members).FreeOf (_is_secret_key unicode) := by
  apply freeOf_ofMembers
  intro m hm
  refine ⟨not_secret_of_written (hwritten ?_), h m hm⟩
  rw [← hkeys]
  exact List.mem_map_of_mem hm

theorem freeOf_texts (items : List String) : (texts items).FreeOf (_is_secret_key unicode) :=
  freeOf_strs items

theorem freeOf_optionalFloat (x : Option FloatText) :
    (optionalFloat x).FreeOf (_is_secret_key unicode) := by
  cases x with
  | none => exact freeOf_null
  | some x => exact freeOf_float x

theorem freeOf_optionalText (s : Option String) :
    (SourceSnapshotStore.optionalText s).FreeOf (_is_secret_key unicode) := by
  cases s with
  | none => exact freeOf_null
  | some s => exact freeOf_str s

theorem freeOf_sanitized (value : Json) :
    (sanitize_diagnostics unicode value).FreeOf (_is_secret_key unicode) :=
  freeOf_prune _ value

/-- The members of a value that are kept under written keys. -/
theorem freeOf_selected {value : Json} (h : value.FreeOf (_is_secret_key unicode))
    {keys : List String} (hwritten : keys ⊆ writtenKeys) :
    (ofMembers (keys.filterMap fun key => (value.get? key).map fun w => (key, w))).FreeOf
      (_is_secret_key unicode) := by
  apply freeOf_ofMembers
  intro m hm
  obtain ⟨key, hkey, hm⟩ := List.mem_filterMap.mp hm
  obtain ⟨w, hget, rfl⟩ := Option.map_eq_some_iff.mp hm
  exact ⟨not_secret_of_written (hwritten hkey), h.get? hget⟩

/-! ## The parts of a receipt -/

theorem freeOf_identity (metadata : Json) :
    (_service_identity unicode metadata).json.FreeOf (_is_secret_key unicode) := by
  refine freeOf_display ["kind", "provider", "provider_version", "implementation",
    "implementation_version", "model_id", "local", "runtime"] (by simp [writtenKeys]) rfl ?_
  simp only [List.forall_mem_cons, List.not_mem_nil, false_implies, implies_true, and_true]
  exact ⟨freeOf_str _, freeOf_str _, freeOf_str _, freeOf_str _, freeOf_str _,
    freeOf_optionalText _, freeOf_bool _, freeOf_sanitized _⟩

theorem freeOf_requested (requested : RequestedService) :
    requested.json.FreeOf (_is_secret_key unicode) := by
  refine freeOf_display ["provider", "model_id", "implementation"] (by simp [writtenKeys]) rfl ?_
  simp only [List.forall_mem_cons, List.not_mem_nil, false_implies, implies_true, and_true]
  exact ⟨freeOf_str _, freeOf_optionalText _, freeOf_str _⟩

theorem freeOf_safeAttempt {attempt safe : Json} (h : safeAttempt unicode attempt = .ok safe) :
    safe.FreeOf (_is_secret_key unicode) := by
  obtain ⟨value, -, h⟩ := bind_eq_ok.mp h
  cases h
  exact freeOf_selected (freeOf_sanitized value) (by simp [attemptKeys, writtenKeys])

/-- What a service record says is without secrets, as the services that are built here do. -/
structure Clean (unicode : UnicodeText) (service : ServiceInvocation) : Prop where
  actual : service.actual.json.FreeOf (_is_secret_key unicode)
  attempts : ∀ attempt ∈ service.attempts, attempt.FreeOf (_is_secret_key unicode)

theorem clean_of_build {role : String} {metadata : Json} {requested : Option Json}
    {attempts : List Json} {latency_ms cost_usd : Option FloatText} {service : ServiceInvocation}
    (h : build_service_invocation unicode numbers role metadata requested attempts latency_ms
      cost_usd = .ok service) : Clean unicode service := by
  obtain ⟨metadata, -, h⟩ := bind_eq_ok.mp h
  obtain ⟨requested, -, h⟩ := bind_eq_ok.mp h
  obtain ⟨safe_attempts, hattempts, h⟩ := bind_eq_ok.mp h
  obtain ⟨cost, -, h⟩ := bind_eq_ok.mp h
  cases h
  refine ⟨freeOf_identity metadata, fun attempt hattempt => ?_⟩
  obtain ⟨stated, -, hsafe⟩ := exists_of_mem_mapM hattempts attempt hattempt
  exact freeOf_safeAttempt hsafe

theorem Clean.freeOf {service : ServiceInvocation} (h : Clean unicode service) :
    service.json.FreeOf (_is_secret_key unicode) := by
  refine freeOf_display ["role", "requested", "actual", "fallback_used", "attempts", "latency_ms",
    "cost_usd"] (by simp [writtenKeys]) rfl ?_
  simp only [List.forall_mem_cons, List.not_mem_nil, false_implies, implies_true, and_true]
  exact ⟨freeOf_str _, freeOf_requested _, h.actual, freeOf_bool _, freeOf_arr_iff.mpr h.attempts,
    freeOf_optionalFloat _, freeOf_float _⟩

theorem freeOf_candidate (record : CandidateRecord) :
    record.json.FreeOf (_is_secret_key unicode) := by
  have hkeys : ∀ key ∈ ["id", "pack_id", "rank", "score", "base_rank", "base_score",
      "rerank_score"], _is_secret_key unicode key = false := by
    have hwritten : ["id", "pack_id", "rank", "score", "base_rank", "base_score",
        "rerank_score"] ⊆ writtenKeys := by simp [writtenKeys]
    exact fun key hkey => not_secret_of_written (hwritten hkey)
  simp only [List.forall_mem_cons, List.not_mem_nil, false_implies, implies_true, and_true] at hkeys
  obtain ⟨hid, hpack, hrank, hscore, hbase, hbase', hrerank⟩ := hkeys
  apply freeOf_ofMembers
  rw [List.forall_mem_append, List.forall_mem_append]
  refine ⟨⟨?_, ?_⟩, ?_⟩
  · simp only [List.forall_mem_cons, List.not_mem_nil, false_implies, implies_true, and_true]
    exact ⟨⟨hid, freeOf_str _⟩, ⟨hpack, freeOf_str _⟩, ⟨hrank, freeOf_int _⟩, hscore,
      freeOf_optionalFloat _⟩
  · intro m hm
    obtain ⟨base, -, hm⟩ := List.mem_flatMap.mp hm
    rcases List.mem_pair.mp hm with rfl | rfl
    · exact ⟨hbase, freeOf_int _⟩
    · exact ⟨hbase', freeOf_optionalFloat _⟩
  · intro m hm
    obtain ⟨score, -, rfl⟩ := List.mem_map.mp hm
    exact ⟨hrerank, freeOf_optionalFloat _⟩

theorem freeOf_resolver {record : ResolverRecord}
    (h : record.diagnostics.FreeOf (_is_secret_key unicode)) :
    record.json.FreeOf (_is_secret_key unicode) := by
  refine freeOf_display ["resolver", "resolved_ids", "added_ids", "removed_ids",
    "final_context_ids", "diagnostics"] (by simp [writtenKeys]) rfl ?_
  simp only [List.forall_mem_cons, List.not_mem_nil, false_implies, implies_true, and_true]
  exact ⟨freeOf_str _, freeOf_texts _, freeOf_texts _, freeOf_texts _, freeOf_texts _, h⟩

theorem recordOf_ok {value : Json} {record : Json → Except Error ResolverRecord}
    {records : List ResolverRecord} (h : recordOf value record = .ok records) :
    ∀ r ∈ records, record value = .ok r := by
  unfold recordOf at h
  split_ifs at h
  · obtain ⟨r, hr, h⟩ := bind_eq_ok.mp h
    cases h
    intro other hother
    rw [List.mem_singleton.mp hother, hr]
  · cases h
    simp

theorem freeOf_resolver_records {response : Json} {records : List ResolverRecord}
    (h : _resolver_records unicode numbers response = .ok records) :
    ∀ record ∈ records, record.diagnostics.FreeOf (_is_secret_key unicode) := by
  obtain ⟨security, hsecurity, h⟩ := bind_eq_ok.mp h
  obtain ⟨lineage, hlineage, h⟩ := bind_eq_ok.mp h
  cases h
  intro record hrecord
  rcases List.mem_append.mp hrecord with hmem | hmem
  · obtain ⟨resolved, -, h⟩ := bind_eq_ok.mp (recordOf_ok hsecurity record hmem)
    obtain ⟨added, -, h⟩ := bind_eq_ok.mp h
    obtain ⟨dropped, -, h⟩ := bind_eq_ok.mp h
    obtain ⟨deduplicated, -, h⟩ := bind_eq_ok.mp h
    obtain ⟨final, -, h⟩ := bind_eq_ok.mp h
    cases h
    exact freeOf_sanitized _
  · obtain ⟨resolved, -, h⟩ := bind_eq_ok.mp (recordOf_ok hlineage record hmem)
    obtain ⟨final, -, h⟩ := bind_eq_ok.mp h
    obtain ⟨max_expansions, -, h⟩ := bind_eq_ok.mp h
    cases h
    refine freeOf_display ["max_expansions"] (by simp [writtenKeys]) rfl ?_
    simp only [List.forall_mem_cons, List.not_mem_nil, false_implies, implies_true, and_true]
    exact freeOf_int _

/-! ## The receipt -/

theorem freeOf_receipt {contents : Contents}
    (hservices : ∀ service ∈ contents.services, Clean unicode service)
    (hresolvers : ∀ record ∈ contents.resolvers,
      record.diagnostics.FreeOf (_is_secret_key unicode)) (receipt_id : String) :
    (contents.withId sha256 receipt_id).FreeOf (_is_secret_key unicode) := by
  unfold Contents.withId
  refine freeOf_display receiptKeys (List.subset_append_left _ _) rfl ?_
  simp only [List.forall_mem_cons, List.not_mem_nil, false_implies, implies_true, and_true]
  refine ⟨freeOf_str _, freeOf_str _, freeOf_str _, freeOf_str _, ?_, ?_, freeOf_texts _, ?_, ?_,
    ?_, ?_, ?_, ?_, ?_, ?_, freeOf_str _, freeOf_str _⟩
  · refine freeOf_display ["query_id", "text", "normalized", "sha256"]
      (by simp [writtenKeys]) rfl ?_
    simp only [List.forall_mem_cons, List.not_mem_nil, false_implies, implies_true, and_true]
    exact ⟨freeOf_str _, freeOf_str _, freeOf_str _, freeOf_str _⟩
  · rw [Contents.packsJson, freeOf_arr_iff, List.forall_mem_map]
    intro mount _
    refine freeOf_display ["pack_id", "revision"] (by simp [writtenKeys]) rfl ?_
    simp only [List.forall_mem_cons, List.not_mem_nil, false_implies, implies_true, and_true]
    exact ⟨freeOf_str _, freeOf_str _⟩
  · refine freeOf_display ["name", "version", "build_id"] (by simp [writtenKeys]) rfl ?_
    simp only [List.forall_mem_cons, List.not_mem_nil, false_implies, implies_true, and_true]
    exact ⟨freeOf_str _, freeOf_str _, freeOf_str _⟩
  · refine freeOf_display ["route_id", "retrieval_policy_id", "mode"]
      (by simp [writtenKeys]) rfl ?_
    simp only [List.forall_mem_cons, List.not_mem_nil, false_implies, implies_true, and_true]
    exact ⟨freeOf_str _, freeOf_str _, freeOf_str _⟩
  · rw [Contents.servicesJson, freeOf_arr_iff, List.forall_mem_map]
    exact fun service hservice => (hservices service hservice).freeOf
  · refine freeOf_display ["candidates", "candidate_count"] (by simp [writtenKeys]) rfl ?_
    simp only [List.forall_mem_cons, List.not_mem_nil, false_implies, implies_true, and_true]
    refine ⟨?_, freeOf_int _⟩
    rw [freeOf_arr_iff, List.forall_mem_map]
    exact fun record _ => freeOf_candidate record
  · rw [Contents.resolversJson, freeOf_arr_iff, List.forall_mem_map]
    exact fun record hrecord => freeOf_resolver (hresolvers record hrecord)
  · refine freeOf_display ["item_ids", "citation_ids"] (by simp [writtenKeys]) rfl ?_
    simp only [List.forall_mem_cons, List.not_mem_nil, false_implies, implies_true, and_true]
    exact ⟨freeOf_texts _, freeOf_texts _⟩
  · refine freeOf_display ["outcome", "abstained", "claim_ids", "citation_ids", "confidence",
      "authority"] (by simp [writtenKeys]) rfl ?_
    simp only [List.forall_mem_cons, List.not_mem_nil, false_implies, implies_true, and_true]
    exact ⟨freeOf_str _, freeOf_bool _, freeOf_texts _, freeOf_texts _, freeOf_optionalFloat _,
      freeOf_str _⟩
  · refine freeOf_display ["latency_ms", "cost_usd", "trace_ref", "run_ref"]
      (by simp [writtenKeys]) rfl ?_
    simp only [List.forall_mem_cons, List.not_mem_nil, false_implies, implies_true, and_true]
    exact ⟨freeOf_float _, freeOf_float _, freeOf_str _, freeOf_optionalText _⟩

/-- The services that are built all say nothing secret. -/
theorem clean_of_servicesOf {call : Execution} {retriever : RetrieverService}
    {model_service : ModelService} {candidates : List Json} {response : Json} {moment : Moment}
    {services : List ServiceInvocation} {costs : FloatText × FloatText}
    (h : servicesOf unicode numbers call retriever model_service candidates response moment =
      .ok (services, costs)) :
    ∀ service ∈ services, Clean unicode service := by
  obtain ⟨retriever_metadata, -, h⟩ := bind_eq_ok.mp h
  obtain ⟨own_metadata, -, h⟩ := bind_eq_ok.mp h
  obtain ⟨model_metadata, -, h⟩ := bind_eq_ok.mp h
  obtain ⟨retriever_cost, -, h⟩ := bind_eq_ok.mp h
  obtain ⟨model_cost, -, h⟩ := bind_eq_ok.mp h
  obtain ⟨retriever_service, hretriever, h⟩ := bind_eq_ok.mp h
  obtain ⟨reranker_services, hreranker, h⟩ := bind_eq_ok.mp h
  obtain ⟨model, hmodel, h⟩ := bind_eq_ok.mp h
  cases h
  intro service hservice
  rcases List.mem_append.mp hservice with hfront | hlast
  · rcases List.mem_cons.mp hfront with rfl | hmiddle
    · exact clean_of_build hretriever
    · unfold rerankerServices at hreranker
      split at hreranker
      · cases hreranker
        exact absurd hmiddle List.not_mem_nil
      · obtain ⟨reranker, hbuild, hreranker⟩ := bind_eq_ok.mp hreranker
        cases hreranker
        rw [List.mem_singleton.mp hmiddle]
        exact clean_of_build hbuild
  · rw [List.mem_singleton.mp hlast]
    exact clean_of_build hmodel

/-- No mapping in a receipt has a key that the test for secrets matches. -/
theorem execute_query_with_receipt_freeOf {call : Execution} {retriever : RetrieverService}
    {model_service : ModelService} {moment : Moment} {response receipt : Json}
    (h : execute_query_with_receipt sha256 unicode numbers call retriever model_service moment =
      .ok (response, receipt)) :
    receipt.FreeOf (_is_secret_key unicode) := by
  obtain ⟨⟨answer, contents⟩, hexecute, h⟩ := bind_eq_ok.mp h
  cases h
  obtain ⟨mounts, candidates, services, retriever_cost, model_cost, -, -, hservices, hbuilt⟩ :=
    execute_ok hexecute
  apply freeOf_receipt
  · rw [hbuilt.services]
    exact clean_of_servicesOf hservices
  · exact freeOf_resolver_records hbuilt.resolvers

/-! ## An execution on local services -/

/-- `str.lower` on ASCII, where the normal form of a text is the text. -/
def asciiText : UnicodeText where
  lower s := String.ofList (s.toList.map Char.toLower)
  nfc s := s
  lower_key s h := by
    have hsame : ∀ c ∈ s.toList, c.toLower = id c := by
      intro c hc
      have hchar := List.all_eq_true.mp h c hc
      apply dif_neg
      intro hupper
      rw [isSnakeChar, Bool.or_eq_true, Bool.or_eq_true, decide_eq_true_eq] at hchar
      rcases hchar with (hlower | hdigit) | rfl
      · obtain ⟨hlow, -⟩ := Bool.and_eq_true_iff.mp hlower
        exact absurd (UInt32.le_trans (of_decide_eq_true hlow) hupper.2) (by decide)
      · simp only [Char.isDigit, Bool.and_eq_true, decide_eq_true_eq] at hdigit
        exact absurd (UInt32.le_trans hupper.1 hdigit.2) (by decide)
      · exact absurd hupper.2 (by decide)
    rw [List.map_congr_left hsame, List.map_id, String.ofList_toList]
  nfc_empty := rfl

/-- Numbers that are there already, and sums with zero. -/
def plainNumbers : PyNumbers where
  int
    | .int n => .ok n
    | _ => .error .typeError
  float
    | .float x => .ok x
    | _ => .error .typeError
  add x y := if x = zero then y else x
  int_int _ := rfl
  add_atLeast x y hx hy := by
    split
    · exact hy
    · exact hx

def localMetadata : Json :=
  .ofMembers [("provider", .str "local"), ("runtime", .ofMembers [("api_key", .str "k")])]

def localCandidates : List Json := [.ofMembers [("id", .str "claim_a"), ("pack_id", .str "pack_a")]]

def localRetriever : RetrieverService where
  search _ _ _ := .ok localCandidates
  metadata := .ok localMetadata

def overconfident : Json :=
  .ofMembers [("output", .ofMembers [("confidence", .float ⟨"1.5".toList, by decide⟩)])]

def localModel : ModelService where
  metadata := .ok localMetadata
  run _ := .ok overconfident
  metadata_wf value h := by
    cases h
    apply wf_ofMembers
    simp only [List.forall_mem_cons, List.not_mem_nil, false_implies, implies_true, and_true]
    refine ⟨by simp [WF], wf_ofMembers ?_⟩
    simp [WF]
  run_wf request response h := by
    cases h
    apply wf_ofMembers
    simp only [List.forall_mem_cons, List.not_mem_nil, false_implies, implies_true, and_true]
    apply wf_ofMembers
    simp [WF]

def localCall : Execution where
  query := "why"
  pack_mounts := .ofMembers [("pack_a", .str "r1")]
  query_pack_ids := ["pack_a"]
  projection := .ofMembers [("name", .str "p"), ("version", .str "1"), ("build_id", .str "b")]
  policy := .ofMembers [("route_id", .str "r"), ("retrieval_policy_id", .str "q")]
  limit := 1
  trace_ref := "t"
  run_ref := none
  query_id := none
  requested_model := none
  model_attempts := []

theorem zero_atLeast : Schema.atLeast zero 0 = true := by decide +kernel

def atOnce : Moment where
  now := "2026-01-01T00:00:00+00:00"
  retrieval_latency_ms := zero
  model_latency_ms := zero
  total_latency_ms := zero
  retrieval_atLeast := zero_atLeast
  model_atLeast := zero_atLeast
  total_atLeast := zero_atLeast

theorem returns_bind {α β : Type} {x : Except Error α} {f : α → Except Error β} {a : α}
    (hx : x = .ok a) (hf : ∃ b, f a = .ok b) : ∃ b, (x >>= f) = .ok b := by
  obtain ⟨b, hb⟩ := hf
  exact ⟨b, bind_eq_ok.mpr ⟨a, hx, hb⟩⟩

theorem localCall_executes : ∃ contents,
    execute .hashlib asciiText plainNumbers localCall localRetriever localModel atOnce =
      .ok (overconfident, contents) := by
  have hmounts : normalize_pack_mounts localCall.pack_mounts = .ok [("pack_a", "r1")] := by
    change Except.ok (sortedBy Prod.fst [("pack_a", "r1")]) = _
    rw [sortedBy, List.mergeSort_singleton]
  have hagain : normalize_pack_mounts (.arr ([("pack_a", "r1")].map mountJson)) =
      .ok [("pack_a", "r1")] := by
    change Except.ok (sortedBy Prod.fst [("pack_a", "r1")]) = _
    rw [sortedBy, List.mergeSort_singleton]
  have hscope : _normalize_pack_scope [("pack_a", "r1")] ["pack_a"] = .ok ["pack_a"] := by
    have hset : sortedSet ["pack_a"] = ["pack_a"] := by
      rw [sortedSet, List.dedup_cons_of_notMem List.not_mem_nil, List.dedup_nil, sorted,
        List.mergeSort_singleton]
    unfold _normalize_pack_scope
    simp [hset]
  have hcontents : ∀ services cost, ∃ contents,
      contentsOf .hashlib asciiText plainNumbers
        { query := localCall.query
          pack_mounts := .arr ([("pack_a", "r1")].map mountJson)
          pack_scope_ids := localCall.query_pack_ids
          projection := localCall.projection
          policy := localCall.policy
          trace_ref := localCall.trace_ref
          run_ref := localCall.run_ref
          query_id := localCall.query_id }
        services localCandidates overconfident atOnce.now atOnce.total_latency_ms cost =
      .ok contents := by
    intro services cost
    have hquery : normalize_query asciiText localCall.query ≠ "" := by decide +kernel
    have hprojection : ∀ key ∈ ["name", "version", "build_id"],
        textOf (sanitize_diagnostics asciiText localCall.projection) key ≠ "" := by decide +kernel
    have hpolicy : ∀ key ∈ ["route_id", "retrieval_policy_id"],
        textOf (sanitize_diagnostics asciiText localCall.policy) key ≠ "" := by decide +kernel
    have htrace : localCall.trace_ref ≠ "" := by decide
    unfold contentsOf
    simp only [if_neg hquery]
    apply returns_bind hagain
    apply returns_bind hscope
    apply returns_bind rfl
    rw [if_neg (not_not.mpr hprojection)]
    apply returns_bind rfl
    rw [if_neg (not_not.mpr hpolicy), if_neg htrace]
    apply returns_bind rfl
    apply returns_bind rfl
    apply returns_bind rfl
    apply returns_bind rfl
    apply returns_bind rfl
    exact ⟨_, rfl⟩
  have hservices : ∃ services retriever_cost model_cost,
      servicesOf asciiText plainNumbers localCall localRetriever localModel localCandidates
        overconfident atOnce = .ok (services, retriever_cost, model_cost) :=
    ⟨_, _, _, rfl⟩
  have hscoped : ¬(localCall.query_pack_ids = [] ∨
      ¬∀ id ∈ localCall.query_pack_ids, id ∈ [("pack_a", "r1")].map Prod.fst) := by decide
  obtain ⟨services, retriever_cost, model_cost, hservices⟩ := hservices
  obtain ⟨contents, hbuilt⟩ := hcontents services (plainNumbers.add retriever_cost model_cost)
  unfold execute
  rw [if_neg (by decide)]
  refine ⟨contents, bind_eq_ok.mpr ⟨_, hmounts, ?_⟩⟩
  rw [if_neg hscoped]
  exact bind_eq_ok.mpr ⟨_, rfl, bind_eq_ok.mpr ⟨_, rfl, bind_eq_ok.mpr ⟨_, hservices,
    bind_eq_ok.mpr ⟨_, hbuilt, rfl⟩⟩⟩⟩

theorem execute_query_with_receipt_freeOf_local : ∃ response receipt,
    execute_query_with_receipt .hashlib asciiText plainNumbers localCall localRetriever localModel
      atOnce = .ok (response, receipt) ∧ receipt.FreeOf (_is_secret_key asciiText) := by
  obtain ⟨contents, hexecute⟩ := localCall_executes
  have h : execute_query_with_receipt .hashlib asciiText plainNumbers localCall localRetriever
      localModel atOnce = .ok (overconfident, contents.receipt .hashlib) :=
    bind_eq_ok.mpr ⟨_, hexecute, rfl⟩
  exact ⟨_, _, h, execute_query_with_receipt_freeOf h⟩

end Receipt

end FossilCore
