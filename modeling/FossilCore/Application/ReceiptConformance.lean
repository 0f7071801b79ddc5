import FossilCore.Application.ReceiptSchema

/-!
# Executions whose receipts conform

When the receipt of an execution meets its schema, in terms of what the services, the policy and
the response say.
-/

namespace FossilCore

open Base Json

namespace Receipt

variable {sha256 : Sha256} {unicode : UnicodeText} {numbers : PyNumbers}

/-- A condition on what a loop makes of each item, as one on the items. -/
theorem forall_mapM_iff {α β : Type} {f : α → Except Error β} {xs : List α} {ys : List β}
    {P : β → Prop} {Q : α → Prop} (h : xs.mapM f = .ok ys)
    (hitem : ∀ x ∈ xs, ∀ y, f x = .ok y → (P y ↔ Q x)) :
    (∀ y ∈ ys, P y) ↔ ∀ x ∈ xs, Q x := by
  constructor
  · intro hall x hx
    obtain ⟨y, hy, hxy⟩ := exists_of_mapM_ok h x hx
    exact (hitem x hx y hxy).mp (hall y hy)
  · intro hall y hy
    obtain ⟨x, hx, hxy⟩ := exists_of_mem_mapM h y hy
    exact (hitem x hx y hxy).mpr (hall x hx)

/-! ## Texts that are copied -/

/-- The member is not the empty text; it may be missing. -/
def Filled (value : Json) (key : String) : Prop := value.get? key ≠ some (.str "")

theorem textOr_ne_iff {value : Json} {key default : String} (hdefault : default ≠ "") :
    textOr value key default ≠ "" ↔ Filled value key := by
  rw [textOr, Filled, ne_eq, pyStr_eq_empty_iff]
  cases value.get? key with
  | none => simpa using hdefault
  | some w => simp

theorem filled_sanitized {value : Json} {key : String} (hwritten : key ∈ writtenKeys) :
    Filled (sanitize_diagnostics unicode value) key ↔ Filled value key := by
  rw [Filled, Filled, sanitize_diagnostics, get?_prune_of_false _ (not_secret_of_written hwritten),
    ne_eq, ne_eq, not_iff_not, Option.map_eq_some_iff]
  simp only [prune_eq_str_iff, exists_eq_right]

/-! ## Services -/

def identityKeys : List String :=
  ["kind", "provider", "provider_version", "implementation", "implementation_version"]

/-- The metadata leave none of the texts that identify a service empty. -/
def Named (metadata : Json) : Prop := ∀ key ∈ identityKeys, Filled metadata key

theorem identity_conforms_iff {metadata : Json} :
    serviceIdentitySchema (_service_identity unicode metadata).json = true ↔ Named metadata := by
  have hwritten : identityKeys ⊆ writtenKeys := by simp [identityKeys, writtenKeys]
  have hkeys : ∀ key ∈ identityKeys,
      (textOr (sanitize_diagnostics unicode metadata) key "unknown" ≠ "" ↔ Filled metadata key) := by
    intro key hkey
    rw [textOr_ne_iff (by decide), filled_sanitized (hwritten hkey)]
  rw [serviceIdentitySchema_iff, Named]
  have hruntime : (_service_identity unicode metadata).runtime.isObj = true := by
    change (sanitize_diagnostics unicode _).isObj = true
    rw [sanitize_diagnostics, isObj_prune]
    split_ifs with hobj
    · exact hobj
    · rfl
  simp only [hruntime, and_true]
  simp only [identityKeys, List.forall_mem_cons, List.not_mem_nil, false_implies, implies_true,
    and_true] at hkeys ⊢
  obtain ⟨hkind, hprovider, hversion, himplementation, himplementation'⟩ := hkeys
  rw [← hkind, ← hprovider, ← hversion, ← himplementation, ← himplementation']
  rfl

/-- A requested service leaves no text empty. -/
def RequestedNamed (requested : Option Json) : Prop :=
  ∀ value, requested = some value → Filled value "provider" ∧ Filled value "implementation"

theorem requested_conforms_iff {requested : Option Json} {value : Json} {actual : ServiceIdentity}
    (hvalue : asMapping (if Json.truthy? requested then requested.getD .null else .obj []) =
      .ok value)
    (hprovider : actual.provider ≠ "") (himplementation : actual.implementation ≠ "") :
    requestedServiceSchema (requestedService unicode value actual).json = true ↔
      RequestedNamed requested := by
  rw [requestedServiceSchema_iff]
  change textOr (sanitize_diagnostics unicode value) "provider" actual.provider ≠ "" ∧
    textOr (sanitize_diagnostics unicode value) "implementation" actual.implementation ≠ "" ↔ _
  rw [textOr_ne_iff hprovider, textOr_ne_iff himplementation,
    filled_sanitized (by simp [writtenKeys]), filled_sanitized (by simp [writtenKeys])]
  obtain ⟨rfl, -⟩ := asMapping_ok.mp hvalue
  have hempty : ∀ key, (Json.obj []).get? key = none := fun _ => rfl
  cases requested with
  | none => simp [RequestedNamed, Filled, Json.truthy?, hempty]
  | some stated =>
      by_cases htruthy : Json.truthy? (some stated) = true
      · simp [RequestedNamed, htruthy]
      · have hnone : ∀ key, stated.get? key = none := by
          intro key
          cases stated with
          | obj fields =>
              have hfields : fields = [] := by
                simpa [Json.truthy?, truthy] using htruthy
              rw [hfields]
              rfl
          | _ => rfl
        simp [RequestedNamed, htruthy, Filled, hnone, hempty]

/-- What is kept of an attempt is text, save a model that is not known. -/
def AttemptShaped (attempt : Json) : Prop :=
  ∀ key ∈ attemptKeys, ∀ value, attempt.get? key = some value →
    value.isStr = true ∨ (key = "model_id" ∧ value = .null)

theorem attempt_conforms_iff {attempt safe : Json} (h : safeAttempt unicode attempt = .ok safe) :
    attemptSchema safe = true ↔ AttemptShaped attempt := by
  obtain ⟨value, hvalue, h⟩ := bind_eq_ok.mp h
  cases h
  obtain ⟨rfl, -⟩ := asMapping_ok.mp hvalue
  have hwritten : attemptKeys ⊆ writtenKeys := by simp [attemptKeys, writtenKeys]
  have htext : ∀ w : Json, Schema.type [.string] (w.prune (_is_secret_key unicode)) = true ↔
      w.isStr = true := by
    intro w
    cases w <;> simp [Schema.type, Schema.hasType, prune, isStr]
  have hnull : ∀ w : Json, textOrNull (w.prune (_is_secret_key unicode)) = true ↔
      w.isStr = true ∨ w = .null := by
    intro w
    cases w <;> simp [textOrNull, Schema.type, Schema.hasType, prune, isStr]
  have hget : ∀ key ∈ attemptKeys, (sanitize_diagnostics unicode attempt).get? key =
      (attempt.get? key).map (prune (_is_secret_key unicode)) := fun key hkey =>
    get?_prune_of_false _ (not_secret_of_written (hwritten hkey))
  have hmember : ∀ m ∈ attemptMembers, ∀ w : Json,
      (m.2 (w.prune (_is_secret_key unicode)) = true ↔
        w.isStr = true ∨ (m.1 = "model_id" ∧ w = .null)) := by
    simp only [attemptMembers, List.forall_mem_cons, List.not_mem_nil, false_implies, implies_true,
      and_true, htext, hnull]
    simp
  have hnodup : attemptKeys.Nodup := by decide
  refine (Schema.closedObject_iff (attemptMembers.map fun m : String × Schema =>
    (m.1, (sanitize_diagnostics unicode attempt).get? m.1, m.2)) hnodup
      fun _ hname => absurd hname List.not_mem_nil).trans ?_
  have hkeys : attemptKeys = attemptMembers.map Prod.fst := rfl
  rw [List.forall_mem_map, AttemptShaped, hkeys, List.forall_mem_map]
  apply forall₂_congr
  intro m hm
  rw [hget m.1 (List.mem_map_of_mem hm)]
  simp only [Option.map_eq_some_iff, forall_exists_index, and_imp, forall_apply_eq_imp_iff₂]
  apply forall₂_congr
  intro w _
  exact hmember m hm w

/-- A cost that is read is not less than zero. -/
def CostsAtLeastZero (numbers : PyNumbers) (stated : Json) : Prop :=
  ∀ cost, numbers.float stated = .ok cost → Schema.atLeast cost 0 = true

theorem service_conforms_iff {role : String} {metadata : Json} {requested : Option Json}
    {attempts : List Json} {latency_ms cost_usd : Option FloatText} {service : ServiceInvocation}
    (h : build_service_invocation unicode numbers role metadata requested attempts latency_ms
      cost_usd = .ok service)
    (hrole : role ≠ "") (hlatency : AtLeastZero latency_ms) :
    serviceInvocationSchema service.json = true ↔
      (Named metadata ∧ RequestedNamed requested ∧ ∀ attempt ∈ attempts, AttemptShaped attempt) ∧
        ∀ cost, costOf numbers metadata cost_usd = .ok cost → Schema.atLeast cost 0 = true := by
  obtain ⟨value, hmetadata, h⟩ := bind_eq_ok.mp h
  obtain ⟨rfl, -⟩ := asMapping_ok.mp hmetadata
  obtain ⟨stated, hrequested, h⟩ := bind_eq_ok.mp h
  obtain ⟨safe_attempts, hattempts, h⟩ := bind_eq_ok.mp h
  obtain ⟨cost, hcost, h⟩ := bind_eq_ok.mp h
  cases h
  rw [serviceInvocationSchema_iff]
  simp only [hlatency, hcost, Except.ok.injEq, forall_eq', true_and, identity_conforms_iff]
  have hattempts' := forall_mapM_iff hattempts fun attempt _ safe hsafe =>
    attempt_conforms_iff hsafe
  rw [hattempts']
  have hnamed : Named metadata → (requestedServiceSchema
      (requestedService unicode stated (_service_identity unicode metadata)).json = true ↔
        RequestedNamed requested) := by
    intro hnamed
    have hactual := serviceIdentitySchema_iff.mp
      ((@identity_conforms_iff unicode metadata).mpr hnamed)
    exact requested_conforms_iff hrequested hactual.2.1 hactual.2.2.2.1
  constructor
  · rintro ⟨-, hstated, hnames, hshaped, hleast⟩
    exact ⟨⟨hnames, (hnamed hnames).mp hstated, hshaped⟩, hleast⟩
  · rintro ⟨⟨hnames, hstated, hshaped⟩, hleast⟩
    exact ⟨hrole, (hnamed hnames).mpr hstated, hnames, hshaped, hleast⟩

/-! ## Candidates -/

/-- A rank that is stated is read as at least one. -/
def Ranked (numbers : PyNumbers) (retrieval : Json) : Prop :=
  ∀ stated rank, retrieval.get? "rank" = some stated → numbers.int stated = .ok rank → 1 ≤ rank

theorem rankOf_ok {retrieval : Json} {fallback_rank : ℕ} {rank : ℤ} (hpos : 1 ≤ fallback_rank)
    (h : rankOf numbers retrieval fallback_rank = .ok rank) :
    1 ≤ rank ↔ Ranked numbers retrieval := by
  unfold rankOf at h
  cases hget : retrieval.get? "rank" with
  | none =>
      rw [hget, Option.getD_none, numbers.int_int] at h
      cases h
      simp only [Ranked, hget, reduceCtorEq, false_implies, implies_true, iff_true]
      exact_mod_cast hpos
  | some stated =>
      rw [hget, Option.getD_some] at h
      constructor
      · intro hrank other n hother hn
        rw [hget] at hother
        cases hother
        rw [h] at hn
        cases hn
        exact hrank
      · exact fun hall => hall stated rank hget h

/-- Both ranks of a candidate, in its retrieval and in the one under a reranker. -/
def CandidateRanked (numbers : PyNumbers) (candidate : Json) : Prop :=
  Ranked numbers ((candidate.get? "retrieval").getD (.obj [])) ∧
    Ranked numbers (member candidate "base_retrieval")

/-- A candidate with an id and a pack. -/
def Identified (candidate : Json) : Prop :=
  textOf candidate "id" ≠ "" ∧ textOf candidate "pack_id" ≠ ""

theorem candidate_conforms_iff {candidate : Json} {fallback_rank : ℕ} {record : CandidateRecord}
    (h : _retrieval_candidate numbers candidate fallback_rank = .ok record)
    (hpos : 1 ≤ fallback_rank) (hid : Identified candidate) :
    candidateSchema record.json = true ↔ CandidateRanked numbers candidate := by
  obtain ⟨stated, hstated, h⟩ := bind_eq_ok.mp h
  obtain ⟨retrieval, hretrieval, h⟩ := bind_eq_ok.mp h
  obtain ⟨rank, hrank, h⟩ := bind_eq_ok.mp h
  obtain ⟨score, -, h⟩ := bind_eq_ok.mp h
  obtain ⟨base, hbase, h⟩ := bind_eq_ok.mp h
  obtain ⟨rerank_score, -, h⟩ := bind_eq_ok.mp h
  cases h
  have hget : stated = candidate.get? "retrieval" := by
    cases candidate with
    | obj fields => exact (Except.ok.inj hstated).symm
    | _ => cases hstated
  obtain ⟨rfl, -⟩ := asMapping_ok.mp hretrieval
  subst hget
  have hbase' : (∀ b, base = some b → 1 ≤ b.1) ↔
      Ranked numbers (member candidate "base_retrieval") := by
    unfold baseOf at hbase
    simp only at hbase
    split_ifs at hbase with hobj
    · obtain ⟨base_rank, hbase_rank, hbase⟩ := bind_eq_ok.mp hbase
      obtain ⟨base_score, -, hbase⟩ := bind_eq_ok.mp hbase
      cases hbase
      rw [← rankOf_ok hpos hbase_rank]
      simp
    · cases hbase
      have hnone : (member candidate "base_retrieval").get? "rank" = none := by
        cases hmember : member candidate "base_retrieval" with
        | obj fields => exact absurd (hmember ▸ rfl) hobj
        | _ => rfl
      simp [Ranked, hnone]
  rw [candidateSchema_iff, CandidateRanked, ← rankOf_ok hpos hrank, ← hbase']
  exact ⟨fun hall => hall.2.2, fun hall => ⟨hid.1, hid.2, hall⟩⟩

/-! ## Responses -/

theorem get?_of_not_isObj {value : Json} (h : value.isObj ≠ true) (key : String) :
    value.get? key = none := by
  cases value with
  | obj fields => exact absurd rfl h
  | _ => rfl

/-- What the resolver under a key has left, as a list with its record or without one. -/
theorem recordOf_cases {value : Json} {record : Json → Except Error ResolverRecord}
    {records : List ResolverRecord} (h : recordOf value record = .ok records) :
    (value.isObj ≠ true ∧ records = []) ∨ ∃ r, records = [r] ∧ record value = .ok r := by
  unfold recordOf at h
  split_ifs at h with hobj
  · obtain ⟨r, hr, h⟩ := bind_eq_ok.mp h
    cases h
    exact Or.inr ⟨r, rfl, hr⟩
  · cases h
    exact Or.inl ⟨hobj, rfl⟩

theorem securityRecord_ok {security : Json} {r : ResolverRecord}
    (h : securityRecord unicode security = .ok r) :
    (resolverSchema r.json = true ↔ Filled security "resolver") ∧
      textsAt security "forwarded_item_ids" = .ok r.final_context_ids := by
  obtain ⟨resolved_ids, -, h⟩ := bind_eq_ok.mp h
  obtain ⟨added_ids, -, h⟩ := bind_eq_ok.mp h
  obtain ⟨dropped, -, h⟩ := bind_eq_ok.mp h
  obtain ⟨deduplicated, -, h⟩ := bind_eq_ok.mp h
  obtain ⟨final_context_ids, hfinal, h⟩ := bind_eq_ok.mp h
  cases h
  refine ⟨?_, hfinal⟩
  rw [resolverSchema_iff, textOr_ne_iff (by decide), sanitize_diagnostics, isObj_prune]
  exact and_iff_left rfl

theorem lineageRecord_ok {lineage : Json} {r : ResolverRecord}
    (h : lineageRecord numbers lineage = .ok r) :
    (resolverSchema r.json = true ↔ Filled lineage "resolver") ∧
      textsAt lineage "final_context_ids" = .ok r.final_context_ids := by
  obtain ⟨resolved_ids, -, h⟩ := bind_eq_ok.mp h
  obtain ⟨final_context_ids, hfinal, h⟩ := bind_eq_ok.mp h
  obtain ⟨max_expansions, -, h⟩ := bind_eq_ok.mp h
  cases h
  refine ⟨?_, hfinal⟩
  rw [resolverSchema_iff, textOr_ne_iff (by decide)]
  exact and_iff_left rfl

theorem records_conform_iff {value : Json} {record : Json → Except Error ResolverRecord}
    {records : List ResolverRecord} (h : recordOf value record = .ok records)
    (hrecord : ∀ r, record value = .ok r →
      (resolverSchema r.json = true ↔ Filled value "resolver")) :
    (∀ r ∈ records, resolverSchema r.json = true) ↔ Filled value "resolver" := by
  rcases recordOf_cases h with ⟨hobj, rfl⟩ | ⟨r, rfl, hr⟩
  · simp [Filled, get?_of_not_isObj hobj]
  · rw [List.forall_mem_singleton]
    exact hrecord r hr

/-- The texts that a part of the response lists under a key. -/
def listedIn (value : Json) (key : String) : List String := (textsAt value key).toOption.getD []

/-- The ids of the final context that the response states: those of the lineage, or else those
that the wrapper has forwarded. -/
def statedContext (response : Json) : List String :=
  let lineage := listedIn (member response "lineage_resolution") "final_context_ids"
  if lineage ≠ [] then lineage
  else listedIn (member response "context_security") "forwarded_item_ids"

theorem listedIn_of_recordOf {value : Json} {key : String}
    {record : Json → Except Error ResolverRecord} {records : List ResolverRecord}
    (h : recordOf value record = .ok records)
    (hrecord : ∀ r, record value = .ok r → textsAt value key = .ok r.final_context_ids) :
    (records = [] ∧ listedIn value key = []) ∨
      ∃ r, records = [r] ∧ listedIn value key = r.final_context_ids := by
  rcases recordOf_cases h with ⟨hobj, rfl⟩ | ⟨r, rfl, hr⟩
  · refine Or.inl ⟨rfl, ?_⟩
    rw [listedIn, textsAt, iterateAt, get?_of_not_isObj hobj]
    rfl
  · refine Or.inr ⟨r, rfl, ?_⟩
    rw [listedIn, hrecord r hr]
    rfl

theorem itemIds_ne {candidates : List Json} (hids : ∀ c ∈ candidates, Identified c) :
    ∀ id ∈ itemIds candidates, id ≠ "" := by
  rw [itemIds, List.forall_mem_map]
  exact fun c hc => (hids c (List.mem_of_mem_filter hc)).1

theorem context_conforms_iff {candidates : List Json} {response : Json}
    {records : List ResolverRecord} (h : _resolver_records unicode numbers response = .ok records)
    (hids : ∀ c ∈ candidates, Identified c) :
    (∀ id ∈ _final_context_ids candidates records, id ≠ "") ↔
      ∀ id ∈ statedContext response, id ≠ "" := by
  obtain ⟨security, hsecurity, h⟩ := bind_eq_ok.mp h
  obtain ⟨lineage, hlineage, h⟩ := bind_eq_ok.mp h
  cases h
  have hitems := itemIds_ne hids
  unfold _final_context_ids statedContext
  rcases listedIn_of_recordOf hsecurity fun r hr => (securityRecord_ok hr).2 with
    ⟨rfl, hs⟩ | ⟨s, rfl, hs⟩ <;>
  rcases listedIn_of_recordOf hlineage fun r hr => (lineageRecord_ok hr).2 with
    ⟨rfl, hl⟩ | ⟨l, rfl, hl⟩ <;>
  simp only [hs, hl]
  · simpa using hitems
  · by_cases hempty : l.final_context_ids = []
    · simpa [hempty] using hitems
    · simp [hempty]
  · by_cases hempty : s.final_context_ids = []
    · simpa [hempty] using hitems
    · simp [hempty]
  · by_cases hempty : l.final_context_ids = []
    · by_cases hempty' : s.final_context_ids = []
      · simpa [hempty, hempty'] using hitems
      · simp [hempty, hempty']
    · simp [hempty]

/-- A confidence that is stated is read as a number of the unit interval. -/
def UnitConfidence (numbers : PyNumbers) (output : Json) : Prop :=
  ∀ stated x, output.get? "confidence" = some stated → stated ≠ .null →
    numbers.float stated = .ok x → Schema.atLeast x 0 = true ∧ Schema.atMost x 1 = true

theorem confidence_conforms_iff {output : Json} {confidence : Option FloatText}
    (h : confidenceOf numbers output = .ok confidence) :
    InUnit confidence ↔ UnitConfidence numbers output := by
  unfold confidenceOf at h
  cases hget : output.get? "confidence" with
  | none =>
      rw [hget] at h
      cases h
      simp [InUnit, UnitConfidence, hget]
  | some stated =>
      rw [hget] at h
      by_cases hnull : stated = .null
      · subst hnull
        cases h
        simp only [InUnit, reduceCtorEq, false_implies, implies_true, true_iff]
        intro other x hother hne
        rw [hget] at hother
        exact absurd (Option.some.inj hother).symm hne
      · have hread : ∃ x, numbers.float stated = .ok x ∧ confidence = some x := by
          cases stated with
          | null => exact absurd rfl hnull
          | _ =>
              obtain ⟨x, hx, h⟩ := bind_eq_ok.mp h
              cases h
              exact ⟨x, hx, rfl⟩
        obtain ⟨x, hx, rfl⟩ := hread
        constructor
        · intro hunit other y hother _ hy
          rw [hget] at hother
          cases hother
          rw [hx] at hy
          cases hy
          exact hunit x rfl
        · intro hall y hy
          cases hy
          exact hall stated x hget hnull hx

/-! ## Executions -/

/-- The metadata of a service that gets a receipt, with what a call of it costs. -/
def Sound (numbers : PyNumbers) (metadata cost : Json) : Prop :=
  Named metadata ∧ CostsAtLeastZero numbers cost

/-- The metadata of the model, in the response or else from the service. -/
def modelMetadata (response own_metadata : Json) : Json :=
  (response.get? "service").getD own_metadata

/-- What the arguments of an execution and the answers of its services say is within the ranges of
the schema. -/
structure Conforming (numbers : PyNumbers) (call : Execution) (retriever : RetrieverService)
    (model_service : ModelService) (response : Json) : Prop where
  policy : Filled call.policy "mode"
  requested : RequestedNamed call.requested_model
  attempts : ∀ attempt ∈ call.model_attempts, AttemptShaped attempt
  retrieval : ∀ metadata, retriever.metadata = .ok metadata →
    Sound numbers metadata (estimatedCost metadata)
  candidates : ∀ candidates,
    retriever.search call.query call.query_pack_ids call.limit = .ok candidates →
      (∀ candidate ∈ candidates, CandidateRanked numbers candidate) ∧
        ∀ metadata, _reranker_metadata candidates = some metadata →
          Sound numbers metadata (estimatedCost metadata)
  model : ∀ own_metadata, model_service.metadata = .ok own_metadata →
    Sound numbers (modelMetadata response own_metadata)
      ((response.get? "cost_usd").getD (estimatedCost (modelMetadata response own_metadata)))
  resolvers : Filled (member response "context_security") "resolver" ∧
    Filled (member response "lineage_resolution") "resolver"
  context : ∀ id ∈ statedContext response, id ≠ ""
  result : Filled (outputOf response) "outcome" ∧ Filled response "authority" ∧
    UnitConfidence numbers (outputOf response)

theorem costsAtLeastZero_iff {stated : Json} {cost : FloatText}
    (h : numbers.float stated = .ok cost) :
    CostsAtLeastZero numbers stated ↔ Schema.atLeast cost 0 = true := by
  simp [CostsAtLeastZero, h]

/-- A service that is asked for nothing, and whose cost has been read. -/
theorem plain_service_iff {role : String} {metadata stated : Json} {cost : FloatText}
    {latency_ms cost_usd : Option FloatText} {service : ServiceInvocation}
    (h : build_service_invocation unicode numbers role metadata none [] latency_ms cost_usd =
      .ok service)
    (hrole : role ≠ "") (hlatency : AtLeastZero latency_ms)
    (hcost : costOf numbers metadata cost_usd = .ok cost)
    (hstated : numbers.float stated = .ok cost) :
    serviceInvocationSchema service.json = true ↔ Sound numbers metadata stated := by
  rw [service_conforms_iff h hrole hlatency, Sound, costsAtLeastZero_iff hstated, hcost]
  simp [RequestedNamed]

theorem rerankers_conform_iff {candidates : List Json} {services : List ServiceInvocation}
    (h : rerankerServices unicode numbers candidates = .ok services) :
    (∀ service ∈ services, serviceInvocationSchema service.json = true) ↔
      ∀ metadata, _reranker_metadata candidates = some metadata →
        Sound numbers metadata (estimatedCost metadata) := by
  unfold rerankerServices at h
  cases hmetadata : _reranker_metadata candidates with
  | none =>
      rw [hmetadata] at h
      cases h
      simp
  | some metadata =>
      rw [hmetadata] at h
      obtain ⟨service, hbuild, h⟩ := bind_eq_ok.mp h
      cases h
      simp only [List.forall_mem_singleton, Option.some.injEq, forall_eq']
      have hread : ∃ cost, costOf numbers metadata none = .ok cost := by
        obtain ⟨value, hvalue, hrest⟩ := bind_eq_ok.mp hbuild
        obtain ⟨rfl, -⟩ := asMapping_ok.mp hvalue
        obtain ⟨requested, -, hrest⟩ := bind_eq_ok.mp hrest
        obtain ⟨attempts, -, hrest⟩ := bind_eq_ok.mp hrest
        obtain ⟨cost, hcost, -⟩ := bind_eq_ok.mp hrest
        exact ⟨cost, hcost⟩
      obtain ⟨cost, hcost⟩ := hread
      exact plain_service_iff hbuild (by decide) (fun _ h => nomatch h) hcost hcost

/-- The services conform when their metadata, the requested model and its attempts do. -/
theorem services_conform_iff {call : Execution} {retriever : RetrieverService}
    {model_service : ModelService} {candidates : List Json} {response : Json} {moment : Moment}
    {services : List ServiceInvocation} {retriever_cost model_cost : FloatText}
    (h : servicesOf unicode numbers call retriever model_service candidates response moment =
      .ok (services, retriever_cost, model_cost)) :
    2 ≤ services.length ∧
      ((∀ service ∈ services, serviceInvocationSchema service.json = true) →
        Schema.atLeast retriever_cost 0 = true ∧ Schema.atLeast model_cost 0 = true) ∧
      ((∀ service ∈ services, serviceInvocationSchema service.json = true) ↔
        (∀ metadata, retriever.metadata = .ok metadata →
          Sound numbers metadata (estimatedCost metadata)) ∧
        (∀ metadata, _reranker_metadata candidates = some metadata →
          Sound numbers metadata (estimatedCost metadata)) ∧
        (∀ own_metadata, model_service.metadata = .ok own_metadata →
          Sound numbers (modelMetadata response own_metadata) ((response.get? "cost_usd").getD
            (estimatedCost (modelMetadata response own_metadata)))) ∧
        RequestedNamed call.requested_model ∧
        ∀ attempt ∈ call.model_attempts, AttemptShaped attempt) := by
  obtain ⟨retriever_metadata, hretriever, h⟩ := bind_eq_ok.mp h
  obtain ⟨stated, hmetadata, hmapping⟩ := bind_eq_ok.mp hretriever
  obtain ⟨rfl, -⟩ := asMapping_ok.mp hmapping
  obtain ⟨own_metadata, hown, h⟩ := bind_eq_ok.mp h
  obtain ⟨model_metadata, hmodel, h⟩ := bind_eq_ok.mp h
  obtain ⟨rfl, -⟩ := asMapping_ok.mp hmodel
  obtain ⟨read_cost, hread, h⟩ := bind_eq_ok.mp h
  obtain ⟨read_model_cost, hread_model, h⟩ := bind_eq_ok.mp h
  obtain ⟨retriever_service, hbuild, h⟩ := bind_eq_ok.mp h
  obtain ⟨reranker_services, hreranker, h⟩ := bind_eq_ok.mp h
  obtain ⟨model, hbuild_model, h⟩ := bind_eq_ok.mp h
  cases h
  have hfirst := plain_service_iff hbuild (by decide)
    (fun y hy => by cases hy; exact moment.retrieval_atLeast) rfl hread
  have hmiddle := rerankers_conform_iff hreranker
  have hlast := service_conforms_iff hbuild_model (by decide)
    (fun y hy => by cases hy; exact moment.model_atLeast)
  have hcost := costsAtLeastZero_iff hread
  have hcost_model := costsAtLeastZero_iff hread_model
  have hparts : (∀ service ∈ retriever_service :: reranker_services ++ [model],
      serviceInvocationSchema service.json = true) ↔
      serviceInvocationSchema retriever_service.json = true ∧
        (∀ service ∈ reranker_services, serviceInvocationSchema service.json = true) ∧
          serviceInvocationSchema model.json = true := by
    rw [List.forall_mem_append, List.forall_mem_cons, List.forall_mem_singleton, and_assoc]
  have hmodel_cost : (∀ cost, costOf numbers ((response.get? "service").getD own_metadata)
      (some model_cost) = .ok cost → Schema.atLeast cost 0 = true) ↔
      Schema.atLeast model_cost 0 = true := by
    simp [costOf]
  rw [hparts, hfirst, hmiddle, hlast, hmodel_cost, hmetadata, hown]
  refine ⟨?_, ?_, ?_⟩
  · simp
  · rintro ⟨hretriever, -, -, hmodel⟩
    exact ⟨hcost.mp hretriever.2, hmodel⟩
  · simp only [Except.ok.injEq, forall_eq']
    constructor
    · rintro ⟨hretriever, hreranker, ⟨hnamed, hrequested, hattempts⟩, hmodel⟩
      exact ⟨hretriever, hreranker, ⟨hnamed, hcost_model.mpr hmodel⟩, hrequested, hattempts⟩
    · rintro ⟨hretriever, hreranker, ⟨hnamed, hmodel⟩, hrequested, hattempts⟩
      exact ⟨hretriever, hreranker, ⟨hnamed, hrequested, hattempts⟩, hcost_model.mp hmodel⟩

section

variable {formats : FormatChecker} {call : Execution} {retriever : RetrieverService}
  {model_service : ModelService} {moment : Moment} {response : Json}

/-- What is built conforms exactly when its inputs are within the ranges of the schema. -/
theorem contents_conform_iff {contents : Contents} (hnow : formats.isDateTime moment.now = true)
    (hids : ∀ candidates,
      retriever.search call.query call.query_pack_ids call.limit = .ok candidates →
        ∀ candidate ∈ candidates, Identified candidate)
    (h : execute sha256 unicode numbers call retriever model_service moment =
      .ok (response, contents)) :
    receiptSchema formats (contents.receipt sha256) = true ↔
      Conforming numbers call retriever model_service response := by
  obtain ⟨mounts, candidates, services, retriever_cost, model_cost, hsearch, -, hservices,
    hbuilt⟩ := execute_ok h
  obtain ⟨hlen, hcosts, hconform⟩ := services_conform_iff hservices
  have hidentified := hids candidates hsearch
  have hmode : contents.mode ≠ "" ↔ Filled call.policy "mode" := by
    rw [hbuilt.mode.2, textOr_ne_iff (by decide), filled_sanitized (by simp [writtenKeys])]
  have hcandidates : (∀ record ∈ contents.candidates, candidateSchema record.json = true) ↔
      ∀ candidate ∈ candidates, CandidateRanked numbers candidate := by
    have hitem : ∀ ranked ∈ candidates.zipIdx 1, ∀ record,
        _retrieval_candidate numbers ranked.1 ranked.2 = .ok record →
          (candidateSchema record.json = true ↔ CandidateRanked numbers ranked.1) := by
      intro ranked hranked record hrecord
      exact candidate_conforms_iff hrecord (List.le_snd_of_mem_zipIdx hranked)
        (hidentified _ (List.fst_mem_of_mem_zipIdx hranked))
    rw [forall_mapM_iff hbuilt.records hitem]
    conv_rhs => rw [← List.zipIdx_map_fst 1 candidates, List.forall_mem_map]
  have hresolvers : (∀ record ∈ contents.resolvers, resolverSchema record.json = true) ↔
      Filled (member response "context_security") "resolver" ∧
        Filled (member response "lineage_resolution") "resolver" := by
    obtain ⟨security, hsecurity, hrest⟩ := bind_eq_ok.mp hbuilt.resolvers
    obtain ⟨lineage, hlineage, hrest⟩ := bind_eq_ok.mp hrest
    rw [← Except.ok.inj hrest, List.forall_mem_append,
      records_conform_iff hsecurity fun r hr => (securityRecord_ok hr).1,
      records_conform_iff hlineage fun r hr => (lineageRecord_ok hr).1]
  have hcontext : (∀ id ∈ contents.context_ids, id ≠ "") ↔
      ∀ id ∈ statedContext response, id ≠ "" := by
    rw [hbuilt.context_ids]
    exact context_conforms_iff hbuilt.resolvers hidentified
  have houtcome : contents.outcome ≠ "" ↔ Filled (outputOf response) "outcome" := by
    rw [hbuilt.outcome, textOr_ne_iff (by decide)]
  have hauthority : contents.authority ≠ "" ↔ Filled response "authority" := by
    rw [hbuilt.authority, textOr_ne_iff (by decide)]
  have hspent : (∀ service ∈ services, serviceInvocationSchema service.json = true) →
      Schema.atLeast contents.cost_usd 0 = true := by
    intro hall
    rw [hbuilt.cost_usd]
    exact numbers.add_atLeast _ _ (hcosts hall).1 (hcosts hall).2
  rw [receiptSchema_iff hbuilt hnow moment.total_atLeast hlen, hmode, hcandidates, hresolvers,
    hcontext, houtcome, hauthority, confidence_conforms_iff hbuilt.confidence]
  constructor
  · rintro ⟨hpolicy, hservices, hranked, hresolvers, hcontext, hresult, -⟩
    obtain ⟨hretrieval, hreranker, hmodel, hrequested, hattempts⟩ := hconform.mp hservices
    refine ⟨hpolicy, hrequested, hattempts, hretrieval, ?_, hmodel, hresolvers, hcontext, hresult⟩
    intro others hothers
    rw [hsearch] at hothers
    cases hothers
    exact ⟨hranked, hreranker⟩
  · intro hall
    obtain ⟨hranked, hreranker⟩ := hall.candidates candidates hsearch
    have hservices := hconform.mpr
      ⟨hall.retrieval, hreranker, hall.model, hall.requested, hall.attempts⟩
    exact ⟨hall.policy, hservices, hranked, hall.resolvers, hall.context, hall.result,
      hspent hservices⟩

/-- A receipt meets its schema exactly when the policy, the requested model with its attempts, the
services and the response are within the ranges of the schema. -/
theorem execute_query_with_receipt_conforms_iff {receipt : Json}
    (hnow : formats.isDateTime moment.now = true)
    (hids : ∀ candidates,
      retriever.search call.query call.query_pack_ids call.limit = .ok candidates →
        ∀ candidate ∈ candidates, Identified candidate)
    (h : execute_query_with_receipt sha256 unicode numbers call retriever model_service moment =
      .ok (response, receipt)) :
    receiptSchema formats receipt = true ↔
      Conforming numbers call retriever model_service response := by
  obtain ⟨⟨answer, contents⟩, hexecute, h⟩ := bind_eq_ok.mp h
  cases h
  exact contents_conform_iff hnow hids hexecute

end

def anyFormat : FormatChecker := ⟨fun _ => true, fun _ => true⟩

theorem identified_local : ∀ candidates,
    localRetriever.search localCall.query localCall.query_pack_ids localCall.limit =
      .ok candidates → ∀ candidate ∈ candidates, Identified candidate := by
  intro candidates h
  rw [← Except.ok.inj h]
  intro candidate hcandidate
  rw [List.mem_singleton.mp hcandidate]
  exact ⟨by decide +kernel, by decide +kernel⟩

/-- A confidence of one and a half is copied, and the receipt does not conform. -/
theorem overconfident_receipt_rejected : ∃ receipt,
    execute_query_with_receipt .hashlib asciiText plainNumbers localCall localRetriever localModel
      atOnce = .ok (overconfident, receipt) ∧ receiptSchema anyFormat receipt = false := by
  obtain ⟨contents, h⟩ := localCall_executes
  refine ⟨contents.receipt .hashlib, bind_eq_ok.mpr ⟨_, h, rfl⟩, ?_⟩
  rw [← Bool.not_eq_true, contents_conform_iff rfl identified_local h]
  intro hall
  have hrange := hall.result.2.2 _ _ rfl (fun hnull => nomatch hnull) rfl
  exact absurd hrange.2 (by decide +kernel)

theorem execute_query_with_receipt_conforms_iff_local : ∃ receipt,
    execute_query_with_receipt .hashlib asciiText plainNumbers localCall localRetriever localModel
      atOnce = .ok (overconfident, receipt) ∧
      (receiptSchema anyFormat receipt = true ↔
        Conforming plainNumbers localCall localRetriever localModel overconfident) := by
  obtain ⟨contents, hexecute⟩ := localCall_executes
  have h : execute_query_with_receipt .hashlib asciiText plainNumbers localCall localRetriever
      localModel atOnce = .ok (overconfident, contents.receipt .hashlib) :=
    bind_eq_ok.mpr ⟨_, hexecute, rfl⟩
  exact ⟨_, h, execute_query_with_receipt_conforms_iff rfl identified_local h⟩

end Receipt

end FossilCore
