import FossilCore.Application.ContextSecurity

/-!
# Executable fields

Which responses of a wrapped service leave the boundary without an executable field.  Members of
the response itself and of its output are filtered by name; the values of the members that stay
are copied as they are.
-/

namespace FossilCore

open Base Json

/-- The value carries no executable field. -/
abbrev IsData (value : Json) : Prop := value.Avoids _EXECUTABLE_FIELDS

abbrev MembersAreData (exempt : List String) (value : Json) : Prop :=
  value.MembersAvoid _EXECUTABLE_FIELDS exempt

namespace UntrustedContextModelService

variable {self : UntrustedContextModelService}

theorem metadata_ok {metadata : Json} :
    self.metadata = .ok metadata ↔
      ∃ inner, (self.service.metadata = .ok inner ∧ inner.isObj = true) ∧
        (runtimeOf inner).isObj = true ∧ hardened inner (runtimeOf inner) = metadata := by
  unfold UntrustedContextModelService.metadata
  rw [bind_eq_ok]
  constructor
  · rintro ⟨inner, hinner, h⟩
    obtain ⟨runtime, hruntime, h⟩ := bind_eq_ok.mp h
    obtain ⟨rfl, hobj⟩ := asMapping_ok.mp hruntime
    exact ⟨inner, bind_asMapping_ok.mp hinner, hobj, Except.ok.inj h⟩
  · rintro ⟨inner, hinner, hobj, rfl⟩
    refine ⟨inner, bind_asMapping_ok.mpr hinner, ?_⟩
    rw [bind_eq_ok]
    exact ⟨_, asMapping_ok.mpr ⟨rfl, hobj⟩, rfl⟩

/-- What a run computes on its way to a response. -/
structure Answered (wrapper : UntrustedContextModelService) (task response : Json) where
  secured : Secured
  raw : Json
  pack_ids : List String
  durable_claims : Dict String Json
  metadata : Json
  secure_ok : wrapper.secure task = .ok secured
  raw_ok : wrapper.service.run secured.request = .ok raw
  raw_mapping : raw.isObj = true
  packs_ok : requestPacks task = .ok pack_ids
  durable_ok : wrapper.durableClaims pack_ids = .ok durable_claims
  metadata_ok : wrapper.metadata = .ok metadata
  response_eq : response = rebuilt durable_claims metadata secured.diagnostics raw

theorem run_ok {task response : Json} :
    self.run task = .ok response ↔ Nonempty (self.Answered task response) := by
  unfold UntrustedContextModelService.run
  constructor
  · intro h
    obtain ⟨secured, hsecured, h⟩ := bind_eq_ok.mp h
    obtain ⟨raw, hraw, h⟩ := bind_eq_ok.mp h
    obtain ⟨pack_ids, hpacks, h⟩ := bind_eq_ok.mp h
    obtain ⟨durable_claims, hdurable, h⟩ := bind_eq_ok.mp h
    obtain ⟨metadata, hmetadata, h⟩ := bind_eq_ok.mp h
    obtain ⟨hraw, hobj⟩ := bind_asMapping_ok.mp hraw
    exact ⟨⟨secured, raw, pack_ids, durable_claims, metadata, hsecured, hraw, hobj, hpacks,
      hdurable, hmetadata, (Except.ok.inj h).symm⟩⟩
  · rintro ⟨h⟩
    have hraw := bind_asMapping_ok.mpr ⟨h.raw_ok, h.raw_mapping⟩
    exact bind_eq_ok.mpr ⟨_, h.secure_ok, bind_eq_ok.mpr ⟨_, hraw, bind_eq_ok.mpr ⟨_, h.packs_ok,
      bind_eq_ok.mpr ⟨_, h.durable_ok, bind_eq_ok.mpr ⟨_, h.metadata_ok,
        congrArg Except.ok h.response_eq.symm⟩⟩⟩⟩⟩

theorem of_durableClaims {allowed : List String} {durable_claims : Dict String Json}
    (h : self.durableClaims allowed = .ok durable_claims) {identifier : String} {document : Json}
    (hget : durable_claims.get? identifier = some document) :
    document ∈ self.documents.items ∧ isAllowedClaim allowed document = true ∧
      textOf document "id" = identifier := by
  obtain ⟨pairs, hpairs, h⟩ := bind_eq_ok.mp h
  rw [← Except.ok.inj h] at hget
  obtain ⟨source, hsource, hpair⟩ :=
    exists_of_mem_mapM hpairs _ (Dict.mem_of_get?_ofPairs hget)
  obtain ⟨id, hid, hpair⟩ := bind_eq_ok.mp hpair
  cases hpair
  obtain ⟨hin, hallowed⟩ := List.mem_filter.mp hsource
  refine ⟨hin, hallowed, ?_⟩
  rw [textOf, getItem_ok_iff.mp (liftPy_eq_ok.mp hid)]
  rfl

/-! ## The output -/

theorem claim_fold (durable_claims : Dict String Json) (claims : List Json) (state : ClaimLoop) :
    (claims.foldl (ClaimLoop.step durable_claims) state).canonical_claims =
        state.canonical_claims ++
          (claims.filterMap (citedDocument durable_claims)).map _durable_claim_payload ∧
      ((claims.foldl (ClaimLoop.step durable_claims) state).invalid_claim_ids = [] ↔
        state.invalid_claim_ids = [] ∧
          ∀ claim ∈ claims, citedDocument durable_claims claim ≠ none) := by
  induction claims generalizing state with
  | nil => simp
  | cons claim claims ih =>
      obtain ⟨hcanonical, hinvalid⟩ := ih (state.step durable_claims claim)
      rw [List.foldl_cons, hcanonical, hinvalid, List.forall_mem_cons]
      cases hcited : citedDocument durable_claims claim with
      | none => simp [ClaimLoop.step, hcited]
      | some document => simp [ClaimLoop.step, hcited]

theorem canonical_claims (durable_claims : Dict String Json) (output : Json) :
    (claimLoop durable_claims output).canonical_claims =
      ((claimValues output).filterMap (citedDocument durable_claims)).map _durable_claim_payload :=
  (claim_fold durable_claims (claimValues output) ⟨[], [], .obj []⟩).1

theorem invalid_claim_ids_eq_nil_iff {durable_claims : Dict String Json} {output : Json} :
    (claimLoop durable_claims output).invalid_claim_ids = [] ↔
      ∀ claim ∈ claimValues output, citedDocument durable_claims claim ≠ none := by
  have h := (claim_fold durable_claims (claimValues output) ⟨[], [], .obj []⟩).2
  rw [claimLoop, h]
  exact and_iff_right rfl

theorem get?_allowedOutput (raw_output : Json) (key : String) :
    (allowedOutput raw_output).get? key =
      if key ∈ _ALLOWED_OUTPUT_FIELDS then raw_output.get? key else none := by
  cases raw_output with
  | obj fs =>
      show lookup key (fs.filter _) = _
      rw [lookup_filter fun k => decide (k ∈ _ALLOWED_OUTPUT_FIELDS)]
      simp [get?]
  | _ => simp [allowedOutput, Json.fields, get?, lookup]

theorem claimValues_allowedOutput (raw_output : Json) :
    claimValues (allowedOutput raw_output) = claimValues raw_output := by
  rw [claimValues, get?_allowedOutput, if_pos (by decide)]
  rfl

theorem isData_abstention : IsData abstention := by
  rw [IsData, abstention, avoids_ofMembers_iff (by decide) (by decide)]
  simp [Avoids, AvoidsItems, _EXECUTABLE_FIELDS]

/-- The citation of a durable claim carries no executable field. -/
def CitationIsData (document : Json) : Prop :=
  ∀ key ∈ _CITATION_KEYS, ∀ value,
    (member document "citation").get? key = some value → IsData value

theorem isData_canonical_citation {citation : Json} (h : citation.WF) :
    IsData (_canonical_citation citation) ↔
      ∀ key ∈ _CITATION_KEYS, ∀ value, citation.get? key = some value → IsData value := by
  by_cases hobj : citation.isObj = true
  · have hwf : ∀ m ∈ _CITATION_KEYS.map (fun key => (key, member citation key)), m.2.WF := by
      rw [List.forall_mem_map]
      intro key _
      cases hget : citation.get? key with
      | none => simpa [member, hget] using wf_null
      | some value => simpa [member, hget] using h.of_get? hget
    have hnodup : ((_CITATION_KEYS.map fun key => (key, member citation key)).map Prod.fst).Nodup := by
      show _CITATION_KEYS.Nodup
      decide
    have hkeys : ∀ key ∈ _CITATION_KEYS, key ∉ _EXECUTABLE_FIELDS := by decide
    rw [IsData, _canonical_citation, if_pos hobj, avoids_ofMembers_iff hwf hnodup,
      List.forall_mem_map]
    refine forall₂_congr fun key hkey => ?_
    rw [and_iff_right (hkeys key hkey)]
    cases hget : citation.get? key with
    | none => simp [member, hget, avoids_null]
    | some value => simp [member, hget]
  · rw [_canonical_citation, if_neg hobj]
    refine iff_of_true avoids_null ?_
    intro key _ value hget
    cases citation with
    | obj fs => exact absurd rfl hobj
    | _ => cases hget

theorem wf_canonical_citation {citation : Json} (h : citation.WF) :
    (_canonical_citation citation).WF := by
  unfold _canonical_citation
  split_ifs
  · apply wf_ofMembers
    rw [List.forall_mem_map]
    intro key _
    cases hget : citation.get? key with
    | none => simpa [member, hget] using wf_null
    | some value => simpa [member, hget] using h.of_get? hget
  · exact wf_null

theorem wf_member {value : Json} (h : value.WF) (key : String) : (member value key).WF := by
  cases hget : value.get? key with
  | none => simpa [member, hget] using wf_null
  | some w => simpa [member, hget] using h.of_get? hget

theorem isData_payload {document : Json} (h : document.WF) :
    IsData (_durable_claim_payload document) ↔ CitationIsData document := by
  have hcitation := wf_member h "citation"
  rw [CitationIsData, ← isData_canonical_citation hcitation]
  by_cases hnull : _canonical_citation (member document "citation") = .null
  · simp only [IsData, _durable_claim_payload, if_pos hnull]
    rw [avoids_ofMembers_iff (by simp [wf_str]) (by simp), hnull]
    simp [avoids_str, avoids_null, _EXECUTABLE_FIELDS]
  · simp only [IsData, _durable_claim_payload, if_neg hnull]
    rw [avoids_ofMembers_iff (by simp [wf_str, wf_canonical_citation hcitation]) (by simp)]
    simp [avoids_str, _EXECUTABLE_FIELDS]

/-- The values of the output that are copied, and the citations of the durable claims that it
names, carry no executable field. -/
structure OutputIsData (durable_claims : Dict String Json) (raw_output : Json) : Prop where
  values : ∀ key ∈ ["outcome", "answer_text", "confidence"], ∀ value,
    raw_output.get? key = some value → IsData value
  citations : ∀ claim ∈ claimValues raw_output, ∀ document,
    citedDocument durable_claims claim = some document → CitationIsData document

/-- Every claim that the output names is a durable claim of an allowed pack. -/
def NamesDurableClaims (durable_claims : Dict String Json) (raw_output : Json) : Prop :=
  ∀ claim ∈ claimValues raw_output, citedDocument durable_claims claim ≠ none

variable {durable_claims : Dict String Json}

theorem citedDocument_eq_some {claim document : Json} :
    citedDocument durable_claims claim = some document ↔
      claimId claim ≠ "" ∧ durable_claims.get? (claimId claim) = some document := by
  unfold citedDocument
  by_cases h : claimId claim = "" <;> simp [h]

theorem wf_payload {document : Json} (h : document.WF) : (_durable_claim_payload document).WF := by
  have hcitation := wf_canonical_citation (wf_member h "citation")
  apply wf_ofMembers
  intro m hm
  rcases List.mem_append.mp hm with hm | hm
  · simp only [List.mem_cons, List.not_mem_nil, or_false] at hm
    rcases hm with rfl | rfl <;> exact wf_str _
  · split_ifs at hm
    · cases hm
    · rw [List.mem_singleton.mp hm]
      exact hcitation

/-- The durable documents of the dictionary are decoded values. -/
def Decoded (durable_claims : Dict String Json) : Prop :=
  ∀ identifier document, durable_claims.get? identifier = some document → document.WF

theorem isData_canonicalClaims (hdurable : Decoded durable_claims) (output : Json) :
    IsData (.arr (claimLoop durable_claims output).canonical_claims) ↔
      ∀ claim ∈ claimValues output, ∀ document,
        citedDocument durable_claims claim = some document → CitationIsData document := by
  rw [IsData, avoids_arr_iff, canonical_claims, List.forall_mem_map]
  constructor
  · intro h claim hclaim document hcited
    have hwf := hdurable _ _ (citedDocument_eq_some.mp hcited).2
    exact (isData_payload hwf).mp (h document (List.mem_filterMap.mpr ⟨claim, hclaim, hcited⟩))
  · intro h document hdocument
    obtain ⟨claim, hclaim, hcited⟩ := List.mem_filterMap.mp hdocument
    have hwf := hdurable _ _ (citedDocument_eq_some.mp hcited).2
    exact (isData_payload hwf).mpr (h claim hclaim document hcited)

theorem wf_canonicalClaims (hdurable : Decoded durable_claims) (output : Json) :
    (Json.arr (claimLoop durable_claims output).canonical_claims).WF := by
  show WFItems _
  rw [wfItems_iff, canonical_claims, List.forall_mem_map]
  intro document hdocument
  obtain ⟨claim, -, hcited⟩ := List.mem_filterMap.mp hdocument
  exact wf_payload (hdurable _ _ (citedDocument_eq_some.mp hcited).2)

theorem membersAreData_allowedOutput (raw_output : Json) :
    MembersAreData ["claims"] (allowedOutput raw_output) ↔
      ∀ key ∈ ["outcome", "answer_text", "confidence"], ∀ value,
        raw_output.get? key = some value → IsData value := by
  constructor
  · intro h key hkey value hget
    have hallowed : ∀ k ∈ ["outcome", "answer_text", "confidence"],
        k ∈ _ALLOWED_OUTPUT_FIELDS ∧ k ∉ ["claims"] := by decide
    refine (h key value ?_ (hallowed key hkey).2).2
    rw [get?_allowedOutput, if_pos (hallowed key hkey).1, hget]
  · intro h key value hget hkey
    rw [get?_allowedOutput] at hget
    split_ifs at hget with hallowed
    have hcopied : ∀ k ∈ _ALLOWED_OUTPUT_FIELDS, k ∉ ["claims"] →
        k ∈ ["outcome", "answer_text", "confidence"] ∧ k ∉ _EXECUTABLE_FIELDS := by decide
    obtain ⟨hmem, hexec⟩ := hcopied key hallowed hkey
    exact ⟨hexec, h key hmem value hget⟩

theorem wf_allowedOutput {raw_output : Json} (h : raw_output.WF) :
    (allowedOutput raw_output).WF := by
  cases raw_output with
  | obj fs => exact wf_filter h fun k => decide (k ∈ _ALLOWED_OUTPUT_FIELDS)
  | _ => exact ⟨List.Pairwise.nil, trivial⟩

theorem wf_finalOutput (hdurable : Decoded durable_claims) {raw_output : Json}
    (h : raw_output.WF) :
    (finalOutput (allowedOutput raw_output)
      (claimLoop durable_claims (allowedOutput raw_output))).WF := by
  unfold finalOutput
  split_ifs
  · exact (wf_allowedOutput h).set (wf_canonicalClaims hdurable _)
  · decide

theorem isData_finalOutput (hdurable : Decoded durable_claims) {raw_output : Json}
    (hwf : raw_output.WF) :
    IsData (finalOutput (allowedOutput raw_output)
        (claimLoop durable_claims (allowedOutput raw_output))) ↔
      (NamesDurableClaims durable_claims raw_output → OutputIsData durable_claims raw_output) := by
  have hinvalid : (claimLoop durable_claims (allowedOutput raw_output)).invalid_claim_ids = [] ↔
      NamesDurableClaims durable_claims raw_output := by
    rw [invalid_claim_ids_eq_nil_iff, claimValues_allowedOutput]
    rfl
  unfold finalOutput
  split_ifs with hnil
  · have hclaims := isData_canonicalClaims hdurable (allowedOutput raw_output)
    rw [claimValues_allowedOutput] at hclaims
    have hset : ((allowedOutput raw_output).set "claims"
        (.arr (claimLoop durable_claims (allowedOutput raw_output)).canonical_claims)).WF :=
      (wf_allowedOutput hwf).set (wf_canonicalClaims hdurable _)
    have hkey : "claims" ∉ _EXECUTABLE_FIELDS := by decide
    rw [forall_prop_of_true (hinvalid.mp hnil), IsData,
      hset.avoids_iff_members (isObj_set rfl "claims" _), membersAvoid_set rfl]
    constructor
    · rintro ⟨hself, hrest⟩
      exact ⟨(membersAreData_allowedOutput raw_output).mp hrest,
        hclaims.mp (hself List.not_mem_nil).2⟩
    · rintro ⟨hvalues, hcitations⟩
      exact ⟨fun _ => ⟨hkey, hclaims.mpr hcitations⟩,
        (membersAreData_allowedOutput raw_output).mpr hvalues⟩
  · exact iff_of_true isData_abstention fun hnames => absurd (hinvalid.mpr hnames) hnil

/-! ## The response -/

/-- The members of a run's response, its diagnostics apart, carry no executable field. -/
def Contained (response : Json) : Prop := MembersAreData ["context_security"] response

/-- The values that a run copies into its response carry no executable field. -/
structure PassesData (durable_claims : Dict String Json) (raw inner : Json) : Prop where
  members : ∀ key value, raw.get? key = some value → key ∉ _EXECUTABLE_FIELDS →
    key ∉ ["output", "authority", "service", "context_security"] → IsData value
  output : NamesDurableClaims durable_claims (rawOutput raw) →
    OutputIsData durable_claims (rawOutput raw)
  metadata : MembersAreData ["runtime"] inner
  runtime : MembersAreData
    ["context_security_resolver", "retrieved_source_text_trust", "answer_tool_execution"]
    (runtimeOf inner)

theorem wf_runtimeOf {inner : Json} (h : inner.WF) : (runtimeOf inner).WF := by
  unfold runtimeOf
  cases hget : inner.get? "runtime" with
  | none => exact ⟨List.Pairwise.nil, trivial⟩
  | some runtime => exact h.of_get? hget

theorem wf_hardened {inner : Json} (h : inner.WF) : (hardened inner (runtimeOf inner)).WF :=
  h.set ((((wf_runtimeOf h).set (wf_str _)).set (wf_str _)).set (wf_str _))

theorem isData_hardened {inner : Json} (hwf : inner.WF) (hobj : inner.isObj = true)
    (hruntime : (runtimeOf inner).isObj = true) :
    IsData (hardened inner (runtimeOf inner)) ↔
      MembersAreData ["runtime"] inner ∧
        MembersAreData
          ["context_security_resolver", "retrieved_source_text_trust", "answer_tool_execution"]
          (runtimeOf inner) := by
  have hkeys : ∀ key ∈ ["runtime", "context_security_resolver", "retrieved_source_text_trust",
      "answer_tool_execution"], key ∉ _EXECUTABLE_FIELDS := by decide
  have hmarked : (((runtimeOf inner
      |>.set "context_security_resolver" (.str CONTEXT_SECURITY_RESOLVER))
      |>.set "retrieved_source_text_trust" (.str UNTRUSTED_SOURCE_DATA))
      |>.set "answer_tool_execution" (.str "disabled")).WF :=
    (((wf_runtimeOf hwf).set (wf_str _)).set (wf_str _)).set (wf_str _)
  have hobj₁ := isObj_set hruntime "context_security_resolver" (.str CONTEXT_SECURITY_RESOLVER)
  have hobj₂ := isObj_set hobj₁ "retrieved_source_text_trust" (.str UNTRUSTED_SOURCE_DATA)
  have hobj₃ := isObj_set hobj₂ "answer_tool_execution" (.str "disabled")
  rw [IsData, (wf_hardened hwf).avoids_iff_members (isObj_set hobj _ _), hardened,
    membersAvoid_set hobj, hmarked.avoids_iff_members hobj₃, membersAvoid_set hobj₂,
    membersAvoid_set hobj₁, membersAvoid_set hruntime]
  constructor
  · rintro ⟨hself, hrest⟩
    exact ⟨hrest, (hself List.not_mem_nil).2.2.2.2⟩
  · rintro ⟨hrest, hruntime⟩
    refine ⟨fun _ => ⟨hkeys _ (by simp), ?_, ?_, ?_, hruntime⟩, hrest⟩
    · exact fun _ => ⟨hkeys _ (by simp), avoids_str _⟩
    · exact fun _ => ⟨hkeys _ (by simp), avoids_str _⟩
    · exact fun _ => ⟨hkeys _ (by simp), avoids_str _⟩

theorem wf_rawOutput {raw : Json} (h : raw.WF) : (rawOutput raw).WF := by
  unfold rawOutput
  cases hget : raw.get? "output" with
  | none => exact ⟨List.Pairwise.nil, trivial⟩
  | some value =>
      show (if value.isObj = true then value else .obj []).WF
      split_ifs
      · exact h.of_get? hget
      · exact ⟨List.Pairwise.nil, trivial⟩

theorem rawOutput_eraseAll (raw : Json) :
    rawOutput (raw.eraseAll _EXECUTABLE_FIELDS) = rawOutput raw := by
  have houtput : "output" ∉ _EXECUTABLE_FIELDS := by decide
  simp only [rawOutput, get?_eraseAll, if_neg houtput]

theorem contained_rebuilt (hdurable : Decoded durable_claims) {raw inner : Json} (hraw : raw.WF)
    (hraw' : raw.isObj = true) (hinner : inner.WF) (hinner' : inner.isObj = true)
    (hruntime : (runtimeOf inner).isObj = true) (diagnostics : Json) :
    Contained (rebuilt durable_claims (hardened inner (runtimeOf inner)) diagnostics raw) ↔
      PassesData durable_claims raw inner := by
  have hobj := isObj_eraseAll hraw' _EXECUTABLE_FIELDS
  have hfinal := isData_finalOutput hdurable (wf_rawOutput hraw)
  have hhardened := isData_hardened hinner hinner' hruntime
  simp only [Contained, rebuilt, rawOutput_eraseAll]
  rw [MembersAreData, membersAvoid_set (isObj_set (isObj_set (isObj_set hobj _ _) _ _) _ _),
    membersAvoid_set (isObj_set (isObj_set hobj _ _) _ _), membersAvoid_set (isObj_set hobj _ _),
    membersAvoid_set hobj, membersAvoid_eraseAll]
  constructor
  · rintro ⟨-, hservice, -, houtput, hmembers⟩
    obtain ⟨hmetadata, hruntime⟩ := hhardened.mp (hservice (by decide)).2
    refine ⟨?_, hfinal.mp (houtput (by decide)).2, hmetadata, hruntime⟩
    intro key value hget hexec hother
    exact hmembers key value hget hexec (by simpa using hother)
  · rintro ⟨hmembers, houtput, hmetadata, hruntime⟩
    refine ⟨fun h => absurd (by simp) h, fun _ => ⟨by decide, ?_⟩, fun _ => ⟨by decide, ?_⟩,
      fun _ => ⟨by decide, ?_⟩, ?_⟩
    · exact hhardened.mpr ⟨hmetadata, hruntime⟩
    · exact avoids_str _
    · exact hfinal.mpr houtput
    · intro key value hget hexec hother
      exact hmembers key value hget hexec (by simpa using hother)

/-- What the wrapped service and the documents give a run on the task to copy is data. -/
def PassesOnlyData (wrapper : UntrustedContextModelService) (task : Json) : Prop :=
  ∀ secured raw pack_ids durable_claims inner, wrapper.secure task = .ok secured →
    wrapper.service.run secured.request = .ok raw → requestPacks task = .ok pack_ids →
    wrapper.durableClaims pack_ids = .ok durable_claims → wrapper.service.metadata = .ok inner →
    PassesData durable_claims raw inner

theorem decoded_of_durableClaims {allowed : List String}
    (h : self.durableClaims allowed = .ok durable_claims) : Decoded durable_claims := by
  intro identifier document hget
  exact (self.documents.mappings document (of_durableClaims h hget).1).2

theorem Answered.contained_iff {task response : Json} (h : self.Answered task response) :
    Contained response ↔ self.PassesOnlyData task := by
  obtain ⟨inner, ⟨hinner, hobj⟩, hruntime, hmetadata⟩ := UntrustedContextModelService.metadata_ok.mp h.metadata_ok
  have hiff := contained_rebuilt (decoded_of_durableClaims h.durable_ok)
    (self.service.run_wf _ _ h.raw_ok) h.raw_mapping (self.service.metadata_wf _ hinner) hobj
    hruntime h.secured.diagnostics
  rw [h.response_eq, ← hmetadata, hiff]
  constructor
  · intro hdata secured raw pack_ids durable_claims inner' hsecured hraw hpacks hdurable hinner'
    cases h.secure_ok.symm.trans hsecured
    cases h.raw_ok.symm.trans hraw
    cases h.packs_ok.symm.trans hpacks
    cases h.durable_ok.symm.trans hdurable
    cases hinner.symm.trans hinner'
    exact hdata
  · intro hdata
    exact hdata _ _ _ _ _ h.secure_ok h.raw_ok h.packs_ok h.durable_ok hinner

/-- A service that answers with a tool call in the place of its text. -/
def toolCallService : ModelService where
  metadata := .ok (.obj [])
  run := fun _ => .ok (.ofMembers [("output", .ofMembers [
    ("answer_text", .ofMembers [("tool_calls", .arr [])]), ("claims", .arr [])])])
  metadata_wf := by
    intro value h
    cases h
    decide
  run_wf := by
    intro request response h
    cases h
    decide

def toolCallWrapper : UntrustedContextModelService :=
  ⟨toolCallService, ⟨[], by simp⟩⟩

def emptyTask : Json := .ofMembers [("context_items", .arr []), ("pack_ids", .arr [])]

theorem toolCall_run : ∃ response, toolCallWrapper.run emptyTask = .ok response :=
  ⟨_, run_ok.mpr ⟨{
    secured := ⟨[], contextDiagnostics [] 0 .initial, _⟩
    raw := _
    pack_ids := []
    durable_claims := .empty
    metadata := _
    secure_ok := rfl
    raw_ok := rfl
    raw_mapping := rfl
    packs_ok := rfl
    durable_ok := rfl
    metadata_ok := rfl
    response_eq := rfl }⟩⟩

end UntrustedContextModelService

end FossilCore
