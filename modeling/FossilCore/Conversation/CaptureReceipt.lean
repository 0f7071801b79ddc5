import FossilCore.Conversation.CaptureGraph

/-!
# Receipts of captures

A receipt that is built of exposed nodes passes its own validation, and states the capture to be
complete exactly when the graph is a forest with agreeing links, some message and the current node
among its nodes, and the continuation ended in success.
-/

namespace FossilCore

open Base Json

namespace SharedChatCapture

open ParentChain

/-! ## Continuations -/

def attemptsOf (continuation : Json) : List Json :=
  ((continuation.get? "attempts").getD .null).items

/-- There was nothing to continue, or every attempt to continue succeeded. -/
def EndedInSuccess (continuation : Json) : Prop :=
  (continuation.get? "state" = some (.str "not_present") ∧
    continuation.get? "termination_reason" = some (.str "source_terminal") ∧
      attemptsOf continuation = []) ∨
  (continuation.get? "state" = some (.str "resolved") ∧
    continuation.get? "termination_reason" = some (.str "continuation_exhausted") ∧
      attemptsOf continuation ≠ [] ∧
        ∀ attempt ∈ attemptsOf continuation, attempt.get? "outcome" = some (.str "success"))

theorem allSucceeded_eq {attempts : List Json} (h : ∀ attempt ∈ attempts, attempt.isObj = true) :
    allSucceeded attempts =
      .ok (decide (∀ attempt ∈ attempts, attempt.get? "outcome" = some (.str "success"))) := by
  induction attempts with
  | nil => simp [allSucceeded]
  | cons attempt attempts ih =>
      rw [allSucceeded, getMethod_of_isObj (h attempt List.mem_cons_self)]
      change (if attempt.get? "outcome" = some (.str "success") then _ else _) = _
      rw [ih fun a ha => h a (List.mem_cons_of_mem _ ha)]
      by_cases hsuccess : attempt.get? "outcome" = some (.str "success")
      · simp [hsuccess]
      · simp only [hsuccess, if_false, List.forall_mem_cons, false_and, decide_false]
        rfl

/-- The attempts of a continuation that meets its schema. -/
theorem attempts_of_schema {continuation : Json} (h : continuationSchema continuation = true) :
    continuation.isObj = true ∧ continuation.get? "attempts" = some (.arr (attemptsOf continuation)) ∧
      ∀ attempt ∈ attemptsOf continuation, attempt.isObj = true := by
  obtain ⟨v, hv, hschema⟩ := Schema.member_of_object h "attempts" _ (by simp)
    (List.mem_cons_of_mem _ (List.mem_cons_of_mem _ List.mem_cons_self))
  obtain ⟨attempts, rfl, hitems⟩ := Schema.arr_of_items hschema List.mem_cons_self
  have hattempts : attemptsOf continuation = attempts := by rw [attemptsOf, hv]; rfl
  obtain ⟨fields, rfl⟩ := Schema.isObj_of_type (Schema.allOf_iff.mp h _ List.mem_cons_self)
  refine ⟨rfl, by rw [hattempts]; exact hv, ?_⟩
  intro attempt hattempt
  rw [hattempts] at hattempt
  obtain ⟨fields, rfl⟩ := Schema.isObj_of_type
    (Schema.allOf_iff.mp (hitems attempt hattempt) _ List.mem_cons_self)
  rfl

theorem terminal_success_eq {continuation : Json} (h : continuationSchema continuation = true) :
    ∃ success, _continuation_is_terminal_success continuation = .ok success ∧
      (success = true ↔ EndedInSuccess continuation) := by
  obtain ⟨hobj, hattempts, hitems⟩ := attempts_of_schema h
  have hmethod := fun key => getMethod_of_isObj hobj key
  rw [_continuation_is_terminal_success, hmethod, hmethod, hmethod, hattempts, EndedInSuccess]
  simp only [liftPy_ok, bind, Except.bind, Option.getD_some, iterate]
  by_cases hstate : continuation.get? "state" = some (.str "not_present")
  · simp only [hstate, if_true]
    exact ⟨_, rfl, by simp⟩
  · simp only [hstate, if_false, false_and, false_or]
    by_cases hresolved : continuation.get? "state" = some (.str "resolved")
    · simp only [hresolved, if_true, true_and]
      by_cases hexhausted : continuation.get? "termination_reason" =
          some (.str "continuation_exhausted") ∧ attemptsOf continuation ≠ []
      · rw [if_pos hexhausted, allSucceeded_eq hitems]
        exact ⟨_, rfl, by simp [hexhausted.1, hexhausted.2]⟩
      · rw [if_neg hexhausted]
        refine ⟨false, rfl, ?_⟩
        simp only [Bool.false_eq_true, false_iff]
        exact fun hall => hexhausted ⟨hall.1, hall.2.1⟩
    · simp only [hresolved, if_false, false_and]
      exact ⟨false, rfl, by simp⟩

/-! ## What the nodes account for -/

section Derived

variable {nodes : Nodes} {current_node_id : Option String}

theorem mem_sorted_keys {id : String} : id ∈ sorted nodes.keys ↔ nodes.contains id = true := by
  rw [(sorted_perm nodes.keys).mem_iff, mem_keys_iff]

theorem mem_idsWhere {keep : Node → Bool} {id : String} :
    id ∈ idsWhere nodes keep ↔ ∃ node, nodes.get? id = some node ∧ keep node = true := by
  rw [idsWhere, (sorted_perm _).mem_iff, List.mem_map]
  constructor
  · rintro ⟨⟨other, node⟩, hmem, rfl⟩
    obtain ⟨hentry, hkeep⟩ := List.mem_filter.mp hmem
    exact ⟨node, Dict.mem_entries_iff.mp hentry, hkeep⟩
  · rintro ⟨node, hnode, hkeep⟩
    exact ⟨(id, node), List.mem_filter.mpr ⟨Dict.mem_entries_iff.mpr hnode, hkeep⟩, rfl⟩

theorem nodup_idsWhere (nodes : Nodes) (keep : Node → Bool) : (idsWhere nodes keep).Nodup := by
  rw [idsWhere, (sorted_perm _).nodup_iff]
  exact nodes.nodup.sublist (List.filter_sublist.map Prod.fst)

theorem idsWhere_contains {keep : Node → Bool} {id : String} (h : id ∈ idsWhere nodes keep) :
    nodes.contains id = true := by
  obtain ⟨node, hnode, -⟩ := mem_idsWhere.mp h
  exact Dict.contains_iff.mpr ⟨node, hnode⟩

/-- What the checks of a receipt need of the derived parts. -/
structure Accounts (nodes : Nodes) (d : Derived) : Prop where
  discovered : ∀ id, id ∈ d.discovered ↔ nodes.contains id = true
  nodup_discovered : d.discovered.Nodup
  messages : ∀ id ∈ d.message_nodes, id ∈ d.discovered
  nodup_messages : d.message_nodes.Nodup
  roots : ∀ id ∈ d.roots, id ∈ d.discovered
  nodup_roots : d.roots.Nodup
  nodup_active : d.active.Nodup
  active : ∀ id ∈ d.active, id ∈ d.discovered
  nodup_non_active : d.non_active.Nodup
  non_active : ∀ id, id ∈ d.non_active ↔ id ∈ d.discovered ∧ id ∉ d.active
  current : ∀ id, d.recorded_current = some id → id ∈ d.discovered
  unresolved : ∀ r ∈ d.unresolved, WellRecorded nodes r
  ids : ∀ id ∈ d.discovered, id ≠ ""

theorem accounts_derivedOf (h : NonemptyIds nodes current_node_id) :
    Accounts nodes (derivedOf nodes current_node_id) where
  discovered _ := mem_sorted_keys
  nodup_discovered := (sorted_perm nodes.keys).nodup_iff.mpr (nodup_keys nodes)
  messages id hid := mem_sorted_keys.mpr (idsWhere_contains hid)
  nodup_messages := nodup_idsWhere nodes _
  roots id hid := mem_sorted_keys.mpr (@idsWhere_contains nodes (fun node => node.parent_id.isNone) id hid)
  nodup_roots := nodup_idsWhere nodes fun node => node.parent_id.isNone
  nodup_active := active_nodup current_node_id
  active id hid := mem_sorted_keys.mpr (mem_keys_iff.mp (active_subset current_node_id id hid))
  nodup_non_active :=
    (sorted_perm _).nodup_iff.mpr ((nodup_keys nodes).sublist List.filter_sublist)
  non_active id := by
    have hmem : id ∈ sorted (nodes.keys.filter (· ∉ (_active_branch nodes current_node_id).1)) ↔
        id ∈ sorted nodes.keys ∧ id ∉ (_active_branch nodes current_node_id).1 := by
      rw [(sorted_perm _).mem_iff, List.mem_filter, decide_eq_true_eq, (sorted_perm _).mem_iff]
    exact hmem
  current id hid := mem_sorted_keys.mpr (Option.filter_eq_some_iff.mp hid).2
  unresolved r hr := by
    rcases List.mem_append.mp (mem_sortedBy.mp hr) with hgraph | hactive
    · exact wellRecorded_graph h hgraph
    · exact wellRecorded_active h hactive
  ids id hid := h.ids id (mem_sorted_keys.mp hid)

end Derived

/-! ## The receipt against its schema -/

section Schema

variable {nodes : Nodes} {d : Derived} {formats : FormatChecker} {capture : CaptureFields}

theorem uniqueIds_strings {ids : List String} (hnodup : ids.Nodup) (hne : ∀ id ∈ ids, id ≠ "") :
    uniqueIds (strings ids) = true := by
  rw [uniqueIds, Schema.allOf_iff]
  simp only [List.forall_mem_cons, List.not_mem_nil, false_implies, implies_true, and_true]
  refine ⟨rfl, decide_eq_true (Schema.nodup_strings.mpr hnodup), Schema.items_strings.mpr ?_⟩
  exact fun id hid => textSchema_iff.mpr (hne id hid)

theorem nullableText_optional {text : Option String} :
    nullableText (SourceSnapshotStore.optionalText text) = true ↔ text ≠ some "" := by
  cases text with
  | none => simp [nullableText, SourceSnapshotStore.optionalText, Schema.allOf, Schema.type,
      Schema.hasType, Schema.minLength]
  | some s =>
      have hlen : 1 ≤ s.toList.length ↔ s ≠ "" := by
        rw [Nat.one_le_iff_ne_zero, ne_eq, List.length_eq_zero_iff, String.toList_eq_nil_iff]
      rw [nullableText, Schema.allOf_iff, ne_eq, Option.some.injEq, ← ne_eq, ← hlen]
      simp only [List.forall_mem_cons, List.not_mem_nil, false_implies, implies_true, and_true]
      exact ⟨fun h => of_decide_eq_true h.2, fun h => ⟨rfl, decide_eq_true h⟩⟩

theorem countSchema_length {α : Type} (xs : List α) : countSchema (.int xs.length) = true := by
  rw [countSchema, Schema.allOf_iff]
  simp only [List.forall_mem_cons, List.not_mem_nil, false_implies, implies_true, and_true]
  exact ⟨rfl, decide_eq_true (Int.natCast_nonneg xs.length)⟩

theorem unresolvedRefSchema_json {r : UnresolvedRef} (hfrom : r.from_node_id ≠ "")
    (htarget : r.target_node_id ≠ "") : unresolvedRefSchema r.json = true := by
  refine (Schema.closedObject_display [("from_node_id", .str r.from_node_id, _string 1),
    ("relation", .str r.relation.name, Schema.enum (["parent", "child", "other"].map .str)),
    ("target_node_id", .str r.target_node_id, _string 1)] (by simp)).mpr ?_
  simp only [List.forall_mem_cons, List.not_mem_nil, false_implies, implies_true, and_true]
  refine ⟨textSchema_iff.mpr hfrom, ?_, textSchema_iff.mpr htarget⟩
  cases r.relation <;> rfl

theorem Accounts.ne_empty_of_mem (h : Accounts nodes d) {ids : List String}
    (hsubset : ∀ id ∈ ids, id ∈ d.discovered) : ∀ id ∈ ids, id ≠ "" :=
  fun id hid => h.ids id (hsubset id hid)

theorem graphSchema_graph (h : Accounts nodes d) : graphSchema d.graph = true := by
  have hnon_active : ∀ id ∈ d.non_active, id ∈ d.discovered :=
    fun id hid => ((h.non_active id).mp hid).1
  have hcurrent : d.recorded_current ≠ some "" := fun heq => h.ids "" (h.current "" heq) rfl
  have hrefs : unresolvedRefsSchema (.arr (d.unresolved.map UnresolvedRef.json)) = true := by
    rw [unresolvedRefsSchema, Schema.allOf_iff]
    simp only [List.forall_mem_cons, List.not_mem_nil, false_implies, implies_true, and_true]
    refine ⟨rfl, List.all_eq_true.mpr (List.forall_mem_map.mpr fun r hr => ?_)⟩
    obtain ⟨hfrom, htarget⟩ := h.unresolved r hr
    exact unresolvedRefSchema_json (h.ids _ ((h.discovered _).mpr hfrom)) htarget
  refine (Schema.closedObject_display [
    ("discovered_node_count", .int d.discovered.length, countSchema),
    ("accounted_node_count", .int d.discovered.length, countSchema),
    ("message_node_count", .int d.message_nodes.length, countSchema),
    ("discovered_node_ids", strings d.discovered, uniqueIds),
    ("accounted_node_ids", strings d.discovered, uniqueIds),
    ("message_node_ids", strings d.message_nodes, uniqueIds),
    ("root_node_ids", strings d.roots, uniqueIds),
    ("current_node_id", SourceSnapshotStore.optionalText d.recorded_current, nullableText),
    ("active_branch_node_ids", strings d.active, uniqueIds),
    ("non_active_exposed_node_ids", strings d.non_active, uniqueIds),
    ("unresolved_refs", .arr (d.unresolved.map UnresolvedRef.json), unresolvedRefsSchema)]
    (by simp)).mpr ?_
  simp only [List.forall_mem_cons, List.not_mem_nil, false_implies, implies_true, and_true]
  exact ⟨countSchema_length _, countSchema_length _, countSchema_length _,
    uniqueIds_strings h.nodup_discovered h.ids, uniqueIds_strings h.nodup_discovered h.ids,
    uniqueIds_strings h.nodup_messages (h.ne_empty_of_mem h.messages),
    uniqueIds_strings h.nodup_roots (h.ne_empty_of_mem h.roots),
    nullableText_optional.mpr hcurrent,
    uniqueIds_strings h.nodup_active (h.ne_empty_of_mem h.active),
    uniqueIds_strings h.nodup_non_active (h.ne_empty_of_mem hnon_active), hrefs⟩

/-- What the caller gives meets its part of the schema. -/
structure CaptureFields.Conforms (formats : FormatChecker) (capture : CaptureFields) : Prop where
  capture_id : capture.capture_id ≠ ""
  provider : capture.provider ≠ ""
  adapter_version : capture.adapter_version ≠ some ""
  source : sourceSchema formats capture.source = true
  fidelity : fidelitySchema (.str capture.fidelity) = true
  continuation : continuationSchema capture.continuation = true

theorem get?_graph {key : String} {value : Json} (hm : (key, value) ∈ d.members) :
    d.graph.get? key = some value :=
  get?_member (by simp [Derived.members]) hm

theorem get?_unresolvedRef {r : UnresolvedRef} {key : String} {value : Json}
    (hm : (key, value) ∈ r.members) : r.json.get? key = some value :=
  get?_member (by simp [UnresolvedRef.members]) hm

theorem get?_receiptOf {complete : Bool} {key : String} {value : Json}
    (hm : (key, value) ∈ receiptMembersOf capture d complete) :
    (receiptOf capture d complete).get? key = some value :=
  get?_member (by simp [receiptMembersOf]) hm

theorem isObj_receiptOf (complete : Bool) : (receiptOf capture d complete).isObj = true :=
  isObj_ofMembers _

theorem get?_completeness (complete : Bool) :
    (receiptOf capture d complete).get? "completeness" =
      some (.str (if complete then "complete" else "incomplete")) :=
  get?_receiptOf (by simp [receiptMembersOf])

theorem get?_receipt_graph (complete : Bool) :
    (receiptOf capture d complete).get? "graph" = some d.graph :=
  get?_receiptOf (by simp [receiptMembersOf])

theorem get?_continuation (complete : Bool) :
    (receiptOf capture d complete).get? "continuation" = some capture.continuation :=
  get?_receiptOf (by simp [receiptMembersOf])

theorem get?_source (complete : Bool) :
    (receiptOf capture d complete).get? "source" = some capture.source :=
  get?_receiptOf (by simp [receiptMembersOf])

theorem completeSchema_incomplete : completeSchema (receiptOf capture d false) = true := by
  rw [completeSchema, Schema.ifThen, Bool.or_eq_true, Bool.not_eq_true']
  left
  rw [Bool.eq_false_iff, ne_eq, Schema.allOf_iff]
  intro h
  have hconst := Schema.of_properties (h _ List.mem_cons_self) List.mem_cons_self
    (get?_completeness false)
  simp [Schema.const] at hconst

/-- A member of an object whose value meets the keyword for it. -/
theorem properties_of_get? {v : Json} (hobj : v.isObj = true) {members : List (String × Schema)}
    (h : ∀ m ∈ members, ∃ w, v.get? m.1 = some w ∧ m.2 w = true) :
    Schema.properties members v = true := by
  rw [Schema.properties_iff hobj]
  intro m hm w hw
  obtain ⟨w', hw', hmeets⟩ := h m hm
  cases hw'.symm.trans hw
  exact hmeets

theorem completeSchema_graph (hwhole : d.IsWhole) :
    Schema.properties [("discovered_node_count", Schema.minimum 1),
      ("accounted_node_count", Schema.minimum 1), ("discovered_node_ids", Schema.minItems 1),
      ("accounted_node_ids", Schema.minItems 1), ("unresolved_refs", maxItems 0)] d.graph =
        true := by
  obtain ⟨hdiscovered, -, -, hunresolved⟩ := hwhole
  have hlength := List.length_pos_iff.mpr hdiscovered
  have hcount : Schema.minimum 1 (.int (d.discovered.length : ℤ)) = true :=
    decide_eq_true (by omega)
  have hids : Schema.minItems 1 (strings d.discovered) = true := by
    rw [strings, Schema.minItems, decide_eq_true_eq, List.length_map]
    exact hlength
  have hrefs : maxItems 0 (.arr (d.unresolved.map UnresolvedRef.json)) = true := by
    rw [hunresolved]
    rfl
  have hget : ∀ (key : String) {value : Json} {schema : Schema}, (key, value) ∈ d.members →
      schema value = true → ∃ w, d.graph.get? key = some w ∧ schema w = true :=
    fun _ _ _ hm hmeets => ⟨_, get?_graph hm, hmeets⟩
  apply properties_of_get? (isObj_ofMembers _)
  simp only [List.forall_mem_cons, List.not_mem_nil, false_implies, implies_true, and_true]
  exact ⟨hget "discovered_node_count" (by simp [Derived.members]) hcount,
    hget "accounted_node_count" (by simp [Derived.members]) hcount,
    hget "discovered_node_ids" (by simp [Derived.members]) hids,
    hget "accounted_node_ids" (by simp [Derived.members]) hids,
    hget "unresolved_refs" (by simp [Derived.members]) hrefs⟩

theorem completeSchema_continuation {continuation : Json} (hobj : continuation.isObj = true)
    (hsuccess : EndedInSuccess continuation) :
    Schema.properties [("state", Schema.enum (["not_present", "resolved"].map .str)),
      ("termination_reason", Schema.enum (["source_terminal", "continuation_exhausted"].map .str))]
        continuation = true := by
  apply properties_of_get? hobj
  simp only [List.forall_mem_cons, List.not_mem_nil, false_implies, implies_true, and_true]
  rcases hsuccess with ⟨hstate, hreason, -⟩ | ⟨hstate, hreason, -⟩
  · exact ⟨⟨_, hstate, by decide⟩, ⟨_, hreason, by decide⟩⟩
  · exact ⟨⟨_, hstate, by decide⟩, ⟨_, hreason, by decide⟩⟩

theorem completeSchema_complete (hwhole : d.IsWhole)
    (hobj : capture.continuation.isObj = true) (hsuccess : EndedInSuccess capture.continuation) :
    completeSchema (receiptOf capture d true) = true := by
  rw [completeSchema, Schema.ifThen, Bool.or_eq_true]
  right
  apply properties_of_get? (isObj_receiptOf true)
  simp only [List.forall_mem_cons, List.not_mem_nil, false_implies, implies_true, and_true]
  exact ⟨⟨_, get?_receipt_graph true, completeSchema_graph hwhole⟩,
    ⟨_, get?_continuation true, completeSchema_continuation hobj hsuccess⟩⟩

theorem receiptSchema_receiptOf (hconf : capture.Conforms formats) (h : Accounts nodes d)
    {complete : Bool}
    (hcomplete : complete = true → d.IsWhole ∧ EndedInSuccess capture.continuation) :
    receiptSchema formats (receiptOf capture d complete) = true := by
  rw [receiptSchema, Schema.allOf_iff]
  simp only [List.forall_mem_cons, List.not_mem_nil, false_implies, implies_true, and_true]
  refine ⟨?_, ?_⟩
  · refine (Schema.closedObject_full [
      ("schema_version", .str SHARED_CHAT_CAPTURE_RECEIPT_VERSION,
        Schema.const (.str SHARED_CHAT_CAPTURE_RECEIPT_VERSION)),
      ("capture_id", .str capture.capture_id, _string 1),
      ("provider", .str capture.provider, _string 1),
      ("adapter_version", SourceSnapshotStore.optionalText capture.adapter_version, nullableText),
      ("source", capture.source, sourceSchema formats),
      ("fidelity", .str capture.fidelity, fidelitySchema),
      ("completeness", .str (if complete then "complete" else "incomplete"),
        Schema.enum (["complete", "incomplete", "unknown"].map .str)),
      ("graph", d.graph, graphSchema),
      ("continuation", capture.continuation, continuationSchema)] (by simp) (by simp)).mpr ?_
    simp only [List.forall_mem_cons, List.not_mem_nil, false_implies, implies_true, and_true]
    refine ⟨decide_eq_true rfl, textSchema_iff.mpr hconf.capture_id,
      textSchema_iff.mpr hconf.provider, nullableText_optional.mpr hconf.adapter_version,
      hconf.source, hconf.fidelity, ?_, graphSchema_graph h, hconf.continuation⟩
    cases complete <;> decide
  · cases complete with
    | false => exact completeSchema_incomplete
    | true =>
        obtain ⟨hwhole, hsuccess⟩ := hcomplete rfl
        exact completeSchema_complete hwhole (attempts_of_schema hconf.continuation).1 hsuccess

end Schema

/-! ## The checks of a receipt -/

section Checks

variable {nodes : Nodes} {d : Derived} {formats : FormatChecker} {capture : CaptureFields}
  {truncate : FloatText → ℤ}

theorem refuse_ok {condition : Prop} [Decidable condition] {message : String} :
    refuse condition message = .ok () ↔ ¬ condition := by
  by_cases h : condition <;> simp [refuse, h]

theorem ids_strings {graph : Json} {field : String} {ids : List String}
    (h : graph.get? field = some (strings ids)) : _ids graph field = .ok ids.toFinset := by
  have hstr : (ids.map Json.str).map Json.pyStr = ids := by
    rw [List.map_map]
    exact List.map_id ids
  rw [_ids, getItem_of_get? h]
  change Except.ok (((ids.map Json.str).map Json.pyStr).toFinset) = _
  rw [hstr]

/-- The sets that the checks of a receipt read. -/
def setsOf (d : Derived) : Accounting where
  discovered := d.discovered.toFinset
  accounted := d.discovered.toFinset
  messages := d.message_nodes.toFinset
  roots := d.roots.toFinset
  active := d.active.toFinset
  non_active := d.non_active.toFinset

theorem accountingOf_graph (d : Derived) : accountingOf d.graph = .ok (setsOf d) := by
  have hids : ∀ field ids, (field, strings ids) ∈ d.members →
      _ids d.graph field = .ok ids.toFinset := fun _ _ hm => ids_strings (get?_graph hm)
  rw [accountingOf, hids _ d.discovered (by simp [Derived.members]),
    hids _ d.discovered (by simp [Derived.members]),
    hids _ d.message_nodes (by simp [Derived.members]), hids _ d.roots (by simp [Derived.members]),
    hids _ d.active (by simp [Derived.members]), hids _ d.non_active (by simp [Derived.members])]
  rfl

theorem checkCount_ok {graph : Json} {field : String} {ids : List String}
    (hget : graph.get? field = some (.int ids.length)) (hnodup : ids.Nodup) :
    checkCount truncate graph (field, ids.toFinset) = .ok () := by
  rw [checkCount, getItem_of_get? hget]
  change refuse ((ids.length : ℤ) ≠ (ids.toFinset.card : ℤ)) _ = .ok ()
  rw [refuse_ok, List.toFinset_card_of_nodup hnodup]
  exact not_not.mpr rfl

theorem checkCounts_ok (h : Accounts nodes d) :
    checkCounts truncate d.graph (setsOf d) = .ok () := by
  have hget : ∀ field n, (field, .int n) ∈ d.members → d.graph.get? field = some (.int n) :=
    fun _ _ hm => get?_graph hm
  have hdiscovered := hget "discovered_node_count" d.discovered.length (by simp [Derived.members])
  have haccounted := hget "accounted_node_count" d.discovered.length (by simp [Derived.members])
  have hmessages := hget "message_node_count" d.message_nodes.length (by simp [Derived.members])
  rw [checkCounts, forM_ok_iff]
  simp only [List.forall_mem_cons, List.not_mem_nil, false_implies, implies_true, and_true]
  exact ⟨checkCount_ok hdiscovered h.nodup_discovered, checkCount_ok haccounted h.nodup_discovered,
    checkCount_ok hmessages h.nodup_messages⟩

theorem toFinset_subset {xs ys : List String} (h : ∀ x ∈ xs, x ∈ ys) :
    xs.toFinset ⊆ ys.toFinset :=
  fun _ hx => List.mem_toFinset.mpr (h _ (List.mem_toFinset.mp hx))

theorem checkSubsets_ok (h : Accounts nodes d) : checkSubsets (setsOf d) = .ok () := by
  have hnon_active : ∀ id ∈ d.non_active, id ∈ d.discovered :=
    fun id hid => ((h.non_active id).mp hid).1
  rw [checkSubsets, forM_ok_iff]
  simp only [List.forall_mem_cons, List.not_mem_nil, false_implies, implies_true, and_true,
    refuse_ok, not_not]
  exact ⟨Finset.Subset.refl _, toFinset_subset h.messages, toFinset_subset h.roots,
    toFinset_subset h.active, toFinset_subset hnon_active⟩

theorem checkPartition_ok (h : Accounts nodes d) : checkPartition (setsOf d) = .ok () := by
  have hdisjoint : d.active.toFinset ∩ d.non_active.toFinset = ∅ := by
    rw [Finset.eq_empty_iff_forall_notMem]
    intro id hid
    obtain ⟨hactive, hnon_active⟩ := Finset.mem_inter.mp hid
    exact ((h.non_active id).mp (List.mem_toFinset.mp hnon_active)).2 (List.mem_toFinset.mp hactive)
  have hunion : d.active.toFinset ∪ d.non_active.toFinset = d.discovered.toFinset := by
    ext id
    rw [Finset.mem_union, List.mem_toFinset, List.mem_toFinset, List.mem_toFinset, h.non_active]
    by_cases hactive : id ∈ d.active
    · simp [hactive, h.active id hactive]
    · simp [hactive]
  rw [checkPartition, bind_eq_ok]
  exact ⟨(), refuse_ok.mpr (not_not.mpr hdisjoint), refuse_ok.mpr (not_not.mpr hunion)⟩

theorem checkReferences_ok (h : Accounts nodes d) :
    checkReferences d.graph (setsOf d) = .ok () := by
  have hcurrent : d.graph.get? "current_node_id" =
      some (SourceSnapshotStore.optionalText d.recorded_current) :=
    get?_graph (by simp [Derived.members])
  have hrefs : d.graph.get? "unresolved_refs" =
      some (.arr (d.unresolved.map UnresolvedRef.json)) := get?_graph (by simp [Derived.members])
  rw [checkReferences, getItem_of_get? hcurrent, getItem_of_get? hrefs]
  simp only [liftPy_ok, bind, Except.bind, iterate]
  have hknown : ¬ (SourceSnapshotStore.optionalText d.recorded_current ≠ .null ∧
      (SourceSnapshotStore.optionalText d.recorded_current).pyStr ∉ (setsOf d).discovered) := by
    rintro ⟨hne, hmissing⟩
    cases hrecorded : d.recorded_current with
    | none => exact hne (by rw [hrecorded]; rfl)
    | some current =>
        rw [hrecorded] at hmissing
        exact hmissing (List.mem_toFinset.mpr (h.current current hrecorded))
  rw [refuse_ok.mpr hknown]
  refine forM_ok_iff.mpr (List.forall_mem_map.mpr fun r hr => ?_)
  have hfrom : r.json.get? "from_node_id" = some (.str r.from_node_id) :=
    get?_unresolvedRef List.mem_cons_self
  rw [getItem_of_get? hfrom]
  exact refuse_ok.mpr (not_not.mpr (List.mem_toFinset.mpr
    ((h.discovered _).mpr (h.unresolved r hr).1)))

theorem checkComplete_ok (hconf : capture.Conforms formats) (hwhole : d.IsWhole)
    (hsuccess : EndedInSuccess capture.continuation) :
    checkComplete d.graph (setsOf d) (receiptOf capture d true) = .ok () := by
  obtain ⟨hdiscovered, hmessages, hroots, hunresolved⟩ := hwhole
  obtain ⟨success, hterminal, hiff⟩ := terminal_success_eq hconf.continuation
  have hrefs : d.graph.get? "unresolved_refs" = some (.arr []) := by
    have hget := @get?_graph d "unresolved_refs" (.arr (d.unresolved.map UnresolvedRef.json))
      (by simp [Derived.members])
    rwa [hunresolved] at hget
  have hempty : ∀ {ids : List String}, ids ≠ [] → ¬ ids.toFinset = ∅ :=
    fun hne heq => hne (List.toFinset_eq_empty_iff _ |>.mp heq)
  rw [checkComplete, getItem_of_get? hrefs, getItem_of_get? (get?_continuation true)]
  refine bind_eq_ok.mpr ⟨(), refuse_ok.mpr (hempty hdiscovered), ?_⟩
  refine bind_eq_ok.mpr ⟨(), refuse_ok.mpr (hempty hmessages), ?_⟩
  refine bind_eq_ok.mpr ⟨(), refuse_ok.mpr (hempty hroots), ?_⟩
  refine bind_eq_ok.mpr ⟨(), refuse_ok.mpr (not_not.mpr rfl), ?_⟩
  refine bind_eq_ok.mpr ⟨_, liftPy_ok _, bind_eq_ok.mpr ⟨(), refuse_ok.mpr (by simp [truthy]), ?_⟩⟩
  refine bind_eq_ok.mpr ⟨_, liftPy_ok _, bind_eq_ok.mpr ⟨success, hterminal, ?_⟩⟩
  rw [refuse_ok, hiff.mpr hsuccess]
  simp

/-- A receipt of derived parts that account for the nodes passes its validation. -/
theorem validate_receiptOf (hconf : capture.Conforms formats) (h : Accounts nodes d)
    {complete : Bool}
    (hcomplete : complete = true → d.IsWhole ∧ EndedInSuccess capture.continuation) :
    validate_shared_chat_capture_receipt truncate formats (receiptOf capture d complete) =
      .ok (receiptOf capture d complete) := by
  have hschema := receiptSchema_receiptOf hconf h hcomplete
  have hchecks : checkIf (Json.str (if complete then "complete" else "incomplete") =
      .str "complete") (checkComplete d.graph (setsOf d) (receiptOf capture d complete)) =
        .ok () := by
    rw [checkIf_ok]
    intro heq
    cases complete with
    | false => simp at heq
    | true =>
        obtain ⟨hwhole, hsuccess⟩ := hcomplete rfl
        exact checkComplete_ok hconf hwhole hsuccess
  rw [validate_shared_chat_capture_receipt, asMapping, if_pos (isObj_receiptOf complete)]
  refine bind_eq_ok.mpr ⟨_, rfl, ?_⟩
  rw [if_neg (by rw [hschema]; decide), getItem_of_get? (get?_receipt_graph complete),
    getItem_of_get? (get?_completeness complete)]
  refine bind_eq_ok.mpr ⟨_, liftPy_ok _, bind_eq_ok.mpr ⟨_, accountingOf_graph d, ?_⟩⟩
  refine bind_eq_ok.mpr ⟨(), checkCounts_ok h, bind_eq_ok.mpr ⟨(), checkSubsets_ok h, ?_⟩⟩
  refine bind_eq_ok.mpr ⟨(), checkPartition_ok h, bind_eq_ok.mpr ⟨(), checkReferences_ok h, ?_⟩⟩
  exact bind_eq_ok.mpr ⟨_, liftPy_ok _, bind_eq_ok.mpr ⟨(), hchecks, rfl⟩⟩

end Checks

/-! ## When a capture is complete -/

/-- The exposed graph is a forest of the messages of the conversation, and nothing is left to be
fetched. -/
structure IsComplete (nodes : Nodes) (current_node_id : Option String) (continuation : Json) :
    Prop where
  node : ∃ id, nodes.contains id = true
  message : ∃ id node, nodes.get? id = some node ∧ node.message_present = true
  root : ∃ id node, nodes.get? id = some node ∧ node.parent_id = none
  links : LinksAgree nodes
  chains : ∀ id, nodes.contains id = true → Ends (parentIdOf nodes) id
  current : ∀ id, current_node_id = some id → nodes.contains id = true
  continuation : EndedInSuccess continuation

section Completeness

variable {nodes : Nodes} {current_node_id : Option String} {continuation : Json}

theorem ne_nil_iff {ids : List String} : ids ≠ [] ↔ ∃ id, id ∈ ids :=
  ⟨List.exists_mem_of_ne_nil ids, fun ⟨_, h⟩ => List.ne_nil_of_mem h⟩

theorem idsWhere_ne_nil {keep : Node → Bool} :
    idsWhere nodes keep ≠ [] ↔ ∃ id node, nodes.get? id = some node ∧ keep node = true := by
  rw [ne_nil_iff]
  exact exists_congr fun id => mem_idsWhere

theorem discovered_ne_nil : sorted nodes.keys ≠ [] ↔ ∃ id, nodes.contains id = true := by
  rw [ne_nil_iff]
  exact exists_congr fun id => mem_sorted_keys

theorem unresolved_eq_nil (hnode : ∃ id, nodes.contains id = true) :
    (derivedOf nodes current_node_id).unresolved = [] ↔
      LinksAgree nodes ∧ (∀ id, nodes.contains id = true → Ends (parentIdOf nodes) id) ∧
        ∀ id, current_node_id = some id → nodes.contains id = true := by
  have hkeys : nodes.keys ≠ [] := by
    obtain ⟨id, hid⟩ := hnode
    exact List.ne_nil_of_mem (mem_keys_iff.mpr hid)
  have hsorted : (derivedOf nodes current_node_id).unresolved = [] ↔
      _graph_unresolved_refs nodes ++ (_active_branch nodes current_node_id).2 = [] := by
    have hperm : (derivedOf nodes current_node_id).unresolved.Perm
        (_graph_unresolved_refs nodes ++ (_active_branch nodes current_node_id).2) :=
      sortedBy_perm refKey _
    exact ⟨fun h => (h ▸ hperm).nil_eq.symm, fun h => (h ▸ hperm).eq_nil⟩
  rw [hsorted, List.append_eq_nil_iff, graph_unresolved_refs_eq_nil, active_refs_eq_nil hkeys]
  constructor
  · rintro ⟨⟨hlinks, hchains⟩, hcurrent⟩
    rw [hlinks.parentOf_eq] at hchains
    exact ⟨hlinks, hchains, fun id hid => (hcurrent id hid).1⟩
  · rintro ⟨hlinks, hchains, hcurrent⟩
    rw [← hlinks.parentOf_eq] at hchains
    exact ⟨⟨hlinks, hchains⟩, fun id hid => ⟨hcurrent id hid, hchains id (hcurrent id hid)⟩⟩

theorem isComplete_iff : IsComplete nodes current_node_id continuation ↔
    (derivedOf nodes current_node_id).IsWhole ∧ EndedInSuccess continuation := by
  have hroots : idsWhere nodes (fun node => node.parent_id.isNone) ≠ [] ↔
      ∃ id node, nodes.get? id = some node ∧ node.parent_id = none := by
    rw [idsWhere_ne_nil]
    simp only [Option.isNone_iff_eq_none]
  constructor
  · intro h
    exact ⟨⟨discovered_ne_nil.mpr h.node, idsWhere_ne_nil.mpr h.message, hroots.mpr h.root,
      (unresolved_eq_nil h.node).mpr ⟨h.links, h.chains, h.current⟩⟩, h.continuation⟩
  · rintro ⟨⟨hdiscovered, hmessages, hroot, hunresolved⟩, hsuccess⟩
    have hnode := discovered_ne_nil.mp hdiscovered
    obtain ⟨hlinks, hchains, hcurrent⟩ := (unresolved_eq_nil hnode).mp hunresolved
    exact ⟨hnode, idsWhere_ne_nil.mp hmessages, hroots.mp hroot, hlinks, hchains, hcurrent,
      hsuccess⟩

theorem completenessOf_eq {d : Derived} (h : continuationSchema continuation = true) :
    ∃ complete, completenessOf d continuation = .ok complete ∧
      (complete = true ↔ d.IsWhole ∧ EndedInSuccess continuation) := by
  rw [completenessOf]
  by_cases hwhole : d.IsWhole
  · obtain ⟨success, hterminal, hiff⟩ := terminal_success_eq h
    rw [if_pos hwhole]
    exact ⟨success, hterminal, by rw [hiff, and_iff_right hwhole]⟩
  · rw [if_neg hwhole]
    exact ⟨false, rfl, by simp [hwhole]⟩

/-- The active branch of a complete capture. -/
theorem isBranch_active (h : IsComplete nodes current_node_id continuation) :
    ∀ id, current_node_id = some id → IsBranch nodes id (derivedOf nodes current_node_id).active := by
  rintro id rfl
  have hcontains := h.current id rfl
  have hends := h.chains id hcontains
  rw [← h.links.parentOf_eq] at hends
  exact isBranch_of_linksAgree h.links hcontains hends

end Completeness

/-- A receipt's lists of the active branch and of the other nodes. -/
structure Splits (receipt : Json) (active non_active : List String) : Prop where
  active : (receipt.get? "graph").bind (Json.get? "active_branch_node_ids") = some (strings active)
  non_active : (receipt.get? "graph").bind (Json.get? "non_active_exposed_node_ids") =
    some (strings non_active)

theorem splits_receiptOf (capture : CaptureFields) (d : Derived) (complete : Bool) :
    Splits (receiptOf capture d complete) d.active d.non_active := by
  constructor
  · rw [get?_receipt_graph, Option.bind_some]
    exact get?_graph (by simp [Derived.members])
  · rw [get?_receipt_graph, Option.bind_some]
    exact get?_graph (by simp [Derived.members])

/-- The receipt that is built, and when it states the capture to be complete. -/
theorem build_eq_receiptOf (truncate : FloatText → ℤ) {formats : FormatChecker}
    {capture : CaptureFields} {nodes : Nodes} {current_node_id : Option String}
    (hids : NonemptyIds nodes current_node_id) (hconf : capture.Conforms formats) :
    ∃ complete,
      build_shared_chat_capture_receipt truncate formats capture nodes current_node_id =
        .ok (receiptOf capture (derivedOf nodes current_node_id) complete) ∧
      validate_shared_chat_capture_receipt truncate formats
          (receiptOf capture (derivedOf nodes current_node_id) complete) =
        .ok (receiptOf capture (derivedOf nodes current_node_id) complete) ∧
      (complete = true ↔ IsComplete nodes current_node_id capture.continuation) := by
  obtain ⟨complete, hcompleteness, hiff⟩ :=
    @completenessOf_eq capture.continuation (derivedOf nodes current_node_id) hconf.continuation
  have hvalidate :=
    @validate_receiptOf _ _ _ _ truncate hconf (accounts_derivedOf hids) complete hiff.mp
  have hsource : capture.source.isObj = true := by
    obtain ⟨fields, hfields⟩ :=
      Schema.isObj_of_type (Schema.allOf_iff.mp hconf.source _ List.mem_cons_self)
    rw [hfields]
    rfl
  refine ⟨complete, ?_, hvalidate, by rw [isComplete_iff, ← hiff]⟩
  rw [build_shared_chat_capture_receipt, asMapping,
    if_pos (attempts_of_schema hconf.continuation).1, asMapping, if_pos hsource]
  exact bind_eq_ok.mpr ⟨_, rfl, bind_eq_ok.mpr ⟨complete, hcompleteness,
    bind_eq_ok.mpr ⟨_, rfl, hvalidate⟩⟩⟩

def twoNodes : Nodes where
  entries := [("a", ⟨none, ["b"], false⟩), ("b", ⟨some "a", [], true⟩)]
  nodup := by decide

def sourceTerminal : Json :=
  .ofMembers [("state", .str "not_present"), ("mechanism", .null), ("attempts", .arr []),
    ("termination_reason", .str "source_terminal")]

def fixtureCapture : CaptureFields where
  capture_id := "capture_fixture"
  provider := "fixture"
  adapter_version := none
  source := .ofMembers [("external_ref", .str "fixture://shared-chat"),
    ("sha256", .str "cccccccccccccccccccccccccccccccccccccccccccccccccccccccccccccccc"),
    ("byte_count", .int 999), ("captured_at", .str "2026-09-14T14:00:00Z")]
  fidelity := "verbatim"
  continuation := sourceTerminal

def anyText : FormatChecker := ⟨fun _ => true, fun _ => true⟩

theorem conforms_fixtureCapture : fixtureCapture.Conforms anyText :=
  ⟨by decide, by decide, by decide, by decide, by decide, by decide⟩

/-- The ids of some nodes, read entry by entry. -/
theorem nonemptyIds_of_entries {nodes : Nodes} {current_node_id : Option String}
    (h : ∀ entry ∈ nodes.entries, entry.1 ≠ "" ∧ entry.2.parent_id ≠ some "" ∧
      "" ∉ entry.2.child_ids) (hcurrent : current_node_id ≠ some "") :
    NonemptyIds nodes current_node_id where
  ids id hid := by
    obtain ⟨node, hnode⟩ := Dict.contains_iff.mp hid
    exact (h _ (Dict.mem_entries_iff.mpr hnode)).1
  parents id p hp := by
    rw [parentIdOf, Option.bind_eq_some_iff] at hp
    obtain ⟨node, hnode, hp⟩ := hp
    rintro rfl
    exact (h _ (Dict.mem_entries_iff.mpr hnode)).2.1 hp
  children id node hnode c hc := by
    rintro rfl
    exact (h _ (Dict.mem_entries_iff.mpr hnode)).2.2 hc
  current := hcurrent

theorem nonemptyIds_twoNodes : NonemptyIds twoNodes (some "b") :=
  nonemptyIds_of_entries (by decide) (by decide)

end SharedChatCapture

end FossilCore
