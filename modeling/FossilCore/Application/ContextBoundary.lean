import Mathlib.Data.Finset.Lattice.Basic
import FossilCore.Application.ContextLineage
import FossilCore.Application.ExecutableFields

/-!
# The composed boundary

The untrusted-context wrapper around the lineage wrapper around a model: what the model sees of
a retrieved context, and what is left of its response.
-/

namespace FossilCore

open Base Json

namespace LineageResolvedModelService

variable {self : LineageResolvedModelService}

theorem metadata_wf {metadata : Json} (h : self.metadata = .ok metadata) : metadata.WF := by
  obtain ⟨inner, hinner, h⟩ := bind_eq_ok.mp h
  obtain ⟨runtime, hruntime, h⟩ := bind_eq_ok.mp h
  obtain ⟨hinner, -⟩ := bind_asMapping_ok.mp hinner
  obtain ⟨rfl, -⟩ := asMapping_ok.mp hruntime
  have hwf := self.service.metadata_wf inner hinner
  rw [← Except.ok.inj h]
  exact hwf.set (((UntrustedContextModelService.wf_runtimeOf hwf).set (wf_str _)).set (wf_str _))

/-- What a run of the wrapper computes on its way to a response. -/
structure Answered (wrapper : LineageResolvedModelService) (task response : Json) where
  request : Json
  diagnostics : Json
  raw : Json
  metadata : Json
  resolve_ok : wrapper.resolve task = .ok (request, diagnostics)
  raw_ok : wrapper.service.run request = .ok raw
  raw_mapping : raw.isObj = true
  metadata_ok : wrapper.metadata = .ok metadata
  response_eq : response = (raw.set "service" metadata).set "lineage_resolution" diagnostics

theorem run_ok {task response : Json} :
    self.run task = .ok response ↔ Nonempty (self.Answered task response) := by
  unfold LineageResolvedModelService.run
  constructor
  · intro h
    obtain ⟨⟨request, diagnostics⟩, hresolve, h⟩ := bind_eq_ok.mp h
    obtain ⟨raw, hraw, h⟩ := bind_eq_ok.mp h
    obtain ⟨metadata, hmetadata, h⟩ := bind_eq_ok.mp h
    obtain ⟨hraw, hobj⟩ := bind_asMapping_ok.mp hraw
    exact ⟨⟨request, diagnostics, raw, metadata, hresolve, hraw, hobj, hmetadata,
      (Except.ok.inj h).symm⟩⟩
  · rintro ⟨h⟩
    have hraw := bind_asMapping_ok.mpr ⟨h.raw_ok, h.raw_mapping⟩
    exact bind_eq_ok.mpr ⟨_, h.resolve_ok, bind_eq_ok.mpr ⟨_, hraw,
      bind_eq_ok.mpr ⟨_, h.metadata_ok, congrArg Except.ok h.response_eq.symm⟩⟩⟩

theorem diagnostics_wf {context_items documents : List Json} {pack_ids : List String} {max : ℤ}
    {expanded : List Json} {diagnostics : Json}
    (h : expand_context_with_lineage_diagnostics context_items documents pack_ids max =
      .ok (expanded, diagnostics)) : diagnostics.WF := by
  unfold expand_context_with_lineage_diagnostics at h
  split_ifs at h
  obtain ⟨document_by_id, -, h⟩ := bind_eq_ok.mp h
  obtain ⟨selected, -, h⟩ := bind_eq_ok.mp h
  obtain ⟨expansions, -, h⟩ := bind_eq_ok.mp h
  cases h
  apply wf_ofMembers
  simp [wf_str, wf_int, wf_strings]

theorem run_wf {task response : Json} (h : self.run task = .ok response) : response.WF := by
  obtain ⟨h⟩ := run_ok.mp h
  have hdiagnostics : h.diagnostics.WF := by
    obtain ⟨context_items, -, hresolve⟩ := bind_eq_ok.mp h.resolve_ok
    obtain ⟨pack_ids, -, hresolve⟩ := bind_eq_ok.mp hresolve
    obtain ⟨items, -, hresolve⟩ := bind_eq_ok.mp hresolve
    obtain ⟨⟨expanded, diagnostics⟩, hexpand, hresolve⟩ := bind_eq_ok.mp hresolve
    rw [← (Prod.mk.inj (Except.ok.inj hresolve)).2]
    exact diagnostics_wf hexpand
  rw [h.response_eq]
  exact ((self.service.run_wf _ _ h.raw_ok).set (metadata_wf h.metadata_ok)).set hdiagnostics

/-- The wrapper, as a service that another wrapper can wrap. -/
def toService (self : LineageResolvedModelService) : ModelService where
  metadata := self.metadata
  run := self.run
  metadata_wf := fun _ h => metadata_wf h
  run_wf := fun _ _ h => run_wf h

end LineageResolvedModelService

/-! ## The secured items -/

namespace SecuredItem

/-- The durable document behind an item. -/
def durableId : SecuredItem → Option String
  | .resolved document _ => some (textOf document "id")
  | .untrusted _ _ _ _ => none

/-- A durable document of an allowed pack, or an item that claims an allowed pack. -/
def Allowed (documents : List Json) (allowed : List String) : SecuredItem → Prop
  | .resolved document _ =>
      document ∈ documents ∧ textOf document "pack_id" ∈ allowed ∧ textOf document "id" ≠ ""
  | .untrusted _ pack_id _ _ => pack_id ∈ allowed

/-- The item without its mismatch marker. -/
def unmarked : SecuredItem → SecuredItem
  | .resolved document _ => .resolved document false
  | item => item

theorem isObj_json {documents : List Json} (hdocuments : ∀ d ∈ documents, d.isObj = true)
    {allowed : List String} {item : SecuredItem} (h : item.Allowed documents allowed) :
    item.json.isObj = true := by
  cases item with
  | resolved document mismatch => exact isObj_set (hdocuments document h.1) _ _
  | untrusted identifier pack_id text claimed => rfl

theorem get?_json_unmarked (item : SecuredItem) {key : String} (hkey : key ≠ "context_security") :
    item.unmarked.json.get? key = item.json.get? key := by
  cases item with
  | resolved document mismatch =>
      show (document.set _ _).get? key = (document.set _ _).get? key
      rw [get?_set_ne _ _ hkey, get?_set_ne _ _ hkey]
  | untrusted identifier pack_id text claimed => rfl

end SecuredItem

theorem of_durableById {documents : List Json} {identifier : String} {document : Json}
    (h : (durableById documents).get? identifier = some document) :
    document ∈ documents ∧ textOf document "id" = identifier := by
  obtain ⟨source, hsource, heq⟩ := List.mem_map.mp (Dict.mem_of_get?_ofPairs h)
  obtain ⟨rfl, rfl⟩ := Prod.mk.inj heq
  exact ⟨(List.mem_filter.mp hsource).1, rfl⟩

namespace ContextState

variable {durable_by_id : Dict String Json} {allowed : List String}

/-- What one item adds: nothing, a durable document that was not there, or an untrusted item. -/
theorem secureItem_cases (state : ContextState) (raw : Json) :
    ((state.secureItem durable_by_id allowed raw).secured = state.secured ∧
      (state.secureItem durable_by_id allowed raw).seen_durable_ids = state.seen_durable_ids) ∨
    (∃ document mismatch, durable_by_id.get? (textOf raw "id") = some document ∧
      textOf raw "id" ≠ "" ∧ textOf document "pack_id" ∈ allowed ∧
      textOf raw "id" ∉ state.seen_durable_ids ∧
      (state.secureItem durable_by_id allowed raw).secured =
        state.secured ++ [.resolved document mismatch] ∧
      (state.secureItem durable_by_id allowed raw).seen_durable_ids =
        insert (textOf raw "id") state.seen_durable_ids) ∨
    (∃ identifier pack_id text claimed, pack_id ∈ allowed ∧
      (state.secureItem durable_by_id allowed raw).secured =
        state.secured ++ [.untrusted identifier pack_id text claimed] ∧
      (state.secureItem durable_by_id allowed raw).seen_durable_ids = state.seen_durable_ids) := by
  have hdemote : ((state.demote allowed raw).secured = state.secured ∧
      (state.demote allowed raw).seen_durable_ids = state.seen_durable_ids) ∨
      (∃ identifier pack_id text claimed, pack_id ∈ allowed ∧
        (state.demote allowed raw).secured =
          state.secured ++ [.untrusted identifier pack_id text claimed] ∧
        (state.demote allowed raw).seen_durable_ids = state.seen_durable_ids) := by
    unfold demote demoteAs
    generalize _untrusted_fingerprint (textOf raw "pack_id") (textOf raw "text") = fingerprint
    dsimp only
    by_cases hpack : textOf raw "pack_id" ∈ allowed
    · rw [if_neg (not_not.mpr hpack)]
      by_cases hseen : fingerprint ∈ state.seen_untrusted_fingerprints
      · rw [if_pos hseen]
        exact .inl ⟨rfl, rfl⟩
      · rw [if_neg hseen]
        exact .inr ⟨_, _, _, _, hpack, rfl, rfl⟩
    · rw [if_pos hpack]
      exact .inl ⟨rfl, rfl⟩
  unfold secureItem
  dsimp only
  by_cases hid : textOf raw "id" = ""
  · rw [if_pos hid]
    exact hdemote.imp_right .inr
  · rw [if_neg hid]
    cases hget : durable_by_id.get? (textOf raw "id") with
    | none => exact hdemote.imp_right .inr
    | some document =>
        dsimp only
        unfold resolve
        split_ifs with hpack hseen
        · exact .inl ⟨rfl, rfl⟩
        · exact .inr (.inl ⟨document, _, rfl, hid, hpack, hseen, rfl, rfl⟩)
        · exact .inl ⟨rfl, rfl⟩

/-- The secured items are allowed, and no durable document is among them twice. -/
structure Secure (documents : List Json) (allowed : List String) (state : ContextState) : Prop where
  allowed : ∀ item ∈ state.secured, item.Allowed documents allowed
  nodup : (state.secured.filterMap SecuredItem.durableId).Nodup
  seen : ∀ id ∈ state.secured.filterMap SecuredItem.durableId, id ∈ state.seen_durable_ids

variable {documents : List Json}

theorem secure_initial : (initial).Secure documents allowed :=
  ⟨by simp [initial], by simp [initial], by simp [initial]⟩

theorem Secure.step {state : ContextState} (h : state.Secure documents allowed) (raw : Json) :
    (state.secureItem (durableById documents) allowed raw).Secure documents allowed := by
  rcases state.secureItem_cases raw with ⟨hsecured, hseen⟩ |
    ⟨document, mismatch, hget, hid, hpack, hnew, hsecured, hseen⟩ |
    ⟨identifier, pack_id, text, claimed, hpack, hsecured, hseen⟩
  · refine ⟨?_, ?_, ?_⟩
    · rw [hsecured]
      exact h.allowed
    · rw [hsecured]
      exact h.nodup
    · rw [hsecured, hseen]
      exact h.seen
  · obtain ⟨hmem, hdocument⟩ := of_durableById hget
    have hids : (state.secured ++ [SecuredItem.resolved document mismatch]).filterMap
        SecuredItem.durableId = state.secured.filterMap SecuredItem.durableId ++ [textOf raw "id"] := by
      rw [List.filterMap_append, ← hdocument]
      rfl
    refine ⟨?_, ?_, ?_⟩
    · rw [hsecured, List.forall_mem_append, List.forall_mem_singleton]
      exact ⟨h.allowed, hmem, hpack, hdocument ▸ hid⟩
    · rw [hsecured, hids]
      exact h.nodup.append (List.nodup_singleton _)
        (List.disjoint_singleton.mpr fun hin => hnew (h.seen _ hin))
    · rw [hsecured, hseen, hids, List.forall_mem_append, List.forall_mem_singleton]
      exact ⟨fun id hin => Finset.mem_insert_of_mem (h.seen id hin), Finset.mem_insert_self _ _⟩
  · have hids : (state.secured ++ [SecuredItem.untrusted identifier pack_id text claimed]).filterMap
        SecuredItem.durableId = state.secured.filterMap SecuredItem.durableId := by
      rw [List.filterMap_append]
      exact List.append_nil _
    refine ⟨?_, ?_, ?_⟩
    · rw [hsecured, List.forall_mem_append, List.forall_mem_singleton]
      exact ⟨h.allowed, hpack⟩
    · rw [hsecured, hids]
      exact h.nodup
    · rw [hsecured, hseen, hids]
      exact h.seen

theorem Secure.foldl {state : ContextState} (h : state.Secure documents allowed)
    (raws : List Json) :
    (raws.foldl (secureItem (durableById documents) allowed) state).Secure documents allowed := by
  induction raws generalizing state with
  | nil => exact h
  | cons raw raws ih => exact ih (h.step raw)

end ContextState

/-! ## The expansions -/

namespace Expansion

variable {document_by_id : Dict String Json} {max_expansions : ℤ} {selected : Finset String}

/-- The chosen ids are different, and none of them was selected before. -/
structure Fresh (selected : Finset String) (state : Expansion) : Prop where
  nodup : state.expansion_ids.Nodup
  fresh : ∀ id ∈ state.expansion_ids, id ∉ selected
  selected_eq : state.selected_ids = selected ∪ state.expansion_ids.toFinset

theorem fresh_nil : Fresh selected ⟨[], selected⟩ :=
  ⟨List.nodup_nil, by simp, by simp⟩

theorem Fresh.choose {state : Expansion} (h : state.Fresh selected)
    {identifier : String} (hnew : identifier ∉ state.selected_ids) :
    (state.choose identifier).Fresh selected := by
  rw [h.selected_eq, Finset.mem_union, List.mem_toFinset, not_or] at hnew
  refine ⟨?_, ?_, ?_⟩
  · exact h.nodup.append (List.nodup_singleton _) (List.disjoint_singleton.mpr hnew.2)
  · show ∀ id ∈ state.expansion_ids ++ [identifier], id ∉ selected
    rw [List.forall_mem_append, List.forall_mem_singleton]
    exact ⟨h.fresh, hnew.1⟩
  · show insert identifier state.selected_ids = selected ∪ (state.expansion_ids ++ [identifier]).toFinset
    rw [h.selected_eq]
    ext id
    simp [or_left_comm, or_comm]

theorem Fresh.expandKeys {state : Expansion} (h : state.Fresh selected)
    (item : Json) (keys : List String) :
    (expandKeys document_by_id max_expansions item keys state).Fresh selected := by
  induction keys generalizing state with
  | nil => exact h
  | cons key keys ih =>
      unfold Expansion.expandKeys
      dsimp only
      by_cases hnew : state.isNew document_by_id (textOf item key) = true
      · have hchosen := h.choose (of_decide_eq_true hnew).2.1
        rw [if_pos hnew]
        split_ifs
        · exact hchosen
        · exact ih hchosen
      · rw [if_neg hnew]
        exact ih h

theorem Fresh.expandItems {state : Expansion} (h : state.Fresh selected)
    (items : List Json) :
    (expandItems document_by_id max_expansions items state).Fresh selected := by
  induction items generalizing state with
  | nil => exact h
  | cons item items ih =>
      unfold Expansion.expandItems
      dsimp only
      split_ifs
      · exact ih h
      · exact h.expandKeys item _
      · exact ih (h.expandKeys item _)

/-- Two items on which the expansion reads the same. -/
def Alike (item item' : Json) : Prop :=
  ∀ key, key ≠ "context_security" → item.get? key = item'.get? key

theorem Alike.textOf_eq {item item' : Json} (h : Alike item item') {key : String}
    (hkey : key ≠ "context_security") : textOf item key = textOf item' key := by
  rw [textOf, textOf, h key hkey]

theorem expandKeys_congr {item item' : Json} (h : Alike item item') {keys : List String}
    (hkeys : "context_security" ∉ keys) (state : Expansion) :
    expandKeys document_by_id max_expansions item keys state =
      expandKeys document_by_id max_expansions item' keys state := by
  induction keys generalizing state with
  | nil => rfl
  | cons key keys ih =>
      rw [List.mem_cons, not_or] at hkeys
      unfold Expansion.expandKeys
      dsimp only
      rw [h.textOf_eq (Ne.symm hkeys.1), ih hkeys.2, ih hkeys.2]

theorem expandItems_congr {items items' : List Json} (h : List.Forall₂ Alike items items')
    (state : Expansion) :
    expandItems document_by_id max_expansions items state =
      expandItems document_by_id max_expansions items' state := by
  induction h generalizing state with
  | nil => rfl
  | cons hitem _ ih =>
      unfold Expansion.expandItems
      dsimp only
      rw [hitem.textOf_eq (by decide), expandKeys_congr hitem (by decide), ih, ih]

theorem itemIds_congr {items items' : List Json} (h : List.Forall₂ Alike items items') :
    itemIds items = itemIds items' := by
  induction h with
  | nil => rfl
  | @cons item item' items items' hitem _ ih =>
      have hmember : member item "id" = member item' "id" := by
        rw [member, member, hitem "id" (by decide)]
      have htext : textOf item "id" = textOf item' "id" := hitem.textOf_eq (by decide)
      unfold itemIds at ih ⊢
      rw [List.filter_cons, List.filter_cons, hmember]
      split_ifs
      · rw [List.map_cons, List.map_cons, htext, ih]
      · exact ih

end Expansion

theorem of_allowedById {documents : List Json} {allowed : List String}
    {document_by_id : Dict String Json} (h : allowedById documents allowed = .ok document_by_id)
    {identifier : String} {document : Json}
    (hget : document_by_id.get? identifier = some document) :
    document ∈ documents ∧ textOf document "pack_id" ∈ allowed ∧
      textOf document "id" = identifier := by
  obtain ⟨pairs, hpairs, h⟩ := bind_eq_ok.mp h
  rw [← Except.ok.inj h] at hget
  obtain ⟨source, hsource, hpair⟩ :=
    exists_of_mem_mapM hpairs _ (Dict.mem_of_get?_ofPairs hget)
  obtain ⟨id, hid, hpair⟩ := bind_eq_ok.mp hpair
  cases hpair
  obtain ⟨hin, hallowed⟩ := List.mem_filter.mp hsource
  refine ⟨hin, of_decide_eq_true hallowed, ?_⟩
  rw [textOf, getItem_ok_iff.mp (liftPy_eq_ok.mp hid)]
  rfl

theorem expandDocuments_ok {documents : List Json} {allowed : List String}
    {document_by_id : Dict String Json} (hby : allowedById documents allowed = .ok document_by_id)
    {identifiers : List String} {expansions : List Json}
    (h : identifiers.mapM (expandDocument document_by_id) = .ok expansions) :
    ∃ sources : List Json, expansions = sources.map expandedItem ∧
      sources.map (fun document => textOf document "id") = identifiers ∧
      ∀ document ∈ sources, document ∈ documents ∧ textOf document "pack_id" ∈ allowed := by
  have hforall := mapM_eq_ok.mp h
  clear h
  induction hforall with
  | nil => exact ⟨[], rfl, rfl, by simp⟩
  | @cons identifier expansion identifiers expansions hitem _ ih =>
      obtain ⟨sources, rfl, rfl, hsources⟩ := ih
      unfold expandDocument at hitem
      cases hget : document_by_id.get? identifier with
      | none =>
          rw [hget] at hitem
          cases hitem
      | some document =>
          rw [hget] at hitem
          cases hitem
          obtain ⟨hmem, hpack, hid⟩ := of_allowedById hby hget
          exact ⟨document :: sources, rfl, by rw [List.map_cons, hid],
            List.forall_mem_cons.mpr ⟨⟨hmem, hpack⟩, hsources⟩⟩

theorem mapM_asMapping_ok {items raws : List Json} :
    items.mapM asMapping = .ok raws ↔ raws = items ∧ ∀ item ∈ items, item.isObj = true := by
  rw [mapM_ok_iff (Q := fun item => item.isObj = true) (g := id), List.map_id, and_comm]
  intro item _ value
  rw [asMapping_ok]
  constructor
  · rintro ⟨rfl, hobj⟩
    exact ⟨hobj, rfl⟩
  · rintro ⟨hobj, rfl⟩
    exact ⟨rfl, hobj⟩

theorem expand_ok {context_items documents : List Json} {pack_ids : List String} {max : ℤ}
    {expanded : List Json} :
    (∃ diagnostics, expand_context_with_lineage_diagnostics context_items documents pack_ids max =
        .ok (expanded, diagnostics)) ↔
      0 ≤ max ∧ (∀ item ∈ context_items, item.isObj = true) ∧
        ∃ document_by_id expansions, allowedById documents pack_ids = .ok document_by_id ∧
          (Expansion.expandItems document_by_id max context_items
            ⟨[], (itemIds context_items).toFinset⟩).expansion_ids.mapM
              (expandDocument document_by_id) = .ok expansions ∧
          expanded = context_items ++ expansions := by
  unfold expand_context_with_lineage_diagnostics
  constructor
  · rintro ⟨diagnostics, h⟩
    split_ifs at h with hmax
    obtain ⟨document_by_id, hby, h⟩ := bind_eq_ok.mp h
    obtain ⟨selected, hselected, h⟩ := bind_eq_ok.mp h
    obtain ⟨expansions, hexpansions, hreturn⟩ := bind_eq_ok.mp h
    obtain ⟨rfl, hobj⟩ := mapM_asMapping_ok.mp hselected
    cases hreturn
    exact ⟨not_lt.mp hmax, hobj, document_by_id, expansions, hby, hexpansions, rfl⟩
  · rintro ⟨hmax, hobj, document_by_id, expansions, hby, hexpansions, rfl⟩
    rw [if_neg (not_lt.mpr hmax)]
    exact ⟨_, bind_eq_ok.mpr ⟨_, hby, bind_eq_ok.mpr ⟨_, mapM_asMapping_ok.mpr ⟨rfl, hobj⟩,
      bind_eq_ok.mpr ⟨_, hexpansions, rfl⟩⟩⟩⟩

/-- The context with its expansions: documents of the allowed packs that were not in it. -/
theorem expanded_sources {context_items documents : List Json} {pack_ids : List String} {max : ℤ}
    {expanded : List Json} {diagnostics : Json}
    (h : expand_context_with_lineage_diagnostics context_items documents pack_ids max =
      .ok (expanded, diagnostics)) :
    ∃ sources : List Json, expanded = context_items ++ sources.map expandedItem ∧
      (∀ document ∈ sources, document ∈ documents ∧ textOf document "pack_id" ∈ pack_ids) ∧
      (sources.map fun document => textOf document "id").Nodup ∧
      ∀ document ∈ sources, textOf document "id" ∉ itemIds context_items := by
  obtain ⟨-, -, document_by_id, expansions, hby, hexpansions, rfl⟩ := expand_ok.mp ⟨_, h⟩
  obtain ⟨sources, rfl, hids, hsources⟩ := expandDocuments_ok hby hexpansions
  have hfresh : Expansion.Fresh (itemIds context_items).toFinset
      (Expansion.expandItems document_by_id max context_items
        ⟨[], (itemIds context_items).toFinset⟩) :=
    Expansion.fresh_nil.expandItems context_items
  refine ⟨sources, rfl, hsources, ?_, ?_⟩
  · rw [hids]
    exact hfresh.nodup
  · intro document hdocument hin
    have hid : textOf document "id" ∈ sources.map fun document => textOf document "id" :=
      List.mem_map_of_mem hdocument
    rw [hids] at hid
    exact hfresh.fresh _ hid (List.mem_toFinset.mpr hin)

theorem expand_congr {context_items context_items' documents : List Json} {pack_ids : List String}
    {max : ℤ} {sources : List Json} {diagnostics : Json}
    (halike : List.Forall₂ Expansion.Alike context_items context_items')
    (hobj : ∀ item ∈ context_items', item.isObj = true)
    (h : expand_context_with_lineage_diagnostics context_items documents pack_ids max =
      .ok (context_items ++ sources, diagnostics)) :
    ∃ diagnostics', expand_context_with_lineage_diagnostics context_items' documents pack_ids max =
      .ok (context_items' ++ sources, diagnostics') := by
  obtain ⟨hmax, -, document_by_id, expansions, hby, hexpansions, heq⟩ := expand_ok.mp ⟨_, h⟩
  rw [← List.append_cancel_left heq, Expansion.expandItems_congr halike,
    Expansion.itemIds_congr halike] at hexpansions
  exact expand_ok.mpr ⟨hmax, hobj, document_by_id, sources, hby, hexpansions, rfl⟩

/-! ## The model's request -/

namespace UntrustedContextModelService

theorem isObj_of_requestPacks {task : Json} {pack_ids : List String}
    (h : requestPacks task = .ok pack_ids) : task.isObj = true := by
  obtain ⟨value, hvalue, -⟩ := bind_eq_ok.mp h
  cases task with
  | obj fields => rfl
  | _ => cases hvalue

theorem requestPacks_congr {task task' : Json} (h : task.isObj = true) (h' : task'.isObj = true)
    (hget : task.get? "pack_ids" = task'.get? "pack_ids") :
    requestPacks task = requestPacks task' := by
  rw [requestPacks, requestPacks, getMethod_of_isObj h, getMethod_of_isObj h', hget]

/-- The request with the secured items in it. -/
def securedRequest (task : Json) (secured : List SecuredItem) : Json :=
  ((task.set "context_items" (.arr (secured.map SecuredItem.json))).set
    "context_security" (.ofMembers [
      ("resolver", .str CONTEXT_SECURITY_RESOLVER),
      ("retrieved_source_text", .str UNTRUSTED_SOURCE_DATA),
      ("retrieved_text_can_issue_policy", .bool false),
      ("model_can_execute_tools", .bool false),
      ("durable_claim_resolution_required", .bool true)])).eraseAll _EXECUTABLE_FIELDS

variable {self : UntrustedContextModelService}

/-- The state after the loop over the retrieved items. -/
def contextState (self : UntrustedContextModelService) (pack_ids : List String)
    (items : List Json) : ContextState :=
  items.foldl (ContextState.secureItem (durableById self.documents.items) pack_ids) .initial

theorem secure_ok {task : Json} {secured : Secured} :
    self.secure task = .ok secured ↔
      ∃ pack_ids items, requestPacks task = .ok pack_ids ∧
        iterate ((task.get? "context_items").getD (.arr [])) = .ok items ∧
        (∀ item ∈ items, item.isObj = true) ∧
        secured = ⟨(self.contextState pack_ids items).secured,
          contextDiagnostics pack_ids items.length (self.contextState pack_ids items),
          securedRequest task (self.contextState pack_ids items).secured⟩ := by
  unfold secure canonicalize_untrusted_context
  constructor
  · intro h
    obtain ⟨pack_ids, hpacks, h⟩ := bind_eq_ok.mp h
    obtain ⟨items, hitems, h⟩ := bind_eq_ok.mp h
    obtain ⟨⟨secured_items, diagnostics⟩, hcanonical, h⟩ := bind_eq_ok.mp h
    obtain ⟨raws, hraws, hstate⟩ := bind_eq_ok.mp hcanonical
    obtain ⟨rfl, hobj⟩ := mapM_asMapping_ok.mp hraws
    cases hstate
    exact ⟨pack_ids, raws, hpacks, hitems, hobj, (Except.ok.inj h).symm⟩
  · rintro ⟨pack_ids, items, hpacks, hitems, hobj, rfl⟩
    exact bind_eq_ok.mpr ⟨_, hpacks, bind_eq_ok.mpr ⟨_, hitems, bind_eq_ok.mpr
      ⟨_, bind_eq_ok.mpr ⟨_, mapM_asMapping_ok.mpr ⟨rfl, hobj⟩, rfl⟩, rfl⟩⟩⟩

theorem securedRequest_get? {task : Json} (h : task.isObj = true) (secured : List SecuredItem) :
    (securedRequest task secured).isObj = true ∧
      (securedRequest task secured).get? "context_items" =
        some (.arr (secured.map SecuredItem.json)) ∧
      (securedRequest task secured).get? "pack_ids" = task.get? "pack_ids" := by
  have hitems : "context_items" ∉ _EXECUTABLE_FIELDS := by decide
  have hpacks : "pack_ids" ∉ _EXECUTABLE_FIELDS := by decide
  refine ⟨isObj_eraseAll (isObj_set (isObj_set h _ _) _ _) _, ?_, ?_⟩
  · rw [securedRequest, get?_eraseAll, if_neg hitems, get?_set_ne _ _ (by decide), get?_set h,
      if_pos rfl]
  · rw [securedRequest, get?_eraseAll, if_neg hpacks, get?_set_ne _ _ (by decide),
      get?_set_ne _ _ (by decide)]

end UntrustedContextModelService

/-- An item of the context that the model is run on. -/
inductive SeenItem where
  | secured (item : SecuredItem)
  | expanded (document : Json)

namespace SeenItem

def json : SeenItem → Json
  | .secured item => item.json
  | .expanded document => expandedItem document

/-- The durable document behind an item. -/
def durableId : SeenItem → Option String
  | .secured item => item.durableId
  | .expanded document => some (textOf document "id")

/-- A durable document of an allowed pack, or an item that claims an allowed pack. -/
def Allowed (documents : List Json) (allowed : List String) : SeenItem → Prop
  | .secured item => item.Allowed documents allowed
  | .expanded document => document ∈ documents ∧ textOf document "pack_id" ∈ allowed

/-- The item without its mismatch marker. -/
def unmarked : SeenItem → SeenItem
  | .secured item => .secured item.unmarked
  | .expanded document => .expanded document

end SeenItem

/-- The ids of the documents are texts. -/
def Documents.Identified (documents : Documents) : Prop :=
  ∀ document ∈ documents.items, ∃ id, document.get? "id" = some (.str id)

theorem mem_itemIds {documents : Documents} (hdocuments : documents.Identified)
    {allowed : List String} {secured : List SecuredItem}
    (hallowed : ∀ item ∈ secured, item.Allowed documents.items allowed) {id : String}
    (h : id ∈ secured.filterMap SecuredItem.durableId) :
    id ∈ itemIds (secured.map SecuredItem.json) := by
  obtain ⟨item, hitem, hid⟩ := List.mem_filterMap.mp h
  cases item with
  | untrusted identifier pack_id text claimed => cases hid
  | resolved document mismatch =>
      cases hid
      obtain ⟨hmem, -, hne⟩ := hallowed _ hitem
      obtain ⟨text, htext⟩ := hdocuments document hmem
      have hget : (SecuredItem.resolved document mismatch).json.get? "id" = some (.str text) := by
        show (document.set "context_security" _).get? "id" = _
        rw [get?_set_ne _ _ (by decide), htext]
      have hdocument : textOf document "id" = text := by
        rw [textOf, htext]
        rfl
      unfold itemIds
      rw [List.mem_map]
      refine ⟨_, List.mem_filter.mpr ⟨List.mem_map_of_mem hitem, ?_⟩, ?_⟩
      · rw [member, hget]
        exact decide_eq_true (hdocument ▸ hne)
      · rw [textOf, hget, hdocument]
        rfl

namespace LineageResolvedModelService

variable {self : LineageResolvedModelService}

/-- The untrusted-context wrapper around the lineage wrapper, over the same documents. -/
def bounded (self : LineageResolvedModelService) : UntrustedContextModelService :=
  ⟨self.toService, self.documents⟩

/-- The request that the model is run on. -/
def modelRequest (self : LineageResolvedModelService) (task : Json) : Except Error Json := do
  let secured ← self.bounded.secure task
  let (request, _) ← self.resolve secured.request
  return request

open UntrustedContextModelService in
theorem resolve_secured {task : Json} {pack_ids : List String}
    (hpacks : requestPacks task = .ok pack_ids) {secured : List SecuredItem}
    {request diagnostics : Json} :
    self.resolve (securedRequest task secured) = .ok (request, diagnostics) ↔
      ∃ expanded, expand_context_with_lineage_diagnostics (secured.map SecuredItem.json)
          self.documents.items pack_ids self.max_expansions = .ok (expanded, diagnostics) ∧
        request = (securedRequest task secured).set "context_items" (.arr expanded) := by
  have htask := isObj_of_requestPacks hpacks
  obtain ⟨hobj, hitems, hpack_ids⟩ := securedRequest_get? htask secured
  have hpacks' : requestPacks (securedRequest task secured) = .ok pack_ids := by
    rw [requestPacks_congr hobj htask hpack_ids, hpacks]
  have hget := getMethod_of_isObj hobj "context_items"
  rw [hitems] at hget
  unfold LineageResolvedModelService.resolve
  constructor
  · intro h
    obtain ⟨value, hvalue, h⟩ := bind_eq_ok.mp h
    obtain ⟨packs, hpacks'', h⟩ := bind_eq_ok.mp h
    obtain ⟨items, hiterate, h⟩ := bind_eq_ok.mp h
    obtain ⟨⟨expanded, other⟩, hexpand, hreturn⟩ := bind_eq_ok.mp h
    cases hpacks'.symm.trans hpacks''
    cases hget.symm.trans (liftPy_eq_ok.mp hvalue)
    cases hiterate
    cases hreturn
    exact ⟨expanded, hexpand, rfl⟩
  · rintro ⟨expanded, hexpand, rfl⟩
    exact bind_eq_ok.mpr ⟨_, liftPy_eq_ok.mpr hget, bind_eq_ok.mpr ⟨_, hpacks',
      bind_eq_ok.mpr ⟨_, rfl, bind_eq_ok.mpr ⟨_, hexpand, rfl⟩⟩⟩⟩

open UntrustedContextModelService in
theorem modelRequest_ok {task request : Json} :
    self.modelRequest task = .ok request ↔
      ∃ pack_ids items expanded diagnostics, requestPacks task = .ok pack_ids ∧
        iterate ((task.get? "context_items").getD (.arr [])) = .ok items ∧
        (∀ item ∈ items, item.isObj = true) ∧
        expand_context_with_lineage_diagnostics
            ((self.bounded.contextState pack_ids items).secured.map SecuredItem.json)
            self.documents.items pack_ids self.max_expansions = .ok (expanded, diagnostics) ∧
        request = (securedRequest task (self.bounded.contextState pack_ids items).secured).set
          "context_items" (.arr expanded) := by
  unfold modelRequest
  constructor
  · intro h
    obtain ⟨secured, hsecured, h⟩ := bind_eq_ok.mp h
    obtain ⟨⟨resolved, diagnostics⟩, hresolve, hreturn⟩ := bind_eq_ok.mp h
    obtain ⟨pack_ids, items, hpacks, hitems, hobj, rfl⟩ := secure_ok.mp hsecured
    obtain ⟨expanded, hexpand, hrequest⟩ := (resolve_secured hpacks).mp hresolve
    cases hreturn
    exact ⟨pack_ids, items, expanded, diagnostics, hpacks, hitems, hobj, hexpand, hrequest⟩
  · rintro ⟨pack_ids, items, expanded, diagnostics, hpacks, hitems, hobj, hexpand, rfl⟩
    exact bind_eq_ok.mpr ⟨_, secure_ok.mpr ⟨_, _, hpacks, hitems, hobj, rfl⟩,
      bind_eq_ok.mpr ⟨_, (resolve_secured hpacks).mpr ⟨_, hexpand, rfl⟩, rfl⟩⟩

/-- The context that the model is run on. -/
structure SeenContext (wrapper : LineageResolvedModelService) (pack_ids : List String)
    (items : List Json) (seen : List SeenItem) : Prop where
  split : ∃ sources : List Json,
    seen = (wrapper.bounded.contextState pack_ids items).secured.map .secured ++ sources.map .expanded
  allowed : ∀ item ∈ seen, item.Allowed wrapper.documents.items pack_ids
  nodup : (seen.filterMap SeenItem.durableId).Nodup

theorem seen_of_expand (hdocuments : self.documents.Identified) {pack_ids : List String}
    {items expanded : List Json} {diagnostics : Json}
    (h : expand_context_with_lineage_diagnostics
        ((self.bounded.contextState pack_ids items).secured.map SecuredItem.json)
        self.documents.items pack_ids self.max_expansions = .ok (expanded, diagnostics)) :
    ∃ seen : List SeenItem, expanded = seen.map SeenItem.json ∧
      self.SeenContext pack_ids items seen := by
  obtain ⟨sources, rfl, hsources, hnodup, hfresh⟩ := expanded_sources h
  have hsecure : (self.bounded.contextState pack_ids items).Secure self.documents.items pack_ids :=
    ContextState.secure_initial.foldl items
  have hids : ((self.bounded.contextState pack_ids items).secured.map SeenItem.secured ++
      sources.map SeenItem.expanded).filterMap SeenItem.durableId =
      (self.bounded.contextState pack_ids items).secured.filterMap SecuredItem.durableId ++
        sources.map fun document => textOf document "id" := by
    rw [List.filterMap_append, List.filterMap_map, List.filterMap_map, ← List.filterMap_eq_map]
    rfl
  refine ⟨(self.bounded.contextState pack_ids items).secured.map .secured ++ sources.map .expanded,
    ?_, ⟨sources, rfl⟩, ?_, ?_⟩
  · rw [List.map_append, List.map_map, List.map_map]
    rfl
  · rw [List.forall_mem_append, List.forall_mem_map, List.forall_mem_map]
    exact ⟨hsecure.allowed, hsources⟩
  · rw [hids]
    refine hsecure.nodup.append hnodup ?_
    intro id hid hsource
    obtain ⟨document, hdocument, rfl⟩ := List.mem_map.mp hsource
    exact hfresh document hdocument (mem_itemIds hdocuments hsecure.allowed hid)

/-- What the model is run on: allowed items, and no durable document twice. -/
theorem seen_of_modelRequest (hdocuments : self.documents.Identified) {task request : Json}
    (h : self.modelRequest task = .ok request) :
    ∃ pack_ids items seen, UntrustedContextModelService.requestPacks task = .ok pack_ids ∧
      iterate ((task.get? "context_items").getD (.arr [])) = .ok items ∧
      request.get? "context_items" = some (.arr (seen.map SeenItem.json)) ∧
      self.SeenContext pack_ids items seen := by
  obtain ⟨pack_ids, items, expanded, diagnostics, hpacks, hitems, -, hexpand, rfl⟩ :=
    modelRequest_ok.mp h
  obtain ⟨seen, rfl, hseen⟩ := seen_of_expand hdocuments hexpand
  have hobj := UntrustedContextModelService.isObj_of_requestPacks hpacks
  refine ⟨pack_ids, items, seen, hpacks, hitems, ?_, hseen⟩
  rw [get?_set (UntrustedContextModelService.securedRequest_get? hobj _).1, if_pos rfl]

end LineageResolvedModelService

/-! ## Two retrieved contexts -/

/-- The identifier names a durable document. -/
def Documents.IsDurable (documents : Documents) (identifier : String) : Prop :=
  identifier ≠ "" ∧ ∃ document ∈ documents.items, textOf document "id" = identifier

/-- The items have the same id, and are the same unless it names a durable document. -/
def Documents.Agree (documents : Documents) (raw raw' : Json) : Prop :=
  textOf raw "id" = textOf raw' "id" ∧ (¬ documents.IsDurable (textOf raw "id") → raw = raw')

theorem durableById_isSome {documents : Documents} (hdocuments : documents.Identified)
    {identifier : String} (hdurable : documents.IsDurable identifier) :
    ∃ document, (durableById documents.items).get? identifier = some document := by
  obtain ⟨-, document, hmem, rfl⟩ := hdurable
  obtain ⟨id, hid⟩ := hdocuments document hmem
  rw [durableById, Dict.exists_get?_ofPairs, List.map_map]
  refine List.mem_map.mpr ⟨document, List.mem_filter.mpr ⟨hmem, ?_⟩, rfl⟩
  rw [member, hid]
  rfl

theorem Documents.Agree.isObj {documents : Documents} {raw raw' : Json}
    (h : documents.Agree raw raw') (hobj : raw.isObj = true) : raw'.isObj = true := by
  by_cases hdurable : documents.IsDurable (textOf raw "id")
  · rw [h.1] at hdurable
    cases raw' with
    | obj fields => rfl
    | _ => exact absurd rfl hdurable.1
  · rw [← h.2 hdurable]
    exact hobj

theorem Documents.isObj_of_agree {documents : Documents} {raws raws' : List Json}
    (h : List.Forall₂ documents.Agree raws raws') (hobj : ∀ raw ∈ raws, raw.isObj = true) :
    ∀ raw' ∈ raws', raw'.isObj = true := by
  induction h with
  | nil => simp
  | cons hraw _ ih =>
      rw [List.forall_mem_cons] at hobj ⊢
      exact ⟨hraw.isObj hobj.1, ih hobj.2⟩

namespace ContextState

/-- Equal up to the mismatch markers. -/
structure Same (state state' : ContextState) : Prop where
  secured : state.secured.map SecuredItem.unmarked = state'.secured.map SecuredItem.unmarked
  durable : state.seen_durable_ids = state'.seen_durable_ids
  untrusted : state.seen_untrusted_fingerprints = state'.seen_untrusted_fingerprints

variable {state state' : ContextState} {allowed : List String}

theorem Same.drop (h : Same state state') (identifier : String) :
    Same (state.drop identifier) (state'.drop identifier) :=
  ⟨h.secured, h.durable, h.untrusted⟩

theorem Same.deduplicate (h : Same state state') (label : String) :
    Same (state.deduplicate label) (state'.deduplicate label) :=
  ⟨h.secured, h.durable, h.untrusted⟩

theorem Same.forwardResolved (h : Same state state') (identifier : String) (durable : Json)
    (mismatch mismatch' : Bool) :
    Same (state.forwardResolved identifier durable mismatch)
      (state'.forwardResolved identifier durable mismatch') := by
  refine ⟨?_, congrArg (insert identifier) h.durable, h.untrusted⟩
  show (state.secured ++ _).map _ = (state'.secured ++ _).map _
  rw [List.map_append, List.map_append, h.secured]
  rfl

theorem Same.forwardUntrusted (h : Same state state')
    (identifier pack_id text claimed fingerprint : String) :
    Same (state.forwardUntrusted identifier pack_id text claimed fingerprint)
      (state'.forwardUntrusted identifier pack_id text claimed fingerprint) := by
  refine ⟨?_, h.durable, congrArg (insert fingerprint) h.untrusted⟩
  show (state.secured ++ _).map _ = (state'.secured ++ _).map _
  rw [List.map_append, List.map_append, h.secured]

theorem Same.resolve (h : Same state state') (raw raw' durable : Json) (identifier : String) :
    Same (state.resolve allowed raw durable identifier)
      (state'.resolve allowed raw' durable identifier) := by
  unfold ContextState.resolve
  rw [h.durable]
  split_ifs
  · exact h.deduplicate identifier
  · exact h.forwardResolved identifier durable _ _
  · exact h.drop identifier

theorem Same.demoteAs (h : Same state state') (raw : Json) (fingerprint : String) :
    Same (state.demoteAs allowed raw fingerprint) (state'.demoteAs allowed raw fingerprint) := by
  unfold ContextState.demoteAs
  dsimp only
  rw [h.untrusted]
  by_cases hpack : textOf raw "pack_id" ∈ allowed
  · rw [if_neg (not_not.mpr hpack), if_neg (not_not.mpr hpack)]
    by_cases hseen : fingerprint ∈ state'.seen_untrusted_fingerprints
    · rw [if_pos hseen, if_pos hseen]
      exact h.deduplicate _
    · rw [if_neg hseen, if_neg hseen]
      exact h.forwardUntrusted _ _ _ _ _
  · rw [if_pos hpack, if_pos hpack]
    exact h.drop _

theorem Same.step {documents : Documents} (hdocuments : documents.Identified)
    (h : Same state state') {raw raw' : Json} (hagree : documents.Agree raw raw') :
    Same (state.secureItem (durableById documents.items) allowed raw)
      (state'.secureItem (durableById documents.items) allowed raw') := by
  by_cases hdurable : documents.IsDurable (textOf raw "id")
  · obtain ⟨document, hdocument⟩ := durableById_isSome hdocuments hdurable
    unfold secureItem
    dsimp only
    rw [← hagree.1, if_neg hdurable.1, hdocument]
    exact h.resolve raw raw' document _
  · rw [← hagree.2 hdurable]
    unfold secureItem
    dsimp only
    split
    · exact h.resolve raw raw _ _
    · exact h.demoteAs raw _

theorem Same.foldl {documents : Documents} (hdocuments : documents.Identified)
    (h : Same state state') {raws raws' : List Json}
    (hagree : List.Forall₂ documents.Agree raws raws') :
    Same (raws.foldl (secureItem (durableById documents.items) allowed) state)
      (raws'.foldl (secureItem (durableById documents.items) allowed) state') := by
  induction hagree generalizing state state' with
  | nil => exact h
  | cons hraw _ ih => exact ih (h.step hdocuments hraw)

theorem Same.alike (h : Same state state') :
    List.Forall₂ Expansion.Alike (state.secured.map SecuredItem.json)
      (state'.secured.map SecuredItem.json) := by
  have hforall : List.Forall₂ (fun item item' => item.unmarked = item'.unmarked)
      state.secured state'.secured := by
    rw [← List.forall₂_map_right_iff (R := fun item u => SecuredItem.unmarked item = u),
      ← h.secured, List.forall₂_map_right_iff, List.forall₂_same]
    exact fun _ _ => rfl
  rw [List.forall₂_map_left_iff, List.forall₂_map_right_iff]
  refine hforall.imp ?_
  intro item item' heq key hkey
  rw [← item.get?_json_unmarked hkey, heq, item'.get?_json_unmarked hkey]

end ContextState

namespace LineageResolvedModelService

variable {self : LineageResolvedModelService}

theorem isObj_secured {pack_ids : List String} (items : List Json) :
    ∀ item ∈ (self.bounded.contextState pack_ids items).secured.map SecuredItem.json,
      item.isObj = true := by
  have hsecure : (self.bounded.contextState pack_ids items).Secure self.documents.items pack_ids :=
    ContextState.secure_initial.foldl items
  rw [List.forall_mem_map]
  intro item hitem
  exact SecuredItem.isObj_json (fun d hd => (self.documents.mappings d hd).1)
    (hsecure.allowed item hitem)

/-- Contexts that agree outside the durable documents are the same context to the model. -/
theorem seen_of_agree (hdocuments : self.documents.Identified) {task task' request : Json}
    (hpacks : task.get? "pack_ids" = task'.get? "pack_ids") {items items' : List Json}
    (hitems : task.get? "context_items" = some (.arr items))
    (hitems' : task'.get? "context_items" = some (.arr items'))
    (hagree : List.Forall₂ self.documents.Agree items items')
    (h : self.modelRequest task = .ok request) :
    ∃ (request' : Json) (seen seen' : List SeenItem), self.modelRequest task' = .ok request' ∧
      request.get? "context_items" = some (.arr (seen.map SeenItem.json)) ∧
      request'.get? "context_items" = some (.arr (seen'.map SeenItem.json)) ∧
      seen.map SeenItem.unmarked = seen'.map SeenItem.unmarked := by
  obtain ⟨pack_ids, given, expanded, diagnostics, hpack_ids, hgiven, hobj, hexpand, rfl⟩ :=
    modelRequest_ok.mp h
  rw [hitems] at hgiven
  cases hgiven
  obtain ⟨sources, rfl, -⟩ := expanded_sources hexpand
  have htask := UntrustedContextModelService.isObj_of_requestPacks hpack_ids
  have htask' : task'.isObj = true := by
    cases task' with
    | obj fields => rfl
    | _ => cases hitems'
  have hpack_ids' : UntrustedContextModelService.requestPacks task' = .ok pack_ids := by
    rw [← UntrustedContextModelService.requestPacks_congr htask htask' hpacks, hpack_ids]
  have hobj' := Documents.isObj_of_agree hagree hobj
  have hsame : ContextState.Same (self.bounded.contextState pack_ids items)
      (self.bounded.contextState pack_ids items') :=
    ContextState.Same.foldl hdocuments ⟨rfl, rfl, rfl⟩ hagree
  obtain ⟨diagnostics', hexpand'⟩ := expand_congr hsame.alike (isObj_secured items') hexpand
  have hrequest' : self.modelRequest task' = .ok
      ((UntrustedContextModelService.securedRequest task'
        (self.bounded.contextState pack_ids items').secured).set "context_items"
          (.arr ((self.bounded.contextState pack_ids items').secured.map SecuredItem.json ++
            sources.map expandedItem))) :=
    modelRequest_ok.mpr ⟨pack_ids, items', _, diagnostics', hpack_ids', by rw [hitems']; rfl, hobj',
      hexpand', rfl⟩
  refine ⟨_, (self.bounded.contextState pack_ids items).secured.map .secured ++
    sources.map .expanded, (self.bounded.contextState pack_ids items').secured.map .secured ++
    sources.map .expanded, hrequest', ?_, ?_, ?_⟩
  · rw [get?_set (UntrustedContextModelService.securedRequest_get? htask _).1, if_pos rfl,
      List.map_append, List.map_map, List.map_map]
    rfl
  · rw [get?_set (UntrustedContextModelService.securedRequest_get? htask' _).1, if_pos rfl,
      List.map_append, List.map_map, List.map_map]
    rfl
  · have hsecured := congrArg (List.map SeenItem.secured) hsame.secured
    rw [List.map_map, List.map_map] at hsecured
    rw [List.map_append, List.map_append, List.map_map, List.map_map, List.map_map]
    exact congrArg (· ++ _) hsecured

end LineageResolvedModelService

/-! ## The answer -/

/-- The claim has the id, the text and the citation of the document, and nothing else. -/
structure CarriesClaim (claim document : Json) : Prop where
  claim_id : claim.get? "claim_id" = some (.str (textOf document "id"))
  text : claim.get? "text" = some (.str (textOf document "text"))
  citation : claim.get? "citation" =
    if (member document "citation").isObj then some (_canonical_citation (member document "citation"))
    else none
  only : ∀ key, claim.get? key ≠ none → key ∈ _ALLOWED_CLAIM_FIELDS

theorem carriesClaim_payload (document : Json) :
    CarriesClaim (_durable_claim_payload document) document := by
  by_cases hobj : (member document "citation").isObj = true
  · have hnull : _canonical_citation (member document "citation") ≠ .null := by
      rw [_canonical_citation, if_pos hobj]
      simp [ofMembers]
    have hpayload : _durable_claim_payload document = .ofMembers [
        ("claim_id", .str (textOf document "id")), ("text", .str (textOf document "text")),
        ("citation", _canonical_citation (member document "citation"))] := by
      simp only [_durable_claim_payload, if_neg hnull]
      rfl
    rw [hpayload]
    refine ⟨by rw [get?_ofMembers]; rfl, by rw [get?_ofMembers]; rfl, ?_, ?_⟩
    · rw [if_pos hobj, get?_ofMembers]
      rfl
    · intro key hkey
      rw [get?_ofMembers_of_nodup (by simp)] at hkey
      have hmem := fun h => hkey (lookup_eq_none_iff.mpr h)
      simpa [_ALLOWED_CLAIM_FIELDS] using not_not.mp hmem
  · have hnull : _canonical_citation (member document "citation") = .null := if_neg hobj
    have hpayload : _durable_claim_payload document = .ofMembers [
        ("claim_id", .str (textOf document "id")), ("text", .str (textOf document "text"))] := by
      simp only [_durable_claim_payload, if_pos hnull]
      rfl
    rw [hpayload]
    refine ⟨by rw [get?_ofMembers]; rfl, by rw [get?_ofMembers]; rfl, ?_, ?_⟩
    · rw [if_neg hobj, get?_ofMembers]
      rfl
    · intro key hkey
      rw [get?_ofMembers_of_nodup (by simp)] at hkey
      have hmem := fun h => hkey (lookup_eq_none_iff.mpr h)
      have hkeys := not_not.mp hmem
      simp only [List.map_cons, List.map_nil, List.mem_cons, List.not_mem_nil, or_false] at hkeys
      rcases hkeys with rfl | rfl <;> decide

/-- The claim names a durable claim of an allowed pack. -/
def Documents.Resolves (documents : Documents) (allowed : List String) (claim : Json) : Prop :=
  claimId claim ≠ "" ∧ ∃ document ∈ documents.items,
    UntrustedContextModelService.isAllowedClaim allowed document = true ∧
      textOf document "id" = claimId claim

namespace UntrustedContextModelService

variable {self : UntrustedContextModelService} {allowed : List String}
  {durable_claims : Dict String Json}

theorem resolves_iff (h : self.durableClaims allowed = .ok durable_claims) (claim : Json) :
    citedDocument durable_claims claim ≠ none ↔ self.documents.Resolves allowed claim := by
  constructor
  · intro hcited
    obtain ⟨document, hdocument⟩ := Option.ne_none_iff_exists'.mp hcited
    obtain ⟨hid, hget⟩ := citedDocument_eq_some.mp hdocument
    obtain ⟨hmem, hallowed, htext⟩ := of_durableClaims h hget
    exact ⟨hid, document, hmem, hallowed, htext⟩
  · rintro ⟨hid, document, hmem, hallowed, htext⟩
    obtain ⟨pairs, hpairs, h⟩ := bind_eq_ok.mp h
    obtain ⟨pair, hpair, hok⟩ := exists_of_mapM_ok hpairs document
      (List.mem_filter.mpr ⟨hmem, hallowed⟩)
    obtain ⟨id, hget, hok⟩ := bind_eq_ok.mp hok
    cases hok
    have hid' : id.pyStr = claimId claim := by
      rw [← htext, textOf, getItem_ok_iff.mp (liftPy_eq_ok.mp hget)]
      rfl
    obtain ⟨value, hvalue⟩ := Dict.exists_get?_ofPairs.mpr
      (List.mem_map.mpr ⟨_, hpair, hid'⟩ : claimId claim ∈ pairs.map Prod.fst)
    rw [Except.ok.inj h] at hvalue
    rw [Option.ne_none_iff_exists']
    exact ⟨value, citedDocument_eq_some.mpr ⟨hid, hvalue⟩⟩

/-- Every claim of a final output carries a durable claim of an allowed pack. -/
theorem finalOutput_claims (h : self.durableClaims allowed = .ok durable_claims) (output : Json)
    (hobj : output.isObj = true) :
    ∃ claims, (finalOutput output (claimLoop durable_claims output)).get? "claims" =
        some (.arr claims) ∧
      ∀ claim ∈ claims, ∃ document ∈ self.documents.items,
        isAllowedClaim allowed document = true ∧ CarriesClaim claim document := by
  unfold finalOutput
  split_ifs
  · refine ⟨_, by rw [get?_set hobj, if_pos rfl], ?_⟩
    rw [canonical_claims, List.forall_mem_map]
    intro document hdocument
    obtain ⟨claim, -, hcited⟩ := List.mem_filterMap.mp hdocument
    obtain ⟨hmem, hallowed, -⟩ := of_durableClaims h (citedDocument_eq_some.mp hcited).2
    exact ⟨document, hmem, hallowed, carriesClaim_payload document⟩
  · exact ⟨[], by rw [abstention, get?_ofMembers]; rfl, by simp⟩

theorem finalOutput_eq_abstention (h : self.durableClaims allowed = .ok durable_claims)
    {output : Json} (hother : ∃ claim ∈ claimValues output, ¬ self.documents.Resolves allowed claim) :
    finalOutput output (claimLoop durable_claims output) = abstention := by
  obtain ⟨claim, hclaim, hnot⟩ := hother
  refine if_neg fun hnil => hnot ?_
  exact (resolves_iff h claim).mp (invalid_claim_ids_eq_nil_iff.mp hnil claim hclaim)

theorem get?_output_rebuilt {response : Json} (hobj : response.isObj = true)
    (durable_claims : Dict String Json) (metadata diagnostics : Json) :
    (rebuilt durable_claims metadata diagnostics response).get? "output" =
      some (finalOutput (allowedOutput (rawOutput response))
        (claimLoop durable_claims (allowedOutput (rawOutput response)))) := by
  simp only [rebuilt, rawOutput_eraseAll]
  rw [get?_set_ne _ _ (by decide), get?_set_ne _ _ (by decide), get?_set_ne _ _ (by decide),
    get?_set (isObj_eraseAll hobj _), if_pos rfl]

end UntrustedContextModelService

namespace LineageResolvedModelService

open UntrustedContextModelService

variable {self : LineageResolvedModelService}

/-- A run of the composed service runs the model on its request, and answers with its output. -/
theorem of_bounded_run {task response : Json} (h : self.bounded.run task = .ok response) :
    ∃ pack_ids durable_claims request raw, requestPacks task = .ok pack_ids ∧
      self.bounded.durableClaims pack_ids = .ok durable_claims ∧
      self.modelRequest task = .ok request ∧ self.service.run request = .ok raw ∧
      response.get? "output" = some (finalOutput (allowedOutput (rawOutput raw))
        (claimLoop durable_claims (allowedOutput (rawOutput raw)))) := by
  obtain ⟨houter⟩ := UntrustedContextModelService.run_ok.mp h
  obtain ⟨hinner⟩ := LineageResolvedModelService.run_ok.mp houter.raw_ok
  have hrequest : self.modelRequest task = .ok hinner.request :=
    bind_eq_ok.mpr ⟨_, houter.secure_ok, bind_eq_ok.mpr ⟨_, hinner.resolve_ok, rfl⟩⟩
  have houtput : rawOutput houter.raw = rawOutput hinner.raw := by
    apply (congrArg rawOutput hinner.response_eq).trans
    simp only [rawOutput]
    rw [get?_set_ne _ _ (by decide), get?_set_ne _ _ (by decide)]
  refine ⟨houter.pack_ids, houter.durable_claims, hinner.request, hinner.raw, houter.packs_ok,
    houter.durable_ok, hrequest, hinner.raw_ok, ?_⟩
  apply (congrArg (get? "output") houter.response_eq).trans
  rw [get?_output_rebuilt houter.raw_mapping, houtput]

/-- The composed service runs the model on its request only. -/
theorem bounded_run_congr {model : ModelService} {task : Json}
    (hmetadata : model.metadata = self.service.metadata)
    (hrun : ∀ request, self.modelRequest task = .ok request →
      model.run request = self.service.run request) :
    ({ self with service := model } : LineageResolvedModelService).bounded.run task =
      self.bounded.run task := by
  have hmeta : ({ self with service := model } : LineageResolvedModelService).metadata =
      self.metadata := by
    unfold LineageResolvedModelService.metadata
    rw [hmetadata]
  have hinner : ∀ secured, self.bounded.secure task = .ok secured →
      ({ self with service := model } : LineageResolvedModelService).run secured.request =
        self.run secured.request := by
    intro secured hsecured
    unfold LineageResolvedModelService.run
    rw [hmeta]
    cases hresolve : self.resolve secured.request with
    | error e =>
        show (self.resolve secured.request >>= _) = _
        rw [hresolve]
        rfl
    | ok resolved =>
        have hmodel := hrun resolved.1
          (bind_eq_ok.mpr ⟨_, hsecured, bind_eq_ok.mpr ⟨_, hresolve, rfl⟩⟩)
        show (self.resolve secured.request >>= _) = _
        rw [hresolve]
        show ((model.run resolved.1 >>= asMapping) >>= _) = _
        rw [hmodel]
        rfl
  have hbounded :
      ({ self with service := model } : LineageResolvedModelService).bounded.metadata =
        self.bounded.metadata := by
    unfold UntrustedContextModelService.metadata
    show ({ self with service := model } : LineageResolvedModelService).metadata >>= _ >>= _ = _
    rw [hmeta]
    rfl
  unfold UntrustedContextModelService.run
  rw [hbounded]
  cases hsecure : self.bounded.secure task with
  | error e =>
      show (self.bounded.secure task >>= _) = _
      rw [hsecure]
      rfl
  | ok secured =>
      show (self.bounded.secure task >>= _) = _
      rw [hsecure]
      show ((({ self with service := model } : LineageResolvedModelService).run secured.request >>=
        asMapping) >>= _) = _
      rw [hinner secured hsecure]
      rfl

/-- What the boundary keeps from the model, and from its caller, on a task. -/
structure Contains (wrapper : LineageResolvedModelService) (task : Json) : Prop where
  /-- The model sees allowed items, and no durable document twice. -/
  seen : ∀ request, wrapper.modelRequest task = .ok request →
    ∃ (pack_ids : List String) (seen : List SeenItem), requestPacks task = .ok pack_ids ∧
      request.get? "context_items" = some (.arr (seen.map SeenItem.json)) ∧
      (∀ item ∈ seen, item.Allowed wrapper.documents.items pack_ids) ∧
      (seen.filterMap SeenItem.durableId).Nodup
  /-- Contexts that agree outside the durable documents look the same, up to the marker. -/
  same : ∀ (task' request : Json) (items items' : List Json),
    task.get? "pack_ids" = task'.get? "pack_ids" →
    task.get? "context_items" = some (.arr items) →
    task'.get? "context_items" = some (.arr items') →
    List.Forall₂ wrapper.documents.Agree items items' →
    wrapper.modelRequest task = .ok request →
    ∃ (request' : Json) (seen seen' : List SeenItem), wrapper.modelRequest task' = .ok request' ∧
      request.get? "context_items" = some (.arr (seen.map SeenItem.json)) ∧
      request'.get? "context_items" = some (.arr (seen'.map SeenItem.json)) ∧
      seen.map SeenItem.unmarked = seen'.map SeenItem.unmarked
  /-- The output names durable claims of allowed packs; naming anything else is an abstention. -/
  answered : ∀ response, wrapper.bounded.run task = .ok response →
    ∃ pack_ids request raw output claims, requestPacks task = .ok pack_ids ∧
      wrapper.modelRequest task = .ok request ∧ wrapper.service.run request = .ok raw ∧
      response.get? "output" = some output ∧ output.get? "claims" = some (.arr claims) ∧
      (∀ claim ∈ claims, ∃ document ∈ wrapper.documents.items,
        isAllowedClaim pack_ids document = true ∧ CarriesClaim claim document) ∧
      ((∃ claim ∈ claimValues (rawOutput raw), ¬ wrapper.documents.Resolves pack_ids claim) →
        output = abstention)

/-- The boundary contains the model's input and its output. -/
theorem bounded_contains (hdocuments : self.documents.Identified) (task : Json) :
    self.Contains task := by
  refine ⟨?_, ?_, ?_⟩
  · intro request h
    obtain ⟨pack_ids, items, seen, hpacks, -, hrequest, hseen⟩ := seen_of_modelRequest hdocuments h
    exact ⟨pack_ids, seen, hpacks, hrequest, hseen.allowed, hseen.nodup⟩
  · intro task' request items items' hpacks hitems hitems' hagree h
    exact seen_of_agree hdocuments hpacks hitems hitems' hagree h
  · intro response h
    obtain ⟨pack_ids, durable_claims, request, raw, hpacks, hdurable, hrequest, hraw, houtput⟩ :=
      of_bounded_run h
    obtain ⟨claims, hclaims, hcarried⟩ :=
      finalOutput_claims hdurable (allowedOutput (rawOutput raw)) rfl
    refine ⟨pack_ids, request, raw, _, claims, hpacks, hrequest, hraw, houtput, hclaims, hcarried,
      fun hother => finalOutput_eq_abstention hdurable ?_⟩
    rw [claimValues_allowedOutput]
    exact hother

/-- A claim and a relation to it, of one pack. -/
def claimAndRelation : Documents where
  items := [
    .ofMembers [("id", .str "clm_1"), ("pack_id", .str "pack_a"), ("document_type", .str "claim"),
      ("text", .str "Durable text.")],
    .ofMembers [("id", .str "rel_1"), ("pack_id", .str "pack_a"),
      ("document_type", .str "relation"), ("source_ref", .str "clm_1"),
      ("target_ref", .str "clm_2")]]
  mappings := by decide

theorem claimAndRelation_identified : claimAndRelation.Identified := by
  intro document hdocument
  simp only [claimAndRelation, List.mem_cons, List.not_mem_nil, or_false] at hdocument
  rcases hdocument with rfl | rfl
  · exact ⟨"clm_1", by rw [get?_ofMembers]; rfl⟩
  · exact ⟨"rel_1", by rw [get?_ofMembers]; rfl⟩

theorem claimAndRelation_contains :
    (LineageResolvedModelService.mk toolCallService claimAndRelation 24 (by decide)).Contains
      (.ofMembers [
        ("context_items", .arr [.ofMembers [("id", .str "rel_1"), ("text", .str "Forged.")]]),
        ("pack_ids", .arr [.str "pack_a"])]) :=
  bounded_contains claimAndRelation_identified _

end LineageResolvedModelService

end FossilCore
