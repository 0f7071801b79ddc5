import FossilCore.Application.ContextBoundary

/-!
# Bounds of the expansion

How many documents the lineage expansion adds, which, and what it leaves out.
-/

namespace FossilCore

open Base

def expand_context_with_lineage (context_items documents : List Json) (pack_ids : List String)
    (max_expansions : ℤ) : Except Error (List Json) := do
  let (expanded, _) ← expand_context_with_lineage_diagnostics context_items documents pack_ids
    max_expansions
  return expanded

def isRelation (item : Json) : Bool := textOf item "document_type" = "relation"

def endpointKeys : List String := ["source_ref", "target_ref"]

/-- A relation among the items has this id at one of its ends. -/
def IsEndpoint (items : List Json) (identifier : String) : Prop :=
  ∃ item ∈ items, isRelation item = true ∧ ∃ key ∈ endpointKeys, textOf item key = identifier

/-- A document of an allowed pack has this id. -/
def Mounted (documents : List Json) (pack_ids : List String) (identifier : String) : Prop :=
  identifier ≠ "" ∧ ∃ document ∈ documents,
    textOf document "pack_id" ∈ pack_ids ∧ textOf document "id" = identifier

namespace Expansion

variable {document_by_id : Dict String Json} {max_expansions : ℤ} {state next last : Expansion}
  {ends ends' : String → Prop}

/-! ## One loop after the other -/

/-- What a loop over endpoints does to the state: it chooses among the endpoints, stops at the
bound, and passes over no new endpoint when it has not reached the bound. -/
structure Reaches (document_by_id : Dict String Json) (max_expansions : ℤ) (ends : String → Prop)
    (state next : Expansion) : Prop where
  chosen : ∃ more, next.expansion_ids = state.expansion_ids ++ more ∧ ∀ id ∈ more, ends id
  bounded : (next.expansion_ids.length : ℤ) ≤ max_expansions
  kept : ∀ id, next.isNew document_by_id id = true → state.isNew document_by_id id = true
  settled : next.isFull max_expansions = false → ∀ id, ends id →
    next.isNew document_by_id id = false

theorem isFull_eq_false_iff :
    state.isFull max_expansions = false ↔ (state.expansion_ids.length : ℤ) < max_expansions := by
  rw [isFull, decide_eq_false_iff_not, ge_iff_le, not_le]

theorem Reaches.none (h : state.isFull max_expansions = false) :
    Reaches document_by_id max_expansions (fun _ => False) state state where
  chosen := ⟨[], (List.append_nil _).symm, by simp⟩
  bounded := (isFull_eq_false_iff.mp h).le
  kept := fun _ hnew => hnew
  settled := fun _ _ hends => hends.elim

theorem Reaches.not_full (h : Reaches document_by_id max_expansions ends state next)
    (hnext : next.isFull max_expansions = false) : state.isFull max_expansions = false := by
  obtain ⟨more, hmore, -⟩ := h.chosen
  rw [isFull_eq_false_iff] at hnext ⊢
  rw [hmore, List.length_append] at hnext
  omega

theorem Reaches.trans (h : Reaches document_by_id max_expansions ends state next)
    (h' : Reaches document_by_id max_expansions ends' next last) :
    Reaches document_by_id max_expansions (fun id => ends id ∨ ends' id) state last where
  chosen := by
    obtain ⟨more, hmore, hends⟩ := h.chosen
    obtain ⟨more', hmore', hends'⟩ := h'.chosen
    refine ⟨more ++ more', by rw [hmore', hmore, List.append_assoc], ?_⟩
    rw [List.forall_mem_append]
    exact ⟨fun id hid => Or.inl (hends id hid), fun id hid => Or.inr (hends' id hid)⟩
  bounded := h'.bounded
  kept := fun id hnew => h.kept id (h'.kept id hnew)
  settled := by
    rintro hfull id (hid | hid)
    · have hold := h.settled (h'.not_full hfull) id hid
      by_contra hnew
      rw [h'.kept id (by simpa using hnew)] at hold
      cases hold
    · exact h'.settled hfull id hid

/-- A loop that has reached the bound passes over anything. -/
theorem Reaches.full (h : Reaches document_by_id max_expansions ends state next)
    (hfull : next.isFull max_expansions = true) (hends : ∀ id, ends id → ends' id) :
    Reaches document_by_id max_expansions ends' state next where
  chosen := by
    obtain ⟨more, hmore, hmem⟩ := h.chosen
    exact ⟨more, hmore, fun id hid => hends id (hmem id hid)⟩
  bounded := h.bounded
  kept := h.kept
  settled := fun hnot => by simp [hfull] at hnot

theorem Reaches.congr (h : Reaches document_by_id max_expansions ends state next)
    (hends : ∀ id, ends id ↔ ends' id) :
    Reaches document_by_id max_expansions ends' state next := by
  have heq : ends = ends' := funext fun id => propext (hends id)
  rwa [← heq]

theorem Reaches.choose {identifier : String} (h : state.isFull max_expansions = false) :
    Reaches document_by_id max_expansions (· = identifier) state (state.choose identifier) where
  chosen := ⟨[identifier], rfl, by simp⟩
  bounded := by
    rw [isFull_eq_false_iff] at h
    show ((state.expansion_ids ++ [identifier]).length : ℤ) ≤ max_expansions
    rw [List.length_append, List.length_singleton]
    omega
  kept := by
    intro id hnew
    simp only [isNew, Expansion.choose, Finset.mem_insert, not_or, decide_eq_true_eq] at hnew ⊢
    exact ⟨hnew.1, hnew.2.1.2, hnew.2.2⟩
  settled := by
    rintro - id rfl
    simp [isNew, Expansion.choose]

/-- An identifier that is not new is passed over. -/
theorem Reaches.pass {identifier : String} (h : state.isFull max_expansions = false)
    (hold : state.isNew document_by_id identifier = false) :
    Reaches document_by_id max_expansions (· = identifier) state state where
  chosen := ⟨[], (List.append_nil _).symm, by simp⟩
  bounded := (isFull_eq_false_iff.mp h).le
  kept := fun _ hnew => hnew
  settled := by
    rintro - id rfl
    exact hold

/-! ## The loops -/

theorem reaches_expandKeys (item : Json) {keys : List String}
    (h : state.isFull max_expansions = false) :
    Reaches document_by_id max_expansions (fun id => ∃ key ∈ keys, textOf item key = id) state
      (expandKeys document_by_id max_expansions item keys state) := by
  induction keys generalizing state with
  | nil => exact (Reaches.none h).congr (by simp)
  | cons key keys ih =>
      have hcons : ∀ id, (id = textOf item key ∨ ∃ key ∈ keys, textOf item key = id) ↔
          ∃ k ∈ key :: keys, textOf item k = id := by
        intro id
        rw [List.exists_mem_cons_iff, eq_comm]
      unfold expandKeys
      dsimp only
      by_cases hnew : state.isNew document_by_id (textOf item key) = true
      · rw [if_pos hnew]
        have hchosen := @Reaches.choose document_by_id max_expansions state (textOf item key) h
        split_ifs with hfull
        · exact hchosen.full hfull fun id hid => (hcons id).mp (Or.inl hid)
        · exact (hchosen.trans (ih (by simpa using hfull))).congr hcons
      · rw [if_neg hnew]
        exact ((Reaches.pass h (by simpa using hnew)).trans (ih h)).congr hcons

theorem isEndpoint_cons {item : Json} {items : List Json} {id : String} :
    IsEndpoint (item :: items) id ↔
      (isRelation item = true ∧ ∃ key ∈ endpointKeys, textOf item key = id) ∨
        IsEndpoint items id := by
  rw [IsEndpoint, List.exists_mem_cons_iff, IsEndpoint]

theorem reaches_expandItems {items : List Json} (h : state.isFull max_expansions = false) :
    Reaches document_by_id max_expansions (IsEndpoint items) state
      (expandItems document_by_id max_expansions items state) := by
  induction items generalizing state with
  | nil => exact (Reaches.none h).congr (by simp [IsEndpoint])
  | cons item items ih =>
      unfold expandItems
      dsimp only
      by_cases hrelation : textOf item "document_type" = "relation"
      · have hitem : isRelation item = true := decide_eq_true hrelation
        rw [if_neg (not_not.mpr hrelation)]
        have hkeys := @reaches_expandKeys document_by_id max_expansions state item
          ["source_ref", "target_ref"] h
        split_ifs with hfull
        · exact hkeys.full hfull fun id hid => isEndpoint_cons.mpr (Or.inl ⟨hitem, hid⟩)
        · refine (hkeys.trans (ih (by simpa using hfull))).congr fun id => ?_
          rw [isEndpoint_cons, hitem]
          simp [endpointKeys]
      · have hitem : ¬isRelation item = true := by simpa [isRelation] using hrelation
        rw [if_pos hrelation]
        exact (ih h).congr fun id => by rw [isEndpoint_cons]; simp [hitem]

/-! ## A loop that starts at the bound -/

theorem isPrefix_expandKeys (item : Json) (keys : List String) :
    state.expansion_ids <+:
      (expandKeys document_by_id max_expansions item keys state).expansion_ids := by
  induction keys generalizing state with
  | nil => exact List.prefix_rfl
  | cons key keys ih =>
      have hchoose : state.expansion_ids <+: (state.choose (textOf item key)).expansion_ids :=
        List.prefix_append _ _
      unfold expandKeys
      dsimp only
      split_ifs
      · exact hchoose
      · exact hchoose.trans ih
      · exact ih

theorem expandKeys_ids_eq_iff (item : Json) (keys : List String) :
    (expandKeys document_by_id max_expansions item keys state).expansion_ids =
        state.expansion_ids ↔
      ∀ key ∈ keys, state.isNew document_by_id (textOf item key) = false := by
  induction keys with
  | nil => simp [expandKeys]
  | cons key keys ih =>
      unfold expandKeys
      dsimp only
      by_cases hnew : state.isNew document_by_id (textOf item key) = true
      · have hlonger : ∀ after : Expansion,
            (state.choose (textOf item key)).expansion_ids <+: after.expansion_ids →
              after.expansion_ids ≠ state.expansion_ids := by
          intro after hprefix heq
          have hlength := hprefix.length_le
          rw [heq] at hlength
          simp [Expansion.choose] at hlength
        rw [if_pos hnew, List.forall_mem_cons, hnew]
        simp only [Bool.true_eq_false, false_and, iff_false]
        split_ifs
        · exact hlonger _ List.prefix_rfl
        · exact hlonger _ (isPrefix_expandKeys item keys)
      · rw [if_neg hnew, ih, List.forall_mem_cons]
        exact (and_iff_right (by simpa using hnew)).symm

/-- At the bound already, the loop ends with the first relation. -/
theorem expandItems_of_full {items : List Json} (h : max_expansions ≤ 0) :
    expandItems document_by_id max_expansions items state =
      match items.find? isRelation with
      | none => state
      | some item => expandKeys document_by_id max_expansions item endpointKeys state := by
  induction items with
  | nil => rfl
  | cons item items ih =>
      unfold expandItems
      dsimp only
      by_cases hrelation : textOf item "document_type" = "relation"
      · have hitem : isRelation item = true := decide_eq_true hrelation
        rw [if_neg (not_not.mpr hrelation), if_pos, List.find?_cons_of_pos hitem]
        · rfl
        · rw [isFull, decide_eq_true_eq]
          omega
      · have hitem : ¬isRelation item = true := by simpa [isRelation] using hrelation
        rw [if_pos hrelation, ih, List.find?_cons_of_neg hitem]

end Expansion

/-! ## The further items -/

section Within

variable {context_items documents expanded : List Json} {pack_ids : List String} {max : ℤ}
  {document_by_id : Dict String Json}

/-- What the items after the input are held to. -/
structure Within (context_items documents : List Json) (pack_ids : List String) (max : ℤ)
    (further : List Json) : Prop where
  bounded : (further.length : ℤ) ≤ max
  distinct : (further.map fun item => textOf item "id").Nodup
  fresh : ∀ item ∈ further, textOf item "id" ∉ itemIds context_items
  allowed : ∀ item ∈ further, ∃ document ∈ documents, item = expandedItem document ∧
    textOf document "pack_id" ∈ pack_ids ∧ textOf item "pack_id" ∈ pack_ids
  endpoints : ∀ item ∈ further, IsEndpoint context_items (textOf item "id")
  complete : (further.length : ℤ) < max → ∀ identifier, IsEndpoint context_items identifier →
    Mounted documents pack_ids identifier → identifier ∈ itemIds context_items ∨
      identifier ∈ further.map fun item => textOf item "id"

theorem textOf_expandedItem (document : Json) {key : String} (h : key ≠ "context_expansion") :
    textOf (expandedItem document) key = textOf document key := by
  rw [textOf, expandedItem, Json.get?_set_ne _ _ h, textOf]

theorem mounted_iff (h : allowedById documents pack_ids = .ok document_by_id)
    {identifier : String} (hne : identifier ≠ "") :
    document_by_id.contains identifier = true ↔ Mounted documents pack_ids identifier := by
  rw [Dict.contains_iff]
  constructor
  · rintro ⟨document, hget⟩
    obtain ⟨hmem, hpack, hid⟩ := of_allowedById h hget
    exact ⟨hne, document, hmem, hpack, hid⟩
  · rintro ⟨-, document, hmem, hpack, hid⟩
    obtain ⟨pairs, hpairs, h⟩ := bind_eq_ok.mp h
    rw [← Except.ok.inj h, Dict.exists_get?_ofPairs]
    obtain ⟨pair, hpair, hread⟩ := exists_of_mapM_ok hpairs document
      (List.mem_filter.mpr ⟨hmem, decide_eq_true hpack⟩)
    obtain ⟨id, hget, hread⟩ := bind_eq_ok.mp hread
    cases hread
    refine List.mem_map.mpr ⟨_, hpair, ?_⟩
    rw [← hid, textOf, Json.getItem_ok_iff.mp (liftPy_eq_ok.mp hget)]
    rfl

theorem isNew_start_iff (h : allowedById documents pack_ids = .ok document_by_id)
    {identifier : String} {ids : List String} {selected : Finset String} :
    (⟨ids, selected⟩ : Expansion).isNew document_by_id identifier = true ↔
      identifier ∉ selected ∧ Mounted documents pack_ids identifier := by
  rw [Expansion.isNew, decide_eq_true_eq]
  constructor
  · rintro ⟨hne, hnot, hcontains⟩
    exact ⟨hnot, (mounted_iff h hne).mp hcontains⟩
  · rintro ⟨hnot, hmounted⟩
    exact ⟨hmounted.1, hnot, (mounted_iff h hmounted.1).mpr hmounted⟩

/-- The further items are the documents with the chosen ids. -/
theorem further_spec
    (h : expand_context_with_lineage context_items documents pack_ids max = .ok expanded) :
    0 ≤ max ∧ ∃ (document_by_id : Dict String Json) (sources : List Json),
      allowedById documents pack_ids = .ok document_by_id ∧
      expanded = context_items ++ sources.map expandedItem ∧
      (sources.map fun document => textOf document "id") =
        (Expansion.expandItems document_by_id max context_items
          ⟨[], (itemIds context_items).toFinset⟩).expansion_ids ∧
      ∀ document ∈ sources, document ∈ documents ∧ textOf document "pack_id" ∈ pack_ids := by
  obtain ⟨⟨expanded', diagnostics⟩, hexpand, hreturn⟩ := bind_eq_ok.mp h
  cases hreturn
  obtain ⟨hmax, -, document_by_id, expansions, hby, hexpansions, rfl⟩ := expand_ok.mp ⟨_, hexpand⟩
  obtain ⟨sources, rfl, hids, hsources⟩ := expandDocuments_ok hby hexpansions
  exact ⟨hmax, document_by_id, sources, hby, rfl, hids, hsources⟩

theorem map_id_expandedItem (sources : List Json) :
    ((sources.map expandedItem).map fun item => textOf item "id") =
      sources.map fun document => textOf document "id" := by
  rw [List.map_map]
  exact List.map_congr_left fun document _ => textOf_expandedItem document (by decide)

/-- What the expansion adds is within its bounds as soon as the chosen ids are. -/
theorem within_of_ids {sources : List Json} {state : Expansion}
    (hids : (sources.map fun document => textOf document "id") = state.expansion_ids)
    (hsources : ∀ document ∈ sources, document ∈ documents ∧
      textOf document "pack_id" ∈ pack_ids)
    (hfresh : state.Fresh (itemIds context_items).toFinset)
    (hbounded : (state.expansion_ids.length : ℤ) ≤ max)
    (hends : ∀ id ∈ state.expansion_ids, IsEndpoint context_items id)
    (hcomplete : (state.expansion_ids.length : ℤ) < max → ∀ identifier,
      IsEndpoint context_items identifier → Mounted documents pack_ids identifier →
        identifier ∈ itemIds context_items ∨ identifier ∈ state.expansion_ids) :
    Within context_items documents pack_ids max (sources.map expandedItem) := by
  have hmap : ((sources.map expandedItem).map fun item => textOf item "id") =
      state.expansion_ids := by
    rw [map_id_expandedItem, hids]
  have hlength : (sources.map expandedItem).length = state.expansion_ids.length := by
    rw [← hmap, List.length_map, List.length_map, List.length_map]
  have hmem : ∀ item ∈ sources.map expandedItem, textOf item "id" ∈ state.expansion_ids := by
    intro item hitem
    rw [← hmap]
    exact List.mem_map_of_mem hitem
  constructor
  · rw [hlength]
    exact hbounded
  · rw [hmap]
    exact hfresh.nodup
  · intro item hitem hin
    exact hfresh.fresh _ (hmem item hitem) (List.mem_toFinset.mpr hin)
  · intro item hitem
    obtain ⟨document, hdocument, rfl⟩ := List.mem_map.mp hitem
    obtain ⟨hin, hpack⟩ := hsources document hdocument
    refine ⟨document, hin, rfl, hpack, ?_⟩
    rw [textOf_expandedItem document (by decide)]
    exact hpack
  · exact fun item hitem => hends _ (hmem item hitem)
  · rw [hlength, hmap]
    exact hcomplete

/-- The items that are added are within the bounds exactly when the bound lets one in, or the
first relation of the input has no end to add. -/
theorem expansion_within_iff
    (h : expand_context_with_lineage context_items documents pack_ids max = .ok expanded) :
    (∃ further, expanded = context_items ++ further ∧
        Within context_items documents pack_ids max further) ↔
      1 ≤ max ∨ ∀ item, context_items.find? isRelation = some item → ∀ identifier,
        IsEndpoint [item] identifier → Mounted documents pack_ids identifier →
          identifier ∈ itemIds context_items := by
  obtain ⟨hmax, document_by_id, sources, hby, rfl, hids, hsources⟩ := further_spec h
  have hfresh : Expansion.Fresh (itemIds context_items).toFinset
      (Expansion.expandItems document_by_id max context_items
        ⟨[], (itemIds context_items).toFinset⟩) :=
    Expansion.fresh_nil.expandItems context_items
  by_cases hpositive : 1 ≤ max
  · have hstart : (⟨[], (itemIds context_items).toFinset⟩ : Expansion).isFull max = false :=
      Expansion.isFull_eq_false_iff.mpr (show (0 : ℤ) < max by omega)
    have hreaches := @Expansion.reaches_expandItems document_by_id max _ context_items hstart
    refine iff_of_true ⟨_, rfl, within_of_ids hids hsources hfresh ?_ ?_ ?_⟩ (Or.inl hpositive)
    · exact hreaches.bounded
    · obtain ⟨more, hmore, hends⟩ := hreaches.chosen
      rw [hmore]
      exact hends
    · intro hlength identifier hend hmounted
      have hold := hreaches.settled (Expansion.isFull_eq_false_iff.mpr hlength) identifier hend
      by_contra hnone
      obtain ⟨hinput, hchosen⟩ := not_or.mp hnone
      rw [(isNew_start_iff hby).mpr ⟨?_, hmounted⟩] at hold
      · cases hold
      · rw [hfresh.selected_eq, Finset.mem_union, List.mem_toFinset, List.mem_toFinset]
        exact not_or.mpr ⟨hinput, hchosen⟩
  · -- the bound is zero, and is looked at only after an id has been chosen
    obtain rfl : max = 0 := by omega
    rw [Expansion.expandItems_of_full le_rfl] at hids hfresh
    have hchosen : sources = [] ↔ ∀ item, context_items.find? isRelation = some item →
        ∀ identifier, IsEndpoint [item] identifier → Mounted documents pack_ids identifier →
          identifier ∈ itemIds context_items := by
      rw [← @List.map_eq_nil_iff _ _ (fun document => textOf document "id"), hids]
      cases hfind : context_items.find? isRelation with
      | none => simp
      | some item =>
          have hrelation := List.find?_some hfind
          simp only [Option.some.injEq, forall_eq']
          show Expansion.expansion_ids _ = (⟨[], (itemIds context_items).toFinset⟩ :
            Expansion).expansion_ids ↔ _
          rw [Expansion.expandKeys_ids_eq_iff]
          constructor
          · rintro hold identifier ⟨other, hother, -, key, hkey, rfl⟩ hmounted
            rw [List.mem_singleton.mp hother] at hmounted ⊢
            by_contra hinput
            have hnew := hold key hkey
            rw [(isNew_start_iff hby).mpr
              ⟨fun hin => hinput (List.mem_toFinset.mp hin), hmounted⟩] at hnew
            cases hnew
          · intro hall key hkey
            by_contra hnew
            obtain ⟨hnot, hmounted⟩ := (isNew_start_iff hby).mp (by simpa using hnew)
            exact hnot (List.mem_toFinset.mpr (hall _ ⟨item, List.mem_cons_self, hrelation, key,
              hkey, rfl⟩ hmounted))
    rw [← hchosen]
    constructor
    · rintro ⟨further, heq, hwithin⟩
      have hbounded := hwithin.bounded
      rw [← List.append_cancel_left heq, List.length_map] at hbounded
      exact Or.inr (List.length_eq_zero_iff.mp (by omega))
    · rintro (hone | rfl)
      · exact absurd hone hpositive
      · exact ⟨[], rfl, by constructor <;> simp⟩

end Within

/-! ## A bound of zero -/

def supportRelation : Json :=
  .obj [("document_type", .str "relation"), ("id", .str "rel_1"), ("source_ref", .str "claim_1"),
    ("target_ref", .str "claim_2")]

def claimDocument : Json :=
  .obj [("document_type", .str "claim"), ("id", .str "claim_1"), ("pack_id", .str "pack_a")]

theorem expand_claimDocument {max : ℤ} (h : max = 0 ∨ max = 24) :
    expand_context_with_lineage [supportRelation] [claimDocument] ["pack_a"] max =
      .ok [supportRelation, expandedItem claimDocument] := by
  rcases h with rfl | rfl <;> rfl

theorem expansion_within_of_default :
    ∃ further, [supportRelation, expandedItem claimDocument] = [supportRelation] ++ further ∧
      Within [supportRelation] [claimDocument] ["pack_a"] 24 further :=
  (expansion_within_iff (expand_claimDocument (Or.inr rfl))).mpr (Or.inl (by decide))

/-- With room for no item, one is added. -/
theorem expansion_exceeds_zero :
    expand_context_with_lineage [supportRelation] [claimDocument] ["pack_a"] 0 =
        .ok [supportRelation, expandedItem claimDocument] ∧
      ¬∃ further, [supportRelation, expandedItem claimDocument] = [supportRelation] ++ further ∧
        Within [supportRelation] [claimDocument] ["pack_a"] 0 further := by
  refine ⟨expand_claimDocument (Or.inl rfl), ?_⟩
  rintro ⟨further, heq, hwithin⟩
  have hlength := congrArg List.length heq
  have hbounded := hwithin.bounded
  simp only [List.length_append, List.length_cons, List.length_nil] at hlength
  omega

end FossilCore
