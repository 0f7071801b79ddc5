import FossilCore.Base.JsonObject
import FossilCore.Base.JsonSchema

/-!
# Objects against their schemas

When a dictionary meets the schema of an object with a closed list of members: every member is
one of the list and meets its own schema, and the required ones are there.
-/

namespace Base

namespace Schema

variable {keys names : List String} {members : List (String × Schema)} {v : Json}

theorem of_oneOf {schemas : List Schema} (h : oneOf schemas v = true) :
    ∃ schema ∈ schemas, schema v = true := by
  rw [oneOf, decide_eq_true_eq] at h
  obtain ⟨schema, hschema⟩ := List.length_eq_one_iff.mp h
  have hmem : schema ∈ schemas.filter fun schema => schema v := by
    rw [hschema]
    exact List.mem_singleton_self schema
  exact ⟨schema, List.mem_filter.mp hmem⟩

theorem properties_iff (hobj : v.isObj = true) :
    properties members v = true ↔
      ∀ m ∈ members, ∀ w, v.get? m.1 = some w → m.2 w = true := by
  obtain ⟨fields, rfl⟩ := Json.isObj_iff.mp hobj
  rw [properties, List.all_eq_true]
  apply forall₂_congr
  intro m _
  rw [show (Json.obj fields).get? m.1 = Json.lookup m.1 fields from rfl]
  cases Json.lookup m.1 fields <;> simp

theorem required_iff (hobj : v.isObj = true) :
    required names v = true ↔ ∀ key ∈ names, (v.get? key).isSome = true := by
  obtain ⟨fields, rfl⟩ := Json.isObj_iff.mp hobj
  exact List.all_eq_true

theorem closed_iff (hobj : v.isObj = true) :
    closed keys v = true ↔ ∀ key, (v.get? key).isSome = true → key ∈ keys := by
  obtain ⟨fields, rfl⟩ := Json.isObj_iff.mp hobj
  rw [closed, List.all_eq_true]
  constructor
  · intro h key hkey
    obtain ⟨w, hw⟩ := Option.isSome_iff_exists.mp hkey
    simpa using h (key, w) (Json.mem_of_lookup hw)
  · intro h f hf
    have hsome : (Json.lookup f.1 fields).isSome = true := by
      rw [Option.isSome_iff_ne_none, ne_eq, Json.lookup_eq_none_iff, not_not]
      exact List.mem_map_of_mem hf
    simpa using h f.1 hsome

theorem object_iff (hobj : v.isObj = true) :
    allOf [type [.object], closed keys, required names, properties members] v = true ↔
      (∀ key, (v.get? key).isSome = true → key ∈ keys) ∧
        (∀ key ∈ names, (v.get? key).isSome = true) ∧
        ∀ m ∈ members, ∀ w, v.get? m.1 = some w → m.2 w = true := by
  have htype : type [.object] v = true := by
    obtain ⟨fields, rfl⟩ := Json.isObj_iff.mp hobj
    rfl
  simp only [allOf_iff, List.forall_mem_cons, List.not_mem_nil, false_imp_iff, implies_true,
    and_true, htype, true_and, closed_iff hobj, required_iff hobj, properties_iff hobj]

/-- A member that has a key of the display. -/
theorem mem_keys_of_ofMembers {ms : List (String × Json)} {key : String}
    (h : ((Json.ofMembers ms).get? key).isSome = true) : key ∈ ms.map Prod.fst := by
  by_contra hkey
  rw [Json.get?_ofMembers, Json.lookup_eq_none_iff.mpr] at h
  · cases h
  · simpa using hkey

/-- A dictionary with no other keys than a display's is the display of its members. -/
theorem eq_ofMembers_of_closed {ms : List (String × Json)} (hv : v.WF) (hobj : v.isObj = true)
    (hnodup : (ms.map Prod.fst).Nodup) (hclosed : closed (ms.map Prod.fst) v = true)
    (h : ∀ m ∈ ms, v.get? m.1 = some m.2) : v = Json.ofMembers ms := by
  apply hv.eq_ofMembers hobj hnodup
  intro key
  cases hlookup : Json.lookup key ms with
  | some w => exact h (key, w) (Json.mem_of_lookup hlookup)
  | none =>
      have hkey := Json.lookup_eq_none_iff.mp hlookup
      exact Option.not_isSome_iff_eq_none.mp fun hsome =>
        hkey ((closed_iff hobj).mp hclosed key hsome)

/-! ## Displays -/

/-- An object with these properties, no others, and some of them required. -/
def closedObject (names : List String) (members : List (String × Schema)) : Schema :=
  allOf [type [.object], closed (members.map Prod.fst), required names, properties members]

/-- The members that are shown of rows that have a key, a value if there is one, and a schema. -/
def shown (rows : List (String × Option Json × Schema)) : List (String × Json) :=
  rows.filterMap fun row => row.2.1.map fun w => (row.1, w)

theorem keys_shown (rows : List (String × Option Json × Schema)) :
    ((shown rows).map Prod.fst).Sublist (rows.map Prod.fst) := by
  induction rows with
  | nil => exact List.Sublist.refl _
  | cons row rows ih =>
      obtain ⟨key, value, schema⟩ := row
      cases value with
      | none => exact ih.cons key
      | some w => exact ih.cons_cons key

theorem lookup_shown {rows : List (String × Option Json × Schema)}
    (hnodup : (rows.map Prod.fst).Nodup) {row : String × Option Json × Schema} (hrow : row ∈ rows) :
    Json.lookup row.1 (shown rows) = row.2.1 := by
  induction rows with
  | nil => cases hrow
  | cons other rows ih =>
      obtain ⟨key, value, schema⟩ := other
      obtain ⟨hfresh, hrest⟩ := List.nodup_cons.mp hnodup
      rcases List.mem_cons.mp hrow with rfl | hmem
      · cases value with
        | some w => exact if_pos rfl
        | none =>
            change Json.lookup key (shown rows) = none
            rw [Json.lookup_eq_none_iff]
            exact fun hkey => hfresh ((keys_shown rows).subset hkey)
      · have hne : key ≠ row.1 := by
          intro heq
          exact hfresh (List.mem_map.mpr ⟨row, hmem, heq.symm⟩)
        cases value with
        | none => exact ih hrest hmem
        | some w => exact (if_neg hne).trans (ih hrest hmem)

theorem closedObject_iff (rows : List (String × Option Json × Schema))
    (hnodup : (rows.map Prod.fst).Nodup)
    (hnames : ∀ name ∈ names, ∃ row ∈ rows, row.1 = name ∧ row.2.1.isSome = true) :
    closedObject names (rows.map fun row => (row.1, row.2.2)) (.ofMembers (shown rows)) = true ↔
      ∀ row ∈ rows, ∀ w, row.2.1 = some w → row.2.2 w = true := by
  have hget : ∀ row ∈ rows, (Json.ofMembers (shown rows)).get? row.1 = row.2.1 := by
    intro row hrow
    rw [Json.get?_ofMembers_of_nodup (hnodup.sublist (keys_shown rows))]
    exact lookup_shown hnodup hrow
  rw [closedObject, object_iff (Json.isObj_ofMembers _)]
  constructor
  · rintro ⟨-, -, h⟩ row hrow w hw
    exact h (row.1, row.2.2) (List.mem_map_of_mem hrow) w ((hget row hrow).trans hw)
  · intro h
    refine ⟨?_, ?_, ?_⟩
    · intro key hkey
      rw [List.map_map]
      exact (keys_shown rows).subset (mem_keys_of_ofMembers hkey)
    · intro name hname
      obtain ⟨row, hrow, rfl, hsome⟩ := hnames name hname
      rw [hget row hrow]
      exact hsome
    · intro m hm w hw
      obtain ⟨row, hrow, rfl⟩ := List.mem_map.mp hm
      exact h row hrow w ((hget row hrow).symm.trans hw)

/-- A display that shows every property meets its schema when each value meets its own. -/
theorem closedObject_full (rows : List (String × Json × Schema)) (hnodup : (rows.map Prod.fst).Nodup)
    (hnames : ∀ name ∈ names, name ∈ rows.map Prod.fst) :
    closedObject names (rows.map fun row => (row.1, row.2.2))
        (.ofMembers (rows.map fun row => (row.1, row.2.1))) = true ↔
      ∀ row ∈ rows, row.2.2 row.2.1 = true := by
  have hkeys : (rows.map fun row => (row.1, some row.2.1, row.2.2)).map Prod.fst =
      rows.map Prod.fst := List.map_map
  have hmembers : (rows.map fun row => (row.1, some row.2.1, row.2.2)).map
      (fun row => (row.1, row.2.2)) = rows.map fun row => (row.1, row.2.2) := List.map_map
  have hshown : shown (rows.map fun row => (row.1, some row.2.1, row.2.2)) =
      rows.map fun row => (row.1, row.2.1) := by
    rw [shown, List.filterMap_map]
    exact congrFun List.filterMap_eq_map' rows
  rw [← hkeys] at hnodup
  have hnames' : ∀ name ∈ names, ∃ row ∈ rows.map fun row =>
      (row.1, some row.2.1, row.2.2), row.1 = name ∧ row.2.1.isSome = true := by
    intro name hname
    obtain ⟨row, hrow, rfl⟩ := List.mem_map.mp (hnames name hname)
    exact ⟨_, List.mem_map_of_mem hrow, rfl, rfl⟩
  have h := closedObject_iff _ hnodup hnames'
  rw [hmembers, hshown] at h
  rw [h, List.forall_mem_map]
  apply forall₂_congr
  intro row _
  simp

theorem closedObject_display (rows : List (String × Json × Schema))
    (hnodup : (rows.map Prod.fst).Nodup) :
    closedObject (rows.map Prod.fst) (rows.map fun row => (row.1, row.2.2))
        (.ofMembers (rows.map fun row => (row.1, row.2.1))) = true ↔
      ∀ row ∈ rows, row.2.2 row.2.1 = true :=
  closedObject_full rows hnodup fun _ hname => hname

theorem properties_congr {v w : Json} (hv : v.isObj = true) (hw : w.isObj = true)
    {members : List (String × Schema)} (h : ∀ m ∈ members, v.get? m.1 = w.get? m.1) :
    properties members v = properties members w := by
  rw [Bool.eq_iff_iff, properties_iff hv, properties_iff hw]
  apply forall₂_congr
  intro m hm
  rw [h m hm]

/-- An object stays one of its schema when a member is set to a value that meets its own. -/
theorem closedObject_set {names : List String} {members : List (String × Schema)} {key : String}
    {schema : Schema} {v value : Json} (hnodup : (members.map Prod.fst).Nodup)
    (hmember : (key, schema) ∈ members) (hvalue : schema value = true) (hv : v.isObj = true)
    (h : closedObject names members v = true) :
    closedObject names members (v.set key value) = true := by
  obtain ⟨hclosed, hrequired, hproperties⟩ := (object_iff hv).mp h
  refine (object_iff (Json.isObj_set hv key value)).mpr ⟨?_, ?_, ?_⟩
  · intro other hother
    rw [Json.get?_set hv] at hother
    split at hother
    case isTrue heq => exact heq ▸ List.mem_map_of_mem hmember
    case isFalse => exact hclosed other hother
  · intro name hname
    rw [Json.get?_set hv]
    split
    · rfl
    · exact hrequired name hname
  · intro m hm w hw
    rw [Json.get?_set hv] at hw
    split at hw
    case isTrue heq =>
      cases hw
      have hsame := List.inj_on_of_nodup_map hnodup hm hmember heq.symm
      rw [hsame]
      exact hvalue
    case isFalse => exact hproperties m hm w hw

/-! ## Lists of texts -/

theorem nodup_strings {ss : List String} : (ss.map Json.str).Nodup ↔ ss.Nodup :=
  List.nodup_map_iff fun _ _ h => Json.str.inj h

theorem items_strings {item : Schema} {ss : List String} :
    items item (.arr (ss.map .str)) = true ↔ ∀ s ∈ ss, item (.str s) = true := by
  simp [items]

end Schema

end Base
