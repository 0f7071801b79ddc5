import FossilCore.Base.Json

/-!
# Dictionaries by their members

A well-formed dictionary is determined by what a lookup reads under each key.
-/

namespace Base

namespace Json

theorem lookup_eq_some_iff {fs : List (String × Json)}
    (h : (fs.map Prod.fst).Pairwise (· < ·)) {key : String} {w : Json} :
    lookup key fs = some w ↔ (key, w) ∈ fs := by
  refine ⟨mem_of_lookup, ?_⟩
  induction fs with
  | nil =>
      intro hmem
      cases hmem
  | cons f fs ih =>
      obtain ⟨k, v⟩ := f
      rw [List.map_cons, List.pairwise_cons] at h
      intro hmem
      rcases List.mem_cons.mp hmem with heq | hmem
      · obtain ⟨rfl, rfl⟩ := Prod.mk.inj heq
        rw [lookup, if_pos rfl]
      · have hlt : k < key := h.1 key (List.mem_map.mpr ⟨(key, w), hmem, rfl⟩)
        rw [lookup, if_neg hlt.ne]
        exact ih h.2 hmem

theorem fields_ext {fs gs : List (String × Json)} (hf : (fs.map Prod.fst).Pairwise (· < ·))
    (hg : (gs.map Prod.fst).Pairwise (· < ·)) (h : ∀ key, lookup key fs = lookup key gs) :
    fs = gs := by
  have hf' := List.pairwise_map.mp hf
  have hg' := List.pairwise_map.mp hg
  apply List.Perm.eq_of_pairwise _ hf' hg'
  · apply (List.perm_ext_iff_of_nodup _ _).mpr
    · rintro ⟨key, w⟩
      rw [← lookup_eq_some_iff hf, ← lookup_eq_some_iff hg, h]
    · exact hf'.imp fun hlt heq => hlt.ne (congrArg Prod.fst heq)
    · exact hg'.imp fun hlt heq => hlt.ne (congrArg Prod.fst heq)
  · intro a b _ _ hab hba
    exact absurd hba hab.asymm

theorem WF.ext {v w : Json} (hv : v.WF) (hw : w.WF) (hvo : v.isObj = true) (hwo : w.isObj = true)
    (h : ∀ key, v.get? key = w.get? key) : v = w := by
  cases v with
  | obj fs =>
      cases w with
      | obj gs => rw [fields_ext hv.1 hw.1 h]
      | _ => cases hwo
  | _ => cases hvo

theorem lookup_append (key : String) (xs ys : List (String × Json)) :
    lookup key (xs ++ ys) = (lookup key xs).or (lookup key ys) := by
  induction xs with
  | nil => rfl
  | cons x xs ih =>
      obtain ⟨k, v⟩ := x
      by_cases hk : k = key
      · simp [lookup, hk]
      · simp [lookup, hk, ih]

theorem lookup_eq_none_iff {key : String} {fs : List (String × Json)} :
    lookup key fs = none ↔ key ∉ fs.map Prod.fst := by
  induction fs with
  | nil => simp [lookup]
  | cons f fs ih =>
      obtain ⟨k, v⟩ := f
      by_cases hk : k = key
      · simp [lookup, hk]
      · simp [lookup, hk, ih, Ne.symm hk]

/-- In a display with distinct keys every member counts. -/
theorem get?_ofMembers_of_nodup {members : List (String × Json)}
    (h : (members.map Prod.fst).Nodup) (key : String) :
    (ofMembers members).get? key = lookup key members := by
  rw [get?_ofMembers]
  induction members with
  | nil => rfl
  | cons m members ih =>
      obtain ⟨k, v⟩ := m
      rw [List.map_cons, List.nodup_cons] at h
      rw [List.reverse_cons, lookup_append, ih h.2]
      by_cases hk : k = key
      · subst hk
        rw [lookup_eq_none_iff.mpr h.1]
        simp [lookup]
      · simp [lookup, hk]

theorem get?_member {members : List (String × Json)} (hnodup : (members.map Prod.fst).Nodup)
    {key : String} {value : Json} (hm : (key, value) ∈ members) :
    (ofMembers members).get? key = some value := by
  rw [get?_ofMembers_of_nodup hnodup]
  cases hlookup : lookup key members with
  | none => exact absurd (List.mem_map_of_mem hm) (lookup_eq_none_iff.mp hlookup)
  | some w =>
      have hsame : (key, value) = (key, w) :=
        List.inj_on_of_nodup_map hnodup hm (mem_of_lookup hlookup) rfl
      rw [(Prod.mk.inj hsame).2]

theorem isObj_ofMembers (members : List (String × Json)) : (ofMembers members).isObj = true := rfl

/-- A dictionary is the display of its members. -/
theorem WF.eq_ofMembers {v : Json} (hv : v.WF) (ho : v.isObj = true)
    {members : List (String × Json)} (hkeys : (members.map Prod.fst).Nodup)
    (h : ∀ key, v.get? key = lookup key members) : v = ofMembers members := by
  apply hv.ext _ ho rfl
  · intro key
    rw [h, get?_ofMembers_of_nodup hkeys]
  · apply wf_ofMembers
    rintro ⟨key, w⟩ hm
    cases hlookup : lookup key members with
    | none => exact absurd (List.mem_map.mpr ⟨_, hm, rfl⟩) (lookup_eq_none_iff.mp hlookup)
    | some w' =>
        have hsame : (key, w) = (key, w') :=
          List.inj_on_of_nodup_map hkeys hm (mem_of_lookup hlookup) rfl
        rw [(Prod.mk.inj hsame).2]
        exact hv.of_get? ((h key).trans hlookup)

theorem isObj_iff {v : Json} : v.isObj = true ↔ ∃ fs, v = .obj fs := by
  cases v with
  | obj fs => exact iff_of_true rfl ⟨fs, rfl⟩
  | _ => exact iff_of_false (by intro h; cases h) (by rintro ⟨fs, h⟩; cases h)

theorem getMethod_of_isObj {v : Json} (h : v.isObj = true) (key : String) :
    v.getMethod key = .ok (v.get? key) := by
  cases v with
  | obj fields => rfl
  | _ => cases h

/-! ## Removing members -/

/-- `value.pop(key, None)` on a dictionary. -/
def erase (v : Json) (key : String) : Json :=
  match v with
  | .obj fields => .obj (fields.filter fun f => f.1 ≠ key)
  | other => other

theorem lookup_filter (p : String → Bool) (key : String) (fs : List (String × Json)) :
    lookup key (fs.filter fun f => p f.1) = if p key = true then lookup key fs else none := by
  induction fs with
  | nil => simp [lookup]
  | cons f fs ih =>
      obtain ⟨k, v⟩ := f
      by_cases hk : k = key
      · subst hk
        cases hp : p k with
        | true => simp [lookup, hp]
        | false => simpa [hp] using ih
      · cases hp : p k with
        | true => simpa [lookup, hk, hp] using ih
        | false => simpa [lookup, hk, hp] using ih

theorem wf_filter {fs : List (String × Json)} (h : (Json.obj fs).WF) (p : String → Bool) :
    (Json.obj (fs.filter fun f => p f.1)).WF := by
  refine ⟨?_, ?_⟩
  · exact h.1.sublist (List.Sublist.map Prod.fst List.filter_sublist)
  · exact wfFields_iff.mpr fun f hf => wfFields_iff.mp h.2 f (List.mem_filter.mp hf).1

theorem get?_erase (v : Json) (key other : String) :
    (v.erase key).get? other = if key = other then none else v.get? other := by
  cases v with
  | obj fs =>
      show lookup other (fs.filter fun f => decide (f.1 ≠ key)) = _
      rw [lookup_filter fun k => decide (k ≠ key)]
      by_cases hk : key = other
      · simp [hk]
      · simp [hk, Ne.symm hk, get?]
  | _ => simp [erase, get?]

theorem WF.erase {v : Json} (hv : v.WF) (key : String) : (v.erase key).WF := by
  cases v with
  | obj fs => exact wf_filter hv fun k => decide (k ≠ key)
  | _ => exact hv

theorem isObj_erase {v : Json} (h : v.isObj = true) (key : String) :
    (v.erase key).isObj = true := by
  cases v with
  | obj fs => rfl
  | _ => cases h

theorem isObj_set {v : Json} (h : v.isObj = true) (key : String) (value : Json) :
    (v.set key value).isObj = true := by
  cases v with
  | obj fs => rfl
  | _ => cases h

theorem get?_set {v : Json} (h : v.isObj = true) (key other : String) (value : Json) :
    (v.set key value).get? other = if key = other then some value else v.get? other := by
  obtain ⟨fs, rfl⟩ := isObj_iff.mp h
  by_cases hk : key = other
  · subst hk
    rw [if_pos rfl, get?_set_self]
  · rw [if_neg hk, get?_set_ne value _ (Ne.symm hk)]

theorem getItem_congr {v w : Json} (hv : v.isObj = true) (hw : w.isObj = true) {key : String}
    (h : v.get? key = w.get? key) : v.getItem key = w.getItem key := by
  obtain ⟨fs, rfl⟩ := isObj_iff.mp hv
  obtain ⟨gs, rfl⟩ := isObj_iff.mp hw
  have hlookup : lookup key fs = lookup key gs := h
  rw [getItem, getItem, hlookup]

theorem insertField_insertField (key : String) (value value' : Json)
    (fs : List (String × Json)) :
    insertField key value (insertField key value' fs) = insertField key value fs := by
  induction fs with
  | nil => simp [insertField]
  | cons f fs ih =>
      obtain ⟨k, v⟩ := f
      by_cases hlt : key < k
      · simp [insertField, hlt]
      · by_cases heq : key = k
        · simp [insertField, heq]
        · simp [insertField, hlt, heq, ih]

theorem set_set (v : Json) (key : String) (value value' : Json) :
    (v.set key value').set key value = v.set key value := by
  cases v with
  | obj fs => exact congrArg Json.obj (insertField_insertField key value value' fs)
  | _ => rfl

theorem WF.set_self {v w : Json} {key : String} (hv : v.WF) (h : v.get? key = some w) :
    v.set key w = v := by
  obtain ⟨fs, rfl⟩ : ∃ fs, v = .obj fs := by
    cases v with
    | obj fs => exact ⟨fs, rfl⟩
    | _ => cases h
  refine WF.ext (WF.set hv (WF.of_get? hv h)) hv rfl rfl ?_
  intro other
  rw [get?_set rfl]
  split
  case isTrue heq => rw [← heq, h]
  case isFalse => rfl

def eraseAll (v : Json) (keys : List String) : Json := keys.foldl erase v

theorem get?_eraseAll (v : Json) (keys : List String) (other : String) :
    (v.eraseAll keys).get? other = if other ∈ keys then none else v.get? other := by
  induction keys generalizing v with
  | nil => simp [eraseAll]
  | cons key keys ih =>
      have hrest : (v.eraseAll (key :: keys)).get? other =
          ((v.erase key).eraseAll keys).get? other := rfl
      rw [hrest, ih, get?_erase]
      by_cases hk : key = other
      · simp [hk]
      · simp [hk, Ne.symm hk]

theorem WF.eraseAll {v : Json} (hv : v.WF) (keys : List String) : (v.eraseAll keys).WF := by
  induction keys generalizing v with
  | nil => exact hv
  | cons key keys ih => exact ih (hv.erase key)

theorem isObj_eraseAll {v : Json} (h : v.isObj = true) (keys : List String) :
    (v.eraseAll keys).isObj = true := by
  induction keys generalizing v with
  | nil => exact h
  | cons key keys ih => exact ih (isObj_erase h key)

/-! ## Keys at every depth -/

mutual

/-- No dictionary in the value has one of the keys. -/
def Avoids (keys : List String) : Json → Prop
  | .arr xs => AvoidsItems keys xs
  | .obj fs => AvoidsFields keys fs
  | _ => True

def AvoidsItems (keys : List String) : List Json → Prop
  | [] => True
  | x :: xs => x.Avoids keys ∧ AvoidsItems keys xs

def AvoidsFields (keys : List String) : List (String × Json) → Prop
  | [] => True
  | (k, v) :: rest => k ∉ keys ∧ v.Avoids keys ∧ AvoidsFields keys rest

end

variable {keys : List String}

theorem avoids_str (s : String) : (Json.str s).Avoids keys := by simp only [Avoids]

theorem avoids_bool (b : Bool) : (Json.bool b).Avoids keys := by simp only [Avoids]

theorem avoids_int (n : ℤ) : (Json.int n).Avoids keys := by simp only [Avoids]

theorem avoids_null : Json.null.Avoids keys := by simp only [Avoids]

theorem avoidsItems_iff {xs : List Json} : AvoidsItems keys xs ↔ ∀ x ∈ xs, x.Avoids keys := by
  induction xs with
  | nil => simp [AvoidsItems]
  | cons x xs ih => simp [AvoidsItems, ih]

theorem avoids_arr_iff {xs : List Json} :
    (Json.arr xs).Avoids keys ↔ ∀ x ∈ xs, x.Avoids keys := by
  simp only [Avoids]
  exact avoidsItems_iff

theorem avoidsFields_iff {fs : List (String × Json)} :
    AvoidsFields keys fs ↔ ∀ f ∈ fs, f.1 ∉ keys ∧ f.2.Avoids keys := by
  induction fs with
  | nil => simp [AvoidsFields]
  | cons f fs ih => simp [AvoidsFields, ih, and_assoc]

theorem avoids_strs (texts : List String) : (Json.arr (texts.map .str)).Avoids keys := by
  rw [avoids_arr_iff, List.forall_mem_map]
  exact fun text _ => avoids_str text

/-- Of a dictionary it is enough to look at the members. -/
theorem WF.avoids_iff {v : Json} (hv : v.WF) (ho : v.isObj = true) :
    v.Avoids keys ↔ ∀ key w, v.get? key = some w → key ∉ keys ∧ w.Avoids keys := by
  obtain ⟨fs, rfl⟩ := isObj_iff.mp ho
  simp only [Avoids]
  rw [avoidsFields_iff]
  constructor
  · intro h key w hget
    exact h (key, w) (mem_of_lookup hget)
  · rintro h ⟨key, w⟩ hmem
    exact h key w ((lookup_eq_some_iff hv.1).mpr hmem)

/-- Every member, those under exempt keys apart, is free of the keys. -/
def MembersAvoid (keys exempt : List String) (v : Json) : Prop :=
  ∀ key w, v.get? key = some w → key ∉ exempt → key ∉ keys ∧ w.Avoids keys

theorem WF.avoids_iff_members {v : Json} (hv : v.WF) (ho : v.isObj = true) :
    v.Avoids keys ↔ v.MembersAvoid keys [] := by
  rw [hv.avoids_iff ho]
  constructor
  · intro h key w hget _
    exact h key w hget
  · intro h key w hget
    exact h key w hget List.not_mem_nil

theorem membersAvoid_set {v w : Json} {key : String} {exempt : List String}
    (ho : v.isObj = true) :
    (v.set key w).MembersAvoid keys exempt ↔
      (key ∉ exempt → key ∉ keys ∧ w.Avoids keys) ∧ v.MembersAvoid keys (key :: exempt) := by
  constructor
  · intro h
    refine ⟨fun hkey => h key w (by rw [get?_set ho, if_pos rfl]) hkey, ?_⟩
    intro other x hget hother
    rw [List.mem_cons, not_or] at hother
    exact h other x (by rw [get?_set ho, if_neg (Ne.symm hother.1), hget]) hother.2
  · rintro ⟨hself, hrest⟩ other x hget hother
    rw [get?_set ho] at hget
    split_ifs at hget with hk
    · subst hk
      rw [← Option.some.inj hget]
      exact hself hother
    · exact hrest other x hget (by simp [Ne.symm hk, hother])

theorem membersAvoid_eraseAll {v : Json} {exempt : List String} :
    (v.eraseAll keys).MembersAvoid keys exempt ↔
      ∀ key w, v.get? key = some w → key ∉ keys → key ∉ exempt → w.Avoids keys := by
  constructor
  · intro h key w hget hkey hexempt
    exact (h key w (by rw [get?_eraseAll, if_neg hkey, hget]) hexempt).2
  · intro h key w hget hexempt
    rw [get?_eraseAll] at hget
    split_ifs at hget with hkey
    exact ⟨hkey, h key w hget hkey hexempt⟩

theorem avoids_ofMembers_iff {members : List (String × Json)} (hwf : ∀ m ∈ members, m.2.WF)
    (hnodup : (members.map Prod.fst).Nodup) :
    (ofMembers members).Avoids keys ↔ ∀ m ∈ members, m.1 ∉ keys ∧ m.2.Avoids keys := by
  rw [(wf_ofMembers hwf).avoids_iff rfl]
  constructor
  · rintro h ⟨key, w⟩ hm
    apply h key w
    rw [get?_ofMembers_of_nodup hnodup]
    cases hlookup : lookup key members with
    | none => exact absurd (List.mem_map.mpr ⟨_, hm, rfl⟩) (lookup_eq_none_iff.mp hlookup)
    | some w' =>
        have hsame : (key, w) = (key, w') :=
          List.inj_on_of_nodup_map hnodup hm (mem_of_lookup hlookup) rfl
        rw [(Prod.mk.inj hsame).2]
  · intro h key w hget
    rw [get?_ofMembers_of_nodup hnodup] at hget
    exact h (key, w) (mem_of_lookup hget)

end Json

end Base
