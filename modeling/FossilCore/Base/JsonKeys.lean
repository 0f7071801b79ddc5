import Mathlib.Data.List.Induction
import FossilCore.Base.JsonObject

/-!
# Forbidden keys

Values in which no dictionary, however deep, has a key that a test matches, and the value that is
left when all such members are dropped.
-/

namespace Base

namespace Json

mutual

/-- Drop the members whose keys match, at every depth. -/
def prune (p : String → Bool) : Json → Json
  | .arr xs => .arr (pruneItems p xs)
  | .obj fs => .obj (pruneFields p fs)
  | v => v

def pruneItems (p : String → Bool) : List Json → List Json
  | [] => []
  | x :: xs => x.prune p :: pruneItems p xs

def pruneFields (p : String → Bool) : List (String × Json) → List (String × Json)
  | [] => []
  | (k, v) :: rest => if p k then pruneFields p rest else (k, v.prune p) :: pruneFields p rest

end

mutual

/-- No dictionary in the value has a key that matches. -/
def FreeOf (p : String → Bool) : Json → Prop
  | .arr xs => FreeOfItems p xs
  | .obj fs => FreeOfFields p fs
  | _ => True

def FreeOfItems (p : String → Bool) : List Json → Prop
  | [] => True
  | x :: xs => x.FreeOf p ∧ FreeOfItems p xs

def FreeOfFields (p : String → Bool) : List (String × Json) → Prop
  | [] => True
  | (k, v) :: rest => p k = false ∧ v.FreeOf p ∧ FreeOfFields p rest

end

variable {p : String → Bool}

/-! ## Values without matching keys -/

theorem freeOf_str (s : String) : (Json.str s).FreeOf p := by simp only [FreeOf]

theorem freeOf_bool (b : Bool) : (Json.bool b).FreeOf p := by simp only [FreeOf]

theorem freeOf_int (n : ℤ) : (Json.int n).FreeOf p := by simp only [FreeOf]

theorem freeOf_float (x : FloatText) : (Json.float x).FreeOf p := by simp only [FreeOf]

theorem freeOf_null : Json.null.FreeOf p := by simp only [FreeOf]

theorem freeOfItems_iff {xs : List Json} : FreeOfItems p xs ↔ ∀ x ∈ xs, x.FreeOf p := by
  induction xs with
  | nil => simp [FreeOfItems]
  | cons x xs ih => simp [FreeOfItems, ih]

theorem freeOfFields_iff {fs : List (String × Json)} :
    FreeOfFields p fs ↔ ∀ f ∈ fs, p f.1 = false ∧ f.2.FreeOf p := by
  induction fs with
  | nil => simp [FreeOfFields]
  | cons f fs ih => simp [FreeOfFields, ih, and_assoc]

theorem freeOf_arr_iff {xs : List Json} :
    (Json.arr xs).FreeOf p ↔ ∀ x ∈ xs, x.FreeOf p := by
  rw [FreeOf, freeOfItems_iff]

theorem freeOf_obj_iff {fs : List (String × Json)} :
    (Json.obj fs).FreeOf p ↔ ∀ f ∈ fs, p f.1 = false ∧ f.2.FreeOf p := by
  rw [FreeOf, freeOfFields_iff]

theorem freeOf_strs (texts : List String) : (Json.arr (texts.map .str)).FreeOf p := by
  rw [freeOf_arr_iff, List.forall_mem_map]
  exact fun text _ => freeOf_str text

theorem mem_insertField {key : String} {value : Json} {fs : List (String × Json)}
    {f : String × Json} (h : f ∈ insertField key value fs) : f = (key, value) ∨ f ∈ fs := by
  induction fs with
  | nil => exact Or.inl (List.mem_singleton.mp h)
  | cons g fs ih =>
      rw [insertField] at h
      split_ifs at h
      · exact (List.mem_cons.mp h).imp_right id
      · exact (List.mem_cons.mp h).imp_right (List.mem_cons_of_mem g)
      · rcases List.mem_cons.mp h with rfl | hrest
        · exact Or.inr List.mem_cons_self
        · exact (ih hrest).imp_right (List.mem_cons_of_mem g)

theorem freeOf_ofMembers {members : List (String × Json)}
    (h : ∀ m ∈ members, p m.1 = false ∧ m.2.FreeOf p) : (ofMembers members).FreeOf p := by
  rw [ofMembers, freeOf_obj_iff]
  induction members using List.reverseRecOn with
  | nil => simp
  | append_singleton members m ih =>
      rw [List.foldl_concat]
      intro f hf
      rcases mem_insertField hf with rfl | hold
      · exact h m (List.mem_append_right _ List.mem_cons_self)
      · exact ih (fun m hm => h m (List.mem_append_left _ hm)) f hold

-- From here on only the lemmas above look into the definition.
attribute [irreducible] FreeOf

theorem FreeOf.get? {v w : Json} {key : String} (h : v.FreeOf p) (hget : v.get? key = some w) :
    w.FreeOf p := by
  cases v with
  | obj fs => exact (freeOf_obj_iff.mp h _ (mem_of_lookup hget)).2
  | _ => cases hget

/-! ## Pruned values -/

mutual

theorem freeOf_prune (p : String → Bool) : (v : Json) → (v.prune p).FreeOf p
  | .null | .bool _ | .int _ | .float _ | .str _ => by simp only [prune, FreeOf]
  | .arr xs => by
      rw [prune, FreeOf]
      exact freeOfItems_prune p xs
  | .obj fs => by
      rw [prune, FreeOf]
      exact freeOfFields_prune p fs

theorem freeOfItems_prune (p : String → Bool) : (xs : List Json) → FreeOfItems p (pruneItems p xs)
  | [] => by simp only [pruneItems, FreeOfItems]
  | x :: xs => by
      rw [pruneItems, FreeOfItems]
      exact ⟨freeOf_prune p x, freeOfItems_prune p xs⟩

theorem freeOfFields_prune (p : String → Bool) :
    (fs : List (String × Json)) → FreeOfFields p (pruneFields p fs)
  | [] => by simp only [pruneFields, FreeOfFields]
  | (k, v) :: rest => by
      rw [pruneFields]
      split_ifs with hk
      · exact freeOfFields_prune p rest
      · rw [FreeOfFields]
        exact ⟨by simpa using hk, freeOf_prune p v, freeOfFields_prune p rest⟩

end

theorem lookup_pruneFields (key : String) (fs : List (String × Json)) :
    lookup key (pruneFields p fs) =
      if p key then none else (lookup key fs).map (prune p) := by
  induction fs with
  | nil => simp [pruneFields, lookup]
  | cons f fs ih =>
      obtain ⟨k, v⟩ := f
      rw [pruneFields]
      by_cases hk : p k = true
      · rw [if_pos hk, ih, lookup]
        by_cases heq : k = key
        · rw [if_pos (heq ▸ hk), if_pos (heq ▸ hk)]
        · rw [if_neg heq]
      · rw [if_neg hk, lookup, lookup]
        by_cases heq : k = key
        · rw [if_pos heq, if_pos heq, if_neg (heq ▸ hk)]
          rfl
        · rw [if_neg heq, if_neg heq, ih]

/-- A member is left, itself pruned, unless its key matches. -/
theorem get?_prune (v : Json) (key : String) :
    (v.prune p).get? key = if p key then none else (v.get? key).map (prune p) := by
  cases v with
  | obj fs => exact lookup_pruneFields key fs
  | _ => simp [prune, get?]

theorem get?_prune_of_false (v : Json) {key : String} (h : p key = false) :
    (v.prune p).get? key = (v.get? key).map (prune p) := by
  rw [get?_prune, h, if_neg Bool.false_ne_true]

@[simp] theorem isObj_prune (v : Json) : (v.prune p).isObj = v.isObj := by
  cases v <;> simp [prune, isObj]

@[simp] theorem isStr_prune (v : Json) : (v.prune p).isStr = v.isStr := by
  cases v <;> simp [prune, isStr]

theorem prune_eq_str_iff {v : Json} {s : String} : v.prune p = .str s ↔ v = .str s := by
  cases v <;> simp [prune]

theorem prune_eq_null_iff {v : Json} : v.prune p = .null ↔ v = .null := by
  cases v <;> simp [prune]

end Json

end Base
