import Mathlib.Data.List.Sort
import Mathlib.Data.String.Basic
import FossilCore.Base.Text

/-!
# JSON values

The values a JSON decoder builds: `None`, booleans, integers, floats, text, lists and
dictionaries.  A dictionary is the list of its members in increasing key order, so that two
equal dictionaries are the same value; `WF` says that this holds at every depth, and every
operation below keeps it.
-/

namespace Base

/-! ## Number literals -/

/-- The characters of a JSON number or name. -/
def isTokenChar (c : Char) : Bool := c.isAlphanum || c = '+' || c = '-' || c = '.'

def afterSign (cs : List Char) : List Char := if cs.head? = some '-' then cs.tail else cs

def wholeDigits (cs : List Char) : List Char := (afterSign cs).takeWhile Char.isDigit

def afterWhole (cs : List Char) : List Char := (afterSign cs).dropWhile Char.isDigit

/-- One digit `0`, or digits that do not begin with it. -/
def isWhole (digits : List Char) : Bool :=
  digits ≠ [] ∧ (digits.head? = some '0' → digits = ['0'])

def isIntText (cs : List Char) : Bool := isWhole (wholeDigits cs) ∧ afterWhole cs = []

/-- `e` or `E`, an optional sign, and digits. -/
def isExponent (cs : List Char) : Bool :=
  let digits :=
    if cs.tail.head? = some '-' ∨ cs.tail.head? = some '+' then cs.tail.tail else cs.tail
  (cs.head? = some 'e' ∨ cs.head? = some 'E') ∧ digits ≠ [] ∧ digits.all Char.isDigit

/-- A fraction, an exponent, or both. -/
def isFraction (cs : List Char) : Bool :=
  if cs.head? = some '.' then
    cs.tail.takeWhile Char.isDigit ≠ [] ∧
      (cs.tail.dropWhile Char.isDigit = [] ∨ isExponent (cs.tail.dropWhile Char.isDigit))
  else isExponent cs

def isFloatText (cs : List Char) : Bool :=
  cs.all isTokenChar ∧
    (cs = "NaN".toList ∨ cs = "Infinity".toList ∨ cs = "-Infinity".toList ∨
      (isWhole (wholeDigits cs) ∧ afterWhole cs ≠ [] ∧ isFraction (afterWhole cs)))

/-- A float, kept as the text that `repr` prints for it. -/
structure FloatText where
  text : List Char
  ok : isFloatText text = true
  deriving DecidableEq

inductive Json where
  | null
  | bool (b : Bool)
  | int (n : ℤ)
  | float (x : FloatText)
  | str (s : String)
  | arr (items : List Json)
  | obj (fields : List (String × Json))

namespace Json

mutual

def decEq : (a b : Json) → Decidable (a = b)
  | .null, .null => isTrue rfl
  | .bool a, .bool b => decidable_of_iff (a = b) (by simp)
  | .int a, .int b => decidable_of_iff (a = b) (by simp)
  | .float a, .float b => decidable_of_iff (a = b) (by simp)
  | .str a, .str b => decidable_of_iff (a = b) (by simp)
  | .arr a, .arr b => @decidable_of_iff _ (a = b) (by simp) (decEqItems a b)
  | .obj a, .obj b => @decidable_of_iff _ (a = b) (by simp) (decEqFields a b)
  | .null, .bool _ | .null, .int _ | .null, .float _ | .null, .str _ | .null, .arr _
  | .null, .obj _ | .bool _, .null | .bool _, .int _ | .bool _, .float _ | .bool _, .str _
  | .bool _, .arr _ | .bool _, .obj _ | .int _, .null | .int _, .bool _ | .int _, .float _
  | .int _, .str _ | .int _, .arr _ | .int _, .obj _ | .float _, .null | .float _, .bool _
  | .float _, .int _ | .float _, .str _ | .float _, .arr _ | .float _, .obj _ | .str _, .null
  | .str _, .bool _ | .str _, .int _ | .str _, .float _ | .str _, .arr _ | .str _, .obj _
  | .arr _, .null | .arr _, .bool _ | .arr _, .int _ | .arr _, .float _ | .arr _, .str _
  | .arr _, .obj _ | .obj _, .null | .obj _, .bool _ | .obj _, .int _ | .obj _, .float _
  | .obj _, .str _ | .obj _, .arr _ => isFalse (by simp)

def decEqItems : (a b : List Json) → Decidable (a = b)
  | [], [] => isTrue rfl
  | x :: xs, y :: ys =>
      match decEq x y, decEqItems xs ys with
      | isTrue hx, isTrue hs => isTrue (by rw [hx, hs])
      | isFalse hx, _ => isFalse (fun h => hx (List.cons.inj h).1)
      | _, isFalse hs => isFalse (fun h => hs (List.cons.inj h).2)
  | [], _ :: _ => isFalse (by simp)
  | _ :: _, [] => isFalse (by simp)

def decEqFields : (a b : List (String × Json)) → Decidable (a = b)
  | [], [] => isTrue rfl
  | (j, x) :: xs, (k, y) :: ys =>
      match decEq x y, decEqFields xs ys with
      | isTrue hx, isTrue hs =>
          if hk : j = k then isTrue (by rw [hk, hx, hs])
          else isFalse (fun h => hk (Prod.mk.inj (List.cons.inj h).1).1)
      | isFalse hx, _ => isFalse (fun h => hx (Prod.mk.inj (List.cons.inj h).1).2)
      | _, isFalse hs => isFalse (fun h => hs (List.cons.inj h).2)
  | [], _ :: _ => isFalse (by simp)
  | _ :: _, [] => isFalse (by simp)

end

instance : DecidableEq Json := decEq

instance : Inhabited Json := ⟨.null⟩

/-! ## Reading -/

/-- The member of a field list under a key. -/
def lookup (key : String) : List (String × Json) → Option Json
  | [] => none
  | (k, v) :: rest => if k = key then some v else lookup key rest

/-- `value.get(key)` on a dictionary; `none` stands for the absent member. -/
def get? (key : String) : Json → Option Json
  | .obj fields => lookup key fields
  | _ => none

/-- `value[key]` -/
def getItem (key : String) : Json → Except PyException Json
  | .obj fields =>
      match lookup key fields with
      | some v => .ok v
      | none => .error (.keyError key)
  | _ => .error .typeError

/-- `value.get(key)` as Python evaluates it: only a dictionary has the method. -/
def getMethod (key : String) : Json → Except PyException (Option Json)
  | .obj fields => .ok (lookup key fields)
  | _ => .error .attributeError

def getFirst : Json → Except PyException Json
  | .arr (x :: _) => .ok x
  | .arr [] => .error .indexError
  | .str s =>
      match s.toList with
      | c :: _ => .ok (.str (String.ofList [c]))
      | [] => .error .indexError
  | .obj _ => .error (.keyError "0")
  | _ => .error .typeError

def truthy : Json → Bool
  | .null => false
  | .bool b => b
  | .int n => n ≠ 0
  | .float x => x.text ≠ "0.0".toList ∧ x.text ≠ "-0.0".toList
  | .str s => s ≠ ""
  | .arr items => items ≠ []
  | .obj fields => fields ≠ []

/-- `bool(value)` where `None` stands in for an absent member. -/
def truthy? (v : Option Json) : Bool := (v.map truthy).getD false

/-- Can the value be a dictionary key or a set member? -/
def hashable : Json → Bool
  | .arr _ | .obj _ => false
  | _ => true

def isObj : Json → Bool
  | .obj _ => true
  | _ => false

def isArr : Json → Bool
  | .arr _ => true
  | _ => false

def isStr : Json → Bool
  | .str _ => true
  | _ => false

def asStr? : Json → Option String
  | .str s => some s
  | _ => none

/-- The items of a list; empty for every other value. -/
def items : Json → List Json
  | .arr xs => xs
  | _ => []

/-- The members of a dictionary; empty for every other value. -/
def fields : Json → List (String × Json)
  | .obj fs => fs
  | _ => []

mutual

def pyRepr : Json → String
  | .null => "None"
  | .bool true => "True"
  | .bool false => "False"
  | .int n => toString n
  | .float x =>
      if x.text = "NaN".toList then "nan"
      else if x.text = "Infinity".toList then "inf"
      else if x.text = "-Infinity".toList then "-inf"
      else String.ofList x.text
  | .str s => Text.repr s
  | .arr xs => "[" ++ Text.join ", " (pyReprItems xs) ++ "]"
  | .obj fs => "\x7b" ++ Text.join ", " (pyReprFields fs) ++ "\x7d"

def pyReprItems : List Json → List String
  | [] => []
  | x :: xs => pyRepr x :: pyReprItems xs

def pyReprFields : List (String × Json) → List String
  | [] => []
  | (k, v) :: rest => (Text.repr k ++ ": " ++ pyRepr v) :: pyReprFields rest

end

def pyStr : Json → String
  | .str s => s
  | v => pyRepr v

/-! ## Writing -/

/-- Put a member at its place in the key order, replacing one already there. -/
def insertField (key : String) (value : Json) :
    List (String × Json) → List (String × Json)
  | [] => [(key, value)]
  | (k, v) :: rest =>
      if key < k then (key, value) :: (k, v) :: rest
      else if key = k then (key, value) :: rest
      else (k, v) :: insertField key value rest

/-- `value[key] = member` on a dictionary. -/
def set (v : Json) (key : String) (value : Json) : Json :=
  match v with
  | .obj fields => .obj (insertField key value fields)
  | other => other

/-- The dictionary display with these members, later ones replacing earlier ones. -/
def ofMembers (members : List (String × Json)) : Json :=
  .obj (members.foldl (fun fields m => insertField m.1 m.2 fields) [])

mutual

/-- Every dictionary in the value lists its members in strictly increasing key order. -/
def WF : Json → Prop
  | .arr xs => WFItems xs
  | .obj fs => (fs.map Prod.fst).Pairwise (· < ·) ∧ WFFields fs
  | _ => True

def WFItems : List Json → Prop
  | [] => True
  | x :: xs => x.WF ∧ WFItems xs

def WFFields : List (String × Json) → Prop
  | [] => True
  | (_, v) :: rest => v.WF ∧ WFFields rest

end

mutual

def decWF : (v : Json) → Decidable v.WF
  | .arr xs => decWFItems xs
  | .obj fs =>
      have := decWFFields fs
      inferInstanceAs (Decidable (_ ∧ _))
  | .null | .bool _ | .int _ | .float _ | .str _ => .isTrue trivial

def decWFItems : (xs : List Json) → Decidable (WFItems xs)
  | [] => .isTrue trivial
  | x :: xs =>
      have := decWF x
      have := decWFItems xs
      inferInstanceAs (Decidable (_ ∧ _))

def decWFFields : (fs : List (String × Json)) → Decidable (WFFields fs)
  | [] => .isTrue trivial
  | (_, v) :: rest =>
      have := decWF v
      have := decWFFields rest
      inferInstanceAs (Decidable (_ ∧ _))

end

instance : DecidablePred WF := decWF

theorem wf_str (s : String) : (Json.str s).WF := by simp only [WF]

theorem wf_int (n : ℤ) : (Json.int n).WF := by simp only [WF]

theorem wf_null : Json.null.WF := by simp only [WF]

theorem wfItems_iff {xs : List Json} : WFItems xs ↔ ∀ x ∈ xs, x.WF := by
  induction xs with
  | nil => simp [WFItems]
  | cons x xs ih => simp [WFItems, ih]

theorem wf_arr_iff {xs : List Json} : (Json.arr xs).WF ↔ ∀ x ∈ xs, x.WF := wfItems_iff

theorem wfFields_iff {fs : List (String × Json)} : WFFields fs ↔ ∀ f ∈ fs, f.2.WF := by
  induction fs with
  | nil => simp [WFFields]
  | cons f fs ih => simp [WFFields, ih]

/-! ## The members after an assignment -/

theorem lookup_insertField_self (key : String) (value : Json) (fs : List (String × Json)) :
    lookup key (insertField key value fs) = some value := by
  induction fs with
  | nil => simp [insertField, lookup]
  | cons f fs ih =>
      obtain ⟨k, v⟩ := f
      by_cases hlt : key < k
      · simp [insertField, hlt, lookup]
      · by_cases heq : key = k
        · simp [insertField, heq, lookup]
        · simp only [insertField, if_neg hlt, if_neg heq, lookup, if_neg (Ne.symm heq), ih]

theorem lookup_insertField_ne {key other : String} (value : Json) (fs : List (String × Json))
    (h : other ≠ key) : lookup other (insertField key value fs) = lookup other fs := by
  induction fs with
  | nil => simp [insertField, lookup, Ne.symm h]
  | cons f fs ih =>
      obtain ⟨k, v⟩ := f
      by_cases hlt : key < k
      · simp [insertField, hlt, lookup, Ne.symm h]
      · by_cases heq : key = k
        · subst heq
          simp [insertField, lookup, Ne.symm h]
        · simp only [insertField, if_neg hlt, if_neg heq, lookup, ih]

theorem mem_keys_insertField {key k : String} {value : Json} {fs : List (String × Json)}
    (h : k ∈ (insertField key value fs).map Prod.fst) : k = key ∨ k ∈ fs.map Prod.fst := by
  induction fs with
  | nil => simpa [insertField] using h
  | cons f fs ih =>
      obtain ⟨j, v⟩ := f
      by_cases hlt : key < j
      · simpa [insertField, hlt] using h
      · by_cases heq : key = j
        · subst heq
          simp only [insertField, if_neg (lt_irrefl key), if_true, List.map_cons,
            List.mem_cons] at h ⊢
          tauto
        · simp only [insertField, if_neg hlt, if_neg heq, List.map_cons,
            List.mem_cons] at h ⊢
          rcases h with h | h
          · exact Or.inr (Or.inl h)
          · rcases ih h with h | h
            · exact Or.inl h
            · exact Or.inr (Or.inr h)

theorem pairwise_insertField (key : String) (value : Json) {fs : List (String × Json)}
    (h : (fs.map Prod.fst).Pairwise (· < ·)) :
    ((insertField key value fs).map Prod.fst).Pairwise (· < ·) := by
  induction fs with
  | nil => simp [insertField]
  | cons f fs ih =>
      obtain ⟨k, v⟩ := f
      rw [List.map_cons, List.pairwise_cons] at h
      by_cases hlt : key < k
      · rw [insertField, if_pos hlt, List.map_cons, List.pairwise_cons, List.map_cons,
          List.pairwise_cons]
        refine ⟨?_, h⟩
        intro j hj
        rcases List.mem_cons.mp hj with rfl | hj
        · exact hlt
        · exact hlt.trans (h.1 j hj)
      · by_cases heq : key = k
        · subst heq
          simpa [insertField] using h
        · rw [insertField, if_neg hlt, if_neg heq, List.map_cons, List.pairwise_cons]
          refine ⟨?_, ih h.2⟩
          intro j hj
          rcases mem_keys_insertField hj with rfl | hj
          · exact lt_of_le_of_ne (not_lt.mp hlt) (Ne.symm heq)
          · exact h.1 j hj

theorem wfFields_insertField {key : String} {value : Json} {fs : List (String × Json)}
    (hv : value.WF) (h : WFFields fs) : WFFields (insertField key value fs) := by
  induction fs with
  | nil => exact ⟨hv, trivial⟩
  | cons f fs ih =>
      obtain ⟨k, v⟩ := f
      by_cases hlt : key < k
      · simpa [insertField, hlt, WFFields] using ⟨hv, h⟩
      · by_cases heq : key = k
        · simpa [insertField, heq, WFFields] using ⟨hv, h.2⟩
        · simpa [insertField, hlt, heq, WFFields] using ⟨h.1, ih h.2⟩

theorem WF.set {key : String} {value v : Json} (hv : v.WF) (hvalue : value.WF) :
    (v.set key value).WF := by
  cases v with
  | obj fs => exact ⟨pairwise_insertField key value hv.1, wfFields_insertField hvalue hv.2⟩
  | _ => exact hv

theorem wf_ofMembers {members : List (String × Json)} (h : ∀ m ∈ members, m.2.WF) :
    (ofMembers members).WF := by
  suffices hs : ∀ (ms : List (String × Json)) (fs : List (String × Json)),
      (∀ m ∈ ms, m.2.WF) → (Json.obj fs).WF →
        (Json.obj (ms.foldl (fun fields m => insertField m.1 m.2 fields) fs)).WF by
    exact hs members [] h ⟨List.Pairwise.nil, trivial⟩
  intro ms
  induction ms with
  | nil => exact fun _ _ hfs => hfs
  | cons m ms ih =>
      intro fs hms hfs
      exact ih _ (fun m' hm' => hms m' (List.mem_cons_of_mem m hm'))
        ⟨pairwise_insertField m.1 m.2 hfs.1,
          wfFields_insertField (hms m List.mem_cons_self) hfs.2⟩

@[simp] theorem get?_set_self (key : String) (value : Json) (fs : List (String × Json)) :
    (Json.obj fs |>.set key value).get? key = some value :=
  lookup_insertField_self key value fs

theorem get?_set_ne {key other : String} (value : Json) (v : Json) (h : other ≠ key) :
    (v.set key value).get? other = v.get? other := by
  cases v with
  | obj fs => exact lookup_insertField_ne value fs h
  | _ => rfl

/-- A lookup in a display reads the last member under the key. -/
theorem get?_ofMembers (key : String) (members : List (String × Json)) :
    (ofMembers members).get? key = lookup key members.reverse := by
  suffices hs : ∀ (ms : List (String × Json)) (fs : List (String × Json)),
      lookup key (ms.foldl (fun fields m => insertField m.1 m.2 fields) fs) =
        lookup key (ms.reverse ++ fs) by
    simpa [ofMembers, get?] using hs members []
  intro ms
  induction ms with
  | nil => exact fun fs => rfl
  | cons m ms ih =>
      intro fs
      have append : ∀ xs ys zs : List (String × Json), lookup key ys = lookup key zs →
          lookup key (xs ++ ys) = lookup key (xs ++ zs) := by
        intro xs ys zs hyz
        induction xs with
        | nil => exact hyz
        | cons x xs ihx =>
            obtain ⟨k, v⟩ := x
            simp only [List.cons_append, lookup, ihx]
      rw [List.foldl_cons, ih, List.reverse_cons, List.append_assoc]
      apply append
      obtain ⟨k, v⟩ := m
      by_cases hk : k = key
      · subst hk
        simp [lookup_insertField_self, lookup]
      · rw [lookup_insertField_ne v fs (Ne.symm hk)]
        simp [lookup, hk]

theorem getItem_of_get? {key : String} {v w : Json} (h : v.get? key = some w) :
    v.getItem key = .ok w := by
  cases v with
  | obj fs => simp only [get?] at h; simp [getItem, h]
  | _ => simp [get?] at h

theorem getItem_ok_iff {key : String} {v w : Json} :
    v.getItem key = .ok w ↔ v.get? key = some w := by
  refine ⟨?_, getItem_of_get?⟩
  intro h
  cases v with
  | obj fs =>
      simp only [getItem] at h
      split at h
      · next v' hv' => cases h; exact hv'
      · cases h
  | _ => simp [getItem] at h

theorem mem_of_lookup {key : String} {w : Json} {fs : List (String × Json)}
    (h : lookup key fs = some w) : (key, w) ∈ fs := by
  induction fs with
  | nil => simp [lookup] at h
  | cons f fs ih =>
      obtain ⟨k, v⟩ := f
      by_cases hk : k = key
      · subst hk
        have hv : v = w := by simpa [lookup] using h
        simp [hv]
      · exact List.mem_cons_of_mem _ (ih (by simpa [lookup, hk] using h))

theorem WF.of_get? {key : String} {v w : Json} (hv : v.WF) (h : v.get? key = some w) :
    w.WF := by
  cases v with
  | obj fs => exact wfFields_iff.mp hv.2 _ (mem_of_lookup h)
  | _ => simp [get?] at h

end Json

end Base
