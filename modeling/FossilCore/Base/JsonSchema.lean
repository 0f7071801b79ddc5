import Mathlib.Data.Rat.Defs
import FossilCore.Base.Json

/-!
# JSON Schema

The keywords of draft 2020-12 that the modelled schemas use, each as the predicate on values
it denotes.  A keyword about one kind of value accepts every value of another kind.  A pattern
is searched in the text, and its final `$` also matches before a last line break.
-/

namespace Base

abbrev Schema := Json → Bool

namespace Schema

inductive JsonType where
  | null
  | integer
  | string
  | array
  | object
  | boolean
  | number
  deriving DecidableEq

/-- Is the float a whole number?  `repr` ends it in `.0`, or gives it a positive exponent. -/
def isIntegral (x : FloatText) : Bool :=
  ['.', '0'].isSuffixOf x.text ∨ '+' ∈ x.text

/-- The value of a numeral's digits, without its sign and its exponent. -/
def digitsValue (digits : List Char) : ℕ :=
  digits.foldl (fun n c => 10 * n + (c.toNat - '0'.toNat)) 0

/-- The number that the text of a finite float denotes. -/
def numeral (text : List Char) : ℚ :=
  let fraction := if (afterWhole text).head? = some '.' then
    (afterWhole text).tail.takeWhile Char.isDigit else []
  let exponent := (afterWhole text).dropWhile fun c => c ≠ 'e' && c ≠ 'E'
  let digits := (exponent.tail.dropWhile fun c => !c.isDigit)
  let mantissa : ℚ :=
    digitsValue (wholeDigits text ++ fraction) / 10 ^ fraction.length
  let scaled := if exponent.tail.head? = some '-' then mantissa / 10 ^ digitsValue digits
    else mantissa * 10 ^ digitsValue digits
  if text.head? = some '-' then -scaled else scaled

def isNaN (x : FloatText) : Bool := x.text = "NaN".toList

/-- The keyword fails on a number that is less; `NaN` is not. -/
def atLeast (x : FloatText) (n : ℤ) : Bool :=
  isNaN x ∨ x.text = "Infinity".toList ∨ (x.text ≠ "-Infinity".toList ∧ (n : ℚ) ≤ numeral x.text)

def atMost (x : FloatText) (n : ℤ) : Bool :=
  isNaN x ∨ x.text = "-Infinity".toList ∨ (x.text ≠ "Infinity".toList ∧ numeral x.text ≤ (n : ℚ))

def hasType : JsonType → Schema
  | .null, .null => true
  | .integer, .int _ => true
  | .integer, .float x => isIntegral x
  | .string, .str _ => true
  | .array, .arr _ => true
  | .object, .obj _ => true
  | .boolean, .bool _ => true
  | .number, .int _ => true
  | .number, .float _ => true
  | _, _ => false

def type (ts : List JsonType) : Schema := fun v => ts.any fun t => hasType t v

def const (c : Json) : Schema := fun v => v = c

def enum (cs : List Json) : Schema := fun v => v ∈ cs

def minLength (n : ℕ) : Schema
  | .str s => n ≤ s.toList.length
  | _ => true

def minimum (n : ℤ) : Schema
  | .int m => n ≤ m
  | .float x => atLeast x n
  | _ => true

def maximum (n : ℤ) : Schema
  | .int m => m ≤ n
  | .float x => atMost x n
  | _ => true

def pattern (accepts : String → Bool) : Schema
  | .str s => accepts s
  | _ => true

def format (accepts : String → Bool) : Schema
  | .str s => accepts s
  | _ => true

def minItems (n : ℕ) : Schema
  | .arr xs => n ≤ xs.length
  | _ => true

def uniqueItems : Schema
  | .arr xs => xs.Nodup
  | _ => true

def items (item : Schema) : Schema
  | .arr xs => xs.all item
  | _ => true

def required (keys : List String) : Schema
  | .obj fields => keys.all fun k => (Json.lookup k fields).isSome
  | _ => true

def properties (members : List (String × Schema)) : Schema
  | .obj fields => members.all fun m => ((Json.lookup m.1 fields).map m.2).getD true
  | _ => true

/-- `"additionalProperties": false` beside the given properties. -/
def closed (keys : List String) : Schema
  | .obj fields => fields.all fun f => f.1 ∈ keys
  | _ => true

def allOf (schemas : List Schema) : Schema := fun v => schemas.all fun schema => schema v

def anyOf (schemas : List Schema) : Schema := fun v => schemas.any fun schema => schema v

def oneOf (schemas : List Schema) : Schema := fun v =>
  (schemas.filter fun schema => schema v).length = 1

/-- The keywords `if` and `then`. -/
def ifThen (condition consequence : Schema) : Schema := fun v => !condition v || consequence v

/-! ## Patterns -/

/-- A text that `accepts` matches up to `$`. -/
def matchesToEnd (accepts : List Char → Bool) (s : String) : Bool :=
  accepts s.toList ∨ (s.toList.getLast? = some '\n' ∧ accepts s.toList.dropLast)

/-- `[A-Za-z0-9_-]` -/
def isWordChar (c : Char) : Bool := c.isAlphanum || c = '_' || c = '-'

/-- `^<pre>[A-Za-z0-9_-]{least,}$` -/
def isPrefixedId (pre : String) (least : ℕ) : String → Bool :=
  matchesToEnd fun cs =>
    pre.toList.isPrefixOf cs ∧ least ≤ (cs.drop pre.toList.length).length ∧
      (cs.drop pre.toList.length).all isWordChar

/-! ## What an accepted value has -/

theorem allOf_iff {schemas : List Schema} {v : Json} :
    allOf schemas v = true ↔ ∀ schema ∈ schemas, schema v = true :=
  List.all_eq_true

theorem isObj_of_type {v : Json} (h : type [.object] v = true) : ∃ fields, v = .obj fields := by
  cases v with
  | obj fields => exact ⟨fields, rfl⟩
  | _ => simp [type, hasType] at h

theorem isStr_of_type {v : Json} (h : type [.string] v = true) : ∃ s, v = .str s := by
  cases v with
  | str s => exact ⟨s, rfl⟩
  | _ => simp [type, hasType] at h

theorem isArr_of_type {v : Json} (h : type [.array] v = true) : ∃ xs, v = .arr xs := by
  cases v with
  | arr xs => exact ⟨xs, rfl⟩
  | _ => simp [type, hasType] at h

theorem get?_of_required {keys : List String} {fields : List (String × Json)} {key : String}
    (h : required keys (.obj fields) = true) (hkey : key ∈ keys) :
    ∃ w, (Json.obj fields).get? key = some w :=
  Option.isSome_iff_exists.mp (List.all_eq_true.mp h key hkey)

theorem of_properties {members : List (String × Schema)} {v w : Json} {key : String}
    {schema : Schema} (h : properties members v = true) (hmember : (key, schema) ∈ members)
    (hget : v.get? key = some w) : schema w = true := by
  cases v with
  | obj fields =>
      have hall := List.all_eq_true.mp h _ hmember
      have hlookup : Json.lookup key fields = some w := hget
      simpa [hlookup] using hall
  | _ => simp [Json.get?] at hget

/-- A required member of an object with a closed list of members meets its schema. -/
theorem member_of_object {keys names : List String} {members : List (String × Schema)} {v : Json}
    (h : allOf [type [.object], closed keys, required names, properties members] v = true)
    (key : String) (schema : Schema) (hkey : key ∈ names) (hmember : (key, schema) ∈ members) :
    ∃ w, v.get? key = some w ∧ schema w = true := by
  have hparts := allOf_iff.mp h
  obtain ⟨fields, rfl⟩ := isObj_of_type (hparts _ (by simp))
  obtain ⟨w, hw⟩ := get?_of_required (hparts _ (by simp)) hkey
  exact ⟨w, hw, of_properties (hparts _ (by simp)) hmember hw⟩

/-- An array whose schema is one for its items among others. -/
theorem arr_of_items {schemas : List Schema} {item : Schema} {v : Json}
    (h : allOf (type [.array] :: schemas) v = true) (hitems : items item ∈ schemas) :
    ∃ xs, v = .arr xs ∧ ∀ x ∈ xs, item x = true := by
  have hparts := allOf_iff.mp h
  obtain ⟨xs, rfl⟩ := isArr_of_type (hparts _ List.mem_cons_self)
  have hall : items item (.arr xs) = true := hparts _ (List.mem_cons_of_mem _ hitems)
  exact ⟨xs, rfl, List.all_eq_true.mp hall⟩

theorem str_of_strings {schemas : List Schema} {v : Json}
    (h : allOf (type [.string] :: schemas) v = true) :
    ∃ s, v = .str s ∧ ∀ schema ∈ schemas, schema (.str s) = true := by
  have hparts := allOf_iff.mp h
  obtain ⟨s, rfl⟩ := isStr_of_type (hparts _ List.mem_cons_self)
  exact ⟨s, rfl, fun schema hmem => hparts schema (List.mem_cons_of_mem _ hmem)⟩

/-- A text that meets the keyword beside its type. -/
theorem of_text {schema : Schema} (s : String) (h : schema (.str s) = true) :
    allOf [type [.string], schema] (.str s) = true := by
  rw [allOf_iff]
  simp only [List.forall_mem_cons, List.not_mem_nil, false_imp_iff, implies_true, and_true]
  exact ⟨rfl, h⟩

theorem str_of_enum {names : List String} {v : Json} (h : enum (names.map .str) v = true) :
    ∃ s ∈ names, v = .str s := by
  obtain ⟨s, hs, rfl⟩ := List.mem_map.mp (of_decide_eq_true h)
  exact ⟨s, hs, rfl⟩

/-- A matched id is its prefix and enough word characters, and perhaps a line break. -/
theorem isPrefixedId_iff {pre : String} {least : ℕ} {s : String} :
    isPrefixedId pre least s = true ↔
      ∃ body tail : List Char, s.toList = pre.toList ++ (body ++ tail) ∧ least ≤ body.length ∧
        (∀ c ∈ body, isWordChar c = true) ∧ (tail = [] ∨ tail = ['\n']) := by
  have hmatch : ∀ cs : List Char,
      decide (pre.toList.isPrefixOf cs = true ∧ least ≤ (cs.drop pre.toList.length).length ∧
        (cs.drop pre.toList.length).all isWordChar = true) = true ↔
      ∃ body, cs = pre.toList ++ body ∧ least ≤ body.length ∧ ∀ c ∈ body, isWordChar c = true := by
    intro cs
    rw [decide_eq_true_eq, List.isPrefixOf_iff_prefix, List.all_eq_true]
    constructor
    · rintro ⟨⟨body, rfl⟩, hlen, hall⟩
      rw [List.drop_left] at hlen hall
      exact ⟨body, rfl, hlen, hall⟩
    · rintro ⟨body, rfl, hlen, hall⟩
      rw [List.drop_left]
      exact ⟨⟨body, rfl⟩, hlen, hall⟩
  rw [isPrefixedId, matchesToEnd, decide_eq_true_eq, hmatch, hmatch]
  constructor
  · rintro (⟨body, hs, hlen, hall⟩ | ⟨hlast, body, hs, hlen, hall⟩)
    · exact ⟨body, [], by rw [hs, List.append_nil], hlen, hall, Or.inl rfl⟩
    · refine ⟨body, ['\n'], ?_, hlen, hall, Or.inr rfl⟩
      rw [← List.append_assoc, ← hs]
      exact (List.dropLast_append_getLast? _ hlast).symm
  · rintro ⟨body, tail, hs, hlen, hall, rfl | rfl⟩
    · exact Or.inl ⟨body, by rw [hs, List.append_nil], hlen, hall⟩
    · refine Or.inr ⟨?_, body, ?_, hlen, hall⟩
      · rw [hs, ← List.append_assoc, List.getLast?_append]
        rfl
      · rw [hs, ← List.append_assoc, List.dropLast_concat]

theorem length_of_isPrefixedId {kind s : String} {least : ℕ}
    (h : isPrefixedId kind least s = true) : kind.toList.length + least ≤ s.toList.length := by
  obtain ⟨body, tail, htext, hlen, -⟩ := isPrefixedId_iff.mp h
  rw [htext, List.length_append, List.length_append]
  omega

end Schema

end Base
