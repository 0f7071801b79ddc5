import Mathlib.Algebra.GroupWithZero.Nat
import Mathlib.Data.List.Basic
import Mathlib.Data.List.Infix
import Mathlib.Data.String.Basic
import Mathlib.Order.Basic

/-!
# Python text

The string operations and the built-in exceptions the translated sources rely on.  Text is
`String`; prefixes, slices and searches work on the list of code points, which is what
Python indexes.  Nothing here depends on the program being modelled.
-/

namespace Base

-- Statements about the characters of a text are decided on the text, not on every character.
instance (priority := high) decidableForallMem {α : Type} (p : α → Prop) [DecidablePred p]
    (xs : List α) : Decidable (∀ x ∈ xs, p x) :=
  List.decidableBAll p xs

instance (priority := high) decidableExistsMem {α : Type} (p : α → Prop) [DecidablePred p]
    (xs : List α) : Decidable (∃ x ∈ xs, p x) :=
  List.decidableBEx p xs

instance (priority := high) lawfulBEqTexts : @LawfulBEq (List String) List.instBEq := inferInstance

/-- The built-in exception classes a translated function can raise. -/
inductive PyClass where
  | keyError
  | typeError
  | indexError
  | attributeError
  | valueError
  | fileNotFoundError
  | fileExistsError
  | osError
  | unicodeDecodeError
  | jsonDecodeError
  | runtimeError
  | zeroDivisionError
  deriving DecidableEq, Repr

/-- A built-in exception; the message is empty where the interpreter words it. -/
structure PyException where
  cls : PyClass
  message : String
  deriving DecidableEq, Repr

namespace PyException

def keyError (key : String) : PyException := ⟨.keyError, key⟩
def typeError : PyException := ⟨.typeError, ""⟩
def indexError : PyException := ⟨.indexError, ""⟩
def attributeError : PyException := ⟨.attributeError, ""⟩
def valueError (message : String) : PyException := ⟨.valueError, message⟩
def fileNotFoundError (path : String) : PyException := ⟨.fileNotFoundError, path⟩
def fileExistsError : PyException := ⟨.fileExistsError, ""⟩
def osError : PyException := ⟨.osError, ""⟩
def unicodeDecodeError : PyException := ⟨.unicodeDecodeError, ""⟩
def jsonDecodeError : PyException := ⟨.jsonDecodeError, ""⟩
def runtimeError (message : String) : PyException := ⟨.runtimeError, message⟩

end PyException

/-- `issubclass(cls, ValueError)` -/
def PyClass.isValueError : PyClass → Bool
  | .valueError | .unicodeDecodeError | .jsonDecodeError => true
  | _ => false

/-- `issubclass(cls, OSError)` -/
def PyClass.isOSError : PyClass → Bool
  | .osError | .fileNotFoundError | .fileExistsError => true
  | _ => false

theorem bind_eq_ok {ε α β : Type} {x : Except ε α} {f : α → Except ε β} {b : β} :
    (x >>= f) = .ok b ↔ ∃ a, x = .ok a ∧ f a = .ok b := by
  cases x with
  | error e =>
      constructor
      · intro h
        cases h
      · rintro ⟨a, ha, -⟩
        cases ha
  | ok a =>
      constructor
      · intro h
        exact ⟨a, rfl, h⟩
      · rintro ⟨a', ha, h⟩
        cases ha
        exact h

namespace Text

def startsWith (s p : String) : Bool := p.toList.isPrefixOf s.toList

def endsWith (s p : String) : Bool := p.toList.isSuffixOf s.toList

def take (s : String) (n : ℕ) : String := String.ofList (s.toList.take n)

def drop (s : String) (n : ℕ) : String := String.ofList (s.toList.drop n)

def removePrefix (s p : String) : String :=
  if startsWith s p then drop s p.toList.length else s

def lstrip (s : String) (c : Char) : String := String.ofList (s.toList.dropWhile (· = c))

def strip (s : String) (c : Char) : String :=
  String.ofList ((s.toList.dropWhile (· = c)).reverse.dropWhile (· = c)).reverse

/-- The characters `s.strip()` removes. -/
def isWhitespace (c : Char) : Bool :=
  let n := c.toNat
  (9 ≤ n ∧ n ≤ 13) ∨ (28 ≤ n ∧ n ≤ 32) ∨ n = 0x85 ∨ n = 0xa0 ∨ n = 0x1680 ∨
    (0x2000 ≤ n ∧ n ≤ 0x200a) ∨ n = 0x2028 ∨ n = 0x2029 ∨ n = 0x202f ∨ n = 0x205f ∨ n = 0x3000

/-- `not s.strip()` -/
def isBlank (s : String) : Bool := s.toList.all isWhitespace

/-- `s.strip()` -/
def trim (s : String) : String :=
  String.ofList ((s.toList.dropWhile isWhitespace).reverse.dropWhile isWhitespace).reverse

/-- `needle in s` -/
def occursIn (needle s : String) : Bool := needle.toList <:+: s.toList

def join (sep : String) : List String → String
  | [] => ""
  | [s] => s
  | s :: t :: rest => s ++ sep ++ join sep (t :: rest)

/-- `repr(s)`: the quote is `'` unless the text has a `'` and no `"`; quotes, backslashes and
the three common line controls are escaped, every other code point is printed as it is. -/
def repr (s : String) : String :=
  let quote : Char := if '\'' ∈ s.toList ∧ '"' ∉ s.toList then '"' else '\''
  let escaped := s.toList.flatMap fun c =>
    if c = quote ∨ c = '\\' then ['\\', c]
    else if c = '\n' then ['\\', 'n']
    else if c = '\r' then ['\\', 'r']
    else if c = '\t' then ['\\', 't']
    else [c]
  String.ofList ((quote :: escaped) ++ [quote])

theorem startsWith_iff {s p : String} :
    startsWith s p = true ↔ ∃ t : List Char, s.toList = p.toList ++ t := by
  rw [startsWith, List.isPrefixOf_iff_prefix]
  constructor
  · rintro ⟨t, ht⟩
    exact ⟨t, ht.symm⟩
  · rintro ⟨t, ht⟩
    exact ⟨t, ht.symm⟩

theorem startsWith_append (p t : String) : startsWith (p ++ t) p = true :=
  startsWith_iff.mpr ⟨t.toList, String.toList_append⟩

theorem startsWith_append_append (p s t : String) :
    startsWith (p ++ s) (p ++ t) = startsWith s t := by
  rw [Bool.eq_iff_iff, startsWith_iff, startsWith_iff]
  simp only [String.toList_append, List.append_assoc, List.append_cancel_left_eq]

theorem endsWith_iff {s p : String} :
    endsWith s p = true ↔ ∃ t : List Char, s.toList = t ++ p.toList := by
  rw [endsWith, List.isSuffixOf_iff_suffix]
  constructor
  · rintro ⟨t, ht⟩
    exact ⟨t, ht.symm⟩
  · rintro ⟨t, ht⟩
    exact ⟨t, ht.symm⟩

theorem endsWith_append (t p : String) : endsWith (t ++ p) p = true :=
  endsWith_iff.mpr ⟨t.toList, String.toList_append⟩

/-- A text does not end with what its own ending does not end. -/
theorem endsWith_append_eq_false (t : String) {p q : String}
    (hlen : q.toList.length ≤ p.toList.length) (h : endsWith p q = false) :
    endsWith (t ++ q) p = false := by
  rw [Bool.eq_false_iff] at h ⊢
  intro hp
  simp only [endsWith, ne_eq, List.isSuffixOf_iff_suffix] at h hp
  have hq : q.toList <:+ (t ++ q).toList := by
    rw [String.toList_append]
    exact List.suffix_append _ _
  exact h (List.suffix_of_suffix_length_le hq hp hlen)

@[simp] theorem toList_take (s : String) (n : ℕ) : (take s n).toList = s.toList.take n :=
  String.toList_ofList

@[simp] theorem toList_drop (s : String) (n : ℕ) : (drop s n).toList = s.toList.drop n :=
  String.toList_ofList

theorem drop_append_of_length {p t : String} {n : ℕ} (hn : p.toList.length = n) :
    drop (p ++ t) n = t := by
  apply String.toList_inj.mp
  rw [toList_drop, String.toList_append, ← hn, List.drop_left]

theorem removePrefix_append (p t : String) : removePrefix (p ++ t) p = t := by
  rw [removePrefix, if_pos (startsWith_append p t)]
  exact drop_append_of_length rfl

theorem head?_append {p : String} {c : Char} (t : String) (h : p.toList.head? = some c) :
    (p ++ t).toList.head? = some c := by
  rw [String.toList_append, List.head?_append, h]
  rfl

/-- Texts that begin differently differ. -/
theorem append_ne_append {p q : String} {n : ℕ} (s t : String)
    (hp : n ≤ p.toList.length) (hq : n ≤ q.toList.length)
    (h : p.toList.take n ≠ q.toList.take n) : p ++ s ≠ q ++ t := by
  intro heq
  have htake := congrArg (fun x : String => x.toList.take n) heq
  simp only [String.toList_append, List.take_append_of_le_length hp,
    List.take_append_of_le_length hq] at htake
  exact h htake

/-- Two texts that agree after one common prefix agree. -/
theorem append_left_cancel {p s t : String} (h : p ++ s = p ++ t) : s = t := by
  apply String.toList_inj.mp
  have hl := congrArg String.toList h
  simpa only [String.toList_append, List.append_cancel_left_eq] using hl

theorem append_right_cancel {p s t : String} (h : s ++ p = t ++ p) : s = t := by
  apply String.toList_inj.mp
  have hl := congrArg String.toList h
  simpa only [String.toList_append, List.append_cancel_right_eq] using hl

end Text

end Base
