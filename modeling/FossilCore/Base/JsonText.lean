import Mathlib.Data.List.TakeWhile
import Mathlib.Tactic.IntervalCases
import FossilCore.Base.Json

/-!
# JSON text

The encoder `json.dumps(value, sort_keys=True, separators=(",", ":"), ensure_ascii=False)` and
the decoder `json.loads`, both on lists of code points, and their round trip.  The decoder
recurses on a fuel argument; the length of the text is always enough of it.
-/

namespace Base

namespace Json

/-! ## Encoding -/

def escapeChar (c : Char) : List Char :=
  if c = '"' then ['\\', '"']
  else if c = '\\' then ['\\', '\\']
  else if c = '\x08' then ['\\', 'b']
  else if c = '\x0c' then ['\\', 'f']
  else if c = '\n' then ['\\', 'n']
  else if c = '\r' then ['\\', 'r']
  else if c = '\t' then ['\\', 't']
  else if c.toNat < 32 then
    ['\\', 'u', '0', '0', Nat.digitChar (c.toNat / 16), Nat.digitChar (c.toNat % 16)]
  else [c]

def escape (cs : List Char) : List Char := cs.flatMap escapeChar

def printString (s : String) : List Char := '"' :: (escape s.toList ++ ['"'])

def printInt : ℤ → List Char
  | .ofNat n => Nat.toDigits 10 n
  | .negSucc n => '-' :: Nat.toDigits 10 (n + 1)

mutual

def print : Json → List Char
  | .null => "null".toList
  | .bool true => "true".toList
  | .bool false => "false".toList
  | .int n => printInt n
  | .float x => x.text
  | .str s => printString s
  | .arr xs => '[' :: (printItems xs ++ [']'])
  | .obj fs => '\x7b' :: (printFields fs ++ ['\x7d'])

def printItems : List Json → List Char
  | [] => []
  | [x] => print x
  | x :: y :: rest => print x ++ ',' :: printItems (y :: rest)

def printFields : List (String × Json) → List Char
  | [] => []
  | [(k, v)] => printString k ++ ':' :: print v
  | (k, v) :: f :: rest => printString k ++ ':' :: (print v ++ ',' :: printFields (f :: rest))

end

/-- `json.dumps` -/
def dumps (v : Json) : String := String.ofList (print v)

mutual

/-- The text with the default separators, `", "` and `": "`. -/
def printSpaced : Json → List Char
  | .arr xs => '[' :: (printSpacedItems xs ++ [']'])
  | .obj fs => '\x7b' :: (printSpacedFields fs ++ ['\x7d'])
  | v => print v

def printSpacedItems : List Json → List Char
  | [] => []
  | [x] => printSpaced x
  | x :: y :: rest => printSpaced x ++ ',' :: ' ' :: printSpacedItems (y :: rest)

def printSpacedFields : List (String × Json) → List Char
  | [] => []
  | [(k, v)] => printString k ++ ':' :: ' ' :: printSpaced v
  | (k, v) :: f :: rest =>
      printString k ++ ':' :: ' ' :: (printSpaced v ++ ',' :: ' ' :: printSpacedFields (f :: rest))

end

/-- `json.dumps` without `separators`. -/
def dumpsSpaced (v : Json) : String := String.ofList (printSpaced v)

/-! ## Decoding -/

def isSpace (c : Char) : Bool := c = ' ' || c = '\t' || c = '\n' || c = '\r'

def skipSpace (cs : List Char) : List Char := cs.dropWhile isSpace

def hexValue? (c : Char) : Option ℕ :=
  if c.isDigit then some (c.toNat - '0'.toNat)
  else if 'a' ≤ c ∧ c ≤ 'f' then some (c.toNat - 'a'.toNat + 10)
  else if 'A' ≤ c ∧ c ≤ 'F' then some (c.toNat - 'A'.toNat + 10)
  else none

def parseHex : List Char → Option (ℕ × List Char)
  | a :: b :: c :: d :: rest => do
      let a ← hexValue? a
      let b ← hexValue? b
      let c ← hexValue? c
      let d ← hexValue? d
      return (((a * 16 + b) * 16 + c) * 16 + d, rest)
  | _ => none

def parseUnicode (cs : List Char) : Option (Char × List Char) := do
  let (code, rest) ← parseHex cs
  if 0xd800 ≤ code ∧ code ≤ 0xdbff then
    -- The first half of a pair; a half on its own is no code point.
    if rest.take 2 = ['\\', 'u'] then
      let (low, rest) ← parseHex (rest.drop 2)
      if 0xdc00 ≤ low ∧ low ≤ 0xdfff then
        return (Char.ofNat (0x10000 + (code - 0xd800) * 0x400 + (low - 0xdc00)), rest)
      else none
    else none
  else if 0xdc00 ≤ code ∧ code ≤ 0xdfff then none
  else return (Char.ofNat code, rest)

/-- The character an escape stands for, after its backslash. -/
def parseEscape : List Char → Option (Char × List Char)
  | [] => none
  | c :: rest =>
      if c = '"' ∨ c = '\\' ∨ c = '/' then some (c, rest)
      else if c = 'b' then some ('\x08', rest)
      else if c = 'f' then some ('\x0c', rest)
      else if c = 'n' then some ('\n', rest)
      else if c = 'r' then some ('\r', rest)
      else if c = 't' then some ('\t', rest)
      else if c = 'u' then parseUnicode rest
      else none

/-- The characters up to the closing quote. -/
def parseChars : ℕ → List Char → Option (List Char × List Char)
  | 0, _ => none
  | _ + 1, [] => none
  | fuel + 1, c :: rest =>
      if c = '"' then some ([], rest)
      else if c = '\\' then do
        let (d, rest) ← parseEscape rest
        let (ds, rest) ← parseChars fuel rest
        return (d :: ds, rest)
      else if c.toNat < 32 then none
      else do
        let (ds, rest) ← parseChars fuel rest
        return (c :: ds, rest)

def readInt (cs : List Char) : ℤ :=
  if cs.head? = some '-' then -(Nat.ofDigitChars 10 cs.tail 0 : ℤ) else Nat.ofDigitChars 10 cs 0

/-- The value a number or a name denotes. -/
def readToken (cs : List Char) : Option Json :=
  if cs = "null".toList then some .null
  else if cs = "true".toList then some (.bool true)
  else if cs = "false".toList then some (.bool false)
  else if isIntText cs then some (.int (readInt cs))
  else if h : isFloatText cs = true then some (.float ⟨cs, h⟩)
  else none

mutual

def parseValue : ℕ → List Char → Option (Json × List Char)
  | 0, _ => none
  | _ + 1, [] => none
  | fuel + 1, c :: rest =>
      if c = '"' then do
        let (cs, rest) ← parseChars (fuel + 1) rest
        return (.str (String.ofList cs), rest)
      else if c = '[' then
        match skipSpace rest with
        | ']' :: rest => some (.arr [], rest)
        | rest => do
            let (xs, rest) ← parseItems fuel rest
            return (.arr xs, rest)
      else if c = '\x7b' then
        match skipSpace rest with
        | '\x7d' :: rest => some (.obj [], rest)
        | rest => do
            let (ms, rest) ← parseMembers fuel rest
            return (ofMembers ms, rest)
      else do
        let v ← readToken ((c :: rest).takeWhile isTokenChar)
        return (v, (c :: rest).dropWhile isTokenChar)

def parseItems : ℕ → List Char → Option (List Json × List Char)
  | 0, _ => none
  | fuel + 1, cs => do
      let (x, rest) ← parseValue fuel cs
      match skipSpace rest with
      | ']' :: rest => return ([x], rest)
      | ',' :: rest =>
          let (xs, rest) ← parseItems fuel (skipSpace rest)
          return (x :: xs, rest)
      | _ => none

def parseMembers : ℕ → List Char → Option (List (String × Json) × List Char)
  | 0, _ => none
  | _ + 1, [] => none
  | fuel + 1, c :: cs =>
      if c = '"' then do
        let (k, rest) ← parseChars (fuel + 1) cs
        match skipSpace rest with
        | ':' :: rest =>
            let (v, rest) ← parseValue fuel (skipSpace rest)
            match skipSpace rest with
            | '\x7d' :: rest => return ([(String.ofList k, v)], rest)
            | ',' :: rest =>
                let (ms, rest) ← parseMembers fuel (skipSpace rest)
                return ((String.ofList k, v) :: ms, rest)
            | _ => none
        | _ => none
      else none

end

/-- `json.loads` -/
def loads (text : String) : Except PyException Json :=
  match parseValue (text.toList.length + 1) (skipSpace text.toList) with
  | some (v, rest) => if skipSpace rest = [] then .ok v else .error .jsonDecodeError
  | none => .error .jsonDecodeError

/-! ## Strings read back -/

theorem hexValue?_digitChar {n : ℕ} (hn : n < 16) : hexValue? (Nat.digitChar n) = some n := by
  interval_cases n <;> decide

theorem parseEscape_control {c : Char} (hc : c.toNat < 32) (rest : List Char) :
    parseEscape ('u' :: '0' :: '0' :: Nat.digitChar (c.toNat / 16) ::
      Nat.digitChar (c.toNat % 16) :: rest) = some (c, rest) := by
  have hzero : hexValue? '0' = some 0 := by decide
  have hhigh := hexValue?_digitChar (n := c.toNat / 16) (by omega)
  have hlow := hexValue?_digitChar (n := c.toNat % 16) (by omega)
  have hsum : c.toNat / 16 * 16 + c.toNat % 16 = c.toNat := Nat.div_add_mod' _ _
  have hnot : ¬ (0xd800 ≤ c.toNat ∧ c.toNat ≤ 0xdbff) := by omega
  have hnot' : ¬ (0xdc00 ≤ c.toNat ∧ c.toNat ≤ 0xdfff) := by omega
  simp [parseEscape, parseUnicode, parseHex, hzero, hhigh, hlow, hsum, hnot, hnot']

theorem parseChars_escapeChar (fuel : ℕ) (c : Char) (rest : List Char) :
    parseChars (fuel + 1) (escapeChar c ++ rest) =
      (parseChars fuel rest).map (fun p => (c :: p.1, p.2)) := by
  have hbind : ∀ o : Option (List Char × List Char),
      (o.bind fun p => some (c :: p.1, p.2)) = o.map (fun p => (c :: p.1, p.2)) := by
    intro o
    cases o <;> rfl
  unfold escapeChar
  by_cases hquote : c = '"'
  · subst hquote
    simp [parseChars, parseEscape, hbind]
  by_cases hslash : c = '\\'
  · subst hslash
    simp [parseChars, parseEscape, hbind]
  by_cases hb : c = '\x08'
  · subst hb
    simp [parseChars, parseEscape, hbind]
  by_cases hf : c = '\x0c'
  · subst hf
    simp [parseChars, parseEscape, hbind]
  by_cases hn : c = '\n'
  · subst hn
    simp [parseChars, parseEscape, hbind]
  by_cases hr : c = '\r'
  · subst hr
    simp [parseChars, parseEscape, hbind]
  by_cases ht : c = '\t'
  · subst ht
    simp [parseChars, parseEscape, hbind]
  by_cases hlow : c.toNat < 32
  · simp only [hquote, hslash, hb, hf, hn, hr, ht, hlow, if_false, if_true, List.cons_append,
      List.nil_append]
    simp [parseChars, parseEscape_control hlow, hbind]
  · simp [hquote, hslash, hb, hf, hn, hr, ht, hlow, parseChars, hbind]

theorem parseChars_escape {cs : List Char} {fuel : ℕ} (h : cs.length < fuel)
    (rest : List Char) :
    parseChars fuel (escape cs ++ '"' :: rest) = some (cs, rest) := by
  induction cs generalizing fuel with
  | nil =>
      obtain ⟨fuel, rfl⟩ := Nat.exists_eq_succ_of_ne_zero (by omega : fuel ≠ 0)
      simp [escape, parseChars]
  | cons c cs ih =>
      obtain ⟨fuel, rfl⟩ := Nat.exists_eq_succ_of_ne_zero (by omega : fuel ≠ 0)
      have hlen : cs.length < fuel := by simpa using h
      have hrest := ih hlen
      have hsplit : escape (c :: cs) = escapeChar c ++ escape cs := by
        simp [escape]
      rw [hsplit, List.append_assoc, parseChars_escapeChar, hrest]
      rfl

theorem length_le_escape (cs : List Char) : cs.length ≤ (escape cs).length := by
  induction cs with
  | nil => simp [escape]
  | cons c cs ih =>
      have hc : 1 ≤ (escapeChar c).length := by
        unfold escapeChar
        split_ifs <;> simp
      have hsplit : escape (c :: cs) = escapeChar c ++ escape cs := by
        simp [escape]
      rw [hsplit, List.length_append, List.length_cons]
      omega

theorem parseChars_printString (s : String) (fuel : ℕ)
    (h : (printString s).length ≤ fuel + 1) (rest : List Char) :
    parseChars fuel (escape s.toList ++ ['"'] ++ rest) = some (s.toList, rest) := by
  have hlen : (printString s).length = (escape s.toList).length + 2 := by
    simp [printString]
  have hle := length_le_escape s.toList
  rw [List.append_assoc]
  exact parseChars_escape (by omega) rest

/-! ## Numbers read back -/

theorem toDigits_head {n : ℕ} (h : (Nat.toDigits 10 n).head? = some '0') : n = 0 := by
  induction n using Nat.strong_induction_on with
  | h n ih =>
      by_cases hn : n < 10
      · interval_cases n <;> revert h <;> decide
      · have hstep := Nat.toDigits_of_base_le (b := 10) (n := n) (by omega) (by omega)
        have hhead : (Nat.toDigits 10 (n / 10)).head? = some '0' := by
          rw [hstep, List.head?_append_of_ne_nil _ Nat.toDigits_ne_nil] at h
          exact h
        have hzero := ih (n / 10) (by omega) hhead
        omega

theorem all_isDigit_toDigits (n : ℕ) : ∀ c ∈ Nat.toDigits 10 n, c.isDigit = true :=
  fun _ hc => Nat.isDigit_of_mem_toDigits (by omega) (by omega) hc

theorem isWhole_toDigits (n : ℕ) : isWhole (Nat.toDigits 10 n) = true := by
  have hzero : (Nat.toDigits 10 n).head? = some '0' → Nat.toDigits 10 n = ['0'] := by
    intro h
    rw [toDigits_head h]
    decide
  rw [isWhole, decide_eq_true_eq]
  exact ⟨Nat.toDigits_ne_nil, hzero⟩

theorem head_toDigits_ne_minus (n : ℕ) : (Nat.toDigits 10 n).head? ≠ some '-' := by
  intro h
  have hmem := List.mem_of_head? h
  exact absurd (all_isDigit_toDigits n _ hmem) (by decide)

theorem afterSign_printInt (n : ℤ) : afterSign (printInt n) = Nat.toDigits 10 n.natAbs := by
  cases n with
  | ofNat n => simp [afterSign, printInt, head_toDigits_ne_minus]
  | negSucc n => simp [afterSign, printInt]

theorem isIntText_printInt (n : ℤ) : isIntText (printInt n) = true := by
  have hdigits := all_isDigit_toDigits n.natAbs
  have htake : wholeDigits (printInt n) = Nat.toDigits 10 n.natAbs := by
    rw [wholeDigits, afterSign_printInt]
    exact List.takeWhile_eq_self_iff.mpr hdigits
  have hdrop : afterWhole (printInt n) = [] := by
    rw [afterWhole, afterSign_printInt]
    exact List.dropWhile_eq_nil_iff.mpr hdigits
  simp [isIntText, htake, hdrop, isWhole_toDigits]

theorem readInt_printInt (n : ℤ) : readInt (printInt n) = n := by
  cases n with
  | ofNat n =>
      have hread := Nat.ofDigitChars_toDigits (b := 10) (n := n) (by omega) (by omega)
      simp [readInt, printInt, head_toDigits_ne_minus, hread]
  | negSucc n =>
      have hread := Nat.ofDigitChars_toDigits (b := 10) (n := n + 1) (by omega) (by omega)
      simp [readInt, printInt, hread, Int.negSucc_eq]

theorem isTokenChar_of_isDigit {c : Char} (h : c.isDigit = true) : isTokenChar c = true := by
  simp [isTokenChar, Char.isAlphanum, h]

theorem all_isTokenChar_printInt (n : ℤ) : ∀ c ∈ printInt n, isTokenChar c = true := by
  intro c hc
  cases n with
  | ofNat n => exact isTokenChar_of_isDigit (all_isDigit_toDigits n c hc)
  | negSucc n =>
      rcases List.mem_cons.mp hc with rfl | hc
      · decide
      · exact isTokenChar_of_isDigit (all_isDigit_toDigits (n + 1) c hc)

theorem readToken_printInt (n : ℤ) : readToken (printInt n) = some (.int n) := by
  have hint := isIntText_printInt n
  have hne : ∀ t : List Char, isIntText t = false → printInt n ≠ t := by
    intro t ht heq
    rw [heq, ht] at hint
    cases hint
  rw [readToken, if_neg (hne _ (by decide)), if_neg (hne _ (by decide)),
    if_neg (hne _ (by decide)), if_pos hint, readInt_printInt]

theorem readToken_float (x : FloatText) : readToken x.text = some (.float x) := by
  have hfloat := x.ok
  have hne : ∀ t : List Char, isFloatText t = false → x.text ≠ t := by
    intro t ht heq
    rw [heq, ht] at hfloat
    cases hfloat
  have hint : isIntText x.text ≠ true := by
    intro hint
    rw [isIntText, decide_eq_true_eq] at hint
    have hnamed : ∀ t : List Char, isIntText t = false → x.text ≠ t := by
      intro t ht heq
      rw [← heq, isIntText, decide_eq_false_iff_not] at ht
      exact ht hint
    rw [isFloatText, decide_eq_true_eq] at hfloat
    rcases hfloat.2 with h | h | h | h
    · exact hnamed _ (by decide) h
    · exact hnamed _ (by decide) h
    · exact hnamed _ (by decide) h
    · exact h.2.1 hint.2
  rw [readToken, if_neg (hne _ (by decide)), if_neg (hne _ (by decide)),
    if_neg (hne _ (by decide)), if_neg hint, dif_pos x.ok]

theorem all_isTokenChar_float (x : FloatText) : ∀ c ∈ x.text, isTokenChar c = true := by
  have hfloat := x.ok
  rw [isFloatText, decide_eq_true_eq] at hfloat
  exact List.all_eq_true.mp hfloat.1

/-! ## Values read back -/

/-- What may follow a number or a name for it to end there. -/
def Delimited (rest : List Char) : Prop := ∀ c, rest.head? = some c → isTokenChar c = false

theorem delimited_nil : Delimited [] := by
  intro c hc
  cases hc

theorem delimited_cons {c : Char} {rest : List Char} (h : isTokenChar c = false) :
    Delimited (c :: rest) := by
  intro d hd
  cases hd
  exact h

theorem takeWhile_token {token rest : List Char} (h : ∀ c ∈ token, isTokenChar c = true)
    (hrest : Delimited rest) : (token ++ rest).takeWhile isTokenChar = token := by
  rw [List.takeWhile_append_of_pos h]
  cases rest with
  | nil => simp
  | cons c rest => simp [hrest c rfl]

theorem dropWhile_token {token rest : List Char} (h : ∀ c ∈ token, isTokenChar c = true)
    (hrest : Delimited rest) : (token ++ rest).dropWhile isTokenChar = rest := by
  rw [List.dropWhile_append_of_pos h]
  cases rest with
  | nil => simp
  | cons c rest => simp [hrest c rfl]

theorem parseValue_token {token rest : List Char} {v : Json} {fuel : ℕ}
    (htoken : ∀ c ∈ token, isTokenChar c = true) (hne : token ≠ [])
    (hread : readToken token = some v) (hrest : Delimited rest) :
    parseValue (fuel + 1) (token ++ rest) = some (v, rest) := by
  have htake := takeWhile_token htoken hrest
  have hdrop := dropWhile_token htoken hrest
  cases token with
  | nil => exact absurd rfl hne
  | cons c cs =>
      have hc := htoken c List.mem_cons_self
      have hquote : c ≠ '"' := by rintro rfl; exact absurd hc (by decide)
      have hbracket : c ≠ '[' := by rintro rfl; exact absurd hc (by decide)
      have hbrace : c ≠ '\x7b' := by rintro rfl; exact absurd hc (by decide)
      rw [List.cons_append] at htake hdrop ⊢
      simp [parseValue, hquote, hbracket, hbrace, htake, hdrop, hread]

/-- The first character of an encoded value: no space, and no closing bracket. -/
theorem print_eq_cons (v : Json) :
    ∃ c cs, v.print = c :: cs ∧ isSpace c = false ∧ c ≠ ']' := by
  have htoken : ∀ t : List Char, t ≠ [] → (∀ c ∈ t, isTokenChar c = true) →
      ∃ c cs, t = c :: cs ∧ isSpace c = false ∧ c ≠ ']' := by
    intro t ht hall
    obtain ⟨c, cs, rfl⟩ := List.exists_cons_of_ne_nil ht
    have hc := hall c List.mem_cons_self
    refine ⟨c, cs, rfl, ?_, ?_⟩
    · have hsp : c ≠ ' ' := by rintro rfl; exact absurd hc (by decide)
      have htab : c ≠ '\t' := by rintro rfl; exact absurd hc (by decide)
      have hnl : c ≠ '\n' := by rintro rfl; exact absurd hc (by decide)
      have hcr : c ≠ '\r' := by rintro rfl; exact absurd hc (by decide)
      simp [isSpace, hsp, htab, hnl, hcr]
    · rintro rfl
      exact absurd hc (by decide)
  cases v with
  | null =>
      apply htoken _ (by simp [print])
      simp only [print]
      exact List.all_eq_true.mp (by decide)
  | bool b =>
      cases b
      · apply htoken _ (by simp [print])
        simp only [print]
        exact List.all_eq_true.mp (by decide)
      · apply htoken _ (by simp [print])
        simp only [print]
        exact List.all_eq_true.mp (by decide)
  | int n =>
      refine htoken _ ?_ (by simpa only [print] using all_isTokenChar_printInt n)
      cases n with
      | ofNat n => simp [print, printInt, Nat.toDigits_ne_nil]
      | negSucc n => simp [print, printInt]
  | float x =>
      refine htoken _ ?_ (by simpa only [print] using all_isTokenChar_float x)
      intro hnil
      have hok := x.ok
      rw [print] at hnil
      rw [hnil] at hok
      exact absurd hok (by decide)
  | str s => exact ⟨'"', _, by rw [print, printString], by decide, by decide⟩
  | arr xs => exact ⟨'[', _, by rw [print], by decide, by decide⟩
  | obj fs => exact ⟨'\x7b', _, by rw [print], by decide, by decide⟩

theorem skipSpace_cons {c : Char} {cs : List Char} (h : isSpace c = false) :
    skipSpace (c :: cs) = c :: cs := by
  simp [skipSpace, h]

theorem skipSpace_print (v : Json) (rest : List Char) :
    skipSpace (v.print ++ rest) = v.print ++ rest := by
  obtain ⟨c, cs, hv, hc, -⟩ := print_eq_cons v
  rw [hv, List.cons_append, skipSpace_cons hc]

theorem parseValue_arr {fuel : ℕ} {cs rest : List Char} {xs : List Json}
    (hskip : skipSpace cs = cs) (hhead : cs.head? ≠ some ']')
    (hitems : parseItems fuel cs = some (xs, rest)) :
    parseValue (fuel + 1) ('[' :: cs) = some (.arr xs, rest) := by
  rw [parseValue, if_neg (by decide), if_pos rfl, hskip]
  cases cs with
  | nil => simp [hitems]
  | cons c cs =>
      have hc : c ≠ ']' := fun h => hhead (congrArg some h)
      simp [hc, hitems]

theorem parseItems_last {fuel : ℕ} {cs rest : List Char} {x : Json}
    (hvalue : parseValue fuel cs = some (x, ']' :: rest)) :
    parseItems (fuel + 1) cs = some ([x], rest) := by
  have hskip : skipSpace (']' :: rest) = ']' :: rest := skipSpace_cons (by decide)
  simp [parseItems, hvalue, hskip]

theorem parseItems_more {fuel : ℕ} {cs cs' rest : List Char} {x : Json} {xs : List Json}
    (hvalue : parseValue fuel cs = some (x, ',' :: cs')) (hskip' : skipSpace cs' = cs')
    (hitems : parseItems fuel cs' = some (xs, rest)) :
    parseItems (fuel + 1) cs = some (x :: xs, rest) := by
  have hskip : skipSpace (',' :: cs') = ',' :: cs' := skipSpace_cons (by decide)
  simp [parseItems, hvalue, hskip, hskip', hitems]

theorem parseValue_obj {fuel : ℕ} {cs rest : List Char} {ms : List (String × Json)}
    (hskip : skipSpace cs = cs) (hhead : cs.head? ≠ some '\x7d')
    (hmembers : parseMembers fuel cs = some (ms, rest)) :
    parseValue (fuel + 1) ('\x7b' :: cs) = some (ofMembers ms, rest) := by
  rw [parseValue, if_neg (by decide), if_neg (by decide), if_pos rfl, hskip]
  cases cs with
  | nil => simp [hmembers]
  | cons c cs =>
      have hc : c ≠ '\x7d' := fun h => hhead (congrArg some h)
      simp [hc, hmembers]

theorem parseMembers_last {fuel : ℕ} {cs cs' rest : List Char} {k : String} {v : Json}
    (hkey : parseChars (fuel + 1) cs = some (k.toList, ':' :: cs'))
    (hskip' : skipSpace cs' = cs')
    (hvalue : parseValue fuel cs' = some (v, '\x7d' :: rest)) :
    parseMembers (fuel + 1) ('"' :: cs) = some ([(k, v)], rest) := by
  have hcolon : skipSpace (':' :: cs') = ':' :: cs' := skipSpace_cons (by decide)
  have hbrace : skipSpace ('\x7d' :: rest) = '\x7d' :: rest := skipSpace_cons (by decide)
  simp [parseMembers, hkey, hcolon, hskip', hvalue, hbrace]

theorem parseMembers_more {fuel : ℕ} {cs cs' cs'' rest : List Char} {k : String} {v : Json}
    {ms : List (String × Json)}
    (hkey : parseChars (fuel + 1) cs = some (k.toList, ':' :: cs'))
    (hskip' : skipSpace cs' = cs')
    (hvalue : parseValue fuel cs' = some (v, ',' :: cs'')) (hskip'' : skipSpace cs'' = cs'')
    (hmembers : parseMembers fuel cs'' = some (ms, rest)) :
    parseMembers (fuel + 1) ('"' :: cs) = some ((k, v) :: ms, rest) := by
  have hcolon : skipSpace (':' :: cs') = ':' :: cs' := skipSpace_cons (by decide)
  have hcomma : skipSpace (',' :: cs'') = ',' :: cs'' := skipSpace_cons (by decide)
  simp [parseMembers, hkey, hcolon, hskip', hvalue, hcomma, hskip'', hmembers]

theorem printItems_eq_print_append (x : Json) (xs : List Json) :
    ∃ cs, printItems (x :: xs) = x.print ++ cs := by
  cases xs with
  | nil => exact ⟨[], by simp [printItems]⟩
  | cons y xs => exact ⟨_, by rw [printItems]⟩

theorem skipSpace_printItems (x : Json) (xs : List Json) (rest : List Char) :
    skipSpace (printItems (x :: xs) ++ rest) = printItems (x :: xs) ++ rest := by
  obtain ⟨cs, hcs⟩ := printItems_eq_print_append x xs
  rw [hcs, List.append_assoc, skipSpace_print]

theorem head_printItems (x : Json) (xs : List Json) (rest : List Char) :
    (printItems (x :: xs) ++ rest).head? ≠ some ']' := by
  obtain ⟨cs, hcs⟩ := printItems_eq_print_append x xs
  obtain ⟨c, ds, hx, -, hc⟩ := print_eq_cons x
  rw [hcs, hx]
  simpa using hc

theorem printFields_eq_quote_cons (f : String × Json) (fs : List (String × Json)) :
    ∃ cs, printFields (f :: fs) = '"' :: cs := by
  obtain ⟨k, v⟩ := f
  cases fs with
  | nil => exact ⟨_, by rw [printFields, printString, List.cons_append]⟩
  | cons g fs => exact ⟨_, by rw [printFields, printString, List.cons_append]⟩

theorem skipSpace_printFields (f : String × Json) (fs : List (String × Json))
    (rest : List Char) :
    skipSpace (printFields (f :: fs) ++ rest) = printFields (f :: fs) ++ rest := by
  obtain ⟨cs, hcs⟩ := printFields_eq_quote_cons f fs
  rw [hcs, List.cons_append, skipSpace_cons (by decide)]

theorem head_printFields (f : String × Json) (fs : List (String × Json)) (rest : List Char) :
    (printFields (f :: fs) ++ rest).head? ≠ some '\x7d' := by
  obtain ⟨cs, hcs⟩ := printFields_eq_quote_cons f fs
  rw [hcs, List.cons_append]
  simp

theorem length_print_pos (v : Json) : 0 < v.print.length := by
  obtain ⟨c, cs, hv, -, -⟩ := print_eq_cons v
  simp [hv]

/-- The members of a dictionary in key order are rebuilt as they are. -/
theorem ofMembers_of_pairwise {fs : List (String × Json)}
    (h : (fs.map Prod.fst).Pairwise (· < ·)) : ofMembers fs = .obj fs := by
  suffices hs : ∀ fs pre : List (String × Json),
      ((pre ++ fs).map Prod.fst).Pairwise (· < ·) →
        fs.foldl (fun fields m => insertField m.1 m.2 fields) pre = pre ++ fs by
    rw [ofMembers, hs fs [] (by simpa using h), List.nil_append]
  intro fs
  induction fs with
  | nil => simp
  | cons f fs ih =>
      intro pre hpre
      have hinsert : insertField f.1 f.2 pre = pre ++ [f] := by
        have hbelow : ∀ k ∈ pre.map Prod.fst, k < f.1 := by
          intro k hk
          rw [List.map_append, List.pairwise_append] at hpre
          exact hpre.2.2 k hk f.1 (by simp)
        clear hpre
        induction pre with
        | nil => rfl
        | cons g pre ihp =>
            have hg := hbelow g.1 (by simp)
            rw [insertField, if_neg (not_lt.mpr hg.le), if_neg hg.ne', List.cons_append,
              ihp fun k hk => hbelow k (by simp only [List.map_cons]; exact List.mem_cons_of_mem _ hk)]
      rw [List.foldl_cons, hinsert, ih (pre ++ [f]) (by simpa using hpre)]
      simp

mutual

theorem parseValue_print : ∀ (v : Json) (fuel : ℕ) (rest : List Char), v.WF →
    v.print.length ≤ fuel → Delimited rest → parseValue fuel (v.print ++ rest) = some (v, rest)
  | .null, fuel, rest, _, hlen, hrest => by
      obtain ⟨fuel, rfl⟩ := Nat.exists_eq_succ_of_ne_zero
        (by simp [print] at hlen; omega : fuel ≠ 0)
      simp only [print]
      exact parseValue_token (List.all_eq_true.mp (by decide)) (by decide) (by decide) hrest
  | .bool true, fuel, rest, _, hlen, hrest => by
      obtain ⟨fuel, rfl⟩ := Nat.exists_eq_succ_of_ne_zero
        (by simp [print] at hlen; omega : fuel ≠ 0)
      simp only [print]
      exact parseValue_token (List.all_eq_true.mp (by decide)) (by decide) (by decide) hrest
  | .bool false, fuel, rest, _, hlen, hrest => by
      obtain ⟨fuel, rfl⟩ := Nat.exists_eq_succ_of_ne_zero
        (by simp [print] at hlen; omega : fuel ≠ 0)
      simp only [print]
      exact parseValue_token (List.all_eq_true.mp (by decide)) (by decide) (by decide) hrest
  | .int n, fuel, rest, _, hlen, hrest => by
      have hpos := length_print_pos (.int n)
      obtain ⟨fuel, rfl⟩ := Nat.exists_eq_succ_of_ne_zero (by omega : fuel ≠ 0)
      simp only [print] at hpos ⊢
      exact parseValue_token (all_isTokenChar_printInt n) (List.ne_nil_of_length_pos hpos)
        (readToken_printInt n) hrest
  | .float x, fuel, rest, _, hlen, hrest => by
      have hpos := length_print_pos (.float x)
      obtain ⟨fuel, rfl⟩ := Nat.exists_eq_succ_of_ne_zero (by omega : fuel ≠ 0)
      simp only [print] at hpos ⊢
      exact parseValue_token (all_isTokenChar_float x) (List.ne_nil_of_length_pos hpos)
        (readToken_float x) hrest
  | .str s, fuel, rest, _, hlen, _ => by
      have hpos := length_print_pos (.str s)
      obtain ⟨fuel, rfl⟩ := Nat.exists_eq_succ_of_ne_zero (by omega : fuel ≠ 0)
      simp only [print] at hlen ⊢
      have hchars := parseChars_printString s (fuel + 1) (by omega) rest
      rw [printString, List.cons_append, parseValue, if_pos rfl, hchars]
      simp
  | .arr [], fuel, rest, _, hlen, _ => by
      have hpos := length_print_pos (.arr [])
      obtain ⟨fuel, rfl⟩ := Nat.exists_eq_succ_of_ne_zero (by omega : fuel ≠ 0)
      have hskip : skipSpace (']' :: rest) = ']' :: rest := skipSpace_cons (by decide)
      simp [print, printItems, parseValue, hskip]
  | .arr (x :: xs), fuel, rest, hwf, hlen, _ => by
      simp only [WF] at hwf
      simp only [print, List.length_cons, List.length_append, List.length_nil] at hlen
      obtain ⟨fuel, rfl⟩ := Nat.exists_eq_succ_of_ne_zero (by omega : fuel ≠ 0)
      have hitems := parseItems_print x xs fuel rest hwf (by omega)
      simp only [print, List.cons_append, List.append_assoc, List.nil_append]
      exact parseValue_arr (skipSpace_printItems x xs _) (head_printItems x xs _) hitems
  | .obj [], fuel, rest, _, hlen, _ => by
      have hpos := length_print_pos (.obj [])
      obtain ⟨fuel, rfl⟩ := Nat.exists_eq_succ_of_ne_zero (by omega : fuel ≠ 0)
      have hskip : skipSpace ('\x7d' :: rest) = '\x7d' :: rest := skipSpace_cons (by decide)
      simp [print, printFields, parseValue, hskip]
  | .obj (f :: fs), fuel, rest, hwf, hlen, _ => by
      simp only [WF] at hwf
      simp only [print, List.length_cons, List.length_append, List.length_nil] at hlen
      obtain ⟨fuel, rfl⟩ := Nat.exists_eq_succ_of_ne_zero (by omega : fuel ≠ 0)
      have hmembers := parseMembers_print f fs fuel rest hwf.2 (by omega)
      simp only [print, List.cons_append, List.append_assoc, List.nil_append]
      rw [← ofMembers_of_pairwise hwf.1]
      exact parseValue_obj (skipSpace_printFields f fs _) (head_printFields f fs _) hmembers

theorem parseItems_print : ∀ (x : Json) (xs : List Json) (fuel : ℕ) (rest : List Char),
    WFItems (x :: xs) → (printItems (x :: xs)).length < fuel →
    parseItems fuel (printItems (x :: xs) ++ ']' :: rest) = some (x :: xs, rest)
  | x, [], fuel, rest, hwf, hlen => by
      obtain ⟨fuel, rfl⟩ := Nat.exists_eq_succ_of_ne_zero (by omega : fuel ≠ 0)
      simp only [printItems] at hlen ⊢
      exact parseItems_last
        (parseValue_print x fuel _ hwf.1 (by omega) (delimited_cons (by decide)))
  | x, y :: xs, fuel, rest, hwf, hlen => by
      obtain ⟨fuel, rfl⟩ := Nat.exists_eq_succ_of_ne_zero (by omega : fuel ≠ 0)
      rw [printItems] at hlen ⊢
      simp only [List.length_append, List.length_cons] at hlen
      have hitems := parseItems_print y xs fuel rest hwf.2 (by omega)
      have hvalue := parseValue_print x fuel (',' :: (printItems (y :: xs) ++ ']' :: rest))
        hwf.1 (by omega) (delimited_cons (by decide))
      rw [List.append_assoc, List.cons_append]
      exact parseItems_more hvalue (skipSpace_printItems y xs _) hitems

theorem parseMembers_print : ∀ (f : String × Json) (fs : List (String × Json)) (fuel : ℕ)
    (rest : List Char), WFFields (f :: fs) → (printFields (f :: fs)).length < fuel →
    parseMembers fuel (printFields (f :: fs) ++ '\x7d' :: rest) = some (f :: fs, rest)
  | (k, v), [], fuel, rest, hwf, hlen => by
      obtain ⟨fuel, rfl⟩ := Nat.exists_eq_succ_of_ne_zero (by omega : fuel ≠ 0)
      simp only [printFields, List.length_append, List.length_cons] at hlen ⊢
      have hkey := parseChars_printString k (fuel + 1) (by omega)
        (':' :: (v.print ++ '\x7d' :: rest))
      have hvalue := parseValue_print v fuel ('\x7d' :: rest) hwf.1 (by omega)
        (delimited_cons (by decide))
      simp only [printString, List.cons_append, List.append_assoc, List.nil_append] at hkey ⊢
      exact parseMembers_last hkey (skipSpace_print v _) hvalue
  | (k, v), f :: fs, fuel, rest, hwf, hlen => by
      obtain ⟨fuel, rfl⟩ := Nat.exists_eq_succ_of_ne_zero (by omega : fuel ≠ 0)
      rw [printFields] at hlen ⊢
      simp only [List.length_append, List.length_cons] at hlen
      have hmembers := parseMembers_print f fs fuel rest hwf.2 (by omega)
      have hvalue := parseValue_print v fuel (',' :: (printFields (f :: fs) ++ '\x7d' :: rest))
        hwf.1 (by omega) (delimited_cons (by decide))
      have hkey := parseChars_printString k (fuel + 1) (by omega)
        (':' :: (v.print ++ ',' :: (printFields (f :: fs) ++ '\x7d' :: rest)))
      simp only [printString, List.cons_append, List.append_assoc, List.nil_append] at hkey ⊢
      exact parseMembers_more hkey (skipSpace_print v _) hvalue (skipSpace_printFields f fs _)
        hmembers

end

/-- Decoding an encoded value, with or without a final line break, gives it back. -/
theorem loads_dumps_append {v : Json} (hv : v.WF) (tail : String)
    (htail : skipSpace tail.toList = []) : loads (dumps v ++ tail) = .ok v := by
  have hdelim : Delimited tail.toList := by
    intro c hc
    cases htl : tail.toList with
    | nil => simp [htl] at hc
    | cons d ds =>
        have hdc : d = c := by simpa [htl] using hc
        subst hdc
        have hspace : isSpace d = true := by
          rw [htl, skipSpace, List.dropWhile_eq_nil_iff] at htail
          exact htail d List.mem_cons_self
        by_contra htoken
        have hcases : d = ' ' ∨ d = '\t' ∨ d = '\n' ∨ d = '\r' := by
          simpa [isSpace, or_assoc] using hspace
        rcases hcases with rfl | rfl | rfl | rfl <;> exact htoken (by decide)
  have hlist : (dumps v ++ tail).toList = v.print ++ tail.toList := by
    rw [String.toList_append, dumps, String.toList_ofList]
  have hparse := parseValue_print v ((v.print ++ tail.toList).length + 1) tail.toList hv
    (by rw [List.length_append]; omega) hdelim
  rw [loads, hlist, skipSpace_print, hparse]
  simp [htail]

theorem dumps_inj {v w : Json} (hv : v.WF) (hw : w.WF) (h : dumps v = dumps w) : v = w := by
  have hload := loads_dumps_append hv "" (by decide)
  rw [h, loads_dumps_append hw "" (by decide)] at hload
  exact (Except.ok.inj hload).symm

/-! ## What is decoded is well formed -/

theorem wf_readToken {cs : List Char} {v : Json} (h : readToken cs = some v) : v.WF := by
  unfold readToken at h
  split_ifs at h <;> cases h <;> simp only [WF]

theorem wf_parse (fuel : ℕ) :
    (∀ cs v rest, parseValue fuel cs = some (v, rest) → v.WF) ∧
      (∀ cs xs rest, parseItems fuel cs = some (xs, rest) → WFItems xs) ∧
      ∀ cs ms rest, parseMembers fuel cs = some (ms, rest) → ∀ m ∈ ms, m.2.WF := by
  induction fuel with
  | zero =>
      refine ⟨?_, ?_, ?_⟩
      · intro cs v rest h
        cases h
      · intro cs xs rest h
        cases h
      · intro cs ms rest h
        cases h
  | succ fuel ih =>
      obtain ⟨hvalue, hitems, hmembers⟩ := ih
      refine ⟨?_, ?_, ?_⟩
      · intro cs v rest h
        cases cs with
        | nil => cases h
        | cons c cs =>
            simp only [parseValue] at h
            split_ifs at h
            · obtain ⟨⟨chars, rest'⟩, -, h⟩ := Option.bind_eq_some_iff.mp h
              cases h
              exact wf_str _
            · split at h
              · cases h
                trivial
              · obtain ⟨⟨xs, rest'⟩, hxs, h⟩ := Option.bind_eq_some_iff.mp h
                cases h
                exact hitems _ _ _ hxs
            · split at h
              · cases h
                exact ⟨List.Pairwise.nil, trivial⟩
              · obtain ⟨⟨ms, rest'⟩, hms, h⟩ := Option.bind_eq_some_iff.mp h
                cases h
                exact wf_ofMembers (hmembers _ _ _ hms)
            · obtain ⟨w, hw, h⟩ := Option.bind_eq_some_iff.mp h
              cases h
              exact wf_readToken hw
      · intro cs xs rest h
        simp only [parseItems] at h
        obtain ⟨⟨x, rest'⟩, hx, h⟩ := Option.bind_eq_some_iff.mp h
        dsimp only at h
        split at h
        · cases h
          exact ⟨hvalue _ _ _ hx, trivial⟩
        · obtain ⟨⟨ys, rest''⟩, hys, h⟩ := Option.bind_eq_some_iff.mp h
          cases h
          exact ⟨hvalue _ _ _ hx, hitems _ _ _ hys⟩
        · cases h
      · intro cs ms rest h
        cases cs with
        | nil => cases h
        | cons c cs =>
            simp only [parseMembers] at h
            split_ifs at h
            obtain ⟨⟨k, rest₁⟩, -, h⟩ := Option.bind_eq_some_iff.mp h
            dsimp only at h
            split at h
            · obtain ⟨⟨v, rest₂⟩, hv, h⟩ := Option.bind_eq_some_iff.mp h
              dsimp only at h
              split at h
              · cases h
                intro m hm
                obtain rfl := List.mem_singleton.mp hm
                exact hvalue _ _ _ hv
              · obtain ⟨⟨more, rest₃⟩, hmore, h⟩ := Option.bind_eq_some_iff.mp h
                cases h
                intro m hm
                rcases List.mem_cons.mp hm with rfl | hm
                · exact hvalue _ _ _ hv
                · exact hmembers _ _ _ hmore m hm
              · cases h
            · cases h

theorem wf_loads {text : String} {v : Json} (h : loads text = .ok v) : v.WF := by
  unfold loads at h
  split at h
  · next w rest hparse =>
    split_ifs at h
    cases h
    exact (wf_parse _).1 _ _ _ hparse
  · cases h

end Json

end Base
