import FossilCore.Base.Latest
import FossilCore.Base.Lines
import Mathlib.Data.List.TakeWhile

/-!
# Multiline patterns

Regular expressions that start with `^` and are matched in multiline mode.  A repetition takes as
many characters as it can; where what follows it never starts with a character that it takes, a
match gives nothing back, and the pattern is a function of the text in front of it.
-/

namespace Base

/-- What a pattern reads from the front of a text, with the text behind the match. -/
abbrev Pattern (α : Type) := StateT (List Char) Option α

namespace Pattern

open Text

variable {α β : Type}

def lit (word : String) : Pattern Unit := fun s =>
  if word.toList <+: s then some ((), s.drop word.toList.length) else none

/-- One character or more of a class. -/
def many (p : Char → Bool) : Pattern String := fun s =>
  if s.takeWhile p = [] then none else some (String.ofList (s.takeWhile p), s.dropWhile p)

/-- `\s+` -/
def spaces : Pattern String := many isWhitespace

/-- `[^\s]+` -/
def token : Pattern String := many fun c => !isWhitespace c

/-- `$` -/
def lineEnd : Pattern Unit := fun s =>
  match s with
  | [] => some ((), [])
  | c :: cs => if c = '\n' then some ((), c :: cs) else none

/-- `\s+name=([^\s]+)` -/
def field (name : String) : Pattern String := do
  let _ ← spaces
  lit (name ++ "=")
  token

/-! ## The lines of a text -/

/-- The texts behind the line feeds of a text. -/
def linesAfter : List Char → List (List Char)
  | [] => []
  | c :: cs => if c = '\n' then cs :: linesAfter cs else linesAfter cs

/-- The texts in front of which `^` holds. -/
def lineStarts (s : List Char) : List (List Char) := s :: linesAfter s

/-- The match of `pattern.search(text)`. -/
def search (m : Pattern α) (text : String) : Option α :=
  (lineStarts text.toList).findSome? fun start => (m.run start).map Prod.fst

/-- The matches at line starts with at most `limit` characters in front of them; the next match
starts behind the last one. -/
def matchesFrom (m : Pattern α) : ℕ → List (List Char) → List α
  | _, [] => []
  | limit, start :: starts =>
      if limit < start.length then matchesFrom m limit starts
      else match m.run start with
        | some (a, rest) => a :: matchesFrom m rest.length starts
        | none => matchesFrom m limit starts

/-- The matches of `pattern.finditer(text)`. -/
def finditer (m : Pattern α) (text : String) : List α :=
  matchesFrom m text.toList.length (lineStarts text.toList)

/-! ## Numbers -/

/-- The zeros of the runs of decimal digits. -/
def decimalZeros : List ℕ :=
  [0x30, 0x660, 0x6f0, 0x7c0, 0x966, 0x9e6, 0xa66, 0xae6, 0xb66, 0xbe6, 0xc66, 0xce6, 0xd66, 0xde6,
    0xe50, 0xed0, 0xf20, 0x1040, 0x1090, 0x17e0, 0x1810, 0x1946, 0x19d0, 0x1a80, 0x1a90, 0x1b50,
    0x1bb0, 0x1c40, 0x1c50, 0xa620, 0xa8d0, 0xa900, 0xa9d0, 0xa9f0, 0xaa50, 0xabf0, 0xff10,
    0x104a0, 0x10d30, 0x11066, 0x110f0, 0x11136, 0x111d0, 0x112f0, 0x11450, 0x114d0, 0x11650,
    0x116c0, 0x11730, 0x118e0, 0x11950, 0x11c50, 0x11d50, 0x11da0, 0x16a60, 0x16ac0, 0x16b50,
    0x1d7ce, 0x1d7d8, 0x1d7e2, 0x1d7ec, 0x1d7f6, 0x1e140, 0x1e2f0, 0x1e950, 0x1fbf0]

def decimalValue (c : Char) : Option ℕ :=
  (decimalZeros.find? fun z => z ≤ c.toNat ∧ c.toNat < z + 10).map fun z => c.toNat - z

/-- `\d` -/
def isDecimal (c : Char) : Bool := (decimalValue c).isSome

/-- `\d+` -/
def digits : Pattern String := many isDecimal

/-- The longest text that `int` and `str` convert. -/
def INT_MAX_STR_DIGITS : ℕ := 4300

/-- `int(digits)` for the text of a match of `\d+` -/
def intOf (text : String) : Except PyException ℕ :=
  if INT_MAX_STR_DIGITS < text.toList.length then .error (.valueError "")
  else .ok (text.toList.foldl (fun n c => 10 * n + (decimalValue c).getD 0) 0)

/-- `str(n)` -/
def strOf (n : ℕ) : Except PyException String :=
  if INT_MAX_STR_DIGITS < (toString n).toList.length then .error (.valueError "")
  else .ok (toString n)

/-! ## What a pattern reads -/

/-- A repetition of the class ends in front of the text. -/
def Stops (p : Char → Bool) (rest : List Char) : Prop := ∀ c ∈ rest.head?, p c = false

instance (p : Char → Bool) : (rest : List Char) → Decidable (Stops p rest)
  | [] => isTrue (by simp [Stops])
  | c :: _ => decidable_of_iff (p c = false) (by simp [Stops])

theorem run_lit_eq (word : String) (s : List Char) :
    (lit word).run s =
      if word.toList <+: s then some ((), s.drop word.toList.length) else none := rfl

theorem run_many_eq (p : Char → Bool) (s : List Char) :
    (many p).run s =
      if s.takeWhile p = [] then none
      else some (String.ofList (s.takeWhile p), s.dropWhile p) := rfl

theorem run_lit {word : String} {s rest : List Char} {u : Unit} :
    (lit word).run s = some (u, rest) ↔ s = word.toList ++ rest := by
  rw [run_lit_eq]
  constructor
  · intro h
    split at h
    · rename_i hword
      obtain ⟨tail, rfl⟩ := hword
      rw [List.drop_left] at h
      cases h
      rfl
    · cases h
  · rintro rfl
    rw [if_pos (List.prefix_append _ _), List.drop_left]

theorem run_lit_eq_none {word : String} {s : List Char} (h : ¬ word.toList <+: s) :
    (lit word).run s = none := if_neg h

theorem takeWhile_of_stops {p : Char → Bool} {rest : List Char} (h : Stops p rest) :
    rest.takeWhile p = [] ∧ rest.dropWhile p = rest := by
  cases rest with
  | nil => exact ⟨rfl, rfl⟩
  | cons c cs =>
      have hc : p c = false := h c rfl
      refine ⟨?_, ?_⟩
      · rw [List.takeWhile_cons_of_neg (by rw [hc]; decide)]
      · rw [List.dropWhile_cons_of_neg (by rw [hc]; decide)]

theorem stops_dropWhile (p : Char → Bool) (s : List Char) : Stops p (s.dropWhile p) := by
  intro c hc
  have hnot := List.head?_dropWhile_not p s
  rw [Option.mem_def.mp hc] at hnot
  exact hnot

theorem run_many {p : Char → Bool} {s rest : List Char} {text : String} :
    (many p).run s = some (text, rest) ↔
      text ≠ "" ∧ (∀ c ∈ text.toList, p c = true) ∧ Stops p rest ∧ s = text.toList ++ rest := by
  rw [run_many_eq]
  constructor
  · intro h
    split at h
    · cases h
    · rename_i hne
      cases h
      refine ⟨fun hnil => hne ?_, ?_, stops_dropWhile p s, ?_⟩
      · rw [← String.toList_ofList (l := s.takeWhile p), hnil]
        rfl
      · intro c hc
        rw [String.toList_ofList] at hc
        exact List.mem_takeWhile_imp hc
      · rw [String.toList_ofList, List.takeWhile_append_dropWhile]
  · rintro ⟨hne, hall, hstop, rfl⟩
    obtain ⟨htake, hdrop⟩ := takeWhile_of_stops hstop
    rw [List.takeWhile_append_of_pos hall, htake, List.append_nil,
      List.dropWhile_append_of_pos hall, hdrop, String.ofList_toList,
      if_neg fun h => hne (String.toList_eq_nil_iff.mp h)]

theorem run_token {s rest : List Char} {text : String} :
    token.run s = some (text, rest) ↔
      IsToken text ∧ Stops (fun c => !isWhitespace c) rest ∧ s = text.toList ++ rest := by
  rw [token, run_many]
  simp only [IsToken, Bool.not_eq_true']
  tauto

theorem run_bind_eq_some {m : Pattern α} {f : α → Pattern β} {s rest : List Char} {b : β} :
    (m >>= f).run s = some (b, rest) ↔
      ∃ a middle, m.run s = some (a, middle) ∧ (f a).run middle = some (b, rest) := by
  rw [StateT.run_bind]
  constructor
  · intro h
    obtain ⟨⟨a, middle⟩, ha, hb⟩ := Option.bind_eq_some_iff.mp h
    exact ⟨a, middle, ha, hb⟩
  · rintro ⟨a, middle, ha, hb⟩
    exact Option.bind_eq_some_iff.mpr ⟨(a, middle), ha, hb⟩

theorem run_bind_of_none {m : Pattern α} {f : α → Pattern β} {s : List Char}
    (h : m.run s = none) : (m >>= f).run s = none := by
  rw [StateT.run_bind, h]
  rfl

theorem run_keyword {word : String} {f : Unit → Pattern α} (s : List Char) :
    (lit word >>= f).run (word.toList ++ s) = (f ()).run s := by
  rw [StateT.run_bind, run_lit.mpr rfl]
  rfl

theorem run_pure_eq_some {a b : α} {s rest : List Char} :
    (pure a : Pattern α).run s = some (b, rest) ↔ a = b ∧ s = rest := by
  rw [StateT.run_pure]
  show some (a, s) = some (b, rest) ↔ _
  rw [Option.some.injEq, Prod.mk.injEq]

theorem run_orElse (p q : Pattern α) (s : List Char) :
    (p <|> q).run s = (p.run s).or (q.run s) := by
  show (p.run s <|> q.run s) = _
  cases p.run s <;> rfl

theorem run_field {name value : String} {s rest : List Char}
    (h : (field name).run s = some (value, rest)) :
    IsToken value ∧ Stops (fun c => !isWhitespace c) rest ∧
      ∃ gap : String, s = gap.toList ++ ((name ++ "=").toList ++ (value.toList ++ rest)) := by
  obtain ⟨gap, s₁, hgap, h⟩ := run_bind_eq_some.mp h
  obtain ⟨⟨⟩, s₂, hname, h⟩ := run_bind_eq_some.mp h
  obtain ⟨htoken, hstop, rfl⟩ := run_token.mp h
  obtain rfl := run_lit.mp hname
  exact ⟨htoken, hstop, gap, (run_many.mp hgap).2.2.2⟩

/-- A field is read back as it was written. -/
theorem run_field_append {name value : String} {rest : List Char}
    (hname : Stops isWhitespace (name ++ "=").toList) (hvalue : IsToken value)
    (hrest : Stops (fun c => !isWhitespace c) rest) :
    (field name).run (' ' :: ((name ++ "=").toList ++ (value.toList ++ rest))) =
      some (value, rest) := by
  have hstop : Stops isWhitespace ((name ++ "=").toList ++ (value.toList ++ rest)) := by
    intro c hc
    have hne : (name ++ "=").toList ≠ [] := by
      rw [String.toList_append]
      exact List.append_ne_nil_of_right_ne_nil _ (by decide)
    rw [List.head?_append_of_ne_nil _ hne] at hc
    exact hname c hc
  refine run_bind_eq_some.mpr ⟨" ", _, run_many.mpr ⟨by decide, by decide, hstop, rfl⟩, ?_⟩
  refine run_bind_eq_some.mpr ⟨(), _, run_lit.mpr rfl, ?_⟩
  exact run_token.mpr ⟨hvalue, hrest, rfl⟩

/-! ## Searches -/

theorem linesAfter_append_newline {line : List Char} (h : '\n' ∉ line) (rest : List Char) :
    linesAfter (line ++ '\n' :: rest) = rest :: linesAfter rest := by
  induction line with
  | nil => exact if_pos rfl
  | cons c line ih =>
      rw [List.mem_cons, not_or] at h
      rw [List.cons_append, linesAfter, if_neg (Ne.symm h.1), ih h.2]

theorem linesAfter_of_not_mem {line : List Char} (h : '\n' ∉ line) : linesAfter line = [] := by
  induction line with
  | nil => rfl
  | cons c line ih =>
      rw [List.mem_cons, not_or] at h
      rw [linesAfter, if_neg (Ne.symm h.1), ih h.2]

theorem lineStarts_append_newline {line : List Char} (h : '\n' ∉ line) (rest : List Char) :
    lineStarts (line ++ '\n' :: rest) = (line ++ '\n' :: rest) :: lineStarts rest :=
  congrArg _ (linesAfter_append_newline h rest)

theorem lineStarts_of_not_mem {line : List Char} (h : '\n' ∉ line) : lineStarts line = [line] :=
  congrArg _ (linesAfter_of_not_mem h)

theorem search_eq_none_iff {m : Pattern α} {text : String} :
    search m text = none ↔ ∀ start ∈ lineStarts text.toList, m.run start = none := by
  rw [search, List.findSome?_eq_none_iff]
  simp only [Option.map_eq_none_iff]

theorem search_of_run {m : Pattern α} {text : String} {a : α} {rest : List Char}
    (h : m.run text.toList = some (a, rest)) : search m text = some a := by
  rw [search, lineStarts, List.findSome?_cons, h]
  rfl

theorem exists_start_of_mem_matchesFrom {m : Pattern α} {a : α} :
    ∀ {starts : List (List Char)} {limit : ℕ}, a ∈ matchesFrom m limit starts →
      ∃ start ∈ starts, ∃ rest, m.run start = some (a, rest) := by
  intro starts
  induction starts with
  | nil =>
      intro limit h
      cases h
  | cons start starts ih =>
      intro limit h
      have later : ∀ {limit' : ℕ}, a ∈ matchesFrom m limit' starts →
          ∃ start' ∈ start :: starts, ∃ rest, m.run start' = some (a, rest) := fun hmem => by
        obtain ⟨start', hstart', hrun⟩ := ih hmem
        exact ⟨start', List.mem_cons_of_mem _ hstart', hrun⟩
      rw [matchesFrom] at h
      split at h
      · exact later h
      · split at h
        · rename_i b rest hrun
          rcases List.mem_cons.mp h with rfl | h
          · exact ⟨start, List.mem_cons_self, rest, hrun⟩
          · exact later h
        · exact later h

theorem exists_start_of_mem_finditer {m : Pattern α} {text : String} {a : α}
    (h : a ∈ finditer m text) :
    ∃ start ∈ lineStarts text.toList, ∃ rest, m.run start = some (a, rest) :=
  exists_start_of_mem_matchesFrom h

theorem matchesFrom_eq_nil {m : Pattern α} {starts : List (List Char)} {limit : ℕ}
    (h : ∀ start ∈ starts, m.run start = none) : matchesFrom m limit starts = [] := by
  refine List.eq_nil_iff_forall_not_mem.mpr fun a ha => ?_
  obtain ⟨start, hstart, rest, hrun⟩ := exists_start_of_mem_matchesFrom ha
  rw [h start hstart] at hrun
  cases hrun

theorem finditer_eq_nil {m : Pattern α} {text : String}
    (h : ∀ start ∈ lineStarts text.toList, m.run start = none) : finditer m text = [] :=
  matchesFrom_eq_nil h

/-- Only the first line of the text matches. -/
theorem finditer_of_run {m : Pattern α} {text : String} {a : α} {rest : List Char}
    (h : m.run text.toList = some (a, rest))
    (hlater : ∀ start ∈ linesAfter text.toList, m.run start = none) : finditer m text = [a] := by
  rw [finditer, lineStarts, matchesFrom, if_neg (lt_irrefl _), h]
  show a :: _ = _
  rw [matchesFrom_eq_nil hlater]

/-- No line of the text is matched. -/
def Silent (m : Pattern α) (text : String) : Prop :=
  ∀ start ∈ lineStarts text.toList, m.run start = none

theorem Silent.search_eq {m : Pattern α} {text : String} (h : Silent m text) :
    search m text = none := search_eq_none_iff.mpr h

theorem Silent.finditer_eq {m : Pattern α} {text : String} (h : Silent m text) :
    finditer m text = [] := finditer_eq_nil h

/-- A text of one line that is not matched at its front. -/
theorem silent_of_run {m : Pattern α} {text : String} (hline : '\n' ∉ text.toList)
    (h : m.run text.toList = none) : Silent m text := fun start hstart => by
  rw [lineStarts_of_not_mem hline, List.mem_singleton] at hstart
  rw [hstart, h]

/-- A pattern that reads nothing where the text does not start with the word. -/
def HasKeyword (m : Pattern α) (word : String) : Prop :=
  ∀ s, ¬ word.toList <+: s → m.run s = none

theorem hasKeyword_lit (word : String) : HasKeyword (lit word) word := fun _ => run_lit_eq_none

theorem HasKeyword.bind {m : Pattern α} {word : String} (h : HasKeyword m word)
    (f : α → Pattern β) : HasKeyword (m >>= f) word := fun s hs => run_bind_of_none (h s hs)

theorem Silent.orElse {p q : Pattern α} {text : String} (hp : Silent p text)
    (hq : Silent q text) : Silent (p <|> q) text := fun start hstart => by
  rw [run_orElse, hp start hstart, hq start hstart]
  rfl

theorem newline_not_mem_append {s t : String} :
    '\n' ∉ (s ++ t).toList ↔ '\n' ∉ s.toList ∧ '\n' ∉ t.toList := by
  rw [String.toList_append, List.mem_append, not_or]

theorem newline_not_mem_of_isToken {s : String} (h : IsToken s) : '\n' ∉ s.toList := fun hmem => by
  have hbreak := h.no_break hmem
  revert hbreak
  decide

/-- The heads of the lines of a text, in order. -/
def LinesStartWith (heads : List String) (text : String) : Prop :=
  List.Forall₂ (fun head start => head.toList <+: start) heads (lineStarts text.toList)

theorem LinesStartWith.line (head : String) {value : String} (hhead : '\n' ∉ head.toList)
    (hvalue : '\n' ∉ value.toList) : LinesStartWith [head] (head ++ value) := by
  have hline : '\n' ∉ head.toList ++ value.toList := fun h =>
    (List.mem_append.mp h).elim hhead hvalue
  rw [LinesStartWith, String.toList_append, lineStarts_of_not_mem hline]
  exact List.Forall₂.cons (List.prefix_append _ _) List.Forall₂.nil

theorem LinesStartWith.cons (head : String) {value rest : String} {heads : List String}
    (hhead : '\n' ∉ head.toList) (hvalue : '\n' ∉ value.toList) (h : LinesStartWith heads rest) :
    LinesStartWith (head :: heads) (head ++ (value ++ ("\n" ++ rest))) := by
  have hline : '\n' ∉ head.toList ++ value.toList := fun h =>
    (List.mem_append.mp h).elim hhead hvalue
  have hlist : (head ++ (value ++ ("\n" ++ rest))).toList =
      (head.toList ++ value.toList) ++ '\n' :: rest.toList := by
    rw [String.toList_append, String.toList_append, String.toList_append, List.append_assoc]
    rfl
  rw [LinesStartWith, hlist, lineStarts_append_newline hline]
  refine List.Forall₂.cons ?_ h
  rw [List.append_assoc]
  exact List.prefix_append _ _

/-- Neither of two texts is the start of the other. -/
def Diverges (word head : String) : Bool :=
  !word.toList.isPrefixOf head.toList && !head.toList.isPrefixOf word.toList

theorem not_isPrefix_of_diverges {word head : String} (h : Diverges word head = true)
    {start : List Char} (hstart : head.toList <+: start) : ¬ word.toList <+: start := fun hword => by
  simp only [Diverges, Bool.and_eq_true, Bool.not_eq_true', ← Bool.not_eq_true,
    List.isPrefixOf_iff_prefix] at h
  rcases List.prefix_or_prefix_of_prefix hword hstart with hprefix | hprefix
  · exact h.1 hprefix
  · exact h.2 hprefix

theorem run_of_diverges {m : Pattern α} {word : String} (hm : HasKeyword m word)
    {heads : List String} (hdiverges : heads.all (Diverges word) = true) {starts : List (List Char)}
    (h : List.Forall₂ (fun head start => head.toList <+: start) heads starts) :
    ∀ start ∈ starts, m.run start = none := fun start hstart => by
  obtain ⟨head, hhead, hprefix⟩ := exists_of_forall₂_right h hstart
  exact hm start
    (not_isPrefix_of_diverges (List.all_eq_true.mp hdiverges head hhead) hprefix)

/-- A keyword is on no line of a text whose lines start otherwise. -/
theorem LinesStartWith.silent {heads : List String} {text : String} (h : LinesStartWith heads text)
    {m : Pattern α} {word : String} (hm : HasKeyword m word)
    (hdiverges : heads.all (Diverges word) = true) : Silent m text :=
  run_of_diverges hm hdiverges h

/-- Only the first line of the text has the keyword. -/
theorem LinesStartWith.finditer_eq {head : String} {heads : List String} {text : String}
    (h : LinesStartWith (head :: heads) text) {m : Pattern α} {word : String}
    (hm : HasKeyword m word) (hdiverges : heads.all (Diverges word) = true) {a : α}
    {rest : List Char} (hrun : m.run text.toList = some (a, rest)) : finditer m text = [a] := by
  rw [LinesStartWith, lineStarts] at h
  cases h with
  | cons _ hlater => exact finditer_of_run hrun (run_of_diverges hm hdiverges hlater)

/-- No line of the text has the keyword but the first, which does not match. -/
theorem LinesStartWith.silent_of_run {head : String} {heads : List String} {text : String}
    (h : LinesStartWith (head :: heads) text) {m : Pattern α} {word : String}
    (hm : HasKeyword m word) (hdiverges : heads.all (Diverges word) = true)
    (hrun : m.run text.toList = none) : Silent m text := by
  rw [LinesStartWith, lineStarts] at h
  cases h with
  | cons _ hlater =>
      intro start hstart
      rcases List.mem_cons.mp hstart with rfl | hstart
      · exact hrun
      · exact run_of_diverges hm hdiverges hlater start hstart

/-! ## Numbers -/

theorem decimalValue_of_isDigit {c : Char} (h : c.isDigit = true) :
    decimalValue c = some (c.toNat - '0'.toNat) := by
  have hrange := Char.isDigit_iff_toNat.mp h
  have hfind : (decimalZeros.find? fun z => z ≤ c.toNat ∧ c.toNat < z + 10) = some 0x30 :=
    List.find?_cons_of_pos (decide_eq_true ⟨hrange.1, Nat.lt_succ_of_le hrange.2⟩)
  rw [decimalValue, hfind]
  rfl

theorem foldl_decimalValue {cs : List Char} (h : ∀ c ∈ cs, c.isDigit = true) (n : ℕ) :
    cs.foldl (fun n c => 10 * n + (decimalValue c).getD 0) n = Nat.ofDigitChars 10 cs n := by
  induction cs generalizing n with
  | nil => rfl
  | cons c cs ih =>
      rw [List.foldl_cons, Nat.ofDigitChars_cons, decimalValue_of_isDigit (h c List.mem_cons_self)]
      exact ih (fun c hc => h c (List.mem_cons_of_mem _ hc)) _

theorem isDigit_of_mem_toString {n : ℕ} {c : Char} (h : c ∈ (toString n).toList) :
    c.isDigit = true := by
  rw [Nat.toString_eq_repr, Nat.toList_repr] at h
  exact Nat.isDigit_of_mem_toDigits (by decide) (by decide) h

theorem toString_ne_empty (n : ℕ) : toString n ≠ "" := fun h => by
  have hlist : (toString n).toList = [] := String.toList_eq_nil_iff.mpr h
  rw [Nat.toString_eq_repr, Nat.toList_repr] at hlist
  exact Nat.toDigits_ne_nil hlist

theorem intOf_strOf {n : ℕ} {text : String} (h : strOf n = .ok text) :
    text = toString n ∧ intOf text = .ok n := by
  unfold strOf at h
  split at h
  · cases h
  · rename_i hlen
    cases h
    refine ⟨rfl, ?_⟩
    rw [intOf, if_neg hlen, foldl_decimalValue fun c hc => isDigit_of_mem_toString hc,
      Nat.toString_eq_repr, Nat.toList_repr, Nat.ofDigitChars_ten_toDigits]

/-- The digits of a number are read back, where no digit follows them. -/
theorem run_digits_toString (n : ℕ) {rest : List Char} (h : Stops isDecimal rest) :
    digits.run ((toString n).toList ++ rest) = some (toString n, rest) := by
  refine run_many.mpr ⟨toString_ne_empty n, fun c hc => ?_, h, rfl⟩
  rw [isDecimal, decimalValue_of_isDigit (isDigit_of_mem_toString hc)]
  rfl

end Pattern

end Base
