import FossilCore.Base.Text

/-!
# Lines and words

`str.splitlines`, `str.split` and `str.rstrip` of a single character.
-/

namespace Base

namespace Text

/-- The characters that end a line for `str.splitlines`. -/
def isLineBreak (c : Char) : Bool :=
  c ∈ ['\n', '\r', '\x0b', '\x0c', '\x1c', '\x1d', '\x1e', '\u0085', '\u2028', '\u2029']

/-- A carriage return and a line feed are one break. -/
def joinBreaks : List Char → List Char
  | '\r' :: '\n' :: cs => '\n' :: joinBreaks cs
  | c :: cs => c :: joinBreaks cs
  | [] => []

/-- The lines between the breaks; there is none after a final break. -/
def breakLines (cs : List Char) : List (List Char) :=
  let lines := (joinBreaks cs).splitOnP isLineBreak
  if lines.getLast? = some [] then lines.dropLast else lines

def splitlines (s : String) : List String := (breakLines s.toList).map String.ofList

/-- `s.split()` -/
def words (s : String) : List String :=
  ((s.toList.splitOnP isWhitespace).filter (· ≠ [])).map String.ofList

/-- `s.split("=", 1)`, where there is an equals sign. -/
def splitEquals (s : String) : String × String :=
  (String.ofList (s.toList.takeWhile (· ≠ '=')),
    String.ofList ((s.toList.dropWhile (· ≠ '=')).drop 1))

/-- `s.rstrip(c)` -/
def rstrip (s : String) (c : Char) : String :=
  String.ofList (s.toList.reverse.dropWhile (· = c)).reverse

theorem isWhitespace_of_isLineBreak {c : Char} (h : isLineBreak c = true) :
    isWhitespace c = true := by
  simp only [isLineBreak, decide_eq_true_eq, List.mem_cons, List.not_mem_nil, or_false] at h
  rcases h with rfl | rfl | rfl | rfl | rfl | rfl | rfl | rfl | rfl | rfl <;> decide

theorem isWhitespace_eq_false {c : Char} (h : 32 < c.toNat) (h' : c.toNat < 128) :
    isWhitespace c = false := by
  simp only [isWhitespace, decide_eq_false_iff_not]
  omega

/-! ## A text of one line -/

theorem joinBreaks_of_not_mem {cs : List Char} (h : '\r' ∉ cs) : joinBreaks cs = cs := by
  induction cs using joinBreaks.induct with
  | case1 cs ih => exact absurd List.mem_cons_self h
  | case2 c cs hbreak ih =>
      rw [joinBreaks]
      · rw [ih fun hmem => h (List.mem_cons_of_mem c hmem)]
      · exact hbreak
  | case3 => rfl

theorem splitlines_of_no_break {s : String} (hne : s ≠ "")
    (h : ∀ c ∈ s.toList, isLineBreak c = false) : splitlines s = [s] := by
  have hreturn : '\r' ∉ s.toList := fun hmem => by
    have := h _ hmem
    revert this
    decide
  have hempty : s.toList ≠ [] := fun hnil => hne (String.toList_eq_nil_iff.mp hnil)
  have hlast : [s.toList].getLast? ≠ some [] := fun hlast => hempty (Option.some.inj hlast)
  rw [splitlines, breakLines, joinBreaks_of_not_mem hreturn, List.splitOnP_eq_singleton h,
    if_neg hlast, List.map_cons, String.ofList_toList]
  rfl

/-! ## Texts of several lines -/

theorem joinBreaks_append {xs : List Char} (h : '\r' ∉ xs) (ys : List Char) :
    joinBreaks (xs ++ ys) = xs ++ joinBreaks ys := by
  induction xs with
  | nil => rfl
  | cons c xs ih =>
      rw [List.mem_cons, not_or] at h
      rw [List.cons_append, joinBreaks, ih h.2, List.cons_append]
      rintro cs rfl -
      exact h.1 rfl

theorem splitOnP_append_of_no_break {p : Char → Bool} {xs : List Char}
    (h : ∀ c ∈ xs, p c = false) (ys : List Char) :
    (xs ++ ys).splitOnP p = (ys.splitOnP p).modifyHead (xs ++ ·) := by
  induction xs with
  | nil => exact (congrFun List.modifyHead_id (ys.splitOnP p)).symm
  | cons c xs ih =>
      rw [List.cons_append, List.splitOnP_cons_eq_if_modifyHead, h c List.mem_cons_self, if_neg Bool.false_ne_true,
        ih fun c hc => h c (List.mem_cons_of_mem _ hc)]
      cases ys.splitOnP p <;> rfl

/-- The lines behind a line with its break. -/
theorem splitlines_append_newline {line : String} (h : ∀ c ∈ line.toList, isLineBreak c = false)
    (rest : String) : splitlines (line ++ ("\n" ++ rest)) = line :: splitlines rest := by
  have hreturn : '\r' ∉ line.toList := fun hmem => by
    have hbreak := h _ hmem
    revert hbreak
    decide
  have hlist : (line ++ ("\n" ++ rest)).toList = line.toList ++ ('\n' :: rest.toList) := by
    rw [String.toList_append, String.toList_append]
    rfl
  have hjoin : joinBreaks ('\n' :: rest.toList) = '\n' :: joinBreaks rest.toList := by
    rw [joinBreaks]
    rintro cs ⟨⟩
  have hne : (joinBreaks rest.toList).splitOnP isLineBreak ≠ [] := List.splitOnP_ne_nil _ _
  obtain ⟨first, lines, hlines⟩ := List.exists_cons_of_ne_nil hne
  rw [splitlines, breakLines, hlist, joinBreaks_append hreturn, hjoin,
    List.splitOnP_append_cons _ _ (by decide), List.splitOnP_eq_singleton h, splitlines, breakLines,
    hlines, List.singleton_append, List.getLast?_cons_cons]
  split
  · rw [List.dropLast_cons_cons, List.map_cons, String.ofList_toList]
  · rw [List.map_cons, String.ofList_toList]

/-- A text in front of the first line. -/
theorem splitlines_append {line : String} (hne : line ≠ "")
    (h : ∀ c ∈ line.toList, isLineBreak c = false) (rest : String) :
    ∃ first, splitlines (line ++ rest) = (line ++ first) :: (splitlines rest).tail := by
  have hreturn : '\r' ∉ line.toList := fun hmem => by
    have hbreak := h _ hmem
    revert hbreak
    decide
  have hempty : line.toList ≠ [] := fun hnil => hne (String.toList_eq_nil_iff.mp hnil)
  obtain ⟨first, lines, hlines⟩ := List.exists_cons_of_ne_nil
    (List.splitOnP_ne_nil isLineBreak (joinBreaks rest.toList))
  refine ⟨String.ofList first, ?_⟩
  have hfirst : line ++ String.ofList first = String.ofList (line.toList ++ first) := by
    rw [String.ofList_append, String.ofList_toList]
  rw [splitlines, splitlines, breakLines, breakLines, String.toList_append,
    joinBreaks_append hreturn, splitOnP_append_of_no_break h, hlines, List.modifyHead_cons, hfirst]
  cases lines with
  | nil =>
      have hlast : [line.toList ++ first].getLast? ≠ some [] := fun hlast =>
        hempty (List.append_eq_nil_iff.mp (Option.some.inj hlast)).1
      rw [if_neg hlast]
      split <;> rfl
  | cons second lines =>
      rw [List.getLast?_cons_cons, List.getLast?_cons_cons]
      split
      · rw [List.dropLast_cons_cons, List.dropLast_cons_cons]
        rfl
      · rfl

/-! ## Words -/

/-- A text that is one word. -/
def IsToken (s : String) : Prop := s ≠ "" ∧ ∀ c ∈ s.toList, isWhitespace c = false

instance (s : String) : Decidable (IsToken s) := inferInstanceAs (Decidable (_ ∧ _))

theorem IsToken.toList_ne_nil {s : String} (h : IsToken s) : s.toList ≠ [] :=
  fun hnil => h.1 (String.toList_eq_nil_iff.mp hnil)

theorem IsToken.no_break {s : String} (h : IsToken s) {c : Char} (hc : c ∈ s.toList) :
    isLineBreak c = false := by
  by_contra hbreak
  have hspace := isWhitespace_of_isLineBreak (Bool.eq_true_of_not_eq_false hbreak)
  rw [h.2 c hc] at hspace
  cases hspace

theorem no_break_append {s t : String} :
    (∀ c ∈ (s ++ t).toList, isLineBreak c = false) ↔
      (∀ c ∈ s.toList, isLineBreak c = false) ∧ ∀ c ∈ t.toList, isLineBreak c = false := by
  rw [String.toList_append, List.forall_mem_append]

theorem words_token {s : String} (h : IsToken s) : words s = [s] := by
  have hfilter : [s.toList].filter (· ≠ []) = [s.toList] :=
    List.filter_eq_self.mpr fun word hword => by
      rw [List.mem_singleton.mp hword]
      exact decide_eq_true h.toList_ne_nil
  rw [words, List.splitOnP_eq_singleton h.2, hfilter, List.map_cons, String.ofList_toList]
  rfl

/-- The first word of a text, and the words of the rest. -/
theorem words_token_append {s : String} (h : IsToken s) {sep : String} {c : Char}
    (hsep : sep.toList = [c]) (hc : isWhitespace c = true) (rest : String) :
    words (s ++ sep ++ rest) = s :: words rest := by
  have hlist : (s ++ sep ++ rest).toList = s.toList ++ c :: rest.toList := by
    rw [String.toList_append, String.toList_append, hsep, List.append_assoc]
    rfl
  rw [words, hlist, List.splitOnP_append_cons _ _ hc, List.splitOnP_eq_singleton h.2,
    List.singleton_append, List.filter_cons, if_pos (decide_eq_true h.toList_ne_nil),
    List.map_cons, String.ofList_toList]
  rfl

theorem words_space_append {s : String} (h : IsToken s) (rest : String) :
    words (s ++ " " ++ rest) = s :: words rest :=
  words_token_append h rfl (by decide) rest

/-- The first word of a text starts with the first character of it, where that is no whitespace. -/
theorem words_cons {s : String} {c : Char} {cs : List Char} (hs : s.toList = c :: cs)
    (hc : isWhitespace c = false) :
    ∃ rest ws, words s = String.ofList (c :: rest) :: ws := by
  obtain ⟨first, pieces, hpieces⟩ :=
    List.exists_cons_of_ne_nil (List.splitOnP_ne_nil isWhitespace cs)
  refine ⟨first, (pieces.filter (· ≠ [])).map String.ofList, ?_⟩
  rw [words, hs, List.splitOnP_cons_eq_if_modifyHead, hc, if_neg Bool.false_ne_true, hpieces, List.modifyHead_cons,
    List.filter_cons_of_pos (by simp), List.map_cons]

/-- The name and the value of a field. -/
theorem splitEquals_append {name : String} (h : '=' ∉ name.toList) (value : String) :
    splitEquals (name ++ "=" ++ value) = (name, value) := by
  have hlist : (name ++ "=" ++ value).toList = name.toList ++ '=' :: value.toList := by
    rw [String.toList_append, String.toList_append, List.append_assoc]
    rfl
  have hname : ∀ c ∈ name.toList, decide (c ≠ '=') = true := fun c hc =>
    decide_eq_true fun heq => h (heq ▸ hc)
  rw [splitEquals, hlist, List.takeWhile_append_of_pos hname, List.dropWhile_append_of_pos hname,
    List.takeWhile_cons_of_neg (by simp), List.dropWhile_cons_of_neg (by simp), List.append_nil,
    String.ofList_toList, List.drop_one, List.tail_cons, String.ofList_toList]

end Text

end Base
