import Mathlib.Algebra.BigOperators.Group.List.Basic
import Mathlib.Algebra.Order.BigOperators.Group.List
import FossilCore.Base.Checks
import FossilCore.Base.JsonObject
import FossilCore.Base.Separated
import FossilCore.Domain.Promotion

/-!
# The context budget

`BudgetedContextProvider.build_context` of `services.py`: what is selected of the candidates, what
the budget is spent on, and which candidates are left out.  What `int` makes of the limit, the
retriever, the reranker and the metadata of the provider are parameters.
-/

namespace FossilCore

open Base

/-- `xs[:limit]` -/
def sliceTo {α : Type} (limit : ℤ) (xs : List α) : List α :=
  if 0 ≤ limit then xs.take limit.toNat else xs.take (xs.length - limit.natAbs)

structure BudgetedContextProvider where
  search : String → List String → ℤ → Except Error (List Json)
  reranker : Option (String → List Json → ℤ → Except Error (List Json))
  max_chars : ℤ
  positive : 1 ≤ max_chars
  metadata : Except Error Json

structure ContextRequest where
  query : String
  pack_ids : List String
  limit : ℤ

structure BuiltContext where
  query : String
  pack_ids : List String
  items : List Json
  context_text : String
  chars_used : ℤ
  max_chars : ℤ
  service : Json

namespace BudgetedContextProvider

/-- What the loop has selected so far. -/
structure Selection where
  selected : List Json
  chunks : List String
  used : ℤ

def candidateText (candidate : Json) : Except Error String := do
  let text ← liftPy (candidate.getMethod "text")
  return (text.getD (.str "")).pyStr

def resultFor (candidate : Json) (text included : String) : Json :=
  (candidate.set "context_text" (.str included)).set "context_truncated"
    (.bool (decide (included.length < text.length)))

/-- The loop over the remaining candidates. -/
def select (max_chars : ℤ) : List Json → Selection → Except Error Selection
  | [], selection => .ok selection
  | candidate :: rest, selection => do
      let text ← candidateText candidate
      let separator := if selection.chunks = [] then "" else "\n\n"
      let remaining := max_chars - selection.used - separator.length
      if remaining ≤ 0 then return selection
      else
        let included := String.ofList (text.toList.take remaining.toNat)
        if included = "" then return selection
        else
          let selection := {
            selected := selection.selected ++ [resultFor candidate text included]
            chunks := selection.chunks ++ [separator ++ included]
            used := selection.used + (separator.length + included.length) }
          if max_chars ≤ selection.used then return selection
          else select max_chars rest selection

variable (int : Json → Except Error ℤ) (self : BudgetedContextProvider)

/-- The candidates that the loop goes over. -/
def candidatesFor (query : String) (pack_ids : List String) (limit : ℤ) :
    Except Error (List Json) := do
  let candidates ← self.search query pack_ids (max (limit * 3) limit)
  match self.reranker with
  | none => return sliceTo limit candidates
  | some rerank =>
      if candidates = [] then return sliceTo limit candidates
      else rerank query candidates limit

def readRequest (request : Json) : Except Error ContextRequest := do
  let query ← liftPy (request.getItem "query")
  let pack_ids ← liftPy (request.getItem "pack_ids") >>= iterate
  let stated ← liftPy (request.getMethod "limit")
  let limit ← int (stated.getD (.int 8))
  return ⟨query.pyStr, pack_ids.map Json.pyStr, limit⟩

def build_context (request : Json) : Except Error BuiltContext := do
  let ⟨query, pack_ids, limit⟩ ← readRequest int request
  let candidates ← self.candidatesFor query pack_ids limit
  let selection ← select self.max_chars candidates ⟨[], [], 0⟩
  let service ← self.metadata
  return {
    query
    pack_ids
    items := selection.selected
    context_text := Text.join "" selection.chunks
    chars_used := selection.used
    max_chars := self.max_chars
    service }

/-! ## What is asked of a context -/

def contextText (item : Json) : String := textOf item "context_text"

/-- A character of one more text fits behind the texts and a separator. -/
def Room (max_chars : ℤ) (texts : List String) : Prop :=
  ((Text.join "\n\n" (texts ++ [""])).length : ℤ) < max_chars

instance (max_chars : ℤ) (texts : List String) : Decidable (Room max_chars texts) :=
  inferInstanceAs (Decidable (_ < _))

/-- The item shows a prefix of the candidate's text. -/
def Includes (candidate item : Json) : Prop :=
  ∃ included : String, included.toList <+: (textOf candidate "text").toList ∧
    item = resultFor candidate (textOf candidate "text") included

structure Respects (max_chars : ℤ) (candidates : List Json) (context : BuiltContext) : Prop where
  items : List.Forall₂ Includes (candidates.take context.items.length) context.items
  truncated : ∀ item ∈ context.items.dropLast,
    item.get? "context_truncated" = some (.bool false)
  context_text : context.context_text = Text.join "\n\n" (context.items.map contextText)
  used : context.chars_used = context.context_text.length
  bounded : context.chars_used ≤ max_chars

/-- No candidate with a text is left out while there is room. -/
def LeavesNoneOut (max_chars : ℤ) (candidates : List Json) (context : BuiltContext) : Prop :=
  ∀ candidate ∈ candidates.drop context.items.length, textOf candidate "text" ≠ "" →
    ¬ Room max_chars (context.items.map contextText)

/-- Behind an empty text that is reached with room left, there are only empty texts. -/
def BlanksLast (max_chars : ℤ) (texts : List String) : Prop :=
  ∀ before after, texts = before ++ "" :: after → (∀ text ∈ before, text ≠ "") →
    Room max_chars before → ∀ text ∈ after, text = ""

/-! ## The loop -/

variable {max_chars : ℤ} {done rest candidates : List Json} {candidate : Json}
  {selection : Selection}

theorem room_iff {texts : List String} :
    Room max_chars texts ↔
      (((texts.map fun text => text.length + 2).sum : ℕ) : ℤ) < max_chars := by
  have hsep : "\n\n".length = 2 := by decide
  rw [Room, Text.length_join_blank, hsep]

theorem Room.of_forall₂ {texts texts' : List String} (h : Room max_chars texts)
    (hle : List.Forall₂ (fun t t' => t.length ≤ t'.length) texts' (texts.take texts'.length)) :
    Room max_chars texts' := by
  have hsum : ((texts'.map fun text => text.length + 2).sum) ≤
      (texts.map fun text => text.length + 2).sum := by
    calc (texts'.map fun text => text.length + 2).sum
        ≤ ((texts.take texts'.length).map fun text => text.length + 2).sum := by
          apply List.Forall₂.sum_le_sum
          rw [List.forall₂_map_left_iff, List.forall₂_map_right_iff]
          exact hle.imp fun _ _ h => Nat.add_le_add_right h 2
      _ ≤ (texts.map fun text => text.length + 2).sum :=
          ((List.take_sublist _ _).map _).sum_le_sum fun _ _ => Nat.zero_le _
  rw [room_iff] at h ⊢
  exact (Int.ofNat_le.mpr hsum).trans_lt h

def whole (candidate : Json) : Json :=
  resultFor candidate (textOf candidate "text") (textOf candidate "text")

/-- The loop has taken all of these candidates as a whole, and the budget is not spent. -/
structure Taken (max_chars : ℤ) (done : List Json) (selection : Selection) : Prop where
  selected : selection.selected = done.map whole
  chunks : Text.join "" selection.chunks =
    Text.join "\n\n" (done.map fun candidate => textOf candidate "text")
  started : selection.chunks = [] ↔ done = []
  used : selection.used = (Text.join "" selection.chunks).length
  unspent : selection.used < max_chars
  filled : ∀ candidate ∈ done, textOf candidate "text" ≠ ""

/-- The budget is spent on these candidates and a prefix of the text of one more. -/
structure Spent (max_chars : ℤ) (done : List Json) (candidate : Json) (included : String)
    (selection : Selection) : Prop where
  selected : selection.selected =
    done.map whole ++ [resultFor candidate (textOf candidate "text") included]
  chunks : Text.join "" selection.chunks =
    Text.join "\n\n" ((done.map fun candidate => textOf candidate "text") ++ [included])
  used : selection.used = (Text.join "" selection.chunks).length
  spent : selection.used = max_chars
  filled : ∀ candidate ∈ done, textOf candidate "text" ≠ ""
  shown : included.toList <+: (textOf candidate "text").toList
  nonempty : included ≠ ""

/-- Why the loop stops with the budget unspent. -/
def Stops (max_chars : ℤ) (done after : List Json) : Prop :=
  match after with
  | [] => True
  | candidate :: _ =>
      ¬ Room max_chars (done.map fun candidate => textOf candidate "text") ∨
        textOf candidate "text" = ""

inductive Outcome (max_chars : ℤ) (candidates : List Json) (selection : Selection) : Prop where
  | unspent (done after : List Json) (hsplit : candidates = done ++ after)
      (htaken : Taken max_chars done selection) (hstops : Stops max_chars done after)
  | spent (done after : List Json) (candidate : Json) (included : String)
      (hsplit : candidates = done ++ candidate :: after)
      (hspent : Spent max_chars done candidate included selection)

theorem candidateText_ok (h : candidate.isObj = true) :
    candidateText candidate = .ok (textOf candidate "text") := by
  rw [candidateText, Json.getMethod_of_isObj h]
  rfl

/-- What is behind the texts of the chunks is counted with its separator. -/
theorem Taken.join_concat (h : Taken max_chars done selection) (included : String) :
    Text.join "" (selection.chunks ++ [(if selection.chunks = [] then "" else "\n\n") ++ included]) =
      Text.join "\n\n" ((done.map fun candidate => textOf candidate "text") ++ [included]) := by
  rw [Text.join_empty_append, h.chunks, Text.join_concat "\n\n"]
  have hnil : (done.map fun candidate => textOf candidate "text") = [] ↔ selection.chunks = [] := by
    rw [List.map_eq_nil_iff, h.started]
  simp only [hnil, Text.join, String.append_assoc]

theorem Taken.room_iff (h : Taken max_chars done selection) :
    Room max_chars (done.map fun candidate => textOf candidate "text") ↔
      0 < max_chars - selection.used -
        (if selection.chunks = [] then "" else "\n\n").length := by
  have hjoin := congrArg String.length (h.join_concat "")
  rw [Text.join_empty_append, String.length_append, Text.join, String.length_append] at hjoin
  have hused := h.used
  have hblank : "".length = 0 := rfl
  rw [Room, ← hjoin, hblank]
  omega

/-- The loop adds candidates as long as they fit, and stops at the first that is blank or that
does not fit whole. -/
theorem select_spec (h : Taken max_chars done selection)
    (hobj : ∀ candidate ∈ rest, candidate.isObj = true) :
    ∃ selection', select max_chars rest selection = .ok selection' ∧
      Outcome max_chars (done ++ rest) selection' := by
  induction rest generalizing done selection with
  | nil => exact ⟨selection, rfl, .unspent done [] rfl h trivial⟩
  | cons candidate rest ih =>
      rw [select, candidateText_ok (hobj candidate List.mem_cons_self)]
      dsimp only [bind, Except.bind]
      set separator := if selection.chunks = [] then "" else "\n\n" with hseparator
      set text := textOf candidate "text" with htext
      set remaining := max_chars - selection.used - separator.length with hremaining
      by_cases hroom : remaining ≤ 0
      · rw [if_pos hroom]
        refine ⟨selection, rfl, .unspent done (candidate :: rest) rfl h (Or.inl ?_)⟩
        rw [h.room_iff, ← hseparator]
        omega
      · rw [if_neg hroom]
        set included := String.ofList (text.toList.take remaining.toNat) with hincluded
        have hshown : included.toList <+: text.toList := by
          rw [hincluded, String.toList_ofList]
          exact List.take_prefix _ _
        have hlength : (included.length : ℤ) = min remaining text.length := by
          rw [hincluded, String.length_ofList, List.length_take, String.length_toList]
          omega
        by_cases hblank : included = ""
        · rw [if_pos hblank]
          refine ⟨selection, rfl, .unspent done (candidate :: rest) rfl h (Or.inr ?_)⟩
          have hzero : text.length = 0 := by
            rw [hblank] at hlength
            change (0 : ℤ) = _ at hlength
            omega
          exact String.length_eq_zero_iff.mp hzero
        · rw [if_neg hblank]
          have hchunks := h.join_concat included
          rw [← hseparator] at hchunks
          have hused : selection.used + (separator.length + included.length) =
              (Text.join "" (selection.chunks ++ [separator ++ included])).length := by
            rw [Text.join_empty_append, Text.join, String.length_append, String.length_append,
              h.used]
            push_cast
            rfl
          by_cases hspent : max_chars ≤ selection.used + (separator.length + included.length)
          · rw [if_pos hspent]
            refine ⟨_, rfl, .spent done rest candidate included rfl ?_⟩
            refine ⟨?_, hchunks, hused, ?_, h.filled, hshown, hblank⟩
            · rw [h.selected]
            · dsimp only
              omega
          · rw [if_neg hspent]
            have hwhole : included = text := by
              apply String.toList_inj.mp
              apply hshown.eq_of_length
              rw [String.length_toList, String.length_toList]
              omega
            rw [hwhole] at hchunks hused hspent hblank ⊢
            have htaken : Taken max_chars (done ++ [candidate]) {
                selected := selection.selected ++ [resultFor candidate text text]
                chunks := selection.chunks ++ [separator ++ text]
                used := selection.used + (separator.length + text.length) } := by
              refine ⟨?_, ?_, ?_, hused, not_le.mp hspent, ?_⟩
              · rw [List.map_append, h.selected]
                rfl
              · rw [List.map_append]
                exact hchunks
              · simp
              · intro other hother
                rcases List.mem_append.mp hother with hother | hother
                · exact h.filled other hother
                · rw [List.mem_singleton.mp hother]
                  exact hblank
            have hrest := ih htaken fun other hother => hobj other (List.mem_cons_of_mem _ hother)
            rw [List.append_assoc, List.singleton_append] at hrest
            exact hrest

/-! ## What comes out -/

theorem taken_nil (h : 1 ≤ max_chars) : Taken max_chars [] ⟨[], [], 0⟩ where
  selected := rfl
  chunks := rfl
  started := by simp
  used := rfl
  unspent := h
  filled _ hmem := absurd hmem List.not_mem_nil

theorem contextText_resultFor (hobj : candidate.isObj = true) (text included : String) :
    contextText (resultFor candidate text included) = included := by
  rw [contextText, textOf, resultFor, Json.get?_set (Json.isObj_set hobj _ _),
    if_neg (by decide), Json.get?_set hobj, if_pos rfl]
  rfl

theorem truncated_resultFor (hobj : candidate.isObj = true) (text included : String) :
    (resultFor candidate text included).get? "context_truncated" =
      some (.bool (decide (included.length < text.length))) := by
  rw [resultFor, Json.get?_set (Json.isObj_set hobj _ _), if_pos rfl]

theorem truncated_whole (hobj : candidate.isObj = true) :
    (whole candidate).get? "context_truncated" = some (.bool false) := by
  rw [whole, truncated_resultFor hobj, decide_eq_false (lt_irrefl _)]

theorem includes_whole (candidate : Json) : Includes candidate (whole candidate) :=
  ⟨_, List.prefix_rfl, rfl⟩

theorem forall₂_whole (done : List Json) : List.Forall₂ Includes done (done.map whole) := by
  rw [List.forall₂_map_right_iff, List.forall₂_same]
  exact fun candidate _ => includes_whole candidate

theorem map_contextText_whole (hobj : ∀ candidate ∈ done, candidate.isObj = true) :
    (done.map whole).map contextText = done.map fun candidate => textOf candidate "text" := by
  rw [List.map_map]
  exact List.map_congr_left fun candidate hmem => contextText_resultFor (hobj candidate hmem) _ _

variable {context : BuiltContext}

/-- The context holds what the loop selected. -/
structure Holds (context : BuiltContext) (selection : Selection) : Prop where
  items : context.items = selection.selected
  context_text : context.context_text = Text.join "" selection.chunks
  chars_used : context.chars_used = selection.used

theorem respects_of_taken {after : List Json} (hheld : Holds context selection)
    (h : Taken max_chars done selection)
    (hobj : ∀ candidate ∈ done, candidate.isObj = true) :
    Respects max_chars (done ++ after) context := by
  have hitems : context.items = done.map whole := hheld.items.trans h.selected
  refine ⟨?_, ?_, ?_, ?_, ?_⟩
  · rw [hitems, List.length_map, List.take_left]
    exact forall₂_whole done
  · intro item hitem
    rw [hitems] at hitem
    obtain ⟨candidate, hmem, rfl⟩ := List.mem_map.mp (List.dropLast_subset _ hitem)
    exact truncated_whole (hobj candidate hmem)
  · rw [hheld.context_text, h.chunks, hitems, map_contextText_whole hobj]
  · rw [hheld.chars_used, hheld.context_text, h.used]
  · rw [hheld.chars_used]
    exact h.unspent.le

theorem respects_of_spent {after : List Json} {included : String}
    (hheld : Holds context selection) (h : Spent max_chars done candidate included selection)
    (hobj : ∀ candidate ∈ done, candidate.isObj = true) (hlast : candidate.isObj = true) :
    Respects max_chars (done ++ candidate :: after) context := by
  have hitems := hheld.items.trans h.selected
  refine ⟨?_, ?_, ?_, ?_, ?_⟩
  · rw [hitems, List.length_append, List.length_map, List.take_length_add_append]
    apply List.rel_append (forall₂_whole done)
    exact .cons ⟨included, h.shown, rfl⟩ .nil
  · intro item hitem
    rw [hitems, List.dropLast_concat] at hitem
    obtain ⟨candidate, hmem, rfl⟩ := List.mem_map.mp hitem
    exact truncated_whole (hobj candidate hmem)
  · rw [hheld.context_text, h.chunks, hitems, List.map_append, map_contextText_whole hobj,
      List.map_singleton, contextText_resultFor hlast]
  · rw [hheld.chars_used, hheld.context_text, h.used]
  · rw [hheld.chars_used]
    exact h.spent.le

theorem respects_of_outcome (hheld : Holds context selection)
    (h : Outcome max_chars candidates selection)
    (hobj : ∀ candidate ∈ candidates, candidate.isObj = true) :
    Respects max_chars candidates context := by
  cases h with
  | unspent done after hsplit htaken _ =>
      subst hsplit
      exact respects_of_taken hheld htaken fun candidate hmem =>
        hobj candidate (List.mem_append_left _ hmem)
  | spent done after candidate included hsplit hspent =>
      subst hsplit
      exact respects_of_spent hheld hspent
        (fun candidate hmem => hobj candidate (List.mem_append_left _ hmem))
        (hobj candidate (List.mem_append_right _ List.mem_cons_self))

/-! ## Who is left out -/

theorem length_items_le (h : Respects max_chars candidates context) :
    context.items.length ≤ candidates.length := by
  have hlength := h.items.length_eq
  rw [List.length_take] at hlength
  omega

/-- No item shows more than the text of its candidate. -/
theorem length_contextText_le {items : List Json} (h : List.Forall₂ Includes candidates items)
    (hobj : ∀ candidate ∈ candidates, candidate.isObj = true) :
    List.Forall₂ (fun t t' => t.length ≤ t'.length) (items.map contextText)
      (candidates.map fun candidate => textOf candidate "text") := by
  induction h with
  | nil => exact .nil
  | cons hitem _ ih =>
      obtain ⟨included, hshown, rfl⟩ := hitem
      refine .cons ?_ (ih fun candidate hmem => hobj candidate (List.mem_cons_of_mem _ hmem))
      rw [contextText_resultFor (hobj _ List.mem_cons_self), ← String.length_toList,
        ← String.length_toList]
      exact hshown.length_le

theorem filled_of_outcome (hheld : Holds context selection)
    (h : Outcome max_chars candidates selection) :
    ∀ candidate ∈ candidates.take context.items.length, textOf candidate "text" ≠ "" := by
  intro candidate hmem
  cases h with
  | unspent done after hsplit htaken _ =>
      rw [hheld.items, htaken.selected, List.length_map, hsplit, List.take_left] at hmem
      exact htaken.filled candidate hmem
  | spent done after last included hsplit hspent =>
      rw [hheld.items, hspent.selected, List.length_append, List.length_map, hsplit,
        List.take_length_add_append] at hmem
      rcases List.mem_append.mp hmem with hmem | hmem
      · exact hspent.filled candidate hmem
      · rw [List.length_singleton, List.take_one, List.head?_cons, Option.toList_some,
          List.mem_singleton] at hmem
        subst hmem
        intro hblank
        have hshown := hspent.shown
        rw [hblank] at hshown
        exact hspent.nonempty (String.toList_inj.mp (List.prefix_nil.mp hshown))

/-- The loop does not get past a blank candidate. -/
theorem length_items_le_of_blank {blank : Json} (hheld : Holds context selection)
    (h : Outcome max_chars (done ++ blank :: rest) selection)
    (hblank : textOf blank "text" = "") : context.items.length ≤ done.length := by
  by_contra hover
  refine filled_of_outcome hheld h blank ?_ hblank
  obtain ⟨n, hn⟩ := Nat.exists_eq_add_of_lt (not_le.mp hover)
  rw [hn, Nat.add_assoc, List.take_length_add_append]
  exact List.mem_append_right _ List.mem_cons_self

theorem blanksLast_of_leavesNoneOut (hheld : Holds context selection)
    (h : Outcome max_chars candidates selection)
    (hobj : ∀ candidate ∈ candidates, candidate.isObj = true) {limit : ℕ}
    (hnone : LeavesNoneOut max_chars (candidates.take limit) context) :
    BlanksLast max_chars ((candidates.take limit).map fun candidate => textOf candidate "text") := by
  intro before after hsplit _ hroom
  obtain ⟨front, back, hfront, rfl, hback⟩ := List.map_eq_append_iff.mp hsplit
  obtain ⟨blank, rest, rfl, hblank, rfl⟩ := List.map_eq_cons_iff.mp hback
  have hwhole : candidates = front ++ blank :: (rest ++ candidates.drop limit) := by
    rw [← List.cons_append, ← List.append_assoc, ← hfront, List.take_append_drop]
  have hreach : context.items.length ≤ front.length :=
    length_items_le_of_blank hheld (hwhole ▸ h) hblank
  have hshort := length_contextText_le (respects_of_outcome hheld h hobj).items
    fun candidate hmem => hobj candidate (List.mem_of_mem_take hmem)
  have hroom' : Room max_chars (context.items.map contextText) := by
    apply hroom.of_forall₂
    rw [List.length_map, ← List.map_take]
    rw [hwhole, List.take_append_of_le_length hreach] at hshort
    exact hshort
  intro text htext
  obtain ⟨candidate, hmem, rfl⟩ := List.mem_map.mp htext
  by_contra hfilled
  refine hnone candidate ?_ hfilled hroom'
  rw [hfront, List.drop_append, Nat.sub_eq_zero_of_le hreach, List.drop_zero]
  exact List.mem_append_right _ (List.mem_cons_of_mem _ hmem)

theorem leavesNoneOut_of_taken {after : List Json} {limit : ℕ} (hheld : Holds context selection)
    (htaken : Taken max_chars done selection) (hstops : Stops max_chars done after)
    (hobj : ∀ candidate ∈ done, candidate.isObj = true)
    (hlast : BlanksLast max_chars
      (((done ++ after).take limit).map fun candidate => textOf candidate "text")) :
    LeavesNoneOut max_chars ((done ++ after).take limit) context := by
  intro candidate hmem hfilled hroom
  have hitems : context.items.length = done.length := by
    rw [hheld.items, htaken.selected, List.length_map]
  rw [hheld.items, htaken.selected, map_contextText_whole hobj] at hroom
  by_cases hlimit : limit ≤ done.length
  · -- All of the first candidates are in the context.
    rw [List.drop_eq_nil_of_le] at hmem
    · cases hmem
    · rw [List.length_take, hitems]
      exact (min_le_left _ _).trans hlimit
  · obtain ⟨n, rfl⟩ := Nat.exists_eq_add_of_lt (not_le.mp hlimit)
    rw [Nat.add_assoc, List.take_length_add_append] at hmem hlast
    rw [hitems, List.drop_left] at hmem
    cases after with
    | nil => cases hmem
    | cons blank rest =>
        have hblank : textOf blank "text" = "" := hstops.resolve_left fun hfull => hfull hroom
        rw [List.take_succ_cons] at hmem hlast
        have hblanks := hlast (done.map fun candidate => textOf candidate "text")
          ((rest.take n).map fun candidate => textOf candidate "text")
          (by rw [List.map_append, List.map_cons, hblank])
          (List.forall_mem_map.mpr htaken.filled) hroom
        rcases List.mem_cons.mp hmem with rfl | hmem
        · exact hfilled hblank
        · exact hfilled (hblanks _ (List.mem_map_of_mem hmem))

theorem not_room_of_spent {included : String} (hheld : Holds context selection)
    (hspent : Spent max_chars done candidate included selection)
    (hobj : ∀ candidate ∈ done, candidate.isObj = true) (hlast : candidate.isObj = true) :
    ¬ Room max_chars (context.items.map contextText) := by
  rw [hheld.items, hspent.selected, List.map_append, List.map_singleton,
    map_contextText_whole hobj, contextText_resultFor hlast, Room, Text.join_concat,
    String.length_append, String.length_append]
  have hused := hspent.used
  rw [hspent.chunks, hspent.spent] at hused
  push_cast
  omega

/-- Of the first candidates, none with a text is left out exactly if the blank ones come last. -/
theorem leavesNoneOut_iff (hheld : Holds context selection)
    (h : Outcome max_chars candidates selection)
    (hobj : ∀ candidate ∈ candidates, candidate.isObj = true) (limit : ℕ) :
    LeavesNoneOut max_chars (candidates.take limit) context ↔
      BlanksLast max_chars ((candidates.take limit).map fun candidate => textOf candidate "text") := by
  constructor
  · exact blanksLast_of_leavesNoneOut hheld h hobj
  · intro hblanks
    cases h with
    | unspent done after hsplit htaken hstops =>
        subst hsplit
        exact leavesNoneOut_of_taken hheld htaken hstops
          (fun candidate hmem => hobj candidate (List.mem_append_left _ hmem)) hblanks
    | spent done after last included hsplit hspent =>
        subst hsplit
        intro candidate _ _
        exact not_room_of_spent hheld hspent
          (fun candidate hmem => hobj candidate (List.mem_append_left _ hmem))
          (hobj last (List.mem_append_right _ List.mem_cons_self))

variable {int : Json → Except Error ℤ} {self : BudgetedContextProvider}

theorem build_context_ok {request service : Json} {query : String} {pack_ids : List String}
    {limit : ℤ} (hrequest : readRequest int request = .ok ⟨query, pack_ids, limit⟩)
    (hcandidates : self.candidatesFor query pack_ids limit = .ok candidates)
    (hobj : ∀ candidate ∈ candidates, candidate.isObj = true)
    (hservice : self.metadata = .ok service) :
    ∃ context selection, build_context int self request = .ok context ∧
      Holds context selection ∧ Outcome self.max_chars candidates selection := by
  obtain ⟨selection, hselect, houtcome⟩ := select_spec (taken_nil self.positive) hobj
  refine ⟨_, selection, bind_eq_ok.mpr ⟨_, hrequest, bind_eq_ok.mpr ⟨_, hcandidates,
    bind_eq_ok.mpr ⟨_, hselect, bind_eq_ok.mpr ⟨_, hservice, rfl⟩⟩⟩⟩, ?_, houtcome⟩
  exact ⟨rfl, rfl, rfl⟩

/-- A context is built for every list of candidates; it keeps to the budget, and leaves out no
candidate with a text while there is room exactly where blank candidates come last. -/
theorem build_context_uses_budget_iff (int : Json → Except Error ℤ)
    (self : BudgetedContextProvider) (request service : Json) (query : String)
    (pack_ids : List String) (limit : ℤ) (candidates : List Json)
    (hrequest : readRequest int request = .ok ⟨query, pack_ids, limit⟩)
    (hcandidates : self.candidatesFor query pack_ids limit = .ok candidates)
    (hobj : ∀ candidate ∈ candidates, candidate.isObj = true)
    (hservice : self.metadata = .ok service) :
    ∃ context, build_context int self request = .ok context ∧
      Respects self.max_chars candidates context ∧
      (Respects self.max_chars candidates context ∧
          LeavesNoneOut self.max_chars (candidates.take limit.toNat) context ↔
        BlanksLast self.max_chars
          ((candidates.take limit.toNat).map fun candidate => textOf candidate "text")) := by
  obtain ⟨context, selection, hbuilt, hheld, houtcome⟩ :=
    build_context_ok hrequest hcandidates hobj hservice
  have hrespects := respects_of_outcome hheld houtcome hobj
  refine ⟨context, hbuilt, hrespects, ?_⟩
  rw [← leavesNoneOut_iff hheld houtcome hobj, and_iff_right hrespects]

/-- A provider over a fixed list of candidates. -/
def overCandidates (candidates : List Json) : BudgetedContextProvider where
  search _ _ _ := .ok candidates
  reranker := none
  max_chars := 10
  positive := by decide
  metadata := .ok .null

def plainInt : Json → Except Error ℤ
  | .int n => .ok n
  | _ => .error .typeError

def sampleRequest : Json :=
  .obj [("query", .str "q"), ("pack_ids", .arr []), ("limit", .int 8)]

def textCandidate (text : String) : Json := .obj [("text", .str text)]

theorem build_context_uses_budget_iff_sample :
    ∃ context, build_context plainInt (overCandidates [textCandidate "a long text"])
        sampleRequest = .ok context ∧
      Respects 10 [textCandidate "a long text"] context ∧
      (Respects 10 [textCandidate "a long text"] context ∧
          LeavesNoneOut 10 ([textCandidate "a long text"].take 8) context ↔
        BlanksLast 10 (([textCandidate "a long text"].take 8).map fun candidate =>
          textOf candidate "text")) :=
  build_context_uses_budget_iff plainInt (overCandidates [textCandidate "a long text"])
    sampleRequest .null "q" [] 8 _ rfl rfl (by decide) rfl

/-- A blank candidate ends the loop before the next one, for which there is room. -/
theorem blank_candidate_ends_loop :
    ¬ ∀ (int : Json → Except Error ℤ) (self : BudgetedContextProvider) (request service : Json)
      (query : String) (pack_ids : List String) (limit : ℤ) (candidates : List Json)
      (context : BuiltContext), readRequest int request = .ok ⟨query, pack_ids, limit⟩ →
        1 ≤ limit → self.candidatesFor query pack_ids limit = .ok candidates →
        (∀ candidate ∈ candidates, candidate.isObj = true) → self.metadata = .ok service →
        build_context int self request = .ok context →
          Respects self.max_chars candidates context ∧
            LeavesNoneOut self.max_chars (candidates.take limit.toNat) context := by
  intro h
  have hroom : Room 10 [] := by decide
  have hkept := h plainInt (overCandidates [textCandidate "", textCandidate "x"]) sampleRequest
    .null "q" [] 8 _ _ rfl (by decide) rfl (by decide) rfl rfl
  exact hkept.2 (textCandidate "x") (by decide) (by decide) hroom

end BudgetedContextProvider

end FossilCore
