import FossilCore.TrustedLocal.ReleaseGate
import FossilCore.TrustedLocal.Revocation

/-!
# The comments of a closeout

`terminal_text` of `trusted_local_broker.py` and `closeout` of `run_trusted_local_broker.py`: the
comments that end a work order, and what each parser of the queue reads in them.  The detail of the
receipt is the output of the worker; line feeds are taken out of it, and no other line break.
-/

namespace FossilCore

open Base Base.Pattern

inductive TerminalStatus where
  | PASS
  | FAILED
  | BLOCKED
  deriving DecidableEq, Repr

def TerminalStatus.text : TerminalStatus → String
  | .PASS => "PASS"
  | .FAILED => "FAILED"
  | .BLOCKED => "BLOCKED"

/-- `status.lower()` -/
def TerminalStatus.lower : TerminalStatus → String
  | .PASS => "pass"
  | .FAILED => "failed"
  | .BLOCKED => "blocked"

structure Receipt where
  terminal_status : TerminalStatus
  detail : String
  deriving DecidableEq, Repr

/-- An empty URL is none. -/
def shownUrl (pr_url : Option String) : Option String := pr_url.filter (· ≠ "")

def reference (pr_url : Option String) : String :=
  match shownUrl pr_url with
  | some url => " pr=" ++ url
  | none => ""

def terminalText (order : WorkOrder) (receipt : Receipt) (pr_url : Option String) :
    Except RunnerError String := do
  let generation ← liftRaised (liftPy (strOf order.generation))
  return "WORKORDER_DONE task=" ++ order.task_id ++ " attempt_id=" ++ order.attempt_id ++
    " generation=" ++ generation ++ " status=" ++ receipt.terminal_status.text ++
    reference pr_url

/-- `detail.replace("\n", " ")[:1200]` -/
def cleanDetail (detail : String) : String :=
  String.ofList ((detail.toList.map fun c => if c = '\n' then ' ' else c).take 1200)

/-- The comment that ends the task. -/
def resultText (task : QueueTask) (receipt : Receipt) (agent : String) (pr_url : Option String) :
    String :=
  let detail := cleanDetail receipt.detail
  if receipt.terminal_status = .PASS then
    "DONE task=" ++ task.task_id ++ "\nagent=" ++ agent ++ "\nresult=LOCAL_CODEX_PASS\n" ++
      "refs=" ++ (shownUrl pr_url).getD "no-pr" ++ "\ntests=parent-broker independent checks PASS; detail=" ++
      detail
  else
    "BLOCKED task=" ++ task.task_id ++ "\nagent=" ++ agent ++ "\nclass=LOCAL_CODEX_" ++
      receipt.terminal_status.text ++ "\n" ++ "evidence=" ++ detail

def closeoutRelease (task : QueueTask) (receipt : Receipt) (agent : String) : String :=
  "RELEASE task=" ++ task.task_id ++ " agent=" ++ agent ++ " reason=local-broker-terminal-" ++
    receipt.terminal_status.lower

/-- The bodies of the comments of `closeout`, in order. -/
def closeoutTexts (task : QueueTask) (work_order : Option WorkOrder) (receipt : Receipt)
    (agent : String) (pr_url : Option String) : Except RunnerError (List String) := do
  let done ← match work_order with
    | some order => (terminalText order receipt pr_url).map fun text => [text]
    | none => pure []
  return done ++ [resultText task receipt agent pr_url, closeoutRelease task receipt agent]

/-! ## What the parsers read -/

/-- Each parser of the queue reads the end of the attempt, the end of the task and the release of
the claim, and nothing else. -/
structure ReadAsCloseout (texts : List String) (task_id : String) (work_order : Option WorkOrder)
    (agent : String) : Prop where
  releases : texts.flatMap (finditer RELEASE_LINE) = [⟨task_id, agent⟩]
  renewals : texts.flatMap (finditer RENEW_LINE) = []
  claims : texts.filterMap (search CLAIM_LINE) = []
  orders : texts.flatMap (finditer WORKORDER) = []
  ended : texts.flatMap (finditer WORKORDER_DONE) = work_order.toList.map fun order =>
    ⟨order.task_id, order.attempt_id, toString order.generation⟩
  cancelled : texts.flatMap (finditer WORKORDER_CANCEL) = []
  localQueue : (texts.map trustedComment).filterMap localReading = [(task_id, none)]
  privilegedQueue : (texts.map trustedComment).filterMap privilegedReading = [(task_id, none)]
  supervisor : Supervisor.parseReleaseDirectives (texts.map trustedComment) = []

section Texts

variable {task : QueueTask} {receipt : Receipt} {agent : String} {pr_url : Option String}

theorem newline_not_mem_cleanDetail (detail : String) : '\n' ∉ (cleanDetail detail).toList := by
  intro h
  rw [cleanDetail, String.toList_ofList] at h
  obtain ⟨c, -, hc⟩ := List.mem_map.mp (List.mem_of_mem_take h)
  split at hc
  · cases hc
  · contradiction

theorem newline_not_mem_status (status : TerminalStatus) : '\n' ∉ status.text.toList := by
  cases status <;> decide

theorem newline_not_mem_lower (status : TerminalStatus) : '\n' ∉ status.lower.toList := by
  cases status <;> decide

/-- The URL has no whitespace. -/
def PlainUrl (pr_url : Option String) : Prop :=
  ∀ url ∈ pr_url, ∀ c ∈ url.toList, Text.isWhitespace c = false

theorem isToken_of_shownUrl (h : PlainUrl pr_url) {url : String} (hurl : shownUrl pr_url = some url) :
    Text.IsToken url := by
  obtain ⟨hmem, hne⟩ := Option.filter_eq_some_iff.mp hurl
  exact ⟨of_decide_eq_true hne, h url hmem⟩

theorem isToken_url (h : PlainUrl pr_url) : Text.IsToken ((shownUrl pr_url).getD "no-pr") := by
  cases hurl : shownUrl pr_url with
  | none => decide
  | some url => exact isToken_of_shownUrl h hurl

theorem no_break_reference (h : PlainUrl pr_url) {c : Char} (hc : c ∈ (reference pr_url).toList) :
    Text.isLineBreak c = false := by
  unfold reference at hc
  cases hurl : shownUrl pr_url with
  | none =>
      rw [hurl] at hc
      cases hc
  | some url =>
      rw [hurl] at hc
      exact Text.no_break_append.mpr
        ⟨by decide, fun c => (isToken_of_shownUrl h hurl).no_break⟩ c hc

theorem newline_not_mem_reference (h : PlainUrl pr_url) :
    '\n' ∉ (reference pr_url).toList := fun hmem => by
  have hbreak := no_break_reference h hmem
  revert hbreak
  decide

theorem linesStartWith_closeoutRelease (htask : Text.IsToken task.task_id)
    (hagent : Text.IsToken agent) :
    LinesStartWith ["RELEASE task="] (closeoutRelease task receipt agent) := by
  have hvalue : '\n' ∉ (task.task_id ++ (" agent=" ++ (agent ++
      (" reason=local-broker-terminal-" ++ receipt.terminal_status.lower)))).toList := by
    simp only [newline_not_mem_append]
    exact ⟨newline_not_mem_of_isToken htask, by decide, newline_not_mem_of_isToken hagent,
      by decide, newline_not_mem_lower _⟩
  have hlines := LinesStartWith.line "RELEASE task=" (by decide) hvalue
  unfold closeoutRelease
  simpa only [String.append_assoc] using hlines

theorem resultText_pass (h : receipt.terminal_status = .PASS) :
    resultText task receipt agent pr_url =
      "DONE task=" ++ (task.task_id ++ ("\n" ++ ("agent=" ++ (agent ++ ("\n" ++ ("result=" ++
        ("LOCAL_CODEX_PASS" ++ ("\n" ++ ("refs=" ++ ((shownUrl pr_url).getD "no-pr" ++ ("\n" ++ ("tests=" ++
          ("parent-broker independent checks PASS; detail=" ++
            cleanDetail receipt.detail))))))))))))) := by
  have hagent : "\nagent=" = "\n" ++ "agent=" := by decide
  have hresult : "\nresult=LOCAL_CODEX_PASS\n" =
      "\n" ++ "result=" ++ "LOCAL_CODEX_PASS" ++ "\n" := by decide
  have htests : "\ntests=parent-broker independent checks PASS; detail=" =
      "\n" ++ "tests=" ++ "parent-broker independent checks PASS; detail=" := by decide
  unfold resultText
  rw [if_pos h, hagent, hresult, htests]
  simp only [String.append_assoc]

theorem resultText_stopped (h : receipt.terminal_status ≠ .PASS) :
    resultText task receipt agent pr_url =
      "BLOCKED task=" ++ (task.task_id ++ ("\n" ++ ("agent=" ++ (agent ++ ("\n" ++ ("class=" ++
        (("LOCAL_CODEX_" ++ receipt.terminal_status.text) ++ ("\n" ++ ("evidence=" ++
          cleanDetail receipt.detail))))))))) := by
  have hagent : "\nagent=" = "\n" ++ "agent=" := by decide
  have hclass : "\nclass=LOCAL_CODEX_" = "\n" ++ "class=" ++ "LOCAL_CODEX_" := by decide
  unfold resultText
  rw [if_neg h, hagent, hclass]
  simp only [String.append_assoc]

/-- The lines of the comment that ends the task. -/
theorem linesStartWith_resultText (htask : Text.IsToken task.task_id)
    (hagent : Text.IsToken agent) (hurl : PlainUrl pr_url) :
    LinesStartWith
      (if receipt.terminal_status = .PASS then ["DONE task=", "agent=", "result=", "refs=", "tests="]
        else ["BLOCKED task=", "agent=", "class=", "evidence="])
      (resultText task receipt agent pr_url) := by
  have hdetail := newline_not_mem_cleanDetail receipt.detail
  have htask' := newline_not_mem_of_isToken htask
  have hagent' := newline_not_mem_of_isToken hagent
  split
  · rename_i hpass
    have hlast : '\n' ∉ ("parent-broker independent checks PASS; detail=" ++
        cleanDetail receipt.detail).toList :=
      newline_not_mem_append.mpr ⟨by decide, hdetail⟩
    rw [resultText_pass hpass]
    apply LinesStartWith.cons "DONE task=" (by decide) htask'
    apply LinesStartWith.cons "agent=" (by decide) hagent'
    apply LinesStartWith.cons "result=" (by decide) (by decide)
    apply LinesStartWith.cons "refs=" (by decide) (newline_not_mem_of_isToken (isToken_url hurl))
    exact LinesStartWith.line "tests=" (by decide) hlast
  · rename_i hstopped
    have hstatus : '\n' ∉ ("LOCAL_CODEX_" ++ receipt.terminal_status.text).toList :=
      newline_not_mem_append.mpr ⟨by decide, newline_not_mem_status _⟩
    rw [resultText_stopped hstopped]
    apply LinesStartWith.cons "BLOCKED task=" (by decide) htask'
    apply LinesStartWith.cons "agent=" (by decide) hagent'
    apply LinesStartWith.cons "class=" (by decide) hstatus
    exact LinesStartWith.line "evidence=" (by decide) hdetail

/-- The comment that ends the task, and nothing else on its lines. -/
theorem silent_resultText (htask : Text.IsToken task.task_id) (hagent : Text.IsToken agent)
    (hurl : PlainUrl pr_url) {α : Type} {m : Pattern α} {word : String}
    (hm : HasKeyword m word)
    (hdiverges : ["DONE task=", "BLOCKED task=", "agent=", "result=", "refs=", "tests=", "class=",
      "evidence="].all (Diverges word) = true) :
    Silent m (resultText task receipt agent pr_url) := by
  refine (linesStartWith_resultText htask hagent hurl).silent hm (List.all_eq_true.mpr ?_)
  intro head hhead
  refine List.all_eq_true.mp hdiverges head ?_
  split at hhead
  · simp only [List.mem_cons, List.not_mem_nil, or_false] at hhead ⊢
    tauto
  · simp only [List.mem_cons, List.not_mem_nil, or_false] at hhead ⊢
    tauto

/-- The directive at the front of a text of several lines. -/
theorem run_directive_line {keyword head task_id : String} (hhead : head = keyword ++ " task=")
    (htask : Text.IsToken task_id) (rest : String) :
    ∃ behind, (directive keyword).run (head ++ (task_id ++ ("\n" ++ rest))).toList =
      some (task_id, behind) := by
  have hlist : (head ++ (task_id ++ ("\n" ++ rest))).toList = keyword.toList ++
      (' ' :: (("task" ++ "=").toList ++ (task_id.toList ++ ('\n' :: rest.toList)))) := by
    simp [hhead, String.toList_append]
  have hstops : Stops (fun c => !Text.isWhitespace c) ('\n' :: rest.toList) := by
    intro c hc
    cases hc
    decide
  rw [hlist]
  exact ⟨_, run_directive htask hstops⟩

theorem search_terminal_resultText (htask : Text.IsToken task.task_id) :
    search TERMINAL_TASK (resultText task receipt agent pr_url) = some task.task_id := by
  by_cases hpass : receipt.terminal_status = .PASS
  · obtain ⟨behind, hrun⟩ := run_directive_line (by decide : "DONE task=" = "DONE" ++ " task=") htask _
    rw [resultText_pass hpass]
    apply search_of_run
    rw [TERMINAL_TASK, run_orElse, hrun]
    rfl
  · obtain ⟨behind, hrun⟩ :=
      run_directive_line (by decide : "BLOCKED task=" = "BLOCKED" ++ " task=") htask _
    rw [resultText_stopped hpass]
    apply search_of_run
    have hdone : (directive "DONE").run (resultText task receipt agent pr_url).toList = none := by
      apply hasKeyword_directive
      apply not_isPrefix_of_diverges (by decide : Diverges "DONE" "BLOCKED task=" = true)
      rw [resultText_stopped hpass, String.toList_append]
      exact List.prefix_append _ _
    rw [resultText_stopped hpass] at hdone
    rw [TERMINAL_TASK, run_orElse, hdone, hrun]
    rfl

/-! ## The end of the attempt -/

theorem terminalText_ok {order : WorkOrder} {text : String}
    (h : terminalText order receipt pr_url = .ok text) :
    text = ("WORKORDER_DONE" ++ " task=" ++ order.task_id ++ " attempt_id=" ++ order.attempt_id ++
        " generation=" ++ toString order.generation) ++ (" status=" ++
          (receipt.terminal_status.text ++ reference pr_url)) := by
  obtain ⟨generation, hgeneration, h⟩ := bind_eq_ok.mp h
  have hfound : strOf order.generation = .ok generation := by
    cases hstr : strOf order.generation with
    | ok found =>
        rw [hstr] at hgeneration
        cases hgeneration
        rfl
    | error e =>
        rw [hstr] at hgeneration
        cases hgeneration
  obtain ⟨rfl, -⟩ := intOf_strOf hfound
  cases h
  have hkeyword : "WORKORDER_DONE task=" = "WORKORDER_DONE" ++ " task=" := by decide
  rw [hkeyword]
  simp only [String.append_assoc]

/-- The comment that ends the attempt is one line. -/
theorem linesStartWith_terminalText {order : WorkOrder} (htask : Text.IsToken order.task_id)
    (hattempt : Text.IsToken order.attempt_id) (hurl : PlainUrl pr_url)
    {text : String} (h : terminalText order receipt pr_url = .ok text) :
    LinesStartWith ["WORKORDER_DONE task="] text := by
  have hkeyword : "WORKORDER_DONE" ++ " task=" = "WORKORDER_DONE task=" := by decide
  rw [terminalText_ok h, hkeyword]
  simp only [String.append_assoc]
  apply LinesStartWith.line _ (by decide)
  simp only [newline_not_mem_append]
  exact ⟨newline_not_mem_of_isToken htask, by decide, newline_not_mem_of_isToken hattempt,
    by decide, newline_not_mem_toString _, by decide, newline_not_mem_status _,
    newline_not_mem_reference hurl⟩

theorem finditer_done_terminalText {order : WorkOrder} (htask : Text.IsToken order.task_id)
    (hattempt : Text.IsToken order.attempt_id) (hurl : PlainUrl pr_url)
    {text : String} (h : terminalText order receipt pr_url = .ok text) :
    finditer WORKORDER_DONE text =
      [⟨order.task_id, order.attempt_id, toString order.generation⟩] := by
  have hlines := linesStartWith_terminalText htask hattempt hurl h
  have hrun := @run_workOrderLine "WORKORDER_DONE" order.task_id order.attempt_id
    (" status=" ++ (receipt.terminal_status.text ++ reference pr_url)).toList htask hattempt order.generation ?_
  · rw [← String.toList_append, ← terminalText_ok h] at hrun
    exact hlines.finditer_eq (hasKeyword_workOrderLine "WORKORDER_DONE") (by decide) hrun
  · rw [String.toList_append]
    exact fun c hc => by cases hc; decide

/-- `WORKORDER` has an underscore behind it. -/
theorem finditer_order_terminalText {order : WorkOrder} (htask : Text.IsToken order.task_id)
    (hattempt : Text.IsToken order.attempt_id) (hurl : PlainUrl pr_url)
    {text : String} (h : terminalText order receipt pr_url = .ok text) :
    finditer WORKORDER text = [] := by
  obtain ⟨start, hstart⟩ : ∃ rest, text.toList = "WORKORDER".toList ++ '_' :: rest := by
    have hkeyword : "WORKORDER_DONE".toList = "WORKORDER".toList ++ '_' :: "DONE".toList := by decide
    rw [terminalText_ok h]
    simp only [String.toList_append, List.append_assoc, hkeyword, List.cons_append]
    exact ⟨_, rfl⟩
  have hrun : WORKORDER.run text.toList = none := by
    rw [hstart]
    exact run_bind_of_none (run_directive_of_not_space (by decide) start)
  have hlines := linesStartWith_terminalText htask hattempt hurl h
  exact (hlines.silent_of_run (hasKeyword_workOrderLine "WORKORDER") rfl hrun).finditer_eq

end Texts

/-! ## What the supervisor reads -/

namespace Supervisor

/-- The releases that the lines of a comment name. -/
def releasesOf (body : String) : List Release := (Text.splitlines body).filterMap releaseOfLine

theorem parseReleaseDirectives_map (texts : List String) :
    parseReleaseDirectives (texts.map trustedComment) = texts.flatMap releasesOf := by
  have htrusted : (texts.map trustedComment).filter Comment.trusted = texts.map trustedComment :=
    List.filter_eq_self.mpr fun comment hcomment => by
      obtain ⟨text, -, rfl⟩ := List.mem_map.mp hcomment
      exact trusted_trustedComment text
  rw [parseReleaseDirectives, htrusted, List.flatMap_map]
  rfl

theorem releaseOfLine_of_word {line word : String} {rest : List String}
    (hwords : Text.words line = word :: rest) (hword : word ≠ "BROKER_RELEASE") :
    releaseOfLine line = none := by
  rw [releaseOfLine, hwords]
  exact if_neg fun h => hword h.1

theorem releaseOfLine_of_head {line : String} {c : Char} {cs : List Char}
    (hline : line.toList = c :: cs) (hc : Text.isWhitespace c = false) (hne : c ≠ 'B') :
    releaseOfLine line = none := by
  obtain ⟨rest, tokens, hwords⟩ := Text.words_cons hline hc
  refine releaseOfLine_of_word hwords fun heq => hne ?_
  have hlist := congrArg String.toList heq
  rw [String.toList_ofList] at hlist
  exact (List.cons.inj hlist).1

theorem releasesOf_line {line : String} (hne : line ≠ "")
    (hbreak : ∀ c ∈ line.toList, Text.isLineBreak c = false) (hline : releaseOfLine line = none) :
    releasesOf line = [] := by
  rw [releasesOf, Text.splitlines_of_no_break hne hbreak, List.filterMap_cons_none hline,
    List.filterMap_nil]

theorem releasesOf_cons (head : String) {value : String}
    (hhead : ∀ c ∈ head.toList, Text.isLineBreak c = false)
    (hvalue : ∀ c ∈ value.toList, Text.isLineBreak c = false)
    (hline : releaseOfLine (head ++ value) = none) (rest : String) :
    releasesOf (head ++ (value ++ ("\n" ++ rest))) = releasesOf rest := by
  have hbreak := Text.no_break_append.mpr ⟨hhead, hvalue⟩
  rw [releasesOf, ← String.append_assoc, Text.splitlines_append_newline hbreak,
    List.filterMap_cons_none hline]
  rfl

/-- Behind the text of a last line, the lines of the detail but its first are left. -/
theorem releasesOf_append {line : String} (hne : line ≠ "")
    (hbreak : ∀ c ∈ line.toList, Text.isLineBreak c = false)
    (hline : ∀ first, releaseOfLine (line ++ first) = none) (detail : String) :
    releasesOf (line ++ detail) = (Text.splitlines detail).tail.filterMap releaseOfLine := by
  obtain ⟨first, hlines⟩ := Text.splitlines_append hne hbreak detail
  rw [releasesOf, hlines, List.filterMap_cons_none (hline first)]

/-- A line with a field has no first word that the supervisor reads. -/
theorem releaseOfLine_append {head : String} {c : Char} {cs : List Char} (hhead : head.toList = c :: cs)
    (hc : Text.isWhitespace c = false) (hne : c ≠ 'B') (value : String) :
    releaseOfLine (head ++ value) = none := by
  have hline : (head ++ value).toList = c :: (cs ++ value.toList) := by
    rw [String.toList_append, hhead, List.cons_append]
  exact releaseOfLine_of_head hline hc hne

theorem releaseOfLine_blocked (value : String) : releaseOfLine ("BLOCKED task=" ++ value) = none := by
  have hhead : "BLOCKED task=" = "BLOCKED" ++ " " ++ "task=" := by decide
  rw [hhead, String.append_assoc]
  exact releaseOfLine_of_word (Text.words_space_append (by decide) _) (by decide)

theorem releasesOf_resultText {task : QueueTask} {receipt : Receipt} {agent : String}
    {pr_url : Option String} (htask : Text.IsToken task.task_id) (hagent : Text.IsToken agent)
    (hurl : PlainUrl pr_url) :
    releasesOf (resultText task receipt agent pr_url) =
      (Text.splitlines (cleanDetail receipt.detail)).tail.filterMap releaseOfLine := by
  by_cases hpass : receipt.terminal_status = .PASS
  · rw [resultText_pass hpass,
      releasesOf_cons "DONE task=" (by decide) (fun c => htask.no_break)
        (releaseOfLine_append rfl (by decide) (by decide) _),
      releasesOf_cons "agent=" (by decide) (fun c => hagent.no_break)
        (releaseOfLine_append rfl (by decide) (by decide) _),
      releasesOf_cons "result=" (by decide) (by decide)
        (releaseOfLine_append rfl (by decide) (by decide) _),
      releasesOf_cons "refs=" (by decide) (fun c => (isToken_url hurl).no_break)
        (releaseOfLine_append rfl (by decide) (by decide) _),
      ← String.append_assoc]
    apply releasesOf_append (by decide) (by decide)
    intro first
    rw [String.append_assoc]
    exact releaseOfLine_append rfl (by decide) (by decide) _
  · have hstatus : ∀ c ∈ ("LOCAL_CODEX_" ++ receipt.terminal_status.text).toList,
        Text.isLineBreak c = false := by
      cases receipt.terminal_status <;> decide
    rw [resultText_stopped hpass,
      releasesOf_cons "BLOCKED task=" (by decide) (fun c => htask.no_break)
        (releaseOfLine_blocked _),
      releasesOf_cons "agent=" (by decide) (fun c => hagent.no_break)
        (releaseOfLine_append rfl (by decide) (by decide) _),
      releasesOf_cons "class=" (by decide) hstatus
        (releaseOfLine_append rfl (by decide) (by decide) _)]
    exact releasesOf_append (by decide) (by decide)
      (fun first => releaseOfLine_append rfl (by decide) (by decide) first) _

theorem append_ne_empty {head : String} (h : head.toList ≠ []) (rest : String) : head ++ rest ≠ "" :=
  fun hempty => by
    have hnil : (head ++ rest).toList = [] := String.toList_eq_nil_iff.mpr hempty
    rw [String.toList_append] at hnil
    exact h (List.append_eq_nil_iff.mp hnil).1

theorem releasesOf_closeoutRelease {task : QueueTask} {receipt : Receipt} {agent : String}
    (htask : Text.IsToken task.task_id) (hagent : Text.IsToken agent) :
    releasesOf (closeoutRelease task receipt agent) = [] := by
  have hlower : ∀ c ∈ receipt.terminal_status.lower.toList, Text.isLineBreak c = false := by
    cases receipt.terminal_status <;> decide
  have hbreak : ∀ c ∈ (closeoutRelease task receipt agent).toList, Text.isLineBreak c = false := by
    unfold closeoutRelease
    simp only [Text.no_break_append]
    exact ⟨⟨⟨⟨⟨by decide, fun c => htask.no_break⟩, by decide⟩, fun c => hagent.no_break⟩,
      by decide⟩, hlower⟩
  obtain ⟨rest, hrest⟩ : ∃ rest, closeoutRelease task receipt agent = "RELEASE task=" ++ rest := by
    unfold closeoutRelease
    simp only [String.append_assoc]
    exact ⟨_, rfl⟩
  rw [hrest] at hbreak ⊢
  exact releasesOf_line (append_ne_empty (by decide) rest) hbreak
    (releaseOfLine_append rfl (by decide) (by decide) rest)

theorem releasesOf_terminalText {order : WorkOrder} {receipt : Receipt} {pr_url : Option String}
    (htask : Text.IsToken order.task_id) (hattempt : Text.IsToken order.attempt_id)
    (hurl : PlainUrl pr_url) {text : String} (h : terminalText order receipt pr_url = .ok text) :
    releasesOf text = [] := by
  have hgeneration : Text.IsToken (toString order.generation) :=
    ⟨toString_ne_empty _, fun c hc => isWhitespace_of_isHex
      (Bool.or_eq_true_iff.mpr (Or.inl (isDigit_of_mem_toString hc)))⟩
  have hstatus : ∀ c ∈ receipt.terminal_status.text.toList, Text.isLineBreak c = false := by
    cases receipt.terminal_status <;> decide
  have hbreak : ∀ c ∈ text.toList, Text.isLineBreak c = false := by
    rw [terminalText_ok h]
    simp only [Text.no_break_append]
    exact ⟨⟨⟨⟨⟨⟨⟨by decide, by decide⟩, fun c => htask.no_break⟩, by decide⟩,
      fun c => hattempt.no_break⟩, by decide⟩, fun c => hgeneration.no_break⟩, by decide, hstatus,
      fun c => no_break_reference hurl⟩
  have hhead : ∃ rest, text = "WORKORDER_DONE" ++ rest := by
    rw [terminalText_ok h]
    simp only [String.append_assoc]
    exact ⟨_, rfl⟩
  obtain ⟨rest, rfl⟩ := hhead
  exact releasesOf_line (append_ne_empty (by decide) rest) hbreak
    (releaseOfLine_append rfl (by decide) (by decide) rest)

end Supervisor

/-! ## The comments together -/

section Together

variable {task : QueueTask} {receipt : Receipt} {agent : String} {pr_url : Option String}

theorem localReading_resultText (htask : Text.IsToken task.task_id) (hagent : Text.IsToken agent)
    (hurl : PlainUrl pr_url) :
    localReading (trustedComment (resultText task receipt agent pr_url)) =
      some (task.task_id, none) := by
  have hready : search TASK_DIRECTIVE (resultText task receipt agent pr_url) = none :=
    (silent_resultText htask hagent hurl hasKeyword_task (by decide)).search_eq
  have hcancel : search CANCEL_TASK (resultText task receipt agent pr_url) = none :=
    (silent_resultText htask hagent hurl (hasKeyword_directive "CANCEL") (by decide)).search_eq
  rw [localReading, reading, if_pos (trusted_trustedComment _)]
  simp only [trustedComment, hready, List.findSome?_cons, hcancel, search_terminal_resultText htask]
  rfl

theorem privilegedReading_resultText (htask : Text.IsToken task.task_id)
    (hagent : Text.IsToken agent) (hurl : PlainUrl pr_url) :
    privilegedReading (trustedComment (resultText task receipt agent pr_url)) =
      some (task.task_id, none) := by
  have hready : search TASK_DIRECTIVE (resultText task receipt agent pr_url) = none :=
    (silent_resultText htask hagent hurl hasKeyword_task (by decide)).search_eq
  rw [privilegedReading, reading, if_pos (trusted_trustedComment _)]
  simp only [trustedComment, hready, List.findSome?_cons, search_terminal_resultText htask]
  rfl

/-- A comment whose lines start with none of the words of a queue. -/
theorem reading_of_silent {α : Type} (parse : Comment → Option α) {withdraw : List (Pattern String)}
    {text : String} (htask : Silent TASK_DIRECTIVE text)
    (hwithdraw : ∀ m ∈ withdraw, Silent m text) :
    reading parse withdraw (trustedComment text) = none := by
  have hnone : withdraw.findSome? (fun m => search m text) = none :=
    List.findSome?_eq_none_iff.mpr fun m hm => (hwithdraw m hm).search_eq
  rw [reading, if_pos (trusted_trustedComment _)]
  simp only [trustedComment, htask.search_eq, hnone]
  rfl

theorem silent_closeoutRelease (htask : Text.IsToken task.task_id) (hagent : Text.IsToken agent)
    {α : Type} {m : Pattern α} {word : String} (hm : HasKeyword m word)
    (hdiverges : Diverges word "RELEASE task=" = true) :
    Silent m (closeoutRelease task receipt agent) := by
  refine (linesStartWith_closeoutRelease htask hagent).silent hm ?_
  rw [List.all_cons, hdiverges]
  rfl

theorem silent_terminalText {order : WorkOrder} (htask : Text.IsToken order.task_id)
    (hattempt : Text.IsToken order.attempt_id) (hurl : PlainUrl pr_url) {text : String}
    (h : terminalText order receipt pr_url = .ok text) {α : Type} {m : Pattern α} {word : String}
    (hm : HasKeyword m word) (hdiverges : Diverges word "WORKORDER_DONE task=" = true) :
    Silent m text := by
  refine (linesStartWith_terminalText htask hattempt hurl h).silent hm ?_
  rw [List.all_cons, hdiverges]
  rfl

theorem finditer_release_closeoutRelease (htask : Text.IsToken task.task_id)
    (hagent : Text.IsToken agent) :
    finditer RELEASE_LINE (closeoutRelease task receipt agent) = [⟨task.task_id, agent⟩] := by
  have hlines : LinesStartWith ["RELEASE task="] (closeoutRelease task receipt agent) :=
    linesStartWith_closeoutRelease htask hagent
  have hstops : Stops (fun c => !Text.isWhitespace c)
      (" reason=local-broker-terminal-" ++ receipt.terminal_status.lower).toList := by
    rw [String.toList_append]
    exact fun c hc => by cases hc; decide
  have hrun := run_release htask hagent hstops
  rw [← String.toList_append, ← String.append_assoc] at hrun
  exact hlines.finditer_eq hasKeyword_release rfl hrun

/-- No line of the text is read as a claim, a renewal, an order or a cancellation. -/
structure Inert (text : String) : Prop where
  renewals : finditer RENEW_LINE text = []
  claims : search CLAIM_LINE text = none
  orders : finditer WORKORDER text = []
  cancelled : finditer WORKORDER_CANCEL text = []

theorem inert_resultText (htask : Text.IsToken task.task_id) (hagent : Text.IsToken agent)
    (hurl : PlainUrl pr_url) : Inert (resultText task receipt agent pr_url) where
  renewals := (silent_resultText htask hagent hurl hasKeyword_renew (by decide)).finditer_eq
  claims :=
    (silent_resultText htask hagent hurl (hasKeyword_directive "CLAIM") (by decide)).search_eq
  orders := (silent_resultText htask hagent hurl (hasKeyword_workOrderLine "WORKORDER")
    (by decide)).finditer_eq
  cancelled := (silent_resultText htask hagent hurl (hasKeyword_workOrderLine "WORKORDER_CANCEL")
    (by decide)).finditer_eq

theorem inert_closeoutRelease (htask : Text.IsToken task.task_id) (hagent : Text.IsToken agent) :
    Inert (closeoutRelease task receipt agent) where
  renewals := (silent_closeoutRelease htask hagent hasKeyword_renew (by decide)).finditer_eq
  claims := (silent_closeoutRelease htask hagent (hasKeyword_directive "CLAIM") (by decide)).search_eq
  orders := (silent_closeoutRelease htask hagent (hasKeyword_workOrderLine "WORKORDER")
    (by decide)).finditer_eq
  cancelled := (silent_closeoutRelease htask hagent (hasKeyword_workOrderLine "WORKORDER_CANCEL")
    (by decide)).finditer_eq

theorem inert_terminalText {order : WorkOrder} (htask : Text.IsToken order.task_id)
    (hattempt : Text.IsToken order.attempt_id) (hurl : PlainUrl pr_url) {text : String}
    (h : terminalText order receipt pr_url = .ok text) : Inert text where
  renewals :=
    (silent_terminalText htask hattempt hurl h hasKeyword_renew (by decide)).finditer_eq
  claims :=
    (silent_terminalText htask hattempt hurl h (hasKeyword_directive "CLAIM") (by decide)).search_eq
  orders := finditer_order_terminalText htask hattempt hurl h
  cancelled := (silent_terminalText htask hattempt hurl h
    (hasKeyword_workOrderLine "WORKORDER_CANCEL") (by decide)).finditer_eq

theorem readings_of_silent {α : Type} (parse : Comment → Option α) {text : String}
    (h : ∀ word ∈ ["TASK", "CANCEL", "DONE", "BLOCKED"],
      ∀ {α : Type} {m : Pattern α}, HasKeyword m word → Silent m text) :
    reading parse [CANCEL_TASK, TERMINAL_TASK] (trustedComment text) = none ∧
      reading parse [TERMINAL_TASK] (trustedComment text) = none := by
  have htask : Silent TASK_DIRECTIVE text := h "TASK" (by decide) hasKeyword_task
  have hcancel : Silent CANCEL_TASK text := h "CANCEL" (by decide) (hasKeyword_directive _)
  have hdone : Silent (directive "DONE") text := h "DONE" (by decide) (hasKeyword_directive _)
  have hblocked : Silent (directive "BLOCKED") text :=
    h "BLOCKED" (by decide) (hasKeyword_directive _)
  have hterminal : Silent TERMINAL_TASK text := hdone.orElse hblocked
  refine ⟨reading_of_silent parse htask ?_, reading_of_silent parse htask ?_⟩
  · simp only [List.mem_cons, List.not_mem_nil, or_false]
    rintro m (rfl | rfl)
    · exact hcancel
    · exact hterminal
  · simp only [List.mem_cons, List.not_mem_nil, or_false]
    rintro m rfl
    exact hterminal

theorem readings_closeoutRelease {α : Type} (parse : Comment → Option α)
    (htask : Text.IsToken task.task_id) (hagent : Text.IsToken agent) :
    reading parse [CANCEL_TASK, TERMINAL_TASK]
        (trustedComment (closeoutRelease task receipt agent)) = none ∧
      reading parse [TERMINAL_TASK] (trustedComment (closeoutRelease task receipt agent)) = none := by
  apply readings_of_silent
  simp only [List.forall_mem_cons, List.not_mem_nil, false_implies, implies_true, and_true]
  exact ⟨fun hm => silent_closeoutRelease htask hagent hm (by decide),
    fun hm => silent_closeoutRelease htask hagent hm (by decide),
    fun hm => silent_closeoutRelease htask hagent hm (by decide),
    fun hm => silent_closeoutRelease htask hagent hm (by decide)⟩

theorem readings_terminalText {α : Type} (parse : Comment → Option α) {order : WorkOrder}
    (htask : Text.IsToken order.task_id) (hattempt : Text.IsToken order.attempt_id)
    (hurl : PlainUrl pr_url) {text : String} (h : terminalText order receipt pr_url = .ok text) :
    reading parse [CANCEL_TASK, TERMINAL_TASK] (trustedComment text) = none ∧
      reading parse [TERMINAL_TASK] (trustedComment text) = none := by
  apply readings_of_silent
  simp only [List.forall_mem_cons, List.not_mem_nil, false_implies, implies_true, and_true]
  exact ⟨fun hm => silent_terminalText htask hattempt hurl h hm (by decide),
    fun hm => silent_terminalText htask hattempt hurl h hm (by decide),
    fun hm => silent_terminalText htask hattempt hurl h hm (by decide),
    fun hm => silent_terminalText htask hattempt hurl h hm (by decide)⟩

theorem finditer_release_resultText (htask : Text.IsToken task.task_id)
    (hagent : Text.IsToken agent) (hurl : PlainUrl pr_url) :
    finditer RELEASE_LINE (resultText task receipt agent pr_url) = [] :=
  (silent_resultText htask hagent hurl hasKeyword_release (by decide)).finditer_eq

theorem finditer_done_resultText (htask : Text.IsToken task.task_id)
    (hagent : Text.IsToken agent) (hurl : PlainUrl pr_url) :
    finditer WORKORDER_DONE (resultText task receipt agent pr_url) = [] :=
  (silent_resultText htask hagent hurl (hasKeyword_workOrderLine _) (by decide)).finditer_eq

theorem finditer_done_closeoutRelease (htask : Text.IsToken task.task_id)
    (hagent : Text.IsToken agent) :
    finditer WORKORDER_DONE (closeoutRelease task receipt agent) = [] :=
  (silent_closeoutRelease htask hagent (hasKeyword_workOrderLine _) (by decide)).finditer_eq

/-- Nothing is read of the text but the end of an attempt. -/
structure EndsAttempt (text : String) : Prop extends Inert text where
  releases : finditer RELEASE_LINE text = []
  localQueue : localReading (trustedComment text) = none
  privilegedQueue : privilegedReading (trustedComment text) = none
  supervisor : Supervisor.releasesOf text = []

theorem endsAttempt_terminalText {order : WorkOrder} (htask : Text.IsToken order.task_id)
    (hattempt : Text.IsToken order.attempt_id) (hurl : PlainUrl pr_url) {text : String}
    (h : terminalText order receipt pr_url = .ok text) : EndsAttempt text where
  toInert := inert_terminalText htask hattempt hurl h
  releases := (silent_terminalText htask hattempt hurl h hasKeyword_release (by decide)).finditer_eq
  localQueue := (readings_terminalText readyLocalTask htask hattempt hurl h).1
  privilegedQueue := (readings_terminalText parseTask htask hattempt hurl h).2
  supervisor := Supervisor.releasesOf_terminalText htask hattempt hurl h

/-- The end of the task and the release of the claim, behind texts that end an attempt. -/
theorem readAsCloseout_of_ends {work_order : Option WorkOrder} {ends : List String}
    (htask : Text.IsToken task.task_id) (hagent : Text.IsToken agent) (hurl : PlainUrl pr_url)
    (hends : ∀ text ∈ ends, EndsAttempt text)
    (hdone : ends.flatMap (finditer WORKORDER_DONE) = work_order.toList.map fun order =>
      ⟨order.task_id, order.attempt_id, toString order.generation⟩) :
    ReadAsCloseout
        (ends ++ [resultText task receipt agent pr_url, closeoutRelease task receipt agent])
        task.task_id work_order agent ↔
      Supervisor.releasesOf (resultText task receipt agent pr_url) = [] := by
  have hresult : Inert (resultText task receipt agent pr_url) :=
    inert_resultText htask hagent hurl
  have hrelease : Inert (closeoutRelease task receipt agent) := inert_closeoutRelease htask hagent
  have hinert : ∀ text ∈ ends ++ [resultText task receipt agent pr_url,
      closeoutRelease task receipt agent], Inert text := by
    simp only [List.forall_mem_append, List.forall_mem_cons, List.not_mem_nil, false_implies,
      implies_true, and_true]
    exact ⟨fun text htext => (hends text htext).toInert, hresult, hrelease⟩
  have hsupervisor : (ends ++ [resultText task receipt agent pr_url,
      closeoutRelease task receipt agent]).flatMap Supervisor.releasesOf =
        Supervisor.releasesOf (resultText task receipt agent pr_url) := by
    rw [List.flatMap_append, List.flatMap_eq_nil_iff.mpr fun text h => (hends text h).supervisor]
    simp only [List.flatMap_cons, List.flatMap_nil, List.nil_append, List.append_nil,
      Supervisor.releasesOf_closeoutRelease htask hagent]
  constructor
  · intro h
    have hnone := h.supervisor
    rwa [Supervisor.parseReleaseDirectives_map, hsupervisor] at hnone
  · intro h
    refine ⟨?_, ?_, ?_, ?_, ?_, ?_, ?_, ?_, ?_⟩
    · rw [List.flatMap_append, List.flatMap_eq_nil_iff.mpr fun text h => (hends text h).releases]
      simp only [List.flatMap_cons, List.flatMap_nil, List.nil_append, List.append_nil,
        finditer_release_resultText htask hagent hurl,
        finditer_release_closeoutRelease htask hagent]
    · exact List.flatMap_eq_nil_iff.mpr fun text htext => (hinert text htext).renewals
    · exact List.filterMap_eq_nil_iff.mpr fun text htext => (hinert text htext).claims
    · exact List.flatMap_eq_nil_iff.mpr fun text htext => (hinert text htext).orders
    · rw [List.flatMap_append, hdone]
      simp only [List.flatMap_cons, List.flatMap_nil, List.append_nil,
        finditer_done_resultText htask hagent hurl, finditer_done_closeoutRelease htask hagent]
    · exact List.flatMap_eq_nil_iff.mpr fun text htext => (hinert text htext).cancelled
    · have hlocal : ∀ text ∈ ends, (localReading ∘ trustedComment) text = none :=
        fun text htext => (hends text htext).localQueue
      have hlast : localReading (trustedComment (closeoutRelease task receipt agent)) = none :=
        (readings_closeoutRelease readyLocalTask htask hagent).1
      rw [List.filterMap_map, List.filterMap_append, List.filterMap_eq_nil_iff.mpr hlocal]
      simp only [List.filterMap_cons, List.filterMap_nil, Function.comp_apply, List.nil_append,
        localReading_resultText htask hagent hurl, hlast]
    · have hprivileged : ∀ text ∈ ends, (privilegedReading ∘ trustedComment) text = none :=
        fun text htext => (hends text htext).privilegedQueue
      have hlast : privilegedReading (trustedComment (closeoutRelease task receipt agent)) = none :=
        (readings_closeoutRelease parseTask htask hagent).2
      rw [List.filterMap_map, List.filterMap_append, List.filterMap_eq_nil_iff.mpr hprivileged]
      simp only [List.filterMap_cons, List.filterMap_nil, Function.comp_apply, List.nil_append,
        privilegedReading_resultText htask hagent hurl, hlast]
    · rw [Supervisor.parseReleaseDirectives_map, hsupervisor, h]

theorem closeoutTexts_ok {work_order : Option WorkOrder} {texts : List String}
    (h : closeoutTexts task work_order receipt agent pr_url = .ok texts) :
    ∃ ends, texts =
        ends ++ [resultText task receipt agent pr_url, closeoutRelease task receipt agent] ∧
      match work_order with
      | none => ends = []
      | some order => ∃ text, terminalText order receipt pr_url = .ok text ∧ ends = [text] := by
  cases work_order with
  | none =>
      cases h
      exact ⟨[], rfl, rfl⟩
  | some order =>
      obtain ⟨ends, hends, h⟩ := bind_eq_ok.mp h
      cases h
      cases htext : terminalText order receipt pr_url with
      | ok text =>
          rw [htext] at hends
          cases hends
          exact ⟨[text], rfl, text, htext, rfl⟩
      | error e =>
          rw [htext] at hends
          cases hends

end Together

/-- The comments of a closeout are read as it was meant exactly where the lines of the detail behind
its first name no release. -/
theorem closeout_read_iff (task : QueueTask) (work_order : Option WorkOrder) (receipt : Receipt)
    (agent : String) (pr_url : Option String) (texts : List String)
    (htask : Text.IsToken task.task_id) (hagent : Text.IsToken agent)
    (horder : ∀ order ∈ work_order, Text.IsToken order.task_id ∧ Text.IsToken order.attempt_id)
    (hurl : PlainUrl pr_url) (h : closeoutTexts task work_order receipt agent pr_url = .ok texts) :
    ReadAsCloseout texts task.task_id work_order agent ↔
      ∀ line ∈ (Text.splitlines (cleanDetail receipt.detail)).tail,
        Supervisor.releaseOfLine line = none := by
  obtain ⟨ends, rfl, hends⟩ := closeoutTexts_ok h
  rw [← List.filterMap_eq_nil_iff, ← Supervisor.releasesOf_resultText htask hagent hurl]
  cases work_order with
  | none =>
      rw [hends]
      exact readAsCloseout_of_ends htask hagent hurl (fun text htext => nomatch htext) rfl
  | some order =>
      obtain ⟨text, htext, rfl⟩ := hends
      obtain ⟨horderTask, hattempt⟩ := horder order rfl
      apply readAsCloseout_of_ends htask hagent hurl
      · intro other hother
        obtain rfl := List.mem_singleton.mp hother
        exact endsAttempt_terminalText horderTask hattempt hurl htext
      · rw [List.flatMap_singleton, finditer_done_terminalText horderTask hattempt hurl htext]
        rfl

def sampleTask : QueueTask :=
  ⟨"INFRA-03", "Pukujan/fossil-core", "CLOUD_SECRETLESS", Supervisor.sampleSha, "luna", "", none⟩

/-- The worker printed a carriage return and the directive of a release. -/
def releasingDetail : String := "\r" ++ Supervisor.releaseText Supervisor.sampleSha

theorem splitlines_releasingDetail :
    Text.splitlines (cleanDetail releasingDetail) =
      ["", Supervisor.releaseText Supervisor.sampleSha] := by
  have hbreaks : Text.breakLines
      ((releasingDetail.toList.map fun c => if c = '\n' then ' ' else c).take 1200) =
        [[], (Supervisor.releaseText Supervisor.sampleSha).toList] := by
    -- The characters of the short literals are compared; a long literal is slow to decode.
    simp only [releasingDetail, Supervisor.releaseText, Supervisor.sampleSha, Supervisor.REPOSITORY,
      String.toList_append]
    decide +kernel
  rw [Text.splitlines, cleanDetail, String.toList_ofList, hbreaks, List.map_cons, List.map_singleton,
    String.ofList_toList]

theorem closeout_read_of_plain_detail :
    Text.IsToken "INFRA-03" ∧ ReadAsCloseout
      [resultText sampleTask ⟨.FAILED, "exit code 1"⟩ "first" none,
        closeoutRelease sampleTask ⟨.FAILED, "exit code 1"⟩ "first"] "INFRA-03" none "first" :=
  ⟨by decide, (closeout_read_iff sampleTask none ⟨.FAILED, "exit code 1"⟩ "first" none _
    (by decide) (by decide) (fun _ h => by cases h) (fun _ h => by cases h) rfl).mpr (by decide)⟩

/-- The supervisor reads a release in the detail of a receipt. -/
theorem closeout_yields_release :
    ¬ ∀ (task : QueueTask) (work_order : Option WorkOrder) (receipt : Receipt) (agent : String)
      (pr_url : Option String) (texts : List String), Text.IsToken task.task_id →
        Text.IsToken agent →
        (∀ order ∈ work_order, Text.IsToken order.task_id ∧ Text.IsToken order.attempt_id) →
        PlainUrl pr_url → closeoutTexts task work_order receipt agent pr_url = .ok texts →
          ReadAsCloseout texts task.task_id work_order agent := by
  intro h
  have hread := (h sampleTask none ⟨.FAILED, releasingDetail⟩ "first" none _ (by decide) (by decide)
    (fun _ h => by cases h) (fun _ h => by cases h) rfl).supervisor
  rw [Supervisor.parseReleaseDirectives_map] at hread
  have hnone := List.flatMap_eq_nil_iff.mp hread _ List.mem_cons_self
  rw [Supervisor.releasesOf_resultText (by decide) (by decide) (fun _ h => by cases h),
    splitlines_releasingDetail, List.tail_cons, List.filterMap_cons_some (Supervisor.releaseOfLine_releaseText (by decide))]
    at hnone
  cases hnone

end FossilCore
