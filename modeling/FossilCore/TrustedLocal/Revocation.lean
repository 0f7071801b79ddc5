import FossilCore.TrustedLocal.WorkOrders
import Mathlib.Algebra.Order.Ring.Rat
import Mathlib.Data.Nat.Cast.Order.Basic

/-!
# The revocation of work orders

What `authorize_work_order` asks of the ledger is about facts that no later comment takes back, and
the text of a work order raises the latest generation of its task to its own.
-/

namespace FossilCore

open Base Base.Pattern

/-! ## Authorization -/

/-- What an authorized work order meets. -/
structure Authorized (dates : Dates) (work_order : Json) (ledger : DispatchLedger)
    (policy : DispatchPolicy) (now : ℤ) : Prop where
  deadline : ∃ value deadline, work_order.get? "deadline" = some value ∧
    deadlineOf dates value = .ok deadline ∧ now < deadline
  claim : ∃ task_id, work_order.get? "task_id" = some task_id ∧
    holdsClaim policy.local_agent now (claimOf ledger task_id) = true
  attempt : ∃ attempt_id, work_order.get? "attempt_id" = some attempt_id ∧
    attempt_id ∉ ledger.cancelled_attempt_ids.map .str ∧
    attempt_id ∉ ledger.terminal_attempt_ids.map .str
  generation : ∃ task_id generation, work_order.get? "task_id" = some task_id ∧
    work_order.get? "generation" = some generation ∧
    ∀ latest, latestOf ledger task_id = some latest → isBelow latest generation = false

theorem refuseIf_ok {condition : Bool} {code detail : String} {u : Unit}
    (h : refuseIf condition code detail = .ok u) : condition = false := by
  cases condition with
  | false => rfl
  | true => cases h

theorem orderItem_ok {work_order value : Json} {key : String}
    (h : orderItem work_order key = .ok value) : work_order.get? key = some value := by
  unfold orderItem at h
  cases hitem : work_order.getItem key with
  | ok found =>
      rw [hitem] at h
      cases h
      exact Json.getItem_ok_iff.mp hitem
  | error e =>
      rw [hitem] at h
      cases h

theorem authorized_of_ok {dates : Dates} {work_order : Json} {ledger : DispatchLedger}
    {policy : DispatchPolicy} {now : ℤ} {lane : String}
    (h : authorizeWorkOrder dates work_order ledger policy now = .ok lane) :
    Authorized dates work_order ledger policy now := by
  obtain ⟨_, -, h⟩ := bind_eq_ok.mp h
  obtain ⟨_, -, h⟩ := bind_eq_ok.mp h
  obtain ⟨repo, -, h⟩ := bind_eq_ok.mp h
  obtain ⟨_, -, h⟩ := bind_eq_ok.mp h
  obtain ⟨task_id, htask, h⟩ := bind_eq_ok.mp h
  obtain ⟨_, -, h⟩ := bind_eq_ok.mp h
  obtain ⟨role, -, h⟩ := bind_eq_ok.mp h
  obtain ⟨_, -, h⟩ := bind_eq_ok.mp h
  obtain ⟨deadline, hdeadline, h⟩ := bind_eq_ok.mp h
  obtain ⟨_, hexpired, h⟩ := bind_eq_ok.mp h
  obtain ⟨_, hclaim, h⟩ := bind_eq_ok.mp h
  obtain ⟨attempt_id, hattempt, h⟩ := bind_eq_ok.mp h
  obtain ⟨_, hcancelled, h⟩ := bind_eq_ok.mp h
  obtain ⟨_, hterminal, h⟩ := bind_eq_ok.mp h
  obtain ⟨generation, hgeneration, h⟩ := bind_eq_ok.mp h
  obtain ⟨_, hstale, -⟩ := bind_eq_ok.mp h
  obtain ⟨value, hvalue, hparsed⟩ := bind_eq_ok.mp hdeadline
  refine ⟨⟨value, deadline, orderItem_ok hvalue, hparsed, ?_⟩, ⟨task_id, orderItem_ok htask, ?_⟩,
    ⟨attempt_id, orderItem_ok hattempt, ?_, ?_⟩,
    ⟨task_id, generation, orderItem_ok htask, orderItem_ok hgeneration, fun latest hlatest => ?_⟩⟩
  · exact not_le.mp (of_decide_eq_false (refuseIf_ok hexpired))
  · simpa using refuseIf_ok hclaim
  · exact of_decide_eq_false (refuseIf_ok hcancelled)
  · exact of_decide_eq_false (refuseIf_ok hterminal)
  · have hany := refuseIf_ok hstale
    rw [hlatest] at hany
    exact hany

/-! ## The ledger of an extension -/

theorem parseBrokerLedger_ok {dates : Dates} {comments : List Comment} {now : ℤ}
    {ledger : DispatchLedger} (h : parseBrokerLedger dates comments now = .ok ledger) :
    ∃ candidates attempts,
      claimCandidates dates.parseDeadline (comments.filter Comment.trusted) = .ok candidates ∧
      parseAttempts (comments.filter Comment.trusted) = .ok attempts ∧
      ledger = ⟨electClaims now candidates, attempts.cancelled, attempts.terminal, attempts.latest,
        true⟩ := by
  obtain ⟨claims, hclaims, h⟩ := bind_eq_ok.mp h
  obtain ⟨attempts, hattempts, h⟩ := bind_eq_ok.mp h
  obtain ⟨candidates, hcandidates, hledger⟩ := bind_eq_ok.mp hclaims
  cases hledger
  cases h
  exact ⟨candidates, attempts, hcandidates, hattempts, rfl⟩

theorem parseBrokerLedger_of_parts {dates : Dates} {comments : List Comment} (now : ℤ)
    {candidates : List LedgerClaim} {attempts : AttemptLedger}
    (hcandidates :
      claimCandidates dates.parseDeadline (comments.filter Comment.trusted) = .ok candidates)
    (hattempts : parseAttempts (comments.filter Comment.trusted) = .ok attempts) :
    parseBrokerLedger dates comments now =
      .ok ⟨electClaims now candidates, attempts.cancelled, attempts.terminal, attempts.latest,
        true⟩ := by
  rw [parseBrokerLedger, parseClaimLedger, hcandidates, hattempts]
  rfl

theorem attempts_grow {log extension : List Comment} {attempts attempts' : AttemptLedger}
    (h : parseAttempts (log.filter Comment.trusted) = .ok attempts)
    (h' : parseAttempts ((log ++ extension).filter Comment.trusted) = .ok attempts') :
    attempts.Grows attempts' := by
  rw [parseAttempts, List.filter_append, List.foldlM_append] at h'
  obtain ⟨middle, hmiddle, hrest⟩ := bind_eq_ok.mp h'
  cases h.symm.trans hmiddle
  exact (foldlM_attemptStep_grows hrest).1

/-- The attempt of the work order is terminal or cancelled, or its generation is below the latest
of its task. -/
def Revoked (ledger : DispatchLedger) (work_order : Json) : Prop :=
  (∃ attempt_id, work_order.get? "attempt_id" = some (.str attempt_id) ∧
    (attempt_id ∈ ledger.terminal_attempt_ids ∨ attempt_id ∈ ledger.cancelled_attempt_ids)) ∨
  ∃ task_id generation latest, work_order.get? "task_id" = some (.str task_id) ∧
    work_order.get? "generation" = some generation ∧
    ledger.latest_generation[task_id]? = some latest ∧ isBelow latest generation = true

theorem isBelow_mono {latest latest' : ℕ} (hle : latest ≤ latest') {generation : Json}
    (h : isBelow latest generation = true) : isBelow latest' generation = true := by
  cases generation with
  | int n =>
      have hlt : n < latest := of_decide_eq_true h
      exact decide_eq_true (by omega)
  | float x =>
      have hlt : Schema.numeral x.text < latest := of_decide_eq_true h
      exact decide_eq_true (hlt.trans_le (Nat.cast_le.mpr hle))
  | _ => cases h

theorem revoked_of_extension {dates : Dates} {log extension : List Comment} {now now' : ℤ}
    {ledger ledger' : DispatchLedger} {work_order : Json}
    (h : parseBrokerLedger dates log now = .ok ledger)
    (h' : parseBrokerLedger dates (log ++ extension) now' = .ok ledger')
    (hrevoked : Revoked ledger work_order) : Revoked ledger' work_order := by
  obtain ⟨candidates, attempts, -, hattempts, rfl⟩ := parseBrokerLedger_ok h
  obtain ⟨candidates', attempts', -, hattempts', rfl⟩ := parseBrokerLedger_ok h'
  obtain ⟨hlatest, hterminal, hcancelled⟩ := attempts_grow hattempts hattempts'
  rcases hrevoked with ⟨attempt_id, hget, hmarked⟩ | ⟨task_id, generation, latest, htask, hget,
    hfound, hbelow⟩
  · exact Or.inl ⟨attempt_id, hget, hmarked.imp (fun h => hterminal h) (fun h => hcancelled h)⟩
  · obtain ⟨latest', hfound', hle⟩ := hlatest task_id latest hfound
    exact Or.inr ⟨task_id, generation, latest', htask, hget, hfound', isBelow_mono hle hbelow⟩

theorem not_authorized_of_revoked {dates : Dates} {work_order : Json} {ledger : DispatchLedger}
    {policy : DispatchPolicy} {now : ℤ} (hrevoked : Revoked ledger work_order) :
    ¬ Authorized dates work_order ledger policy now := by
  intro h
  rcases hrevoked with ⟨attempt_id, hget, hmarked⟩ | ⟨task_id, generation, latest, htask, hget,
    hfound, hbelow⟩
  · obtain ⟨found, hfound, hcancelled, hterminal⟩ := h.attempt
    cases hget.symm.trans hfound
    rcases hmarked with hmem | hmem
    · exact hterminal (List.mem_map_of_mem hmem)
    · exact hcancelled (List.mem_map_of_mem hmem)
  · obtain ⟨task, found, htask', hfound', hfresh⟩ := h.generation
    cases htask.symm.trans htask'
    cases hget.symm.trans hfound'
    rw [hfresh latest hfound] at hbelow
    cases hbelow

/-! ## The text of a work order -/

/-- The task comes from one of the parsers of the queue. -/
def Queued (task : QueueTask) : Prop :=
  ∃ comment, readyLocalTask comment = some task ∨
    ∃ verifier, parseTask comment = some verifier ∧ verifier.queueTask = task

/-- The task is one word, and what the text names of it is on one line. -/
structure OneLine (task : QueueTask) : Prop where
  task_id : Text.IsToken task.task_id
  repo : '\n' ∉ task.repo.toList
  starting_ref : '\n' ∉ task.starting_ref.toList
  role : '\n' ∉ task.role.toList
  access : '\n' ∉ task.access.toList

theorem mem_of_mem_trim {s : String} {c : Char} (h : c ∈ (Text.trim s).toList) : c ∈ s.toList := by
  rw [Text.trim, String.toList_ofList, List.mem_reverse] at h
  have hreverse := (List.dropWhile_sublist _).mem h
  rw [List.mem_reverse] at hreverse
  exact (List.dropWhile_sublist _).mem hreverse

theorem newline_not_mem_field {key value : String} {s rest : List Char}
    (h : FIELD.run s = some ((key, value), rest)) : '\n' ∉ value.toList := by
  obtain ⟨found, s₁, -, h⟩ := run_bind_eq_some.mp h
  obtain ⟨⟨⟩, s₂, -, h⟩ := run_bind_eq_some.mp h
  obtain ⟨⟨⟩, s₃, -, h⟩ := run_bind_eq_some.mp h
  cases h
  intro hmem
  rw [String.toList_ofList] at hmem
  have hne := List.mem_takeWhile_imp hmem
  simp at hne

theorem newline_not_mem_fieldValue {body key value : String}
    (h : fieldValue body key = some value) : '\n' ∉ value.toList := by
  obtain ⟨raw, hlookup, rfl⟩ := Option.map_eq_some_iff.mp h
  have hmem : (key, raw) ∈ finditer FIELD body := by
    obtain ⟨xs, ys, hsplit, -⟩ := List.lookup_eq_some_iff.mp hlookup
    rw [← List.mem_reverse, hsplit]
    simp
  obtain ⟨start, -, rest, hrun⟩ := exists_start_of_mem_finditer hmem
  exact fun hnewline => newline_not_mem_field hrun (mem_of_mem_trim hnewline)

theorem newline_not_mem_fieldValue_getD {body key fallback : String}
    (h : '\n' ∉ fallback.toList) : '\n' ∉ ((fieldValue body key).getD fallback).toList := by
  cases hvalue : fieldValue body key with
  | none => exact h
  | some value => exact newline_not_mem_fieldValue hvalue

theorem isToken_of_task {body task_id : String} (h : search TASK_DIRECTIVE body = some task_id) :
    Text.IsToken task_id := by
  obtain ⟨start, -, hmatch⟩ := List.exists_of_findSome?_eq_some h
  obtain ⟨⟨found, rest⟩, hrun, hfound⟩ := Option.map_eq_some_iff.mp hmatch
  obtain ⟨name, middle, htask, hend⟩ := run_bind_eq_some.mp hrun
  obtain ⟨⟨⟩, behind, -, hpure⟩ := run_bind_eq_some.mp hend
  obtain ⟨rfl, -⟩ := run_pure_eq_some.mp hpure
  obtain rfl : name = task_id := hfound
  obtain ⟨⟨⟩, rest, -, hfield⟩ := run_bind_eq_some.mp htask
  exact (run_field hfield).1

theorem Queued.oneLine {task : QueueTask} (h : Queued task) : OneLine task := by
  obtain ⟨comment, hready | ⟨verifier, hparse, rfl⟩⟩ := h
  · have htoken := isToken_of_task (readyLocalTask_task_id hready)
    obtain ⟨task_id, -, hready⟩ := Option.bind_eq_some_iff.mp hready
    dsimp only at hready
    split at hready
    · cases hready
      exact ⟨htoken, newline_not_mem_fieldValue_getD (by decide),
        newline_not_mem_fieldValue_getD (by decide), newline_not_mem_fieldValue_getD (by decide),
        newline_not_mem_fieldValue_getD (by decide)⟩
    · cases hready
  · have htoken := isToken_of_task (parseTask_task_id hparse)
    obtain ⟨task_id, -, hparse⟩ := Option.bind_eq_some_iff.mp hparse
    dsimp only at hparse
    split at hparse
    · cases hparse
    · cases hparse
      exact ⟨htoken, newline_not_mem_fieldValue_getD (by decide),
        newline_not_mem_fieldValue_getD (by decide), (by decide : '\n' ∉ "luna".toList),
        newline_not_mem_fieldValue_getD (by decide)⟩

theorem isToken_append {s t : String} (hs : Text.IsToken s)
    (ht : ∀ c ∈ t.toList, Text.isWhitespace c = false) : Text.IsToken (s ++ t) := by
  refine ⟨fun hempty => hs.toList_ne_nil ?_, fun c hc => ?_⟩
  · have hnil : (s ++ t).toList = [] := String.toList_eq_nil_iff.mpr hempty
    rw [String.toList_append] at hnil
    exact (List.append_eq_nil_iff.mp hnil).1
  · rw [String.toList_append] at hc
    rcases List.mem_append.mp hc with hc | hc
    · exact hs.2 c hc
    · exact ht c hc

/-- The hexadecimal digits of a UUID. -/
def IsHex (hex : String) : Prop :=
  ∀ c ∈ hex.toList, (c.isDigit || ('a' ≤ c && c ≤ 'f')) = true

instance (hex : String) : Decidable (IsHex hex) :=
  inferInstanceAs (Decidable (∀ c ∈ hex.toList, _))

theorem isWhitespace_of_isHex {c : Char} (h : (c.isDigit || ('a' ≤ c && c ≤ 'f')) = true) :
    Text.isWhitespace c = false := by
  rw [Bool.or_eq_true, Bool.and_eq_true, decide_eq_true_eq, decide_eq_true_eq] at h
  rcases h with h | ⟨hle, hlt⟩
  · have hrange := Char.isDigit_iff_toNat.mp h
    exact Text.isWhitespace_eq_false (lt_of_lt_of_le (by decide) hrange.1)
      (lt_of_le_of_lt hrange.2 (by decide))
  · exact Text.isWhitespace_eq_false (lt_of_lt_of_le (by decide) (show 'a'.toNat ≤ c.toNat from hle))
      (lt_of_le_of_lt (show c.toNat ≤ 'f'.toNat from hlt) (by decide))

/-- What is written of a work order is read back from its text. -/
structure Printable (order : WorkOrder) : Prop where
  task_id : Text.IsToken order.task_id
  attempt_id : Text.IsToken order.attempt_id
  repo : '\n' ∉ order.repo.toList
  starting_ref : '\n' ∉ order.starting_ref.toList
  role : '\n' ∉ order.role.toList
  access_class : '\n' ∉ order.access_class.toList

theorem printable_of_make {dates : Dates} {lower : String → String}
    (hlower : ∀ s, Text.IsToken s → Text.IsToken (lower s)) {hex : String} (hhex : IsHex hex)
    {task : QueueTask} (htask : OneLine task) {ledger : DispatchLedger} {now : ℤ}
    {order : WorkOrder} (h : makeWorkOrder dates lower hex task ledger now = .ok order) :
    Printable order ∧ order.task_id = task.task_id ∧
      order.generation = nextGeneration task.task_id ledger := by
  obtain ⟨deadline, -, h⟩ := bind_eq_ok.mp h
  cases h
  have hsuffix : ∀ c ∈ (Text.take hex 12).toList, Text.isWhitespace c = false := fun c hc => by
    rw [Text.take, String.toList_ofList] at hc
    exact isWhitespace_of_isHex (hhex c (List.mem_of_mem_take hc))
  have hdash : Text.IsToken (lower task.task_id ++ "-") :=
    isToken_append (hlower _ htask.task_id) (by decide)
  exact ⟨⟨htask.task_id, isToken_append hdash hsuffix, htask.repo, htask.starting_ref, htask.role,
    htask.access⟩, rfl, rfl⟩

theorem newline_not_mem_toString (n : ℕ) : '\n' ∉ (toString n).toList := fun h => by
  have hdigit := isDigit_of_mem_toString h
  revert hdigit
  decide

theorem workorderText_ok {order : WorkOrder} {text : String} (h : workorderText order = .ok text) :
    strOf order.generation = .ok (toString order.generation) ∧
      text = "WORKORDER" ++ " task=" ++ order.task_id ++ " attempt_id=" ++ order.attempt_id ++
        " generation=" ++ toString order.generation ++ ("\n" ++ ("repo=" ++ (order.repo ++
          ("\n" ++ ("starting_ref=" ++ (order.starting_ref ++ ("\n" ++ ("role=" ++ (order.role ++
            (" access=" ++ order.access_class)))))))))) := by
  obtain ⟨generation, hgeneration, h⟩ := bind_eq_ok.mp h
  have hfound : strOf order.generation = .ok generation := by
    cases hstr : strOf order.generation with
    | ok found =>
        rw [hstr] at hgeneration
        cases hgeneration
        rfl
    | error e =>
        rw [hstr] at hgeneration
        cases hgeneration
  obtain ⟨rfl, -⟩ := intOf_strOf hfound
  cases h
  have hkeyword : "WORKORDER task=" = "WORKORDER" ++ " task=" := by decide
  have hrepo : "\nrepo=" = "\n" ++ "repo=" := by decide
  have href : "\nstarting_ref=" = "\n" ++ "starting_ref=" := by decide
  have hrole : "\nrole=" = "\n" ++ "role=" := by decide
  refine ⟨hfound, ?_⟩
  rw [hkeyword, hrepo, href, hrole]
  simp only [String.append_assoc]

theorem linesStartWith_workorderText {order : WorkOrder} (horder : Printable order) {text : String}
    (h : workorderText order = .ok text) :
    LinesStartWith ["WORKORDER task=", "repo=", "starting_ref=", "role="] text := by
  obtain ⟨-, rfl⟩ := workorderText_ok h
  have hkeyword : "WORKORDER" ++ " task=" = "WORKORDER task=" := by decide
  have hfirst : '\n' ∉ (order.task_id ++ (" attempt_id=" ++ (order.attempt_id ++
      (" generation=" ++ toString order.generation)))).toList := by
    simp only [newline_not_mem_append]
    exact ⟨newline_not_mem_of_isToken horder.task_id, by decide,
      newline_not_mem_of_isToken horder.attempt_id, by decide, newline_not_mem_toString _⟩
  have hlast : '\n' ∉ (order.role ++ (" access=" ++ order.access_class)).toList := by
    simp only [newline_not_mem_append]
    exact ⟨horder.role, by decide, horder.access_class⟩
  have hlines := LinesStartWith.cons "WORKORDER task=" (by decide) hfirst
    (LinesStartWith.cons "repo=" (by decide) horder.repo
      (LinesStartWith.cons "starting_ref=" (by decide) horder.starting_ref
        (LinesStartWith.line "role=" (by decide) hlast)))
  rw [hkeyword]
  simpa only [String.append_assoc] using hlines

/-- The line of the text of a work order is the only directive of it. -/
theorem attemptStep_workorderText {order : WorkOrder} (horder : Printable order) {text : String}
    (h : workorderText order = .ok text) (attempts : AttemptLedger) :
    attemptStep attempts (trustedComment text) =
      .ok { attempts with latest := raiseLatest attempts.latest order.task_id order.generation } := by
  have hlines := linesStartWith_workorderText horder h
  have hdone : finditer WORKORDER_DONE text = [] :=
    (hlines.silent (hasKeyword_workOrderLine "WORKORDER_DONE") (by decide)).finditer_eq
  have hcancel : finditer WORKORDER_CANCEL text = [] :=
    (hlines.silent (hasKeyword_workOrderLine "WORKORDER_CANCEL") (by decide)).finditer_eq
  obtain ⟨hgeneration, htext⟩ := workorderText_ok h
  have horder : finditer WORKORDER text =
      [⟨order.task_id, order.attempt_id, toString order.generation⟩] := by
    have hrun := @run_workOrderLine "WORKORDER" order.task_id order.attempt_id
      ("\n" ++ ("repo=" ++ (order.repo ++ ("\n" ++ ("starting_ref=" ++ (order.starting_ref ++
        ("\n" ++ ("role=" ++ (order.role ++ (" access=" ++ order.access_class)))))))))).toList
      horder.task_id horder.attempt_id order.generation ?_
    · rw [← String.toList_append, ← htext] at hrun
      exact hlines.finditer_eq (hasKeyword_workOrderLine "WORKORDER") (by decide) hrun
    · rw [String.toList_append]
      exact fun c hc => by cases hc; decide
  rw [attemptStep, trustedComment, horder, hdone, hcancel]
  simp only [List.foldlM_cons, List.foldlM_nil, recordOrder, record, generationOf,
    (intOf_strOf hgeneration).2]
  rfl

theorem claimStep_workorderText {dates : Dates} {order : WorkOrder} (horder : Printable order)
    {text : String} (h : workorderText order = .ok text) (candidates : List LedgerClaim) :
    claimStep dates.parseDeadline candidates (trustedComment text) = .ok candidates := by
  have hlines := linesStartWith_workorderText horder h
  have hrelease : finditer RELEASE_LINE text = [] :=
    (hlines.silent hasKeyword_release (by decide)).finditer_eq
  have hrenew : finditer RENEW_LINE text = [] :=
    (hlines.silent hasKeyword_renew (by decide)).finditer_eq
  have hclaim : search CLAIM_LINE text = none :=
    (hlines.silent (hasKeyword_directive "CLAIM") (by decide)).search_eq
  rw [claimStep, postedClaim, trustedComment, hrelease, hrenew, hclaim]
  rfl

theorem le_nextGeneration {ledger : DispatchLedger} {task : String} {latest : ℕ}
    (h : ledger.latest_generation[task]? = some latest) : latest < nextGeneration task ledger := by
  rw [nextGeneration, h]
  exact Nat.lt_succ_self latest

/-- A work order that is revoked in a log is rejected on every ledger of a longer log; the next
generation of a task is above all that the log names; and the text of the order that is made with it
raises the latest generation to its own. -/
theorem revocation_is_permanent (dates : Dates) (lower : String → String)
    (hlower : ∀ s, Text.IsToken s → Text.IsToken (lower s)) :
    (∀ log extension now now' ledger ledger' work_order,
      parseBrokerLedger dates log now = .ok ledger →
      parseBrokerLedger dates (log ++ extension) now' = .ok ledger' → Revoked ledger work_order →
        ∀ policy time, ∃ e, authorizeWorkOrder dates work_order ledger' policy time = .error e) ∧
    (∀ log now ledger, parseBrokerLedger dates log now = .ok ledger →
      ∀ comment ∈ log, comment.trusted = true → ∀ line ∈ generationLines comment,
        ∃ generation, generationOf line = .ok generation ∧
          generation < nextGeneration line.task ledger) ∧
    ∀ log now ledger task hex time order text, parseBrokerLedger dates log now = .ok ledger →
      Queued task → IsHex hex → makeWorkOrder dates lower hex task ledger time = .ok order →
      workorderText order = .ok text → ∀ now', ∃ ledger',
        parseBrokerLedger dates (log ++ [trustedComment text]) now' = .ok ledger' ∧
          ledger'.latest_generation[task.task_id]? = some order.generation := by
  refine ⟨?_, ?_, ?_⟩
  · intro log extension now now' ledger ledger' work_order h h' hrevoked policy time
    cases hauthorized : authorizeWorkOrder dates work_order ledger' policy time with
    | error e => exact ⟨e, rfl⟩
    | ok lane =>
        exact absurd (authorized_of_ok hauthorized)
          (not_authorized_of_revoked (revoked_of_extension h h' hrevoked))
  · intro log now ledger h comment hcomment htrusted line hline
    obtain ⟨candidates, attempts, -, hattempts, rfl⟩ := parseBrokerLedger_ok h
    obtain ⟨generation, latest, hgeneration, hlatest, hle⟩ :=
      (foldlM_attemptStep_grows hattempts).2 comment
        (List.mem_filter.mpr ⟨hcomment, htrusted⟩) line hline
    exact ⟨generation, hgeneration, hle.trans_lt (le_nextGeneration hlatest)⟩
  · intro log now ledger task hex time order text h hqueued hhex hmake htext now'
    obtain ⟨candidates, attempts, hcandidates, hattempts, rfl⟩ := parseBrokerLedger_ok h
    obtain ⟨horder, htask, hgeneration⟩ := printable_of_make hlower hhex hqueued.oneLine hmake
    have hfilter : (log ++ [trustedComment text]).filter Comment.trusted =
        log.filter Comment.trusted ++ [trustedComment text] := by
      rw [List.filter_append]
      rfl
    have hcandidates' : claimCandidates dates.parseDeadline
        ((log ++ [trustedComment text]).filter Comment.trusted) = .ok candidates := by
      rw [hfilter, claimCandidates_append hcandidates, List.foldlM_cons,
        claimStep_workorderText horder htext]
      rfl
    have hattempts' : parseAttempts ((log ++ [trustedComment text]).filter Comment.trusted) =
        .ok { attempts with
          latest := raiseLatest attempts.latest order.task_id order.generation } := by
      rw [hfilter, parseAttempts, List.foldlM_append]
      show parseAttempts _ >>= _ = _
      rw [hattempts]
      show [trustedComment text].foldlM attemptStep attempts = _
      rw [List.foldlM_cons, attemptStep_workorderText horder htext]
      rfl
    refine ⟨_, parseBrokerLedger_of_parts now' hcandidates' hattempts', ?_⟩
    show (raiseLatest attempts.latest order.task_id order.generation)[task.task_id]? = _
    rw [← htask, get?_raiseLatest, max_eq_right]
    rw [hgeneration, ← htask, nextGeneration]
    cases attempts.latest[order.task_id]? with
    | none => exact le_rfl
    | some latest => exact Nat.le_succ latest

def sampleDates : Dates where
  parseDeadline _ := .error (.workOrderError "MALFORMED" "deadline is not ISO-8601")
  isoformat _ := .ok "2026-08-12T18:00:00Z"
  isDateTime _ := true

def sampleLower (s : String) : String := if s = "PROBE-1" then "probe-1" else s

def doneLog : List Comment :=
  [trustedComment "WORKORDER_DONE task=PROBE-1 attempt_id=probe-1-a generation=2 status=PASS"]

def doneOrder : Json := .ofMembers [("attempt_id", .str "probe-1-a")]

theorem parse_doneLog (extension : List Comment)
    (hextension : claimCandidates sampleDates.parseDeadline
      ((doneLog ++ extension).filter Comment.trusted) = .ok [])
    (hattempts : (parseAttempts ((doneLog ++ extension).filter Comment.trusted)).map
      (fun attempts => (attempts.latest["PROBE-1"]?, attempts.terminal)) =
        .ok (some 2, ["probe-1-a"])) :
    ∃ ledger, parseBrokerLedger sampleDates (doneLog ++ extension) 0 = .ok ledger ∧
      ledger.latest_generation["PROBE-1"]? = some 2 ∧ ledger.terminal_attempt_ids = ["probe-1-a"] := by
  cases hparse : parseAttempts ((doneLog ++ extension).filter Comment.trusted) with
  | error e =>
      rw [hparse] at hattempts
      cases hattempts
  | ok attempts =>
      rw [hparse] at hattempts
      obtain ⟨hlatest, hterminal⟩ := Prod.mk.inj (Except.ok.inj hattempts)
      exact ⟨_, parseBrokerLedger_of_parts 0 hextension hparse, hlatest, hterminal⟩

/-- A finished attempt, and the next one. -/
theorem finished_attempt_is_revoked :
    ∃ ledger, parseBrokerLedger sampleDates doneLog 0 = .ok ledger ∧
      (∃ ledger', parseBrokerLedger sampleDates (doneLog ++ [cancelProbe]) 0 = .ok ledger' ∧
        ∀ policy time, ∃ e, authorizeWorkOrder sampleDates doneOrder ledger' policy time = .error e) ∧
      (∃ generation, generationOf ⟨"PROBE-1", "probe-1-a", "2"⟩ = .ok generation ∧
        generation < nextGeneration "PROBE-1" ledger) ∧
      ∃ text ledger', parseBrokerLedger sampleDates (doneLog ++ [trustedComment text]) 0 =
        .ok ledger' ∧ ledger'.latest_generation["PROBE-1"]? = some 3 := by
  have hlower : ∀ s, Text.IsToken s → Text.IsToken (sampleLower s) := by
    intro s hs
    unfold sampleLower
    split
    · decide
    · exact hs
  obtain ⟨hrejected, hgenerations, hround⟩ := revocation_is_permanent sampleDates sampleLower hlower
  obtain ⟨ledger, hledger, hlatest, hterminal⟩ :=
    parse_doneLog [] (by decide +kernel) (by decide +kernel)
  obtain ⟨ledger', hledger', -, -⟩ :=
    parse_doneLog [cancelProbe] (by decide +kernel) (by decide +kernel)
  rw [List.append_nil] at hledger
  obtain ⟨verifier, hverifier, hid⟩ := Option.map_eq_some_iff.mp parseTask_probeTask
  have hqueued : Queued verifier.queueTask := ⟨probeTask, Or.inr ⟨verifier, hverifier, rfl⟩⟩
  have hnext : nextGeneration verifier.queueTask.task_id ledger = 3 := by
    show nextGeneration verifier.task_id ledger = 3
    rw [hid, nextGeneration, hlatest]
  refine ⟨ledger, hledger, ⟨ledger', hledger', ?_⟩, ?_, ?_⟩
  · have hrevoked : Revoked ledger doneOrder :=
      Or.inl ⟨"probe-1-a", by decide, Or.inl (by rw [hterminal]; exact List.mem_cons_self)⟩
    exact hrejected doneLog [cancelProbe] 0 0 ledger ledger' doneOrder hledger hledger' hrevoked
  · exact hgenerations doneLog 0 ledger hledger _ List.mem_cons_self rfl
      ⟨"PROBE-1", "probe-1-a", "2"⟩ (by decide +kernel)
  · obtain ⟨order, horder, hgeneration⟩ : ∃ order,
        makeWorkOrder sampleDates sampleLower "0123456789ab" verifier.queueTask ledger 0 =
          .ok order ∧ order.generation = 3 := ⟨_, rfl, hnext⟩
    have hthree : strOf 3 = .ok "3" := by decide
    obtain ⟨text, htext⟩ : ∃ text, workorderText order = .ok text := by
      rw [workorderText, hgeneration, hthree]
      exact ⟨_, rfl⟩
    obtain ⟨ledger₂, hledger₂, hlatest₂⟩ := hround doneLog 0 ledger verifier.queueTask
      "0123456789ab" 0 order text hledger hqueued (by decide) horder htext 0
    refine ⟨text, ledger₂, hledger₂, ?_⟩
    have htask : verifier.queueTask.task_id = "PROBE-1" := hid
    rw [← htask, hlatest₂, hgeneration]

end FossilCore
