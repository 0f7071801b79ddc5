import FossilCore.Base.JsonObject
import FossilCore.Base.JsonSchema
import FossilCore.TrustedLocal.ClaimLedger
import FossilCore.TrustedLocal.TaskQueue

/-!
# Work orders

The ledger of attempts and generations of `trusted_local_broker.py`, its work orders, and
`authorize_work_order` of `trusted_local_runner.py`.
-/

namespace FossilCore

open Base Base.Pattern

/-- The conversions of `datetime` and the format check of the installed validator; a time is a
number of microseconds. -/
structure Dates where
  /-- `_parse_deadline` -/
  parseDeadline : String → Except RunnerError ℤ
  /-- `.astimezone(UTC).isoformat().replace("+00:00", "Z")` -/
  isoformat : ℤ → Except RunnerError String
  isDateTime : String → Bool

def SECRETLESS_ACCESS_CLASS : String := "CLOUD_SECRETLESS"

def minutes (n : ℤ) : ℤ := n * 60000000

/-! ## The ledger of attempts -/

structure AttemptLedger where
  latest : KeyMap String ℕ
  terminal : List String
  cancelled : List String

def AttemptLedger.empty : AttemptLedger := ⟨∅, [], []⟩

def generationOf (line : WorkOrderLine) : Except RunnerError ℕ :=
  liftRaised (liftPy (intOf line.generation))

/-- `latest[task] = max(latest.get(task, -1), generation)` -/
def raiseLatest (latest : KeyMap String ℕ) (task : String) (generation : ℕ) : KeyMap String ℕ :=
  latest.insert task (max ((latest[task]?).getD 0) generation)

/-- The generation of a line counts for its task, and its attempt is marked. -/
def record (mark : String → AttemptLedger → AttemptLedger) (attempts : AttemptLedger)
    (line : WorkOrderLine) : Except RunnerError AttemptLedger := do
  let generation ← generationOf line
  return mark line.attempt
    { attempts with latest := raiseLatest attempts.latest line.task generation }

def recordOrder : AttemptLedger → WorkOrderLine → Except RunnerError AttemptLedger :=
  record fun _ attempts => attempts

def recordDone : AttemptLedger → WorkOrderLine → Except RunnerError AttemptLedger :=
  record fun attempt attempts => { attempts with terminal := attempt :: attempts.terminal }

def recordCancel : AttemptLedger → WorkOrderLine → Except RunnerError AttemptLedger :=
  record fun attempt attempts => { attempts with cancelled := attempt :: attempts.cancelled }

/-- One step of the loop over the comments. -/
def attemptStep (attempts : AttemptLedger) (comment : Comment) :
    Except RunnerError AttemptLedger := do
  let attempts ← (finditer WORKORDER comment.body).foldlM recordOrder attempts
  let attempts ← (finditer WORKORDER_DONE comment.body).foldlM recordDone attempts
  (finditer WORKORDER_CANCEL comment.body).foldlM recordCancel attempts

def parseAttempts (comments : List Comment) : Except RunnerError AttemptLedger :=
  comments.foldlM attemptStep AttemptLedger.empty

def parseBrokerLedger (dates : Dates) (comments : List Comment) (now : ℤ) :
    Except RunnerError DispatchLedger := do
  let trusted := comments.filter Comment.trusted
  let ledger ← parseClaimLedger dates.parseDeadline trusted now
  let attempts ← parseAttempts trusted
  return { ledger with
    latest_generation := attempts.latest
    terminal_attempt_ids := attempts.terminal
    cancelled_attempt_ids := attempts.cancelled }

/-! ## Work orders -/

structure WorkOrder where
  work_order_id : String
  task_id : String
  attempt_id : String
  generation : ℕ
  repo : String
  starting_ref : String
  role : String
  access_class : String
  deadline : String
  deriving DecidableEq, Repr

/-- The work order as the mapping that is validated. -/
def WorkOrder.toJson (order : WorkOrder) : Json :=
  .ofMembers
    [("version", .str "trusted-local-workorder-v1"), ("project_issue_id", .int 94),
      ("work_order_id", .str order.work_order_id), ("task_id", .str order.task_id),
      ("attempt_id", .str order.attempt_id), ("generation", .int order.generation),
      ("repo", .str order.repo), ("starting_ref", .str order.starting_ref),
      ("role", .str order.role), ("access_class", .str order.access_class),
      ("mutation_scope", .arr [.str "repository-worktree"]),
      ("selected_checks", .arr [.str "pytest"]), ("deadline", .str order.deadline),
      ("closeout_contract", .str "trusted-local-receipt-v1")]

def chooseUnclaimedTask (tasks : List QueueTask) (ledger : DispatchLedger) : Option QueueTask :=
  tasks.find? fun task => !ledger.claims.contains task.task_id

def nextGeneration (task_id : String) (ledger : DispatchLedger) : ℕ :=
  match ledger.latest_generation[task_id]? with
  | none => 0
  | some current => current + 1

/-- `make_work_order`; `lower` is `str.lower`, and `hex` the text of the fresh UUID. -/
def makeWorkOrder (dates : Dates) (lower : String → String) (hex : String) (task : QueueTask)
    (ledger : DispatchLedger) (now : ℤ) : Except RunnerError WorkOrder := do
  let attempt_id := lower task.task_id ++ "-" ++ Text.take hex 12
  let deadline ← dates.isoformat (now + minutes 60)
  return {
    work_order_id := "wo-" ++ attempt_id
    task_id := task.task_id
    attempt_id
    generation := nextGeneration task.task_id ledger
    repo := task.repo
    starting_ref := task.starting_ref
    role := task.role
    access_class := task.access
    deadline }

def workorderText (order : WorkOrder) : Except RunnerError String := do
  let generation ← liftRaised (liftPy (strOf order.generation))
  return "WORKORDER task=" ++ order.task_id ++ " attempt_id=" ++ order.attempt_id ++
    " generation=" ++ generation ++ "\nrepo=" ++ order.repo ++
    "\nstarting_ref=" ++ order.starting_ref ++ "\nrole=" ++ order.role ++
    " access=" ++ order.access_class

/-! ## The contract of a work order -/

/-- `^[A-Za-z0-9][A-Za-z0-9._:-]{2,127}$` -/
def isAttemptId : String → Bool :=
  Schema.matchesToEnd fun cs =>
    match cs with
    | [] => false
    | c :: cs => c.isAlphanum ∧ 2 ≤ cs.length ∧ cs.length ≤ 127 ∧
        cs.all fun c => c.isAlphanum || c ∈ ['.', '_', ':', '-']

/-- `^[A-Z][A-Z0-9-]{1,63}$` -/
def isTaskId : String → Bool :=
  Schema.matchesToEnd fun cs =>
    match cs with
    | [] => false
    | c :: cs => c.isUpper ∧ 1 ≤ cs.length ∧ cs.length ≤ 63 ∧
        cs.all fun c => c.isUpper || c.isDigit || c = '-'

/-- `^[A-Za-z0-9_.-]+/[A-Za-z0-9_.-]+$` -/
def isRepoName : String → Bool :=
  Schema.matchesToEnd fun cs =>
    let isNameChar : Char → Bool := fun c => c.isAlphanum || c ∈ ['_', '.', '-']
    let owner := cs.takeWhile isNameChar
    let rest := cs.dropWhile isNameChar
    owner ≠ [] ∧ rest.head? = some '/' ∧ rest.tail ≠ [] ∧ rest.tail.all isNameChar

def isShaText : String → Bool := Schema.matchesToEnd fun cs => isSha (String.ofList cs)

/-- `contracts/trusted-local-workorder-v1.schema.json` -/
def workOrderSchema (dates : Dates) : Schema :=
  let text (schemas : List Schema) : Schema := .allOf (.type [.string] :: schemas)
  let texts : Schema := .allOf [.type [.array], .minItems 1, .items (text [.minLength 1])]
  .allOf [
    .type [.object],
    .closed ["version", "project_issue_id", "work_order_id", "task_id", "attempt_id", "generation",
      "repo", "starting_ref", "role", "access_class", "mutation_scope", "selected_checks",
      "deadline", "closeout_contract", "reviewed_sha", "trusted_dispatch_ref", "request_id",
      "trace_id", "checkpoint_id"],
    .required ["version", "project_issue_id", "work_order_id", "task_id", "attempt_id",
      "generation", "repo", "starting_ref", "role", "access_class", "mutation_scope",
      "selected_checks", "deadline", "closeout_contract"],
    .properties [
      ("version", .const (.str "trusted-local-workorder-v1")),
      ("project_issue_id", .allOf [.type [.integer], .minimum 1]),
      ("work_order_id", text [.pattern isAttemptId]),
      ("task_id", text [.pattern isTaskId]),
      ("attempt_id", text [.pattern isAttemptId]),
      ("generation", .allOf [.type [.integer], .minimum 0]),
      ("repo", text [.pattern isRepoName]),
      ("starting_ref", text [.pattern isShaText]),
      ("role", .enum [.str "terra", .str "luna"]),
      ("access_class", .enum (([SECRETLESS_ACCESS_CLASS] ++ PRIVILEGED_ACCESS_CLASSES).map .str)),
      ("mutation_scope", texts),
      ("selected_checks", texts),
      ("deadline", text [.format dates.isDateTime]),
      ("closeout_contract", text [.minLength 1]),
      ("reviewed_sha", text [.pattern isShaText]),
      ("trusted_dispatch_ref", text [.pattern isShaText]),
      ("request_id", text [.minLength 1]),
      ("trace_id", text [.minLength 1]),
      ("checkpoint_id", text [.minLength 1])]]

/-! ## Authorization -/

structure DispatchPolicy where
  repo_allowlist : List String
  task_allowlist : List String
  local_agent : String
  trusted_dispatch_refs : List String
  allowed_roles : List String

/-- `if condition: raise WorkOrderError(code, detail)` -/
def refuseIf (condition : Bool) (code detail : String) : Except RunnerError Unit :=
  if condition then .error (.workOrderError code detail) else .ok ()

/-- `work_order[key]` -/
def orderItem (work_order : Json) (key : String) : Except RunnerError Json :=
  liftRaised (liftPy (work_order.getItem key))

/-- `_parse_deadline` of a value of the work order, which its contract makes a text -/
def deadlineOf (dates : Dates) : Json → Except RunnerError ℤ
  | .str value => dates.parseDeadline value
  | _ => .error (.raised .typeError)

/-- `generation < latest` -/
def isBelow (latest : ℕ) : Json → Bool
  | .int generation => generation < latest
  | .float generation => Schema.numeral generation.text < (latest : ℚ)
  | _ => false

def claimOf (ledger : DispatchLedger) : Json → Option LedgerClaim
  | .str task_id => ledger.claims[task_id]?
  | _ => none

def latestOf (ledger : DispatchLedger) : Json → Option ℕ
  | .str task_id => ledger.latest_generation[task_id]?
  | _ => none

/-- The claim is there, active, and the agent's. -/
def holdsClaim (agent : String) (now : ℤ) : Option LedgerClaim → Bool
  | none => false
  | some claim => claim.activeFor now && claim.agent = agent

def laneFor (access_class : Json) : String :=
  if access_class = .str SECRETLESS_ACCESS_CLASS then "secretless" else "privileged"

/-- `authorize_work_order`, where `now` is what the policy's clock gives. -/
def authorizeWorkOrder (dates : Dates) (work_order : Json) (ledger : DispatchLedger)
    (policy : DispatchPolicy) (now : ℤ) : Except RunnerError String := do
  refuseIf (!workOrderSchema dates work_order) "MALFORMED" ""
  refuseIf (!ledger.available) "LEDGER_UNAVAILABLE"
    "current queue/claim ledger could not be verified"
  let repo ← orderItem work_order "repo"
  refuseIf (repo ∉ policy.repo_allowlist.map .str) "UNAUTHORIZED_REPOSITORY"
    "repository is not in the trusted-local allowlist"
  let task_id ← orderItem work_order "task_id"
  refuseIf (task_id ∉ policy.task_allowlist.map .str) "UNAUTHORIZED_TASK"
    "task is not in the trusted-local allowlist"
  let role ← orderItem work_order "role"
  refuseIf (role ∉ policy.allowed_roles.map .str) "BLOCKED_POLICY"
    "requested local role is not currently authorized"
  let deadline ← orderItem work_order "deadline" >>= deadlineOf dates
  refuseIf (deadline ≤ now) "DEADLINE_EXPIRED" "WorkOrder deadline has passed"
  refuseIf (!holdsClaim policy.local_agent now (claimOf ledger task_id)) "CLAIM_INVALID"
    "task has no active winning claim for this dispatcher"
  let attempt_id ← orderItem work_order "attempt_id"
  refuseIf (attempt_id ∈ ledger.cancelled_attempt_ids.map .str) "CANCELLED" "attempt is cancelled"
  refuseIf (attempt_id ∈ ledger.terminal_attempt_ids.map .str) "DUPLICATE_ATTEMPT"
    "attempt already has a terminal closeout"
  let generation ← orderItem work_order "generation"
  refuseIf ((latestOf ledger task_id).any fun latest => isBelow latest generation)
    "STALE_GENERATION" "WorkOrder generation is older than the current task generation"
  let lane := laneFor (← orderItem work_order "access_class")
  if lane = "privileged" then
    let starting_ref ← orderItem work_order "starting_ref"
    refuseIf (work_order.get? "reviewed_sha" ≠ some starting_ref) "EXACT_SHA_REQUIRED"
      "privileged verification requires reviewed_sha equal to starting_ref"
    let trusted_dispatch_ref := (work_order.get? "trusted_dispatch_ref").getD .null
    refuseIf (trusted_dispatch_ref ∉ policy.trusted_dispatch_refs.map .str)
      "UNTRUSTED_DISPATCH" "privileged verification requires a reviewed dispatcher revision"
  return lane

/-! ## The ledger of a longer log -/

section Grows

/-- Generations do not fall, and marks stay. -/
def AttemptLedger.Grows (attempts attempts' : AttemptLedger) : Prop :=
  (∀ (task : String) generation, attempts.latest[task]? = some generation →
    ∃ generation', attempts'.latest[task]? = some generation' ∧ generation ≤ generation') ∧
  attempts.terminal ⊆ attempts'.terminal ∧ attempts.cancelled ⊆ attempts'.cancelled

theorem AttemptLedger.Grows.refl (attempts : AttemptLedger) : attempts.Grows attempts :=
  ⟨fun _ generation h => ⟨generation, h, le_rfl⟩, List.Subset.refl _, List.Subset.refl _⟩

theorem AttemptLedger.Grows.trans {a b c : AttemptLedger} (h : a.Grows b) (h' : b.Grows c) :
    a.Grows c := by
  refine ⟨fun task generation hgeneration => ?_, List.Subset.trans h.2.1 h'.2.1,
    List.Subset.trans h.2.2 h'.2.2⟩
  obtain ⟨g₁, hg₁, hle₁⟩ := h.1 task generation hgeneration
  obtain ⟨g₂, hg₂, hle₂⟩ := h'.1 task g₁ hg₁
  exact ⟨g₂, hg₂, hle₁.trans hle₂⟩

/-- The generation of a line is at most the latest of its task. -/
def AttemptLedger.Covers (attempts : AttemptLedger) (line : WorkOrderLine) : Prop :=
  ∃ generation latest, generationOf line = .ok generation ∧
    attempts.latest[line.task]? = some latest ∧ generation ≤ latest

theorem AttemptLedger.Covers.grows {a b : AttemptLedger} {line : WorkOrderLine}
    (h : a.Covers line) (hgrows : a.Grows b) : b.Covers line := by
  obtain ⟨generation, latest, hgeneration, hlatest, hle⟩ := h
  obtain ⟨latest', hlatest', hle'⟩ := hgrows.1 line.task latest hlatest
  exact ⟨generation, latest', hgeneration, hlatest', hle.trans hle'⟩

/-- A mark adds an attempt to the marked ones and changes no generation. -/
def IsMark (mark : String → AttemptLedger → AttemptLedger) : Prop :=
  ∀ attempt attempts, (mark attempt attempts).latest = attempts.latest ∧
    attempts.terminal ⊆ (mark attempt attempts).terminal ∧
    attempts.cancelled ⊆ (mark attempt attempts).cancelled

theorem get?_raiseLatest (latest : KeyMap String ℕ) (task : String) (generation : ℕ) :
    (raiseLatest latest task generation)[task]? = some (max ((latest[task]?).getD 0) generation) :=
  KeyMap.get?_insert_self _ _ _

theorem record_grows {mark : String → AttemptLedger → AttemptLedger} (hmark : IsMark mark)
    {attempts attempts' : AttemptLedger} {line : WorkOrderLine}
    (h : record mark attempts line = .ok attempts') :
    attempts.Grows attempts' ∧ attempts'.Covers line := by
  obtain ⟨generation, hgeneration, h⟩ := bind_eq_ok.mp h
  cases h
  obtain ⟨hlatest, hterminal, hcancelled⟩ := hmark line.attempt
    { attempts with latest := raiseLatest attempts.latest line.task generation }
  refine ⟨⟨fun task g hg => ?_, hterminal, hcancelled⟩, generation, _, hgeneration,
    by rw [hlatest, get?_raiseLatest], le_max_right _ _⟩
  rw [hlatest]
  by_cases htask : line.task = task
  · subst htask
    exact ⟨_, get?_raiseLatest _ _ _, by rw [hg]; exact le_max_left _ _⟩
  · exact ⟨g, (KeyMap.get?_insert_ne _ _ htask).trans hg, le_rfl⟩

theorem foldlM_record_grows {mark : String → AttemptLedger → AttemptLedger}
    {lines : List WorkOrderLine} {attempts attempts' : AttemptLedger}
    (h : lines.foldlM (record mark) attempts = .ok attempts') (hmark : IsMark mark) :
    attempts.Grows attempts' ∧ ∀ line ∈ lines, attempts'.Covers line := by
  induction lines generalizing attempts with
  | nil =>
      cases h
      exact ⟨AttemptLedger.Grows.refl _, fun line hline => absurd hline List.not_mem_nil⟩
  | cons line lines ih =>
      rw [List.foldlM_cons] at h
      obtain ⟨middle, hmiddle, hrest⟩ := bind_eq_ok.mp h
      obtain ⟨hgrows, hcovers⟩ := record_grows hmark hmiddle
      obtain ⟨hgrows', hcovers'⟩ := ih hrest
      refine ⟨hgrows.trans hgrows', fun other hother => ?_⟩
      rcases List.mem_cons.mp hother with rfl | hother
      · exact hcovers.grows hgrows'
      · exact hcovers' other hother

/-- The lines of a comment that name a generation. -/
def generationLines (comment : Comment) : List WorkOrderLine :=
  finditer WORKORDER comment.body ++ finditer WORKORDER_DONE comment.body ++
    finditer WORKORDER_CANCEL comment.body

theorem attemptStep_grows {attempts attempts' : AttemptLedger} {comment : Comment}
    (h : attemptStep attempts comment = .ok attempts') :
    attempts.Grows attempts' ∧ ∀ line ∈ generationLines comment, attempts'.Covers line := by
  obtain ⟨a, ha, h⟩ := bind_eq_ok.mp h
  obtain ⟨b, hb, hc⟩ := bind_eq_ok.mp h
  obtain ⟨hgrows₁, hcovers₁⟩ := foldlM_record_grows ha
    fun _ _ => ⟨rfl, List.Subset.refl _, List.Subset.refl _⟩
  obtain ⟨hgrows₂, hcovers₂⟩ := foldlM_record_grows hb
    fun _ _ => ⟨rfl, List.subset_cons_self _ _, List.Subset.refl _⟩
  obtain ⟨hgrows₃, hcovers₃⟩ := foldlM_record_grows hc
    fun _ _ => ⟨rfl, List.Subset.refl _, List.subset_cons_self _ _⟩
  refine ⟨(hgrows₁.trans hgrows₂).trans hgrows₃, fun line hline => ?_⟩
  rcases List.mem_append.mp hline with hline | hline
  · rcases List.mem_append.mp hline with hline | hline
    · exact (hcovers₁ line hline).grows (hgrows₂.trans hgrows₃)
    · exact (hcovers₂ line hline).grows hgrows₃
  · exact hcovers₃ line hline

theorem foldlM_attemptStep_grows {comments : List Comment} {attempts attempts' : AttemptLedger}
    (h : comments.foldlM attemptStep attempts = .ok attempts') :
    attempts.Grows attempts' ∧
      ∀ comment ∈ comments, ∀ line ∈ generationLines comment, attempts'.Covers line := by
  induction comments generalizing attempts with
  | nil =>
      cases h
      exact ⟨AttemptLedger.Grows.refl _, fun comment hcomment => absurd hcomment List.not_mem_nil⟩
  | cons comment comments ih =>
      rw [List.foldlM_cons] at h
      obtain ⟨middle, hmiddle, hrest⟩ := bind_eq_ok.mp h
      obtain ⟨hgrows, hcovers⟩ := attemptStep_grows hmiddle
      obtain ⟨hgrows', hcovers'⟩ := ih hrest
      refine ⟨hgrows.trans hgrows', fun other hother line hline => ?_⟩
      rcases List.mem_cons.mp hother with rfl | hother
      · exact (hcovers line hline).grows hgrows'
      · exact hcovers' other hother line hline

end Grows

end FossilCore
