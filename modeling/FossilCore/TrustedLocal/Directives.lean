import FossilCore.Base.Patterns
import FossilCore.TrustedLocal.Comments

/-!
# Directive lines

The regular expressions with which `trusted_local_runner.py`, `trusted_local_broker.py`,
`trusted_local_queue.py` and `privileged_local_verifier.py` read the comments of the queue.
-/

namespace FossilCore

open Base Base.Pattern

/-- `^keyword\s+task=(?P<task>[^\s]+)` -/
def directive (keyword : String) : Pattern String := do
  lit keyword
  field "task"

/-! ## Task lifecycle -/

def TASK_DIRECTIVE : Pattern String := do
  let task ← directive "TASK"
  lineEnd
  return task

def CANCEL_TASK : Pattern String := directive "CANCEL"

def TERMINAL_TASK : Pattern String := directive "DONE" <|> directive "BLOCKED"

def isKeyChar (c : Char) : Bool := c.isAlphanum || c = '_' || c = '-'

def isKeyStart (c : Char) : Bool := c.isAlpha || c = '_'

def FIELD : Pattern (String × String) := do
  let key ← many isKeyChar
  guard (key.toList.head?.any isKeyStart)
  lit "="
  let rest ← get
  set (rest.dropWhile (· ≠ '\n'))
  return (key, String.ofList (rest.takeWhile (· ≠ '\n')))

/-- The value of a field of a comment; the last line of a name counts. -/
def fieldValue (body key : String) : Option String :=
  ((finditer FIELD body).reverse.lookup key).map Text.trim

/-! ## Claims -/

def CLAIM_LINE : Pattern String := directive "CLAIM"

def AGENT_LINE : Pattern String := do
  lit "agent="
  token

def LEASE_LINE : Pattern String := do
  lit "lease_until="
  token

/-- `.*?lease_until=(?P<lease>[^\s]+)`, where the dot matches every character -/
def leaseAfter : List Char → Option (String × List Char)
  | [] => none
  | c :: cs => (LEASE_LINE.run (c :: cs)).or (leaseAfter cs)

/-- `(?P<agent>[^\s]+).*?lease_until=(?P<lease>[^\s]+)`: where no lease follows the agent, the agent
gives characters back until one does. -/
def agentAndLease : Pattern (String × String) := fun s =>
  let agent := s.takeWhile fun c => !Text.isWhitespace c
  (List.range' 1 agent.length).reverse.findSome? fun n =>
    (leaseAfter (s.drop n)).map fun (lease, rest) => ((String.ofList (s.take n), lease), rest)

structure Renewal where
  task : String
  agent : String
  lease : String
  deriving DecidableEq, Repr

def RENEW_LINE : Pattern Renewal := do
  let task ← directive "RENEW"
  let _ ← spaces
  lit "agent="
  let (agent, lease) ← agentAndLease
  return ⟨task, agent, lease⟩

structure ReleaseLine where
  task : String
  agent : String
  deriving DecidableEq, Repr

def RELEASE_LINE : Pattern ReleaseLine := do
  let task ← directive "RELEASE"
  let agent ← field "agent"
  return ⟨task, agent⟩

/-! ## Work orders -/

structure WorkOrderLine where
  task : String
  attempt : String
  generation : String
  deriving DecidableEq, Repr

def workOrderLine (keyword : String) : Pattern WorkOrderLine := do
  let task ← directive keyword
  let attempt ← field "attempt_id"
  let _ ← spaces
  lit "generation="
  let generation ← digits
  return ⟨task, attempt, generation⟩

def WORKORDER : Pattern WorkOrderLine := workOrderLine "WORKORDER"

def WORKORDER_DONE : Pattern WorkOrderLine := workOrderLine "WORKORDER_DONE"

def WORKORDER_CANCEL : Pattern WorkOrderLine := workOrderLine "WORKORDER_CANCEL"

/-! ## Reading and not reading -/

theorem run_directive {keyword task : String} {rest : List Char} (htask : Text.IsToken task)
    (hrest : Stops (fun c => !Text.isWhitespace c) rest) :
    (directive keyword).run
      (keyword.toList ++ (' ' :: (("task" ++ "=").toList ++ (task.toList ++ rest)))) =
        some (task, rest) := by
  rw [directive, run_keyword]
  exact run_field_append (by decide) htask hrest

/-- A directive has whitespace behind its keyword. -/
theorem run_directive_of_not_space {keyword : String} {c : Char} (hc : Text.isWhitespace c = false)
    (rest : List Char) : (directive keyword).run (keyword.toList ++ c :: rest) = none := by
  have hspaces : spaces.run (c :: rest) = none := by
    rw [spaces, run_many_eq, List.takeWhile_cons_of_neg (by rw [hc]; decide), if_pos rfl]
  rw [directive, run_keyword, field]
  exact run_bind_of_none hspaces

/-- The space in front of the next field ends a token. -/
theorem stops_space (rest : List Char) : Stops (fun c => !Text.isWhitespace c) (' ' :: rest) := by
  intro c hc
  cases hc
  decide

theorem hasKeyword_directive (keyword : String) : HasKeyword (directive keyword) keyword :=
  (hasKeyword_lit keyword).bind _

theorem hasKeyword_task : HasKeyword TASK_DIRECTIVE "TASK" := (hasKeyword_directive "TASK").bind _

theorem hasKeyword_renew : HasKeyword RENEW_LINE "RENEW" := (hasKeyword_directive "RENEW").bind _

theorem hasKeyword_release : HasKeyword RELEASE_LINE "RELEASE" :=
  (hasKeyword_directive "RELEASE").bind _

theorem hasKeyword_workOrderLine (keyword : String) : HasKeyword (workOrderLine keyword) keyword :=
  (hasKeyword_directive keyword).bind _

theorem run_release {task agent : String} {rest : List Char} (htask : Text.IsToken task)
    (hagent : Text.IsToken agent) (hrest : Stops (fun c => !Text.isWhitespace c) rest) :
    RELEASE_LINE.run (("RELEASE task=" ++ task ++ " agent=" ++ agent).toList ++ rest) =
      some (⟨task, agent⟩, rest) := by
  have hlist : ("RELEASE task=" ++ task ++ " agent=" ++ agent).toList ++ rest =
      "RELEASE".toList ++ (' ' :: (("task" ++ "=").toList ++ (task.toList ++
        (' ' :: (("agent" ++ "=").toList ++ (agent.toList ++ rest)))))) := by
    simp [String.toList_append]
  rw [hlist]
  refine run_bind_eq_some.mpr ⟨task, _, run_directive htask (stops_space _), ?_⟩
  refine run_bind_eq_some.mpr ⟨agent, rest, run_field_append (by decide) hagent hrest, ?_⟩
  exact run_pure_eq_some.mpr ⟨rfl, rfl⟩

theorem run_workOrderLine {keyword task attempt : String} {rest : List Char}
    (htask : Text.IsToken task) (hattempt : Text.IsToken attempt) (n : ℕ)
    (hrest : Stops isDecimal rest) :
    (workOrderLine keyword).run ((keyword ++ " task=" ++ task ++ " attempt_id=" ++ attempt ++
      " generation=" ++ toString n).toList ++ rest) =
        some (⟨task, attempt, toString n⟩, rest) := by
  have hlist : (keyword ++ " task=" ++ task ++ " attempt_id=" ++ attempt ++
      " generation=" ++ toString n).toList ++ rest =
      keyword.toList ++ (' ' :: (("task" ++ "=").toList ++ (task.toList ++
        (' ' :: (("attempt_id" ++ "=").toList ++ (attempt.toList ++
          (' ' :: ("generation=".toList ++ ((toString n).toList ++ rest))))))))) := by
    simp [String.toList_append]
  rw [hlist]
  refine run_bind_eq_some.mpr ⟨task, _, run_directive htask (stops_space _), ?_⟩
  refine run_bind_eq_some.mpr ⟨attempt, _, run_field_append (by decide) hattempt (stops_space _), ?_⟩
  refine run_bind_eq_some.mpr ⟨" ", _, run_many.mpr ⟨by decide, by decide, ?_, rfl⟩, ?_⟩
  · exact fun c hc => by cases hc; decide
  · refine run_bind_eq_some.mpr ⟨(), _, run_lit.mpr rfl, ?_⟩
    refine run_bind_eq_some.mpr ⟨toString n, rest, run_digits_toString n hrest, ?_⟩
    exact run_pure_eq_some.mpr ⟨rfl, rfl⟩

end FossilCore
