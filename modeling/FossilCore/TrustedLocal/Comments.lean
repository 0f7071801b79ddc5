import FossilCore.Base.Dict
import FossilCore.Base.Lines
import FossilCore.Errors

/-!
# The queue of the trusted local tools

The comments of the coordination issue, and the exceptions of `trusted_local_runner.py` and
`trusted_local_supervisor.py`.
-/

namespace FossilCore

open Base

inductive RunnerError where
  | supervisorError (message : String)
  | workOrderError (code detail : String)
  /-- Any other exception. -/
  | raised (e : Error)
  deriving DecidableEq, Repr

/-- `except SupervisorError` -/
def RunnerError.isSupervisorError : RunnerError → Bool
  | .supervisorError _ => true
  | _ => false

/-- `except (HTTPError, OSError, ValueError)` -/
def RunnerError.isReadError : RunnerError → Bool
  | .raised ⟨.builtin cls, _⟩ => cls.isOSError ∨ cls.isValueError
  | _ => false

def liftRaised {α : Type} : Except Error α → Except RunnerError α
  | .ok a => .ok a
  | .error e => .error (.raised e)

/-- What is read of a comment: the login of its author, if it has one, its body and its id. -/
structure Comment where
  login : Option String
  body : String
  id : Option ℤ
  deriving DecidableEq, Repr

/-- A comment of a response of the API. -/
def Comment.ofJson (item : Json) : Comment where
  login := ((item.get? "user").getD .null).get? "login" >>= Json.asStr?
  body := ((item.get? "body").getD (.str "")).pyStr
  id := match item.get? "id" with
    | some (.int n) => some n
    | _ => none

def TRUSTED_AUTHORS : List String := ["Pukujan"]

def Comment.trusted (comment : Comment) : Bool :=
  match comment.login with
  | some login => login ∈ TRUSTED_AUTHORS
  | none => false

/-- A comment that one of the tools posts. -/
def trustedComment (body : String) : Comment := ⟨some "Pukujan", body, none⟩

theorem trusted_trustedComment (body : String) : (trustedComment body).trusted = true :=
  decide_eq_true (show "Pukujan" ∈ TRUSTED_AUTHORS from List.mem_cons_self)

/-- `^[0-9a-f]{40}$`, for the whole text -/
def isSha (s : String) : Bool :=
  s.toList.length = 40 ∧ s.toList.all fun c => c.isDigit || ('a' ≤ c && c ≤ 'f')

end FossilCore
