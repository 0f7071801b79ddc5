import FossilCore.Base.Json

/-!
# Errors

The exceptions the modelled code raises: the built-in ones, the schema validator's, and the
classes declared in the sources.
-/

namespace FossilCore

open Base

inductive ErrorClass where
  | builtin (cls : PyClass)
  | validationError
  | lifecycleError
  | ontologyConstraintError
  | eventContractError
  | promotionSourceError
  | idempotencyConflict
  | eventRedactedError
  | eventRedactionConflict
  | artifactIntegrityError
  | artifactRedactedError
  | remoteStoreUnavailable
  | remoteObjectConflict
  | packBoundaryError
  | capabilityError
  | agentProvenanceError
  | packFixtureIntegrityError
  | packSetLockError
  | sourceSnapshotConflict
  | citationIntegrityError
  | citationLaunderingError
  | conversationConflict
  | conversationProvenanceError
  | reviewedEvidenceIngestError
  | sharedChatCaptureError
  deriving DecidableEq, Repr

structure Error where
  cls : ErrorClass
  message : String
  deriving DecidableEq, Repr

namespace Error

def ofPython (exc : PyException) : Error := ⟨.builtin exc.cls, exc.message⟩

def valueError (message : String) : Error := ofPython (.valueError message)

def keyError (key : String) : Error := ofPython (.keyError key)

def typeError : Error := ofPython .typeError

def packBoundaryError (message : String) : Error := ⟨.packBoundaryError, message⟩

end Error

/-- `issubclass(cls, ValueError)` -/
def ErrorClass.isValueError : ErrorClass → Bool
  | .builtin cls => cls.isValueError
  | .lifecycleError | .ontologyConstraintError | .eventContractError | .promotionSourceError
  | .packBoundaryError | .packSetLockError | .agentProvenanceError | .packFixtureIntegrityError
  | .citationLaunderingError | .conversationProvenanceError | .reviewedEvidenceIngestError
  | .sharedChatCaptureError => true
  | _ => false

/-- `issubclass(cls, FileNotFoundError)` -/
def ErrorClass.isFileNotFound : ErrorClass → Bool
  | .builtin .fileNotFoundError | .eventRedactedError | .artifactRedactedError => true
  | _ => false

/-- A built-in exception raised inside a function of the program. -/
def liftPy {α : Type} : Except PyException α → Except Error α
  | .ok a => .ok a
  | .error exc => .error (.ofPython exc)

@[simp] theorem liftPy_ok {α : Type} (a : α) : liftPy (.ok a) = .ok a := rfl

@[simp] theorem liftPy_error {α : Type} (exc : PyException) :
    liftPy (.error exc : Except PyException α) = .error (.ofPython exc) := rfl

theorem liftPy_eq_ok {α : Type} {x : Except PyException α} {a : α} :
    liftPy x = .ok a ↔ x = .ok a := by
  cases x <;> simp

/-- `if condition: check()` -/
def checkIf (condition : Prop) [Decidable condition] (check : Except Error Unit) :
    Except Error Unit :=
  if condition then check else .ok ()

theorem checkIf_ok {condition : Prop} [Decidable condition] {check : Except Error Unit} :
    checkIf condition check = .ok () ↔ (condition → check = .ok ()) := by
  by_cases h : condition <;> simp [checkIf, h]

/-- `for item in value` -/
def iterate : Json → Except Error (List Json)
  | .arr items => .ok items
  | .str s => .ok (s.toList.map fun c => .str (String.ofList [c]))
  | .obj fields => .ok (fields.map fun field => .str field.1)
  | _ => .error .typeError

/-- `dict(item)`, for a mapping. -/
def asMapping (item : Json) : Except Error Json :=
  if item.isObj then .ok item else .error .typeError

end FossilCore
