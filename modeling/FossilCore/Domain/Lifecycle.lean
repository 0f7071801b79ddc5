import FossilCore.Errors
import FossilCore.Base.Dict
import FossilCore.Domain.Ontology

/-!
# Lifecycle replay

`KnowledgeState` of `domain/lifecycle.py`, on arbitrary JSON events.  An operation returns its
result together with the state it leaves behind, since the maps are updated in place and keep
what was written before an exception.
-/

namespace FossilCore

open Base

def CLAIM_STATES : List String :=
  ["proposed", "open", "supported", "disputed", "rejected", "superseded", "retracted",
    "stale_pending_review"]

def RELATION_STATES : List String :=
  ["proposed", "active", "disputed", "superseded", "invalidated"]

namespace Error

def lifecycleError (message : String) : Error := ⟨.lifecycleError, message⟩

end Error

structure RelationRecord where
  relation_id : Json
  relation_type : String
  source_ref : Json
  target_ref : Json
  state : String
  deriving DecidableEq

structure KnowledgeState where
  claims : Dict Json String
  claim_history : Dict Json (List String)
  relations : Dict Json RelationRecord
  relation_history : Dict Json (List String)
  deriving DecidableEq

/-- `value in names` for a set of names: only a hashable value can be looked up. -/
def memberOf (value : Json) (names : List String) : Except Error (Option String) :=
  match value with
  | .str s => .ok (if s ∈ names then some s else none)
  | v => if v.hashable then .ok none else .error .typeError

/-- `key in d`, again for a hashable key. -/
def knownIn {α : Type} (key : Json) (d : Dict Json α) : Except Error Bool :=
  if key.hashable then .ok (d.contains key) else .error .typeError

theorem get?_of_getItem {key : String} {payload value : Json}
    (h : liftPy (payload.getItem key) = .ok value) : payload.get? key = some value :=
  Json.getItem_ok_iff.mp (liftPy_eq_ok.mp h)

namespace KnowledgeState

def empty : KnowledgeState := ⟨.empty, .empty, .empty, .empty⟩

/-- The checks of `change_claim`, in their order. -/
def checkClaimChange (state : KnowledgeState) (claim_id target : Json) (expected : Option Json) :
    Except Error String := do
  if !(← knownIn claim_id state.claims) then
    .error (.lifecycleError s!"unknown claim: {claim_id.pyStr}")
  else
    match ← memberOf target CLAIM_STATES with
    | none => .error (.lifecycleError s!"invalid claim state: {target.pyStr}")
    | some target =>
        match expected with
        | none | some .null => return target
        | some expected =>
            if (state.claims.get? claim_id).map Json.str ≠ some expected then
              .error (.lifecycleError "claim from_state does not match current state")
            else return target

def change_claim (state : KnowledgeState) (claim_id target : Json) (expected : Option Json) :
    Except Error Unit × KnowledgeState :=
  match state.checkClaimChange claim_id target expected with
  | .error e => (.error e, state)
  | .ok target =>
      let state := { state with claims := state.claims.set claim_id target }
      match state.claim_history.get? claim_id with
      | none => (.error (.keyError claim_id.pyRepr), state)
      | some history =>
          (.ok (), { state with
            claim_history := state.claim_history.set claim_id (history ++ [target]) })

def terminal : List String := ["superseded", "retracted", "rejected"]

/-- Is the relation an active dependency on the premise with a known source? -/
def dependsOn (state : KnowledgeState) (premise_id : Json) (relation : RelationRecord) :
    Except Error Bool :=
  if relation.relation_type ≠ "DEPENDS_ON" ∨ relation.state ≠ "active" then .ok false
  else if relation.target_ref ≠ premise_id then .ok false
  else knownIn relation.source_ref state.claims

/-- The loop of `mark_dependents_stale` over the remaining relations. -/
def markStale (state : KnowledgeState) (premise_id : Json) :
    List RelationRecord → Except Error Unit × KnowledgeState
  | [] => (.ok (), state)
  | relation :: rest =>
      match state.dependsOn premise_id relation with
      | .error e => (.error e, state)
      | .ok false => state.markStale premise_id rest
      | .ok true =>
          match state.claims.get? relation.source_ref with
          | none => (.error (.keyError relation.source_ref.pyRepr), state)
          | some current =>
              if current ∈ terminal then state.markStale premise_id rest
              else
                match state.change_claim relation.source_ref (.str "stale_pending_review") none with
                | (.error e, state) => (.error e, state)
                | (.ok _, state) => state.markStale premise_id rest

def mark_dependents_stale (state : KnowledgeState) (premise_id : Json) :
    Except Error Unit × KnowledgeState :=
  state.markStale premise_id state.relations.values

def proposeClaim (state : KnowledgeState) (subject : Json) :
    Except Error Unit × KnowledgeState :=
  match knownIn subject state.claims with
  | .error e => (.error e, state)
  | .ok true => (.error (.lifecycleError s!"claim already exists: {subject.pyStr}"), state)
  | .ok false =>
      (.ok (), { state with
        claims := state.claims.set subject "proposed"
        claim_history := state.claim_history.set subject ["proposed"] })

/-- The record a `relation.proposed` payload describes. -/
def readProposal (state : KnowledgeState) (payload : Json) : Except Error RelationRecord := do
  let relation_id ← liftPy (payload.getItem "relation_id")
  if ← knownIn relation_id state.relations then
    .error (.lifecycleError s!"relation already exists: {relation_id.pyStr}")
  else
    let relation_type ← liftPy (payload.getItem "relation_type")
    match ← memberOf relation_type RELATION_TYPES with
    | none => .error (.lifecycleError s!"invalid relation type: {relation_type.pyStr}")
    | some relation_type =>
        let relation_state := (payload.get? "state").getD (.str "proposed")
        match ← memberOf relation_state RELATION_STATES with
        | none => .error (.lifecycleError s!"invalid relation state: {relation_state.pyStr}")
        | some relation_state =>
            let source_ref ← liftPy (payload.getItem "source_ref")
            let target_ref ← liftPy (payload.getItem "target_ref")
            return ⟨relation_id, relation_type, source_ref, target_ref, relation_state⟩

def proposeRelation (state : KnowledgeState) (payload : Json) :
    Except Error Unit × KnowledgeState :=
  match state.readProposal payload with
  | .error e => (.error e, state)
  | .ok relation =>
      (.ok (), { state with
        relations := state.relations.set relation.relation_id relation
        relation_history := state.relation_history.set relation.relation_id [relation.state] })

def transitionTarget (kind payload : Json) : Except Error Json :=
  if kind = .str "relation.superseded" then .ok (.str "superseded")
  else liftPy (payload.getItem "to_state")

/-- The relation a transition payload names and the state it moves it to. -/
def readTransition (state : KnowledgeState) (kind payload : Json) :
    Except Error (Json × RelationRecord × String) := do
  let relation_id ← liftPy (payload.getItem "relation_id")
  let _ ← knownIn relation_id state.relations
  match state.relations.get? relation_id with
  | none => .error (.keyError relation_id.pyRepr)
  | some relation =>
      let expected := payload.get? "from_state"
      if expected ≠ none ∧ expected ≠ some .null ∧ expected ≠ some (.str relation.state) then
        .error (.lifecycleError "relation from_state does not match current state")
      else
        let target ← transitionTarget kind payload
        match ← memberOf target RELATION_STATES with
        | none => .error (.lifecycleError s!"invalid relation state: {target.pyStr}")
        | some target => return (relation_id, relation, target)

def moveRelation (state : KnowledgeState) (kind payload : Json) :
    Except Error Unit × KnowledgeState :=
  match state.readTransition kind payload with
  | .error e => (.error e, state)
  | .ok (relation_id, relation, target) =>
      let state := { state with
        relations := state.relations.set relation_id { relation with state := target } }
      match state.relation_history.get? relation.relation_id with
      | none => (.error (.keyError relation.relation_id.pyRepr), state)
      | some history =>
          (.ok (), { state with
            relation_history :=
              state.relation_history.set relation.relation_id (history ++ [target]) })

/-- `event["event_type"]`, `event["payload"]` and `event["subject_refs"][0]`. -/
def readHead (event : Json) : Except Error (Json × Json × Json) := liftPy do
  let kind ← event.getItem "event_type"
  let payload ← event.getItem "payload"
  let subject_refs ← event.getItem "subject_refs"
  let subject ← subject_refs.getFirst
  return (kind, payload, subject)

def applyKind (state : KnowledgeState) (kind payload subject : Json) :
    Except Error Unit × KnowledgeState :=
  if kind = .str "claim.proposed" then state.proposeClaim subject
  else if kind = .str "claim.state_changed" then
    match liftPy (payload.getItem "to_state") with
    | .error e => (.error e, state)
    | .ok to_state => state.change_claim subject to_state (payload.get? "from_state")
  else if kind = .str "claim.superseded" then
    match liftPy (payload.getMethod "from_state") with
    | .error e => (.error e, state)
    | .ok from_state =>
        match state.change_claim subject (.str "superseded") from_state with
        | (.error e, state) => (.error e, state)
        | (.ok _, state) => state.mark_dependents_stale subject
  else if kind = .str "relation.proposed" then state.proposeRelation payload
  else if !kind.hashable then (.error .typeError, state)
  else if kind = .str "relation.state_changed" ∨ kind = .str "relation.superseded" then
    state.moveRelation kind payload
  else (.ok (), state)

def apply (state : KnowledgeState) (event : Json) : Except Error Unit × KnowledgeState :=
  match readHead event with
  | .error e => (.error e, state)
  | .ok (kind, payload, subject) => state.applyKind kind payload subject

/-- `replay`, from a given state. -/
def replayFrom (state : KnowledgeState) : List Json → Except Error KnowledgeState
  | [] => .ok state
  | event :: rest =>
      match state.apply event with
      | (.error e, _) => .error e
      | (.ok _, state) => state.replayFrom rest

def replay (events : List Json) : Except Error KnowledgeState := empty.replayFrom events

theorem replayFrom_append (state : KnowledgeState) (xs ys : List Json) :
    state.replayFrom (xs ++ ys) = state.replayFrom xs >>= fun state => state.replayFrom ys := by
  induction xs generalizing state with
  | nil => rfl
  | cons event xs ih =>
      rw [List.cons_append, replayFrom, replayFrom]
      rcases h : state.apply event with ⟨_ | _, state'⟩
      · rfl
      · exact ih state'

end KnowledgeState

end FossilCore
