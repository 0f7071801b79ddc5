import FossilCore.Projection.Graphiti

/-!
# The projector worker

`ProjectorWorker.run_once_async` of `runtime/projector.py`: one scan of an event store.
-/

namespace FossilCore

open Base

/-- What a scan reads of the event store: its events and its redaction tombstones. -/
structure EventSource where
  events : List Json
  tombstones : List Json

structure ProjectorCycle where
  scanned : ℕ
  receipts : List ProjectionReceipt

def ProjectionReceipt.isFailed (receipt : ProjectionReceipt) : Bool := receipt.status = .failed

def ProjectorCycle.failed (cycle : ProjectorCycle) : ℕ := cycle.receipts.countP (·.isFailed)

namespace GraphitiProjectionAdapter

variable (adapter : GraphitiProjectionAdapter)

/-- One event of the scan: skipped when the ledger has it, else applied. -/
def scanEvent (event : Json) : ProjectionProgram ProjectionReceipt := do
  let event_id ← .done (liftPy (event.getItem "event_id"))
  let event_id := event_id.pyStr
  if ← ProjectionProgram.is_redacted event_id then
    return ⟨event_id, .skipped, some "projection redacted"⟩
  else do
    if ← ProjectionProgram.is_applied event_id then
      return ⟨event_id, .skipped, some "already applied"⟩
    else adapter.apply_event_async event

/-- The loop of `run_once_async`: it ends after an event that failed. -/
def scan : List Json → ProjectionProgram (List ProjectionReceipt)
  | [] => return []
  | event :: events => do
      let receipt ← adapter.scanEvent event
      if receipt.isFailed then return [receipt]
      else do
        let receipts ← scan events
        return receipt :: receipts

def run_once_async (source : EventSource) : ProjectionProgram ProjectorCycle := do
  let purged ← purge_event_redactions_async source.tombstones
  if purged.any (·.isFailed) then return ⟨0, purged⟩
  else do
    let events ← .done (ordered_events source.events)
    let receipts ← adapter.scan events
    return ⟨receipts.length, purged ++ receipts⟩

variable (client : Client)

/-- One event of the scan raises and changes nothing, is passed over, or is applied. -/
theorem run_scanEvent (event : Json) (w : ProjectionWorld) :
    (∃ e, (adapter.scanEvent event).run (projectionStep client) w = (.error e, w)) ∨
    (∃ receipt, (adapter.scanEvent event).run (projectionStep client) w = (.ok receipt, w) ∧
      receipt.status = .skipped ∧ w.ledger.marked (textOf event "event_id") = true) ∨
    ∃ receipt w', Addressed event (textOf event "event_id") ∧
      w.ledger.marked (textOf event "event_id") = false ∧
        (adapter.scanEvent event).run (projectionStep client) w = (.ok receipt, w') ∧
          Application client adapter event (textOf event "event_id") w receipt.status w' := by
  cases hid : event.getItem "event_id" with
  | error exc => exact Or.inl ⟨.ofPython exc, by rw [scanEvent, hid]; rfl⟩
  | ok id =>
      have htext : textOf event "event_id" = id.pyStr := by
        rw [textOf, Json.getItem_ok_iff.mp hid, Option.getD_some]
      simp only [scanEvent, hid, liftPy_ok, Program.bind_done_ok, run_is_redacted, htext]
      cases hredacted : w.ledger.is_redacted id.pyStr with
      | true =>
          refine Or.inr (Or.inl ⟨_, rfl, rfl, ?_⟩)
          rw [ProjectionLedger.marked, hredacted, Bool.or_true]
      | false =>
          rw [if_neg (by decide), run_is_applied]
          cases happlied : w.ledger.is_applied id.pyStr with
          | true =>
              refine Or.inr (Or.inl ⟨_, rfl, rfl, ?_⟩)
              rw [ProjectionLedger.marked, happlied, Bool.true_or]
          | false =>
              rw [if_neg (by decide)]
              rcases run_apply_event client adapter event w with
                ⟨e, hrun, -⟩ | ⟨event_id, receipt, w', haddressed, hrun, -, happlication⟩
              · exact Or.inl ⟨e, hrun⟩
              · have heq : id.pyStr = event_id := by
                  rw [← htext, textOf, haddressed.event_id]
                  rfl
                rw [heq] at hredacted happlied ⊢
                refine Or.inr (Or.inr ⟨receipt, w', haddressed, ?_, hrun, happlication⟩)
                rw [ProjectionLedger.marked, happlied, hredacted]
                rfl

end GraphitiProjectionAdapter

end FossilCore
