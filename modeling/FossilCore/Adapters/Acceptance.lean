import FossilCore.Adapters.ReplayedStore
import FossilCore.Base.JsonObject

/-!
# What an event store accepts

The gate of a store as one condition on the event, and the outcome of a commit of an event that
names a retryable operation the store knows nothing of.
-/

namespace FossilCore

open Base

variable {config : StoreConfig}

/-! ## Operations -/

/-- The event under the id of its operation. -/
def identified (config : StoreConfig) (event : Json) : Json :=
  event.set "event_id" (.str (config.operationId event))

theorem assignId_of_idempotent {event : Json} (hobj : event.isObj = true)
    (hidem : Idempotent event) (hid : event.get? "event_id" = none) (uuid : String) :
    config.assignId event uuid = .ok (identified config event) := by
  have hsupplied : ¬ Json.truthy? (none : Option Json) = true := by decide
  rw [StoreConfig.assignId, Json.getMethod_of_isObj hobj, Json.getMethod_of_isObj hobj, hid]
  show (if _ then _ else _) = _
  rw [if_pos (show _ ∧ _ from hidem), if_neg fun h => hsupplied h.1]
  rfl

theorem truthy?_str {v : Json} {key s : String} (h : v.get? key = some (.str s)) (hs : s ≠ "") :
    Json.truthy? (v.get? key) = true := by
  rw [h]
  simp [Json.truthy?, Json.truthy, hs]

theorem isPrefixedId_operationId (config : StoreConfig) (event : Json) :
    Schema.isPrefixedId "evt_" 16 (config.operationId event) = true := by
  refine Schema.isPrefixedId_iff.mpr
    ⟨(config.sha256.hexdigest (idempotencyText ((event.get? "pack_id").getD .null)
      ((event.get? "idempotency_key").getD .null)).toUTF8).toList.take 32, [], ?_, ?_, ?_,
      Or.inl rfl⟩
  · simp [StoreConfig.operationId, deterministic_event_id, String.toList_append,
      Text.toList_take]
  · rw [List.length_take, config.sha256.length_hexdigest]
    decide
  · intro c hc
    exact isWordChar_of_isHexChar (config.sha256.isHexChar_hexdigest _ c (List.mem_of_mem_take hc))

def operationEventId (config : StoreConfig) (event : Json) : EventId :=
  ⟨config.operationId event, isPrefixedId_operationId config event⟩

/-! ## The gate -/

theorem validate_ok_iff {event candidate : Json} {uuid : String} :
    config.validate event uuid = .ok candidate ↔
      config.assignId event uuid = .ok candidate ∧ eventSchema config.formats candidate = true ∧
        ∃ contract, validate_event_for_commit config.formats config.resolvers candidate =
          .ok contract := by
  constructor
  · intro h
    obtain ⟨hprepared, haccepted⟩ := validate_ok h
    exact ⟨(prepare_ok hprepared).1, haccepted.envelope, haccepted.contract⟩
  · rintro ⟨hassigned, hschema, contract, hcontract⟩
    have hprepare : config.prepare event uuid = .ok candidate :=
      bind_eq_ok.mpr ⟨candidate, hassigned,
        bind_eq_ok.mpr ⟨(), validateSchema_ok.mpr hschema, rfl⟩⟩
    exact bind_eq_ok.mpr ⟨candidate, hprepare, bind_eq_ok.mpr ⟨contract, hcontract, rfl⟩⟩

/-! ## Commits -/

/-- The store has nothing under the id of the event's operation. -/
structure Unseen (config : StoreConfig) (files : Files) (event : Document) : Prop where
  no_event : files[DurableEventStore.event_path (config.operationId event.value)]? = none
  no_tombstone : files[DurableEventStore.redaction_path (config.operationId event.value)]? = none

theorem unseen_empty (config : StoreConfig) (event : Document) : Unseen config ∅ event :=
  ⟨Std.ExtTreeMap.getElem?_empty, Std.ExtTreeMap.getElem?_empty⟩

/-- A store that has not seen the event accepts it when it passes the gate. -/
theorem commit_ok_iff {calls : List EventCall} (event : Document) (uuid temp : String)
    (hobj : event.value.isObj = true)
    (hassigned : config.assignId event.value uuid = .ok (identified config event.value))
    (hunseen : Unseen config (Runs.after (DurableEventStore.step config) ∅ calls) event) :
    (∃ e, ((DurableEventStore.commit config event.value uuid temp).run fsStep
        (Runs.after (DurableEventStore.step config) ∅ calls)).1 = .ok e) ↔
      ∃ candidate, config.validate event.value uuid = .ok candidate := by
  have hstored := @DurableEventStore.storedAs_after config calls
  have hsame := (DurableEventStore.run_commit hstored event uuid temp).1
  have hno := (DurableEventStore.get?_event hstored (operationEventId config event.value)).symm
  have hnone :=
    (DurableEventStore.get?_tombstone hstored (operationEventId config event.value)).symm
  rw [show (operationEventId config event.value).text = config.operationId event.value from rfl]
    at hno hnone
  rw [hunseen.no_event, Option.map_eq_none_iff] at hno
  rw [hunseen.no_tombstone, Option.map_eq_none_iff] at hnone
  rw [Ledger.commit] at hsame
  cases hvalidate : config.validate event.value uuid with
  | error e =>
      rw [hvalidate] at hsame
      obtain ⟨e', he'⟩ := hsame.error_right
      rw [he']
      exact iff_of_false (by simp) (by simp)
  | ok candidate =>
      have hcandidate := (validate_ok_iff.mp hvalidate).1
      rw [hassigned] at hcandidate
      cases hcandidate
      have hid : eventIdText (identified config event.value) =
          .ok (config.operationId event.value) := by
        apply eventIdText_of_get?
        rw [identified, Json.get?_set hobj, if_pos rfl]
      simp only [hvalidate, hid, hno, hnone, Option.isSome_none, Bool.false_eq_true, if_false]
        at hsame
      exact iff_of_true ⟨_, hsame.ok_right⟩ ⟨_, rfl⟩

end FossilCore
