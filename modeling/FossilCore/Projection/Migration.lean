import Mathlib.Data.Finset.Sort
import Mathlib.Data.Prod.Lex
import FossilCore.Base.JsonText
import FossilCore.Base.KeyMap
import FossilCore.Domain.Identity
import FossilCore.Domain.LifecycleInvariant
import FossilCore.Domain.Promotion

/-!
# Canonical order and semantic snapshots

`ordered_events` and `SemanticSnapshot` of `projection/migration.py`.  Ids that are not texts
are compared by no code that accepts them: the sorts of a snapshot are modelled for texts, and
raise for two or more identifiers of which one is not a text.
-/

namespace FossilCore

open Base

/-- `str(event["recorded_at"]), str(event["event_id"])` -/
def canonical_event_order (event : Json) : Except Error (String ×ₗ String) := liftPy do
  let recorded_at ← event.getItem "recorded_at"
  let event_id ← event.getItem "event_id"
  return toLex (recorded_at.pyStr, event_id.pyStr)

def keyedEvents (events : List Json) : Except Error (List ((String ×ₗ String) × Json)) :=
  events.mapM fun event => do return (← canonical_event_order event, event)

def ordered_events (events : List Json) : Except Error (List Json) := do
  let keyed ← keyedEvents events
  return (sortedBy Prod.fst keyed).map Prod.snd

/-! ## Snapshots -/

/-- What the loop of `from_events` has gathered. -/
structure Tally where
  pack_events : Dict String (List String)
  namespace_subjects : Dict String (Finset String)
  event_type_counts : Dict String ℕ
  provenance : List (String × String)

namespace Tally

def empty : Tally := ⟨.empty, .empty, .empty, []⟩

/-- The canonical JSON text of what an event says about its origin. -/
def provenanceText (event : Json) : String :=
  Json.dumps (.ofMembers [
    ("actor", (event.get? "actor").getD .null),
    ("caused_by_event_ids", (event.get? "caused_by_event_ids").getD (.arr [])),
    ("evidence_refs", (event.get? "evidence_refs").getD (.arr [])),
    ("source_snapshot_refs", (event.get? "source_snapshot_refs").getD (.arr [])),
    ("provenance", (event.get? "provenance").getD (.obj []))])

def record (tally : Tally) (event : Json) : Except Error Tally := do
  let event_id := (← liftPy (event.getItem "event_id")).pyStr
  let pack_id := (← liftPy (event.getItem "pack_id")).pyStr
  let refs ← iterate ((event.get? "subject_refs").getD (.arr []))
  let event_type := (← liftPy (event.getItem "event_type")).pyStr
  let pack_events := (tally.pack_events.get? pack_id).getD [] ++ [event_id]
  let subjects :=
    (tally.namespace_subjects.get? pack_id).getD ∅ ∪ (refs.map Json.pyStr).toFinset
  let count := (tally.event_type_counts.get? event_type).getD 0 + 1
  return {
    pack_events := tally.pack_events.set pack_id pack_events
    namespace_subjects := tally.namespace_subjects.set pack_id subjects
    event_type_counts := tally.event_type_counts.set event_type count
    provenance := tally.provenance ++ [(event_id, provenanceText event)] }

end Tally

/-- `sorted(d.items())`, the keys being texts. -/
def sortedItems {α : Type} (d : Dict String α) : List (String × α) := sortedBy Prod.fst d.entries

def idText (id : Json) : String := (id.asStr?).getD ""

/-- `sorted` of entries with distinct identifiers in front. -/
def sortedIdentified {α : Type} (entries : List (Json × α)) : Except Error (List (Json × α)) :=
  if entries.length ≤ 1 ∨ ∀ entry ∈ entries, entry.1.isStr = true then
    .ok (sortedBy (fun entry => idText entry.1) entries)
  else .error .typeError

structure SemanticSnapshot where
  event_ids : List Json
  pack_event_ids : List (String × List String)
  namespace_subject_refs : List (String × List String)
  provenance_by_event : List (String × String)
  claim_states : List (Json × String)
  relation_states : List (Json × String × Json × Json × String)
  event_type_counts : List (String × ℕ)

namespace SemanticSnapshot

/-- `from_events`, for events in canonical order. -/
def ofOrdered (replay : List Json) : Except Error SemanticSnapshot := do
  let state ← KnowledgeState.replay replay
  let tally ← replay.foldlM Tally.record .empty
  let relation_states ← sortedIdentified (state.relations.entries.map fun entry =>
    (entry.1, entry.2.relation_type, entry.2.source_ref, entry.2.target_ref, entry.2.state))
  let event_ids ← replay.mapM fun event => liftPy (event.getItem "event_id")
  let claim_states ← sortedIdentified state.claims.entries
  return {
    event_ids
    pack_event_ids := sortedItems tally.pack_events
    namespace_subject_refs :=
      (sortedItems tally.namespace_subjects).map fun entry => (entry.1, entry.2.sort (· ≤ ·))
    provenance_by_event := sortedBy toLex tally.provenance
    claim_states
    relation_states
    event_type_counts := sortedItems tally.event_type_counts }

def from_events (events : List Json) : Except Error SemanticSnapshot :=
  ordered_events events >>= ofOrdered

def texts (items : List String) : Json := .arr (items.map .str)

/-- `asdict(self)` as JSON: a tuple is written as a list. -/
def asdict (snapshot : SemanticSnapshot) : Json :=
  .ofMembers [
    ("event_ids", .arr snapshot.event_ids),
    ("pack_event_ids",
      .arr (snapshot.pack_event_ids.map fun entry => .arr [.str entry.1, texts entry.2])),
    ("namespace_subject_refs",
      .arr (snapshot.namespace_subject_refs.map fun entry => .arr [.str entry.1, texts entry.2])),
    ("provenance_by_event",
      .arr (snapshot.provenance_by_event.map fun entry => .arr [.str entry.1, .str entry.2])),
    ("claim_states",
      .arr (snapshot.claim_states.map fun entry => .arr [entry.1, .str entry.2])),
    ("relation_states",
      .arr (snapshot.relation_states.map fun (id, relation_type, source, target, state) =>
        .arr [id, .str relation_type, source, target, .str state])),
    ("event_type_counts",
      .arr (snapshot.event_type_counts.map fun entry => .arr [.str entry.1, .int entry.2]))]

def digest (sha256 : Sha256) (snapshot : SemanticSnapshot) : String :=
  sha256.hexdigest (Json.dumps snapshot.asdict).toUTF8

end SemanticSnapshot

/-! ## The canonical order -/

/-- The key of an event that has both members. -/
def orderKey (event : Json) : String ×ₗ String :=
  toLex (textOf event "recorded_at", textOf event "event_id")

structure Keyed (event : Json) : Prop where
  recorded_at : ∃ value, event.get? "recorded_at" = some value
  event_id : ∃ value, event.get? "event_id" = some value

theorem canonical_event_order_keyed {event : Json} (h : Keyed event) :
    canonical_event_order event = .ok (orderKey event) := by
  obtain ⟨⟨recorded_at, hrecorded⟩, ⟨event_id, hid⟩⟩ := h
  rw [canonical_event_order, Json.getItem_of_get? hrecorded, Json.getItem_of_get? hid, orderKey,
    textOf, textOf, hrecorded, hid]
  rfl

theorem keyed_of_canonical_event_order {event : Json} {key : String ×ₗ String}
    (h : canonical_event_order event = .ok key) : Keyed event := by
  rw [canonical_event_order] at h
  cases hrecorded : event.getItem "recorded_at" with
  | error e =>
      rw [hrecorded] at h
      cases h
  | ok recorded_at =>
      cases hid : event.getItem "event_id" with
      | error e =>
          rw [hrecorded, hid] at h
          cases h
      | ok event_id =>
          exact ⟨⟨recorded_at, Json.getItem_ok_iff.mp hrecorded⟩,
            ⟨event_id, Json.getItem_ok_iff.mp hid⟩⟩

theorem canonical_event_order_error {event value : Json}
    (hrecorded : event.get? "recorded_at" = none) (hid : event.get? "event_id" = some value) :
    canonical_event_order event = .error (.keyError "recorded_at") := by
  cases event with
  | obj fields =>
      have hlookup : Json.lookup "recorded_at" fields = none := hrecorded
      rw [canonical_event_order, Json.getItem, hlookup]
      rfl
  | _ => cases hid

theorem keyedEvents_cons (event : Json) (events : List Json) :
    keyedEvents (event :: events) = do
      let key ← canonical_event_order event
      let rest ← keyedEvents events
      return (key, event) :: rest := by
  rw [keyedEvents, List.mapM_cons]
  cases canonical_event_order event <;> rfl

theorem keyedEvents_keyed {events : List Json} (h : ∀ event ∈ events, Keyed event) :
    keyedEvents events = .ok (events.map fun event => (orderKey event, event)) := by
  induction events with
  | nil => rfl
  | cons event events ih =>
      rw [keyedEvents_cons, canonical_event_order_keyed (h event List.mem_cons_self),
        ih fun other hother => h other (List.mem_cons_of_mem event hother)]
      rfl

theorem keyed_of_keyedEvents {events : List Json} {keyed : List ((String ×ₗ String) × Json)}
    (h : keyedEvents events = .ok keyed) : ∀ event ∈ events, Keyed event := by
  induction events generalizing keyed with
  | nil => simp
  | cons event events ih =>
      rw [keyedEvents_cons] at h
      obtain ⟨key, hkey, h⟩ := bind_eq_ok.mp h
      obtain ⟨rest, hrest, -⟩ := bind_eq_ok.mp h
      intro other hother
      rcases List.mem_cons.mp hother with rfl | hother
      · exact keyed_of_canonical_event_order hkey
      · exact ih hrest other hother

theorem keyedEvents_error {events : List Json}
    (hids : ∀ event ∈ events, ∃ id, event.get? "event_id" = some id)
    (hmissing : ∃ event ∈ events, event.get? "recorded_at" = none) :
    keyedEvents events = .error (.keyError "recorded_at") := by
  induction events with
  | nil =>
      obtain ⟨event, hmem, -⟩ := hmissing
      cases hmem
  | cons event events ih =>
      obtain ⟨id, hid⟩ := hids event List.mem_cons_self
      rw [keyedEvents_cons]
      cases hrecorded : event.get? "recorded_at" with
      | none =>
          rw [canonical_event_order_error hrecorded hid]
          rfl
      | some recorded_at =>
          have hrest : ∃ other ∈ events, other.get? "recorded_at" = none := by
            obtain ⟨other, hother, hnone⟩ := hmissing
            rcases List.mem_cons.mp hother with rfl | hother
            · rw [hrecorded] at hnone
              cases hnone
            · exact ⟨other, hother, hnone⟩
          rw [canonical_event_order_keyed ⟨⟨recorded_at, hrecorded⟩, ⟨id, hid⟩⟩,
            ih (fun other hother => hids other (List.mem_cons_of_mem event hother)) hrest]
          rfl

theorem ordered_events_keyed {events : List Json} (h : ∀ event ∈ events, Keyed event) :
    ordered_events events = .ok (sortedBy orderKey events) := by
  have hsort : (sortedBy Prod.fst (events.map fun event => (orderKey event, event))).map Prod.snd =
      sortedBy orderKey events := by
    rw [sortedBy_map, List.map_map]
    exact List.map_id _
  rw [ordered_events, keyedEvents_keyed h, ← hsort]
  rfl

/-- Sorting succeeds on the events that have their keys, and only on them. -/
theorem ordered_events_ok_iff {events ordered : List Json} :
    ordered_events events = .ok ordered ↔
      (∀ event ∈ events, Keyed event) ∧ ordered = sortedBy orderKey events := by
  constructor
  · intro h
    obtain ⟨keyed, hkeyed, -⟩ := bind_eq_ok.mp h
    have hall := keyed_of_keyedEvents hkeyed
    rw [ordered_events_keyed hall] at h
    exact ⟨hall, (Except.ok.inj h).symm⟩
  · rintro ⟨hall, rfl⟩
    exact ordered_events_keyed hall

/-! ## Enumeration order -/

/-- Every event has an id, and no two ids are written the same. -/
structure DistinctIds (events : List Json) : Prop where
  present : ∀ event ∈ events, ∃ id, event.get? "event_id" = some id
  distinct : events.Pairwise fun a b => textOf a "event_id" ≠ textOf b "event_id"

theorem DistinctIds.orderKey_inj {events : List Json} (h : DistinctIds events) :
    ∀ a ∈ events, ∀ b ∈ events, orderKey a = orderKey b → a = b := by
  have hnodup : (events.map fun event => textOf event "event_id").Nodup :=
    List.pairwise_map.mpr h.distinct
  intro a ha b hb hab
  apply List.inj_on_of_nodup_map hnodup ha hb
  exact congrArg (fun key => (ofLex key).2) hab

/-- The canonical order depends on the collection of events alone. -/
theorem ordered_events_eq_of_perm {events events' : List Json} (hperm : events.Perm events')
    (hids : DistinctIds events) : ordered_events events = ordered_events events' := by
  by_cases hall : ∀ event ∈ events, ∃ value, event.get? "recorded_at" = some value
  · have hkeyed : ∀ event ∈ events, Keyed event :=
      fun event hmem => ⟨hall event hmem, hids.present event hmem⟩
    have hkeyed' : ∀ event ∈ events', Keyed event :=
      fun event hmem => hkeyed event (hperm.mem_iff.mpr hmem)
    rw [ordered_events_keyed hkeyed, ordered_events_keyed hkeyed',
      sortedBy_eq_of_perm hperm hids.orderKey_inj]
  · have hmissing : ∃ event ∈ events, event.get? "recorded_at" = none := by
      by_contra hnone
      apply hall
      intro event hmem
      rw [← Option.ne_none_iff_exists']
      exact fun hevent => hnone ⟨event, hmem, hevent⟩
    have hmissing' : ∃ event ∈ events', event.get? "recorded_at" = none := by
      obtain ⟨event, hmem, hevent⟩ := hmissing
      exact ⟨event, hperm.mem_iff.mp hmem, hevent⟩
    have hids' : ∀ event ∈ events', ∃ id, event.get? "event_id" = some id :=
      fun event hmem => hids.present event (hperm.mem_iff.mpr hmem)
    rw [ordered_events, ordered_events, keyedEvents_error hids.present hmissing,
      keyedEvents_error hids' hmissing']

/-- Replaying the events in canonical order fails at this event with this error. -/
def ReplayFailsAt (events : List Json) (event : Json) (e : Error) : Prop :=
  ∃ before later state, ordered_events events = .ok (before ++ event :: later) ∧
    KnowledgeState.replay before = .ok state ∧ (state.apply event).1 = .error e

/-- Gathering a snapshot of the events in canonical order fails at this event with this error. -/
def TallyFailsAt (events : List Json) (event : Json) (e : Error) : Prop :=
  ∃ before later tally, ordered_events events = .ok (before ++ event :: later) ∧
    before.foldlM Tally.record .empty = .ok tally ∧ tally.record event = .error e

/-- The canonical order, its replay and its snapshot are the same for every enumeration of the
events, and so are the error and the event at which they fail. -/
theorem rebuild_order_independent (sha256 : Sha256) {events events' : List Json}
    (hperm : events.Perm events') (hids : DistinctIds events) :
    ordered_events events = ordered_events events' ∧
      (ordered_events events >>= KnowledgeState.replay) =
        (ordered_events events' >>= KnowledgeState.replay) ∧
      SemanticSnapshot.from_events events = SemanticSnapshot.from_events events' ∧
      (SemanticSnapshot.from_events events).map (·.digest sha256) =
        (SemanticSnapshot.from_events events').map (·.digest sha256) ∧
      ∀ event e, (ReplayFailsAt events event e ↔ ReplayFailsAt events' event e) ∧
        (TallyFailsAt events event e ↔ TallyFailsAt events' event e) := by
  have horder := ordered_events_eq_of_perm hperm hids
  simp only [SemanticSnapshot.from_events, ReplayFailsAt, TallyFailsAt, horder, and_self,
    implies_true]

/-- A claim proposal with the members that a rebuild reads. -/
def proposedAt (event_id recorded_at claim_id : String) : Json :=
  .obj [("event_id", .str event_id), ("event_type", .str "claim.proposed"),
    ("pack_id", .str "pack_0123456789abcdef"), ("payload", .obj []),
    ("recorded_at", .str recorded_at), ("subject_refs", .arr [.str claim_id])]

theorem rebuild_order_independent_of_two :
    let events := [proposedAt "evt_0000000000000002" "2026-01-01T00:00:00Z" "claim_02",
      proposedAt "evt_0000000000000001" "2026-01-01T00:00:00Z" "claim_01"]
    ordered_events events = ordered_events events.reverse ∧
      (SemanticSnapshot.from_events events).map (·.digest .hashlib) =
        (SemanticSnapshot.from_events events.reverse).map (·.digest .hashlib) := by
  intro events
  have hids : DistinctIds events := by
    refine ⟨?_, by decide⟩
    intro event hevent
    rcases List.mem_pair.mp hevent with rfl | rfl
    · exact ⟨_, rfl⟩
    · exact ⟨_, rfl⟩
  have h := rebuild_order_independent .hashlib (List.reverse_perm events).symm hids
  exact ⟨h.1, h.2.2.2.1⟩

end FossilCore
