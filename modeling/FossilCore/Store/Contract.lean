import FossilCore.Base.Layout
import FossilCore.Store.Ledger
import Mathlib.Data.Set.List

/-!
# The contract of an event store

A backend keeps the canonical bytes of events and tombstones under the keys of a layout.  A
store refines the ledger when each call answers as the ledger does and keeps the backend a
layout of the ledger.  Every store that refines the ledger is immutable: what it acknowledged
it keeps, byte for byte, until it is redacted, and what it redacted stays out.
-/

namespace FossilCore

open Base

/-- The same value, or an error of the same class. -/
def SameOutcome {α : Type} : Except Error α → Except Error α → Prop
  | .ok a, .ok b => a = b
  | .error e, .error e' => e.cls = e'.cls
  | _, _ => False

namespace SameOutcome

variable {α : Type} {x y z : Except Error α}

theorem rfl' : SameOutcome x x := by
  cases x <;> rfl

theorem of_eq (h : x = y) : SameOutcome x y := by
  subst h
  exact rfl'

theorem symm (h : SameOutcome x y) : SameOutcome y x := by
  cases x <;> cases y <;> first | exact Eq.symm h | exact h.elim

theorem trans (h : SameOutcome x y) (h' : SameOutcome y z) : SameOutcome x z := by
  cases x <;> cases y <;> cases z <;> first | exact Eq.trans h h' | exact h.elim | exact h'.elim

theorem ok_left {a : α} (h : SameOutcome (.ok a) y) : y = .ok a := by
  cases y with
  | ok b => exact congrArg Except.ok (Eq.symm h)
  | error e => exact h.elim

theorem ok_right {a : α} (h : SameOutcome x (.ok a)) : x = .ok a := h.symm.ok_left

theorem error_right {e : Error} (h : SameOutcome x (.error e)) : ∃ e', x = .error e' := by
  cases x with
  | ok a => exact h.elim
  | error e' => exact ⟨e', rfl⟩

/-- The text of a missing file's error is its path or its key. -/
theorem missing_cls (name name' : String) :
    (Error.ofPython (.fileNotFoundError name)).cls = (Error.fileNotFound name').cls := by
  simp only [Error.fileNotFound, Error.ofPython, PyException.fileNotFoundError]

theorem missing (name name' : String) :
    SameOutcome (.error (.ofPython (.fileNotFoundError name)) : Except Error α)
      (.error (.fileNotFound name')) := missing_cls name name'

theorem map {β : Type} (f : α → β) (h : SameOutcome x y) : SameOutcome (x.map f) (y.map f) := by
  cases x <;> cases y
  · exact h
  · exact h.elim
  · exact h.elim
  · exact congrArg f h

end SameOutcome

inductive EventSlot where
  | event (id : EventId)
  | tombstone (id : EventId)

/-- The bytes a ledger stands for. -/
def Ledger.contents (l : Ledger) : EventSlot → Option ByteArray
  | .event id => l.events[id.text]?.map Json.canonical
  | .tombstone id => l.tombstones[id.text]?.map Json.canonical

/-- The ledger as a model of an event store. -/
abbrev Ledger.model (config : StoreConfig) :
    Model Ledger EventSlot ByteArray EventCall (Except Error Returned) where
  contents := Ledger.contents
  step := Ledger.step config
  Valid := Ledger.Valid config
  valid_step _ call h := h.step call

section Refinement

variable {κ : Type} [Ord κ] [Std.TransOrd κ] [Std.LawfulEqOrd κ]

abbrev StoreStep (κ : Type) [Ord κ] :=
  KeyMap κ ByteArray → EventCall → Except Error Returned × KeyMap κ ByteArray

variable {config : StoreConfig} {L : Layout EventSlot κ} {step : StoreStep κ} {l : Ledger}
  {m : KeyMap κ ByteArray}

theorem holds_insert_event (h : L.Holds l.contents m) (id : EventId) (e : Json) :
    L.Holds ({ l with events := l.events.insert id.text e } : Ledger).contents
      (m.insert (L.key (.event id)) e.canonical) := by
  refine h.insert ?_ ?_
  · simp [Ledger.contents]
  · intro t ht
    cases t with
    | event id' =>
        have hne : id.text ≠ id'.text := fun htext => ht (by rw [StableId.ext_text htext])
        simp only [Ledger.contents, KeyMap.get?_insert_ne _ _ hne]
    | tombstone id' => rfl

theorem holds_erase_event (h : L.Holds l.contents m) (id : EventId) :
    L.Holds ({ l with events := l.events.erase id.text } : Ledger).contents
      (m.erase (L.key (.event id))) := by
  refine h.erase ?_ ?_
  · simp [Ledger.contents]
  · intro t ht
    cases t with
    | event id' =>
        have hne : id.text ≠ id'.text := fun htext => ht (by rw [StableId.ext_text htext])
        simp only [Ledger.contents, KeyMap.get?_erase_ne _ hne]
    | tombstone id' => rfl

theorem holds_insert_tombstone (h : L.Holds l.contents m) (id : EventId) (t : Json) :
    L.Holds ({ l with tombstones := l.tombstones.insert id.text t } : Ledger).contents
      (m.insert (L.key (.tombstone id)) t.canonical) := by
  refine h.insert ?_ ?_
  · simp [Ledger.contents]
  · intro slot hslot
    cases slot with
    | event id' => rfl
    | tombstone id' =>
        have hne : id.text ≠ id'.text := fun htext => hslot (by rw [StableId.ext_text htext])
        simp only [Ledger.contents, KeyMap.get?_insert_ne _ _ hne]

/-- The store holds the event under the id, answers with it, and lets nothing replace it. -/
structure Keeps (config : StoreConfig) (L : Layout EventSlot κ) (step : StoreStep κ)
    (m : KeyMap κ ByteArray) (id : EventId) (e : Json) : Prop where
  bytes : m[L.key (.event id)]? = some e.canonical
  get : (step m (.get id)).1 = .ok (.event e)
  listed : ∃ es, (step m .iter_events).1 = .ok (.listing es) ∧
    es.filter (fun e' => e'.get? "event_id" = some (.str id.text)) = [e]
  again : ∀ event uuid temp, config.validate event.value uuid = .ok e →
    step m (.commit event uuid temp) = (.ok (.event e), m)
  conflict : ∀ event uuid temp e', config.validate event.value uuid = .ok e' →
    e'.get? "event_id" = some (.str id.text) → e' ≠ e →
    ∃ err, step m (.commit event uuid temp) = (.error err, m)

/-- The store has a tombstone for the id, and neither returns nor takes an event under it. -/
structure Buried (config : StoreConfig) (L : Layout EventSlot κ) (step : StoreStep κ)
    (m : KeyMap κ ByteArray) (id : EventId) (t : Json) : Prop where
  bytes : m[L.key (.event id)]? = none
  get : ∃ err, step m (.get id) = (.error err, m)
  get_redaction : (step m (.get_redaction id)).1 = .ok (.redaction (some t))
  listed : ∃ es, (step m .iter_events).1 = .ok (.listing es) ∧
    es.filter (fun e' => e'.get? "event_id" = some (.str id.text)) = []
  commit : ∀ event uuid temp e', config.validate event.value uuid = .ok e' →
    e'.get? "event_id" = some (.str id.text) →
    ∃ err, step m (.commit event uuid temp) = (.error err, m)

/-- Over every run from `s₀`: an acknowledged event is kept until a redaction of its id is
acknowledged, and an acknowledged tombstone is kept for ever. -/
structure ImmutableStore (config : StoreConfig) (L : Layout EventSlot κ) (step : StoreStep κ)
    (s₀ : KeyMap κ ByteArray) : Prop where
  committed : ∀ before event uuid temp rest e, ∀ id : EventId,
    (step (Runs.after step s₀ before) (.commit event uuid temp)).1 = .ok (.event e) →
    e.get? "event_id" = some (.str id.text) →
    (∀ r temp' t, ¬ Runs.Answered step
      (Runs.after step s₀ (before ++ [.commit event uuid temp])) rest
      (.redact id r temp') (.ok (.event t))) →
    Keeps config L step (Runs.after step s₀ (before ++ .commit event uuid temp :: rest)) id e
  redacted : ∀ before id r temp rest t,
    (step (Runs.after step s₀ before) (.redact id r temp)).1 = .ok (.event t) →
    Buried config L step (Runs.after step s₀ (before ++ .redact id r temp :: rest)) id t

namespace Ledger

variable {config : StoreConfig} {l : Ledger}

theorem commit_ok {event : Document} {uuid temp : String} {e : Json}
    (h : (l.step config (.commit event uuid temp)).1 = .ok (.event e)) :
    ∃ id : EventId, StoredEvent config id e ∧
      (l.step config (.commit event uuid temp)).2.events[id.text]? = some e ∧
      (l.step config (.commit event uuid temp)).2.tombstones[id.text]? = none := by
  rcases validate_cases config event uuid with
    ⟨err, herr⟩ | ⟨candidate, id, hvalidate, hstored, hid⟩
  · simp [step, commit, herr, Except.map] at h
  · cases ht : l.tombstones[id.text]? with
    | some t => simp [step, commit, hvalidate, hid, ht, Except.map] at h
    | none =>
        cases he : l.events[id.text]? with
        | none =>
            simp only [step, commit, hvalidate, hid, ht, he, Except.map] at h ⊢
            cases h
            exact ⟨id, hstored, KeyMap.get?_insert_self _ _ _, ht⟩
        | some existing =>
            by_cases heq : existing = candidate
            · subst heq
              simp only [step, commit, hvalidate, hid, ht, he, Option.isSome_none, Bool.false_eq_true,
                if_false, if_true, Except.map] at h ⊢
              cases h
              exact ⟨id, hstored, he, ht⟩
            · simp [step, commit, hvalidate, hid, ht, he, heq, Except.map] at h

theorem redact_ok {id : EventId} {r : RedactionRequest} {temp : String} {t : Json}
    (h : (l.step config (.redact id r temp)).1 = .ok (.event t)) :
    (l.step config (.redact id r temp)).2.tombstones[id.text]? = some t := by
  by_cases hr : r.incomplete
  · simp [step, redact, hr, Except.map] at h
  · cases ht : l.tombstones[id.text]? with
    | some existing =>
        cases hagrees : r.agrees existing with
        | error err => simp [step, redact, hr, ht, hagrees, Except.map] at h
        | ok agrees =>
            cases agrees
            · simp [step, redact, hr, ht, hagrees, Except.map] at h
            · simp [step, redact, hr, ht, hagrees, Except.map] at h
              subst h
              simp [step, redact, hr, ht, hagrees]
    | none =>
        cases he : l.events[id.text]? with
        | none => simp [step, redact, hr, ht, he, Except.map] at h
        | some event =>
            cases hfor : tombstoneFor config.sha256 id.text event r with
            | error err => simp [step, redact, hr, ht, he, hfor, Except.map] at h
            | ok tombstone =>
                simp [step, redact, hr, ht, he, hfor, Except.map] at h
                subst h
                simp [step, redact, hr, ht, he, hfor]

/-- A map whose keys are ids, listed through the ids. -/
theorem exists_ids {m : KeyMap String Json}
    (h : ∀ text v, m[text]? = some v → ∃ id : EventId, id.text = text) :
    ∃ ids : List EventId, ids.Nodup ∧ (∀ id, id ∈ ids ↔ m[id.text]?.isSome) ∧
      listing m =
        (sortedBy (fun id => listingKey "evt_" id.text) ids).filterMap fun id => m[id.text]? := by
  obtain ⟨ids, hids⟩ : m.keys ∈ Set.range (List.map fun id : EventId => id.text) := by
    rw [Set.range_list_map]
    intro text htext
    obtain ⟨v, hv⟩ := KeyMap.mem_keys_iff.mp htext
    exact h text v hv
  refine ⟨ids, ?_, ?_, ?_⟩
  · have hnodup : m.keys.Nodup := Std.ExtTreeMap.nodup_keys
    rw [← hids] at hnodup
    exact hnodup.of_map _
  · intro id
    rw [Option.isSome_iff_exists, ← KeyMap.mem_keys_iff, ← hids]
    exact (List.mem_map_of_injective fun _ _ => StableId.ext_text).symm
  · rw [listing, ← hids, sortedBy_map, List.filterMap_map]
    rfl

/-- The listing shows under an id the event stored there, if one is. -/
theorem filter_listing (h : l.Valid config) (id : EventId) :
    (listing l.events).filter (fun e => e.get? "event_id" = some (.str id.text)) =
      l.events[id.text]?.toList := by
  have hother : ∀ ks : List String, id.text ∉ ks →
      (ks.filterMap fun k => l.events[k]?).filter
        (fun e => e.get? "event_id" = some (.str id.text)) = [] := by
    intro ks hks
    refine List.filter_eq_nil_iff.mpr ?_
    intro e he hid
    obtain ⟨text, htext, hlookup⟩ := List.mem_filterMap.mp he
    obtain ⟨id', rfl, hstored⟩ := h.events text e hlookup
    have heq := (of_decide_eq_true hid).symm.trans hstored.event_id
    have htext' : id.text = id'.text := Json.str.inj (Option.some.inj heq)
    rw [htext'] at hks
    exact hks htext
  have hnodup : (sortedBy (listingKey "evt_") l.events.keys).Nodup :=
    (sortedBy_perm _ _).nodup_iff.mpr Std.ExtTreeMap.nodup_keys
  rw [listing]
  cases he : l.events[id.text]? with
  | none =>
      apply hother
      intro hmem
      obtain ⟨v, hv⟩ := KeyMap.mem_keys_iff.mp (mem_sortedBy.mp hmem)
      rw [he] at hv
      cases hv
  | some e =>
      obtain ⟨id', hid', hstored⟩ := h.events id.text e he
      have hmem : id.text ∈ sortedBy (listingKey "evt_") l.events.keys :=
        mem_sortedBy.mpr (KeyMap.mem_keys_iff.mpr ⟨e, he⟩)
      obtain ⟨xs, ys, hsplit⟩ := List.append_of_mem hmem
      rw [hsplit] at hnodup ⊢
      have hxs : id.text ∉ xs := fun hx =>
        (List.nodup_append.mp hnodup).2.2 _ hx _ List.mem_cons_self rfl
      have hys : id.text ∉ ys := (List.nodup_cons.mp (List.nodup_append.mp hnodup).2.1).1
      have hevent : e.get? "event_id" = some (.str id.text) := by
        rw [hstored.event_id, hid']
      simp [List.filterMap_append, he, hother xs hxs, hother ys hys, hevent]

end Ledger

/-- A store that answers as the ledger does, and keeps the ledger's bytes in its backend. -/
abbrev RefinesLedger (config : StoreConfig) (L : Layout EventSlot κ) (step : StoreStep κ) : Prop :=
  (Ledger.model config).Refines L SameOutcome step

namespace RefinesLedger

omit [Std.LawfulEqOrd κ] in
theorem answer (hrefines : RefinesLedger config L step) (h : (Ledger.model config).StoredAs L l m)
    {call : EventCall} {a : Returned} (hl : (l.step config call).1 = .ok a) :
    (step m call).1 = .ok a := by
  have hsame := (hrefines l m call h).1
  rw [hl] at hsame
  exact hsame.ok_right

omit [Std.LawfulEqOrd κ] in
theorem answered (hrefines : RefinesLedger config L step)
    (h : (Ledger.model config).StoredAs L l m) {call : EventCall} {a : Returned}
    (hm : (step m call).1 = .ok a) : (l.step config call).1 = .ok a := by
  have hsame := (hrefines l m call h).1
  rw [hm] at hsame
  exact hsame.ok_left

theorem fails (hrefines : RefinesLedger config L step) (h : (Ledger.model config).StoredAs L l m)
    {call : EventCall} {err : Error} (hl : l.step config call = (.error err, l)) :
    ∃ err', step m call = (.error err', m) := by
  have hsame : SameOutcome (step m call).1 (l.step config call).1 := (hrefines l m call h).1
  rw [hl] at hsame
  obtain ⟨err', herr⟩ := hsame.error_right
  exact ⟨err', Prod.ext herr (hrefines.unchanged h (congrArg Prod.snd hl))⟩

end RefinesLedger

omit [Std.LawfulEqOrd κ] in
theorem storedAs_empty :
    (Ledger.model config).StoredAs L Ledger.empty (∅ : KeyMap κ ByteArray) := by
  refine ⟨Ledger.valid_empty, Layout.holds_empty.congr ?_⟩
  intro t
  cases t <;> simp [Ledger.contents, Ledger.empty]

theorem RefinesLedger.keeps (hrefines : RefinesLedger config L step) (h : (Ledger.model config).StoredAs L l m)
    {id : EventId} {e : Json} (he : l.events[id.text]? = some e)
    (ht : l.tombstones[id.text]? = none) : Keeps config L step m id e where
  bytes := by
    rw [h.holds.slot]
    exact congrArg (Option.map Json.canonical) he
  get := hrefines.answer h (by simp [Ledger.step, Ledger.get, ht, he, Except.map])
  listed := by
    refine ⟨Ledger.listing l.events, hrefines.answer h rfl, ?_⟩
    rw [Ledger.filter_listing h.valid, he, Option.toList_some]
  again := by
    intro event uuid temp hvalidate
    have hid : eventIdText e = .ok id.text := by
      obtain ⟨id', hid', hstored⟩ := h.valid.events _ _ he
      rw [eventIdText_of_get? hstored.event_id, hid']
    have hl : l.step config (.commit event uuid temp) = (.ok (.event e), l) := by
      simp [Ledger.step, Ledger.commit, hvalidate, hid, ht, he, Except.map]
    exact Prod.ext (hrefines.answer h (by rw [hl])) (hrefines.unchanged h (congrArg Prod.snd hl))
  conflict := by
    intro event uuid temp e' hvalidate hid hne
    have hl : l.step config (.commit event uuid temp) =
        (.error (.differentContent id.text), l) := by
      simp [Ledger.step, Ledger.commit, hvalidate, eventIdText_of_get? hid, ht, he, Except.map,
        Ne.symm hne]
    exact hrefines.fails h hl

theorem RefinesLedger.buried (hrefines : RefinesLedger config L step) (h : (Ledger.model config).StoredAs L l m)
    {id : EventId} {t : Json} (ht : l.tombstones[id.text]? = some t) :
    Buried config L step m id t where
  bytes := by
    have herased := h.valid.erased id.text (by rw [ht]; rfl)
    rw [h.holds.slot]
    exact congrArg (Option.map Json.canonical) herased
  get := by
    have hl : l.step config (.get id) = (.error (.redactedGet id.text), l) := by
      simp [Ledger.step, Ledger.get, ht, Except.map]
    exact hrefines.fails h hl
  get_redaction := hrefines.answer h (by simp [Ledger.step, ht])
  listed := by
    refine ⟨Ledger.listing l.events, hrefines.answer h rfl, ?_⟩
    have herased := h.valid.erased id.text (by rw [ht]; rfl)
    rw [Ledger.filter_listing h.valid, herased, Option.toList_none]
  commit := by
    intro event uuid temp e' hvalidate hid
    have hl : l.step config (.commit event uuid temp) =
        (.error (.redactedCommit id.text), l) := by
      simp [Ledger.step, Ledger.commit, hvalidate, eventIdText_of_get? hid, ht, Except.map]
    exact hrefines.fails h hl

/-- Every store that refines the ledger is immutable. -/
theorem RefinesLedger.immutable (hrefines : RefinesLedger config L step) :
    ImmutableStore config L step (∅ : KeyMap κ ByteArray) where
  committed := by
    intro before event uuid temp rest e id hcommit hid hnone
    have hbefore := hrefines.after storedAs_empty before
    have hl := hrefines.answered hbefore hcommit
    obtain ⟨id', hstored, hevent, hlive⟩ := Ledger.commit_ok hl
    obtain rfl : id = id' := by
      have heq := hid.symm.trans hstored.event_id
      exact StableId.ext_text (Json.str.inj (Option.some.inj heq))
    have hfirst := hrefines.next hbefore (.commit event uuid temp)
    -- The event stays at each call of the rest, since none of them redacts it.
    have hkept : ∃ l, (Ledger.model config).StoredAs L l
        (Runs.after step ∅ (before ++ .commit event uuid temp :: rest)) ∧
        l.events[id.text]? = some e ∧ l.tombstones[id.text]? = none := by
      rw [Runs.after_append, Runs.after_cons]
      simp only [Runs.after_append, Runs.after_cons, Runs.after_nil] at hnone
      refine Runs.invariant_unless (P := fun m => ∃ l, (Ledger.model config).StoredAs L l m ∧
        l.events[id.text]? = some e ∧ l.tombstones[id.text]? = none)
        (B := fun call o => ∃ r temp t, call = .redact id r temp ∧ o = .ok (.event t))
        ⟨_, hfirst, hevent, hlive⟩ ?_ ?_
      · rintro m' call ⟨l', hrep, he, ht⟩
        rcases Ledger.event_step config he ht call with hnext | ⟨r, temp, t, hcall, ho⟩
        · exact Or.inl ⟨_, hrefines.next hrep call, hnext⟩
        · exact Or.inr ⟨r, temp, t, hcall, hrefines.answer hrep ho⟩
      · rintro call o hanswered ⟨r, temp', t, rfl, rfl⟩
        exact hnone r temp' t hanswered
    obtain ⟨l', hrep, he, ht⟩ := hkept
    exact hrefines.keeps hrep he ht
  redacted := by
    intro before id r temp rest t hredact
    have hbefore := hrefines.after storedAs_empty before
    have hl := hrefines.answered hbefore hredact
    have htomb := Ledger.redact_ok hl
    have hfirst := hrefines.next hbefore (.redact id r temp)
    have hkept : ∃ l, (Ledger.model config).StoredAs L l
        (Runs.after step ∅ (before ++ .redact id r temp :: rest)) ∧
        l.tombstones[id.text]? = some t := by
      rw [Runs.after_append, Runs.after_cons]
      refine Runs.invariant (P := fun m => ∃ l, (Ledger.model config).StoredAs L l m ∧
        l.tombstones[id.text]? = some t) ⟨_, hfirst, htomb⟩ ?_
      rintro m' call - ⟨l', hrep, ht⟩
      exact ⟨_, hrefines.next hrep call, Ledger.tombstone_step ht call⟩
    obtain ⟨l', hrep, ht⟩ := hkept
    exact hrefines.buried hrep ht

end Refinement

end FossilCore
