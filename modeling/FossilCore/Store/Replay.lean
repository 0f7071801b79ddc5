import FossilCore.Domain.LifecycleRefinement
import FossilCore.Projection.Migration
import FossilCore.Store.Contract

/-!
# Replaying an event store

The events of a store in canonical order denote a log of transitions.  The store replays when
the log is accepted, and after a redaction when what is left of it is independent of the event
that was removed.
-/

namespace FossilCore

open Base

namespace Ledger

variable {config : StoreConfig} {l : Ledger}

theorem mem_listing {m : KeyMap String Json} {e : Json} :
    e ∈ listing m ↔ ∃ text : String, m[text]? = some e := by
  rw [listing, List.mem_filterMap]
  constructor
  · rintro ⟨text, -, h⟩
    exact ⟨text, h⟩
  · rintro ⟨text, h⟩
    exact ⟨text, mem_sortedBy.mpr (KeyMap.mem_keys_iff.mpr ⟨e, h⟩), h⟩

theorem storedEvent_of_mem_listing (h : l.Valid config) {e : Json} (he : e ∈ listing l.events) :
    ∃ id : EventId, StoredEvent config id e ∧ l.events[id.text]? = some e := by
  obtain ⟨text, htext⟩ := mem_listing.mp he
  obtain ⟨id, rfl, hstored⟩ := h.events text e htext
  exact ⟨id, hstored, htext⟩

theorem textOf_event_id (h : l.Valid config) {text : String} {e : Json}
    (he : l.events[text]? = some e) : textOf e "event_id" = text := by
  obtain ⟨id, rfl, hstored⟩ := h.events text e he
  rw [textOf, hstored.event_id]
  rfl

/-- The listing shows the ids in the order of their files. -/
theorem map_textOf_listing (h : l.Valid config) :
    (listing l.events).map (fun e => textOf e "event_id") =
      sortedBy (listingKey "evt_") l.events.keys := by
  have hall : ∀ text ∈ sortedBy (listingKey "evt_") l.events.keys,
      ∃ e, l.events[text]? = some e :=
    fun text htext => KeyMap.mem_keys_iff.mp (mem_sortedBy.mp htext)
  rw [listing]
  generalize sortedBy (listingKey "evt_") l.events.keys = texts at hall
  induction texts with
  | nil => rfl
  | cons text texts ih =>
      obtain ⟨e, he⟩ := hall text List.mem_cons_self
      rw [List.filterMap_cons_some he, List.map_cons, textOf_event_id h he,
        ih fun other hother => hall other (List.mem_cons_of_mem text hother)]

theorem distinctIds_listing (h : l.Valid config) : DistinctIds (listing l.events) := by
  refine ⟨?_, ?_⟩
  · intro e he
    obtain ⟨id, hstored, -⟩ := storedEvent_of_mem_listing h he
    exact ⟨_, hstored.event_id⟩
  · have hnodup : (sortedBy (listingKey "evt_") l.events.keys).Nodup :=
      (sortedBy_perm _ _).nodup_iff.mpr Std.ExtTreeMap.nodup_keys
    rw [← map_textOf_listing h] at hnodup
    exact List.pairwise_map.mp hnodup

theorem listingKey_inj {a b : String} (h : listingKey "evt_" a = listingKey "evt_" b) : a = b := by
  rw [listingKey, listingKey, List.cons.injEq, List.cons.injEq] at h
  exact StableId.fileName_inj h.2.1

theorem pairwise_listing (h : l.Valid config) :
    (listing l.events).Pairwise fun a b =>
      listingKey "evt_" (textOf a "event_id") ≤ listingKey "evt_" (textOf b "event_id") := by
  have hsorted := pairwise_sortedBy (listingKey "evt_") l.events.keys
  rw [← map_textOf_listing h] at hsorted
  exact (List.pairwise_map (R := fun a b => listingKey "evt_" a ≤ listingKey "evt_" b)).mp hsorted

theorem nodup_listing (h : l.Valid config) : (listing l.events).Nodup :=
  (distinctIds_listing h).2.imp fun hid heq => hid (congrArg (fun e => textOf e "event_id") heq)

/-- Stores that have the same events of a kind list them in the same order. -/
theorem filter_listing_eq {config' : StoreConfig} {l' : Ledger} (h : l.Valid config)
    (h' : l'.Valid config') {kind : Json → Bool}
    (hagree : ∀ e, kind e = true → (e ∈ listing l.events ↔ e ∈ listing l'.events)) :
    (listing l.events).filter kind = (listing l'.events).filter kind := by
  have hperm : ((listing l.events).filter kind).Perm ((listing l'.events).filter kind) := by
    apply (List.perm_ext_iff_of_nodup ((nodup_listing h).filter _)
      ((nodup_listing h').filter _)).mpr
    intro e
    rw [List.mem_filter, List.mem_filter]
    constructor
    · rintro ⟨he, hkind⟩
      exact ⟨(hagree e hkind).mp he, hkind⟩
    · rintro ⟨he, hkind⟩
      exact ⟨(hagree e hkind).mpr he, hkind⟩
  refine hperm.eq_of_pairwise ?_ ((pairwise_listing h).filter _) ((pairwise_listing h').filter _)
  intro a b ha hb hab hba
  obtain ⟨text, hatext⟩ := mem_listing.mp (List.mem_filter.mp ha).1
  obtain ⟨text', hbtext⟩ := mem_listing.mp (List.mem_filter.mp (hperm.mem_iff.mpr hb)).1
  have htext := listingKey_inj (le_antisymm hab hba)
  rw [textOf_event_id h hatext, textOf_event_id h hbtext] at htext
  rw [htext, hbtext] at hatext
  exact (Option.some.inj hatext).symm

theorem keys_erase_perm (m : KeyMap String Json) (text : String) :
    (m.erase text).keys.Perm (m.keys.filter fun k => decide (k ≠ text)) := by
  apply (List.perm_ext_iff_of_nodup Std.ExtTreeMap.nodup_keys
    (Std.ExtTreeMap.nodup_keys.filter _)).mpr
  intro k
  rw [List.mem_filter, KeyMap.mem_keys_iff, KeyMap.mem_keys_iff, KeyMap.get?_erase]
  by_cases hk : text = k
  · subst hk
    simp
  · simp [hk, Ne.symm hk]

/-- Erasing an event takes it out of the listing and leaves the others in place. -/
theorem listing_erase (h : l.Valid config) (text : String) :
    listing (l.events.erase text) =
      (listing l.events).filter fun e => decide (textOf e "event_id" ≠ text) := by
  have hsorted : sortedBy (listingKey "evt_") (l.events.erase text).keys =
      (sortedBy (listingKey "evt_") l.events.keys).filter fun k => decide (k ≠ text) := by
    rw [sortedBy_filter]
    exact sortedBy_eq_of_perm (keys_erase_perm l.events text)
      fun _ _ _ _ hkey => listingKey_inj hkey
  have hall : ∀ k ∈ sortedBy (listingKey "evt_") l.events.keys, ∃ e, l.events[k]? = some e :=
    fun k hk => KeyMap.mem_keys_iff.mp (mem_sortedBy.mp hk)
  rw [listing, listing, hsorted]
  generalize sortedBy (listingKey "evt_") l.events.keys = texts at hall
  induction texts with
  | nil => rfl
  | cons k texts ih =>
      obtain ⟨e, he⟩ := hall k List.mem_cons_self
      have hid := textOf_event_id h he
      have hrest := ih fun other hother => hall other (List.mem_cons_of_mem k hother)
      rw [List.filterMap_cons_some he]
      by_cases hk : k = text
      · rw [List.filter_cons_of_neg (by simpa using hk),
          List.filter_cons_of_neg (by simpa [hid] using hk), hrest]
      · have herase : (l.events.erase text)[k]? = some e := by
          rw [KeyMap.get?_erase_ne _ (Ne.symm hk), he]
        rw [List.filter_cons_of_pos (by simpa using hk), List.filterMap_cons_some herase,
          List.filter_cons_of_pos (by simpa [hid] using hk), hrest]

theorem keyed_of_listing (h : l.Valid config) : ∀ e ∈ listing l.events, Keyed e := by
  intro e he
  obtain ⟨id, hstored, -⟩ := storedEvent_of_mem_listing h he
  exact ⟨⟨_, get?_recorded_at hstored.accepted.envelope⟩, ⟨_, hstored.event_id⟩⟩

theorem accepted_of_listing (h : l.Valid config) :
    ∀ e ∈ listing l.events, Accepted config.formats config.resolvers e := by
  intro e he
  obtain ⟨id, hstored, -⟩ := storedEvent_of_mem_listing h he
  exact hstored.accepted

/-- The log of the stored events, in canonical order. -/
def log (l : Ledger) : List Json := sortedBy orderKey (listing l.events)

theorem ordered_events_listing (h : l.Valid config) :
    ordered_events (listing l.events) = .ok l.log :=
  ordered_events_keyed (keyed_of_listing h)

theorem accepted_of_log (h : l.Valid config) :
    ∀ e ∈ l.log, Accepted config.formats config.resolvers e :=
  fun e he => accepted_of_listing h e (mem_sortedBy.mp he)

theorem listing_insert_perm {m : KeyMap String Json} {text : String} {e : Json}
    (hfree : m[text]? = none) : (listing (m.insert text e)).Perm (e :: listing m) := by
  have hleft : (listing (m.insert text e)).Perm (KeyMap.contents (m.insert text e)) :=
    (sortedBy_perm (listingKey "evt_") _).filterMap _
  have hright : (listing m).Perm m.contents := (sortedBy_perm (listingKey "evt_") _).filterMap _
  exact hleft.trans ((KeyMap.contents_insert_perm e hfree).trans (hright.symm.cons e))

theorem listing_empty : listing (∅ : KeyMap String Json) = [] := by
  rw [List.eq_nil_iff_forall_not_mem]
  intro e he
  obtain ⟨text, htext⟩ := mem_listing.mp he
  simp at htext

theorem listing_insert_empty_perm (text : String) (e : Json) :
    (listing ((∅ : KeyMap String Json).insert text e)).Perm [e] := by
  have hperm := listing_insert_perm (e := e) (Std.ExtTreeMap.getElem?_empty (a := text))
  rwa [listing_empty] at hperm

/-- The log lists the stored events, sorted. -/
theorem log_eq_of_perm (h : l.Valid config) {events : List Json}
    (hperm : (listing l.events).Perm events)
    (hsorted : events.Pairwise fun a b => orderKey a ≤ orderKey b) : l.log = events := by
  rw [log, sortedBy_eq_of_perm hperm (distinctIds_listing h).orderKey_inj,
    sortedBy_of_pairwise hsorted]

/-! ## The log -/

/-- The stored events replay exactly when, in canonical order, each meets the lifecycle rules in
the state that those before it lead to. -/
theorem replay_log_iff (h : l.Valid config) :
    (∃ state, KnowledgeState.replay l.log = .ok state) ↔
      ∀ before e later, l.log = before ++ e :: later →
        (Knowledge.of (before.map transitionOf)).Admissible (transitionOf e) := by
  rw [replay_iff (accepted_of_log h), (Knowledge.log String).accepts_iff_forall_split]
  constructor
  · intro hsplit before e later hlog
    apply hsplit (before.map transitionOf) (transitionOf e) (later.map transitionOf)
    rw [hlog, List.map_append, List.map_cons]
  · intro hsplit before t later hlog
    obtain ⟨events, rest, hevents, rfl, hrest⟩ := List.map_eq_append_iff.mp hlog
    obtain ⟨e, later, rfl, rfl, -⟩ := List.map_eq_cons_iff.mp hrest
    exact hsplit events e later hevents

theorem inactive_of_transitionOf {event : Json} {r : String} {relation : Relation String}
    (h : transitionOf event = .proposeRelation r relation) : relation.state ≠ .active := by
  unfold transitionOf at h
  dsimp only at h
  split_ifs at h
  cases h
  simp

/-- A log that replays does so without one of its events exactly when what follows the event is
independent of it. -/
theorem replay_without_iff {formats : FormatChecker} {resolvers : Resolvers}
    {before later : List Json} {e : Json} {state : KnowledgeState}
    (ha : ∀ event ∈ before ++ e :: later, Accepted formats resolvers event)
    (h : KnowledgeState.replay (before ++ e :: later) = .ok state) :
    (∃ state', KnowledgeState.replay (before ++ later) = .ok state') ↔
      (Knowledge.of (before.map transitionOf)).Removable (transitionOf e)
        (later.map transitionOf) := by
  have hrest : ∀ event ∈ before ++ later, Accepted formats resolvers event := by
    intro event hmem
    apply ha event
    rcases List.mem_append.mp hmem with hmem | hmem
    · exact List.mem_append_left _ hmem
    · exact List.mem_append_right _ (List.mem_cons_of_mem e hmem)
  have haccepts := (replay_iff ha).mp ⟨state, h⟩
  rw [List.map_append, List.map_cons, (Knowledge.log String).accepts_append] at haccepts
  rw [replay_iff hrest, List.map_append, (Knowledge.log String).accepts_append,
    and_iff_right haccepts.1]
  exact Knowledge.accepts_erase haccepts.2 fun r relation => inactive_of_transitionOf

theorem events_redact (h : l.Valid config) {id : EventId} {r : RedactionRequest} {temp : String}
    {e : Json} {a : Returned} (he : l.events[id.text]? = some e)
    (hredact : (l.step config (.redact id r temp)).1 = .ok a) :
    (l.step config (.redact id r temp)).2.events = l.events.erase id.text := by
  have htomb : l.tombstones[id.text]? = none := by
    rw [← Option.not_isSome_iff_eq_none]
    intro hsome
    rw [h.erased id.text hsome] at he
    cases he
  obtain ⟨id', hid, hstored⟩ := h.events id.text e he
  obtain rfl := StableId.ext_text hid
  obtain ⟨tombstone, hfor, -⟩ := tombstoneFor_ok (r := r) hstored
  by_cases hr : r.incomplete
  · simp [step, redact, hr, Except.map] at hredact
  · simp [step, redact, hr, htomb, he, hfor]

/-- A completed redaction takes its event out of the log. -/
theorem log_after_redact (h : l.Valid config) {id : EventId} {r : RedactionRequest} {temp : String}
    {e : Json} {a : Returned} (he : l.events[id.text]? = some e)
    (hredact : (l.step config (.redact id r temp)).1 = .ok a) :
    ∃ before later, l.log = before ++ e :: later ∧
      (l.step config (.redact id r temp)).2.log = before ++ later := by
  have hmem : e ∈ l.log := mem_sortedBy.mpr (mem_listing.mpr ⟨id.text, he⟩)
  obtain ⟨before, later, hlog⟩ := List.append_of_mem hmem
  have hdistinct : (l.log.map fun e => textOf e "event_id").Nodup :=
    ((sortedBy_perm _ _).map _).nodup_iff.mpr (List.pairwise_map.mpr (distinctIds_listing h).distinct)
  rw [hlog, List.map_append, List.map_cons, textOf_event_id h he] at hdistinct
  refine ⟨before, later, hlog, ?_⟩
  have hkeep : ∀ xs : List Json, id.text ∉ xs.map (fun e => textOf e "event_id") →
      xs.filter (fun e => decide (textOf e "event_id" ≠ id.text)) = xs := by
    intro xs hxs
    rw [List.filter_eq_self]
    intro x hx
    simp only [ne_eq, decide_eq_true_eq]
    exact fun hid => hxs (List.mem_map.mpr ⟨x, hx, hid⟩)
  have hbefore : id.text ∉ before.map fun e => textOf e "event_id" := fun hmem =>
    (List.nodup_append.mp hdistinct).2.2 _ hmem _ List.mem_cons_self rfl
  have hlater : id.text ∉ later.map fun e => textOf e "event_id" :=
    (List.nodup_cons.mp (List.nodup_append.mp hdistinct).2.1).1
  rw [log, events_redact h he hredact, listing_erase h, ← sortedBy_filter]
  show l.log.filter _ = _
  rw [hlog, List.filter_append, List.filter_cons_of_neg (by simp [textOf_event_id h he]),
    hkeep before hbefore, hkeep later hlater]

end Ledger

end FossilCore
