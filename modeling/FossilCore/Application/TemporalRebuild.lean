import FossilCore.Projection.Migration

/-!
# Rebuilding as of a cutoff

The `as_of_recorded_at` filter of `application/rebuild/pack_corpus.py`: the events recorded at
or before a cutoff, compared as texts, in canonical order.  A later cutoff selects more events
behind the same ones, so that the state it is replayed to extends the earlier one.
-/

namespace FossilCore

open Base

/-- Does the cutoff, if there is one, let the event through? -/
def withinCutoff (as_of_recorded_at : Option String) (event : Json) : Except Error Bool :=
  match as_of_recorded_at with
  | none => .ok true
  | some cutoff => do
      let recorded_at ← liftPy (event.getItem "recorded_at")
      return !decide (cutoff < recorded_at.pyStr)

def selectAsOf (as_of_recorded_at : Option String) : List Json → Except Error (List Json)
  | [] => .ok []
  | event :: rest => do
      let keep ← withinCutoff as_of_recorded_at event
      let kept ← selectAsOf as_of_recorded_at rest
      return if keep then event :: kept else kept

/-- The selected events, sorted as `_events_for_pack` sorts them. -/
def eventsAsOf (as_of_recorded_at : Option String) (events : List Json) :
    Except Error (List Json) :=
  selectAsOf as_of_recorded_at events >>= ordered_events

/-- What the filter keeps of events that have a `recorded_at`. -/
def keptBy : Option String → Json → Bool
  | none, _ => true
  | some cutoff, event => decide (textOf event "recorded_at" ≤ cutoff)

theorem withinCutoff_keyed (as_of_recorded_at : Option String) {event : Json} (h : Keyed event) :
    withinCutoff as_of_recorded_at event = .ok (keptBy as_of_recorded_at event) := by
  obtain ⟨value, hvalue⟩ := h.recorded_at
  cases as_of_recorded_at with
  | none => rfl
  | some cutoff =>
      have hkept : keptBy (some cutoff) event = !decide (cutoff < value.pyStr) := by
        rw [keptBy, textOf, hvalue, Option.getD_some, ← decide_not]
        exact decide_eq_decide.mpr not_lt.symm
      rw [hkept, withinCutoff, Json.getItem_of_get? hvalue]
      rfl

theorem selectAsOf_keyed (as_of_recorded_at : Option String) {events : List Json}
    (h : ∀ event ∈ events, Keyed event) :
    selectAsOf as_of_recorded_at events = .ok (events.filter (keptBy as_of_recorded_at)) := by
  induction events with
  | nil => rfl
  | cons event events ih =>
      rw [selectAsOf, withinCutoff_keyed _ (h event List.mem_cons_self),
        ih fun other hother => h other (List.mem_cons_of_mem event hother), List.filter_cons]
      rfl

/-- As of a cutoff, the canonical order keeps the events up to it. -/
theorem eventsAsOf_of_ordered (as_of_recorded_at : Option String) {events ordered : List Json}
    (h : ordered_events events = .ok ordered) :
    eventsAsOf as_of_recorded_at events = .ok (ordered.filter (keptBy as_of_recorded_at)) := by
  obtain ⟨hkeyed, rfl⟩ := ordered_events_ok_iff.mp h
  have hkept : ∀ event ∈ events.filter (keptBy as_of_recorded_at), Keyed event :=
    fun event hmem => hkeyed event (List.mem_of_mem_filter hmem)
  rw [sortedBy_filter, eventsAsOf, selectAsOf_keyed _ hkeyed]
  exact ordered_events_keyed hkept

theorem recorded_at_le {a b : Json} (h : orderKey a ≤ orderKey b) :
    textOf a "recorded_at" ≤ textOf b "recorded_at" := by
  rcases Prod.Lex.le_iff.mp h with hlt | ⟨heq, -⟩
  · exact le_of_lt hlt
  · exact le_of_eq heq

/-- The cutoff lets through no more than the other one. -/
def CutoffLE : Option String → Option String → Prop
  | _, none => True
  | none, some _ => False
  | some c₁, some c₂ => c₁ ≤ c₂

theorem keptBy_of_le {c₁ c₂ : Option String} (h : CutoffLE c₁ c₂) (event : Json) :
    (keptBy c₁ event && keptBy c₂ event) = keptBy c₁ event := by
  match c₁, c₂, h with
  | _, none, _ => exact Bool.and_true _
  | some c₁, some c₂, h =>
      have hle : textOf event "recorded_at" ≤ c₁ → textOf event "recorded_at" ≤ c₂ :=
        fun hc => le_trans hc h
      simpa [keptBy] using hle

theorem prefix_filter_keptBy {events : List Json} (cutoff : Option String)
    (h : events.Pairwise fun a b => textOf a "recorded_at" ≤ textOf b "recorded_at") :
    events.filter (keptBy cutoff) <+: events := by
  cases cutoff with
  | none => exact (List.filter_eq_self.mpr fun _ _ => rfl) ▸ List.prefix_rfl
  | some cutoff => exact filter_le_prefix h cutoff

/-- A prefix of a log that replays does so too, and what follows extends its state. -/
theorem KnowledgeState.replay_prefix {events later : List Json} {state : KnowledgeState}
    (hpre : events <+: later) (h : replay later = .ok state) :
    ∃ state', replay events = .ok state' ∧ Extends state' state := by
  obtain ⟨rest, rfl⟩ := hpre
  rw [replay, replayFrom_append] at h
  obtain ⟨state', hstate', hrest⟩ := bind_eq_ok.mp h
  exact ⟨state', hstate', extends_replayFrom (coherent_replay hstate') hrest⟩

/-- For a log that replays, an earlier cutoff selects a prefix of what a later one selects, both
replay, and the later state extends the earlier one. -/
theorem temporal_reconstruction_monotone {events ordered : List Json} {state : KnowledgeState}
    {c₁ c₂ : Option String} (hordered : ordered_events events = .ok ordered)
    (hreplay : KnowledgeState.replay ordered = .ok state) (hle : CutoffLE c₁ c₂) :
    ∃ events₁ events₂ state₁ state₂,
      eventsAsOf c₁ events = .ok events₁ ∧ eventsAsOf c₂ events = .ok events₂ ∧
      events₁ <+: events₂ ∧
      KnowledgeState.replay events₁ = .ok state₁ ∧ KnowledgeState.replay events₂ = .ok state₂ ∧
      KnowledgeState.Extends state₁ state₂ := by
  have hsorted : ordered.Pairwise fun a b => textOf a "recorded_at" ≤ textOf b "recorded_at" := by
    obtain ⟨-, rfl⟩ := ordered_events_ok_iff.mp hordered
    exact (pairwise_sortedBy orderKey events).imp recorded_at_le
  have hnested : ordered.filter (keptBy c₁) <+: ordered.filter (keptBy c₂) := by
    have hfilter := prefix_filter_keptBy c₁ (hsorted.filter (keptBy c₂))
    rw [List.filter_filter] at hfilter
    simpa only [keptBy_of_le hle] using hfilter
  obtain ⟨state₂, hstate₂, -⟩ :=
    KnowledgeState.replay_prefix (prefix_filter_keptBy c₂ hsorted) hreplay
  obtain ⟨state₁, hstate₁, hextends⟩ := KnowledgeState.replay_prefix hnested hstate₂
  exact ⟨_, _, state₁, state₂, eventsAsOf_of_ordered c₁ hordered, eventsAsOf_of_ordered c₂ hordered,
    hnested, hstate₁, hstate₂, hextends⟩

theorem temporal_reconstruction_monotone_of_two :
    let events := [proposedAt "evt_0000000000000001" "2026-01-01T00:00:00Z" "claim_01",
      proposedAt "evt_0000000000000002" "2026-02-01T00:00:00Z" "claim_02"]
    ∃ events₁ events₂ state₁ state₂,
      eventsAsOf (some "2026-01-15") events = .ok events₁ ∧ eventsAsOf none events = .ok events₂ ∧
      events₁ <+: events₂ ∧
      KnowledgeState.replay events₁ = .ok state₁ ∧ KnowledgeState.replay events₂ = .ok state₂ ∧
      KnowledgeState.Extends state₁ state₂ := by
  intro events
  have hkeyed : ∀ event ∈ events, Keyed event := by
    intro event hevent
    rcases List.mem_pair.mp hevent with rfl | rfl
    · exact ⟨⟨_, rfl⟩, ⟨_, rfl⟩⟩
    · exact ⟨⟨_, rfl⟩, ⟨_, rfl⟩⟩
  have hordered : ordered_events events = .ok events := by
    rw [ordered_events_keyed hkeyed, sortedBy_of_pairwise]
    decide
  exact temporal_reconstruction_monotone hordered rfl trivial

end FossilCore
