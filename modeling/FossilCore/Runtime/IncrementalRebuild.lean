import FossilCore.Projection.RebuildOrder
import FossilCore.Store.ArtifactLedger
import FossilCore.Store.Replay

/-!
# Incremental maintenance against a fresh rebuild

A store of events, a store of artifacts and one projection that the worker maintains.  After a
cycle without failures the episodes are those of a fresh rebuild exactly when every event that
was applied before the cycle and is still stored is still visible: the worker passes over applied
events without asking the policy again.
-/

namespace FossilCore

open Base

/-! ## The redaction policy -/

/-- `RedactionPolicy` of `source.py`: what it reads of the snapshots and of the redactions of the
artifact store. -/
structure RedactionPolicy where
  snapshots : KeyMap String Json
  redactions : KeyMap String Json

namespace RedactionPolicy

variable (policy : RedactionPolicy)

def is_redacted (artifact_id : String) : Bool := policy.redactions[artifact_id]?.isSome

/-- The loop over `source_snapshot_refs`: a reference to an unknown snapshot is passed over. -/
def snapshotsVisible : List Json → Except Error Bool
  | [] => .ok true
  | snapshot_id :: rest =>
      match policy.snapshots[snapshot_id.pyStr]? with
      | none => snapshotsVisible rest
      | some snapshot => do
          let artifact_id ← liftPy (snapshot.getItem "artifact_id")
          if policy.is_redacted artifact_id.pyStr then return false
          else snapshotsVisible rest

def event_visible (event : Json) : Except Error Bool := do
  let evidence_refs ← liftPy (event.getMethod "evidence_refs")
  let evidence_refs ← iterate (evidence_refs.getD (.arr []))
  if evidence_refs.any fun artifact_id => policy.is_redacted artifact_id.pyStr then return false
  else
    let source_snapshot_refs ← liftPy (event.getMethod "source_snapshot_refs")
    let source_snapshot_refs ← iterate (source_snapshot_refs.getD (.arr []))
    policy.snapshotsVisible source_snapshot_refs

/-- More is redacted, of the same snapshots. -/
structure Extends (later policy : RedactionPolicy) : Prop where
  snapshots : later.snapshots = policy.snapshots
  redactions : ∀ artifact_id, policy.is_redacted artifact_id = true →
    later.is_redacted artifact_id = true

variable {policy} {later : RedactionPolicy}

/-- What a policy says of an event, and what a later one may say of it. -/
def StillHides (earlier later : Except Error Bool) : Prop :=
  (earlier = .ok false → later = .ok false) ∧
    ((∃ visible, earlier = .ok visible) → ∃ visible, later = .ok visible)

theorem StillHides.rfl {x : Except Error Bool} : StillHides x x := ⟨id, id⟩

theorem stillHides_false {x : Except Error Bool} : StillHides x (.ok false) :=
  ⟨fun _ => Eq.refl _, fun _ => ⟨false, Eq.refl _⟩⟩

theorem Extends.snapshotsVisible (h : Extends later policy) (refs : List Json) :
    StillHides (policy.snapshotsVisible refs) (later.snapshotsVisible refs) := by
  induction refs with
  | nil => exact .rfl
  | cons ref refs ih =>
      rw [RedactionPolicy.snapshotsVisible, RedactionPolicy.snapshotsVisible, h.snapshots]
      cases policy.snapshots[ref.pyStr]? with
      | none => exact ih
      | some snapshot =>
          dsimp only
          cases snapshot.getItem "artifact_id" with
          | error exc => exact .rfl
          | ok artifact_id =>
              simp only [liftPy_ok, bind, Except.bind]
              cases hlater : later.is_redacted artifact_id.pyStr with
              | true => exact stillHides_false
              | false =>
                  cases hearlier : policy.is_redacted artifact_id.pyStr with
                  | true =>
                      rw [h.redactions _ hearlier] at hlater
                      cases hlater
                  | false => exact ih

theorem Extends.event_visible (h : Extends later policy) (event : Json) :
    StillHides (policy.event_visible event) (later.event_visible event) := by
  rw [RedactionPolicy.event_visible, RedactionPolicy.event_visible]
  cases event.getMethod "evidence_refs" with
  | error exc => exact .rfl
  | ok refs =>
      simp only [liftPy_ok, bind, Except.bind]
      cases iterate (refs.getD (.arr [])) with
      | error e => exact .rfl
      | ok evidence_refs =>
          dsimp only
          cases hlater : evidence_refs.any fun id => later.is_redacted id.pyStr with
          | true => exact stillHides_false
          | false =>
              have hearlier : (evidence_refs.any fun id => policy.is_redacted id.pyStr) = false := by
                apply List.any_eq_false.mpr
                intro id hid hredacted
                exact List.any_eq_false.mp hlater id hid (h.redactions _ hredacted)
              rw [hearlier]
              cases event.getMethod "source_snapshot_refs" with
              | error exc => exact .rfl
              | ok refs =>
                  simp only [liftPy_ok]
                  cases iterate (refs.getD (.arr [])) with
                  | error e => exact .rfl
                  | ok refs => exact h.snapshotsVisible refs

end RedactionPolicy

/-! ## The graph and the ledger -/

/-- Has the graph an episode of the event? -/
def Graph.Holds (graph : Graph) (event_id : String) : Prop :=
  ∃ episode ∈ graph.episodes, episode.name = episodeName event_id

instance (graph : Graph) (event_id : String) : Decidable (graph.Holds event_id) :=
  inferInstanceAs (Decidable (∃ episode ∈ graph.episodes, episode.name = episodeName event_id))

/-- The graph has the episodes that the ledger says it has, each under a UUID of its own. -/
structure Materialized (client : Client) (w : ProjectionWorld) : Prop where
  live : ∀ event_id, w.graph.Holds event_id ↔
    w.ledger.is_applied event_id = true ∧ w.ledger.is_redacted event_id = false
  tracked : ∀ episode ∈ w.graph.episodes, ∃ event_id record,
    episode.name = episodeName event_id ∧ w.ledger.applied[event_id]? = some record ∧
      (record.episode_uuid = none ∨ record.episode_uuid = some episode.uuid)
  distinct : (w.graph.episodes.map Episode.uuid).Nodup
  drawn : ∀ episode ∈ w.graph.episodes, ∃ n < w.graph.calls, client.uuid n = episode.uuid

section Effects

variable {client : Client} {adapter : GraphitiProjectionAdapter} {event : Json}
  {event_id : String} {w w' : ProjectionWorld} {status : ReceiptStatus}

theorem materialized_fresh : Materialized client .fresh := by
  refine ⟨?_, fun _ h => (List.not_mem_nil h).elim, List.nodup_nil,
    fun _ h => (List.not_mem_nil h).elim⟩
  intro event_id
  constructor
  · rintro ⟨episode, hepisode, -⟩
    exact (List.not_mem_nil hepisode).elim
  · rintro ⟨happlied, -⟩
    cases happlied

theorem Materialized.called (h : Materialized client w) :
    Materialized client ⟨w.ledger, w.graph.called⟩ := by
  refine ⟨h.live, h.tracked, h.distinct, ?_⟩
  intro episode hepisode
  obtain ⟨n, hn, huuid⟩ := h.drawn episode hepisode
  exact ⟨n, Nat.lt_succ_of_lt hn, huuid⟩

theorem Materialized.failed (h : Materialized client w) (record : FailureRecord) :
    Materialized client ⟨w.ledger.record_failure event_id record, w.graph⟩ :=
  ⟨h.live, h.tracked, h.distinct, h.drawn⟩

/-- An event without an episode is recorded as redacted. -/
theorem Materialized.redacted (h : Materialized client w) (record : RedactionRecord)
    (hnone : w.ledger.is_applied event_id = false) :
    Materialized client ⟨w.ledger.record_redaction event_id record, w.graph⟩ := by
  refine ⟨?_, ?_, h.distinct, h.drawn⟩
  · intro other
    rw [ProjectionLedger.is_applied_record_redaction,
      ProjectionLedger.is_redacted_record_redaction, h.live, Bool.or_eq_false_iff,
      decide_eq_false_iff_not]
    constructor
    · rintro ⟨happlied, hlive⟩
      refine ⟨happlied, hlive, ?_⟩
      rintro rfl
      rw [hnone] at happlied
      cases happlied
    · rintro ⟨happlied, hlive, -⟩
      exact ⟨happlied, hlive⟩
  · simp only [ProjectionLedger.applied_record_redaction]
    exact h.tracked

/-- The episode of an event is removed by the UUID on record. -/
theorem Materialized.removed (h : Materialized client w) {applied : AppliedRecord}
    {uuid : String} (record : RedactionRecord)
    (hlive : w.ledger.is_redacted event_id = false)
    (happlied : w.ledger.applied[event_id]? = some applied)
    (huuid : applied.episode_uuid = some uuid) :
    Materialized client
      ⟨w.ledger.record_redaction event_id record, (w.graph.remove uuid).called⟩ := by
  have hown : ∀ episode ∈ w.graph.episodes, episode.name = episodeName event_id →
      episode.uuid = uuid := by
    intro episode hepisode hname
    obtain ⟨other, record', hother, happlied', hnamed⟩ := h.tracked episode hepisode
    rw [← episodeName_inj.mp (hname.symm.trans hother), happlied] at happlied'
    cases happlied'
    rw [huuid] at hnamed
    rcases hnamed with hnone | hsome
    · cases hnone
    · exact (Option.some.inj hsome).symm
  obtain ⟨mine, hmine, hname⟩ : w.graph.Holds event_id := by
    rw [h.live, ProjectionLedger.is_applied, happlied]
    exact ⟨rfl, hlive⟩
  have honly : ∀ episode ∈ w.graph.episodes, episode.uuid = uuid → episode = mine := by
    intro episode hepisode heq
    exact List.inj_on_of_nodup_map h.distinct hepisode hmine (heq.trans (hown mine hmine hname).symm)
  refine ⟨?_, ?_, ?_, ?_⟩
  · intro other
    rw [ProjectionLedger.is_applied_record_redaction,
      ProjectionLedger.is_redacted_record_redaction, Bool.or_eq_false_iff,
      decide_eq_false_iff_not, ← and_assoc, ← h.live]
    constructor
    · rintro ⟨episode, hepisode, hothers⟩
      obtain ⟨hepisode, hne⟩ := List.mem_filter.mp hepisode
      refine ⟨⟨episode, hepisode, hothers⟩, ?_⟩
      rintro rfl
      exact of_decide_eq_true hne (hown episode hepisode hothers)
    · rintro ⟨⟨episode, hepisode, hothers⟩, hne⟩
      refine ⟨episode, List.mem_filter.mpr ⟨hepisode, decide_eq_true ?_⟩, hothers⟩
      intro heq
      apply hne
      rw [honly episode hepisode heq, hname] at hothers
      exact episodeName_inj.mp hothers
  · simp only [ProjectionLedger.applied_record_redaction]
    intro episode hepisode
    exact h.tracked episode (List.mem_filter.mp hepisode).1
  · exact h.distinct.sublist (List.filter_sublist.map _)
  · intro episode hepisode
    exact h.called.drawn episode (List.mem_filter.mp hepisode).1

/-- The episode of an event is added and recorded. -/
theorem Materialized.added (h : Materialized client w) {content : EpisodeContent}
    {record : AppliedRecord} (hlive : w.ledger.is_redacted event_id = false)
    (hnew : w.ledger.is_applied event_id = false) (hname : content.name = episodeName event_id)
    (huuid : record.episode_uuid = none ∨
      record.episode_uuid = some (client.uuid w.graph.calls)) :
    Materialized client ⟨w.ledger.record_applied event_id record,
      (w.graph.add (client.uuid w.graph.calls) content).called⟩ := by
  have hnone : w.ledger.applied[event_id]? = none := by
    rw [← Option.not_isSome_iff_eq_none, ← ProjectionLedger.is_applied, hnew]
    decide
  refine ⟨?_, ?_, ?_, ?_⟩
  · intro other
    rw [ProjectionLedger.is_applied_record_applied, ProjectionLedger.is_redacted_record_applied,
      Bool.or_eq_true, decide_eq_true_eq, or_and_right, ← h.live]
    constructor
    · rintro ⟨episode, hepisode, hothers⟩
      rcases List.mem_append.mp hepisode with hold | hlast
      · exact Or.inl ⟨episode, hold, hothers⟩
      · rw [List.mem_singleton.mp hlast] at hothers
        have heq := episodeName_inj.mp (hname.symm.trans hothers)
        exact Or.inr ⟨heq, heq ▸ hlive⟩
    · rintro (⟨episode, hepisode, hothers⟩ | ⟨heq, -⟩)
      · exact ⟨episode, List.mem_append_left _ hepisode, hothers⟩
      · exact ⟨_, List.mem_append_right _ List.mem_cons_self, heq ▸ hname⟩
  · intro episode hepisode
    rw [ProjectionLedger.record_applied_new hnew]
    rcases List.mem_append.mp hepisode with hold | hlast
    · obtain ⟨other, record', hother, happlied, hnamed⟩ := h.tracked episode hold
      refine ⟨other, record', hother, ?_, hnamed⟩
      have hne : event_id ≠ other := by
        rintro rfl
        rw [hnone] at happlied
        cases happlied
      rw [KeyMap.get?_insert_ne _ _ hne]
      exact happlied
    · rw [List.mem_singleton.mp hlast]
      exact ⟨event_id, record, hname, KeyMap.get?_insert_self _ _ _, huuid⟩
  · show ((w.graph.episodes ++ [_]).map Episode.uuid).Nodup
    rw [List.map_append, List.map_singleton]
    apply List.nodup_append.mpr
    refine ⟨h.distinct, List.nodup_singleton _, ?_⟩
    intro a ha b hb hab
    obtain ⟨episode, hepisode, rfl⟩ := List.mem_map.mp ha
    obtain ⟨n, hn, huuid⟩ := h.drawn episode hepisode
    rw [List.mem_singleton.mp hb, ← huuid] at hab
    exact absurd (client.fresh hab) (Nat.ne_of_lt hn)
  · intro episode hepisode
    rcases List.mem_append.mp hepisode with hold | hlast
    · exact h.called.drawn episode hold
    · rw [List.mem_singleton.mp hlast]
      exact ⟨w.graph.calls, Nat.lt_succ_self _, rfl⟩

theorem Removal.materialized (h : Removal client event_id w status w') (hatomic : client.Atomic)
    (hw : Materialized client w) : Materialized client w' := by
  cases h with
  | already => exact hw
  | unmaterialized record hlive happlied =>
      apply hw.redacted
      rw [ProjectionLedger.is_applied, happlied]
      rfl
  | untracked applied failure => exact hw.failed failure
  | refused applied failure => exact hw.called.failed failure
  | lost applied failure uuid error _ _ houtcome => exact (hatomic _ _ _ houtcome).elim
  | removed applied record uuid hlive happlied huuid =>
      exact hw.removed record hlive happlied huuid

theorem Application.materialized (h : Application client adapter event event_id w status w')
    (hatomic : client.Atomic) (hw : Materialized client w) : Materialized client w' := by
  cases h with
  | redacted => exact hw
  | excluded record _ _ hnew => exact hw.redacted record hnew
  | withdrawn _ _ _ _ hremoval => exact hremoval.materialized hatomic hw
  | already => exact hw
  | undated failure => exact hw.failed failure
  | refused failure => exact hw.called.failed failure
  | lost failure content error _ _ _ _ _ _ houtcome => exact (hatomic _ _ _ houtcome).elim
  | added record content named hlive _ hnew _ hname _ _ huuid =>
      apply hw.added hlive hnew hname
      rw [huuid]
      cases named with
      | true => exact Or.inr rfl
      | false => exact Or.inl rfl

/-! ## Cycles without failures -/

theorem Removal.redacted (h : Removal client event_id w status w') (hstatus : status ≠ .failed) :
    w'.ledger.is_redacted event_id = true := by
  cases h with
  | already hredacted => exact hredacted
  | unmaterialized record =>
      rw [ProjectionLedger.is_redacted_record_redaction, decide_eq_true rfl, Bool.or_true]
  | removed applied record =>
      rw [ProjectionLedger.is_redacted_record_redaction, decide_eq_true rfl, Bool.or_true]
  | _ => exact (hstatus rfl).elim

theorem Removal.keeps_redacted (h : Removal client event_id w status w') {other : String}
    (hother : w.ledger.is_redacted other = true) : w'.ledger.is_redacted other = true := by
  cases h with
  | unmaterialized record =>
      rw [ProjectionLedger.is_redacted_record_redaction, hother, Bool.true_or]
  | removed applied record =>
      rw [ProjectionLedger.is_redacted_record_redaction, hother, Bool.true_or]
  | _ => exact hother

/-- A purge without failures leaves every event with a tombstone redacted. -/
theorem clean_purge {tombstones : List Json} {receipts : List ProjectionReceipt}
    (hrun : (purge_event_redactions_async tombstones).run (projectionStep client) w =
      (.ok receipts, w'))
    (hclean : ∀ receipt ∈ receipts, receipt.isFailed = false) :
    (∀ tombstone ∈ tombstones, w'.ledger.is_redacted (textOf tombstone "event_id") = true) ∧
      ∀ other, w.ledger.is_redacted other = true → w'.ledger.is_redacted other = true := by
  induction tombstones generalizing w receipts with
  | nil =>
      cases hrun
      exact ⟨fun _ h => (List.not_mem_nil h).elim, fun _ h => h⟩
  | cons tombstone tombstones ih =>
      cases hid : tombstone.getItem "event_id" with
      | error exc =>
          rw [purge_event_redactions_async, hid] at hrun
          cases hrun
      | ok id =>
          have htext : textOf tombstone "event_id" = id.pyStr := by
            rw [textOf, Json.getItem_ok_iff.mp hid, Option.getD_some]
          rw [purge_event_redactions_async, hid, liftPy_ok, Program.bind_done_ok,
            run_is_redacted] at hrun
          cases hredacted : w.ledger.is_redacted id.pyStr with
          | true =>
              rw [hredacted] at hrun
              obtain ⟨hrest, hkeep⟩ := ih hrun hclean
              refine ⟨?_, hkeep⟩
              intro other hother
              rcases List.mem_cons.mp hother with rfl | hother
              · rw [htext]
                exact hkeep _ hredacted
              · exact hrest other hother
          | false =>
              rw [hredacted, if_neg (by decide)] at hrun
              obtain ⟨receipt, w₁, hone, -, hremoval⟩ := run_remove_event client id.pyStr
                "durable event redaction tombstone" w
              rw [Program.run_bind_ok _ hone] at hrun
              cases hmore : (purge_event_redactions_async tombstones).run (projectionStep client)
                  w₁ with
              | mk result w₂ =>
                  cases result with
                  | error e =>
                      rw [Program.run_bind_error _ hmore] at hrun
                      cases hrun
                  | ok more =>
                      rw [Program.run_bind_ok _ hmore] at hrun
                      cases hrun
                      obtain ⟨hrest, hkeep⟩ := ih hmore
                        fun r hr => hclean r (List.mem_cons_of_mem receipt hr)
                      have hstatus : receipt.status ≠ .failed :=
                        of_decide_eq_false (hclean receipt List.mem_cons_self)
                      refine ⟨?_, fun other hother => hkeep _ (hremoval.keeps_redacted hother)⟩
                      intro other hother
                      rcases List.mem_cons.mp hother with rfl | hother
                      · rw [htext]
                        exact hkeep _ (hremoval.redacted hstatus)
                      · exact hrest other hother

/-- A scan without failures leaves every event applied or redacted. -/
theorem clean_scan {events : List Json} {receipts : List ProjectionReceipt}
    (hrun : (adapter.scan events).run (projectionStep client) w = (.ok receipts, w'))
    (hclean : ∀ receipt ∈ receipts, receipt.isFailed = false) :
    (∀ event ∈ events, w'.ledger.marked (textOf event "event_id") = true) ∧
      ∀ other, w.ledger.marked other = true → w'.ledger.marked other = true := by
  induction events generalizing w receipts with
  | nil =>
      cases hrun
      exact ⟨fun _ h => (List.not_mem_nil h).elim, fun _ h => h⟩
  | cons event events ih =>
      -- the event was marked before, or is marked by this step
      obtain ⟨receipt, w₁, hone, hevent, hkeep₁⟩ : ∃ receipt w₁,
          (adapter.scanEvent event).run (projectionStep client) w = (.ok receipt, w₁) ∧
          (receipt.isFailed = false → w₁.ledger.marked (textOf event "event_id") = true) ∧
          ∀ other, w.ledger.marked other = true → w₁.ledger.marked other = true := by
        rcases adapter.run_scanEvent client event w with ⟨e, hone⟩ |
          ⟨receipt, hone, -, hmarked⟩ | ⟨receipt, w₁, -, -, hone, happlication⟩
        · rw [GraphitiProjectionAdapter.scan, Program.run_bind_error _ hone] at hrun
          cases hrun
        · exact ⟨receipt, w, hone, fun _ => hmarked, fun _ h => h⟩
        · refine ⟨receipt, w₁, hone, ?_, ?_⟩
          · intro hgo
            rw [happlication.marked, decide_eq_true ⟨rfl, of_decide_eq_false hgo⟩, Bool.or_true]
          · intro other hother
            rw [happlication.marked, hother, Bool.true_or]
      rw [GraphitiProjectionAdapter.scan, Program.run_bind_ok _ hone] at hrun
      cases hfailed : receipt.isFailed with
      | true =>
          rw [hfailed] at hrun
          cases hrun
          rw [hclean receipt List.mem_cons_self] at hfailed
          cases hfailed
      | false =>
          rw [hfailed, if_neg (by decide)] at hrun
          cases hmore : (adapter.scan events).run (projectionStep client) w₁ with
          | mk result w₂ =>
              cases result with
              | error e =>
                  rw [Program.run_bind_error _ hmore] at hrun
                  cases hrun
              | ok more =>
                  rw [Program.run_bind_ok _ hmore] at hrun
                  cases hrun
                  obtain ⟨hrest, hkeep⟩ := ih hmore
                    fun r hr => hclean r (List.mem_cons_of_mem receipt hr)
                  refine ⟨?_, fun other hother => hkeep _ (hkeep₁ other hother)⟩
                  intro other hother
                  rcases List.mem_cons.mp hother with rfl | hother
                  · exact hkeep _ (hevent hfailed)
                  · exact hrest other hother

/-- The two parts of a cycle without failures. -/
theorem clean_cycle {source : EventSource} {ordered : List Json} {cycle : ProjectorCycle}
    (hordered : ordered_events source.events = .ok ordered)
    (hcycle : cycleStep client source w adapter = (.ok cycle, w')) (hclean : cycle.failed = 0) :
    ∃ purged receipts w₁,
      (purge_event_redactions_async source.tombstones).run (projectionStep client) w =
        (.ok purged, w₁) ∧ (∀ receipt ∈ purged, receipt.isFailed = false) ∧
      (adapter.scan ordered).run (projectionStep client) w₁ = (.ok receipts, w') ∧
        ∀ receipt ∈ receipts, receipt.isFailed = false := by
  have hnone : ∀ receipt ∈ cycle.receipts, receipt.isFailed = false := by
    intro receipt hreceipt
    exact Bool.eq_false_iff.mpr (List.countP_eq_zero.mp hclean receipt hreceipt)
  rw [cycleStep, GraphitiProjectionAdapter.run_once_async] at hcycle
  cases hpurge : (purge_event_redactions_async source.tombstones).run (projectionStep client)
      w with
  | mk result w₁ =>
      cases result with
      | error e =>
          rw [Program.run_bind_error _ hpurge] at hcycle
          cases hcycle
      | ok purged =>
          rw [Program.run_bind_ok _ hpurge] at hcycle
          cases hany : purged.any (·.isFailed) with
          | true =>
              rw [hany] at hcycle
              cases hcycle
              obtain ⟨receipt, hreceipt, hfailed⟩ := List.any_eq_true.mp hany
              rw [hnone receipt hreceipt] at hfailed
              cases hfailed
          | false =>
              rw [hany, if_neg (by decide), hordered, Program.bind_done_ok] at hcycle
              cases hscan : (adapter.scan ordered).run (projectionStep client) w₁ with
              | mk result w₂ =>
                  cases result with
                  | error e =>
                      rw [Program.run_bind_error _ hscan] at hcycle
                      cases hcycle
                  | ok receipts =>
                      rw [Program.run_bind_ok _ hscan] at hcycle
                      cases hcycle
                      exact ⟨purged, receipts, w₁, rfl,
                        fun r hr => hnone r (List.mem_append_left _ hr), hscan,
                        fun r hr => hnone r (List.mem_append_right _ hr)⟩

/-! ## The store that is projected -/

/-- What the ledger has applied is stored, was visible and has a time, or has a tombstone; what
it has redacted is stored and hidden, or has a tombstone. -/
structure KeepsUp (l : Ledger) (adapter : GraphitiProjectionAdapter) (w : ProjectionWorld) :
    Prop where
  applied : ∀ event_id, w.ledger.is_applied event_id = true →
    (∃ event, l.events[event_id]? = some event ∧
      (∃ visible, adapter.event_visible event = .ok visible) ∧ adapter.dates event = true) ∨
      l.tombstones[event_id]?.isSome
  redacted : ∀ event_id, w.ledger.is_redacted event_id = true →
    (∃ event, l.events[event_id]? = some event ∧ adapter.event_visible event = .ok false) ∨
      l.tombstones[event_id]?.isSome

theorem keepsUp_fresh (l : Ledger) (adapter : GraphitiProjectionAdapter) :
    KeepsUp l adapter .fresh := by
  constructor
  · rintro event_id ⟨⟩
  · rintro event_id ⟨⟩

theorem Removal.redacts (h : Removal client event_id w status w') {other : String}
    (hother : w'.ledger.is_redacted other = true) :
    w.ledger.is_redacted other = true ∨ event_id = other := by
  cases h with
  | unmaterialized record =>
      rw [ProjectionLedger.is_redacted_record_redaction, Bool.or_eq_true] at hother
      exact hother.imp_right of_decide_eq_true
  | removed applied record =>
      rw [ProjectionLedger.is_redacted_record_redaction, Bool.or_eq_true] at hother
      exact hother.imp_right of_decide_eq_true
  | _ => exact Or.inl hother

theorem Removal.is_applied (h : Removal client event_id w status w') (other : String) :
    w'.ledger.is_applied other = w.ledger.is_applied other := by
  cases h with
  | unmaterialized record => exact ProjectionLedger.is_applied_record_redaction _ _ _ _
  | removed applied record => exact ProjectionLedger.is_applied_record_redaction _ _ _ _
  | _ => rfl

theorem Removal.keepsUp {l : Ledger} (h : Removal client event_id w status w')
    (hburied : l.tombstones[event_id]?.isSome) (hw : KeepsUp l adapter w) :
    KeepsUp l adapter w' := by
  constructor
  · intro other hother
    rw [h.is_applied] at hother
    exact hw.applied other hother
  · intro other hother
    rcases h.redacts hother with hold | rfl
    · exact hw.redacted other hold
    · exact Or.inr hburied

theorem Application.redacts (h : Application client adapter event event_id w status w')
    {other : String} (hother : w'.ledger.is_redacted other = true) :
    w.ledger.is_redacted other = true ∨
      event_id = other ∧ adapter.event_visible event = .ok false := by
  cases h with
  | excluded record hlive hhidden =>
      rw [ProjectionLedger.is_redacted_record_redaction, Bool.or_eq_true] at hother
      exact hother.imp_right fun heq => ⟨of_decide_eq_true heq, hhidden⟩
  | withdrawn _ _ hhidden _ hremoval =>
      exact (hremoval.redacts hother).imp_right fun heq => ⟨heq, hhidden⟩
  | added record =>
      rw [ProjectionLedger.is_redacted_record_applied] at hother
      exact Or.inl hother
  | _ => exact Or.inl hother

theorem Application.keeps_redacted
    (h : Application client adapter event event_id w status w') {other : String}
    (hother : w.ledger.is_redacted other = true) : w'.ledger.is_redacted other = true := by
  cases h with
  | excluded record =>
      rw [ProjectionLedger.is_redacted_record_redaction, hother, Bool.true_or]
  | withdrawn _ _ _ _ hremoval => exact hremoval.keeps_redacted hother
  | added record =>
      rw [ProjectionLedger.is_redacted_record_applied]
      exact hother
  | _ => exact hother

theorem Application.keeps_applied
    (h : Application client adapter event event_id w status w') {other : String}
    (hother : w.ledger.is_applied other = true) : w'.ledger.is_applied other = true := by
  cases h with
  | excluded record =>
      rw [ProjectionLedger.is_applied_record_redaction]
      exact hother
  | withdrawn _ _ _ _ hremoval =>
      rw [hremoval.is_applied]
      exact hother
  | added record =>
      rw [ProjectionLedger.is_applied_record_applied, hother, Bool.true_or]
  | _ => exact hother

theorem Application.applies (h : Application client adapter event event_id w status w')
    {other : String} (hother : w'.ledger.is_applied other = true) :
    w.ledger.is_applied other = true ∨ event_id = other ∧
      adapter.event_visible event = .ok true ∧ adapter.dates event = true := by
  cases h with
  | excluded record =>
      rw [ProjectionLedger.is_applied_record_redaction] at hother
      exact Or.inl hother
  | withdrawn _ _ _ _ hremoval =>
      rw [hremoval.is_applied] at hother
      exact Or.inl hother
  | added record content named _ hvisible _ htime =>
      rw [ProjectionLedger.is_applied_record_applied, Bool.or_eq_true] at hother
      refine hother.imp_right fun heq => ⟨of_decide_eq_true heq, hvisible, ?_⟩
      rw [GraphitiProjectionAdapter.dates, htime]
      rfl
  | _ => exact Or.inl hother

theorem Application.keepsUp {l : Ledger}
    (h : Application client adapter event event_id w status w')
    (hstored : l.events[event_id]? = some event) (hw : KeepsUp l adapter w) :
    KeepsUp l adapter w' := by
  constructor
  · intro other hother
    rcases h.applies hother with hold | ⟨rfl, hvisible, hdates⟩
    · exact hw.applied other hold
    · exact Or.inl ⟨event, hstored, ⟨true, hvisible⟩, hdates⟩
  · intro other hother
    rcases h.redacts hother with hold | ⟨rfl, hhidden⟩
    · exact hw.redacted other hold
    · exact Or.inl ⟨event, hstored, hhidden⟩

end Effects

theorem KeepsUp.mono {l l' : Ledger} {adapter adapter' : GraphitiProjectionAdapter}
    {w : ProjectionWorld} (h : KeepsUp l adapter w)
    (hevents : ∀ (text : String) event, l.events[text]? = some event →
      l'.events[text]? = some event ∨ l'.tombstones[text]?.isSome)
    (htombstones : ∀ text : String, l.tombstones[text]?.isSome → l'.tombstones[text]?.isSome)
    (hpolicy : ∀ event, RedactionPolicy.StillHides (adapter.event_visible event)
      (adapter'.event_visible event))
    (hdates : ∀ event, adapter'.dates event = adapter.dates event) : KeepsUp l' adapter' w := by
  constructor
  · intro event_id happlied
    rcases h.applied event_id happlied with ⟨event, hstored, hvisible, hdated⟩ | hburied
    · rcases hevents _ _ hstored with hstored' | hburied
      · exact Or.inl ⟨event, hstored', (hpolicy event).2 hvisible, (hdates event).trans hdated⟩
      · exact Or.inr hburied
    · exact Or.inr (htombstones _ hburied)
  · intro event_id hredacted
    rcases h.redacted event_id hredacted with ⟨event, hstored, hhidden⟩ | hburied
    · rcases hevents _ _ hstored with hstored' | hburied
      · exact Or.inl ⟨event, hstored', (hpolicy event).1 hhidden⟩
      · exact Or.inr hburied
    · exact Or.inr (htombstones _ hburied)

theorem Ledger.event_or_tombstone {config : StoreConfig} {l : Ledger} (h : l.Valid config)
    (call : EventCall) {text : String} {event : Json} (hevent : l.events[text]? = some event) :
    (l.step config call).2.events[text]? = some event ∨
      (l.step config call).2.tombstones[text]?.isSome := by
  obtain ⟨id, rfl, -⟩ := h.events text event hevent
  have hlive : l.tombstones[id.text]? = none := by
    cases htombstone : l.tombstones[id.text]? with
    | none => rfl
    | some t =>
        have hnone := h.erased id.text (by rw [htombstone]; rfl)
        rw [hevent] at hnone
        cases hnone
  rcases Ledger.event_step config hevent hlive call with ⟨hstays, -⟩ | ⟨r, temp, t, rfl, hout⟩
  · exact Or.inl hstays
  · rw [Ledger.redact_ok hout]
    exact Or.inr rfl

namespace ArtifactLedger

variable (sha256 : Sha256) (l : ArtifactLedger)

theorem redactions_putManifest (artifact_id : String) (manifest : Json) :
    (l.putManifest artifact_id manifest).2.redactions = l.redactions := by
  rw [putManifest]
  split
  · rfl
  · split <;> rfl

theorem redactions_put_bytes (data : ByteArray) (media_type : String) :
    (l.put_bytes sha256 data media_type).2.redactions = l.redactions := by
  simp only [put_bytes]
  split
  · rfl
  · split
    · rw [redactions_putManifest]
    · split
      · rw [redactions_putManifest]
      · rfl

theorem redactions_redact (id : String) (r : RedactionRequest) {artifact_id : String}
    (h : l.redactions[artifact_id]?.isSome = true) :
    (l.redact id r).2.redactions[artifact_id]?.isSome = true := by
  rw [redact]
  split
  · exact h
  · split
    · exact h
    · split
      · rw [KeyMap.get?_insert]
        split
        · rfl
        · exact h
      · split <;> exact h

/-- An artifact once redacted stays redacted. -/
theorem redaction_step (call : ArtifactCall) {artifact_id : String}
    (h : l.redactions[artifact_id]?.isSome = true) :
    (l.step sha256 call).2.redactions[artifact_id]?.isSome = true := by
  cases call with
  | put_bytes data media_type temp temp' =>
      show (l.put_bytes sha256 data media_type).2.redactions[artifact_id]?.isSome = true
      rw [redactions_put_bytes]
      exact h
  | redact id r temp => exact l.redactions_redact id.text r h
  | _ => exact h

end ArtifactLedger

/-! ## Runs -/

/-- What does not change in a run. -/
structure ProjectionSetup where
  config : StoreConfig
  snapshots : KeyMap String Json
  fromisoformat : String → Except Error Unit
  client : Client

structure ProjectedStore where
  events : Ledger
  artifacts : ArtifactLedger
  projection : ProjectionWorld

def ProjectedStore.empty : ProjectedStore := ⟨.empty, .empty, .fresh⟩

inductive ProjectedCall where
  | event (call : EventCall)
  | artifact (call : ArtifactCall)
  | cycle

namespace ProjectionSetup

variable (setup : ProjectionSetup)

def adapter (s : ProjectedStore) : GraphitiProjectionAdapter where
  visibility_policy := some (RedactionPolicy.event_visible ⟨setup.snapshots, s.artifacts.redactions⟩)
  fromisoformat := setup.fromisoformat

def source (s : ProjectedStore) : EventSource :=
  ⟨Ledger.listing s.events.events, Ledger.listing s.events.tombstones⟩

/-- One call on the stores, or one cycle of the worker. -/
def step (s : ProjectedStore) :
    ProjectedCall → Option (Except Error ProjectorCycle) × ProjectedStore
  | .event call => (none, { s with events := (s.events.step setup.config call).2 })
  | .artifact call => (none, { s with artifacts := (s.artifacts.step setup.config.sha256 call).2 })
  | .cycle =>
      let (result, projection) :=
        cycleStep setup.client (source s) s.projection (setup.adapter s)
      (some result, { s with projection := projection })

/-- What holds of every store that calls build. -/
structure Maintained (s : ProjectedStore) : Prop where
  valid : s.events.Valid setup.config
  keepsUp : KeepsUp s.events (setup.adapter s) s.projection
  materialized : Materialized setup.client s.projection

variable {setup} {s : ProjectedStore}

theorem maintained_empty : setup.Maintained .empty :=
  ⟨Ledger.valid_empty, keepsUp_fresh _ _, materialized_fresh⟩

theorem Maintained.event (h : setup.Maintained s) (call : EventCall) :
    setup.Maintained { s with events := (s.events.step setup.config call).2 } := by
  refine ⟨h.valid.step call, ?_, h.materialized⟩
  apply h.keepsUp.mono
  · intro text event hevent
    exact Ledger.event_or_tombstone h.valid call hevent
  · intro text htombstone
    obtain ⟨t, ht⟩ := Option.isSome_iff_exists.mp htombstone
    rw [Ledger.tombstone_step ht call]
    rfl
  · exact fun event => .rfl
  · exact fun event => rfl

theorem Maintained.artifact (h : setup.Maintained s) (call : ArtifactCall) :
    setup.Maintained { s with artifacts := (s.artifacts.step setup.config.sha256 call).2 } := by
  refine ⟨h.valid, ?_, h.materialized⟩
  apply h.keepsUp.mono
  · exact fun text event hevent => Or.inl hevent
  · exact fun text htombstone => htombstone
  · intro event
    apply RedactionPolicy.Extends.event_visible
    exact ⟨rfl, fun artifact_id => s.artifacts.redaction_step setup.config.sha256 call⟩
  · exact fun event => rfl

/-- The text of a stored tombstone is the id it is stored under. -/
theorem tombstone_text (h : s.events.Valid setup.config) {tombstone : Json}
    (hmem : tombstone ∈ (source s).tombstones) :
    s.events.tombstones[textOf tombstone "event_id"]? = some tombstone := by
  obtain ⟨text, htext⟩ := Ledger.mem_listing.mp hmem
  obtain ⟨id, rfl, hburied⟩ := h.tombstones text tombstone htext
  rw [textOf, hburied.event_id]
  exact htext

/-- A stored event is stored under the text of its id. -/
theorem event_text (h : s.events.Valid setup.config) {event : Json}
    (hmem : event ∈ s.events.log) :
    s.events.events[textOf event "event_id"]? = some event := by
  obtain ⟨text, htext⟩ := Ledger.mem_listing.mp (mem_sortedBy.mp hmem)
  rw [Ledger.textOf_event_id h htext]
  exact htext

theorem Maintained.cycle (h : setup.Maintained s) (hatomic : setup.client.Atomic) :
    setup.Maintained { s with projection :=
      (cycleStep setup.client (source s) s.projection (setup.adapter s)).2 } := by
  have hordered := Ledger.ordered_events_listing h.valid
  refine ⟨h.valid, ?_, ?_⟩
  · apply cycle_keeps hordered _ _ h.keepsUp
    · intro tombstone hmem w status w' hremoval hw
      apply hremoval.keepsUp _ hw
      rw [tombstone_text h.valid hmem]
      rfl
    · intro event hmem w status w' _ happlication hw
      exact happlication.keepsUp (event_text h.valid hmem) hw
  · apply cycle_keeps hordered _ _ h.materialized
    · exact fun _ _ _ _ _ hremoval hw => hremoval.materialized hatomic hw
    · exact fun _ _ _ _ _ _ happlication hw => happlication.materialized hatomic hw

theorem maintained_after (hatomic : setup.client.Atomic) (calls : List ProjectedCall) :
    setup.Maintained (Runs.after setup.step .empty calls) := by
  apply Runs.invariant maintained_empty
  intro s call _ h
  cases call with
  | event call => exact h.event call
  | artifact call => exact h.artifact call
  | cycle => exact h.cycle hatomic

section CleanCycle

variable {cycle : ProjectorCycle} {w' : ProjectionWorld}

/-- What a cycle without failures leaves applied, redacted or unmarked. -/
structure Settled (s : ProjectedStore) (w' : ProjectionWorld) : Prop where
  buried : ∀ event_id : String, s.events.tombstones[event_id]?.isSome →
    w'.ledger.is_redacted event_id = true
  marked : ∀ (event_id : String) event, s.events.events[event_id]? = some event →
    w'.ledger.marked event_id = true
  keeps : ∀ event_id, s.projection.ledger.is_redacted event_id = true →
    w'.ledger.is_redacted event_id = true

theorem settled (h : setup.Maintained s)
    (hcycle : cycleStep setup.client (source s) s.projection (setup.adapter s) = (.ok cycle, w'))
    (hclean : cycle.failed = 0) : Settled s w' := by
  obtain ⟨purged, receipts, w₁, hpurge, hpurged, hscan, hreceipts⟩ :=
    clean_cycle (Ledger.ordered_events_listing h.valid) hcycle hclean
  obtain ⟨hburied, hkeeps⟩ := clean_purge hpurge hpurged
  obtain ⟨hmarked, -⟩ := clean_scan hscan hreceipts
  have hscanned : ∀ event_id, w₁.ledger.is_redacted event_id = true →
      w'.ledger.is_redacted event_id = true := by
    intro event_id hredacted
    have hstate : w' = (((setup.adapter s).scan s.events.log).run
        (projectionStep setup.client) w₁).2 := by
      rw [hscan]
    rw [hstate]
    apply scan_keeps (P := fun w => w.ledger.is_redacted event_id = true) _ hredacted
    intro event _ w status w'' _ happlication hw
    exact happlication.keeps_redacted hw
  refine ⟨?_, ?_, fun event_id hredacted => hscanned _ (hkeeps _ hredacted)⟩
  · intro event_id htombstone
    obtain ⟨t, ht⟩ := Option.isSome_iff_exists.mp htombstone
    obtain ⟨id, rfl, hid⟩ := h.valid.tombstones event_id t ht
    apply hscanned
    have htext : textOf t "event_id" = id.text := by
      rw [textOf, hid.event_id]
      rfl
    rw [← htext]
    exact hburied t (Ledger.mem_listing.mpr ⟨id.text, ht⟩)
  · intro event_id event hevent
    rw [← Ledger.textOf_event_id h.valid hevent]
    exact hmarked event (mem_sortedBy.mpr (Ledger.mem_listing.mpr ⟨event_id, hevent⟩))

/-- After a cycle without failures the graph holds the stored events that are applied and not
redacted. -/
theorem Settled.holds_iff (h : setup.Maintained { s with projection := w' })
    (hsettled : Settled s w') (event_id : String) :
    w'.graph.Holds event_id ↔ ∃ event, s.events.events[event_id]? = some event ∧
      w'.ledger.is_applied event_id = true ∧ w'.ledger.is_redacted event_id = false := by
  rw [h.materialized.live]
  constructor
  · rintro ⟨happlied, hlive⟩
    rcases h.keepsUp.applied event_id happlied with ⟨event, hevent, -, -⟩ | hburied
    · exact ⟨event, hevent, happlied, hlive⟩
    · rw [hsettled.buried event_id hburied] at hlive
      cases hlive
  · rintro ⟨event, -, happlied, hlive⟩
    exact ⟨happlied, hlive⟩

theorem live_of_stored (h : s.events.Valid setup.config) {event_id : String} {event : Json}
    (hevent : s.events.events[event_id]? = some event) :
    ¬ s.events.tombstones[event_id]?.isSome = true := by
  intro hburied
  rw [h.erased event_id hburied] at hevent
  cases hevent

/-- A stored event that is redacted in the ledger is hidden. -/
theorem hidden_of_redacted (h : setup.Maintained { s with projection := w' }) {event_id : String}
    {event : Json} (hevent : s.events.events[event_id]? = some event)
    (hredacted : w'.ledger.is_redacted event_id = true) :
    (setup.adapter s).event_visible event = .ok false := by
  rcases h.keepsUp.redacted event_id hredacted with ⟨other, hother, hhidden⟩ | hburied
  · rw [Option.some.inj (hevent.symm.trans hother)]
    exact hhidden
  · exact (live_of_stored h.valid hevent hburied).elim

/-- After a cycle without failures a stored visible event is applied, and has a time. -/
theorem Settled.applied_of_visible (h : setup.Maintained { s with projection := w' })
    (hsettled : Settled s w') {event_id : String} {event : Json}
    (hevent : s.events.events[event_id]? = some event)
    (hvisible : (setup.adapter s).event_visible event = .ok true) :
    w'.ledger.is_applied event_id = true ∧ w'.ledger.is_redacted event_id = false := by
  have hlive : w'.ledger.is_redacted event_id = false := by
    rw [← Bool.not_eq_true]
    intro hredacted
    have hhidden := hidden_of_redacted h hevent hredacted
    rw [hvisible] at hhidden
    cases hhidden
  have hmarked := hsettled.marked event_id event hevent
  rw [ProjectionLedger.marked, hlive, Bool.or_false] at hmarked
  exact ⟨hmarked, hlive⟩

theorem dated_of_applied (h : setup.Maintained { s with projection := w' }) {event_id : String}
    {event : Json} (hevent : s.events.events[event_id]? = some event)
    (happlied : w'.ledger.is_applied event_id = true) :
    (∃ visible, (setup.adapter s).event_visible event = .ok visible) ∧
      (setup.adapter s).dates event = true := by
  rcases h.keepsUp.applied event_id happlied with ⟨other, hother, hreads, hdates⟩ | hburied
  · rw [Option.some.inj (hevent.symm.trans hother)]
    exact ⟨hreads, hdates⟩
  · exact (live_of_stored h.valid hevent hburied).elim

/-- After a cycle without failures a rebuild can read every stored event. -/
theorem Settled.reads (h : setup.Maintained { s with projection := w' })
    (hsettled : Settled s w') : ∀ event ∈ s.events.log, (setup.adapter s).Reads event := by
  intro event hmem
  obtain ⟨id, hstored, hevent⟩ :=
    Ledger.storedEvent_of_mem_listing h.valid (mem_sortedBy.mp hmem)
  refine ⟨⟨id.text, hstored.event_id, _, get?_pack_id hstored.accepted.envelope⟩, ?_⟩
  have hmarked := hsettled.marked id.text event hevent
  rw [ProjectionLedger.marked, Bool.or_eq_true] at hmarked
  rcases hmarked with happlied | hredacted
  · exact (dated_of_applied h hevent happlied).1
  · exact ⟨false, hidden_of_redacted h hevent hredacted⟩

end CleanCycle

/-- What a rebuild on an empty graph with a fresh ledger materializes, when no call fails. -/
theorem rebuild_holds (h : s.events.Valid setup.config)
    (hreads : ∀ event ∈ s.events.log, (setup.adapter s).Reads event) {files : List Json}
    (hfiles : files.Perm (Ledger.listing s.events.events)) {uuid : ℕ → String}
    {fresh : Function.Injective uuid} {answers : PassAnswers}
    (haccepts : ∀ event, (answers event).isOk = true) (event_id : String) :
    (rebuildStep uuid fresh (setup.adapter s) files .fresh answers).2.graph.Holds event_id ↔
      ∃ event, s.events.events[event_id]? = some event ∧
        (setup.adapter s).event_visible event = .ok true ∧
          (setup.adapter s).dates event = true := by
  have hordered : ordered_events files = .ok s.events.log := by
    have hids : DistinctIds files :=
      ⟨fun e he => (Ledger.distinctIds_listing h).present e (hfiles.mem_iff.mp he),
        (hfiles.pairwise_iff fun hne => hne.symm).mpr (Ledger.distinctIds_listing h).distinct⟩
    rw [ordered_events_eq_of_perm hfiles hids, Ledger.ordered_events_listing h]
  have hids : DistinctIds s.events.log := by
    have hperm := sortedBy_perm orderKey (Ledger.listing s.events.events)
    exact ⟨fun e he => (Ledger.distinctIds_listing h).present e (hperm.mem_iff.mp he),
      (hperm.pairwise_iff fun hne => hne.symm).mpr (Ledger.distinctIds_listing h).distinct⟩
  have hfreshly : (setup.adapter s).Agrees s.events.log .fresh := agrees_fresh _
  have hagrees : (setup.adapter s).Agrees s.events.log
      ((Program.forEach (setup.adapter s).apply_event_async s.events.log).run
        (projectionStep (.answering uuid fresh answers)) .fresh).2 :=
    pass_agrees hids (fun _ he => he) hfreshly
  have hmaterialized : Materialized (.answering uuid fresh answers)
      ((Program.forEach (setup.adapter s).apply_event_async s.events.log).run
        (projectionStep (.answering uuid fresh answers)) .fresh).2 := by
    apply pass_keeps _ materialized_fresh
    intro event _ event_id w status w' _ happlication hw
    exact happlication.materialized Client.atomic_answering hw
  obtain ⟨receipts, w, hrun, htaken⟩ : ∃ receipts w,
      (Program.forEach (setup.adapter s).apply_event_async s.events.log).run
        (projectionStep (.answering uuid fresh answers)) .fresh = (.ok receipts, w) ∧
      TakenAll (setup.adapter s) answers s.events.log .fresh w := run_pass hids hfreshly hreads
  rw [rebuild_run hordered, hrun]
  rw [hrun] at hagrees hmaterialized
  rw [hmaterialized.live, htaken.applied]
  constructor
  · rintro ⟨hfalse | ⟨event, hmem, rfl, htakes⟩, -⟩
    · cases hfalse
    · simp only [GraphitiProjectionAdapter.takes, Bool.and_eq_true] at htakes
      exact ⟨event, event_text h hmem, (setup.adapter s).visible_of_shows htakes.1.1.1,
        htakes.1.1.2⟩
  · rintro ⟨event, hevent, hvisible, hdates⟩
    have hmem : event ∈ s.events.log :=
      mem_sortedBy.mpr (Ledger.mem_listing.mpr ⟨event_id, hevent⟩)
    have htext : textOf event "event_id" = event_id := Ledger.textOf_event_id h hevent
    refine ⟨Or.inr ⟨event, hmem, htext, ?_⟩, ?_⟩
    · rw [takes_iff hvisible rfl, hdates, haccepts]
      rfl
    · rw [← Bool.not_eq_true, ← htext]
      intro hredacted
      have hhidden := (hagrees event hmem).1 hredacted
      rw [hvisible] at hhidden
      cases hhidden

/-- What the cycle applied is visible, and what it found applied and live stays so. -/
theorem applied_in_cycle (h : setup.Maintained s) {w' : ProjectionWorld}
    {result : Except Error ProjectorCycle}
    (hcycle : cycleStep setup.client (source s) s.projection (setup.adapter s) = (result, w'))
    {event_id : String} {event : Json} (hevent : s.events.events[event_id]? = some event) :
    (w'.ledger.is_applied event_id = true → s.projection.ledger.is_applied event_id = true ∨
      (setup.adapter s).event_visible event = .ok true) ∧
    (s.projection.ledger.is_applied event_id = true →
      s.projection.ledger.is_redacted event_id = false →
        w'.ledger.is_applied event_id = true ∧ w'.ledger.is_redacted event_id = false) := by
  have hstate : w' = (cycleStep setup.client (source s) s.projection (setup.adapter s)).2 := by
    rw [hcycle]
  have hordered := Ledger.ordered_events_listing h.valid
  have hmine : ∀ other ∈ s.events.log, textOf other "event_id" = event_id → other = event := by
    intro other hmem htext
    have hother := event_text h.valid hmem
    rw [htext, hevent] at hother
    exact (Option.some.inj hother).symm
  constructor
  · rw [hstate]
    apply cycle_keeps (P := fun w => w.ledger.is_applied event_id = true →
      s.projection.ledger.is_applied event_id = true ∨
        (setup.adapter s).event_visible event = .ok true) hordered _ _ Or.inl
    · intro tombstone _ w status w' hremoval hw happlied
      rw [hremoval.is_applied] at happlied
      exact hw happlied
    · intro other hmem w status w' _ happlication hw happlied
      rcases happlication.applies happlied with hold | ⟨htext, hvisible, -⟩
      · exact hw hold
      · rw [hmine other hmem htext] at hvisible
        exact Or.inr hvisible
  · intro happlied hlive
    rw [hstate]
    apply cycle_keeps (P := fun w => w.ledger.is_applied event_id = true ∧
      w.ledger.is_redacted event_id = false) hordered _ _ ⟨happlied, hlive⟩
    · intro tombstone hmem w status w' hremoval hw
      rw [hremoval.is_applied]
      refine ⟨hw.1, ?_⟩
      rw [← Bool.not_eq_true]
      intro hredacted
      rcases hremoval.redacts hredacted with hold | htext
      · rw [hw.2] at hold
        cases hold
      · apply live_of_stored h.valid hevent
        rw [← htext, tombstone_text h.valid hmem]
        rfl
    · intro other hmem w status w' hnew happlication hw
      refine ⟨happlication.keeps_applied hw.1, ?_⟩
      rw [← Bool.not_eq_true]
      intro hredacted
      rcases happlication.redacts hredacted with hold | ⟨htext, -⟩
      · rw [hw.2] at hold
        cases hold
      · rw [htext, ProjectionLedger.marked, hw.1] at hnew
        cases hnew

def citedArtifact : ArtifactId := ⟨"art_ba7816bf8f01cfea414140de5dae2223", by decide +kernel⟩

theorem citedText_prefixed : Schema.isPrefixedId "evt_" 16 "evt_0123456789abcdef" = true := by
  decide +kernel

def citedId : EventId := ⟨"evt_0123456789abcdef", citedText_prefixed⟩

/-- A proposal that cites an artifact. -/
def citing : Document where
  value := minimalEvent citedId.text "claim.proposed" "2026-01-01T00:00:00Z"
    "pack_0123456789abcdef" ["claim_01"] [("claim_text", .str "text")]
    [("evidence_refs", .arr [.str citedArtifact.text])]
  wf := by decide +kernel

def sampleSetup : ProjectionSetup :=
  ⟨.plain, ∅, GraphitiProjectionAdapter.plain.fromisoformat, .reliable⟩

def citedErasure : RedactionRequest := ⟨"privacy", "operator", "2026-01-02T00:00:00Z", none⟩

/-- The artifacts before and after the redaction. -/
def citedArtifacts : ArtifactLedger :=
  (ArtifactLedger.empty.step .hashlib (.put_bytes "abc".toUTF8 "text/plain" "t1" "t2")).2

def erasedArtifacts : ArtifactLedger :=
  (citedArtifacts.step .hashlib (.redact citedArtifact citedErasure "t3")).2

/-- The store with the one event. -/
def citingStore (artifacts : ArtifactLedger) (projection : ProjectionWorld) : ProjectedStore :=
  ⟨{ Ledger.empty with events := Ledger.empty.events.insert citedId.text citing.value }, artifacts,
    projection⟩

theorem listing_citing (artifacts : ArtifactLedger) (projection : ProjectionWorld) :
    Ledger.listing (citingStore artifacts projection).events.events = [citing.value] :=
  List.perm_singleton.mp (Ledger.listing_insert_empty_perm citedId.text citing.value)

theorem ordered_citing : ordered_events [citing.value] = .ok [citing.value] := by
  apply ordered_events_ok_iff.mpr
  refine ⟨?_, (sortedBy_of_pairwise (List.pairwise_singleton _ _)).symm⟩
  intro event hevent
  rw [List.mem_singleton.mp hevent]
  exact ⟨⟨.str "2026-01-01T00:00:00Z", by decide +kernel⟩, ⟨.str citedId.text, by decide +kernel⟩⟩

/-- The scan of the one event. -/
def citingScan (artifacts : ArtifactLedger) (projection : ProjectionWorld) :
    Except Error (List ProjectionReceipt) × ProjectionWorld :=
  ((sampleSetup.adapter (citingStore artifacts projection)).scan [citing.value]).run
    (projectionStep .reliable) projection

theorem step_cycle_citing {artifacts : ArtifactLedger} {projection w : ProjectionWorld}
    {receipts : List ProjectionReceipt} (h : citingScan artifacts projection = (.ok receipts, w)) :
    sampleSetup.step (citingStore artifacts projection) .cycle =
      (some (.ok ⟨receipts.length, receipts⟩), citingStore artifacts w) := by
  have hsource : source (citingStore artifacts projection) = ⟨[citing.value], []⟩ := by
    rw [source, listing_citing]
    exact congrArg _ Ledger.listing_empty
  have hcycle : cycleStep .reliable ⟨[citing.value], []⟩ projection
      (sampleSetup.adapter (citingStore artifacts projection)) =
        (.ok ⟨receipts.length, receipts⟩, w) := by
    rw [cycleStep, GraphitiProjectionAdapter.run_once_async, purge_event_redactions_async]
    rw [Program.pure_eq_done, Program.bind_done_ok, if_neg (by decide), ordered_citing,
      Program.bind_done_ok, Program.run_bind_ok _ h]
    rfl
  have hstep : sampleSetup.step (citingStore artifacts projection) .cycle =
      (some (cycleStep .reliable (source (citingStore artifacts projection)) projection
          (sampleSetup.adapter (citingStore artifacts projection))).1,
        citingStore artifacts (cycleStep .reliable (source (citingStore artifacts projection))
          projection (sampleSetup.adapter (citingStore artifacts projection))).2) := rfl
  rw [hstep, hsource, hcycle]

theorem step_commit_citing :
    sampleSetup.step .empty (.event (.commit citing "u1" "t1")) = (none, citingStore .empty .fresh) := by
  have hcommit : Ledger.empty.step .plain (.commit citing "u1" "t1") = _ :=
    @Ledger.step_commit .plain .empty citing "u1" "t1" citedId.text citing.value
      (by decide +kernel) (by decide +kernel) Std.ExtTreeMap.getElem?_empty
      Std.ExtTreeMap.getElem?_empty
  show (none, ProjectedStore.mk (Ledger.empty.step .plain _).2 _ _) = _
  rw [hcommit]
  rfl

/-- The projection after the first cycle. -/
def appliedOnce : ProjectionWorld := (citingScan .empty .fresh).2

theorem scan_first :
    citingScan .empty .fresh = (.ok [⟨citedId.text, .applied, none⟩], appliedOnce) := by
  rfl

theorem scan_erased : citingScan erasedArtifacts appliedOnce =
    (.ok [⟨citedId.text, .skipped, some "already applied"⟩], appliedOnce) := by
  rfl

def citingCalls : List ProjectedCall :=
  [.event (.commit citing "u1" "t1"), .cycle,
    .artifact (.put_bytes "abc".toUTF8 "text/plain" "t1" "t2"),
    .artifact (.redact citedArtifact citedErasure "t3")]

theorem after_citing :
    Runs.after sampleSetup.step .empty citingCalls = citingStore erasedArtifacts appliedOnce := by
  rw [citingCalls, Runs.after_cons, step_commit_citing, Runs.after_cons,
    step_cycle_citing scan_first]
  rfl

end ProjectionSetup

end FossilCore
