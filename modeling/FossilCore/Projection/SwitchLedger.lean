import Mathlib.Data.List.Chain
import FossilCore.Base.Runs
import FossilCore.Projection.Migration

/-!
# The switch ledger

`ProjectionSwitchLedger` and the comparison that guards it.  The active slot is that of the last
record when all are sorted by the time that the caller supplies and a random identifier, so that
the records form a chain as long as every new one is the newest.
-/

namespace FossilCore

open Base

structure ComparisonReport where
  current_slot : Option String
  candidate_slot : String
  expected_digest : String
  candidate_digest : String
  current_digest : Option String
  mismatches : List String
  benchmark_results : List (String × Bool)

def ComparisonReport.passed (report : ComparisonReport) : Bool :=
  report.mismatches.isEmpty && report.benchmark_results.all (·.2)

/-- The fields in which two snapshots differ, in the order of `FIELDS`. -/
def mismatches (expected candidate : SemanticSnapshot) : List String :=
  ([("event_ids", decide (expected.event_ids = candidate.event_ids)),
    ("pack_event_ids", decide (expected.pack_event_ids = candidate.pack_event_ids)),
    ("namespace_subject_refs",
      decide (expected.namespace_subject_refs = candidate.namespace_subject_refs)),
    ("provenance_by_event",
      decide (expected.provenance_by_event = candidate.provenance_by_event)),
    ("claim_states", decide (expected.claim_states = candidate.claim_states)),
    ("relation_states", decide (expected.relation_states = candidate.relation_states)),
    ("event_type_counts",
      decide (expected.event_type_counts = candidate.event_type_counts))].filter
    fun field => !field.2).map Prod.fst

/-- `ProjectionComparator.compare`; `benchmarks` is a mapping by its entries. -/
def ProjectionComparator.compare (sha256 : Sha256) (expected candidate : SemanticSnapshot)
    (candidate_slot : String) (current : Option SemanticSnapshot) (current_slot : Option String)
    (benchmarks : List (String × Bool)) : ComparisonReport where
  current_slot
  candidate_slot
  expected_digest := expected.digest sha256
  candidate_digest := candidate.digest sha256
  current_digest := current.map (·.digest sha256)
  mismatches := mismatches expected candidate
  benchmark_results := sortedBy Prod.fst benchmarks

structure SwitchRecord where
  switch_id : String
  switched_at : String
  from_slot : Option String
  to_slot : String
  expected_semantic_digest : String
  candidate_semantic_digest : String
  mismatches : List String
  benchmark_results : List (String × Bool)
  build_manifest : Json

/-- `(record["switched_at"], record["switch_id"])` -/
def SwitchRecord.key (record : SwitchRecord) : String ×ₗ String :=
  toLex (record.switched_at, record.switch_id)

/-- A call of `record_switch`.  `now` is the time the clock shows, `uuid` the one it draws. -/
structure SwitchCall where
  from_slot : Option String
  to_slot : String
  comparison : ComparisonReport
  build_manifest : Json
  switched_at : Option String
  now : String
  uuid : String

namespace SwitchCall

variable (call : SwitchCall)

/-- `switched_at or datetime.now(timezone.utc).isoformat()` -/
def timestamp : String := (call.switched_at.filter (· ≠ "")).getD call.now

def switch_id : String := "switch_" ++ call.uuid

def payload : SwitchRecord where
  switch_id := call.switch_id
  switched_at := call.timestamp
  from_slot := call.from_slot
  to_slot := call.to_slot
  expected_semantic_digest := call.comparison.expected_digest
  candidate_semantic_digest := call.comparison.candidate_digest
  mismatches := call.comparison.mismatches
  benchmark_results := call.comparison.benchmark_results
  build_manifest := call.build_manifest

end SwitchCall

/-- `f"{timestamp.replace(':', '_')}-{switch_id}.json"` -/
def switchFileName (record : SwitchRecord) : String :=
  String.ofList (record.switched_at.toList.map fun c => if c = ':' then '_' else c) ++ "-" ++
    record.switch_id ++ ".json"

/-- The records under the names of their files. -/
abbrev ProjectionSwitchLedger := KeyMap String SwitchRecord

def slotText : Option String → String
  | none => "None"
  | some slot => Text.repr slot

namespace Error

def checksNotPassed : Error :=
  valueError "candidate projection cannot become active before checks pass"

def wrongCandidate : Error :=
  valueError "comparison candidate slot does not match switch target"

def wrongSource (from_slot : Option String) (active : String) : Error :=
  valueError ("switch source " ++ slotText from_slot ++ " does not match active projection " ++
    slotText (some active))

def switchExists (name : String) : Error :=
  ofPython (.runtimeError ("projection switch record already exists: " ++ name))

end Error

namespace ProjectionSwitchLedger

variable (ledger : ProjectionSwitchLedger)

def iter_switches : List SwitchRecord := sortedBy SwitchRecord.key (KeyMap.contents ledger)

def active_slot : Option String := (iter_switches ledger).getLast?.map (·.to_slot)

def record_switch (call : SwitchCall) : Except Error SwitchRecord × ProjectionSwitchLedger :=
  if !call.comparison.passed then (.error .checksNotPassed, ledger)
  else if call.comparison.candidate_slot ≠ call.to_slot then (.error .wrongCandidate, ledger)
  else
    match (active_slot ledger).filter fun active => call.from_slot ≠ some active with
    | some active => (.error (.wrongSource call.from_slot active), ledger)
    | none =>
        let name := switchFileName call.payload
        if ledger.contains name then (.error (.switchExists name), ledger)
        else (.ok call.payload, ledger.insert name call.payload)

/-! ## What a call does -/

/-- Every record is in the file that is named after it. -/
def Named : Prop := ∀ name record, ledger[name]? = some record → name = switchFileName record

/-- The call's record would come after all the others. -/
def Newest (call : SwitchCall) : Prop :=
  ∀ record ∈ iter_switches ledger, record.key < call.payload.key

variable {ledger} {call : SwitchCall}

theorem named_empty : Named ∅ := by
  intro name record h
  simp at h

variable (ledger) in
theorem record_switch_cases (call : SwitchCall) :
    (∃ e, record_switch ledger call = (.error e, ledger)) ∨
      record_switch ledger call =
          (.ok call.payload, ledger.insert (switchFileName call.payload) call.payload) ∧
        ledger[switchFileName call.payload]? = none ∧
          ∀ active, active_slot ledger = some active → call.from_slot = some active := by
  rw [record_switch]
  split
  · exact Or.inl ⟨_, rfl⟩
  · split
    · exact Or.inl ⟨_, rfl⟩
    · cases hactive : (active_slot ledger).filter fun active => call.from_slot ≠ some active with
      | some active => exact Or.inl ⟨_, rfl⟩
      | none =>
          dsimp only
          split
          · exact Or.inl ⟨_, rfl⟩
          · rename_i hfree
            refine Or.inr ⟨rfl, ?_, ?_⟩
            · rw [KeyMap.contains_eq_isSome] at hfree
              simpa using hfree
            · intro active hsome
              rw [hsome, Option.filter_some] at hactive
              by_contra hne
              rw [if_pos (decide_eq_true hne)] at hactive
              cases hactive

theorem record_switch_ok (hpassed : call.comparison.passed = true)
    (htarget : call.comparison.candidate_slot = call.to_slot)
    (hsource : ∀ active, active_slot ledger = some active → call.from_slot = some active)
    (hfree : ledger[switchFileName call.payload]? = none) : record_switch ledger call =
      (.ok call.payload, ledger.insert (switchFileName call.payload) call.payload) := by
  have hfilter :
      ((active_slot ledger).filter fun active => call.from_slot ≠ some active) = none := by
    rw [Option.filter_eq_none_iff]
    intro active hactive
    simpa using hsource active hactive
  have habsent : ledger.contains (switchFileName call.payload) = false := by
    rw [KeyMap.contains_eq_isSome, hfree]
    rfl
  rw [record_switch, hpassed, if_neg (by decide), if_neg (not_not.mpr htarget), hfilter]
  simp only [habsent, Bool.false_eq_true, if_false]

theorem Named.insert (h : Named ledger) (call : SwitchCall) :
    Named (ledger.insert (switchFileName call.payload) call.payload) := by
  intro name record hrecord
  rw [KeyMap.get?_insert] at hrecord
  split_ifs at hrecord with hname
  · rw [← hname, Option.some.inj hrecord]
  · exact h name record hrecord

theorem Named.step (h : Named ledger) (call : SwitchCall) :
    Named (record_switch ledger call).2 := by
  rcases record_switch_cases ledger call with ⟨e, heq⟩ | ⟨heq, -, -⟩
  · rw [heq]
    exact h
  · rw [heq]
    exact h.insert call

theorem switchFileName_of_key {a b : SwitchRecord} (h : a.key = b.key) :
    switchFileName a = switchFileName b := by
  have htime : a.switched_at = b.switched_at := congrArg (fun key => (ofLex key).1) h
  have hid : a.switch_id = b.switch_id := congrArg (fun key => (ofLex key).2) h
  rw [switchFileName, switchFileName, htime, hid]

theorem Named.key_inj (h : Named ledger) : ∀ a ∈ KeyMap.contents ledger,
    ∀ b ∈ KeyMap.contents ledger, a.key = b.key → a = b := by
  intro a ha b hb hab
  obtain ⟨name, hname⟩ := KeyMap.mem_contents.mp ha
  obtain ⟨name', hname'⟩ := KeyMap.mem_contents.mp hb
  rw [h name a hname, switchFileName_of_key hab, ← h name' b hname', hname'] at hname
  exact (Option.some.inj hname).symm

/-- The record of a successful call goes to the end when it is the newest. -/
theorem iter_switches_newest (h : Named ledger) (hnewest : Newest ledger call)
    (hfree : ledger[switchFileName call.payload]? = none) :
    iter_switches (ledger.insert (switchFileName call.payload) call.payload) =
      iter_switches ledger ++ [call.payload] :=
  sortedBy_append_greatest (KeyMap.contents_insert_perm call.payload hfree)
    (fun record hrecord => hnewest record (mem_sortedBy.mpr hrecord)) h.key_inj

theorem mem_iter_switches {record : SwitchRecord} :
    record ∈ iter_switches ledger ↔ record ∈ KeyMap.contents ledger := mem_sortedBy

/-- Else the last record stays the last. -/
theorem active_slot_older (h : Named ledger) (holder : ¬ Newest ledger call)
    (hfree : ledger[switchFileName call.payload]? = none) :
    active_slot (ledger.insert (switchFileName call.payload) call.payload) =
      active_slot ledger := by
  obtain ⟨record, hrecord, hle⟩ : ∃ record ∈ iter_switches ledger,
      call.payload.key ≤ record.key := by
    simpa only [Newest, not_forall, not_lt, exists_prop] using holder
  obtain ⟨last, hlast⟩ : ∃ last, (iter_switches ledger).getLast? = some last :=
    Option.ne_none_iff_exists'.mp fun hnone => by
      rw [List.getLast?_eq_none_iff.mp hnone] at hrecord
      cases hrecord
  obtain ⟨init, hinit⟩ := List.getLast?_eq_some_iff.mp hlast
  have hlastmem : last ∈ iter_switches ledger := by
    rw [hinit]
    exact List.mem_append_right _ List.mem_cons_self
  have hgreatest : ∀ other ∈ iter_switches ledger, other.key ≤ last.key := by
    intro other hother
    have hsorted : (iter_switches ledger).Pairwise fun a b => a.key ≤ b.key :=
      pairwise_sortedBy _ _
    rw [hinit] at hother hsorted
    rcases List.mem_append.mp hother with hbefore | hself
    · exact (List.pairwise_append.mp hsorted).2.2 other hbefore last List.mem_cons_self
    · rw [List.mem_singleton.mp hself]
  have hperm := KeyMap.contents_insert_perm call.payload hfree
  have hnamed := h.insert call
  have hmem : last ∈ KeyMap.contents (ledger.insert (switchFileName call.payload) call.payload) :=
    hperm.mem_iff.mpr (List.mem_cons_of_mem _ (mem_iter_switches.mp hlastmem))
  have hall : ∀ other ∈
      KeyMap.contents (ledger.insert (switchFileName call.payload) call.payload),
      other.key ≤ last.key := by
    intro other hother
    rcases List.mem_cons.mp (hperm.mem_iff.mp hother) with rfl | hold
    · exact hle.trans (hgreatest record hrecord)
    · exact hgreatest other (mem_iter_switches.mpr hold)
  have hinserted : (iter_switches
      (ledger.insert (switchFileName call.payload) call.payload)).getLast? = some last :=
    getLast?_sortedBy hmem hall hnamed.key_inj
  rw [active_slot, active_slot, hinserted, hlast]

/-- When the slot of a successful call is active after it. -/
theorem active_slot_iff (h : Named ledger) {record : SwitchRecord}
    (hok : (record_switch ledger call).1 = .ok record) :
    active_slot (record_switch ledger call).2 = some call.to_slot ↔
      Newest ledger call ∨ active_slot ledger = some call.to_slot := by
  rcases record_switch_cases ledger call with ⟨e, heq⟩ | ⟨heq, hfree, -⟩
  · rw [heq] at hok
    cases hok
  · rw [heq]
    by_cases hnewest : Newest ledger call
    · rw [active_slot, iter_switches_newest h hnewest hfree, List.getLast?_concat]
      exact iff_of_true rfl (Or.inl hnewest)
    · rw [active_slot_older h hnewest hfree]
      exact (or_iff_right hnewest).symm

/-! ## Runs -/

/-- What the ledger recorded in a run, in the order of the calls. -/
def recorded (ledger : ProjectionSwitchLedger) (calls : List SwitchCall) : List SwitchRecord :=
  (Runs.outcomes record_switch ledger calls).filterMap Except.toOption

/-- The call was made in the run from an empty ledger, and recorded. -/
def Recorded (calls : List SwitchCall) (before : List SwitchCall) (call : SwitchCall) : Prop :=
  (∃ rest, calls = before ++ call :: rest) ∧
    ∃ record, (record_switch (Runs.after record_switch ∅ before) call).1 = .ok record

theorem named_after (calls : List SwitchCall) : Named (Runs.after record_switch ∅ calls) :=
  Runs.invariant named_empty fun _ call _ h => h.step call

theorem recorded_concat (ledger : ProjectionSwitchLedger) (calls : List SwitchCall)
    (call : SwitchCall) : recorded ledger (calls ++ [call]) = recorded ledger calls ++
      (record_switch (Runs.after record_switch ledger calls) call).1.toOption.toList := by
  rw [recorded, Runs.outcomes_append, List.filterMap_append, recorded, Runs.outcomes,
    Runs.outcomes]
  cases h : (record_switch (Runs.after record_switch ledger calls) call).1.toOption with
  | none => simp [h]
  | some record => simp [h]

theorem Recorded.concat {calls before : List SwitchCall} {call : SwitchCall}
    (h : Recorded calls before call) (last : SwitchCall) :
    Recorded (calls ++ [last]) before call := by
  obtain ⟨⟨rest, rfl⟩, hok⟩ := h
  exact ⟨⟨rest ++ [last], by simp⟩, hok⟩

/-- When the target of every recorded call is active after it, the records form a chain whose
last target is active. -/
theorem chain_of_active (calls : List SwitchCall)
    (hactive : ∀ before call, Recorded calls before call →
      active_slot (Runs.after record_switch ∅ (before ++ [call])) = some call.to_slot) :
    (recorded ∅ calls).IsChain (fun earlier later => later.from_slot = some earlier.to_slot) ∧
      active_slot (Runs.after record_switch ∅ calls) =
        (recorded ∅ calls).getLast?.map (·.to_slot) := by
  induction calls using List.reverseRecOn with
  | nil =>
      refine ⟨List.isChain_nil, ?_⟩
      rw [Runs.after_nil, active_slot, iter_switches, KeyMap.contents_empty]
      simp [sortedBy, recorded, Runs.outcomes]
  | append_singleton calls call ih =>
      obtain ⟨hchain, hlast⟩ := ih fun before other h => hactive before other (h.concat call)
      rw [recorded_concat]
      rcases record_switch_cases (Runs.after record_switch ∅ calls) call with
        ⟨e, heq⟩ | ⟨heq, -, hsource⟩
      · rw [Runs.after_append, Runs.after_cons, Runs.after_nil, heq]
        simpa [Except.toOption] using ⟨hchain, hlast⟩
      · have hnow := hactive calls call ⟨⟨[], rfl⟩, call.payload, by rw [heq]⟩
        rw [hnow, heq]
        refine ⟨?_, ?_⟩
        · apply List.IsChain.append hchain (List.isChain_singleton _)
          intro earlier hearlier later hlater
          obtain rfl : call.payload = later := by simpa [Except.toOption] using hlater
          apply hsource
          rw [hlast, hearlier]
          rfl
        · simp [Except.toOption, SwitchCall.payload]

/-- When every recorded call is the newest, the sorted records are in the order of the calls. -/
theorem iter_switches_of_newest (calls : List SwitchCall)
    (hnewest : ∀ before call, Recorded calls before call →
      Newest (Runs.after record_switch ∅ before) call) :
    iter_switches (Runs.after record_switch ∅ calls) = recorded ∅ calls := by
  induction calls using List.reverseRecOn with
  | nil =>
      rw [Runs.after_nil, iter_switches, KeyMap.contents_empty]
      simp [sortedBy, recorded, Runs.outcomes]
  | append_singleton calls call ih =>
      have hbefore := ih fun before other h => hnewest before other (h.concat call)
      rw [recorded_concat, Runs.after_append, Runs.after_cons, Runs.after_nil]
      rcases record_switch_cases (Runs.after record_switch ∅ calls) call with
        ⟨e, heq⟩ | ⟨heq, hfree, -⟩
      · rw [heq, hbefore]
        exact (List.append_nil _).symm
      · have hnow := hnewest calls call ⟨⟨[], rfl⟩, call.payload, by rw [heq]⟩
        rw [heq, iter_switches_newest (named_after calls) hnow hfree, hbefore]
        rfl

/-- The target of every recorded call is active after it, and the records form a chain in the
order of the calls, exactly when each recorded call is the newest or names the active slot; when
each is the newest, the sorted records are in that order. -/
theorem switches_chain_iff (calls : List SwitchCall) :
    (((∀ before call, Recorded calls before call →
        active_slot (Runs.after record_switch ∅ (before ++ [call])) = some call.to_slot) ∧
      (recorded ∅ calls).IsChain fun earlier later => later.from_slot = some earlier.to_slot) ↔
    ∀ before call, Recorded calls before call →
      Newest (Runs.after record_switch ∅ before) call ∨
        active_slot (Runs.after record_switch ∅ before) = some call.to_slot) ∧
    ((∀ before call, Recorded calls before call →
        Newest (Runs.after record_switch ∅ before) call) →
      iter_switches (Runs.after record_switch ∅ calls) = recorded ∅ calls) := by
  have hafter : ∀ before call, Recorded calls before call →
      (active_slot (Runs.after record_switch ∅ (before ++ [call])) = some call.to_slot ↔
        Newest (Runs.after record_switch ∅ before) call ∨
          active_slot (Runs.after record_switch ∅ before) = some call.to_slot) := by
    rintro before call ⟨-, record, hok⟩
    rw [Runs.after_append]
    exact active_slot_iff (named_after before) hok
  refine ⟨?_, iter_switches_of_newest calls⟩
  constructor
  · rintro ⟨hactive, -⟩ before call hrecorded
    exact (hafter before call hrecorded).mp (hactive before call hrecorded)
  · intro hcondition
    have hactive := fun before call hrecorded =>
      (hafter before call hrecorded).mpr (hcondition before call hrecorded)
    exact ⟨hactive, (chain_of_active calls hactive).1⟩

/-! ## A back-dated switch -/

def passedReport (candidate_slot : String) : ComparisonReport where
  current_slot := none
  candidate_slot
  expected_digest := ""
  candidate_digest := ""
  current_digest := none
  mismatches := []
  benchmark_results := []

def switchAt (switched_at uuid : String) (from_slot : Option String) (to_slot : String) :
    SwitchCall where
  from_slot
  to_slot
  comparison := passedReport to_slot
  build_manifest := .obj []
  switched_at := some switched_at
  now := "2026-08-09T23:00:00+00:00"
  uuid

def toBlue : SwitchCall :=
  switchAt "2026-08-09T21:00:00+00:00" "00000000000040008000000000000001" none "blue"

def toGreen : SwitchCall :=
  switchAt "2026-08-09T20:00:00+00:00" "00000000000040008000000000000002" (some "blue") "green"

def toAmber : SwitchCall :=
  switchAt "2026-08-09T22:00:00+00:00" "00000000000040008000000000000003" (some "blue") "amber"

/-- A recorded switch to `green` that is dated an hour back leaves `blue` active, and the switch
from `blue` after it breaks the chain. -/
theorem backdated_switch_inactive :
    (record_switch (Runs.after record_switch ∅ [toBlue]) toGreen).1 = .ok toGreen.payload ∧
      active_slot (Runs.after record_switch ∅ [toBlue, toGreen]) = some "blue" ∧
      recorded ∅ [toBlue, toGreen, toAmber] =
        [toBlue.payload, toGreen.payload, toAmber.payload] ∧
      ¬ (recorded ∅ [toBlue, toGreen, toAmber]).IsChain
        fun earlier later => later.from_slot = some earlier.to_slot := by
  have hnone : iter_switches ∅ = [] := by
    rw [iter_switches, KeyMap.contents_empty]
    simp [sortedBy]
  have hblue := @record_switch_ok ∅ toBlue rfl rfl
    (by
      intro active h
      rw [active_slot, hnone] at h
      cases h) (by simp)
  have hblueonly : iter_switches (record_switch ∅ toBlue).2 = [toBlue.payload] := by
    rw [hblue, iter_switches_newest named_empty (by rw [Newest, hnone]; simp) (by simp), hnone]
    rfl
  have hblueactive : active_slot (record_switch ∅ toBlue).2 = some "blue" := by
    rw [active_slot, hblueonly]
    rfl
  have hgreen := @record_switch_ok (record_switch ∅ toBlue).2 toGreen rfl rfl
    (by
      intro active h
      rw [hblueactive] at h
      exact h) (by rw [hblue, KeyMap.get?_insert, if_neg (by decide)]; simp)
  have hgreenactive : active_slot (record_switch (record_switch ∅ toBlue).2 toGreen).2 =
      some "blue" := by
    rw [hgreen, active_slot_older (named_empty.step toBlue), hblueactive]
    · rw [Newest, hblueonly]
      decide
    · rw [hblue, KeyMap.get?_insert, if_neg (by decide)]
      simp
  have hamber := @record_switch_ok (record_switch (record_switch ∅ toBlue).2 toGreen).2 toAmber
    rfl rfl
    (by
      intro active h
      rw [hgreenactive] at h
      exact h)
    (by
      rw [hgreen, KeyMap.get?_insert, if_neg (by decide), hblue, KeyMap.get?_insert,
        if_neg (by decide)]
      simp)
  have hrecorded : recorded ∅ [toBlue, toGreen, toAmber] =
      [toBlue.payload, toGreen.payload, toAmber.payload] := by
    rw [recorded, Runs.outcomes, Runs.outcomes, Runs.outcomes, Runs.outcomes, hamber, hgreen, hblue]
    rfl
  refine ⟨?_, hgreenactive, hrecorded, ?_⟩
  · rw [Runs.after_cons, Runs.after_nil, hgreen]
  · rw [hrecorded]
    decide

end ProjectionSwitchLedger

/-! ## The guarded activation -/

namespace Error

/-- `report.mismatches`, or else the benchmarks that failed. -/
def migrationChecks (report : ComparisonReport) : Error :=
  valueError ("candidate projection failed migration checks: " ++ ", ".intercalate
    (if report.mismatches.isEmpty then
      (report.benchmark_results.filter fun benchmark => !benchmark.2).map Prod.fst
    else report.mismatches))

end Error

/-- `ProjectionMigrationHarness.compare_and_switch`; `now` and `uuid` are what `record_switch`
reads. -/
def compare_and_switch (sha256 : Sha256) (ledger : ProjectionSwitchLedger)
    (expected candidate : SemanticSnapshot) (candidate_slot : String) (build_manifest : Json)
    (current : Option SemanticSnapshot) (current_slot : Option String)
    (benchmarks : List (String × Bool)) (switched_at : Option String) (now uuid : String) :
    Except Error (ComparisonReport × SwitchRecord) × ProjectionSwitchLedger :=
  let report := ProjectionComparator.compare sha256 expected candidate candidate_slot current
    current_slot benchmarks
  if !report.passed then (.error (.migrationChecks report), ledger)
  else
    let switched := ProjectionSwitchLedger.record_switch ledger
      { from_slot := current_slot, to_slot := candidate_slot, comparison := report,
        build_manifest, switched_at, now, uuid }
    (switched.1.map fun record => (report, record), switched.2)

/-- The harness writes what a call of `record_switch` writes, or nothing. -/
theorem compare_and_switch_ledger (sha256 : Sha256) (ledger : ProjectionSwitchLedger)
    (expected candidate : SemanticSnapshot) (candidate_slot : String) (build_manifest : Json)
    (current : Option SemanticSnapshot) (current_slot : Option String)
    (benchmarks : List (String × Bool)) (switched_at : Option String) (now uuid : String) :
    ∃ call, (compare_and_switch sha256 ledger expected candidate candidate_slot build_manifest
      current current_slot benchmarks switched_at now uuid).2 =
        (ProjectionSwitchLedger.record_switch ledger call).2 := by
  refine ⟨{
    from_slot := current_slot
    to_slot := candidate_slot
    comparison := ProjectionComparator.compare sha256 expected candidate candidate_slot current
      current_slot benchmarks
    build_manifest
    switched_at
    now
    uuid }, ?_⟩
  rw [compare_and_switch]
  dsimp only
  split_ifs with hpassed
  · rw [ProjectionSwitchLedger.record_switch, if_pos hpassed]
  · rfl

end FossilCore
