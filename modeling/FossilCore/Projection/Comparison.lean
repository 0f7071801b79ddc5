import FossilCore.Projection.SwitchLedger

/-!
# Exact comparison

Two snapshots have no mismatch exactly when they are equal, and exactly when their digests are;
and the guarded activation writes its record exactly when it should.
-/

namespace FossilCore

open Base

namespace SemanticSnapshot

variable {a b : SemanticSnapshot}

/-- The identifiers and the ends of the relations are texts, as the fields are annotated. -/
structure Annotated (snapshot : SemanticSnapshot) : Prop where
  event_ids : ∀ id ∈ snapshot.event_ids, id.isStr = true
  claim_states : ∀ entry ∈ snapshot.claim_states, entry.1.isStr = true
  relation_states : ∀ entry ∈ snapshot.relation_states,
    entry.1.isStr = true ∧ entry.2.2.1.isStr = true ∧ entry.2.2.2.1.isStr = true

theorem wf_of_isStr {v : Json} (h : v.isStr = true) : v.WF := by
  cases v with
  | str s => exact Json.wf_str s
  | _ => cases h

theorem wf_texts (items : List String) : (texts items).WF := by
  rw [texts, Json.wf_arr_iff, List.forall_mem_map]
  exact fun s _ => Json.wf_str s

theorem texts_inj {items items' : List String} : texts items = texts items' ↔ items = items' := by
  rw [texts, texts, Json.arr.injEq]
  exact (List.map_injective_iff.mpr fun s t h => Json.str.inj h).eq_iff

/-! ## The digest -/

def rows {α : Type} (row : α → List Json) (entries : List α) : Json :=
  .arr (entries.map fun entry => .arr (row entry))

theorem rows_inj {α : Type} {row : α → List Json} (hrow : Function.Injective row)
    {entries entries' : List α} : rows row entries = rows row entries' ↔ entries = entries' := by
  rw [rows, rows, Json.arr.injEq]
  exact (List.map_injective_iff.mpr fun x y h => hrow (Json.arr.inj h)).eq_iff

theorem wf_rows {α : Type} {row : α → List Json} {entries : List α}
    (h : ∀ entry ∈ entries, ∀ v ∈ row entry, v.WF) : (rows row entries).WF := by
  apply Json.wf_arr_iff.mpr
  intro item hitem
  obtain ⟨entry, hentry, rfl⟩ := List.mem_map.mp hitem
  exact Json.wf_arr_iff.mpr (h entry hentry)

theorem get?_asdict (snapshot : SemanticSnapshot) :
    snapshot.asdict.get? "event_ids" = some (.arr snapshot.event_ids) ∧
      snapshot.asdict.get? "pack_event_ids" =
        some (rows (fun entry => [.str entry.1, texts entry.2]) snapshot.pack_event_ids) ∧
      snapshot.asdict.get? "namespace_subject_refs" =
        some (rows (fun entry => [.str entry.1, texts entry.2]) snapshot.namespace_subject_refs) ∧
      snapshot.asdict.get? "provenance_by_event" =
        some (rows (fun entry => [.str entry.1, .str entry.2]) snapshot.provenance_by_event) ∧
      snapshot.asdict.get? "claim_states" =
        some (rows (fun entry => [entry.1, .str entry.2]) snapshot.claim_states) ∧
      snapshot.asdict.get? "relation_states" =
        some (rows (fun entry => [entry.1, .str entry.2.1, entry.2.2.1, entry.2.2.2.1,
          .str entry.2.2.2.2]) snapshot.relation_states) ∧
      snapshot.asdict.get? "event_type_counts" =
        some (rows (fun entry => [.str entry.1, .int entry.2]) snapshot.event_type_counts) := by
  unfold asdict
  simp only [Json.get?_ofMembers]
  exact ⟨rfl, rfl, rfl, rfl, rfl, rfl, rfl⟩

/-- A snapshot can be read off its dictionary. -/
theorem asdict_inj : a.asdict = b.asdict ↔ a = b := by
  refine ⟨fun h => ?_, fun h => congrArg asdict h⟩
  obtain ⟨hevents, hpacks, hsubjects, hprovenance, hclaims, hrelations, hcounts⟩ := get?_asdict a
  obtain ⟨hevents', hpacks', hsubjects', hprovenance', hclaims', hrelations', hcounts'⟩ :=
    get?_asdict b
  rw [h] at hevents hpacks hsubjects hprovenance hclaims hrelations hcounts
  have htexts : Function.Injective fun entry : String × List String =>
      [Json.str entry.1, texts entry.2] := by
    intro x y hxy
    simp only [List.cons.injEq, Json.str.injEq, texts_inj, and_true] at hxy
    exact Prod.ext hxy.1 hxy.2
  cases a
  cases b
  rw [mk.injEq]
  refine ⟨?_, ?_, ?_, ?_, ?_, ?_, ?_⟩
  · exact Json.arr.inj (Option.some.inj (hevents.symm.trans hevents'))
  · exact (rows_inj htexts).mp (Option.some.inj (hpacks.symm.trans hpacks'))
  · exact (rows_inj htexts).mp (Option.some.inj (hsubjects.symm.trans hsubjects'))
  · refine (rows_inj fun x y hxy => ?_).mp (Option.some.inj (hprovenance.symm.trans hprovenance'))
    simp only [List.cons.injEq, Json.str.injEq, and_true] at hxy
    exact Prod.ext hxy.1 hxy.2
  · refine (rows_inj fun x y hxy => ?_).mp (Option.some.inj (hclaims.symm.trans hclaims'))
    simp only [List.cons.injEq, Json.str.injEq, and_true] at hxy
    exact Prod.ext hxy.1 hxy.2
  · refine (rows_inj fun x y hxy => ?_).mp (Option.some.inj (hrelations.symm.trans hrelations'))
    simp only [List.cons.injEq, Json.str.injEq, and_true] at hxy
    obtain ⟨hid, htype, hsource, htarget, hstate⟩ := hxy
    exact Prod.ext hid (Prod.ext htype (Prod.ext hsource (Prod.ext htarget hstate)))
  · refine (rows_inj fun x y hxy => ?_).mp (Option.some.inj (hcounts.symm.trans hcounts'))
    simp only [List.cons.injEq, Json.str.injEq, Json.int.injEq, Nat.cast_inj, and_true] at hxy
    exact Prod.ext hxy.1 hxy.2

theorem Annotated.wf_asdict (h : a.Annotated) : a.asdict.WF := by
  have htexts : ∀ entries : List (String × List String),
      (rows (fun entry => [.str entry.1, texts entry.2]) entries).WF := by
    intro entries
    apply wf_rows
    intro entry _ v hv
    rcases List.mem_pair.mp hv with rfl | rfl
    · exact Json.wf_str _
    · exact wf_texts _
  apply Json.wf_ofMembers
  simp only [List.forall_mem_cons, List.not_mem_nil, false_implies, implies_true, and_true]
  refine ⟨?_, htexts _, htexts _, ?_, ?_, ?_, ?_⟩
  · exact Json.wf_arr_iff.mpr fun id hid => wf_of_isStr (h.event_ids id hid)
  · apply wf_rows
    intro entry _ v hv
    rcases List.mem_pair.mp hv with rfl | rfl <;> exact Json.wf_str _
  · apply wf_rows
    intro entry hentry v hv
    rcases List.mem_pair.mp hv with rfl | rfl
    · exact wf_of_isStr (h.claim_states entry hentry)
    · exact Json.wf_str _
  · show (rows (fun entry : Json × String × Json × Json × String =>
      [entry.1, .str entry.2.1, entry.2.2.1, entry.2.2.2.1, .str entry.2.2.2.2]) _).WF
    apply wf_rows
    intro entry hentry v hv
    obtain ⟨hid, hsource, htarget⟩ := h.relation_states entry hentry
    simp only [List.mem_cons, List.not_mem_nil, or_false] at hv
    rcases hv with rfl | rfl | rfl | rfl | rfl
    · exact wf_of_isStr hid
    · exact Json.wf_str _
    · exact wf_of_isStr hsource
    · exact wf_of_isStr htarget
    · exact Json.wf_str _
  · apply wf_rows
    intro entry _ v hv
    rcases List.mem_pair.mp hv with rfl | rfl
    · exact Json.wf_str _
    · exact Json.wf_int _

/-- What the digest of a snapshot is taken of. -/
def digested (snapshot : SemanticSnapshot) : ByteArray := (Json.dumps snapshot.asdict).toUTF8

theorem digest_eq_iff {sha256 : Sha256} (ha : a.Annotated) (hb : b.Annotated)
    (hcollision : Set.InjOn sha256.hexdigest {a.digested, b.digested}) :
    a.digest sha256 = b.digest sha256 ↔ a = b := by
  refine ⟨fun h => ?_, fun h => congrArg (digest sha256) h⟩
  have hbytes : a.digested = b.digested := hcollision (by simp) (by simp) h
  have htext := String.toByteArray_inj.mp hbytes
  exact asdict_inj.mp (Json.dumps_inj ha.wf_asdict hb.wf_asdict htext)

end SemanticSnapshot

/-! ## The comparator -/

theorem mismatches_eq_nil_iff {expected candidate : SemanticSnapshot} :
    mismatches expected candidate = [] ↔ expected = candidate := by
  cases expected
  cases candidate
  simp only [mismatches, List.map_eq_nil_iff, List.filter_eq_nil_iff, List.forall_mem_cons,
    Bool.not_eq_true', decide_eq_false_iff_not, not_not, List.not_mem_nil, false_implies,
    implies_true, and_true, SemanticSnapshot.mk.injEq]

theorem passed_compare {sha256 : Sha256} {expected candidate : SemanticSnapshot}
    {candidate_slot : String} {current : Option SemanticSnapshot} {current_slot : Option String}
    {benchmarks : List (String × Bool)} :
    (ProjectionComparator.compare sha256 expected candidate candidate_slot current current_slot
        benchmarks).passed = true ↔
      mismatches expected candidate = [] ∧ ∀ benchmark ∈ benchmarks, benchmark.2 = true := by
  rw [ComparisonReport.passed, Bool.and_eq_true, List.isEmpty_iff, List.all_eq_true]
  simp only [ProjectionComparator.compare, mem_sortedBy]

/-! ## The guarded activation -/

namespace ProjectionSwitchLedger

/-- No record has been filed under this uuid. -/
def FreshUuid (ledger : ProjectionSwitchLedger) (uuid : String) : Prop :=
  ∀ name record, ledger[name]? = some record →
    Text.endsWith name ("switch_" ++ uuid ++ ".json") = false

theorem FreshUuid.free {ledger : ProjectionSwitchLedger} {call : SwitchCall}
    (h : FreshUuid ledger call.uuid) : ledger[switchFileName call.payload]? = none := by
  cases hrecord : ledger[switchFileName call.payload]? with
  | none => rfl
  | some record =>
      have hends := h _ record hrecord
      have hname : ∃ start, switchFileName call.payload =
          start ++ ("switch_" ++ call.uuid ++ ".json") := by
        unfold switchFileName
        exact ⟨_, String.append_assoc⟩
      obtain ⟨start, hstart⟩ := hname
      rw [hstart, Text.endsWith_append] at hends
      cases hends

end ProjectionSwitchLedger

/-- What has to hold for a candidate to become active. -/
def MayActivate (ledger : ProjectionSwitchLedger) (expected candidate : SemanticSnapshot)
    (current_slot : Option String) (benchmarks : List (String × Bool)) : Prop :=
  mismatches expected candidate = [] ∧ (∀ benchmark ∈ benchmarks, benchmark.2 = true) ∧
    (ledger.active_slot = none ∨ ledger.active_slot = current_slot)

section Activation

variable {sha256 : Sha256} {ledger : ProjectionSwitchLedger}
  {expected candidate : SemanticSnapshot} {candidate_slot : String} {build_manifest : Json}
  {current : Option SemanticSnapshot} {current_slot : Option String}
  {benchmarks : List (String × Bool)} {switched_at : Option String} {now uuid : String}

theorem compare_and_switch_ok (hfresh : ledger.FreshUuid uuid)
    (h : MayActivate ledger expected candidate current_slot benchmarks) :
    ∃ record : SwitchRecord, compare_and_switch sha256 ledger expected candidate candidate_slot
        build_manifest current current_slot benchmarks switched_at now uuid =
          (.ok (ProjectionComparator.compare sha256 expected candidate candidate_slot current
            current_slot benchmarks, record), ledger.insert (switchFileName record) record) ∧
      ledger[switchFileName record]? = none ∧ record.from_slot = current_slot ∧
      record.to_slot = candidate_slot := by
  obtain ⟨hmismatches, hbenchmarks, hslot⟩ := h
  let call : SwitchCall := {
    from_slot := current_slot
    to_slot := candidate_slot
    comparison := ProjectionComparator.compare sha256 expected candidate candidate_slot current
      current_slot benchmarks
    build_manifest
    switched_at
    now
    uuid }
  have hpassed : call.comparison.passed = true := passed_compare.mpr ⟨hmismatches, hbenchmarks⟩
  have hfree := @ProjectionSwitchLedger.FreshUuid.free ledger call hfresh
  have hsource : ∀ active, ledger.active_slot = some active → call.from_slot = some active := by
    intro active hactive
    rcases hslot with hnone | hsome
    · rw [hactive] at hnone
      cases hnone
    · exact hsome.symm.trans hactive
  have hrecorded := ProjectionSwitchLedger.record_switch_ok hpassed rfl hsource hfree
  refine ⟨call.payload, ?_, hfree, rfl, rfl⟩
  rw [compare_and_switch, if_neg (by rw [hpassed]; decide), hrecorded]
  rfl

theorem compare_and_switch_refused
    (h : ¬MayActivate ledger expected candidate current_slot benchmarks) :
    ∃ e, compare_and_switch sha256 ledger expected candidate candidate_slot build_manifest current
      current_slot benchmarks switched_at now uuid = (.error e, ledger) := by
  rw [compare_and_switch]
  dsimp only
  split_ifs with hpassed
  · exact ⟨_, rfl⟩
  · rcases ProjectionSwitchLedger.record_switch_cases ledger {
      from_slot := current_slot
      to_slot := candidate_slot
      comparison := ProjectionComparator.compare sha256 expected candidate candidate_slot current
        current_slot benchmarks
      build_manifest
      switched_at
      now
      uuid } with ⟨e, heq⟩ | ⟨-, -, hsource⟩
    · exact ⟨e, by rw [heq]; rfl⟩
    · -- a switch that is recorded would have met every condition
      obtain ⟨hmismatches, hbenchmarks⟩ := passed_compare.mp (by simpa using hpassed)
      refine absurd ⟨hmismatches, hbenchmarks, ?_⟩ h
      cases hactive : ledger.active_slot with
      | none => exact Or.inl rfl
      | some active => exact Or.inr (hsource active hactive).symm

end Activation

/-- The comparator finds no mismatch exactly when the snapshots are equal and exactly when their
digests are; and one switch is recorded exactly when there is none, every benchmark holds and no
other slot than the given one is active.  Otherwise the ledger stays as it is. -/
theorem compare_and_switch_exact (sha256 : Sha256) (expected candidate : SemanticSnapshot)
    (hexpected : expected.Annotated) (hcandidate : candidate.Annotated)
    (hcollision : Set.InjOn sha256.hexdigest {expected.digested, candidate.digested})
    (candidate_slot : String) (current : Option SemanticSnapshot) (current_slot : Option String)
    (benchmarks : List (String × Bool)) :
    let report := ProjectionComparator.compare sha256 expected candidate candidate_slot current
      current_slot benchmarks
    (report.mismatches = [] ↔ expected = candidate) ∧
      (expected = candidate ↔ report.expected_digest = report.candidate_digest) ∧
      ∀ (ledger : ProjectionSwitchLedger) (build_manifest : Json) (switched_at : Option String)
        (now uuid : String), ledger.FreshUuid uuid →
        let outcome := compare_and_switch sha256 ledger expected candidate candidate_slot
          build_manifest current current_slot benchmarks switched_at now uuid
        ((∃ record, (KeyMap.contents outcome.2).Perm (record :: KeyMap.contents ledger)) ↔
          MayActivate ledger expected candidate current_slot benchmarks) ∧
        (MayActivate ledger expected candidate current_slot benchmarks →
          ∃ record, outcome.1 = .ok (report, record) ∧
            (KeyMap.contents outcome.2).Perm (record :: KeyMap.contents ledger) ∧
            record.from_slot = current_slot ∧ record.to_slot = candidate_slot) ∧
        (¬MayActivate ledger expected candidate current_slot benchmarks →
          ∃ e, outcome = (.error e, ledger)) := by
  intro report
  refine ⟨mismatches_eq_nil_iff, ?_, ?_⟩
  · exact (SemanticSnapshot.digest_eq_iff hexpected hcandidate hcollision).symm
  · intro ledger build_manifest switched_at now uuid hfresh outcome
    have hok : MayActivate ledger expected candidate current_slot benchmarks →
        ∃ record, outcome.1 = .ok (report, record) ∧
          (KeyMap.contents outcome.2).Perm (record :: KeyMap.contents ledger) ∧
          record.from_slot = current_slot ∧ record.to_slot = candidate_slot := by
      intro h
      obtain ⟨record, heq, hfree, hfrom, hto⟩ := @compare_and_switch_ok sha256 ledger expected
        candidate candidate_slot build_manifest current current_slot benchmarks switched_at now
        uuid hfresh h
      refine ⟨record, congrArg Prod.fst heq, ?_, hfrom, hto⟩
      rw [show outcome.2 = _ from congrArg Prod.snd heq]
      exact KeyMap.contents_insert_perm record hfree
    refine ⟨⟨?_, fun h => ?_⟩, hok, compare_and_switch_refused⟩
    · rintro ⟨record, hperm⟩
      by_contra h
      obtain ⟨e, heq⟩ : ∃ e, outcome = (.error e, ledger) := compare_and_switch_refused h
      rw [heq] at hperm
      have hlength : (KeyMap.contents ledger).length = (KeyMap.contents ledger).length + 1 :=
        hperm.length_eq
      omega
    · obtain ⟨record, -, hperm, -⟩ := hok h
      exact ⟨record, hperm⟩

/-- The snapshot of a pack with one claim. -/
def oneClaim (claim_id state : String) : SemanticSnapshot where
  event_ids := [.str "evt_0000000000000001"]
  pack_event_ids := [("pack_0123456789abcdef", ["evt_0000000000000001"])]
  namespace_subject_refs := [("pack_0123456789abcdef", [claim_id])]
  provenance_by_event := [("evt_0000000000000001", "\x7b\x7d")]
  claim_states := [(.str claim_id, state)]
  relation_states := []
  event_type_counts := [("claim.proposed", 1)]

theorem annotated_oneClaim (claim_id state : String) : (oneClaim claim_id state).Annotated := by
  constructor <;> simp [oneClaim, Json.isStr]

theorem compare_and_switch_exact_of_first :
    ∃ report record, (compare_and_switch .hashlib ∅ (oneClaim "claim_01" "open")
      (oneClaim "claim_01" "open") "green" (.obj []) none none [("recall", true)] none
      "2026-08-09T21:00:00+00:00" "00000000000040008000000000000001").1 = .ok (report, record) := by
  have h := compare_and_switch_exact .hashlib (oneClaim "claim_01" "open")
    (oneClaim "claim_01" "open") (annotated_oneClaim _ _) (annotated_oneClaim _ _)
    (by rw [Set.pair_eq_singleton]; exact Set.injOn_singleton _ _) "green" none none
    [("recall", true)]
  obtain ⟨record, hok, -⟩ := (h.2.2 ∅ (.obj []) none "2026-08-09T21:00:00+00:00"
    "00000000000040008000000000000001" (fun name record hrecord => by simp at hrecord)).2.1
    ⟨mismatches_eq_nil_iff.mpr rfl, by simp, Or.inl (by
      rw [ProjectionSwitchLedger.active_slot, ProjectionSwitchLedger.iter_switches,
        KeyMap.contents_empty]
      simp [sortedBy])⟩
  exact ⟨_, record, hok⟩

end FossilCore
