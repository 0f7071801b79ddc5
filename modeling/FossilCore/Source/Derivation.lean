import FossilCore.Source.Audit

/-!
# Derivations of stored snapshots

The id of a snapshot says nothing of its derivation, but its parents are stored before it: after
any calls the derivations of the stored snapshots are grounded in snapshots that are not derived.
-/

namespace FossilCore

open Base

namespace SourceSnapshotStore

/-! ## Parents -/

/-- `snapshot["derivation"]["parent_snapshot_refs"]`, none without a derivation. -/
def parentRefsOf (snapshot : Json) : List Json :=
  parentsOf ((snapshot.get? "derivation").getD .null)

def isDerivedSnapshot (snapshot : Json) : Bool := isDerived (textOf snapshot "source_role")

/-- The one snapshot is a parent of the other, which is stored. -/
def IsParent (files : SourceFiles) (parent_id snapshot_id : String) : Prop :=
  ∃ snapshot, snapshotAt files snapshot_id = .ok snapshot ∧ .str parent_id ∈ parentRefsOf snapshot

/-- The snapshot is stored, and so are its parents, theirs, and so on to an end. -/
inductive Grounded (files : SourceFiles) : String → Prop
  | intro {snapshot_id : String} {snapshot : Json}
      (hat : snapshotAt files snapshot_id = .ok snapshot)
      (hparents : ∀ parent_id, .str parent_id ∈ parentRefsOf snapshot → Grounded files parent_id) :
      Grounded files snapshot_id

def AllGrounded (files : SourceFiles) : Prop :=
  ∀ snapshot_id snapshot, snapshotAt files snapshot_id = .ok snapshot → Grounded files snapshot_id

section Stored

variable {sha256 : Sha256} {formats : FormatChecker} {l l' : ArtifactLedger}
  {files files' : SourceFiles} {call : SnapshotCall} {snapshot : Json} {snapshot_id : String}

theorem Grounded.mono
    (hfiles : ∀ (path : Path) data, files.sources[path]? = some data →
      files'.sources[path]? = some data) (h : Grounded files snapshot_id) :
    Grounded files' snapshot_id := by
  induction h with
  | intro hat _ ih => exact .intro (snapshotAt_mono hfiles hat) ih

theorem snapshotAt_of_file (hwf : snapshot.WF)
    (hfile : files.sources[snapshot_path snapshot_id]? = some snapshot.canonical) :
    snapshotAt files snapshot_id = .ok snapshot := by
  rw [snapshotAt, get_snapshot, run_readJson_some hfile (Json.loadText_canonical hwf)]

theorem file_of_snapshotAt (h : snapshotAt files snapshot_id = .ok snapshot) :
    ∃ data, files.sources[snapshot_path snapshot_id]? = some data := by
  rw [snapshotAt, get_snapshot, run_readJson] at h
  cases hfile : files.sources[snapshot_path snapshot_id]? with
  | none =>
      rw [hfile] at h
      cases h
  | some data => exact ⟨data, rfl⟩

/-- The stored snapshot of an id is the one of a call. -/
theorem Consistent.snapshotAt (h : Consistent sha256 formats l files)
    (hat : SourceSnapshotStore.snapshotAt files snapshot_id = .ok snapshot) :
    ∃ call, Describes sha256 formats l files.sources call snapshot ∧
      textOf snapshot "snapshot_id" = snapshot_id := by
  obtain ⟨data, hdata⟩ := file_of_snapshotAt hat
  obtain ⟨call, stored, hpath, rfl, hdescribes⟩ := h.described _ data hdata
  cases (snapshotAt_of_file hdescribes.wf hdata).symm.trans hat
  exact ⟨call, hdescribes, (snapshot_path_inj hpath).symm⟩

theorem readable_of_file (h : Documents formats files.sources) {data : ByteArray}
    (hdata : files.sources[snapshot_path snapshot_id]? = some data) :
    ∃ snapshot, SourceSnapshotStore.snapshotAt files snapshot_id = .ok snapshot := by
  obtain ⟨snapshot, hwf, rfl, -⟩ := h _ data hdata
  exact ⟨snapshot, snapshotAt_of_file hwf hdata⟩

/-- The derivation and the role of the snapshot that a call describes. -/
theorem reads_of_describes (h : Describes sha256 formats l files.sources call snapshot) :
    snapshot.get? "derivation" = some (derivationOf call.call) ∧
      textOf snapshot "source_role" = call.call.source_role := by
  obtain ⟨normalized, source_id, -, -, rfl⟩ := h.shape
  have hreads := reads_snapshotWith sha256 call.call normalized source_id
  exact ⟨hreads.derivation, textOf_of_get? hreads.role⟩

/-- A snapshot that is not derived names no parents. -/
theorem parentRefs_of_underived (h : Describes sha256 formats l files.sources call snapshot)
    (hrole : isDerivedSnapshot snapshot = false) : parentRefsOf snapshot = [] := by
  obtain ⟨hderivation, hsource_role⟩ := reads_of_describes h
  rw [isDerivedSnapshot, hsource_role] at hrole
  have hnone : derivationOf call.call = .null := by
    rw [derivationOf, h.derived.absent hrole]
    rfl
  rw [parentRefsOf, hderivation, hnone]
  rfl

/-- A derived snapshot names parents, and all of them are stored. -/
theorem parentRefs_of_derived (h : Describes sha256 formats l files.sources call snapshot)
    (hrole : isDerivedSnapshot snapshot = true) :
    parentRefsOf snapshot ≠ [] ∧ ∀ parent ∈ parentRefsOf snapshot, ∃ parent_id data,
      parent = .str parent_id ∧ files.sources[snapshot_path parent_id]? = some data := by
  obtain ⟨hderivation, hsource_role⟩ := reads_of_describes h
  rw [isDerivedSnapshot, hsource_role] at hrole
  obtain ⟨htruthy, hrefs⟩ := h.derived.truthy hrole
  have hgiven : derivationOf call.call = call.call.derivation.getD .null := by
    rw [derivationOf, if_pos htruthy]
  have hobj : (derivationOf call.call).isObj = true := by
    rw [hgiven]
    generalize call.call.derivation.getD .null = derivation at hrefs ⊢
    cases derivation with
    | obj fields => rfl
    | _ => cases hrefs
  obtain ⟨parents, hparents⟩ := parents_of_schema h.accepted hderivation hobj
  have heq : parentRefsOf snapshot = parents := by
    rw [parentRefsOf, hderivation, Option.getD_some, parentsOf, hparents]
    rfl
  rw [hgiven] at hparents
  rw [heq]
  refine ⟨?_, h.derived.parents hrole parents hparents⟩
  rintro rfl
  rw [hparents] at hrefs
  simp [Json.truthy?, Json.truthy] at hrefs

/-! ## One call -/

/-- The snapshot that a call adds has its parents among the stored ones. -/
theorem AllGrounded.insert (h : AllGrounded files)
    (hdocuments : Documents formats files.sources)
    (hdescribes : Describes sha256 formats l files.sources call snapshot)
    (hfree : files.sources[snapshot_path (textOf snapshot "snapshot_id")]? = none)
    (hinsert : files'.sources = files.sources.insert
      (snapshot_path (textOf snapshot "snapshot_id")) snapshot.canonical) : AllGrounded files' := by
  have hlater : ∀ (path : Path) data, files.sources[path]? = some data →
      files'.sources[path]? = some data := by
    rw [hinsert]
    exact (later_insert l hfree snapshot.canonical).files
  intro other stored hat
  by_cases hother : snapshot_path (textOf snapshot "snapshot_id") = snapshot_path other
  · have hfile : files'.sources[snapshot_path other]? = some snapshot.canonical := by
      rw [hinsert, hother, KeyMap.get?_insert_self]
    refine .intro (snapshotAt_of_file hdescribes.wf hfile) ?_
    intro parent_id hparent
    apply Grounded.mono hlater
    cases hrole : isDerivedSnapshot snapshot with
    | false =>
        rw [parentRefs_of_underived hdescribes hrole] at hparent
        cases hparent
    | true =>
        obtain ⟨id, data, heq, hdata⟩ := (parentRefs_of_derived hdescribes hrole).2 _ hparent
        cases heq
        obtain ⟨parent, hparentAt⟩ := readable_of_file hdocuments hdata
        exact h _ parent hparentAt
  · obtain ⟨data, hdata⟩ := file_of_snapshotAt hat
    rw [hinsert, KeyMap.get?_insert_ne _ _ hother] at hdata
    obtain ⟨old, hold⟩ := readable_of_file hdocuments hdata
    exact (h other old hold).mono hlater

theorem AllGrounded.of_sources (h : AllGrounded files) (heq : files'.sources = files.sources) :
    AllGrounded files' := by
  intro id snapshot hat
  have hmono : ∀ {f g : SourceFiles}, g.sources = f.sources → ∀ (path : Path) data,
      f.sources[path]? = some data → g.sources[path]? = some data := by
    intro f g hsame path data hdata
    rw [hsame]
    exact hdata
  exact (h id snapshot (snapshotAt_mono (hmono heq.symm) hat)).mono (hmono heq)

theorem AllGrounded.step (h : AllGrounded files) (hconsistent : Consistent sha256 formats l files)
    (call : Call) : AllGrounded (step sha256 formats files call).2 := by
  cases call with
  | artifact call => exact h.of_sources rfl
  | put_snapshot call =>
      obtain ⟨l', -, -, hsources⟩ :=
        put_snapshot_cases hconsistent.stored hconsistent.documents call
      rcases hsources with hsame | ⟨snapshot, hdescribes, hfree, hinsert⟩
      · exact h.of_sources hsame
      · exact h.insert hconsistent.documents hdescribes hfree hinsert

/-! ## Runs -/

theorem allGrounded_run (h : AllGrounded files) (hconsistent : Consistent sha256 formats l files)
    (calls : List Call) : AllGrounded (Runs.after (step sha256 formats) files calls) := by
  induction calls generalizing l files with
  | nil => exact h
  | cons call calls ih =>
      obtain ⟨l', hnext, -, -⟩ := hconsistent.step call
      exact ih (h.step hconsistent call) hnext

theorem AllGrounded.wellFounded (h : AllGrounded files) : WellFounded (IsParent files) := by
  constructor
  intro id
  have hacc : ∀ id, Grounded files id → Acc (IsParent files) id := by
    intro id hgrounded
    induction hgrounded with
    | intro hat _ ih =>
        constructor
        rintro parent_id ⟨snapshot, hat', hparent⟩
        cases hat.symm.trans hat'
        exact ih parent_id hparent
  constructor
  rintro parent_id ⟨snapshot, hat, hparent⟩
  cases h id snapshot hat with
  | intro hat' hparents =>
      cases hat.symm.trans hat'
      exact hacc parent_id (hparents parent_id hparent)

end Stored

/-- After any calls, no stored snapshot is its own ancestor, the parents of a stored snapshot are
stored, and every stored snapshot has an ancestor, perhaps itself, that is not derived. -/
theorem derivations_grounded (sha256 : Sha256) (formats : FormatChecker) (calls : List Call) :
    let files := Runs.after (step sha256 formats) ⟨∅, ∅⟩ calls
    WellFounded (IsParent files) ∧
      (∀ parent_id snapshot_id, IsParent files parent_id snapshot_id →
        ∃ parent, snapshotAt files parent_id = .ok parent) ∧
      (∀ snapshot_id snapshot, snapshotAt files snapshot_id = .ok snapshot →
        (isDerivedSnapshot snapshot = true ↔ ∃ parent_id, IsParent files parent_id snapshot_id)) ∧
      ∀ snapshot_id snapshot, snapshotAt files snapshot_id = .ok snapshot →
        ∃ origin_id origin, Relation.ReflTransGen (IsParent files) origin_id snapshot_id ∧
          snapshotAt files origin_id = .ok origin ∧ isDerivedSnapshot origin = false := by
  intro files
  obtain ⟨l, hconsistent, -, -⟩ := consistent_run (consistent_empty sha256 formats) calls
  have hempty : AllGrounded ⟨∅, ∅⟩ := by
    intro id snapshot hat
    obtain ⟨data, hdata⟩ := file_of_snapshotAt hat
    simp at hdata
  have hgrounded : AllGrounded files := allGrounded_run hempty (consistent_empty sha256 formats) calls
  have hparent : ∀ snapshot_id snapshot, snapshotAt files snapshot_id = .ok snapshot →
      (isDerivedSnapshot snapshot = true ↔ ∃ parent_id, IsParent files parent_id snapshot_id) := by
    intro snapshot_id snapshot hat
    obtain ⟨call, hdescribes, -⟩ := hconsistent.snapshotAt hat
    constructor
    · intro hrole
      obtain ⟨hne, hstored⟩ := parentRefs_of_derived hdescribes hrole
      obtain ⟨parent, hmem⟩ := List.exists_mem_of_ne_nil _ hne
      obtain ⟨parent_id, -, rfl, -⟩ := hstored parent hmem
      exact ⟨parent_id, snapshot, hat, hmem⟩
    · rintro ⟨parent_id, snapshot', hat', hmem⟩
      cases hat.symm.trans hat'
      by_contra hrole
      rw [parentRefs_of_underived hdescribes (by simpa using hrole)] at hmem
      cases hmem
  have hstored : ∀ parent_id snapshot_id, IsParent files parent_id snapshot_id →
      ∃ parent, snapshotAt files parent_id = .ok parent := by
    rintro parent_id snapshot_id ⟨snapshot, hat, hmem⟩
    cases hgrounded snapshot_id snapshot hat with
    | intro hat' hparents =>
        cases hat.symm.trans hat'
        cases hparents parent_id hmem with
        | intro hparentAt _ => exact ⟨_, hparentAt⟩
  refine ⟨hgrounded.wellFounded, hstored, hparent, ?_⟩
  intro snapshot_id
  induction snapshot_id using hgrounded.wellFounded.induction with
  | h snapshot_id ih =>
      intro snapshot hat
      cases hrole : isDerivedSnapshot snapshot with
      | false => exact ⟨snapshot_id, snapshot, .refl, hat, hrole⟩
      | true =>
          obtain ⟨parent_id, hedge⟩ := (hparent snapshot_id snapshot hat).mp hrole
          obtain ⟨parent, hparentAt⟩ := hstored parent_id snapshot_id hedge
          obtain ⟨origin_id, origin, hpath, hat', horigin⟩ := ih parent_id hedge parent hparentAt
          exact ⟨origin_id, origin, hpath.tail hedge, hat', horigin⟩

end SourceSnapshotStore

end FossilCore
