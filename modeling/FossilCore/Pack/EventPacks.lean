import FossilCore.Pack.Audited

/-!
# Packs of events

Pack directories with a manifest and events alone, each document at its place and in canonical
form: what the auditor reads of them.
-/

namespace FossilCore

open Base

/-- A manifest and the events of one event root, in the order of their paths. -/
structure EventPack where
  manifest : Json
  events : List Json

namespace EventPack

def pathOf (event : Json) : Path := eventPathIn ["events"] (textOf event "event_id")

def files (pack : EventPack) : Files :=
  pack.events.foldr (fun event files => files.insert (pathOf event) event.canonical)
    ((∅ : Files).insert ["manifest.json"] pack.manifest.canonical)

def directory (pack : EventPack) : Directory := ⟨pack.files, [["events"]]⟩

def pack_id (pack : EventPack) : String := textOf pack.manifest "pack_id"

/-- `PackAccess.from_manifest` of a manifest that has its members. -/
def access (pack : EventPack) : PackAccess :=
  ⟨pack.pack_id, textSet ((pack.manifest.get? "read_mounts").getD .null),
    textSet ((pack.manifest.get? "write_targets").getD .null)⟩

def contents (root : String) (pack : EventPack) : PackContents :=
  ⟨root, pack.manifest, pack.access, .empty, .empty, pack.events⟩

/-- The documents pass the checks that a reader makes of each of them. -/
structure Sound (formats : FormatChecker) (pack : EventPack) : Prop where
  manifest_wf : pack.manifest.WF
  valid : KnowledgePackValidator.validate formats pack.manifest = .ok ()
  unindexed : pack.manifest.get? "artifact_manifests" = some (.arr [])
  rooted : pack.manifest.get? "event_roots" = some (.arr [.str "events"])
  writable : pack.pack_id ∈ pack.access.write_targets
  ordered : (pack.events.map pathOf).Pairwise fun a b => compare a b = .lt
  events_wf : ∀ event ∈ pack.events, event.WF
  accepted : ∀ event ∈ pack.events, eventSchema formats event = true
  owned : ∀ event ∈ pack.events, event.get? "pack_id" = some (.str pack.pack_id)
  unkeyed : ∀ event ∈ pack.events, ((event.get? "idempotency_key").getD .null).truthy = false

variable {sha256 : Sha256} {formats : FormatChecker} {pack : EventPack} {root : String}

/-! ## Files -/

theorem pathOf_ne (event : Json) : pathOf event ≠ ["manifest.json"] := by
  simp [pathOf, eventPathIn]

theorem get?_foldr (files : Files) (events : List Json) (path : Path) :
    (events.foldr (fun event files => files.insert (pathOf event) event.canonical) files)[path]? =
      match events.find? fun event => pathOf event = path with
      | some event => some event.canonical
      | none => files[path]? := by
  induction events with
  | nil => rfl
  | cons event events ih =>
      rw [List.foldr_cons, KeyMap.get?_insert, List.find?_cons]
      by_cases h : pathOf event = path
      · simp [h]
      · rw [if_neg h, ih]
        simp [h]

theorem mem_files {path : Path} {data : ByteArray} (h : pack.files[path]? = some data) :
    (path = ["manifest.json"] ∧ data = pack.manifest.canonical) ∨
      ∃ event ∈ pack.events, path = pathOf event ∧ data = event.canonical := by
  rw [files, get?_foldr] at h
  split at h
  · next event hfind =>
    refine Or.inr ⟨event, List.mem_of_find?_eq_some hfind, ?_, (Option.some.inj h).symm⟩
    have heq := List.find?_some hfind
    exact (of_decide_eq_true heq).symm
  · rw [KeyMap.get?_insert] at h
    split_ifs at h with heq
    · exact Or.inl ⟨heq.symm, (Option.some.inj h).symm⟩
    · simp at h

theorem get?_manifest : pack.files[(["manifest.json"] : Path)]? = some pack.manifest.canonical := by
  rw [files, get?_foldr]
  have hnone : (pack.events.find? fun event => pathOf event = ["manifest.json"]) = none := by
    rw [List.find?_eq_none]
    exact fun event _ => by simpa using pathOf_ne event
  rw [hnone, KeyMap.get?_insert_self]

theorem Sound.nodup (h : pack.Sound formats) : (pack.events.map pathOf).Nodup := by
  refine h.ordered.imp ?_
  rintro a b hlt rfl
  have hself : compare a a = .eq := Std.ReflCmp.compare_self
  rw [hself] at hlt
  cases hlt

theorem Sound.get?_event (h : pack.Sound formats) {event : Json} (hevent : event ∈ pack.events) :
    pack.files[pathOf event]? = some event.canonical := by
  rw [files, get?_foldr]
  have hfind : (pack.events.find? fun other => pathOf other = pathOf event) = some event := by
    cases hother : pack.events.find? fun other => pathOf other = pathOf event with
    | none =>
        rw [List.find?_eq_none] at hother
        exact absurd (decide_eq_true rfl) (hother event hevent)
    | some other =>
        have heq : pathOf other = pathOf event := by simpa using List.find?_some hother
        have hmem := List.mem_of_find?_eq_some hother
        rw [List.inj_on_of_nodup_map h.nodup hmem hevent heq]
  rw [hfind]

theorem Sound.load_manifest (h : pack.Sound formats) (root : String) :
    _load_json pack.directory root ["manifest.json"] = .ok pack.manifest := by
  refine load_json_ok_iff.mpr ⟨_, get?_manifest, Json.loadText_canonical h.manifest_wf, ?_⟩
  obtain ⟨fields, hobj⟩ :=
    Schema.isObj_of_type (Schema.allOf_iff.mp (schema_of_validate h.valid) _ List.mem_cons_self)
  rw [hobj]
  rfl

theorem Sound.load_event (h : pack.Sound formats) {event : Json} (hevent : event ∈ pack.events)
    (root : String) : _load_json pack.directory root (pathOf event) = .ok event := by
  refine load_json_ok_iff.mpr ⟨_, h.get?_event hevent,
    Json.loadText_canonical (h.events_wf event hevent), ?_⟩
  obtain ⟨fields, rfl⟩ := isObj_of_envelope (h.accepted event hevent)
  rfl

theorem isGlobbed_pathOf (event : Json) : isGlobbed ["events"] (pathOf event) = true := by
  simp [isGlobbed, pathOf, eventPathIn, fileName, Text.endsWith_append]

theorem glob_ne_nil {dir path : Path} (h : path ∈ pack.directory.glob dir) :
    ∃ event ∈ pack.events, path = pathOf event ∧ isGlobbed dir path = true := by
  obtain ⟨⟨data, hdata⟩, hglobbed⟩ := mem_glob_iff.mp h
  rcases mem_files hdata with ⟨rfl, -⟩ | ⟨event, hevent, rfl, -⟩
  · obtain ⟨shard, name, heq⟩ := eq_of_isGlobbed hglobbed
    have hlength := congrArg List.length heq
    rw [List.length_append] at hlength
    simp at hlength
  · exact ⟨event, hevent, rfl, hglobbed⟩

theorem glob_artifacts : pack.directory.glob ["artifacts", "manifests"] = [] := by
  rw [List.eq_nil_iff_forall_not_mem]
  intro path hpath
  obtain ⟨event, -, rfl, hglobbed⟩ := glob_ne_nil hpath
  simp [isGlobbed, pathOf, eventPathIn] at hglobbed

theorem glob_snapshots : pack.directory.glob ["sources", "snapshots"] = [] := by
  rw [List.eq_nil_iff_forall_not_mem]
  intro path hpath
  obtain ⟨event, -, rfl, hglobbed⟩ := glob_ne_nil hpath
  simp [isGlobbed, pathOf, eventPathIn] at hglobbed

/-- The event files come in the order of the events. -/
theorem Sound.glob_events (h : pack.Sound formats) :
    pack.directory.glob ["events"] = pack.events.map pathOf := by
  have hsorted : (pack.directory.glob ["events"]).Pairwise fun a b => compare a b = .lt :=
    Std.ExtTreeMap.ordered_keys.filter _
  refine List.Perm.eq_of_pairwise ?_ hsorted h.ordered ?_
  · intro a b _ _ hab hba
    have hswap : compare a b = (compare b a).swap := Std.OrientedCmp.eq_swap
    rw [hswap, hba] at hab
    cases hab
  · refine (List.perm_ext_iff_of_nodup (List.Nodup.filter _ Std.ExtTreeMap.nodup_keys)
      h.nodup).mpr ?_
    intro path
    change path ∈ pack.directory.glob ["events"] ↔ _
    constructor
    · intro hpath
      obtain ⟨event, hevent, rfl, -⟩ := glob_ne_nil hpath
      exact List.mem_map_of_mem hevent
    · intro hpath
      obtain ⟨event, hevent, rfl⟩ := List.mem_map.mp hpath
      exact mem_glob_iff.mpr ⟨⟨_, h.get?_event hevent⟩, isGlobbed_pathOf event⟩

/-! ## Reading -/

theorem Sound.from_manifest (h : pack.Sound formats) :
    PackAccess.from_manifest pack.manifest = .ok pack.access := by
  obtain ⟨reads, hreads⟩ := manifest_array (schema_of_validate h.valid) "read_mounts" (by simp)
    (List.mem_of_getElem? (i := 8) rfl)
  obtain ⟨writes, hwrites⟩ := manifest_array (schema_of_validate h.valid) "write_targets" (by simp)
    (List.mem_of_getElem? (i := 9) rfl)
  unfold PackAccess.from_manifest access
  rw [Json.getItem_of_get? (get?_pack_id_of_validate h.valid), Json.getItem_of_get? hreads,
    Json.getItem_of_get? hwrites, hreads, hwrites]
  rfl

theorem Sound.read_artifacts (h : pack.Sound formats) :
    _read_artifacts sha256 pack.directory root pack.manifest = .ok .empty := by
  unfold _read_artifacts
  rw [glob_artifacts, h.unindexed]
  rfl

theorem read_snapshots (artifacts : Dict String Json) :
    _read_snapshots sha256 formats pack.directory root artifacts = .ok .empty := by
  unfold _read_snapshots
  rw [glob_snapshots]
  rfl

theorem Sound.read_event (h : pack.Sound formats) {event : Json} (hevent : event ∈ pack.events)
    {events : List Json} (hfresh : textOf event "event_id" ∉
      events.map fun event => textOf event "event_id") :
    readEvent sha256 formats pack.directory root pack.access pack.pack_id ["events"] events
      (pathOf event) = .ok (events ++ [event]) := by
  have hid : checkEventId sha256 pack.pack_id (textOf event "event_id")
      ((event.get? "idempotency_key").getD .null) = .ok () := by
    unfold checkEventId
    rw [if_neg]
    rw [h.unkeyed event hevent]
    exact fun hboth => Bool.false_ne_true hboth.1
  unfold readEvent
  rw [h.load_event hevent]
  refine bind_eq_ok.mpr ⟨event, rfl, bind_eq_ok.mpr
    ⟨(), validate_schema_ok.mpr (h.accepted event hevent), ?_⟩⟩
  dsimp only
  have hpath : pathOf event = eventPathIn ["events"] (textOf event "event_id") := rfl
  rw [if_neg hfresh, if_neg (not_not.mpr (h.owned event hevent)), if_neg (not_not.mpr h.writable)]
  refine bind_eq_ok.mpr ⟨(), hid, ?_⟩
  rw [if_neg (not_not.mpr hpath)]
  rfl

theorem Sound.read_events (h : pack.Sound formats) :
    _read_events sha256 formats pack.directory root pack.manifest = .ok pack.events := by
  have hids : (pack.events.map fun event => textOf event "event_id").Nodup := by
    have hpaths := h.nodup
    rw [show pathOf = (fun event_id => eventPathIn ["events"] event_id) ∘
      fun event => textOf event "event_id" from rfl, ← List.map_map] at hpaths
    exact List.Nodup.of_map _ hpaths
  have hfold : ∀ before after : List Json, before ++ after = pack.events →
      (after.map pathOf).foldlM (readEvent sha256 formats pack.directory root pack.access
        pack.pack_id ["events"]) before = .ok pack.events := by
    intro before after heq
    induction after generalizing before with
    | nil =>
        rw [← heq, List.append_nil]
        rfl
    | cons event after ih =>
        have hmem : event ∈ pack.events := by
          rw [← heq]
          exact List.mem_append_right _ List.mem_cons_self
        have hfresh : textOf event "event_id" ∉
            before.map fun event => textOf event "event_id" := by
          rw [← heq, List.map_append, List.map_cons] at hids
          intro hin
          exact (List.nodup_append.mp hids).2.2 _ hin _ List.mem_cons_self rfl
        rw [List.map_cons, List.foldlM_cons, h.read_event hmem hfresh]
        exact ih (before ++ [event]) (by rw [← heq, List.append_assoc]; rfl)
  unfold _read_events
  rw [Json.getItem_of_get? (get?_pack_id_of_validate h.valid), h.from_manifest,
    Json.getItem_of_get? h.rooted]
  change [Json.str "events"].foldlM (readEventRoot sha256 formats pack.directory root pack.access
    pack.pack_id) [] = _
  have hroot : readEventRoot sha256 formats pack.directory root pack.access pack.pack_id []
      (.str "events") = .ok pack.events := by
    have hpath : relativePath (Json.str "events").pyStr = ["events"] := by decide
    unfold readEventRoot
    rw [hpath, if_neg (by simp [Directory.is_dir, directory]), h.glob_events]
    exact hfold [] pack.events rfl
  rw [List.foldlM_cons, hroot]
  rfl

theorem Sound.readPack (h : pack.Sound formats) :
    readPack sha256 formats pack.directory root pack.manifest = .ok (pack.contents root) := by
  unfold FossilCore.readPack
  rw [h.read_artifacts]
  simp only [bind, Except.bind, read_snapshots, h.read_events, h.from_manifest]
  rfl

/-! ## Sets of packs -/

variable {disk : Disk} {packs : List (String × EventPack)}

/-- The packs of the roots, under their ids. -/
def contentsOf (packs : List (String × EventPack)) : List (String × PackContents) :=
  packs.map fun entry => (entry.2.pack_id, entry.2.contents entry.1)

theorem readManifests_of_packs (hdisk : ∀ entry ∈ packs, disk entry.1 = entry.2.directory)
    (hsound : ∀ entry ∈ packs, entry.2.Sound formats) (hroots : (packs.map Prod.fst).Nodup) :
    ∃ manifests, readManifests disk (packs.map Prod.fst) = .ok manifests ∧
      manifests.entries = packs.map fun entry => (entry.1, entry.2.manifest) := by
  have hfold : ∀ (before after : List (String × EventPack)) (d : Dict String Json),
      before ++ after = packs →
        d.entries = before.map (fun entry => (entry.1, entry.2.manifest)) →
          ∃ manifests, (after.map Prod.fst).foldlM (fun manifest_by_root root => do
              let manifest ← _load_json (disk root) root ["manifest.json"]
              return manifest_by_root.set root manifest) d = .ok manifests ∧
            manifests.entries = packs.map fun entry => (entry.1, entry.2.manifest) := by
    intro before after d heq hd
    induction after generalizing before d with
    | nil =>
        refine ⟨d, rfl, ?_⟩
        rw [hd, ← heq, List.append_nil]
    | cons entry after ih =>
        have hmem : entry ∈ packs := by
          rw [← heq]
          exact List.mem_append_right _ List.mem_cons_self
        have hfresh : entry.1 ∉ d.keys := by
          rw [← heq, List.map_append, List.map_cons] at hroots
          rw [Dict.keys, hd, List.map_map]
          intro hin
          exact (List.nodup_append.mp hroots).2.2 _ hin _ List.mem_cons_self rfl
        rw [List.map_cons, List.foldlM_cons, hdisk entry hmem, (hsound entry hmem).load_manifest]
        refine ih (before ++ [entry]) (d.set entry.1 entry.2.manifest) ?_ ?_
        · rw [← heq, List.append_assoc]
          rfl
        · rw [Dict.entries_set hfresh, hd, List.map_append]
          rfl
  exact hfold [] packs .empty rfl rfl

/-- Sound packs with a valid set of manifests are accepted when the checks across them pass. -/
theorem audited (hne : packs ≠ []) (hdisk : ∀ entry ∈ packs, disk entry.1 = entry.2.directory)
    (hsound : ∀ entry ∈ packs, entry.2.Sound formats) (hroots : (packs.map Prod.fst).Nodup)
    {by_id : PackCatalog}
    (hset : validateManifests formats (packs.map fun entry => entry.2.manifest) = .ok by_id)
    {index : PackIndex} (hindex : (contentsOf packs).foldlM indexPack .empty = .ok index)
    (hevents : sharedIds index.event_owners = []) (hclaims : sharedIds index.claim_owners = [])
    (hrelations : sharedIds index.relation_owners = [])
    (haudited : ∀ entry ∈ packs,
      (∀ event ∈ entry.2.events, ∃ cited, auditEvent sha256 disk (.ofPairs (contentsOf packs)) index
        entry.2.access event = .ok cited) ∧
      auditReplay entry.2.pack_id entry.2.events = .ok ()) :
    Audited sha256 formats disk (packs.map Prod.fst) (.ofPairs (contentsOf packs)) index := by
  obtain ⟨manifests, hmanifests, hentries⟩ := readManifests_of_packs hdisk hsound hroots
  have hvalues : manifests.values = packs.map fun entry => entry.2.manifest := by
    rw [Dict.values, hentries, List.map_map]
    rfl
  have hread : manifests.entries.mapM (readEntry sha256 formats disk) = .ok (contentsOf packs) := by
    rw [hentries, List.mapM_map]
    apply mapM_of_forall
    intro entry hentry
    unfold readEntry
    dsimp only [Function.comp]
    rw [hdisk entry hentry, (hsound entry hentry).readPack]
    rfl
  refine audited_of_read (by simpa using hne) hmanifests (hvalues ▸ hset) hread hindex hevents hclaims
    hrelations ?_
  intro content hcontent
  obtain ⟨entry, hentry, rfl⟩ := List.mem_map.mp hcontent
  exact ⟨fun snapshot hsnapshot => absurd hsnapshot List.not_mem_nil, haudited entry hentry⟩

end EventPack

end FossilCore
