import FossilCore.Pack.Reading

/-!
# Accepted pack sets

What `validate_pack_fixtures` has established when it accepts the packs: which packs it has read
from which directories, and the checks that each of them has passed.
-/

namespace FossilCore

open Base

variable {sha256 : Sha256} {formats : FormatChecker} {disk : Disk} {roots : List String}

/-! ## The packs -/

/-- A pack as it was read from its directory. -/
structure PackRead (sha256 : Sha256) (formats : FormatChecker) (disk : Disk) (pack_id : String)
    (pack : PackContents) : Prop where
  loaded : _load_json (disk pack.root) pack.root ["manifest.json"] = .ok pack.manifest
  valid : KnowledgePackValidator.validate formats pack.manifest = .ok ()
  named : pack.manifest.get? "pack_id" = some (.str pack_id)
  access : PackAccess.from_manifest pack.manifest = .ok pack.access
  artifacts : _read_artifacts sha256 (disk pack.root) pack.root pack.manifest = .ok pack.artifacts
  snapshots : _read_snapshots sha256 formats (disk pack.root) pack.root pack.artifacts =
    .ok pack.snapshots
  events : _read_events sha256 formats (disk pack.root) pack.root pack.manifest = .ok pack.events

theorem readManifests_ok {manifests : Dict String Json}
    (h : readManifests disk roots = .ok manifests) :
    (∀ root ∈ roots, ∃ manifest, manifests.get? root = some manifest) ∧
      ∀ root manifest, manifests.get? root = some manifest → root ∈ roots ∧
        _load_json (disk root) root ["manifest.json"] = .ok manifest := by
  refine foldlM_induction (fun roots manifests =>
    (∀ root ∈ roots, ∃ manifest, manifests.get? root = some manifest) ∧
      ∀ root manifest, manifests.get? root = some manifest → root ∈ roots ∧
        _load_json (disk root) root ["manifest.json"] = .ok manifest) ?_ ?_ h
  · constructor
    · intro root hroot
      cases hroot
    · intro root manifest hget
      cases hget
  · rintro seen new d d' - ⟨hall, hread⟩ hstep
    obtain ⟨loaded, hload, hset⟩ := bind_eq_ok.mp hstep
    cases hset
    constructor
    · intro root hroot
      rw [Dict.get?_set]
      by_cases heq : new = root
      · exact ⟨loaded, by rw [if_pos heq]⟩
      · rw [if_neg heq]
        rcases List.mem_append.mp hroot with hroot | hroot
        · exact hall root hroot
        · exact absurd (List.mem_singleton.mp hroot).symm heq
    · intro root manifest hget
      rw [Dict.get?_set] at hget
      split_ifs at hget with heq
      · cases hget
        rw [← heq]
        exact ⟨List.mem_append_right _ (List.mem_singleton.mpr rfl), hload⟩
      · obtain ⟨hroot, hmanifest⟩ := hread root manifest hget
        exact ⟨List.mem_append_left _ hroot, hmanifest⟩

/-- One manifest of a set, under its id. -/
def manifestEntry (formats : FormatChecker) (manifest : Json) : Except Error (String × Json) := do
  KnowledgePackValidator.validate formats manifest
  let pack_id ← liftPy (manifest.getItem "pack_id")
  return (pack_id.pyStr, manifest)

theorem addManifest_eq (formats : FormatChecker) : KnowledgePackValidator.addManifest formats =
    Dict.collect (manifestEntry formats) fun pack_id =>
      .packBoundaryError ("duplicate pack_id: " ++ pack_id) := by
  funext by_id manifest
  rw [KnowledgePackValidator.addManifest, Dict.collect, manifestEntry]
  simp only [bind_assoc, pure_bind]

theorem get?_pack_id_of_validate {manifest : Json}
    (h : KnowledgePackValidator.validate formats manifest = .ok ()) :
    manifest.get? "pack_id" = some (.str (textOf manifest "pack_id")) := by
  have hschema := schema_of_validate h
  obtain ⟨fields, rfl⟩ := Schema.isObj_of_type (Schema.allOf_iff.mp hschema _ List.mem_cons_self)
  have hrequired := Schema.allOf_iff.mp hschema (Schema.required ["contract_version", "pack_id",
    "name", "kind", "schema_version", "read_mounts", "write_targets", "event_roots",
    "artifact_manifests"]) (by simp)
  obtain ⟨pack_id, hget⟩ := Schema.get?_of_required hrequired
    (show "pack_id" ∈ _ from by simp)
  have hproperties := Schema.allOf_iff.mp hschema (Schema.properties (knowledgePackProperties formats))
    (by simp)
  have hid : _PACK_ID pack_id = true :=
    Schema.of_properties hproperties (by simp [knowledgePackProperties]) hget
  obtain ⟨text, rfl⟩ := Schema.isStr_of_type (Schema.allOf_iff.mp hid _ List.mem_cons_self)
  rw [textOf_of_get? hget]
  exact hget

theorem manifest_member {manifest : Json} (h : knowledgePackSchema formats manifest = true)
    (key : String) (schema : Schema)
    (hkey : key ∈ ["contract_version", "pack_id", "name", "kind", "schema_version", "read_mounts",
      "write_targets", "event_roots", "artifact_manifests"])
    (hmember : (key, schema) ∈ knowledgePackProperties formats) :
    ∃ w, manifest.get? key = some w ∧ schema w = true := by
  have hparts := Schema.allOf_iff.mp h
  obtain ⟨fields, rfl⟩ := Schema.isObj_of_type (hparts _ List.mem_cons_self)
  have hrequired := hparts (Schema.required ["contract_version", "pack_id", "name", "kind",
    "schema_version", "read_mounts", "write_targets", "event_roots", "artifact_manifests"]) (by simp)
  have hproperties := hparts (Schema.properties (knowledgePackProperties formats)) (by simp)
  obtain ⟨w, hw⟩ := Schema.get?_of_required hrequired hkey
  exact ⟨w, hw, Schema.of_properties hproperties hmember hw⟩

theorem manifest_array {manifest : Json} {schemas : List Schema}
    (h : knowledgePackSchema formats manifest = true) (key : String)
    (hkey : key ∈ ["contract_version", "pack_id", "name", "kind", "schema_version", "read_mounts",
      "write_targets", "event_roots", "artifact_manifests"])
    (hmember : (key, Schema.allOf (Schema.type [.array] :: schemas)) ∈
      knowledgePackProperties formats) :
    ∃ items, manifest.get? key = some (.arr items) := by
  obtain ⟨w, hw, hschema⟩ := manifest_member h key _ hkey hmember
  obtain ⟨items, rfl⟩ := Schema.isArr_of_type (Schema.allOf_iff.mp hschema _ List.mem_cons_self)
  exact ⟨items, hw⟩

theorem from_manifest_of_validate {manifest : Json}
    (h : KnowledgePackValidator.validate formats manifest = .ok ()) :
    ∃ access, PackAccess.from_manifest manifest = .ok access := by
  obtain ⟨reads, hreads⟩ := manifest_array (schema_of_validate h) "read_mounts" (by simp)
    (List.mem_of_getElem? (i := 8) rfl)
  obtain ⟨writes, hwrites⟩ := manifest_array (schema_of_validate h) "write_targets" (by simp)
    (List.mem_of_getElem? (i := 9) rfl)
  unfold PackAccess.from_manifest
  rw [Json.getItem_of_get? (get?_pack_id_of_validate h), Json.getItem_of_get? hreads,
    Json.getItem_of_get? hwrites]
  exact ⟨_, rfl⟩

theorem manifestEntry_ok {manifest : Json} {entry : String × Json}
    (h : manifestEntry formats manifest = .ok entry) :
    KnowledgePackValidator.validate formats manifest = .ok () ∧
      entry = (textOf manifest "pack_id", manifest) := by
  obtain ⟨⟨⟩, hvalid, h⟩ := bind_eq_ok.mp h
  obtain ⟨pack_id, hget, h⟩ := bind_eq_ok.mp h
  cases h
  have hsome := Json.getItem_ok_iff.mp (liftPy_eq_ok.mp hget)
  rw [get?_pack_id_of_validate hvalid] at hsome
  rw [← Option.some.inj hsome]
  exact ⟨hvalid, rfl⟩

theorem validateManifests_ok {manifests : List Json} {by_id : PackCatalog}
    (h : validateManifests formats manifests = .ok by_id) :
    (∀ manifest ∈ manifests, KnowledgePackValidator.validate formats manifest = .ok ()) ∧
      by_id.entries = manifests.map fun manifest => (textOf manifest "pack_id", manifest) := by
  have hset : KnowledgePackValidator.validate_set formats manifests = .ok by_id := by
    rw [validateManifests] at h
    cases hset : KnowledgePackValidator.validate_set formats manifests with
    | ok by_id' =>
        rw [hset] at h
        cases h
        rfl
    | error e =>
        rw [hset] at h
        dsimp only at h
        split_ifs at h
  obtain ⟨by_id', hcatalog, h⟩ := bind_eq_ok.mp hset
  obtain ⟨⟨⟩, -, h⟩ := bind_eq_ok.mp h
  obtain ⟨⟨⟩, -, h⟩ := bind_eq_ok.mp h
  cases h
  rw [KnowledgePackValidator._validate_catalog, addManifest_eq] at hcatalog
  have hentries := Dict.collected_iff.mp hcatalog
  have hread := exists_of_mapM_ok hentries
  have hvalid : ∀ manifest ∈ manifests,
      manifestEntry formats manifest = .ok (textOf manifest "pack_id", manifest) := by
    intro manifest hmanifest
    obtain ⟨entry, -, hentry⟩ := hread manifest hmanifest
    rw [hentry, (manifestEntry_ok hentry).2]
  constructor
  · exact fun manifest hmanifest => (manifestEntry_ok (hvalid manifest hmanifest)).1
  · rw [mapM_of_forall hvalid] at hentries
    exact (Except.ok.inj hentries).symm

/-- The pack of a root, under the id of its manifest. -/
def readEntry (sha256 : Sha256) (formats : FormatChecker) (disk : Disk) (entry : String × Json) :
    Except Error (String × PackContents) := do
  return (textOf entry.2 "pack_id", ← readPack sha256 formats (disk entry.1) entry.1 entry.2)

theorem readEntry_ok {entry : String × Json} {result : String × PackContents}
    (h : readEntry sha256 formats disk entry = .ok result) :
    result.1 = textOf entry.2 "pack_id" ∧
      readPack sha256 formats (disk entry.1) entry.1 entry.2 = .ok result.2 := by
  obtain ⟨pack, hpack, h⟩ := bind_eq_ok.mp h
  cases h
  exact ⟨rfl, hpack⟩

theorem keys_of_readEntries {entries : List (String × Json)} {results : List (String × PackContents)}
    (h : entries.mapM (readEntry sha256 formats disk) = .ok results) :
    results.map Prod.fst = entries.map fun entry => textOf entry.2 "pack_id" := by
  have hforall := mapM_eq_ok.mp h
  clear h
  induction hforall with
  | nil => rfl
  | cons hentry _ ih => rw [List.map_cons, List.map_cons, (readEntry_ok hentry).1, ih]

theorem readPackEntry_of_root {root_by_pack : Dict String String} {pack_id root : String}
    (h : root_by_pack.get? pack_id = some root) (manifest : Json) :
    readPackEntry sha256 formats disk root_by_pack (pack_id, manifest) =
      (do return (pack_id, ← readPack sha256 formats (disk root) root manifest)) := by
  unfold readPackEntry
  simp only [h]

/-- The roots of the packs, for manifests with ids of their own. -/
theorem rootsByPack_entries {manifests : Dict String Json}
    (h : (manifests.values.map fun manifest => textOf manifest "pack_id").Nodup) :
    (rootsByPack manifests).entries =
      manifests.entries.map fun entry => (textOf entry.2 "pack_id", entry.1) := by
  have hnodup : ((manifests.entries.map fun entry =>
      (textOf entry.2 "pack_id", entry.1)).map Prod.fst).Nodup := by
    rw [List.map_map]
    rw [Dict.values, List.map_map] at h
    exact h
  exact congrArg Dict.entries (Dict.ofPairs_entries ⟨_, hnodup⟩)

theorem nodup_of_validateManifests {manifests : List Json} {by_id : PackCatalog}
    (h : validateManifests formats manifests = .ok by_id) :
    (manifests.map fun manifest => textOf manifest "pack_id").Nodup := by
  have hkeys := by_id.nodup
  rw [(validateManifests_ok h).2, List.map_map] at hkeys
  exact hkeys

/-- The packs of a valid set of manifests are read in the order of the roots. -/
theorem readPacks_eq {manifests : Dict String Json} {by_id : PackCatalog} (hroots : roots ≠ [])
    (hmanifests : readManifests disk roots = .ok manifests)
    (hset : validateManifests formats manifests.values = .ok by_id) :
    readPacks sha256 formats disk roots = (do
      let packs ← manifests.entries.mapM (readEntry sha256 formats disk)
      return .ofPairs packs) := by
  have hentries : by_id.entries =
      manifests.entries.map fun entry => (textOf entry.2 "pack_id", entry.2) := by
    rw [(validateManifests_ok hset).2, Dict.values, List.map_map]
    rfl
  have hroot := rootsByPack_entries (nodup_of_validateManifests hset)
  have hsame : (rootsByPack manifests).keys = by_id.keys := by
    rw [Dict.keys, Dict.keys, hroot, hentries, List.map_map, List.map_map]
    rfl
  have hread : ∀ entry ∈ manifests.entries, readPackEntry sha256 formats disk
      (rootsByPack manifests) (textOf entry.2 "pack_id", entry.2) =
        readEntry sha256 formats disk entry := by
    intro entry hentry
    refine readPackEntry_of_root (Dict.mem_entries_iff.mp ?_) entry.2
    rw [hroot]
    exact List.mem_map_of_mem hentry
  unfold readPacks
  rw [if_neg hroots, hmanifests]
  change (validateManifests formats manifests.values >>= _) = _
  rw [hset]
  change (if _ then _ else _) = _
  rw [if_neg (by simp [hsame]), hentries, List.mapM_map]
  congr 1
  exact mapM_congr hread

theorem readPack_ok {root : String} {manifest : Json} {pack : PackContents}
    (hload : _load_json (disk root) root ["manifest.json"] = .ok manifest)
    (hvalid : KnowledgePackValidator.validate formats manifest = .ok ())
    (h : readPack sha256 formats (disk root) root manifest = .ok pack) :
    pack.root = root ∧ pack.manifest = manifest ∧
      PackRead sha256 formats disk (textOf manifest "pack_id") pack := by
  obtain ⟨artifacts, hartifacts, h⟩ := bind_eq_ok.mp h
  obtain ⟨snapshots, hsnapshots, h⟩ := bind_eq_ok.mp h
  obtain ⟨events, hevents, h⟩ := bind_eq_ok.mp h
  obtain ⟨access, haccess, h⟩ := bind_eq_ok.mp h
  cases h
  exact ⟨rfl, rfl, hload, hvalid, get?_pack_id_of_validate hvalid, haccess, hartifacts,
    hsnapshots, hevents⟩

/-- The packs that were read are those of the roots. -/
theorem readPacks_ok {packs : Dict String PackContents}
    (h : readPacks sha256 formats disk roots = .ok packs) :
    (∀ root ∈ roots, ∃ pack_id pack, packs.get? pack_id = some pack ∧ pack.root = root) ∧
      ∀ pack_id pack, packs.get? pack_id = some pack →
        pack.root ∈ roots ∧ PackRead sha256 formats disk pack_id pack := by
  have hsteps := h
  rw [readPacks] at hsteps
  split_ifs at hsteps with hroots
  obtain ⟨manifests, hmanifests, hsteps⟩ := bind_eq_ok.mp hsteps
  obtain ⟨by_id, hset, -⟩ := bind_eq_ok.mp hsteps
  rw [readPacks_eq hroots hmanifests hset] at h
  obtain ⟨entries, hentries, h⟩ := bind_eq_ok.mp h
  cases h
  obtain ⟨hall, hloaded⟩ := readManifests_ok hmanifests
  have hvalid := (validateManifests_ok hset).1
  have hread : ∀ entry ∈ manifests.entries, ∀ result,
      readEntry sha256 formats disk entry = .ok result →
        result.2.root = entry.1 ∧ PackRead sha256 formats disk result.1 result.2 := by
    intro entry hentry result hresult
    have hget := Dict.mem_entries_iff.mp hentry
    obtain ⟨hid, hpack⟩ := readEntry_ok hresult
    obtain ⟨hsame, -, hpackread⟩ := readPack_ok (hloaded entry.1 entry.2 hget).2
      (hvalid entry.2 (Dict.mem_values_iff.mpr ⟨entry.1, hget⟩)) hpack
    rw [hid]
    exact ⟨hsame, hpackread⟩
  have hkeys : (entries.map Prod.fst).Nodup := by
    rw [keys_of_readEntries hentries]
    have hids := nodup_of_validateManifests hset
    rw [Dict.values, List.map_map] at hids
    exact hids
  constructor
  · intro root hroot
    obtain ⟨manifest, hget⟩ := hall root hroot
    have hentry : (root, manifest) ∈ manifests.entries := Dict.mem_entries_iff.mpr hget
    obtain ⟨result, hin, hresult⟩ := exists_of_mapM_ok hentries _ hentry
    exact ⟨result.1, result.2, (Dict.get?_ofPairs_iff hkeys).mpr hin,
      (hread _ hentry result hresult).1⟩
  · intro pack_id pack hget
    obtain ⟨entry, hentry, hresult⟩ :=
      exists_of_mem_mapM hentries _ ((Dict.get?_ofPairs_iff hkeys).mp hget)
    obtain ⟨hroot, hpackread⟩ := hread entry hentry _ hresult
    refine ⟨?_, hpackread⟩
    rw [hroot]
    exact (hloaded entry.1 entry.2 (Dict.mem_entries_iff.mp hentry)).1

/-! ## The checks across the packs -/

/-- What the audit of the packs has established: the packs and the index of their identifiers. -/
structure Audited (sha256 : Sha256) (formats : FormatChecker) (disk : Disk) (roots : List String)
    (packs : Dict String PackContents) (index : PackIndex) : Prop where
  read : readPacks sha256 formats disk roots = .ok packs
  indexed : packs.entries.foldlM indexPack .empty = .ok index
  events : sharedIds index.event_owners = []
  claims : sharedIds index.claim_owners = []
  relations : sharedIds index.relation_owners = []
  audited : ∀ entry ∈ packs.entries, ∃ cited, auditPack sha256 disk packs index entry = .ok cited

theorem requireUnshared_ok {kind : String} {index : Owners} :
    requireUnshared kind index = .ok () ↔ sharedIds index = [] := by
  rw [requireUnshared]
  split_ifs with h <;> simp [h]

/-- The packs are accepted exactly when they can be read and pass every check across them. -/
theorem validate_pack_fixtures_ok_iff :
    (∃ audit, validate_pack_fixtures sha256 formats disk roots = .ok audit) ↔
      ∃ packs index, Audited sha256 formats disk roots packs index := by
  constructor
  · rintro ⟨audit, h⟩
    obtain ⟨packs, hread, h⟩ := bind_eq_ok.mp h
    obtain ⟨index, hindex, h⟩ := bind_eq_ok.mp h
    obtain ⟨⟨⟩, hevents, h⟩ := bind_eq_ok.mp h
    obtain ⟨⟨⟩, hclaims, h⟩ := bind_eq_ok.mp h
    obtain ⟨⟨⟩, hrelations, h⟩ := bind_eq_ok.mp h
    obtain ⟨citations, hcitations, -⟩ := bind_eq_ok.mp h
    refine ⟨packs, index, hread, hindex, requireUnshared_ok.mp hevents,
      requireUnshared_ok.mp hclaims, requireUnshared_ok.mp hrelations, ?_⟩
    intro entry hentry
    obtain ⟨cited, -, hcited⟩ := exists_of_mapM_ok hcitations entry hentry
    exact ⟨cited, hcited⟩
  · rintro ⟨packs, index, h⟩
    obtain ⟨citations, hcitations⟩ := mapM_ok_of_forall h.audited
    rw [validate_pack_fixtures, h.read]
    show ∃ audit, auditPacks sha256 disk packs = .ok audit
    rw [auditPacks, h.indexed]
    simp only [bind, Except.bind, requireUnshared_ok.mpr h.events,
      requireUnshared_ok.mpr h.claims, requireUnshared_ok.mpr h.relations, hcitations]
    exact ⟨_, rfl⟩

theorem auditPack_ok_iff {packs : Dict String PackContents} {index : PackIndex}
    {entry : String × PackContents} :
    (∃ cited, auditPack sha256 disk packs index entry = .ok cited) ↔
      (∀ snapshot ∈ entry.2.snapshots.values,
        auditSnapshot index entry.2.access snapshot = .ok ()) ∧
      (∀ event ∈ entry.2.events, ∃ cited,
        auditEvent sha256 disk packs index entry.2.access event = .ok cited) ∧
      auditReplay entry.1 entry.2.events = .ok () := by
  constructor
  · rintro ⟨cited, h⟩
    obtain ⟨⟨⟩, hsnapshots, h⟩ := bind_eq_ok.mp h
    obtain ⟨citations, hevents, h⟩ := bind_eq_ok.mp h
    obtain ⟨⟨⟩, hreplay, -⟩ := bind_eq_ok.mp h
    refine ⟨forM_ok_iff.mp hsnapshots, ?_, hreplay⟩
    intro event hevent
    obtain ⟨cited', -, hcited⟩ := exists_of_mapM_ok hevents event hevent
    exact ⟨cited', hcited⟩
  · rintro ⟨hsnapshots, hevents, hreplay⟩
    obtain ⟨citations, hcitations⟩ := mapM_ok_of_forall hevents
    rw [auditPack, forM_ok_iff.mpr hsnapshots]
    simp only [bind, Except.bind, hcitations, hreplay]
    exact ⟨_, rfl⟩

theorem auditReplay_ok_iff {pack_id : String} {events : List Json} :
    auditReplay pack_id events = .ok () ↔
      ∃ ordered state, ordered_events events = .ok ordered ∧
        KnowledgeState.replay ordered = .ok state := by
  rw [auditReplay, bind_eq_ok]
  constructor
  · rintro ⟨ordered, hordered, h⟩
    cases hreplay : KnowledgeState.replay ordered with
    | ok state => exact ⟨ordered, state, hordered, hreplay⟩
    | error e =>
        simp only [hreplay] at h
        split_ifs at h
  · rintro ⟨ordered, state, hordered, hreplay⟩
    exact ⟨ordered, hordered, by simp [hreplay]⟩

theorem Audited.pack {packs : Dict String PackContents} {index : PackIndex}
    (h : Audited sha256 formats disk roots packs index) {pack_id : String} {pack : PackContents}
    (hget : packs.get? pack_id = some pack) :
    pack.root ∈ roots ∧ PackRead sha256 formats disk pack_id pack :=
  (readPacks_ok h.read).2 pack_id pack hget

theorem Audited.checked {packs : Dict String PackContents} {index : PackIndex}
    (h : Audited sha256 formats disk roots packs index) {pack_id : String} {pack : PackContents}
    (hget : packs.get? pack_id = some pack) :
    (∀ snapshot ∈ pack.snapshots.values, auditSnapshot index pack.access snapshot = .ok ()) ∧
      (∀ event ∈ pack.events, ∃ cited,
        auditEvent sha256 disk packs index pack.access event = .ok cited) ∧
      auditReplay pack_id pack.events = .ok () :=
  auditPack_ok_iff.mp (h.audited (pack_id, pack) (Dict.mem_entries_iff.mpr hget))

/-! ## Packs that depend on no other -/

theorem wellFormedMounts_of_independent {catalog : PackCatalog}
    (hids : ∀ pack_id manifest, catalog.get? pack_id = some manifest →
      manifest.get? "pack_id" = some (.str pack_id))
    (hindependent : ∀ manifest ∈ catalog.values, declaredDependencies manifest = []) :
    WellFormedMounts catalog := by
  have hnone : ∀ pack_id manifest, catalog.get? pack_id = some manifest →
      declaredDependencies manifest = [] := fun pack_id manifest hget =>
    hindependent manifest (Dict.mem_values_iff.mpr ⟨pack_id, hget⟩)
  have hedge : ∀ source target, ¬ MountEdge catalog source target := by
    rintro source target ⟨manifest, hget, ⟨dependency, hdependency, -⟩, -⟩
    rw [hnone source manifest hget] at hdependency
    cases hdependency
  constructor
  · exact hids
  · intro pack_id manifest hget
    rw [hnone pack_id manifest hget]
    exact List.nodup_nil
  · intro pack_id manifest hget dependency hdependency
    rw [hnone pack_id manifest hget] at hdependency
    cases hdependency
  · intro source target manifest manifest' h
    exact absurd h (hedge source target)
  · intro pack_id h
    obtain ⟨target, hstep, -⟩ := Relation.TransGen.head'_iff.mp h
    exact hedge pack_id target hstep

/-- The catalog of a set of manifests. -/
def catalogOf (manifests : List Json) : PackCatalog :=
  .ofPairs (manifests.map fun manifest => (textOf manifest "pack_id", manifest))

theorem entries_catalogOf {manifests : List Json}
    (h : (manifests.map fun manifest => textOf manifest "pack_id").Nodup) :
    (catalogOf manifests).entries =
      manifests.map fun manifest => (textOf manifest "pack_id", manifest) := by
  have hnodup : ((manifests.map fun manifest => (textOf manifest "pack_id", manifest)).map
      Prod.fst).Nodup := by
    rw [List.map_map]
    exact h
  exact congrArg Dict.entries (Dict.ofPairs_entries ⟨_, hnodup⟩)

theorem validateManifests_of_independent {manifests : List Json}
    (hvalid : ∀ manifest ∈ manifests, KnowledgePackValidator.validate formats manifest = .ok ())
    (hids : (manifests.map fun manifest => textOf manifest "pack_id").Nodup)
    (hindependent : ∀ manifest ∈ manifests,
      (manifest.get? "dependencies").getD (.arr []) = .arr []) :
    validateManifests formats manifests = .ok (catalogOf manifests) := by
  have hmanifestEntry : ∀ manifest ∈ manifests,
      manifestEntry formats manifest = .ok (textOf manifest "pack_id", manifest) := by
    intro manifest hmanifest
    have hget := Json.getItem_of_get? (get?_pack_id_of_validate (hvalid manifest hmanifest))
    rw [manifestEntry, hvalid manifest hmanifest, hget]
    rfl
  have hcatalog : KnowledgePackValidator._validate_catalog formats manifests =
      .ok (catalogOf manifests) := by
    rw [KnowledgePackValidator._validate_catalog, addManifest_eq, Dict.collected_iff,
      entries_catalogOf hids]
    exact mapM_of_forall hmanifestEntry
  have hvalues : ∀ manifest ∈ (catalogOf manifests).values, manifest ∈ manifests := by
    intro manifest hmanifest
    rw [Dict.values, entries_catalogOf hids, List.map_map] at hmanifest
    obtain ⟨other, hother, rfl⟩ := List.mem_map.mp hmanifest
    exact hother
  have hgraph : validate_pack_dependency_graph (catalogOf manifests) = .ok () := by
    rw [graph_ok_iff fun manifest hmanifest =>
      isManifest_of_validate (hvalid manifest (hvalues manifest hmanifest))]
    apply wellFormedMounts_of_independent
    · intro pack_id manifest hget
      have hmem := Dict.mem_entries_iff.mpr hget
      rw [entries_catalogOf hids] at hmem
      obtain ⟨other, hother, heq⟩ := List.mem_map.mp hmem
      obtain ⟨rfl, rfl⟩ := Prod.mk.inj heq
      exact get?_pack_id_of_validate (hvalid other hother)
    · intro manifest hmanifest
      rw [declaredDependencies, hindependent manifest (hvalues manifest hmanifest)]
      rfl
  have havailable : ((catalogOf manifests).values.forM fun manifest =>
      ((manifest.get? "dependencies").getD (.arr [])).items.forM
        (KnowledgePackValidator.requireAvailable (catalogOf manifests))) = .ok () := by
    rw [forM_ok_iff]
    intro manifest hmanifest
    rw [hindependent manifest (hvalues manifest hmanifest)]
    rfl
  rw [validateManifests, KnowledgePackValidator.validate_set, hcatalog]
  simp only [bind, Except.bind, havailable, hgraph]
  rfl

/-- Packs of a valid set of manifests are accepted when each is read and passes. -/
theorem audited_of_read {manifests : Dict String Json} {by_id : PackCatalog}
    {entries : List (String × PackContents)} {index : PackIndex} (hroots : roots ≠ [])
    (hmanifests : readManifests disk roots = .ok manifests)
    (hset : validateManifests formats manifests.values = .ok by_id)
    (hread : manifests.entries.mapM (readEntry sha256 formats disk) = .ok entries)
    (hindex : entries.foldlM indexPack .empty = .ok index)
    (hevents : sharedIds index.event_owners = []) (hclaims : sharedIds index.claim_owners = [])
    (hrelations : sharedIds index.relation_owners = [])
    (haudited : ∀ entry ∈ entries,
      (∀ snapshot ∈ entry.2.snapshots.values,
        auditSnapshot index entry.2.access snapshot = .ok ()) ∧
      (∀ event ∈ entry.2.events, ∃ cited,
        auditEvent sha256 disk (.ofPairs entries) index entry.2.access event = .ok cited) ∧
      auditReplay entry.1 entry.2.events = .ok ()) :
    Audited sha256 formats disk roots (.ofPairs entries) index := by
  have hkeys : (entries.map Prod.fst).Nodup := by
    rw [keys_of_readEntries hread]
    have hids := nodup_of_validateManifests hset
    rw [Dict.values, List.map_map] at hids
    exact hids
  have hofPairs : (Dict.ofPairs entries).entries = entries :=
    congrArg Dict.entries (Dict.ofPairs_entries ⟨entries, hkeys⟩)
  refine ⟨?_, ?_, hevents, hclaims, hrelations, ?_⟩
  · rw [readPacks_eq hroots hmanifests hset, hread]
    rfl
  · rw [hofPairs]
    exact hindex
  · rw [hofPairs]
    exact fun entry hentry => auditPack_ok_iff.mpr (haudited entry hentry)

end FossilCore
