import FossilCore.Base.FirstFailure
import FossilCore.Source.Audit

/-!
# How the readers of a pack fail

The readers of `pack_fixture.py` on directories whose documents are text: what they refuse, they
refuse with the integrity error, save a snapshot whose locator names nothing.
-/

namespace FossilCore

open Base

def IsIntegrity (e : Error) : Prop := e.cls = .packFixtureIntegrityError

theorem refuses_integrity {α : Type} (message : String) :
    FailsWith IsIntegrity (.error (.packFixtureIntegrityError message) : Except Error α) :=
  FailsWith.error rfl

/-- The documents below a directory, and the indexes that a manifest there may list, are text. -/
structure Readable (directory : Directory) : Prop where
  documents : ∀ (path : Path) data, directory.files[path]? = some data →
    (∃ name, path.getLast? = some name ∧ Text.endsWith name ".json" = true) →
      ∃ text, Json.readText data = .ok text
  indexes : ∀ manifest data listed relative bytes,
    directory.files[["manifest.json"]]? = some data → Json.loadText data = .ok manifest →
      manifest.get? "artifact_manifests" = some (.arr listed) → relative ∈ listed →
        directory.files[relativePath relative.pyStr]? = some bytes →
          ∃ text, Json.readText bytes = .ok text

section Reading

variable {sha256 : Sha256} {formats : FormatChecker} {directory : Directory} {root : String}

/-! ## Documents -/

theorem loads_error {text : String} {exc : PyException} (h : Json.loads text = .error exc) :
    exc = .jsonDecodeError := by
  unfold Json.loads at h
  split at h
  · split_ifs at h
    exact (Except.error.inj h).symm
  · exact (Except.error.inj h).symm

theorem refuses_load_json {path : Path}
    (h : ∀ data, directory.files[path]? = some data → ∃ text, Json.readText data = .ok text) :
    FailsWith IsIntegrity (_load_json directory root path) := by
  unfold _load_json
  split
  · exact refuses_integrity _
  · next data hdata =>
    obtain ⟨text, htext⟩ := h data hdata
    have hload : Json.loadText data = Json.loads text := by
      rw [Json.loadText, htext]
      rfl
    rw [hload]
    split
    · next exc hexc =>
      rw [loads_error hexc, if_pos (by decide)]
      exact refuses_integrity _
    · split_ifs
      · exact FailsWith.ok _
      · exact refuses_integrity _

theorem endsWith_of_mem_glob {dir path : Path} (h : path ∈ directory.glob dir) :
    ∃ name, path.getLast? = some name ∧ Text.endsWith name ".json" = true := by
  obtain ⟨-, hglobbed⟩ := mem_glob_iff.mp h
  unfold isGlobbed at hglobbed
  split at hglobbed
  · rename_i shard name hdrop
    obtain ⟨hstart, hname⟩ := Bool.and_eq_true_iff.mp hglobbed
    obtain ⟨rest, rfl⟩ := List.isPrefixOf_iff_prefix.mp hstart
    rw [List.drop_left] at hdrop
    subst hdrop
    refine ⟨name, by simp, hname⟩
  · cases hglobbed

theorem Readable.refuses_globbed (h : Readable directory) {dir path : Path}
    (hpath : path ∈ directory.glob dir) : FailsWith IsIntegrity (_load_json directory root path) :=
  refuses_load_json fun data hdata => h.documents path data hdata (endsWith_of_mem_glob hpath)

theorem refuses_schema (schema : Schema) (value : Json) (label : String) :
    FailsWith IsIntegrity (_validate_schema schema value label) := by
  unfold _validate_schema
  split
  · exact FailsWith.ok _
  · exact refuses_integrity _

/-! ## Artifacts -/

theorem get?_of_keysAre {value : Json} {keys : List String} (h : keysAre value keys = true)
    (key : String) (hkey : key ∈ keys) : ∃ w, value.get? key = some w := by
  have hall := (Bool.and_eq_true_iff.mp h).2
  exact Option.isSome_iff_exists.mp (List.all_eq_true.mp hall key hkey)

/-- The members that the checks of a manifest's shape have found. -/
structure Shaped (item : Json) : Prop where
  digest : ∃ digest, manifestDigest item = .ok digest
  byte_size : ∃ byte_size, item.get? "byte_size" = some byte_size
  artifact_id : ∃ artifact_id, item.get? "artifact_id" = some artifact_id

theorem shape_cases (item : Json) (label : String) :
    FailsWith IsIntegrity (_artifact_manifest_shape item label) ∧
      (_artifact_manifest_shape item label = .ok () → Shaped item) := by
  unfold _artifact_manifest_shape
  by_cases hkeys : keysAre item ["artifact_id", "content_hash", "byte_size", "media_type"] = true
  swap
  · rw [if_pos (by simpa using hkeys)]
    exact ⟨refuses_integrity _, fun h => nomatch h⟩
  obtain ⟨content_hash, hcontent⟩ := get?_of_keysAre hkeys "content_hash" (by simp)
  obtain ⟨byte_size, hsize⟩ := get?_of_keysAre hkeys "byte_size" (by simp)
  obtain ⟨artifact_id, hid⟩ := get?_of_keysAre hkeys "artifact_id" (by simp)
  rw [if_neg (by simpa using hkeys), Json.getItem_of_get? hcontent, Json.getItem_of_get? hsize]
  change FailsWith IsIntegrity (if _ then _ else _) ∧ ((if _ then _ else _) = _ → _)
  by_cases hhash : (content_hash.isObj && keysAre content_hash ["algorithm", "digest"]) = true
  swap
  · rw [if_pos (by rw [Bool.eq_false_iff.mpr hhash]; rfl)]
    exact ⟨refuses_integrity _, fun h => nomatch h⟩
  rw [if_neg (by rw [hhash]; exact Bool.false_ne_true)]
  obtain ⟨digest, hdigest⟩ := get?_of_keysAre (Bool.and_eq_true_iff.mp hhash).2 "digest" (by simp)
  have hshaped : Shaped item := by
    refine ⟨⟨digest.pyStr, ?_⟩, ⟨byte_size, hsize⟩, ⟨artifact_id, hid⟩⟩
    unfold manifestDigest
    rw [Json.getItem_of_get? hcontent]
    change liftPy (content_hash.getItem "digest" >>= _) = _
    rw [Json.getItem_of_get? hdigest]
    rfl
  refine ⟨?_, fun _ => hshaped⟩
  split_ifs
  · exact refuses_integrity _
  · rw [Json.getItem_of_get? hdigest]
    change FailsWith IsIntegrity (if _ then _ else _)
    split_ifs
    · exact refuses_integrity _
    · change FailsWith IsIntegrity (if _ then _ else _)
      split_ifs
      · exact refuses_integrity _
      · split
        · split_ifs
          · exact refuses_integrity _
          · exact FailsWith.ok _
        · exact refuses_integrity _

theorem refuses_readArtifact (hreadable : Readable directory) {path : Path}
    (hpath : path ∈ directory.glob ["artifacts", "manifests"]) :
    FailsWith IsIntegrity (readArtifact sha256 directory root path) := by
  unfold readArtifact
  refine (hreadable.refuses_globbed hpath).bind fun item _ => ?_
  refine (shape_cases item _).1.bind fun _ hshape => ?_
  obtain ⟨⟨digest, hdigest⟩, ⟨byte_size, hsize⟩, -⟩ := (shape_cases item _).2 hshape
  rw [hdigest, Json.getItem_of_get? hsize]
  change FailsWith IsIntegrity (if _ then _ else if _ then _ else if _ then _ else _)
  split_ifs with hid hplace hfile
  · exact refuses_integrity _
  · exact refuses_integrity _
  · exact refuses_integrity _
  · rw [Bool.not_eq_true, Bool.not_eq_false', Directory.is_file, Option.isSome_iff_exists] at hfile
    obtain ⟨data, hdata⟩ := hfile
    rw [Directory.read_bytes, hdata]
    change FailsWith IsIntegrity (if _ then _ else if _ then _ else _)
    split_ifs
    · exact refuses_integrity _
    · exact refuses_integrity _
    · exact FailsWith.ok _

theorem refuses_indexLine {index_path : Path} {indexed : Dict String Json}
    (numbered : ℕ × String) : FailsWith IsIntegrity (indexLine root index_path indexed numbered) := by
  unfold indexLine
  dsimp only
  split_ifs
  · exact FailsWith.ok _
  · split
    · next exc hexc =>
      rw [loads_error hexc, if_pos (by decide)]
      exact refuses_integrity _
    · next item _ =>
      split_ifs
      · exact refuses_integrity _
      · refine (shape_cases item _).1.bind fun _ hshape => ?_
        obtain ⟨-, -, ⟨artifact_id, hid⟩⟩ := (shape_cases item _).2 hshape
        rw [Json.getItem_of_get? hid]
        change FailsWith IsIntegrity (if _ then _ else _)
        split_ifs
        · exact refuses_integrity _
        · exact FailsWith.ok _

theorem refuses_indexFile {indexed : Dict String Json} {relative : Json}
    (h : ∀ bytes, directory.files[relativePath relative.pyStr]? = some bytes →
      ∃ text, Json.readText bytes = .ok text) :
    FailsWith IsIntegrity (indexFile directory root indexed relative) := by
  unfold indexFile
  dsimp only
  split_ifs with hfile
  · exact refuses_integrity _
  · rw [Bool.not_eq_true, Bool.not_eq_false', Directory.is_file, Option.isSome_iff_exists] at hfile
    obtain ⟨data, hdata⟩ := hfile
    obtain ⟨text, htext⟩ := h data hdata
    rw [Directory.read_bytes, hdata]
    change FailsWith IsIntegrity (liftPy (Json.readText data) >>= _)
    rw [htext]
    exact FailsWith.foldlM fun _ numbered _ => refuses_indexLine numbered

/-- The artifacts of a pack, for a manifest that lists its indexes. -/
theorem refuses_read_artifacts (hreadable : Readable directory) {manifest : Json}
    (hload : _load_json directory root ["manifest.json"] = .ok manifest) {listed : List Json}
    (hlisted : manifest.get? "artifact_manifests" = some (.arr listed)) :
    FailsWith IsIntegrity (_read_artifacts sha256 directory root manifest) := by
  unfold _read_artifacts
  refine FailsWith.bind ?_ fun discovered _ => ?_
  · rw [discoverArtifact_eq]
    refine FailsWith.foldlM fun discovered path hpath => ?_
    refine (refuses_readArtifact hreadable hpath).bind fun entry _ => ?_
    dsimp only
    split_ifs
    · exact refuses_integrity _
    · exact FailsWith.ok _
  · rw [hlisted]
    change FailsWith IsIntegrity (listed.foldlM _ _ >>= _)
    refine FailsWith.bind ?_ fun indexed _ => ?_
    · refine FailsWith.foldlM fun indexed relative hrelative => refuses_indexFile fun bytes hbytes => ?_
      obtain ⟨data, hdata, hloaded, -⟩ := load_json_ok_iff.mp hload
      exact hreadable.indexes manifest data listed relative bytes hdata hloaded hlisted hrelative
        hbytes
    · split_ifs
      · exact refuses_integrity _
      · exact FailsWith.ok _

/-! ## Snapshots -/

theorem snapshot_member {snapshot : Json} (h : snapshotSchema formats snapshot = true) (key : String)
    (schema : Schema) (hmember : (key, schema) ∈ snapshotProperties formats) :
    ∃ w, snapshot.get? key = some w ∧ schema w = true := by
  have hparts := Schema.allOf_iff.mp h
  obtain ⟨fields, rfl⟩ := Schema.isObj_of_type (hparts _ List.mem_cons_self)
  obtain ⟨w, hw⟩ := Schema.get?_of_required
    (hparts (Schema.required ((snapshotProperties formats).map Prod.fst)) (by simp))
    (List.mem_map_of_mem (f := Prod.fst) hmember)
  have hproperties := hparts (Schema.properties (snapshotProperties formats)) (by simp)
  exact ⟨w, hw, Schema.of_properties hproperties hmember hw⟩

/-- The locator of a snapshot has a text that is not blank. -/
def Located (snapshot : Json) : Prop :=
  ∃ key ∈ locatorKeys,
    isNonBlank ((((snapshot.get? "locator").getD .null).get? key).getD .null) = true

theorem normalized_locator_cases (locator : Json) :
    (∃ key ∈ locatorKeys, isNonBlank ((locator.get? key).getD .null) = true) ∧
        (∃ normalized, SourceSnapshotStore.normalized_locator locator = .ok normalized) ∨
      (¬∃ key ∈ locatorKeys, isNonBlank ((locator.get? key).getD .null) = true) ∧
        ∃ message, SourceSnapshotStore.normalized_locator locator = .error (.valueError message) := by
  unfold SourceSnapshotStore.normalized_locator
  dsimp only
  by_cases h : (locatorKeys.any fun key => isNonBlank ((locator.get? key).getD .null)) = true
  · rw [if_neg (by rw [h]; exact Bool.false_ne_true)]
    exact Or.inl ⟨by simpa using h, _, rfl⟩
  · rw [if_pos (by rw [Bool.eq_false_iff.mpr h]; rfl)]
    exact Or.inr ⟨by simpa using h, _, rfl⟩

theorem refuses_source_id_iff (locator : Json) :
    FailsWith IsIntegrity (SourceSnapshotStore.source_id_for_locator sha256 locator) ↔
      ∃ key ∈ locatorKeys, isNonBlank ((locator.get? key).getD .null) = true := by
  unfold SourceSnapshotStore.source_id_for_locator
  rcases normalized_locator_cases locator with ⟨hnamed, normalized, hok⟩ | ⟨hnamed, message, herror⟩
  · rw [hok]
    exact iff_of_true (FailsWith.ok _) hnamed
  · rw [herror]
    refine iff_of_false (fun h => ?_) hnamed
    exact absurd (h _ rfl) (by simp [IsIntegrity, Error.valueError, Error.ofPython])

theorem refuses_checkRole (snapshot_id : String) (role derivation : Json) :
    FailsWith IsIntegrity (checkRole snapshot_id role derivation) := by
  unfold checkRole
  split_ifs
  · exact refuses_integrity _
  · exact FailsWith.ok _
  · exact refuses_integrity _
  · exact FailsWith.ok _

/-- A snapshot at its place that the schema accepts. -/
structure SnapshotPlaced (formats : FormatChecker) (directory : Directory) (root : String) (path : Path)
    (snapshot : Json) : Prop where
  loaded : _load_json directory root path = .ok snapshot
  accepted : snapshotSchema formats snapshot = true
  placed : path = packSnapshotPath (textOf snapshot "snapshot_id")

theorem manifestDigest_of_schema {snapshot : Json} (h : snapshotSchema formats snapshot = true) :
    ∃ digest, manifestDigest snapshot = .ok digest := by
  obtain ⟨content_hash, hget, hschema⟩ := snapshot_member h "content_hash" contentHashSchema
    (by simp [snapshotProperties])
  obtain ⟨digest, hdigest, -⟩ := Schema.member_of_object hschema "digest"
    (Schema.allOf [Schema.type [.string], Schema.pattern isHexDigest]) (by simp) (by simp)
  refine ⟨digest.pyStr, ?_⟩
  unfold manifestDigest
  rw [Json.getItem_of_get? hget]
  change liftPy (content_hash.getItem "digest" >>= _) = _
  rw [Json.getItem_of_get? hdigest]
  rfl

theorem refuses_readSnapshot_iff (hreadable : Readable directory) {artifacts : Dict String Json}
    {path : Path} (hpath : path ∈ directory.glob ["sources", "snapshots"]) :
    FailsWith IsIntegrity (readSnapshot sha256 formats directory root artifacts path) ↔
      ∀ snapshot, SnapshotPlaced formats directory root path snapshot → Located snapshot := by
  unfold readSnapshot
  rw [FailsWith.bind_iff, and_iff_right (hreadable.refuses_globbed hpath)]
  constructor
  · rintro h snapshot ⟨hload, hschema, hplace⟩
    have hrest := h snapshot hload
    rw [FailsWith.bind_ok_iff (validate_schema_ok.mpr hschema)] at hrest
    obtain ⟨locator, hlocator, -⟩ := snapshot_member hschema "locator" _
      (List.mem_of_getElem? (i := 4) rfl)
    dsimp only at hrest
    rw [if_neg (not_not.mpr hplace), Json.getItem_of_get? hlocator,
      FailsWith.bind_ok_iff (liftPy_ok locator), FailsWith.bind_iff, refuses_source_id_iff] at hrest
    rw [Located, hlocator]
    exact hrest.1
  · intro h snapshot hload
    refine (refuses_schema _ _ _).bind fun _ hschema => ?_
    have hschema := validate_schema_ok.mp hschema
    dsimp only
    split_ifs with hplace
    · exact refuses_integrity _
    obtain ⟨locator, hlocator, -⟩ := snapshot_member hschema "locator" _
      (List.mem_of_getElem? (i := 4) rfl)
    have hlocated := h snapshot ⟨hload, hschema, not_not.mp hplace⟩
    rw [Located, hlocator] at hlocated
    rw [Json.getItem_of_get? hlocator, FailsWith.bind_ok_iff (liftPy_ok locator)]
    refine ((refuses_source_id_iff locator).mpr hlocated).bind fun source_id _ => ?_
    split_ifs
    · exact refuses_integrity _
    split
    · exact refuses_integrity _
    · split_ifs
      · exact refuses_integrity _
      obtain ⟨version, hversion, -⟩ := snapshot_member hschema "version_metadata" _
        (List.mem_of_getElem? (i := 9) rfl)
      obtain ⟨digest, hdigest⟩ := manifestDigest_of_schema hschema
      obtain ⟨role, hrole, -⟩ := snapshot_member hschema "source_role" _
        (List.mem_of_getElem? (i := 3) rfl)
      obtain ⟨derivation, hderivation, -⟩ := snapshot_member hschema "derivation" _
        (List.mem_of_getElem? (i := 11) rfl)
      rw [Json.getItem_of_get? hversion, FailsWith.bind_ok_iff (liftPy_ok version),
        FailsWith.bind_ok_iff hdigest]
      split_ifs
      · exact refuses_integrity _
      rw [Json.getItem_of_get? hrole, FailsWith.bind_ok_iff (liftPy_ok role),
        Json.getItem_of_get? hderivation, FailsWith.bind_ok_iff (liftPy_ok derivation)]
      exact (refuses_checkRole _ _ _).bind fun _ _ => FailsWith.ok _

/-- The snapshots of a pack: one that is reached must be located. -/
theorem refuses_read_snapshots_iff (hreadable : Readable directory) {artifacts : Dict String Json} :
    FailsWith IsIntegrity (_read_snapshots sha256 formats directory root artifacts) ↔
      ∀ path snapshots snapshot,
        Reaches (discoverSnapshot sha256 formats directory root artifacts) .empty
            (directory.glob ["sources", "snapshots"]) path snapshots →
          SnapshotPlaced formats directory root path snapshot → Located snapshot := by
  unfold _read_snapshots
  rw [FailsWith.foldlM_iff]
  have hstep : ∀ path ∈ directory.glob ["sources", "snapshots"], ∀ snapshots,
      FailsWith IsIntegrity (discoverSnapshot sha256 formats directory root artifacts snapshots path) ↔
        ∀ snapshot, SnapshotPlaced formats directory root path snapshot → Located snapshot := by
    intro path hpath snapshots
    unfold discoverSnapshot
    rw [FailsWith.bind_iff, refuses_readSnapshot_iff hreadable hpath]
    refine and_iff_left ?_
    intro entry _
    dsimp only
    split_ifs
    · exact refuses_integrity _
    · exact FailsWith.ok _
  constructor
  · intro h path snapshots snapshot hreach
    exact (hstep path hreach.mem snapshots).mp (h path snapshots hreach) snapshot
  · intro h path snapshots hreach
    exact (hstep path hreach.mem snapshots).mpr fun snapshot => h path snapshots snapshot hreach

/-! ## Events -/

theorem refuses_checkEventId (pack_id event_id : String) (idem : Json) :
    FailsWith IsIntegrity (checkEventId sha256 pack_id event_id idem) := by
  unfold checkEventId
  split_ifs
  · exact refuses_integrity _
  · exact FailsWith.ok _

theorem refuses_readEvent (hreadable : Readable directory) {access : PackAccess} {pack_id : String}
    {event_root : Path} {events : List Json} {path : Path}
    (hpath : path ∈ directory.glob event_root) :
    FailsWith IsIntegrity
      (readEvent sha256 formats directory root access pack_id event_root events path) := by
  unfold readEvent
  refine (hreadable.refuses_globbed hpath).bind fun event _ => ?_
  refine (refuses_schema _ _ _).bind fun _ _ => ?_
  dsimp only
  split_ifs
  · exact refuses_integrity _
  · exact refuses_integrity _
  · exact (refuses_checkEventId _ _ _).bind fun _ _ => refuses_integrity _
  · exact (refuses_checkEventId _ _ _).bind fun _ _ => FailsWith.ok _
  · exact refuses_integrity _

theorem refuses_read_events (hreadable : Readable directory) {manifest : Json}
    (h : KnowledgePackValidator.validate formats manifest = .ok ()) :
    FailsWith IsIntegrity (_read_events sha256 formats directory root manifest) := by
  obtain ⟨relatives, hrelatives⟩ := manifest_array (schema_of_validate h) "event_roots" (by simp)
    (List.mem_of_getElem? (i := 10) rfl)
  obtain ⟨access, haccess⟩ := from_manifest_of_validate h
  unfold _read_events
  rw [Json.getItem_of_get? (get?_pack_id_of_validate h), FailsWith.bind_ok_iff (liftPy_ok _),
    FailsWith.bind_ok_iff haccess, Json.getItem_of_get? hrelatives,
    FailsWith.bind_ok_iff (liftPy_ok _)]
  change FailsWith IsIntegrity (relatives.foldlM _ _)
  refine FailsWith.foldlM fun events relative _ => ?_
  unfold readEventRoot
  dsimp only
  split_ifs
  · exact refuses_integrity _
  · exact FailsWith.foldlM fun events path hpath => refuses_readEvent hreadable hpath

/-! ## Packs -/

/-- The snapshots of a directory that its reader reaches name what they are snapshots of. -/
def SnapshotsLocated (sha256 : Sha256) (formats : FormatChecker) (directory : Directory)
    (root : String) (manifest : Json) : Prop :=
  ∀ artifacts, _read_artifacts sha256 directory root manifest = .ok artifacts →
    ∀ path snapshots snapshot,
      Reaches (discoverSnapshot sha256 formats directory root artifacts) .empty
          (directory.glob ["sources", "snapshots"]) path snapshots →
        SnapshotPlaced formats directory root path snapshot → Located snapshot

theorem refuses_readPack_iff (hreadable : Readable directory) {manifest : Json}
    (hload : _load_json directory root ["manifest.json"] = .ok manifest)
    (h : KnowledgePackValidator.validate formats manifest = .ok ()) :
    FailsWith IsIntegrity (readPack sha256 formats directory root manifest) ↔
      SnapshotsLocated sha256 formats directory root manifest := by
  obtain ⟨listed, hlisted⟩ := manifest_array (schema_of_validate h) "artifact_manifests" (by simp)
    (List.mem_of_getElem? (i := 11) rfl)
  obtain ⟨access, haccess⟩ := from_manifest_of_validate h
  unfold readPack SnapshotsLocated
  rw [FailsWith.bind_iff, and_iff_right (refuses_read_artifacts hreadable hload hlisted)]
  apply forall₂_congr
  intro artifacts _
  rw [FailsWith.bind_iff, refuses_read_snapshots_iff hreadable]
  refine and_iff_left ?_
  intro snapshots _
  refine (refuses_read_events hreadable h).bind fun events _ => ?_
  rw [FailsWith.bind_ok_iff haccess]
  exact FailsWith.ok _

end Reading

/-! ## Manifest sets -/

section Sets

variable {sha256 : Sha256} {formats : FormatChecker} {disk : Disk} {roots : List String}

/-- A manifest, or a set of manifests, is rejected. -/
def IsRejection (e : Error) : Prop := e.cls = .validationError ∨ e.cls = .packBoundaryError

theorem rejects_validateSchema (schema : Schema) (value : Json) :
    FailsWith IsRejection (validateSchema schema value) := by
  unfold validateSchema
  split_ifs
  · exact FailsWith.ok _
  · exact FailsWith.error (Or.inl rfl)

theorem rejects_requireMount {manifest dependency : Json}
    (hreads : ∃ reads, manifest.get? "read_mounts" = some reads)
    (hdependency : dependencySchema dependency = true) :
    FailsWith IsRejection (validateRequiredMount manifest dependency) := by
  obtain ⟨reads, hreads⟩ := hreads
  obtain ⟨required, hrequired, -⟩ := Schema.member_of_object hdependency "required"
    (Schema.type [.boolean]) (by simp) (by simp)
  obtain ⟨target, htarget, -⟩ := Schema.member_of_object hdependency "pack_id" _PACK_ID
    (by simp) (by simp)
  unfold validateRequiredMount listed
  rw [Json.getItem_of_get? hrequired, Json.getItem_of_get? htarget, Json.getItem_of_get? hreads,
    FailsWith.bind_ok_iff (liftPy_ok required)]
  split_ifs
  · exact FailsWith.ok _
  · change FailsWith IsRejection (if _ then _ else _)
    split_ifs
    · exact FailsWith.ok _
    · exact FailsWith.error (Or.inr rfl)

theorem rejects_writeTarget {manifest target : Json}
    (hreads : ∃ reads, manifest.get? "read_mounts" = some reads) :
    FailsWith IsRejection (validateWriteTarget manifest target) := by
  obtain ⟨reads, hreads⟩ := hreads
  unfold validateWriteTarget listed
  rw [Json.getItem_of_get? hreads]
  change FailsWith IsRejection (if _ then _ else _)
  split_ifs
  · exact FailsWith.ok _
  · exact FailsWith.error (Or.inr rfl)

theorem rejects_validate (manifest : Json) :
    FailsWith IsRejection (KnowledgePackValidator.validate formats manifest) := by
  unfold KnowledgePackValidator.validate
  refine (rejects_validateSchema _ _).bind fun _ hschema => ?_
  have hschema := validateSchema_ok.mp hschema
  obtain ⟨pack_id, hid, -⟩ := manifest_member hschema "pack_id" _PACK_ID (by simp)
    (List.mem_of_getElem? (i := 1) rfl)
  obtain ⟨reads, hreads⟩ := manifest_array hschema "read_mounts" (by simp)
    (List.mem_of_getElem? (i := 8) rfl)
  obtain ⟨writes, hwrites⟩ := manifest_array hschema "write_targets" (by simp)
    (List.mem_of_getElem? (i := 9) rfl)
  unfold listed
  rw [Json.getItem_of_get? hid, Json.getItem_of_get? hreads, FailsWith.bind_ok_iff (liftPy_ok _)]
  change FailsWith IsRejection (if _ then _ else _)
  split_ifs
  · exact FailsWith.error (Or.inr rfl)
  rw [Json.getItem_of_get? hwrites, FailsWith.bind_ok_iff (liftPy_ok _)]
  refine (FailsWith.forM fun target _ => rejects_writeTarget ⟨_, hreads⟩).bind fun _ _ => ?_
  cases hget : manifest.get? "dependencies" with
  | none => exact FailsWith.ok _
  | some declared =>
      obtain ⟨items, rfl, hitems⟩ := dependencies_of_schema hschema hget
      exact FailsWith.forM fun dependency hdependency =>
        rejects_requireMount ⟨_, hreads⟩ (hitems dependency hdependency)

theorem rejects_manifestEntry (manifest : Json) :
    FailsWith IsRejection (manifestEntry formats manifest) := by
  unfold manifestEntry
  refine (rejects_validate manifest).bind fun _ hvalid => ?_
  rw [Json.getItem_of_get? (get?_pack_id_of_validate hvalid)]
  exact FailsWith.ok _

theorem catalog_ok {manifests : List Json} {by_id : PackCatalog}
    (h : KnowledgePackValidator._validate_catalog formats manifests = .ok by_id) :
    ∀ manifest ∈ by_id.values, KnowledgePackValidator.validate formats manifest = .ok () := by
  rw [KnowledgePackValidator._validate_catalog, addManifest_eq] at h
  have hentries := Dict.collected_iff.mp h
  intro manifest hmanifest
  obtain ⟨pack_id, hget⟩ := Dict.mem_values_iff.mp hmanifest
  obtain ⟨stated, -, hstated⟩ := exists_of_mem_mapM hentries _ (Dict.mem_entries_iff.mpr hget)
  obtain ⟨hvalid, heq⟩ := manifestEntry_ok hstated
  rw [(Prod.mk.inj heq).2]
  exact hvalid

theorem refuses_validateManifests (manifests : List Json) :
    FailsWith IsIntegrity (validateManifests formats manifests) := by
  have hset : FailsWith IsRejection (KnowledgePackValidator.validate_set formats manifests) := by
    unfold KnowledgePackValidator.validate_set
    refine FailsWith.bind ?_ fun by_id hcatalog => ?_
    · rw [KnowledgePackValidator._validate_catalog, addManifest_eq]
      refine FailsWith.foldlM fun by_id manifest _ => ?_
      refine (rejects_manifestEntry manifest).bind fun entry _ => ?_
      dsimp only
      split_ifs
      · exact FailsWith.error (Or.inr rfl)
      · exact FailsWith.ok _
    · have hvalid := catalog_ok hcatalog
      refine FailsWith.bind ?_ fun _ _ => FailsWith.bind ?_ fun _ _ => FailsWith.ok _
      · refine FailsWith.forM fun manifest hmanifest => ?_
        cases hget : manifest.get? "dependencies" with
        | none => exact FailsWith.ok _
        | some declared =>
            obtain ⟨items, rfl, hitems⟩ :=
              dependencies_of_schema (schema_of_validate (hvalid manifest hmanifest)) hget
            refine FailsWith.forM fun dependency hdependency => ?_
            obtain ⟨required, hrequired, -⟩ := Schema.member_of_object (hitems dependency hdependency)
              "required" (Schema.type [.boolean]) (by simp) (by simp)
            obtain ⟨target, htarget, -⟩ := Schema.member_of_object (hitems dependency hdependency)
              "pack_id" _PACK_ID (by simp) (by simp)
            unfold KnowledgePackValidator.requireAvailable
            rw [Json.getItem_of_get? hrequired, Json.getItem_of_get? htarget,
              FailsWith.bind_ok_iff (liftPy_ok _), FailsWith.bind_ok_iff (liftPy_ok _)]
            split_ifs
            · exact FailsWith.error (Or.inr rfl)
            · exact FailsWith.ok _
      · intro e he
        exact Or.inr (refuses_graph
          (fun manifest hmanifest => isManifest_of_validate (hvalid manifest hmanifest)) e he)
  unfold validateManifests
  split
  · exact FailsWith.ok _
  · next e he =>
    have hrejected : e.cls = .validationError ∨ e.cls = .packBoundaryError := hset e he
    rw [if_pos hrejected]
    exact refuses_integrity _

theorem refuses_readManifests (hreadable : ∀ root ∈ roots, Readable (disk root)) :
    FailsWith IsIntegrity (readManifests disk roots) := by
  unfold readManifests
  refine FailsWith.foldlM fun manifest_by_root root hroot => ?_
  refine (refuses_load_json fun data hdata => ?_).bind fun manifest _ => FailsWith.ok _
  exact (hreadable root hroot).documents _ data hdata ⟨"manifest.json", rfl, by decide +kernel⟩

/-- In front of a pack every pack is read. -/
def PackReached (sha256 : Sha256) (formats : FormatChecker) (disk : Disk)
    (manifests : Dict String Json) (root : String) (manifest : Json) : Prop :=
  ReachedPast (fun entry => ∃ pack, readPack sha256 formats (disk entry.1) entry.1 entry.2 = .ok pack)
    manifests.entries (root, manifest)

/-- The packs of a valid set of manifests, read one after the other, are located. -/
def PacksLocated (sha256 : Sha256) (formats : FormatChecker) (disk : Disk) (roots : List String) :
    Prop :=
  ∀ manifests, readManifests disk roots = .ok manifests →
    (∃ by_id, validateManifests formats manifests.values = .ok by_id) →
      ∀ root manifest, PackReached sha256 formats disk manifests root manifest →
        SnapshotsLocated sha256 formats (disk root) root manifest

theorem refuses_readPacks_iff (hreadable : ∀ root ∈ roots, Readable (disk root))
    (hroots : roots ≠ []) :
    FailsWith IsIntegrity (readPacks sha256 formats disk roots) ↔
      PacksLocated sha256 formats disk roots := by
  have hset : FailsWith IsIntegrity (readPacks sha256 formats disk roots) ↔
      ∀ manifests, readManifests disk roots = .ok manifests →
        ∀ by_id, validateManifests formats manifests.values = .ok by_id →
          FailsWith IsIntegrity (manifests.entries.mapM (readEntry sha256 formats disk)) := by
    cases hmanifests : readManifests disk roots with
    | error e =>
        refine iff_of_true ?_ fun _ h => nomatch h
        unfold readPacks
        rw [if_neg hroots, hmanifests]
        exact FailsWith.error (refuses_readManifests hreadable e hmanifests)
    | ok manifests =>
        simp only [Except.ok.injEq, forall_eq']
        cases hby_id : validateManifests formats manifests.values with
        | error e =>
            refine iff_of_true ?_ fun _ h => nomatch h
            unfold readPacks
            rw [if_neg hroots, hmanifests]
            change FailsWith IsIntegrity (validateManifests formats manifests.values >>= _)
            rw [hby_id]
            exact FailsWith.error (refuses_validateManifests _ e hby_id)
        | ok by_id =>
            rw [readPacks_eq hroots hmanifests hby_id, FailsWith.bind_pure_iff]
            simp
  rw [hset]
  unfold PacksLocated
  simp only [forall_exists_index]
  apply forall₄_congr
  intro manifests hmanifests by_id hby_id
  have hloaded := (readManifests_ok hmanifests).2
  obtain ⟨hvalid, -⟩ := validateManifests_ok hby_id
  have hpassed : ∀ entry ∈ manifests.entries,
      ((∃ b, readEntry sha256 formats disk entry = .ok b) ↔
      ∃ pack, readPack sha256 formats (disk entry.1) entry.1 entry.2 = .ok pack) := by
    intro entry _
    unfold readEntry
    cases readPack sha256 formats (disk entry.1) entry.1 entry.2 with
    | ok pack => exact iff_of_true ⟨_, rfl⟩ ⟨pack, rfl⟩
    | error e => exact iff_of_false (fun ⟨_, h⟩ => nomatch h) fun ⟨_, h⟩ => nomatch h
  have hpack : ∀ entry ∈ manifests.entries,
      (FailsWith IsIntegrity (readEntry sha256 formats disk entry) ↔
      SnapshotsLocated sha256 formats (disk entry.1) entry.1 entry.2) := by
    intro entry hentry
    obtain ⟨hmem, hload⟩ := hloaded entry.1 entry.2 (Dict.mem_entries_iff.mp hentry)
    unfold readEntry
    rw [FailsWith.bind_pure_iff]
    exact refuses_readPack_iff (hreadable entry.1 hmem) hload
      (hvalid entry.2 (Dict.mem_values_iff.mpr ⟨entry.1, Dict.mem_entries_iff.mp hentry⟩))
  rw [FailsWith.mapM_iff]
  constructor
  · intro h root manifest hreached
    have hfollows := (reachedPast_congr hpassed).mpr hreached
    exact (hpack (root, manifest) hreached.mem).mp (h (root, manifest) hfollows)
  · intro h entry hfollows
    exact (hpack entry hfollows.mem).mpr (h entry.1 entry.2 ((reachedPast_congr hpassed).mp hfollows))

end Sets

end FossilCore
