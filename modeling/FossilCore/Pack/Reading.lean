import FossilCore.Base.Collect
import FossilCore.Domain.AcceptedEvent
import FossilCore.Pack.Fixture

/-!
# What the readers establish

The artifacts, the snapshots and the events of a pack as the audit has read them, each with the
checks it has passed.
-/

namespace FossilCore

open Base

/-! ## Files -/

section Files

variable {directory : Directory} {root : String} {path : Path}

theorem load_json_ok_iff {value : Json} : _load_json directory root path = .ok value ↔
    ∃ data, directory.files[path]? = some data ∧ Json.loadText data = .ok value ∧
      value.isObj = true := by
  rw [_load_json]
  cases hdata : directory.files[path]? with
  | none => simp
  | some data =>
      cases hload : Json.loadText data with
      | error exc => by_cases hread : isReadError exc = true <;> simp [hload, hread]
      | ok loaded =>
          by_cases hobj : loaded.isObj = true
          · simp only [hload, hobj, if_true, Option.some.injEq, Except.ok.injEq]
            constructor
            · rintro rfl
              exact ⟨data, rfl, hload, hobj⟩
            · rintro ⟨_, rfl, heq, -⟩
              rw [hload] at heq
              exact Except.ok.inj heq
          · simp only [hload, hobj, Bool.false_eq_true, if_false, reduceCtorEq, false_iff]
            rintro ⟨_, heq, hloaded, hvalue⟩
            rw [← Option.some.inj heq, hload] at hloaded
            rw [Except.ok.inj hloaded] at hobj
            exact hobj hvalue

theorem mem_glob_iff {dir : Path} : path ∈ directory.glob dir ↔
    (∃ data, directory.files[path]? = some data) ∧ isGlobbed dir path = true := by
  rw [Directory.glob, List.mem_filter, KeyMap.mem_keys_iff]

/-- A matched path is a name in a directory below the one that is searched. -/
theorem eq_of_isGlobbed {dir : Path} (h : isGlobbed dir path = true) :
    ∃ shard name, path = dir ++ [shard, name] := by
  rw [isGlobbed] at h
  split at h
  next shard name hdrop =>
    rw [Bool.and_eq_true, List.isPrefixOf_iff_prefix] at h
    obtain ⟨rest, rfl⟩ := h.1
    rw [List.drop_left] at hdrop
    exact ⟨shard, name, by rw [hdrop]⟩
  next => cases h

theorem validate_schema_ok {schema : Schema} {value : Json} {label : String} :
    _validate_schema schema value label = .ok () ↔ schema value = true := by
  rw [_validate_schema, ← validateSchema_ok]
  cases validateSchema schema value <;> simp

theorem textOf_of_get? {value : Json} {key text : String} (h : value.get? key = some (.str text)) :
    textOf value key = text := by
  rw [textOf, h]
  rfl

end Files

section Reading

variable {sha256 : Sha256} {formats : FormatChecker} {directory : Directory} {root : String}

/-! ## Artifacts -/

theorem mem_glob_manifests {artifact_id : String} {data : ByteArray}
    (h : directory.files[artifactManifestPath artifact_id]? = some data) :
    artifactManifestPath artifact_id ∈ directory.glob ["artifacts", "manifests"] := by
  rw [mem_glob_iff]
  refine ⟨⟨data, h⟩, ?_⟩
  simp [isGlobbed, artifactManifestPath, fileName, Text.endsWith_append]

/-- The manifest of an artifact, below `artifacts/manifests`, whose blob is stored. -/
structure ArtifactRead (sha256 : Sha256) (directory : Directory) (root : String) (path : Path)
    (entry : String × Json) : Prop where
  loaded : _load_json directory root path = .ok entry.2
  named : textOf entry.2 "artifact_id" = entry.1
  placed : path = artifactManifestPath entry.1
  stored : ∃ digest data, manifestDigest entry.2 = .ok digest ∧
    entry.1 = artifact_id_for_digest digest ∧
      directory.files[artifactBlobPath digest]? = some data ∧ sha256.hexdigest data = digest

theorem readArtifact_ok {path : Path} {entry : String × Json}
    (h : readArtifact sha256 directory root path = .ok entry) :
    ArtifactRead sha256 directory root path entry := by
  rw [readArtifact] at h
  obtain ⟨item, hload, h⟩ := bind_eq_ok.mp h
  obtain ⟨⟨⟩, -, h⟩ := bind_eq_ok.mp h
  obtain ⟨digest, hdigest, h⟩ := bind_eq_ok.mp h
  dsimp only at h
  by_cases hid : textOf item "artifact_id" = artifact_id_for_digest digest
  · rw [if_neg (not_not.mpr hid)] at h
    by_cases hpath : path = artifactManifestPath (textOf item "artifact_id")
    · rw [if_neg (not_not.mpr hpath)] at h
      cases hfile : directory.files[artifactBlobPath digest]? with
      | none => simp [Directory.is_file, hfile] at h
      | some data =>
          simp only [Directory.is_file, Directory.read_bytes, hfile, Option.isSome_some,
            Bool.not_true, Bool.false_eq_true, if_false] at h
          obtain ⟨bytes, hbytes, h⟩ := bind_eq_ok.mp h
          cases hbytes
          by_cases hhash : sha256.hexdigest data = digest
          · rw [if_neg (not_not.mpr hhash)] at h
            obtain ⟨byte_size, -, h⟩ := bind_eq_ok.mp h
            by_cases hsize : (data.size : ℤ) = naturalOf byte_size
            · rw [if_neg (not_not.mpr hsize)] at h
              cases h
              exact ⟨hload, rfl, hpath, digest, data, hdigest, hid, hfile, hhash⟩
            · rw [if_pos hsize] at h
              cases h
          · rw [if_pos hhash] at h
            cases h
    · rw [if_pos hpath] at h
      cases h
  · rw [if_pos hid] at h
    cases h

theorem discoverArtifact_eq : discoverArtifact sha256 directory root =
    Dict.collect (readArtifact sha256 directory root) fun artifact_id =>
      .packFixtureIntegrityError ("duplicate artifact manifest: " ++ artifact_id) := rfl

theorem read_artifacts_ok {manifest : Json} {artifacts : Dict String Json}
    (h : _read_artifacts sha256 directory root manifest = .ok artifacts) :
    (directory.glob ["artifacts", "manifests"]).mapM (readArtifact sha256 directory root) =
      .ok artifacts.entries := by
  rw [_read_artifacts] at h
  obtain ⟨discovered, hdiscovered, h⟩ := bind_eq_ok.mp h
  obtain ⟨relatives, -, h⟩ := bind_eq_ok.mp h
  obtain ⟨indexed, -, h⟩ := bind_eq_ok.mp h
  have hsame : discovered = artifacts := by
    split_ifs at h
    exact Except.ok.inj h
  rw [← hsame]
  rw [discoverArtifact_eq] at hdiscovered
  exact Dict.collected_iff.mp hdiscovered

/-! ## Snapshots -/

/-- A snapshot below `sources/snapshots`. -/
structure SnapshotRead (formats : FormatChecker) (directory : Directory) (root : String)
    (path : Path) (entry : String × Json) : Prop where
  loaded : _load_json directory root path = .ok entry.2
  accepted : snapshotSchema formats entry.2 = true
  named : textOf entry.2 "snapshot_id" = entry.1
  placed : path = packSnapshotPath entry.1
  role : ∃ role derivation, entry.2.get? "source_role" = some role ∧
    entry.2.get? "derivation" = some derivation ∧ checkRole entry.1 role derivation = .ok ()

theorem readSnapshot_ok {artifacts : Dict String Json} {path : Path} {entry : String × Json}
    (h : readSnapshot sha256 formats directory root artifacts path = .ok entry) :
    SnapshotRead formats directory root path entry := by
  rw [readSnapshot] at h
  obtain ⟨snapshot, hload, h⟩ := bind_eq_ok.mp h
  obtain ⟨⟨⟩, hschema, h⟩ := bind_eq_ok.mp h
  dsimp only at h
  by_cases hpath : path = packSnapshotPath (textOf snapshot "snapshot_id")
  · rw [if_neg (not_not.mpr hpath)] at h
    obtain ⟨locator, -, h⟩ := bind_eq_ok.mp h
    obtain ⟨source_id, -, h⟩ := bind_eq_ok.mp h
    by_cases hsource : snapshot.get? "source_id" = some (.str source_id)
    · rw [if_neg (not_not.mpr hsource)] at h
      cases hartifact : artifacts.get? (textOf snapshot "artifact_id") with
      | none => simp [hartifact] at h
      | some artifact =>
          simp only [hartifact] at h
          by_cases hhash : snapshot.get? "content_hash" = artifact.get? "content_hash"
          · rw [if_neg (not_not.mpr hhash)] at h
            obtain ⟨version, -, h⟩ := bind_eq_ok.mp h
            obtain ⟨digest, -, h⟩ := bind_eq_ok.mp h
            by_cases hid : textOf snapshot "snapshot_id" = snapshotId sha256
                (textOf snapshot "source_id") digest (textOf snapshot "retrieved_at")
                (fullVersion version)
            · rw [if_neg (not_not.mpr hid)] at h
              obtain ⟨role, hrole, h⟩ := bind_eq_ok.mp h
              obtain ⟨derivation, hderivation, h⟩ := bind_eq_ok.mp h
              obtain ⟨⟨⟩, hcheck, h⟩ := bind_eq_ok.mp h
              cases h
              refine ⟨hload, validate_schema_ok.mp hschema, rfl, hpath, role, derivation, ?_, ?_,
                hcheck⟩
              · exact Json.getItem_ok_iff.mp (liftPy_eq_ok.mp hrole)
              · exact Json.getItem_ok_iff.mp (liftPy_eq_ok.mp hderivation)
            · rw [if_pos hid] at h
              cases h
          · rw [if_pos hhash] at h
            cases h
    · rw [if_pos hsource] at h
      cases h
  · rw [if_pos hpath] at h
    cases h

theorem discoverSnapshot_eq {artifacts : Dict String Json} :
    discoverSnapshot sha256 formats directory root artifacts =
      Dict.collect (readSnapshot sha256 formats directory root artifacts) fun snapshot_id =>
        .packFixtureIntegrityError ("duplicate source snapshot: " ++ snapshot_id) := rfl

theorem read_snapshots_ok {artifacts snapshots : Dict String Json}
    (h : _read_snapshots sha256 formats directory root artifacts = .ok snapshots) :
    (directory.glob ["sources", "snapshots"]).mapM
      (readSnapshot sha256 formats directory root artifacts) = .ok snapshots.entries := by
  rw [_read_snapshots, discoverSnapshot_eq] at h
  exact Dict.collected_iff.mp h

/-- Exactly the derived and the reconstructed snapshots name parents. -/
theorem checkRole_ok {snapshot_id : String} {role derivation : Json}
    (h : checkRole snapshot_id role derivation = .ok ()) :
    if isDerived role.pyStr then
      derivation.isObj = true ∧ Json.truthy? (derivation.get? "parent_snapshot_refs") = true
    else derivation = .null := by
  rw [checkRole] at h
  split_ifs at h ⊢ with hrole hparents hnone
  · simpa using hparents
  · simpa using hnone

/-! ## Events -/

/-- The events of one root, in the order of their paths. -/
def eventsIn (directory : Directory) (root : String) (relative : Json) :
    Except Error (List Json) :=
  (directory.glob (relativePath relative.pyStr)).mapM (_load_json directory root)

/-- An event of the pack that the audit has read. -/
structure EventRead (formats : FormatChecker) (pack_id : String) (event : Json) : Prop where
  accepted : eventSchema formats event = true
  owned : event.get? "pack_id" = some (.str pack_id)

theorem readEvent_ok {access : PackAccess} {pack_id : String} {event_root : Path}
    {events events' : List Json} {path : Path}
    (h : readEvent sha256 formats directory root access pack_id event_root events path =
      .ok events') :
    ∃ event, _load_json directory root path = .ok event ∧ events' = events ++ [event] ∧
      EventRead formats pack_id event ∧
        textOf event "event_id" ∉ events.map fun event => textOf event "event_id" := by
  rw [readEvent] at h
  obtain ⟨event, hload, h⟩ := bind_eq_ok.mp h
  obtain ⟨⟨⟩, hschema, h⟩ := bind_eq_ok.mp h
  dsimp only at h
  by_cases hseen : textOf event "event_id" ∈ events.map fun event => textOf event "event_id"
  · rw [if_pos hseen] at h
    cases h
  · rw [if_neg hseen] at h
    by_cases hpack : event.get? "pack_id" = some (.str pack_id)
    · rw [if_neg (not_not.mpr hpack)] at h
      by_cases hwrite : pack_id ∈ access.write_targets
      · rw [if_neg (not_not.mpr hwrite)] at h
        obtain ⟨⟨⟩, -, h⟩ := bind_eq_ok.mp h
        by_cases hpath : path = eventPathIn event_root (textOf event "event_id")
        · rw [if_neg (not_not.mpr hpath)] at h
          cases h
          exact ⟨event, hload, rfl, ⟨validate_schema_ok.mp hschema, hpack⟩, hseen⟩
        · rw [if_pos hpath] at h
          cases h
      · rw [if_pos hwrite] at h
        cases h
    · rw [if_pos hpack] at h
      cases h

/-- What holds of the events read so far. -/
structure EventsRead (formats : FormatChecker) (pack_id : String) (events : List Json) : Prop where
  each : ∀ event ∈ events, EventRead formats pack_id event
  distinct : (events.map fun event => textOf event "event_id").Nodup

theorem EventsRead.append {pack_id : String} {events : List Json} {event : Json}
    (h : EventsRead formats pack_id events) (hevent : EventRead formats pack_id event)
    (hfresh : textOf event "event_id" ∉ events.map fun event => textOf event "event_id") :
    EventsRead formats pack_id (events ++ [event]) := by
  constructor
  · intro e he
    rcases List.mem_append.mp he with he | he
    · exact h.each e he
    · rw [List.mem_singleton.mp he]
      exact hevent
  · rw [List.map_append, List.nodup_append]
    refine ⟨h.distinct, List.nodup_singleton _, ?_⟩
    intro a ha b hb heq
    rw [heq, List.mem_singleton.mp hb] at ha
    exact hfresh ha

theorem readEvents_ok {access : PackAccess} {pack_id : String} {event_root : Path}
    {events events' : List Json} {paths : List Path} (hevents : EventsRead formats pack_id events)
    (h : paths.foldlM (readEvent sha256 formats directory root access pack_id event_root) events =
      .ok events') :
    EventsRead formats pack_id events' ∧
      ∃ more, paths.mapM (_load_json directory root) = .ok more ∧ events' = events ++ more := by
  refine foldlM_induction (fun paths events' => EventsRead formats pack_id events' ∧
    ∃ more, paths.mapM (_load_json directory root) = .ok more ∧ events' = events ++ more) ?_ ?_ h
  · exact ⟨hevents, [], rfl, (List.append_nil _).symm⟩
  · rintro seen path _ d' - ⟨hread, more, hmore, rfl⟩ hstep
    obtain ⟨event, hload, rfl, hevent, hfresh⟩ := readEvent_ok hstep
    exact ⟨hread.append hevent hfresh, more ++ [event], mapM_concat_ok hmore hload,
      List.append_assoc _ _ _⟩

theorem readEventRoots_ok {access : PackAccess} {pack_id : String} {events : List Json}
    {relatives : List Json}
    (h : relatives.foldlM (readEventRoot sha256 formats directory root access pack_id) [] =
      .ok events) :
    EventsRead formats pack_id events ∧
      ∃ lists, relatives.mapM (eventsIn directory root) = .ok lists ∧ events = lists.flatten := by
  refine foldlM_induction (fun relatives events => EventsRead formats pack_id events ∧
    ∃ lists, relatives.mapM (eventsIn directory root) = .ok lists ∧ events = lists.flatten)
    ?_ ?_ h
  · refine ⟨⟨?_, List.nodup_nil⟩, [], rfl, rfl⟩
    intro event hevent
    cases hevent
  · rintro seen relative _ d' - ⟨hread, lists, hlists, rfl⟩ hstep
    rw [readEventRoot] at hstep
    split_ifs at hstep
    obtain ⟨hread', more, hmore, rfl⟩ := readEvents_ok hread hstep
    exact ⟨hread', lists ++ [more], mapM_concat_ok hlists hmore, by simp⟩

/-- The events of a manifest's event roots. -/
theorem read_events_ok {manifest : Json} {pack_id : String} {events : List Json}
    (hid : manifest.get? "pack_id" = some (.str pack_id))
    (h : _read_events sha256 formats directory root manifest = .ok events) :
    EventsRead formats pack_id events ∧
      ∃ event_roots relatives lists, manifest.get? "event_roots" = some event_roots ∧
        iterate event_roots = .ok relatives ∧
          relatives.mapM (eventsIn directory root) = .ok lists ∧ events = lists.flatten := by
  rw [_read_events] at h
  obtain ⟨id, hget, h⟩ := bind_eq_ok.mp h
  obtain ⟨access, -, h⟩ := bind_eq_ok.mp h
  obtain ⟨event_roots, hroots, h⟩ := bind_eq_ok.mp h
  obtain ⟨relatives, hrelatives, h⟩ := bind_eq_ok.mp h
  have hsome := Json.getItem_ok_iff.mp (liftPy_eq_ok.mp hget)
  rw [hid] at hsome
  obtain rfl := Option.some.inj hsome
  obtain ⟨hread, lists, hlists, rfl⟩ := readEventRoots_ok h
  exact ⟨hread, event_roots, relatives, lists,
    Json.getItem_ok_iff.mp (liftPy_eq_ok.mp hroots), hrelatives, hlists, rfl⟩

end Reading

end FossilCore
