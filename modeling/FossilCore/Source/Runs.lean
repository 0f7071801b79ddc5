import FossilCore.Adapters.Publication
import FossilCore.Pack.Reading
import FossilCore.Store.ArtifactGrowth

/-!
# Source stores in use

What `put_snapshot` does to the files of a source store and of its artifact store, and what holds
of them after any calls: every snapshot is the one its call describes, over an artifact that was
put, and its parents were there before it.
-/

namespace FossilCore

open Base

/-! ## Snapshots of a call -/

namespace SourceSnapshotStore

/-- The id that a call gives for its source, or the one of its locator. -/
def sourceIdOf (sha256 : Sha256) (call : PutSnapshot) (normalized : Json) : Except Error String :=
  match call.source_id with
  | some source_id =>
      if source_id = "" then source_id_for_locator sha256 normalized else .ok source_id
  | none => source_id_for_locator sha256 normalized

/-- The derivation of a snapshot, none when it is empty. -/
def derivationOf (call : PutSnapshot) : Json :=
  if (call.derivation.getD .null).truthy then call.derivation.getD .null else .null

def versionOf (call : PutSnapshot) : Json := fullVersion (call.version_metadata.getD (.obj []))

def snapshotWith (sha256 : Sha256) (call : PutSnapshot) (normalized : Json) (source_id : String) :
    Json :=
  let digest := sha256.hexdigest call.data
  .ofMembers [
    ("schema_version", .str "fossil.source-snapshot.v1"),
    ("snapshot_id", .str (snapshotId sha256 source_id digest call.retrieved_at (versionOf call))),
    ("source_id", .str source_id),
    ("source_role", .str call.source_role),
    ("locator", normalized),
    ("retrieved_at", .str call.retrieved_at),
    ("published_at", optionalText call.published_at),
    ("artifact_id", .str (artifact_id_for_digest digest)),
    ("content_hash", contentHash digest),
    ("version_metadata", versionOf call),
    ("quality", call.quality),
    ("derivation", derivationOf call)]

section Snapshot

variable {sha256 : Sha256} {call : PutSnapshot} {normalized snapshot : Json}

theorem manifestDigest_manifestFor (digest : String) (data : ByteArray) (media_type : String) :
    manifestDigest (manifestFor digest data media_type) = .ok digest := by
  rw [manifestDigest, ArtifactLedger.getItem_content_hash]
  show liftPy ((contentHash digest).getItem "digest" >>= _) = _
  rw [ArtifactLedger.getItem_digest]
  rfl

theorem snapshotFor_manifestFor :
    snapshotFor sha256 call normalized
        (manifestFor (sha256.hexdigest call.data) call.data call.media_type) = .ok snapshot ↔
      ∃ source_id, sourceIdOf sha256 call normalized = .ok source_id ∧
        snapshot = snapshotWith sha256 call normalized source_id := by
  have hid := liftPy_eq_ok.mpr (Json.getItem_of_get? (ArtifactLedger.get?_artifact_id
    (sha256.hexdigest call.data) call.data call.media_type))
  have hhash := liftPy_eq_ok.mpr (ArtifactLedger.getItem_content_hash
    (sha256.hexdigest call.data) call.data call.media_type)
  have hrest : ∀ source_id, (do
      let digest ← manifestDigest
        (manifestFor (sha256.hexdigest call.data) call.data call.media_type)
      let artifact_id ← liftPy ((manifestFor (sha256.hexdigest call.data) call.data
        call.media_type).getItem "artifact_id")
      let content_hash ← liftPy ((manifestFor (sha256.hexdigest call.data) call.data
        call.media_type).getItem "content_hash")
      return Json.ofMembers [
        ("schema_version", .str "fossil.source-snapshot.v1"),
        ("snapshot_id", .str (snapshotId sha256 source_id digest call.retrieved_at
          (versionOf call))),
        ("source_id", .str source_id),
        ("source_role", .str call.source_role),
        ("locator", normalized),
        ("retrieved_at", .str call.retrieved_at),
        ("published_at", optionalText call.published_at),
        ("artifact_id", artifact_id),
        ("content_hash", content_hash),
        ("version_metadata", versionOf call),
        ("quality", call.quality),
        ("derivation", derivationOf call)] : Except Error Json) =
      .ok (snapshotWith sha256 call normalized source_id) := by
    intro source_id
    rw [manifestDigest_manifestFor, hid, hhash]
    rfl
  have hfor : snapshotFor sha256 call normalized
      (manifestFor (sha256.hexdigest call.data) call.data call.media_type) =
        (sourceIdOf sha256 call normalized >>= fun source_id =>
          .ok (snapshotWith sha256 call normalized source_id)) := by
    simp only [← hrest, snapshotFor, sourceIdOf]
    cases call.source_id with
    | none => rfl
    | some source_id =>
        by_cases hempty : source_id = ""
        · simp only [hempty, if_true]
          rfl
        · simp only [hempty, if_false]
          rfl
  rw [hfor, bind_eq_ok]
  simp only [Except.ok.injEq, eq_comm]

end Snapshot

/-! ## Calls -/

/-- A call of `put_snapshot` with dictionaries for its arguments. -/
structure SnapshotCall where
  call : PutSnapshot
  locator : call.locator.WF
  quality : call.quality.WF
  version : ∀ v, call.version_metadata = some v → v.WF
  derivation : ∀ v, call.derivation = some v → v.WF

inductive Call where
  | artifact (call : ArtifactCall)
  | put_snapshot (call : SnapshotCall)

def Call.isRedaction : Call → Bool
  | .artifact call => ArtifactLedger.isRedaction call
  | .put_snapshot _ => false

inductive Returned where
  | artifact (r : ArtifactReturned)
  | snapshot (v : Json)

def step (sha256 : Sha256) (formats : FormatChecker) (files : SourceFiles) :
    Call → Except Error Returned × SourceFiles
  | .artifact call =>
      let (result, artifacts) := ArtifactStore.step sha256 files.artifacts call
      (result.map .artifact, { files with artifacts })
  | .put_snapshot call =>
      let (result, files) := put_snapshot sha256 formats call.call files
      (result.map .snapshot, files)

/-! ## What a snapshot call does -/

theorem wf_getD {v : Option Json} (h : ∀ w, v = some w → w.WF) : (v.getD .null).WF := by
  cases v with
  | none => exact Json.wf_null
  | some w => exact h w rfl

theorem wf_fullVersion {v : Json} (h : v.WF) : (fullVersion v).WF := by
  apply Json.wf_ofMembers
  intro m hm
  rcases List.mem_append.mp hm with hm | hm
  · obtain ⟨key, -, rfl⟩ := List.mem_map.mp hm
    exact Json.wf_null
  · cases v with
    | obj fields => exact Json.wfFields_iff.mp h.2 m hm
    | _ => cases hm

theorem wf_normalized {locator normalized : Json} (h : locator.WF)
    (hnormalized : normalized_locator locator = .ok normalized) : normalized.WF := by
  rw [normalized_locator] at hnormalized
  split_ifs at hnormalized
  cases hnormalized
  apply Json.wf_ofMembers
  intro m hm
  obtain ⟨key, -, rfl⟩ := List.mem_map.mp hm
  exact wf_getD fun w hw => h.of_get? hw

theorem wf_contentHash (digest : String) : (contentHash digest).WF :=
  ArtifactLedger.wf_contentHash digest

theorem SnapshotCall.wf_version (call : SnapshotCall) :
    (call.call.version_metadata.getD (.obj [])).WF := by
  cases hv : call.call.version_metadata with
  | none => exact Json.wf_ofMembers (show ∀ m ∈ ([] : List (String × Json)), m.2.WF by simp)
  | some v => exact call.version v hv

theorem SnapshotCall.wf_snapshotWith (call : SnapshotCall) (sha256 : Sha256) {normalized : Json}
    (hnormalized : normalized_locator call.call.locator = .ok normalized) (source_id : String) :
    (snapshotWith sha256 call.call normalized source_id).WF := by
  have hversion : (versionOf call.call).WF := wf_fullVersion call.wf_version
  have hderivation : (derivationOf call.call).WF := by
    rw [derivationOf]
    split_ifs
    · exact wf_getD call.derivation
    · exact Json.wf_null
  have hpublished := wf_optionalText call.call.published_at
  apply Json.wf_ofMembers
  simp only [List.forall_mem_cons, List.not_mem_nil, false_imp_iff, implies_true, and_true]
  exact ⟨Json.wf_str _, Json.wf_str _, Json.wf_str _, Json.wf_str _,
    wf_normalized call.locator hnormalized, Json.wf_str _, hpublished, Json.wf_str _,
    wf_contentHash _, hversion, call.quality, hderivation⟩

/-! ## The parents of a call -/

section Derivation

variable {sources : Files} {call : PutSnapshot}

/-- The parents that a derivation names. -/
def parentsOf (derivation : Json) : List Json :=
  ((derivation.get? "parent_snapshot_refs").getD .null).items

theorem run_getParents (sources : Files) (parents : List Json) : ∃ x,
    (getParents parents).run fsStep sources = (x, sources) ∧
      (x = .ok () → ∀ parent ∈ parents, ∃ parent_id data, parent = .str parent_id ∧
        sources[snapshot_path parent_id]? = some data) := by
  induction parents with
  | nil => exact ⟨.ok (), rfl, fun _ parent h => by cases h⟩
  | cons parent rest ih =>
      obtain ⟨x, hrest, hx⟩ := ih
      cases parent with
      | str parent_id =>
          have hread : (get_snapshot parent_id).run fsStep sources = _ := run_readJson
          cases hfile : sources[snapshot_path parent_id]? with
          | none =>
              rw [hfile] at hread
              exact ⟨_, Program.run_bind_error _ hread, fun h => by cases h⟩
          | some data =>
              simp only [hfile] at hread
              cases hload : liftPy (Json.loadText data) with
              | error e =>
                  rw [hload] at hread
                  exact ⟨_, Program.run_bind_error _ hread, fun h => by cases h⟩
              | ok snapshot =>
                  rw [hload] at hread
                  refine ⟨x, (Program.run_bind_ok _ hread).trans hrest, ?_⟩
                  intro hok other hother
                  rcases List.mem_cons.mp hother with rfl | hother
                  · exact ⟨parent_id, data, rfl, hfile⟩
                  · exact hx hok other hother
      | _ => exact ⟨_, rfl, fun h => by cases h⟩

/-- The derivation of an accepted call: exactly the derived snapshots have one, and its parents
are stored. -/
structure Derived (sources : Files) (call : PutSnapshot) : Prop where
  absent : isDerived call.source_role = false → call.derivation = none
  truthy : isDerived call.source_role = true → (call.derivation.getD .null).truthy = true ∧
    Json.truthy? ((call.derivation.getD .null).get? "parent_snapshot_refs") = true
  parents : isDerived call.source_role = true → ∀ xs,
    (call.derivation.getD .null).get? "parent_snapshot_refs" = some (.arr xs) →
      ∀ parent ∈ xs, ∃ parent_id data, parent = .str parent_id ∧
        sources[snapshot_path parent_id]? = some data

theorem run_checkDerivation (sources : Files) (call : PutSnapshot) : ∃ x,
    (checkDerivation call).run fsStep sources = (x, sources) ∧
      (x = .ok () → Derived sources call) := by
  rw [checkDerivation]
  by_cases hrole : isDerived call.source_role = true
  · simp only [hrole, if_true]
    by_cases hnamed : ((call.derivation.getD .null).truthy &&
        Json.truthy? ((call.derivation.getD .null).get? "parent_snapshot_refs")) = true
    · simp only [hnamed, Bool.not_true, Bool.false_eq_true, if_false]
      have htruthy : (call.derivation.getD .null).truthy = true ∧
          Json.truthy? ((call.derivation.getD .null).get? "parent_snapshot_refs") = true := by
        simpa using hnamed
      cases hiterate : iterate (((call.derivation.getD .null).get?
          "parent_snapshot_refs").getD .null) with
      | error e => exact ⟨.error e, rfl, fun h => by cases h⟩
      | ok parents =>
          obtain ⟨x, hrun, hx⟩ := run_getParents sources parents
          refine ⟨x, hrun, ?_⟩
          intro hok
          refine ⟨fun h => by simp [hrole] at h, fun _ => htruthy, ?_⟩
          intro _ xs hxs
          rw [hxs] at hiterate
          cases hiterate
          exact hx hok
    · simp only [hnamed, Bool.not_false, if_true]
      exact ⟨_, rfl, fun h => by cases h⟩
  · simp only [hrole]
    cases hderivation : call.derivation with
    | none =>
        refine ⟨.ok (), rfl, fun _ => ⟨fun _ => hderivation, fun h => absurd h hrole,
          fun h => absurd h hrole⟩⟩
    | some v => exact ⟨_, rfl, fun h => by cases h⟩

end Derivation

/-! ## The files of a source store -/

section Documents

variable {sha256 : Sha256} {formats : FormatChecker} {sources : Files} {l : ArtifactLedger}

/-- Every file is a snapshot under its id. -/
def Documents (formats : FormatChecker) (sources : Files) : Prop :=
  ∀ path data, sources[path]? = some data → ∃ snapshot : Json, snapshot.WF ∧
    data = snapshot.canonical ∧ path = snapshot_path (textOf snapshot "snapshot_id") ∧
      snapshotSchema formats snapshot = true

theorem snapshot_id_of_schema {snapshot : Json} (h : snapshotSchema formats snapshot = true) :
    ∃ snapshot_id, snapshot.get? "snapshot_id" = some (.str snapshot_id) ∧
      textOf snapshot "snapshot_id" = snapshot_id ∧
      Schema.isPrefixedId "snap_" 12 snapshot_id = true := by
  have hparts := Schema.allOf_iff.mp h
  obtain ⟨fields, rfl⟩ := Schema.isObj_of_type (hparts _ List.mem_cons_self)
  have hkey : "snapshot_id" ∈ (snapshotProperties formats).map Prod.fst := by
    simp [snapshotProperties]
  obtain ⟨w, hw⟩ := Schema.get?_of_required
    (hparts (Schema.required ((snapshotProperties formats).map Prod.fst)) (by simp)) hkey
  have hschema := Schema.of_properties
    (hparts (Schema.properties (snapshotProperties formats)) (by simp))
    (.tail _ (.head _)) hw
  obtain ⟨text, rfl, hpattern⟩ := Schema.str_of_strings hschema
  exact ⟨text, hw, textOf_of_get? hw, hpattern _ List.mem_cons_self⟩

theorem snapshot_path_inj {a b : String} (h : snapshot_path a = snapshot_path b) : a = b := by
  simp only [snapshot_path, List.cons.injEq, and_true, true_and] at h
  exact StableId.fileName_inj h.2

theorem Documents.free_temp (h : Documents formats sources) (snapshot_id uuid : String) :
    sources[tempPath (["snapshots", shardOf "snap_" snapshot_id] ++ [fileName snapshot_id])
      uuid]? = none := by
  apply free_tempPath
  intro path data hdata last hlast
  obtain ⟨snapshot, -, -, rfl, hschema⟩ := h path data hdata
  obtain ⟨text, -, htext, hid⟩ := snapshot_id_of_schema hschema
  obtain ⟨body, tail, hcs, -⟩ := Schema.isPrefixedId_iff.mp hid
  rw [htext] at hlast
  simp only [snapshot_path, List.getLast?_cons_cons, List.getLast?_singleton,
    Option.some.injEq] at hlast
  rw [← hlast]
  simp [fileName, String.toList_append, hcs]

theorem Documents.isDocumentAt (h : Documents formats sources) (path : Path) :
    IsDocumentAt sources path := by
  intro data hdata
  obtain ⟨snapshot, hwf, hcanonical, -⟩ := h path data hdata
  exact ⟨snapshot, hwf, hcanonical⟩

theorem Documents.insert (h : Documents formats sources) {snapshot : Json} (hwf : snapshot.WF)
    (hschema : snapshotSchema formats snapshot = true) :
    Documents formats
      (sources.insert (snapshot_path (textOf snapshot "snapshot_id")) snapshot.canonical) := by
  intro path data hdata
  rw [KeyMap.get?_insert] at hdata
  split_ifs at hdata with hpath
  · cases hdata
    exact ⟨snapshot, hwf, rfl, hpath.symm, hschema⟩
  · exact h path data hdata

/-- A publication stores the snapshot, or finds one of its id. -/
theorem run_publishSnapshot (h : Documents formats sources) {snapshot : Json} (hwf : snapshot.WF)
    (uuid : String) :
    (publishSnapshot snapshot uuid).run fsStep sources =
      match sources[snapshot_path (textOf snapshot "snapshot_id")]? with
      | none => (.ok snapshot,
          sources.insert (snapshot_path (textOf snapshot "snapshot_id")) snapshot.canonical)
      | some data =>
          (if data = snapshot.canonical then Except.ok snapshot
            else .error ⟨.sourceSnapshotConflict, textOf snapshot "snapshot_id"⟩, sources) :=
  run_publishDocument ["snapshots", shardOf "snap_" (textOf snapshot "snapshot_id")]
    (fileName (textOf snapshot "snapshot_id")) hwf (h.free_temp _ uuid) (h.isDocumentAt _)

/-- The snapshot of an accepted call, over the artifact it put. -/
structure Describes (sha256 : Sha256) (formats : FormatChecker) (l : ArtifactLedger)
    (sources : Files) (call : SnapshotCall) (snapshot : Json) : Prop where
  shape : ∃ normalized source_id, normalized_locator call.call.locator = .ok normalized ∧
    sourceIdOf sha256 call.call normalized = .ok source_id ∧
    snapshot = snapshotWith sha256 call.call normalized source_id
  wf : snapshot.WF
  accepted : snapshotSchema formats snapshot = true
  artifact : l.manifests[artifact_id_for_digest (sha256.hexdigest call.call.data)]? =
    some (manifestFor (sha256.hexdigest call.call.data) call.call.data call.call.media_type)
  derived : Derived sources call.call

/-- What a snapshot call does to the files: it may have put the artifact, and it may have stored
the snapshot that it describes, where there was none. -/
theorem put_snapshot_cases {files : SourceFiles}
    (hstored : (ArtifactLedger.model sha256).StoredAs ArtifactStore.layout l files.artifacts)
    (hdocuments : Documents formats files.sources) (call : SnapshotCall) :
    ∃ l', (ArtifactLedger.model sha256).StoredAs ArtifactStore.layout l'
        (put_snapshot sha256 formats call.call files).2.artifacts ∧
      (l' = l ∨ l' = (l.put_bytes sha256 call.call.data call.call.media_type).2) ∧
      ((put_snapshot sha256 formats call.call files).2.sources = files.sources ∨
        ∃ snapshot, Describes sha256 formats l' files.sources call snapshot ∧
          files.sources[snapshot_path (textOf snapshot "snapshot_id")]? = none ∧
          (put_snapshot sha256 formats call.call files).2.sources = files.sources.insert
            (snapshot_path (textOf snapshot "snapshot_id")) snapshot.canonical) := by
  rw [put_snapshot]
  cases hnormalized : normalized_locator call.call.locator with
  | error e => exact ⟨l, hstored, Or.inl rfl, Or.inl rfl⟩
  | ok normalized =>
      obtain ⟨x, hcheck, hderived⟩ := run_checkDerivation files.sources call.call
      simp only [hcheck]
      cases x with
      | error e => exact ⟨l, hstored, Or.inl rfl, Or.inl rfl⟩
      | ok done =>
          obtain ⟨⟩ := done
          have hput := ArtifactStore.run_put_bytes hstored.valid hstored.holds call.call.data
            call.call.media_type call.call.blob_uuid call.call.manifest_uuid
          generalize (ArtifactStore.put_bytes sha256 call.call.data call.call.media_type
            call.call.blob_uuid call.call.manifest_uuid).run fsStep files.artifacts = r at hput ⊢
          obtain ⟨result, artifacts⟩ := r
          obtain ⟨hsame, hholds⟩ := hput
          have hstored' : (ArtifactLedger.model sha256).StoredAs ArtifactStore.layout
              (l.put_bytes sha256 call.call.data call.call.media_type).2 artifacts :=
            ⟨hstored.valid.put_bytes call.call.data call.call.media_type, hholds⟩
          cases result with
          | error e => exact ⟨_, hstored', Or.inr rfl, Or.inl rfl⟩
          | ok artifact =>
              obtain ⟨rfl, hhas⟩ := ArtifactLedger.put_bytes_ok hsame.ok_left
              cases hfor : snapshotFor sha256 call.call normalized (manifestFor
                  (sha256.hexdigest call.call.data) call.call.data call.call.media_type) with
              | error e =>
                  simp only [hfor]
                  exact ⟨_, hstored', Or.inr rfl, Or.inl trivial⟩
              | ok snapshot =>
                  cases hvalid : validateSchema (snapshotSchema formats) snapshot with
                  | error e =>
                      simp only [hfor, hvalid]
                      exact ⟨_, hstored', Or.inr rfl, Or.inl trivial⟩
                  | ok _ =>
                      obtain ⟨source_id, hsource, rfl⟩ := snapshotFor_manifestFor.mp hfor
                      have hwf := call.wf_snapshotWith sha256 hnormalized source_id
                      simp only [hfor, hvalid, run_publishSnapshot hdocuments hwf]
                      refine ⟨_, hstored', Or.inr rfl, ?_⟩
                      cases hfile : files.sources[snapshot_path (textOf (snapshotWith sha256
                          call.call normalized source_id) "snapshot_id")]? with
                      | some data => exact Or.inl rfl
                      | none =>
                          exact Or.inr ⟨_, ⟨⟨normalized, source_id, hnormalized, hsource, rfl⟩, hwf,
                            validateSchema_ok.mp hvalid, hhas.manifest, hderived rfl⟩, hfile, rfl⟩

end Documents

/-- A call whose parts all succeed stores its artifact and its snapshot. -/
theorem put_snapshot_ok {sha256 : Sha256} {formats : FormatChecker} {l : ArtifactLedger}
    {files : SourceFiles}
    (hstored : (ArtifactLedger.model sha256).StoredAs ArtifactStore.layout l files.artifacts)
    (hdocuments : Documents formats files.sources) (call : SnapshotCall)
    {normalized manifest : Json} {source_id : String}
    (hnormalized : normalized_locator call.call.locator = .ok normalized)
    (hcheck : (checkDerivation call.call).run fsStep files.sources = (.ok (), files.sources))
    (hput : (l.put_bytes sha256 call.call.data call.call.media_type).1 = .ok manifest)
    (hsource : sourceIdOf sha256 call.call normalized = .ok source_id)
    (hschema : snapshotSchema formats (snapshotWith sha256 call.call normalized source_id) = true)
    (hfree : files.sources[snapshot_path (textOf (snapshotWith sha256 call.call normalized
      source_id) "snapshot_id")]? = none) :
    ∃ artifacts, put_snapshot sha256 formats call.call files =
        (.ok (snapshotWith sha256 call.call normalized source_id),
          ⟨files.sources.insert (snapshot_path (textOf (snapshotWith sha256 call.call normalized
            source_id) "snapshot_id")) (snapshotWith sha256 call.call normalized source_id).canonical,
            artifacts⟩) ∧
      (ArtifactLedger.model sha256).StoredAs ArtifactStore.layout
        (l.put_bytes sha256 call.call.data call.call.media_type).2 artifacts ∧
      (l.put_bytes sha256 call.call.data call.call.media_type).2.Has sha256 call.call.data
        call.call.media_type := by
  obtain ⟨rfl, hhas⟩ := ArtifactLedger.put_bytes_ok hput
  obtain ⟨hsame, hholds⟩ := ArtifactStore.run_put_bytes hstored.valid hstored.holds call.call.data
    call.call.media_type call.call.blob_uuid call.call.manifest_uuid
  rw [put_snapshot, hnormalized]
  simp only [hcheck]
  generalize (ArtifactStore.put_bytes sha256 call.call.data call.call.media_type
    call.call.blob_uuid call.call.manifest_uuid).run fsStep files.artifacts = r at hsame hholds ⊢
  obtain ⟨result, artifacts⟩ := r
  rw [hput] at hsame
  obtain rfl : result = _ := hsame.ok_right
  have hfor := snapshotFor_manifestFor.mpr ⟨source_id, hsource, rfl⟩
  have hwf := call.wf_snapshotWith sha256 hnormalized source_id
  refine ⟨artifacts, ?_, ⟨hstored.valid.put_bytes call.call.data call.call.media_type, hholds⟩,
    hhas⟩
  simp only [hfor, validateSchema_ok.mpr hschema, run_publishSnapshot hdocuments hwf, hfree]

theorem put_bytes_empty (sha256 : Sha256) (data : ByteArray) (media_type : String) :
    (ArtifactLedger.empty.put_bytes sha256 data media_type).1 =
      .ok (manifestFor (sha256.hexdigest data) data media_type) := by
  simp [ArtifactLedger.put_bytes, ArtifactLedger.putManifest, ArtifactLedger.empty]

/-! ## Runs -/

/-- What later calls keep: every file of the source store, every manifest and tombstone, and the
bytes of the artifacts that have not been redacted. -/
structure Later (l l' : ArtifactLedger) (sources sources' : Files) : Prop where
  files : ∀ (path : Path) data, sources[path]? = some data → sources'[path]? = some data
  manifests : ∀ (text : String) manifest, l.manifests[text]? = some manifest →
    l'.manifests[text]? = some manifest
  redactions : ∀ text : String, l'.redactions[text]? = none → l.redactions[text]? = none
  bytes : ∀ (id : ArtifactId) data, l.read_bytes id.text = .ok data →
    l'.redactions[id.text]? = none → l'.read_bytes id.text = .ok data

section Later

variable {sha256 : Sha256} {formats : FormatChecker} {l l' l'' : ArtifactLedger}
  {sources sources' sources'' : Files}

theorem Later.refl (l : ArtifactLedger) (sources : Files) : Later l l sources sources :=
  ⟨fun _ _ h => h, fun _ _ h => h, fun _ h => h, fun _ _ h _ => h⟩

theorem Later.trans (h : Later l l' sources sources') (h' : Later l' l'' sources' sources'') :
    Later l l'' sources sources'' where
  files path data hdata := h'.files path data (h.files path data hdata)
  manifests text manifest hm := h'.manifests text manifest (h.manifests text manifest hm)
  redactions text hnone := h.redactions text (h'.redactions text hnone)
  bytes id data hdata hnone :=
    h'.bytes id data (h.bytes id data hdata (h'.redactions id.text hnone)) hnone

theorem later_artifact (hvalid : l.Valid sha256) (call : ArtifactCall) (sources : Files) :
    Later l (l.step sha256 call).2 sources sources where
  files _ _ h := h
  manifests _ _ h := ArtifactLedger.manifests_step hvalid call h
  redactions _ h := ArtifactLedger.redactions_step hvalid call h
  bytes _ _ h hkept := ArtifactLedger.read_bytes_step hvalid call h hkept

theorem later_insert {path : Path} (l : ArtifactLedger) (hfree : sources[path]? = none)
    (data : ByteArray) : Later l l sources (sources.insert path data) := by
  refine ⟨?_, fun _ _ h => h, fun _ h => h, fun _ _ h _ => h⟩
  intro other bytes hbytes
  have hne : path ≠ other := by
    rintro rfl
    rw [hfree] at hbytes
    cases hbytes
  rw [KeyMap.get?_insert_ne _ _ hne]
  exact hbytes

theorem Derived.mono (h : Later l l' sources sources') {call : PutSnapshot}
    (hderived : Derived sources call) : Derived sources' call where
  absent := hderived.absent
  truthy := hderived.truthy
  parents hrole xs hxs parent hparent := by
    obtain ⟨parent_id, data, hid, hdata⟩ := hderived.parents hrole xs hxs parent hparent
    exact ⟨parent_id, data, hid, h.files _ _ hdata⟩

theorem Describes.mono (h : Later l l' sources sources') {call : SnapshotCall} {snapshot : Json}
    (hdescribes : Describes sha256 formats l sources call snapshot) :
    Describes sha256 formats l' sources' call snapshot where
  shape := hdescribes.shape
  wf := hdescribes.wf
  accepted := hdescribes.accepted
  artifact := h.manifests _ _ hdescribes.artifact
  derived := hdescribes.derived.mono h

end Later

/-- What holds after any calls: the artifact store is a ledger's, and every file of the source
store is the snapshot of a call. -/
structure Consistent (sha256 : Sha256) (formats : FormatChecker) (l : ArtifactLedger)
    (files : SourceFiles) : Prop where
  stored : (ArtifactLedger.model sha256).StoredAs ArtifactStore.layout l files.artifacts
  described : ∀ (path : Path) data, files.sources[path]? = some data → ∃ call snapshot,
    path = snapshot_path (textOf snapshot "snapshot_id") ∧ data = snapshot.canonical ∧
      Describes sha256 formats l files.sources call snapshot

section Consistent

variable {sha256 : Sha256} {formats : FormatChecker} {l l' : ArtifactLedger}
  {files files' : SourceFiles}

theorem Consistent.documents (h : Consistent sha256 formats l files) :
    Documents formats files.sources := by
  intro path data hdata
  obtain ⟨call, snapshot, hpath, hcanonical, hdescribes⟩ := h.described path data hdata
  exact ⟨snapshot, hdescribes.wf, hcanonical, hpath, hdescribes.accepted⟩

theorem Consistent.put_artifact (h : Consistent sha256 formats l files) (call : ArtifactCall) :
    Consistent sha256 formats (l.step sha256 call).2
      { files with artifacts := (ArtifactStore.step sha256 files.artifacts call).2 } := by
  refine ⟨ArtifactStore.refines_ledger.next h.stored call, ?_⟩
  intro path data hdata
  obtain ⟨call', snapshot, hpath, hcanonical, hdescribes⟩ := h.described path data hdata
  exact ⟨call', snapshot, hpath, hcanonical,
    hdescribes.mono (later_artifact h.stored.valid call files.sources)⟩

/-- A snapshot call keeps the files and adds the snapshot it describes, if anything. -/
theorem Consistent.put_snapshot (h : Consistent sha256 formats l files) (call : SnapshotCall) :
    ∃ l', Consistent sha256 formats l'
        (SourceSnapshotStore.put_snapshot sha256 formats call.call files).2 ∧
      Later l l' files.sources
        (SourceSnapshotStore.put_snapshot sha256 formats call.call files).2.sources ∧
      (l' = l ∨ l' = (l.put_bytes sha256 call.call.data call.call.media_type).2) ∧
      ((SourceSnapshotStore.put_snapshot sha256 formats call.call files).2.sources =
          files.sources ∨
        ∃ snapshot, Describes sha256 formats l' files.sources call snapshot ∧
          (SourceSnapshotStore.put_snapshot sha256 formats call.call files).2.sources =
            files.sources.insert (snapshot_path (textOf snapshot "snapshot_id"))
              snapshot.canonical) := by
  obtain ⟨l', hstored, hledger, hsources⟩ := put_snapshot_cases h.stored h.documents call
  generalize (SourceSnapshotStore.put_snapshot sha256 formats call.call files).2 = files'
    at hstored hsources ⊢
  have hartifact : Later l l' files.sources files.sources := by
    rcases hledger with rfl | rfl
    · exact Later.refl l' files.sources
    · exact later_artifact h.stored.valid (.put_bytes call.call.data call.call.media_type
        call.call.blob_uuid call.call.manifest_uuid) files.sources
  have hlater : Later l l' files.sources files'.sources := by
    rcases hsources with hsame | ⟨snapshot, -, hfree, hinsert⟩
    · rw [hsame]
      exact hartifact
    · rw [hinsert]
      exact hartifact.trans (later_insert l' hfree _)
  have hwritten : files'.sources = files.sources ∨ ∃ snapshot,
      Describes sha256 formats l' files.sources call snapshot ∧ files'.sources =
        files.sources.insert (snapshot_path (textOf snapshot "snapshot_id"))
          snapshot.canonical := by
    rcases hsources with hsame | ⟨snapshot, hdescribes, -, hinsert⟩
    · exact Or.inl hsame
    · exact Or.inr ⟨snapshot, hdescribes, hinsert⟩
  refine ⟨l', ⟨hstored, ?_⟩, hlater, hledger, hwritten⟩
  intro path data hdata
  have hold : files.sources[path]? = some data → ∃ call snapshot,
      path = snapshot_path (textOf snapshot "snapshot_id") ∧ data = snapshot.canonical ∧
        Describes sha256 formats l' files'.sources call snapshot := by
    intro hdata
    obtain ⟨call', snapshot, hpath, hcanonical, hdescribes⟩ := h.described path data hdata
    exact ⟨call', snapshot, hpath, hcanonical, hdescribes.mono hlater⟩
  rcases hsources with hsame | ⟨snapshot, hdescribes, hfree, hinsert⟩
  · rw [hsame] at hdata
    exact hold hdata
  · by_cases hpath : snapshot_path (textOf snapshot "snapshot_id") = path
    · rw [hinsert, ← hpath, KeyMap.get?_insert_self] at hdata
      cases hdata
      refine ⟨call, snapshot, hpath.symm, rfl, hdescribes.mono (l := l') ?_⟩
      rw [hinsert]
      exact later_insert l' hfree _
    · rw [hinsert, KeyMap.get?_insert_ne _ _ hpath] at hdata
      exact hold hdata

theorem Consistent.step (h : Consistent sha256 formats l files) (call : Call) :
    ∃ l', Consistent sha256 formats l' (step sha256 formats files call).2 ∧
      Later l l' files.sources (step sha256 formats files call).2.sources ∧
      (call.isRedaction = false → l.Whole sha256 → l'.Whole sha256) := by
  cases call with
  | artifact call =>
      exact ⟨_, h.put_artifact call, later_artifact h.stored.valid call files.sources,
        fun hcall hwhole => hwhole.step hcall⟩
  | put_snapshot call =>
      obtain ⟨l', hconsistent, hlater, hledger, -⟩ := h.put_snapshot call
      refine ⟨l', hconsistent, hlater, ?_⟩
      intro _ hwhole
      rcases hledger with rfl | rfl
      · exact hwhole
      · exact hwhole.put_bytes call.call.data call.call.media_type

theorem consistent_empty (sha256 : Sha256) (formats : FormatChecker) :
    Consistent sha256 formats .empty ⟨∅, ∅⟩ := by
  refine ⟨storedAs_emptyArtifacts sha256, ?_⟩
  intro path data hdata
  simp at hdata

theorem consistent_run (h : Consistent sha256 formats l files) (calls : List Call) :
    ∃ l', Consistent sha256 formats l' (Runs.after (step sha256 formats) files calls) ∧
      Later l l' files.sources (Runs.after (step sha256 formats) files calls).sources ∧
      ((∀ call ∈ calls, call.isRedaction = false) → l.Whole sha256 → l'.Whole sha256) := by
  induction calls generalizing l files with
  | nil => exact ⟨l, h, Later.refl l files.sources, fun _ hwhole => hwhole⟩
  | cons call calls ih =>
      obtain ⟨l', hstep, hlater, hwhole⟩ := h.step call
      obtain ⟨l'', hrun, hlater', hwhole'⟩ := ih hstep
      refine ⟨l'', hrun, hlater.trans hlater', ?_⟩
      intro hcalls hl
      exact hwhole' (fun c hc => hcalls c (List.mem_cons_of_mem _ hc))
        (hwhole (hcalls call List.mem_cons_self) hl)

end Consistent

end SourceSnapshotStore

end FossilCore
