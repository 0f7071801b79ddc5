import FossilCore.Pack.Audited
import FossilCore.Source.Citation

/-!
# The audit of written stores

The auditor's checks of artifacts, snapshots and citations, on a pack directory whose stores were
written by `put_bytes`, `put_snapshot` and `create_citation` alone.
-/

namespace FossilCore

open Base

/-! ## The index of a pack -/

section Index

variable {directory : Directory} {root : String}

/-- The lines of an index that are not blank. -/
def indexLines (text : String) : List (ℕ × String) :=
  (numberedLines text).filter fun line => !Text.isBlank line.2

/-- The values that an index file lists. -/
def listedIn (directory : Directory) (relative : Json) : Except Error (List Json) := do
  let data ← directory.read_bytes (relativePath relative.pyStr)
  let text ← liftPy (Json.readText data)
  (indexLines text).mapM fun line => liftPy (Json.loads line.2)

/-- The values that the indexes of a pack list. -/
def listedManifests (directory : Directory) (manifest : Json) : Except Error (List Json) := do
  let relatives ← iterate ((manifest.get? "artifact_manifests").getD (.arr []))
  let lists ← relatives.mapM (listedIn directory)
  return lists.flatten

/-- A line of an index: the manifest under its id. -/
def readLine (root : String) (index_path : Path) (numbered : ℕ × String) :
    Except Error (String × Json) :=
  let label := fullPath root index_path ++ ":" ++ toString numbered.1
  match Json.loads numbered.2 with
  | .error exc =>
      if exc.cls = .jsonDecodeError then
        .error (.packFixtureIntegrityError ("invalid artifact manifest JSONL at " ++ label))
      else .error (.ofPython exc)
  | .ok item =>
      if !item.isObj then
        .error (.packFixtureIntegrityError
          ("artifact manifest JSONL entry must be an object at " ++ label))
      else do
        _artifact_manifest_shape item label
        let artifact_id ← liftPy (item.getItem "artifact_id")
        return (artifact_id.pyStr, item)

theorem indexLine_eq (root : String) (index_path : Path) (indexed : Dict String Json)
    (numbered : ℕ × String) : indexLine root index_path indexed numbered =
      if Text.isBlank numbered.2 then .ok indexed
      else Dict.collect (readLine root index_path) (fun artifact_id =>
        .packFixtureIntegrityError ("duplicate artifact index entry: " ++ artifact_id)) indexed
          numbered := by
  rw [indexLine, Dict.collect, readLine]
  cases Json.loads numbered.2 with
  | error exc =>
      dsimp only
      split_ifs <;> rfl
  | ok item =>
      dsimp only
      split_ifs
      · rfl
      · rfl
      · simp only [bind_assoc, pure_bind]

theorem indexLines_line {line : String} (hline : ∀ c ∈ line.toList, isLineEnd c = false)
    (hfull : Text.isBlank line = false) : indexLines (line ++ "\n") = [(1, line)] := by
  have hsplit : (line ++ "\n").toList.splitOnP isLineEnd = [line.toList, []] := by
    rw [String.toList_append, show "\n".toList = ['\n'] from rfl,
      List.splitOnP_append_cons _ _ (by decide), List.splitOnP_eq_singleton hline]
    rfl
  have hblank : Text.isBlank (String.ofList []) = true := rfl
  rw [indexLines, numberedLines, hsplit]
  simp [hfull, hblank]

/-- What the lines add to the index. -/
theorem indexLines_ok {index_path : Path} {text : String} {d e : Dict String Json} :
    (numberedLines text).foldlM (indexLine root index_path) d = .ok e ↔
      ∃ entries, (indexLines text).mapM (readLine root index_path) = .ok entries ∧
        e.entries = d.entries ++ entries := by
  have hlines : indexLine root index_path = fun indexed numbered =>
      if Text.isBlank numbered.2 then .ok indexed
      else Dict.collect (readLine root index_path) (fun artifact_id =>
        .packFixtureIntegrityError ("duplicate artifact index entry: " ++ artifact_id)) indexed
          numbered := by
    funext indexed numbered
    exact indexLine_eq root index_path indexed numbered
  rw [hlines, foldlM_skip fun numbered : ℕ × String => Text.isBlank numbered.2, indexLines]
  exact Dict.foldlM_collect_ok_iff

/-- A manifest that passes the audit's checks of its shape. -/
structure WellShaped (item : Json) : Prop where
  isObj : item.isObj = true
  shape : ∀ label, _artifact_manifest_shape item label = .ok ()
  id : item.get? "artifact_id" = some (.str (textOf item "artifact_id"))

def entryFor (item : Json) : String × Json := (textOf item "artifact_id", item)

theorem readLine_ok {index_path : Path} {numbered : ℕ × String} {item : Json}
    (hload : Json.loads numbered.2 = .ok item) (hitem : WellShaped item) :
    readLine root index_path numbered = .ok (entryFor item) := by
  rw [readLine, hload]
  simp only [hitem.isObj, Bool.not_true, Bool.false_eq_true, if_false, hitem.shape,
    Json.getItem_of_get? hitem.id]
  rfl

theorem readLines_ok {index_path : Path} {lines : List (ℕ × String)} {items : List Json}
    (hitems : lines.mapM (fun line => liftPy (Json.loads line.2)) = .ok items)
    (hall : ∀ item ∈ items, WellShaped item) :
    lines.mapM (readLine root index_path) = .ok (items.map entryFor) := by
  rw [mapM_eq_ok] at hitems ⊢
  induction hitems with
  | nil => exact .nil
  | cons hline _ ih =>
      refine .cons (readLine_ok (liftPy_eq_ok.mp hline) (hall _ List.mem_cons_self)) ?_
      exact ih fun item hitem => hall item (List.mem_cons_of_mem _ hitem)

theorem keys_append_entryFor (d : Dict String Json) (items : List Json) :
    (d.entries ++ items.map entryFor).map Prod.fst =
      d.keys ++ items.map fun item => textOf item "artifact_id" := by
  rw [List.map_append, List.map_map]
  rfl

/-- The indexes are read when every manifest they list is well shaped and is listed once. -/
theorem indexFiles_ok (root : String) {relatives : List Json} {lists : List (List Json)}
    {d : Dict String Json} (hlists : relatives.mapM (listedIn directory) = .ok lists)
    (hall : ∀ item ∈ lists.flatten, WellShaped item)
    (hnodup : (d.keys ++ lists.flatten.map fun item => textOf item "artifact_id").Nodup) :
    ∃ e, relatives.foldlM (indexFile directory root) d = .ok e ∧
      e.entries = d.entries ++ lists.flatten.map entryFor := by
  induction relatives generalizing lists d with
  | nil =>
      cases hlists
      exact ⟨d, rfl, (List.append_nil _).symm⟩
  | cons relative relatives ih =>
      obtain ⟨items, rest, hitems, hrest, rfl⟩ :=
        List.forall₂_cons_left_iff.mp (mapM_eq_ok.mp hlists)
      rw [List.flatten_cons] at hall hnodup ⊢
      obtain ⟨data, hdata, h⟩ := bind_eq_ok.mp hitems
      obtain ⟨text, htext, hload⟩ := bind_eq_ok.mp h
      rw [List.map_append, ← List.append_assoc] at hnodup
      have hkeys := keys_append_entryFor d items
      have hfirst : ((d.entries ++ items.map entryFor).map Prod.fst).Nodup := by
        rw [hkeys]
        exact (List.nodup_append.mp hnodup).1
      let d' : Dict String Json := ⟨d.entries ++ items.map entryFor, hfirst⟩
      have hstep : indexFile directory root d relative = .ok d' := by
        have hfile : directory.is_file (relativePath relative.pyStr) = true := by
          rw [Directory.read_bytes] at hdata
          rw [Directory.is_file]
          cases hget : directory.files[relativePath relative.pyStr]? with
          | some bytes => rfl
          | none =>
              rw [hget] at hdata
              cases hdata
        rw [indexFile, hfile]
        refine bind_eq_ok.mpr ⟨data, hdata, bind_eq_ok.mpr ⟨text, htext, ?_⟩⟩
        exact indexLines_ok.mpr ⟨_, readLines_ok hload fun item hitem =>
          hall item (List.mem_append_left _ hitem), rfl⟩
      obtain ⟨e, he, hentries⟩ := ih (d := d') (mapM_eq_ok.mpr hrest)
        (fun item hitem => hall item (List.mem_append_right _ hitem))
        (by rw [show d'.keys = _ from hkeys]; exact hnodup)
      refine ⟨e, ?_, ?_⟩
      · rw [List.foldlM_cons, hstep]
        exact he
      · rw [hentries, List.map_append, ← List.append_assoc]

end Index

/-! ## Written artifacts -/

def StoredManifest (files : SourceFiles) (manifest : Json) : Prop :=
  ∃ path data, isGlobbed ["manifests"] path = true ∧ files.artifacts[path]? = some data ∧
    Json.loadText data = .ok manifest

/-- The indexes of the pack list exactly the stored manifests, each once. -/
def Indexed (files : SourceFiles) (directory : Directory) (manifest : Json) : Prop :=
  ∃ items, listedManifests directory manifest = .ok items ∧ items.Nodup ∧
    ∀ item, item ∈ items ↔ StoredManifest files item

/-- The stores of the files lie below the directory. -/
structure OnDisk (files : SourceFiles) (directory : Directory) : Prop where
  artifacts : ∀ path : Path, directory.files["artifacts" :: path]? = files.artifacts[path]?
  sources : ∀ path : Path, directory.files["sources" :: path]? = files.sources[path]?

section Artifacts

variable {sha256 : Sha256} {formats : FormatChecker} {l : ArtifactLedger} {files : SourceFiles}
  {directory : Directory} {root : String}

theorem get?_media_type (digest : String) (data : ByteArray) (media_type : String) :
    (manifestFor digest data media_type).get? "media_type" = some (.str media_type) :=
  Json.getItem_ok_iff.mp (ArtifactLedger.getItem_media_type digest data media_type)

theorem textOf_manifestFor (digest : String) (data : ByteArray) (media_type : String) :
    textOf (manifestFor digest data media_type) "artifact_id" = artifact_id_for_digest digest :=
  textOf_of_get? (ArtifactLedger.get?_artifact_id digest data media_type)

theorem keysAre_ofMembers (ms : List (String × Json)) :
    keysAre (.ofMembers ms) (ms.map Prod.fst) = true := by
  rw [keysAre, Bool.and_eq_true, List.all_eq_true, List.all_eq_true]
  constructor
  · intro field hfield
    apply decide_eq_true
    apply Schema.mem_keys_of_ofMembers
    rw [Option.isSome_iff_ne_none, Json.ofMembers]
    exact fun hnone => Json.lookup_eq_none_iff.mp hnone (List.mem_map_of_mem hfield)
  · intro key hkey
    rw [Option.isSome_iff_ne_none, Json.get?_ofMembers, ne_eq, Json.lookup_eq_none_iff, not_not,
      List.map_reverse, List.mem_reverse]
    exact hkey

/-- The shape of a written manifest passes unless its media type is empty. -/
theorem shape_manifestFor (d : Digest) (data : ByteArray) (media_type label : String) :
    _artifact_manifest_shape (manifestFor d.text data media_type) label = .ok () ↔
      media_type ≠ "" := by
  have hkeys : keysAre (manifestFor d.text data media_type)
      ["artifact_id", "content_hash", "byte_size", "media_type"] = true := keysAre_ofMembers _
  have hhash : ((contentHash d.text).isObj && keysAre (contentHash d.text) ["algorithm", "digest"]) =
      true :=
    Bool.and_eq_true_iff.mpr ⟨Json.isObj_ofMembers _, keysAre_ofMembers _⟩
  have halgorithm : (contentHash d.text).get? "algorithm" = some (.str "sha256") := by
    rw [contentHash, Json.get?_ofMembers]
    rfl
  have hdigest : ¬ ((Json.str d.text).pyStr.toList.length ≠ 64 ∨
      (!(Json.str d.text).pyStr.toList.all isHexChar) = true) := by
    have hall : d.text.toList.all isHexChar = true := List.all_eq_true.mpr d.isHexChar_text
    simp [Json.pyStr, d.length_text, hall]
  have hsize : isNatural (.int data.size) = true := by simp [isNatural]
  rw [_artifact_manifest_shape]
  simp only [hkeys, ArtifactLedger.getItem_content_hash, hhash, halgorithm,
    ArtifactLedger.getItem_digest, hdigest, ArtifactLedger.getItem_byte_size, hsize,
    get?_media_type, Bool.not_true, Bool.false_eq_true, if_false, ne_eq, not_true_eq_false, bind,
    Except.bind, liftPy_ok]
  split_ifs with h <;> simp [h]

theorem wellShaped_manifestFor (d : Digest) (data : ByteArray) {media_type : String}
    (h : media_type ≠ "") : WellShaped (manifestFor d.text data media_type) where
  isObj := rfl
  shape label := (shape_manifestFor d data media_type label).mpr h
  id := by
    rw [textOf_manifestFor]
    exact ArtifactLedger.get?_artifact_id d.text data media_type

/-- What lies below a directory: the stores of the files, with a ledger that nothing was redacted
from. -/
structure Written (sha256 : Sha256) (formats : FormatChecker) (l : ArtifactLedger)
    (files : SourceFiles) (directory : Directory) : Prop where
  consistent : SourceSnapshotStore.Consistent sha256 formats l files
  whole : l.Whole sha256
  disk : OnDisk files directory

theorem Written.manifest (h : Written sha256 formats l files directory) (id : ArtifactId) :
    directory.files[artifactManifestPath id.text]? =
      l.manifests[id.text]?.map Json.canonical :=
  (h.disk.artifacts _).trans (h.consistent.stored.holds.slot (.manifest id))

theorem Written.blob (h : Written sha256 formats l files directory) (d : Digest) :
    directory.files[artifactBlobPath d.text]? = l.blobs[d.text]? :=
  (h.disk.artifacts _).trans (h.consistent.stored.holds.slot (.blob d))

/-- The manifest files are the manifests of the ledger. -/
theorem manifest_at (h : SourceSnapshotStore.Consistent sha256 formats l files)
    {shard name : String} {data : ByteArray}
    (hfile : files.artifacts[["manifests", shard, name]]? = some data) :
    ∃ (id : ArtifactId) (manifest : Json),
      ["manifests", shard, name] = ArtifactStore.manifest_path id.text ∧
        l.manifests[id.text]? = some manifest ∧ data = manifest.canonical := by
  obtain ⟨slot, hslot⟩ := h.stored.holds.only _ _ hfile
  have hcontents := h.stored.holds.slot slot
  rw [hslot, hfile] at hcontents
  cases slot with
  | manifest id =>
      obtain ⟨manifest, hmanifest, hdata⟩ := Option.map_eq_some_iff.mp hcontents.symm
      exact ⟨id, manifest, hslot.symm, hmanifest, hdata.symm⟩
  | _ => simp [ArtifactStore.layout, ArtifactStore.slotPath, ArtifactStore.blob_path,
      ArtifactStore.redaction_path] at hslot

theorem storedManifest_iff (h : SourceSnapshotStore.Consistent sha256 formats l files)
    {manifest : Json} :
    StoredManifest files manifest ↔ ∃ id : ArtifactId, l.manifests[id.text]? = some manifest := by
  constructor
  · rintro ⟨path, bytes, hglob, hfile, hload⟩
    obtain ⟨shard, name, rfl⟩ := eq_of_isGlobbed hglob
    obtain ⟨id, stored, -, hstored, rfl⟩ := manifest_at h hfile
    obtain ⟨data, media_type, -, rfl⟩ := h.stored.valid.manifests _ _ hstored
    rw [Json.loadText_canonical (ArtifactLedger.wf_manifestFor _ _ _)] at hload
    exact ⟨id, hstored.trans (congrArg some (Except.ok.inj hload))⟩
  · rintro ⟨id, hstored⟩
    obtain ⟨data, media_type, -, rfl⟩ := h.stored.valid.manifests _ _ hstored
    refine ⟨ArtifactStore.manifest_path id.text, _, ?_, ?_,
      Json.loadText_canonical (ArtifactLedger.wf_manifestFor (sha256.hexdigest data) data
        media_type)⟩
    · simp [isGlobbed, ArtifactStore.manifest_path, fileName, Text.endsWith_append]
    · exact (h.stored.holds.slot (.manifest id)).trans
        (congrArg (Option.map Json.canonical) hstored)

theorem Written.mem_glob (h : Written sha256 formats l files directory) {path : Path} :
    path ∈ directory.glob ["artifacts", "manifests"] ↔
      ∃ (id : ArtifactId) (manifest : Json), path = artifactManifestPath id.text ∧
        l.manifests[id.text]? = some manifest := by
  constructor
  · intro hpath
    obtain ⟨⟨data, hdata⟩, hglob⟩ := mem_glob_iff.mp hpath
    obtain ⟨shard, name, rfl⟩ := eq_of_isGlobbed hglob
    obtain ⟨id, manifest, hpath, hmanifest, -⟩ :=
      manifest_at h.consistent ((h.disk.artifacts _).symm.trans hdata)
    exact ⟨id, manifest, congrArg ("artifacts" :: ·) hpath, hmanifest⟩
  · rintro ⟨id, manifest, rfl, hmanifest⟩
    exact mem_glob_manifests ((h.manifest id).trans (congrArg (Option.map Json.canonical) hmanifest))

theorem Written.read_manifest (h : Written sha256 formats l files directory) {data : ByteArray}
    {media_type : String}
    (hmanifest : l.manifests[artifact_id_for_digest (sha256.hexdigest data)]? =
      some (manifestFor (sha256.hexdigest data) data media_type))
    (hblob : l.blobs[sha256.hexdigest data]? = some data) :
    readArtifact sha256 directory root
        (artifactManifestPath (artifact_id_for_digest (sha256.hexdigest data))) =
      (_artifact_manifest_shape (manifestFor (sha256.hexdigest data) data media_type)
        (fullPath root (artifactManifestPath (artifact_id_for_digest
          (sha256.hexdigest data))))).map fun _ =>
            entryFor (manifestFor (sha256.hexdigest data) data media_type) := by
  have hfile := h.manifest (sha256.digest data).artifactId
  have hbytes : directory.files[artifactBlobPath (sha256.hexdigest data)]? = some data :=
    (h.blob (sha256.digest data)).trans hblob
  have hload : _load_json directory root (artifactManifestPath (artifact_id_for_digest
      (sha256.hexdigest data))) = .ok (manifestFor (sha256.hexdigest data) data media_type) := by
    refine load_json_ok_iff.mpr ⟨_, ?_, Json.loadText_canonical
      (ArtifactLedger.wf_manifestFor (sha256.hexdigest data) data media_type), rfl⟩
    rw [show (sha256.digest data).artifactId.text =
      artifact_id_for_digest (sha256.hexdigest data) from rfl, hmanifest] at hfile
    exact hfile
  rw [readArtifact, hload]
  simp only [textOf_manifestFor, SourceSnapshotStore.manifestDigest_manifestFor,
    ArtifactLedger.getItem_byte_size, Directory.is_file, Directory.read_bytes, hbytes, bind,
    Except.bind, liftPy_ok, Option.isSome_some, Bool.not_true, Bool.false_eq_true, if_false,
    ne_eq, not_true_eq_false, naturalOf, entryFor]
  cases _artifact_manifest_shape (manifestFor (sha256.hexdigest data) data media_type)
    (fullPath root (artifactManifestPath (artifact_id_for_digest (sha256.hexdigest data)))) <;> rfl

theorem sameEntries_of_mem {a b : Dict String Json}
    (h : ∀ entry, entry ∈ a.entries ↔ entry ∈ b.entries) : sameEntries a b = true := by
  rw [sameEntries, Bool.and_eq_true, List.all_eq_true, List.all_eq_true]
  constructor
  · intro key hkey
    obtain ⟨entry, hentry, rfl⟩ := List.mem_map.mp hkey
    exact decide_eq_true (List.mem_map_of_mem ((h entry).mp hentry))
  · intro entry hentry
    rw [Dict.mem_entries_iff.mp ((h entry).mpr hentry)]
    exact Json.pyEq_self entry.2

/-- The entry that a manifest file is read as. -/
theorem Written.read_glob (h : Written sha256 formats l files directory) (root : String)
    {id : ArtifactId} {manifest : Json} (hmanifest : l.manifests[id.text]? = some manifest)
    (htyped : manifest.get? "media_type" ≠ some (.str "")) :
    readArtifact sha256 directory root (artifactManifestPath id.text) = .ok (id.text, manifest) ∧
      WellShaped manifest ∧ entryFor manifest = (id.text, manifest) := by
  obtain ⟨data, media_type, hid, rfl, hblob⟩ := h.whole.blobs _ _ hmanifest
  have hne : media_type ≠ "" := by
    rintro rfl
    exact htyped (get?_media_type _ _ _)
  have hshape := fun label => (shape_manifestFor (sha256.digest data) data media_type label).mpr hne
  have hentry : entryFor (manifestFor (sha256.hexdigest data) data media_type) =
      (id.text, manifestFor (sha256.hexdigest data) data media_type) := by
    rw [entryFor, textOf_manifestFor, hid]
  refine ⟨?_, wellShaped_manifestFor (sha256.digest data) data hne, hentry⟩
  rw [hid] at hmanifest
  rw [hid, h.read_manifest hmanifest hblob, ← hid, ← hentry]
  show Except.map _ (_artifact_manifest_shape (manifestFor (sha256.digest data).text data
    media_type) _) = _
  rw [hshape]
  rfl

theorem Written.eq_of_read (h : Written sha256 formats l files directory) {id : ArtifactId}
    {manifest : Json} (hmanifest : l.manifests[id.text]? = some manifest) {entry : String × Json}
    (hread : readArtifact sha256 directory root (artifactManifestPath id.text) = .ok entry) :
    entry = (id.text, manifest) ∧ manifest.get? "media_type" ≠ some (.str "") := by
  obtain ⟨data, media_type, hid, rfl, hblob⟩ := h.whole.blobs _ _ hmanifest
  rw [hid] at hmanifest hread ⊢
  rw [h.read_manifest hmanifest hblob] at hread
  cases hshape : _artifact_manifest_shape (manifestFor (sha256.hexdigest data) data media_type)
      (fullPath root (artifactManifestPath (artifact_id_for_digest (sha256.hexdigest data)))) with
  | error e =>
      rw [hshape] at hread
      cases hread
  | ok _ =>
      rw [hshape] at hread
      cases hread
      refine ⟨by rw [entryFor, textOf_manifestFor], ?_⟩
      rw [get?_media_type, ne_eq, Option.some.injEq, Json.str.injEq]
      exact (shape_manifestFor (sha256.digest data) data media_type _).mp hshape

/-- The entries that are read are the manifests of the ledger. -/
theorem Written.mem_entries (h : Written sha256 formats l files directory) {entries : List (String × Json)}
    (hread : (directory.glob ["artifacts", "manifests"]).mapM
      (readArtifact sha256 directory root) = .ok entries) {entry : String × Json} :
    entry ∈ entries ↔
      ∃ (id : ArtifactId) (item : Json), l.manifests[id.text]? = some item ∧
        entry = (id.text, item) := by
  constructor
  · intro hentry
    obtain ⟨path, hpath, hok⟩ := exists_of_mem_mapM hread entry hentry
    obtain ⟨id, item, rfl, hid⟩ := h.mem_glob.mp hpath
    exact ⟨id, item, hid, (h.eq_of_read hid hok).1⟩
  · rintro ⟨id, item, hid, rfl⟩
    obtain ⟨entry, hentry, hok⟩ := exists_of_mapM_ok hread _ (h.mem_glob.mpr ⟨id, item, rfl, hid⟩)
    rw [← (h.eq_of_read hid hok).1]
    exact hentry

/-- The artifact audit accepts what was written exactly when no media type is empty, and then has
the stored manifests. -/
theorem Written.read_artifacts_iff (h : Written sha256 formats l files directory) {manifest : Json}
    (hindexed : Indexed files directory manifest) :
    (∃ artifacts, _read_artifacts sha256 directory root manifest = .ok artifacts) ↔
      ∀ item, StoredManifest files item → item.get? "media_type" ≠ some (.str "") := by
  constructor
  · rintro ⟨artifacts, hread⟩ item hitem hempty
    obtain ⟨id, hid⟩ := (storedManifest_iff h.consistent).mp hitem
    obtain ⟨entry, -, hentry⟩ := exists_of_mapM_ok (read_artifacts_ok hread) _
      (h.mem_glob.mpr ⟨id, item, rfl, hid⟩)
    exact (h.eq_of_read hid hentry).2 hempty
  · intro htyped
    obtain ⟨items, hlisted, hnodup, hitems⟩ := hindexed
    have hread : ∀ path ∈ directory.glob ["artifacts", "manifests"], ∃ entry,
        readArtifact sha256 directory root path = .ok entry := by
      intro path hpath
      obtain ⟨id, item, rfl, hid⟩ := h.mem_glob.mp hpath
      exact ⟨_, (h.read_glob root hid (htyped item ((storedManifest_iff h.consistent).mpr ⟨id, hid⟩))).1⟩
    obtain ⟨discovered, hdiscovered, hentries⟩ := Dict.exists_collected
      (fun artifact_id => Error.packFixtureIntegrityError
        ("duplicate artifact manifest: " ++ artifact_id)) hread
      (fun path entry hentry => (readArtifact_ok hentry).placed)
      (List.Nodup.filter _ Std.ExtTreeMap.nodup_keys)
    have hitem : ∀ item ∈ items, ∃ id : ArtifactId, l.manifests[id.text]? = some item ∧
        WellShaped item ∧ entryFor item = (id.text, item) := by
      intro item hmem
      obtain ⟨id, hid⟩ := (storedManifest_iff h.consistent).mp ((hitems item).mp hmem)
      obtain ⟨-, hshaped, hentry⟩ :=
        h.read_glob root hid (htyped item ((hitems item).mp hmem))
      exact ⟨id, hid, hshaped, hentry⟩
    have hids : (items.map fun item => textOf item "artifact_id").Nodup := by
      refine hnodup.map_on ?_
      intro item hmem other hother hsame
      obtain ⟨id, hid, -, hentry⟩ := hitem item hmem
      obtain ⟨id', hid', -, hentry'⟩ := hitem other hother
      have heq : id.text = id'.text := by
        rw [← show textOf item "artifact_id" = id.text from congrArg Prod.fst hentry, hsame]
        exact congrArg Prod.fst hentry'
      rw [heq, hid'] at hid
      exact (Option.some.inj hid).symm
    obtain ⟨relatives, hrelatives, hrest⟩ := bind_eq_ok.mp hlisted
    obtain ⟨lists, hlists, hflatten⟩ := bind_eq_ok.mp hrest
    obtain rfl : lists.flatten = items := Except.ok.inj hflatten
    obtain ⟨indexed, hindexed, hentries'⟩ := indexFiles_ok root (d := Dict.empty) hlists
      (fun item hmem => by obtain ⟨-, -, hshaped, -⟩ := hitem item hmem; exact hshaped)
      (by exact hids)
    have hsame : sameEntries indexed discovered = true := by
      apply sameEntries_of_mem
      intro entry
      rw [h.mem_entries hentries, hentries', List.mem_append, List.mem_map]
      constructor
      · rintro (hmem | ⟨item, hmem, rfl⟩)
        · cases hmem
        · obtain ⟨id, hid, -, hentry⟩ := hitem item hmem
          exact ⟨id, item, hid, hentry⟩
      · rintro ⟨id, item, hid, rfl⟩
        have hmem := (hitems item).mpr ((storedManifest_iff h.consistent).mpr ⟨id, hid⟩)
        obtain ⟨-, -, hentry⟩ := h.read_glob root hid
          (htyped item ((storedManifest_iff h.consistent).mpr ⟨id, hid⟩))
        exact Or.inr ⟨item, hmem, hentry⟩
    refine ⟨discovered, bind_eq_ok.mpr ⟨discovered, hdiscovered, bind_eq_ok.mpr
      ⟨relatives, hrelatives, bind_eq_ok.mpr ⟨indexed, hindexed, ?_⟩⟩⟩⟩
    rw [hsame]
    rfl

end Artifacts

/-! ## Derived identities -/

section Identities

open SourceSnapshotStore

theorem lookup_reverse {fields : List (String × Json)} (h : (fields.map Prod.fst).Nodup)
    (key : String) : Json.lookup key fields.reverse = Json.lookup key fields := by
  rw [← Json.get?_ofMembers, Json.get?_ofMembers_of_nodup h]

theorem get?_fullVersion (v : Json) (key : String) : (fullVersion v).get? key =
    (Json.lookup key v.fields.reverse).or
      (Json.lookup key (versionKeys.map fun key => (key, Json.null)).reverse) := by
  rw [fullVersion, Json.get?_ofMembers, List.reverse_append, Json.lookup_append]

/-- A version has its defaults already. -/
theorem fullVersion_fullVersion {v : Json} (hv : v.WF) :
    fullVersion (fullVersion v) = fullVersion v := by
  have hwf := wf_fullVersion hv
  have hobj : ∀ w, (fullVersion w).isObj = true := fun w => Json.isObj_ofMembers _
  refine (wf_fullVersion hwf).ext hwf (hobj _) (hobj _) ?_
  intro key
  obtain ⟨fields, hfields⟩ := Json.isObj_iff.mp (hobj v)
  have hdefault := get?_fullVersion v key
  rw [hfields] at hwf hdefault ⊢
  have hnodup : (fields.map Prod.fst).Nodup := hwf.1.imp fun hlt => hlt.ne
  rw [get?_fullVersion, show (Json.obj fields).fields = fields from rfl, lookup_reverse hnodup]
  change Json.lookup key fields = _ at hdefault
  show _ = Json.lookup key fields
  cases hlookup : Json.lookup key fields with
  | some w => rfl
  | none =>
      rw [hlookup, eq_comm, Option.or_eq_none_iff] at hdefault
      rw [hdefault.2]
      rfl

/-- A normalized locator is its own normal form. -/
theorem normalized_locator_idem {locator normalized : Json}
    (h : normalized_locator locator = .ok normalized) :
    normalized_locator normalized = .ok normalized := by
  rw [normalized_locator] at h
  dsimp only at h
  split_ifs at h with hblank
  cases h
  have hmember : ∀ key ∈ locatorKeys, ((Json.ofMembers (locatorKeys.map fun key =>
      (key, (locator.get? key).getD .null))).get? key).getD .null =
        (locator.get? key).getD .null := by
    intro key hkey
    rw [Json.get?_ofMembers_of_nodup (by simp [locatorKeys])]
    simp only [locatorKeys, List.mem_cons, List.not_mem_nil, or_false] at hkey
    rcases hkey with rfl | rfl | rfl <;> rfl
  have hany : (locatorKeys.any fun key => isNonBlank (((Json.ofMembers (locatorKeys.map fun key =>
      (key, (locator.get? key).getD .null))).get? key).getD .null)) =
      locatorKeys.any fun key => isNonBlank ((locator.get? key).getD .null) := by
    rw [Bool.eq_iff_iff, List.any_eq_true, List.any_eq_true]
    exact exists_congr fun key => and_congr_right fun hkey => by rw [hmember key hkey]
  have hmap : (locatorKeys.map fun key => (key, ((Json.ofMembers (locatorKeys.map fun key =>
      (key, (locator.get? key).getD .null))).get? key).getD .null)) =
      locatorKeys.map fun key => (key, (locator.get? key).getD .null) :=
    List.map_congr_left fun key hkey => by rw [hmember key hkey]
  rw [normalized_locator]
  dsimp only
  rw [hany, hmap, if_neg hblank]

end Identities

/-! ## Written snapshots -/

def StoredSnapshot (files : SourceFiles) (snapshot : Json) : Prop :=
  ∃ (path : Path) (data : ByteArray), files.sources[path]? = some data ∧
    Json.loadText data = .ok snapshot

/-- The source id of a snapshot is the one of its locator. -/
def SourceNamed (sha256 : Sha256) (snapshot : Json) : Prop :=
  SourceSnapshotStore.source_id_for_locator sha256 ((snapshot.get? "locator").getD .null) =
    .ok (textOf snapshot "source_id")

section Snapshots

open SourceSnapshotStore

variable {sha256 : Sha256} {formats : FormatChecker} {l : ArtifactLedger} {files : SourceFiles}
  {directory : Directory} {root : String} {artifacts : Dict String Json}

/-- The members of a snapshot that the audit reads. -/
structure SnapshotReads (sha256 : Sha256) (call : PutSnapshot) (normalized : Json)
    (source_id : String) (snapshot : Json) : Prop where
  id : textOf snapshot "snapshot_id" = snapshotId sha256 source_id (sha256.hexdigest call.data)
    call.retrieved_at (versionOf call)
  locator : snapshot.get? "locator" = some normalized
  source_id : snapshot.get? "source_id" = some (.str source_id)
  artifact_id : textOf snapshot "artifact_id" =
    artifact_id_for_digest (sha256.hexdigest call.data)
  content_hash : snapshot.get? "content_hash" = some (contentHash (sha256.hexdigest call.data))
  version : snapshot.get? "version_metadata" = some (versionOf call)
  retrieved_at : textOf snapshot "retrieved_at" = call.retrieved_at
  role : snapshot.get? "source_role" = some (.str call.source_role)
  derivation : snapshot.get? "derivation" = some (derivationOf call)

theorem get?_snapshotWith (sha256 : Sha256) (call : PutSnapshot) (normalized : Json)
    (source_id key : String) : (snapshotWith sha256 call normalized source_id).get? key =
      Json.lookup key [
        ("schema_version", .str "fossil.source-snapshot.v1"),
        ("snapshot_id", .str (snapshotId sha256 source_id (sha256.hexdigest call.data)
          call.retrieved_at (versionOf call))),
        ("source_id", .str source_id),
        ("source_role", .str call.source_role),
        ("locator", normalized),
        ("retrieved_at", .str call.retrieved_at),
        ("published_at", optionalText call.published_at),
        ("artifact_id", .str (artifact_id_for_digest (sha256.hexdigest call.data))),
        ("content_hash", contentHash (sha256.hexdigest call.data)),
        ("version_metadata", versionOf call),
        ("quality", call.quality),
        ("derivation", derivationOf call)] :=
  Json.get?_ofMembers_of_nodup (by simp) key

theorem reads_snapshotWith (sha256 : Sha256) (call : PutSnapshot) (normalized : Json)
    (source_id : String) : SnapshotReads sha256 call normalized source_id
      (snapshotWith sha256 call normalized source_id) := by
  constructor <;> simp [textOf, get?_snapshotWith, Json.lookup, Json.pyStr]

/-- The stored snapshot of a call. -/
structure StoredBy (sha256 : Sha256) (formats : FormatChecker) (l : ArtifactLedger)
    (files : SourceFiles) (call : SnapshotCall) (snapshot : Json) : Prop where
  describes : Describes sha256 formats l files.sources call snapshot
  file : files.sources[snapshot_path (textOf snapshot "snapshot_id")]? = some snapshot.canonical

theorem storedSnapshot_iff (h : Consistent sha256 formats l files) {snapshot : Json} :
    StoredSnapshot files snapshot ↔ ∃ call, StoredBy sha256 formats l files call snapshot := by
  constructor
  · rintro ⟨path, data, hdata, hload⟩
    obtain ⟨call, snapshot', rfl, rfl, hdescribes⟩ := h.described path data hdata
    rw [Json.loadText_canonical hdescribes.wf] at hload
    cases hload
    exact ⟨call, hdescribes, hdata⟩
  · rintro ⟨call, hdescribes, hfile⟩
    exact ⟨_, _, hfile, Json.loadText_canonical hdescribes.wf⟩

theorem Written.mem_globSnapshots (h : Written sha256 formats l files directory) {path : Path} :
    path ∈ directory.glob ["sources", "snapshots"] ↔
      ∃ snapshot call, path = packSnapshotPath (textOf snapshot "snapshot_id") ∧
        StoredBy sha256 formats l files call snapshot := by
  constructor
  · intro hpath
    obtain ⟨⟨data, hdata⟩, hglob⟩ := mem_glob_iff.mp hpath
    obtain ⟨shard, name, rfl⟩ := eq_of_isGlobbed hglob
    have hfile : files.sources[["snapshots", shard, name]]? = some data :=
      (h.disk.sources _).symm.trans hdata
    obtain ⟨call, snapshot, hpath', rfl, hdescribes⟩ := h.consistent.described _ _ hfile
    refine ⟨snapshot, call, congrArg ("sources" :: ·) hpath', hdescribes, ?_⟩
    rw [← hpath']
    exact hfile
  · rintro ⟨snapshot, call, rfl, hstored⟩
    refine mem_glob_iff.mpr ⟨⟨_, (h.disk.sources _).trans hstored.file⟩, ?_⟩
    simp [isGlobbed, packSnapshotPath, snapshot_path, fileName, Text.endsWith_append]

/-- A derivation that the writer accepts passes the audit's check of the role. -/
theorem checkRole_of_derived {call : PutSnapshot} (h : Derived files.sources call)
    (snapshot_id : String) :
    checkRole snapshot_id (.str call.source_role) (derivationOf call) = .ok () := by
  rw [checkRole, show (Json.str call.source_role).pyStr = call.source_role from rfl, derivationOf]
  by_cases hrole : isDerived call.source_role = true
  · obtain ⟨htruthy, hparents⟩ := h.truthy hrole
    have hobj : (call.derivation.getD .null).isObj = true := by
      cases hd : call.derivation.getD .null with
      | obj fields => rfl
      | _ => rw [hd] at hparents; cases hparents
    simp [hrole, htruthy, hparents, hobj]
  · rw [if_neg hrole, h.absent (Bool.eq_false_iff.mpr hrole)]
    rfl

theorem Written.read_snapshot (h : Written sha256 formats l files directory)
    {call : SnapshotCall} {snapshot : Json} (hstored : StoredBy sha256 formats l files call snapshot)
    (hartifact : artifacts.get? (artifact_id_for_digest (sha256.hexdigest call.call.data)) =
      some (manifestFor (sha256.hexdigest call.call.data) call.call.data call.call.media_type))
    {entry : String × Json} :
    readSnapshot sha256 formats directory root artifacts
        (packSnapshotPath (textOf snapshot "snapshot_id")) = .ok entry ↔
      SourceNamed sha256 snapshot ∧ entry = (textOf snapshot "snapshot_id", snapshot) := by
  obtain ⟨normalized, source_id, hnormalized, hsource, hshape⟩ := hstored.describes.shape
  have hreads := reads_snapshotWith sha256 call.call normalized source_id
  rw [← hshape] at hreads
  have hload : _load_json directory root (packSnapshotPath (textOf snapshot "snapshot_id")) =
      .ok snapshot := by
    refine load_json_ok_iff.mpr ⟨_, (h.disk.sources _).trans hstored.file,
      Json.loadText_canonical hstored.describes.wf, ?_⟩
    rw [hshape]
    exact Json.isObj_ofMembers _
  have hschema : _validate_schema (snapshotSchema formats) snapshot (fullPath root
      (packSnapshotPath (textOf snapshot "snapshot_id"))) = .ok () :=
    validate_schema_ok.mpr hstored.describes.accepted
  have hhash : (manifestFor (sha256.hexdigest call.call.data) call.call.data
      call.call.media_type).get? "content_hash" =
        some (contentHash (sha256.hexdigest call.call.data)) :=
    Json.getItem_ok_iff.mp (ArtifactLedger.getItem_content_hash _ _ _)
  have hdigest : manifestDigest snapshot = .ok (sha256.hexdigest call.call.data) := by
    rw [manifestDigest, Json.getItem_of_get? hreads.content_hash]
    simp only [bind, Except.bind, ArtifactLedger.getItem_digest, Json.pyStr, liftPy, pure,
      Except.pure]
  have hversion : fullVersion (versionOf call.call) = versionOf call.call :=
    fullVersion_fullVersion call.wf_version
  have hsourceId : textOf snapshot "source_id" = source_id := textOf_of_get? hreads.source_id
  rw [readSnapshot, hload, SourceNamed, hreads.locator]
  simp only [bind, Except.bind, hschema, Json.getItem_of_get? hreads.locator, liftPy_ok, ne_eq,
    not_true_eq_false, if_false, Option.getD_some, hsourceId]
  cases hnamed : source_id_for_locator sha256 normalized with
  | error e => simp
  | ok expected =>
      simp only [hreads.source_id, Option.some.injEq, Json.str.injEq, Except.ok.injEq]
      by_cases heq : source_id = expected
      · subst heq
        simp only [not_true_eq_false, if_false, hreads.artifact_id, hartifact, hreads.content_hash,
          hhash, Json.getItem_of_get? hreads.version, hdigest, hreads.retrieved_at, hversion,
          hreads.id, Json.getItem_of_get? hreads.role, Json.getItem_of_get? hreads.derivation,
          checkRole_of_derived hstored.describes.derived, liftPy_ok, pure, Except.pure, true_and,
          Except.ok.injEq]
        exact eq_comm
      · simp [heq, Ne.symm heq]

theorem Written.get?_artifact (h : Written sha256 formats l files directory) {manifest : Json}
    (hread : _read_artifacts sha256 directory root manifest = .ok artifacts) (id : ArtifactId)
    {item : Json} (hitem : l.manifests[id.text]? = some item) :
    artifacts.get? id.text = some item :=
  Dict.mem_entries_iff.mp ((h.mem_entries (read_artifacts_ok hread)).mpr ⟨id, item, hitem, rfl⟩)

theorem Written.read_stored (h : Written sha256 formats l files directory) {manifest : Json}
    (hread : _read_artifacts sha256 directory root manifest = .ok artifacts)
    {call : SnapshotCall} {snapshot : Json} (hstored : StoredBy sha256 formats l files call snapshot)
    {entry : String × Json} :
    readSnapshot sha256 formats directory root artifacts
        (packSnapshotPath (textOf snapshot "snapshot_id")) = .ok entry ↔
      SourceNamed sha256 snapshot ∧ entry = (textOf snapshot "snapshot_id", snapshot) :=
  h.read_snapshot hstored
    (h.get?_artifact hread (sha256.digest call.call.data).artifactId hstored.describes.artifact)

/-- The snapshot audit accepts what was written exactly when every source id is the one of its
locator. -/
theorem Written.read_snapshots_iff (h : Written sha256 formats l files directory) {manifest : Json}
    (hread : _read_artifacts sha256 directory root manifest = .ok artifacts) :
    (∃ snapshots, _read_snapshots sha256 formats directory root artifacts = .ok snapshots) ↔
      ∀ snapshot, StoredSnapshot files snapshot → SourceNamed sha256 snapshot := by
  constructor
  · rintro ⟨snapshots, hsnapshots⟩ snapshot hsnapshot
    obtain ⟨call, hstored⟩ := (storedSnapshot_iff h.consistent).mp hsnapshot
    obtain ⟨entry, -, hentry⟩ := exists_of_mapM_ok (read_snapshots_ok hsnapshots) _
      (h.mem_globSnapshots.mpr ⟨snapshot, call, rfl, hstored⟩)
    exact ((h.read_stored hread hstored).mp hentry).1
  · intro hnamed
    have hall : ∀ path ∈ directory.glob ["sources", "snapshots"], ∃ entry,
        readSnapshot sha256 formats directory root artifacts path = .ok entry := by
      intro path hpath
      obtain ⟨snapshot, call, rfl, hstored⟩ := h.mem_globSnapshots.mp hpath
      exact ⟨_, (h.read_stored hread hstored).mpr
        ⟨hnamed snapshot ((storedSnapshot_iff h.consistent).mpr ⟨call, hstored⟩), rfl⟩⟩
    obtain ⟨snapshots, hsnapshots, -⟩ := Dict.exists_collected
      (fun snapshot_id => Error.packFixtureIntegrityError
        ("duplicate source snapshot: " ++ snapshot_id)) hall
      (fun path entry hentry => (readSnapshot_ok hentry).placed)
      (List.Nodup.filter _ Std.ExtTreeMap.nodup_keys)
    exact ⟨snapshots, hsnapshots⟩

theorem Written.get?_snapshot_iff (h : Written sha256 formats l files directory) {manifest : Json}
    (hread : _read_artifacts sha256 directory root manifest = .ok artifacts)
    {snapshots : Dict String Json}
    (hsnapshots : _read_snapshots sha256 formats directory root artifacts = .ok snapshots)
    {snapshot_id : String} {snapshot : Json} :
    snapshots.get? snapshot_id = some snapshot ↔
      ∃ call, StoredBy sha256 formats l files call snapshot ∧
        textOf snapshot "snapshot_id" = snapshot_id := by
  rw [← Dict.mem_entries_iff]
  constructor
  · intro hmem
    obtain ⟨path, hpath, hentry⟩ := exists_of_mem_mapM (read_snapshots_ok hsnapshots) _ hmem
    obtain ⟨stored, call, rfl, hstored⟩ := h.mem_globSnapshots.mp hpath
    have hsame := ((h.read_stored hread hstored).mp hentry).2
    obtain ⟨rfl, rfl⟩ := Prod.mk.inj hsame
    exact ⟨call, hstored, rfl⟩
  · rintro ⟨call, hstored, rfl⟩
    obtain ⟨entry, hmem, hentry⟩ := exists_of_mapM_ok (read_snapshots_ok hsnapshots) _
      (h.mem_globSnapshots.mpr ⟨snapshot, call, rfl, hstored⟩)
    rw [← ((h.read_stored hread hstored).mp hentry).2]
    exact hmem

end Snapshots

/-! ## The owner of what was written -/

section Owners

variable {formats : FormatChecker} {manifest : Json} {access : PackAccess} {index : PackIndex}
  {pack_id : String} {pack : PackContents}

/-- An accepted manifest mounts its own pack. -/
theorem mem_read_mounts (hvalid : KnowledgePackValidator.validate formats manifest = .ok ())
    (haccess : PackAccess.from_manifest manifest = .ok access) :
    textOf manifest "pack_id" ∈ access.read_mounts := by
  have hid := get?_pack_id_of_validate hvalid
  obtain ⟨⟨⟩, -, h⟩ := bind_eq_ok.mp hvalid
  obtain ⟨value, hvalue, h⟩ := bind_eq_ok.mp h
  obtain ⟨readable, hreadable, h⟩ := bind_eq_ok.mp h
  have hvalue' := Json.getItem_ok_iff.mp (liftPy_eq_ok.mp hvalue)
  rw [hid] at hvalue'
  obtain rfl := Option.some.inj hvalue'
  obtain ⟨items, hitems, hlisted⟩ := bind_eq_ok.mp hreadable
  cases hlisted
  have hmem : .str (textOf manifest "pack_id") ∈ items.items := by
    by_contra hne
    rw [if_pos (by simpa using hne)] at h
    cases h
  rw [PackAccess.from_manifest, liftPy_eq_ok] at haccess
  obtain ⟨id, -, haccess⟩ := bind_eq_ok.mp haccess
  obtain ⟨mounts, hmounts, haccess⟩ := bind_eq_ok.mp haccess
  obtain ⟨targets, -, haccess⟩ := bind_eq_ok.mp haccess
  cases haccess
  rw [liftPy_eq_ok] at hitems
  rw [hmounts] at hitems
  obtain rfl := Except.ok.inj hitems
  exact List.mem_toFinset.mpr (List.mem_filterMap.mpr ⟨_, hmem, rfl⟩)

theorem get?_addOwner (owners : Owners) (identifier other : String)
    (h : ∀ packs, owners.get? identifier = some packs → packs = [pack_id]) :
    ((addOwner owners identifier pack_id).get? other) =
      if identifier = other then some [pack_id] else owners.get? other := by
  rw [addOwner, Dict.get?_set]
  cases hget : owners.get? identifier with
  | none => rfl
  | some packs =>
      rw [h packs hget]
      simp

/-- The only pack of an index owns its identifiers. -/
theorem get?_addOwners (identifiers : List String) (owners : Owners)
    (h : ∀ identifier packs, owners.get? identifier = some packs → packs = [pack_id])
    (identifier : String) :
    (identifiers.foldl (fun owners identifier => addOwner owners identifier pack_id) owners).get?
        identifier =
      if identifier ∈ identifiers then some [pack_id] else owners.get? identifier := by
  induction identifiers generalizing owners with
  | nil => rfl
  | cons first rest ih =>
      have hfirst := fun other => get?_addOwner owners first other (h first)
      rw [List.foldl_cons, ih, hfirst]
      · by_cases hrest : identifier ∈ rest
        · simp [hrest]
        · by_cases heq : first = identifier
          · simp [heq]
          · simp [hrest, heq, Ne.symm heq]
      · intro other packs hother
        rw [hfirst] at hother
        split_ifs at hother
        · exact (Option.some.inj hother).symm
        · exact h other packs hother

theorem snapshot_owners_indexEvent {event : Json} {next : PackIndex}
    (h : indexEvent pack_id index event = .ok next) :
    next.snapshot_owners = index.snapshot_owners := by
  rw [indexEvent] at h
  obtain ⟨event_type, -, h⟩ := bind_eq_ok.mp h
  dsimp only at h
  split_ifs at h
  · obtain ⟨subject_refs, -, h⟩ := bind_eq_ok.mp h
    obtain ⟨subject, -, h⟩ := bind_eq_ok.mp h
    cases h
    rfl
  · obtain ⟨payload, -, h⟩ := bind_eq_ok.mp h
    obtain ⟨relation_id, -, h⟩ := bind_eq_ok.mp h
    cases h
    rfl
  · cases h
    rfl

theorem snapshot_owners_indexPack (h : indexPack .empty (pack_id, pack) = .ok index)
    {snapshot_id : String} (hid : snapshot_id ∈ pack.snapshots.keys) :
    index.snapshot_owners.get? snapshot_id = some [pack_id] := by
  have hsame : index.snapshot_owners = pack.snapshots.keys.foldl
      (fun owners snapshot_id => addOwner owners snapshot_id pack_id) .empty := by
    rw [indexPack] at h
    refine foldlM_induction (fun _ (next : PackIndex) => next.snapshot_owners =
      pack.snapshots.keys.foldl (fun owners snapshot_id => addOwner owners snapshot_id pack_id)
        .empty) rfl ?_ h
    rintro seen event d d' - hd hstep
    rw [snapshot_owners_indexEvent hstep, hd]
  rw [hsame, get?_addOwners _ _ (fun _ _ h => by cases h), if_pos hid]

theorem requireReadable_own {owners : Owners} {kind identifier : String}
    (hown : owners.get? identifier = some [pack_id]) (hmount : pack_id ∈ access.read_mounts) :
    requireReadable access owners kind identifier = .ok pack_id := by
  rw [requireReadable, _owners, hown]
  simp [_require_readable_owner, hmount, bind, Except.bind]

end Owners

/-! ## Parents -/

section Checks

open SourceSnapshotStore

variable {sha256 : Sha256} {formats : FormatChecker} {l : ArtifactLedger} {files : SourceFiles}
  {disk : Disk} {root pack_id : String} {manifest : Json} {artifacts snapshots : Dict String Json}
  {access : PackAccess} {index : PackIndex}

theorem parents_of_schema {snapshot derivation : Json} (h : snapshotSchema formats snapshot = true)
    (hget : snapshot.get? "derivation" = some derivation) (hobj : derivation.isObj = true) :
    ∃ parents, derivation.get? "parent_snapshot_refs" = some (.arr parents) := by
  have hsnapshot : snapshot.isObj = true := by
    cases snapshot with
    | obj fields => rfl
    | _ => cases hget
  have hderivation := (Schema.properties_iff hsnapshot).mp
    (Schema.allOf_iff.mp h (Schema.properties (snapshotProperties formats)) (by simp)) _
    (show ("derivation", derivationSchema) ∈ _ from by simp [snapshotProperties]) derivation hget
  obtain ⟨schema, hmem, hparts⟩ := Schema.of_oneOf hderivation
  rcases List.mem_pair.mp hmem with rfl | rfl
  · cases derivation with
    | obj fields => cases hparts
    | _ => cases hobj
  simp only [Schema.allOf_iff, List.forall_mem_cons, List.not_mem_nil, false_imp_iff, implies_true,
    and_true] at hparts
  obtain ⟨-, -, hrequired, hproperties⟩ := hparts
  obtain ⟨refs, hrefs⟩ := Option.isSome_iff_exists.mp
    ((Schema.required_iff hobj).mp hrequired "parent_snapshot_refs" (by simp))
  have hschema := (Schema.properties_iff hobj).mp hproperties _ (.tail _ (.head _)) refs hrefs
  obtain ⟨parents, rfl⟩ := Schema.isArr_of_type (Schema.allOf_iff.mp hschema _ List.mem_cons_self)
  exact ⟨parents, hrefs⟩

/-- The parents of a written snapshot are written. -/
theorem Written.stored_parent (h : Written sha256 formats l files (disk root))
    {call : SnapshotCall} {snapshot parent : Json} {parents : List Json}
    (hstored : StoredBy sha256 formats l files call snapshot)
    (hparents : (derivationOf call.call).get? "parent_snapshot_refs" = some (.arr parents))
    (hmem : parent ∈ parents) :
    ∃ call' stored, StoredBy sha256 formats l files call' stored ∧
      parent = .str (textOf stored "snapshot_id") := by
  have hrole : isDerived call.call.source_role = true := by
    by_contra hne
    rw [derivationOf, hstored.describes.derived.absent (Bool.eq_false_iff.mpr hne)] at hparents
    cases hparents
  rw [derivationOf, if_pos (hstored.describes.derived.truthy hrole).1] at hparents
  obtain ⟨parent_id, data, rfl, hdata⟩ :=
    hstored.describes.derived.parents hrole parents hparents parent hmem
  obtain ⟨call', stored, hpath, rfl, hdescribes⟩ := h.consistent.described _ _ hdata
  refine ⟨call', stored, ⟨hdescribes, ?_⟩, ?_⟩
  · rw [← hpath]
    exact hdata
  · rw [snapshot_path_inj hpath]

theorem Written.audit_snapshot (h : Written sha256 formats l files (disk root))
    (hread : _read_artifacts sha256 (disk root) root manifest = .ok artifacts)
    (hsnapshots : _read_snapshots sha256 formats (disk root) root artifacts = .ok snapshots)
    (howned : ∀ snapshot_id ∈ snapshots.keys,
      index.snapshot_owners.get? snapshot_id = some [pack_id])
    (hmount : pack_id ∈ access.read_mounts) {snapshot : Json}
    (hsnapshot : snapshot ∈ snapshots.values) : auditSnapshot index access snapshot = .ok () := by
  obtain ⟨snapshot_id, hget⟩ := Dict.mem_values_iff.mp hsnapshot
  obtain ⟨call, hstored, -⟩ := (h.get?_snapshot_iff hread hsnapshots).mp hget
  obtain ⟨normalized, source_id, -, -, hshape⟩ := hstored.describes.shape
  have hderivation : snapshot.get? "derivation" = some (derivationOf call.call) := by
    rw [hshape]
    exact (reads_snapshotWith sha256 call.call normalized source_id).derivation
  rw [auditSnapshot, hderivation]
  by_cases hobj : (derivationOf call.call).isObj = true
  · obtain ⟨parents, hparents⟩ :=
      parents_of_schema hstored.describes.accepted hderivation hobj
    simp only [Option.getD_some, hobj, Bool.not_true, Bool.false_eq_true, if_false]
    rw [auditReferences, hparents]
    show parents.forM (auditReference access index.snapshot_owners "parent source snapshot") = _
    rw [forM_ok_iff]
    intro parent hparent
    obtain ⟨call', stored, hstored', rfl⟩ := h.stored_parent hstored hparents hparent
    have hkey : textOf stored "snapshot_id" ∈ snapshots.keys :=
      List.mem_map_of_mem (Dict.mem_entries_iff.mpr
        ((h.get?_snapshot_iff hread hsnapshots).mpr ⟨call', hstored', rfl⟩))
    rw [auditReference, show (Json.str (textOf stored "snapshot_id")).pyStr =
      textOf stored "snapshot_id" from rfl, requireReadable_own (howned _ hkey) hmount]
    rfl
  · simp [hobj]

/-! ## Citations -/

theorem citedDigest_citationFor (sha256 : Sha256) {data : ByteArray} {byte_start byte_end : Option ℤ}
    (hbounds : InBounds data byte_start byte_end) (snapshot_id artifact_id citation_id : String) :
    citedDigest sha256 (citationFor sha256 snapshot_id artifact_id byte_start byte_end
        (spanDigest sha256 data byte_start byte_end)) citation_id data =
      .ok ((spanDigest sha256 data byte_start byte_end).getD "whole-artifact") := by
  have hreads := (parts_citationFor sha256 hbounds snapshot_id artifact_id).reads
  rw [citedDigest, hreads.start, hreads.stop, hreads.hash]
  cases byte_start with
  | none =>
      cases byte_end with
      | none => rfl
      | some last => exact hbounds.elim
  | some first =>
      cases byte_end with
      | none => exact hbounds.elim
      | some last =>
          obtain ⟨hfirst, hlast, hsize⟩ := hbounds
          have hspan : ¬ (first < 0 ∨ last ≤ first ∨ (data.size : ℤ) < last) := by omega
          have hdigest := Json.getItem_ok_iff.mp (ArtifactLedger.getItem_digest
            (sha256.hexdigest (data.extract first.toNat last.toNat)))
          simp [optionalInt, integerOf, hspan, spanDigest, passageOf, hdigest]

theorem blob_of_read_bytes {id digest media_type : String} {data stored : ByteArray}
    (h : l.read_bytes id = .ok data)
    (hmanifest : l.manifests[id]? = some (manifestFor digest stored media_type)) :
    l.blobs[digest]? = some data := by
  rw [ArtifactLedger.read_bytes, ArtifactLedger.get_manifest, hmanifest] at h
  split_ifs at h
  obtain ⟨manifest, hget, h⟩ := bind_eq_ok.mp h
  cases hget
  rw [ArtifactLedger.digestText_manifestFor] at h
  obtain ⟨text, htext, h⟩ := bind_eq_ok.mp h
  cases htext
  rw [ArtifactLedger.read_blob] at h
  cases hblob : l.blobs[digest]? with
  | none =>
      rw [hblob] at h
      cases h
  | some bytes =>
      rw [hblob] at h
      cases h
      rfl

theorem Written.snapshotAt (h : Written sha256 formats l files directory) {snapshot_id : String}
    {snapshot : Json} (hat : SourceSnapshotStore.snapshotAt files snapshot_id = .ok snapshot) :
    ∃ call, StoredBy sha256 formats l files call snapshot ∧
      textOf snapshot "snapshot_id" = snapshot_id := by
  rw [SourceSnapshotStore.snapshotAt, get_snapshot, run_readJson] at hat
  cases hfile : files.sources[snapshot_path snapshot_id]? with
  | none =>
      rw [hfile] at hat
      cases hat
  | some data =>
      rw [hfile] at hat
      obtain ⟨call, stored, hpath, rfl, hdescribes⟩ := h.consistent.described _ _ hfile
      have hload : Json.loadText stored.canonical = .ok snapshot := liftPy_eq_ok.mp hat
      rw [Json.loadText_canonical hdescribes.wf] at hload
      obtain rfl := Except.ok.inj hload
      refine ⟨call, ⟨hdescribes, ?_⟩, (snapshot_path_inj hpath).symm⟩
      rw [← hpath]
      exact hfile

/-- The audit accepts a citation that creation gives from the files. -/
theorem Written.audit_citation (h : Written sha256 formats l files (disk root))
    (hread : _read_artifacts sha256 (disk root) root manifest = .ok artifacts)
    (hsnapshots : _read_snapshots sha256 formats (disk root) root artifacts = .ok snapshots)
    (howned : ∀ snapshot_id ∈ snapshots.keys,
      index.snapshot_owners.get? snapshot_id = some [pack_id])
    (hmount : pack_id ∈ access.read_mounts) {packs : Dict String PackContents}
    {pack : PackContents} (hpack : packs.get? pack_id = some pack) (hroot : pack.root = root)
    (hartifacts : pack.artifacts = artifacts) (hentries : pack.snapshots = snapshots)
    {snapshot_id : String} {byte_start byte_end : Option ℤ} {citation : Json}
    (hcreate : create_citation sha256 files snapshot_id byte_start byte_end = .ok citation) :
    _citation_bytes sha256 disk packs index access citation = .ok () := by
  obtain ⟨snapshot, artifact_id, data, hat, hvalue, hdata, hbounds, hshape, hschema⟩ :=
    create_ok_iff.mp hcreate
  have hreads := (parts_citationFor sha256 hbounds snapshot_id artifact_id).reads
  have hcited := citedDigest_citationFor sha256 hbounds snapshot_id artifact_id
    (textOf citation "citation_id")
  rw [← hshape] at hreads hcited
  obtain ⟨call, hstored, hid⟩ := h.snapshotAt hat
  obtain ⟨normalized, source_id, -, -, hwith⟩ := hstored.describes.shape
  have hfields := reads_snapshotWith sha256 call.call normalized source_id
  rw [← hwith] at hfields
  obtain rfl : artifact_id = artifact_id_for_digest (sha256.hexdigest call.call.data) := by
    rw [← hfields.artifact_id, textOf_of_get? hvalue]
  have hget : snapshots.get? snapshot_id = some snapshot :=
    (h.get?_snapshot_iff hread hsnapshots).mpr ⟨call, hstored, hid⟩
  have hkey : snapshot_id ∈ snapshots.keys := List.mem_map_of_mem (Dict.mem_entries_iff.mpr hget)
  have hartifact : artifacts.get? (artifact_id_for_digest (sha256.hexdigest call.call.data)) =
      some (manifestFor (sha256.hexdigest call.call.data) call.call.data call.call.media_type) :=
    h.get?_artifact hread (sha256.digest call.call.data).artifactId hstored.describes.artifact
  have hblob := blob_of_read_bytes ((ArtifactStore.read_bytes_eq_ok h.consistent.stored
    (sha256.digest call.call.data).artifactId).mp hdata) hstored.describes.artifact
  have hfile : (disk root).files[artifactBlobPath (sha256.hexdigest call.call.data)]? =
      some data := (h.blob (sha256.digest call.call.data)).trans hblob
  have hbytes : (disk root).read_bytes (artifactBlobPath (sha256.hexdigest call.call.data)) =
      .ok data := by
    rw [Directory.read_bytes, hfile]
  rw [_citation_bytes, validate_schema_ok.mpr hschema, hreads.snapshot, hreads.artifact,
    hreads.get_artifact, hreads.start, hreads.stop]
  simp only [bind, Except.bind, requireReadable_own (howned _ hkey) hmount, packOf, hpack, entryOf,
    hentries, hget, hvalue, hartifacts, hartifact, hroot, manifestDigest_manifestFor, hbytes,
    hcited, ne_eq, not_true_eq_false, if_false]
  rw [hreads.citation]
  exact if_neg (not_not.mpr rfl)

end Checks

/-! ## What the audit accepts -/

section Accepted

open SourceSnapshotStore

/-- A citation that creation has given at some time during the calls. -/
def CreatedDuring (sha256 : Sha256) (formats : FormatChecker) (calls : List Call)
    (citation : Json) : Prop :=
  ∃ earlier later snapshot_id byte_start byte_end, calls = earlier ++ later ∧
    create_citation sha256 (Runs.after (step sha256 formats) ⟨∅, ∅⟩ earlier) snapshot_id byte_start
      byte_end = .ok citation

/-- The pack passes the checks of its artifacts and of its snapshots, and each of the citations
passes the check of citations, whatever the events of the pack are. -/
def AuditAccepts (sha256 : Sha256) (formats : FormatChecker) (disk : Disk) (root : String)
    (manifest : Json) (cited : Json → Prop) : Prop :=
  ∃ artifacts snapshots, _read_artifacts sha256 (disk root) root manifest = .ok artifacts ∧
    _read_snapshots sha256 formats (disk root) root artifacts = .ok snapshots ∧
    ∀ access events index, PackAccess.from_manifest manifest = .ok access →
      indexPack .empty (textOf manifest "pack_id",
        ⟨root, manifest, access, artifacts, snapshots, events⟩) = .ok index →
      (∀ snapshot ∈ snapshots.values, auditSnapshot index access snapshot = .ok ()) ∧
        ∀ citation, cited citation → _citation_bytes sha256 disk (.ofPairs
          [(textOf manifest "pack_id", ⟨root, manifest, access, artifacts, snapshots, events⟩)])
          index access citation = .ok ()

/-- Every media type is a text that is not empty, and every source id is the one of its locator. -/
structure Acceptable (sha256 : Sha256) (files : SourceFiles) : Prop where
  typed : ∀ item, StoredManifest files item → item.get? "media_type" ≠ some (.str "")
  named : ∀ snapshot, StoredSnapshot files snapshot → SourceNamed sha256 snapshot

/-- The arguments of a call, so far as the audit minds them. -/
def SourceSnapshotStore.Call.Acceptable (sha256 : Sha256) : Call → Prop
  | .artifact (.put_bytes _ media_type _ _) => media_type ≠ ""
  | .artifact _ => True
  | .put_snapshot call => call.call.media_type ≠ "" ∧
      ∀ source_id, call.call.source_id = some source_id → source_id ≠ "" →
        source_id_for_locator sha256 call.call.locator = .ok source_id

variable {sha256 : Sha256} {formats : FormatChecker} {l l' : ArtifactLedger}
  {files files' : SourceFiles} {disk : Disk} {root : String} {manifest : Json}

theorem create_citation_later (h : Consistent sha256 formats l files)
    (h' : Consistent sha256 formats l' files') (hlater : Later l l' files.sources files'.sources)
    (hwhole : l'.Whole sha256) {c : Json} {snapshot_id : String} {byte_start byte_end : Option ℤ}
    (hcreate : create_citation sha256 files snapshot_id byte_start byte_end = .ok c) :
    create_citation sha256 files' snapshot_id byte_start byte_end = .ok c := by
  obtain ⟨snapshot, artifact_id, data, hat, hvalue, hdata, hbounds, hshape, hschema⟩ :=
    create_ok_iff.mp hcreate
  obtain ⟨id, hid⟩ := artifact_id_of_schema hschema
  rw [hshape, (parts_citationFor sha256 hbounds snapshot_id artifact_id).reads.artifact] at hid
  subst hid
  have hread := hlater.bytes id data ((ArtifactStore.read_bytes_eq_ok h.stored id).mp hdata)
    (hwhole.unredacted id.text)
  exact create_ok_iff.mpr ⟨snapshot, id.text, data, snapshotAt_mono hlater.files hat, hvalue,
    (ArtifactStore.read_bytes_eq_ok h'.stored id).mpr hread, hbounds, hshape, hschema⟩

/-- The audit accepts written stores exactly when their manifests and snapshots are acceptable. -/
theorem Written.accepted_iff (h : Written sha256 formats l files (disk root))
    (hvalid : KnowledgePackValidator.validate formats manifest = .ok ())
    (hindexed : Indexed files (disk root) manifest) {cited : Json → Prop}
    (hcited : ∀ citation, cited citation → ∃ snapshot_id byte_start byte_end,
      create_citation sha256 files snapshot_id byte_start byte_end = .ok citation) :
    AuditAccepts sha256 formats disk root manifest cited ↔ Acceptable sha256 files := by
  constructor
  · rintro ⟨artifacts, snapshots, hread, hsnapshots, -⟩
    exact ⟨(h.read_artifacts_iff hindexed).mp ⟨artifacts, hread⟩,
      (h.read_snapshots_iff hread).mp ⟨snapshots, hsnapshots⟩⟩
  · intro hacceptable
    obtain ⟨artifacts, hread⟩ := (h.read_artifacts_iff hindexed).mpr hacceptable.typed
    obtain ⟨snapshots, hsnapshots⟩ := (h.read_snapshots_iff hread).mpr hacceptable.named
    refine ⟨artifacts, snapshots, hread, hsnapshots, ?_⟩
    intro access events index haccess hindex
    have hmount := mem_read_mounts hvalid haccess
    have howned : ∀ snapshot_id ∈ snapshots.keys, index.snapshot_owners.get? snapshot_id =
        some [textOf manifest "pack_id"] :=
      fun snapshot_id hkey => snapshot_owners_indexPack hindex hkey
    constructor
    · intro snapshot hsnapshot
      exact h.audit_snapshot hread hsnapshots howned hmount hsnapshot
    · intro citation hcitation
      obtain ⟨snapshot_id, byte_start, byte_end, hcreate⟩ := hcited citation hcitation
      exact h.audit_citation hread hsnapshots howned hmount
        ((Dict.get?_ofPairs_iff (by simp)).mpr (List.mem_singleton_self _)) rfl rfl rfl hcreate

/-- The stored manifests and snapshots of acceptable calls. -/
structure AllAcceptable (sha256 : Sha256) (l : ArtifactLedger) (files : SourceFiles) : Prop where
  typed : ∀ (text : String) item, l.manifests[text]? = some item →
    item.get? "media_type" ≠ some (.str "")
  named : ∀ snapshot, StoredSnapshot files snapshot → SourceNamed sha256 snapshot

theorem typed_put_bytes {data : ByteArray} {media_type : String} (hmedia : media_type ≠ "")
    (h : ∀ (text : String) item, l.manifests[text]? = some item →
      item.get? "media_type" ≠ some (.str ""))
    (text : String) {item : Json}
    (hitem : (l.put_bytes sha256 data media_type).2.manifests[text]? = some item) :
    item.get? "media_type" ≠ some (.str "") := by
  rcases ArtifactLedger.put_bytes_manifests hitem with hold | ⟨htext, hok⟩
  · exact h text item hold
  · obtain ⟨-, hhas⟩ := ArtifactLedger.put_bytes_ok hok
    have hsame := hhas.manifest
    rw [← htext, hitem] at hsame
    rw [Option.some.inj hsame, get?_media_type]
    simpa using hmedia

/-- The source id of an acceptable call is the one of its locator. -/
theorem sourceNamed_of_call {call : SnapshotCall} (hcall : (Call.put_snapshot call).Acceptable sha256)
    {sources : Files} {snapshot : Json}
    (hdescribes : Describes sha256 formats l sources call snapshot) :
    SourceNamed sha256 snapshot := by
  obtain ⟨normalized, source_id, hnormalized, hsource, rfl⟩ := hdescribes.shape
  have hreads := reads_snapshotWith sha256 call.call normalized source_id
  have hlocator : source_id_for_locator sha256 normalized =
      source_id_for_locator sha256 call.call.locator := by
    rw [source_id_for_locator, source_id_for_locator, hnormalized,
      normalized_locator_idem hnormalized]
  rw [SourceNamed, hreads.locator, textOf_of_get? hreads.source_id, Option.getD_some]
  rw [sourceIdOf] at hsource
  cases hgiven : call.call.source_id with
  | none =>
      rw [hgiven] at hsource
      exact hsource
  | some given =>
      simp only [hgiven] at hsource
      split_ifs at hsource with hempty
      · exact hsource
      · cases hsource
        rw [hlocator]
        exact hcall.2 source_id hgiven hempty

theorem AllAcceptable.step (h : Consistent sha256 formats l files)
    (hall : AllAcceptable sha256 l files) {call : Call} (hkept : call.isRedaction = false)
    (hcall : call.Acceptable sha256) :
    ∃ l', Consistent sha256 formats l' (SourceSnapshotStore.step sha256 formats files call).2 ∧
      AllAcceptable sha256 l' (SourceSnapshotStore.step sha256 formats files call).2 := by
  cases call with
  | artifact call =>
      refine ⟨_, h.put_artifact call, ?_, hall.named⟩
      cases call with
      | put_bytes data media_type temp temp' =>
          exact fun text item => typed_put_bytes hcall hall.typed text
      | redact id request temp => cases hkept
      | _ => exact hall.typed
  | put_snapshot call =>
      obtain ⟨l', hconsistent, -, hledger, hwritten⟩ := h.put_snapshot call
      refine ⟨l', hconsistent, ?_, ?_⟩
      · rcases hledger with rfl | rfl
        · exact hall.typed
        · exact fun text item => typed_put_bytes hcall.1 hall.typed text
      · rintro snapshot ⟨path, data, hdata, hload⟩
        change (SourceSnapshotStore.put_snapshot sha256 formats call.call files).2.sources[path]? =
          some data at hdata
        rcases hwritten with hsame | ⟨stored, hdescribes, hinsert⟩
        · rw [hsame] at hdata
          exact hall.named snapshot ⟨path, data, hdata, hload⟩
        · rw [hinsert, KeyMap.get?_insert] at hdata
          split_ifs at hdata with hpath
          · cases hdata
            rw [Json.loadText_canonical hdescribes.wf] at hload
            obtain rfl := Except.ok.inj hload
            exact sourceNamed_of_call hcall hdescribes
          · exact hall.named snapshot ⟨path, data, hdata, hload⟩

theorem allAcceptable_run (h : Consistent sha256 formats l files)
    (hall : AllAcceptable sha256 l files) {calls : List Call}
    (hkept : ∀ call ∈ calls, call.isRedaction = false)
    (hcalls : ∀ call ∈ calls, call.Acceptable sha256) :
    ∃ l', Consistent sha256 formats l' (Runs.after (step sha256 formats) files calls) ∧
      AllAcceptable sha256 l' (Runs.after (step sha256 formats) files calls) := by
  induction calls generalizing l files with
  | nil => exact ⟨l, h, hall⟩
  | cons call calls ih =>
      obtain ⟨l', h', hall'⟩ :=
        hall.step h (hkept call List.mem_cons_self) (hcalls call List.mem_cons_self)
      exact ih h' hall' (fun c hc => hkept c (List.mem_cons_of_mem _ hc))
        fun c hc => hcalls c (List.mem_cons_of_mem _ hc)

/-- After acceptable calls the stores are acceptable. -/
theorem acceptable_run {calls : List Call} (hkept : ∀ call ∈ calls, call.isRedaction = false)
    (hcalls : ∀ call ∈ calls, call.Acceptable sha256) :
    Acceptable sha256 (Runs.after (step sha256 formats) ⟨∅, ∅⟩ calls) := by
  have hempty : AllAcceptable sha256 .empty ⟨∅, ∅⟩ := by
    constructor
    · intro text item hitem
      simp [ArtifactLedger.empty] at hitem
    · rintro snapshot ⟨path, data, hdata, -⟩
      simp at hdata
  obtain ⟨l, h, hall⟩ := allAcceptable_run (consistent_empty sha256 formats) hempty hkept hcalls
  refine ⟨?_, hall.named⟩
  intro item hitem
  obtain ⟨id, hid⟩ := (storedManifest_iff h).mp hitem
  exact hall.typed id.text item hid

/-- The audit accepts what the writers have written, without a redaction, exactly when no stored
manifest has an empty media type and every stored snapshot has the source id of its locator; so it
accepts all that calls give whose media types are not empty and whose source ids, where they are
given, are those of their locators. -/
theorem audit_accepts_iff_acceptable (sha256 : Sha256) (formats : FormatChecker) (calls : List Call)
    (hkept : ∀ call ∈ calls, call.isRedaction = false) (disk : Disk) (root : String)
    (hdisk : OnDisk (Runs.after (step sha256 formats) ⟨∅, ∅⟩ calls) (disk root)) (manifest : Json)
    (hvalid : KnowledgePackValidator.validate formats manifest = .ok ())
    (hindexed : Indexed (Runs.after (step sha256 formats) ⟨∅, ∅⟩ calls) (disk root) manifest) :
    (AuditAccepts sha256 formats disk root manifest (CreatedDuring sha256 formats calls) ↔
      Acceptable sha256 (Runs.after (step sha256 formats) ⟨∅, ∅⟩ calls)) ∧
    ((∀ call ∈ calls, call.Acceptable sha256) →
      AuditAccepts sha256 formats disk root manifest (CreatedDuring sha256 formats calls)) := by
  obtain ⟨l, hconsistent, -, hwhole⟩ := consistent_run (consistent_empty sha256 formats) calls
  have hwritten : Written sha256 formats l (Runs.after (step sha256 formats) ⟨∅, ∅⟩ calls)
      (disk root) :=
    ⟨hconsistent, hwhole hkept (ArtifactLedger.whole_empty sha256), hdisk⟩
  have hcited : ∀ citation, CreatedDuring sha256 formats calls citation →
      ∃ snapshot_id byte_start byte_end, create_citation sha256
        (Runs.after (step sha256 formats) ⟨∅, ∅⟩ calls) snapshot_id byte_start byte_end =
          .ok citation := by
    rintro citation ⟨earlier, later, snapshot_id, byte_start, byte_end, rfl, hcreate⟩
    refine ⟨snapshot_id, byte_start, byte_end, ?_⟩
    obtain ⟨l₁, h₁, -, hwhole₁⟩ := consistent_run (consistent_empty sha256 formats) earlier
    obtain ⟨l₂, h₂, hlater, hwhole₂⟩ := consistent_run h₁ later
    rw [Runs.after_append]
    exact create_citation_later h₁ h₂ hlater
      (hwhole₂ (fun call hcall => hkept call (List.mem_append_right _ hcall))
        (hwhole₁ (fun call hcall => hkept call (List.mem_append_left _ hcall))
          (ArtifactLedger.whole_empty sha256))) hcreate
  have hiff := hwritten.accepted_iff hvalid hindexed hcited
  exact ⟨hiff, fun hcalls => hiff.mpr (acceptable_run hkept hcalls)⟩

end Accepted

/-! ## A pack with one artifact -/

section Sample

open SourceSnapshotStore

def evidenceManifest (media_type : String) : Json :=
  manifestFor evidenceDigest evidenceText media_type

/-- A pack directory with an artifact and an index that lists it. -/
def evidencePack (media_type : String) : Directory where
  files := (((∅ : Files).insert (artifactBlobPath evidenceDigest) evidenceText).insert
    (artifactManifestPath (artifact_id_for_digest evidenceDigest))
    (evidenceManifest media_type).canonical).insert ["index.jsonl"]
      (evidenceManifest media_type).canonical
  folders := []

/-- A manifest that names one index of artifacts. -/
def indexedManifest : Json := commonManifest.set "artifact_manifests" (.arr [.str "index.jsonl"])

def putEvidence (media_type : String) : List Call :=
  [.artifact (.put_bytes evidenceText media_type "u1" "u2")]

def filesWithEvidence (media_type : String) : SourceFiles :=
  Runs.after (step .hashlib StoreConfig.plain.formats) ⟨∅, ∅⟩ (putEvidence media_type)

theorem ledger_evidence (media_type : String) :
    (ArtifactLedger.empty.put_bytes .hashlib evidenceText media_type).2 =
      { ArtifactLedger.empty with
        blobs := (∅ : KeyMap String ByteArray).insert evidenceDigest evidenceText
        manifests := (∅ : KeyMap String Json).insert (artifact_id_for_digest evidenceDigest)
          (evidenceManifest media_type) } := by
  simp [ArtifactLedger.put_bytes, ArtifactLedger.putManifest, ArtifactLedger.empty,
    hexdigest_evidenceText, evidenceManifest]

theorem consistent_evidence (media_type : String) :
    Consistent .hashlib StoreConfig.plain.formats
      (ArtifactLedger.empty.put_bytes .hashlib evidenceText media_type).2
      (filesWithEvidence media_type) :=
  (consistent_empty .hashlib StoreConfig.plain.formats).put_artifact
    (.put_bytes evidenceText media_type "u1" "u2")

theorem artifacts_evidence (media_type : String) :
    (filesWithEvidence media_type).artifacts =
      ((∅ : Files).insert (ArtifactStore.blob_path evidenceDigest) evidenceText).insert
        (ArtifactStore.manifest_path (artifact_id_for_digest evidenceDigest))
        (evidenceManifest media_type).canonical := by
  have hholds := (consistent_evidence media_type).stored.holds
  have hempty := (storedAs_emptyArtifacts (L := ArtifactStore.layout) .hashlib).holds
  have hinsert := holds_insert_manifest (holds_insert_blob hempty
    (Sha256.hashlib.digest evidenceText) evidenceText) (Sha256.hashlib.digest evidenceText).artifactId
    (evidenceManifest media_type)
  have hdigest : (Sha256.hashlib.digest evidenceText).text = evidenceDigest :=
    hexdigest_evidenceText
  rw [ledger_evidence] at hholds
  rw [evidenceArtifact_eq, hdigest] at hinsert
  have hsame := hholds.unique hinsert
  rw [hsame]
  show ((∅ : Files).insert (ArtifactStore.blob_path (Sha256.hashlib.digest evidenceText).text) _).insert
    (ArtifactStore.manifest_path (Sha256.hashlib.digest evidenceText).artifactId.text) _ = _
  rw [evidenceArtifact_eq, hdigest]

theorem onDisk_evidence (media_type : String) :
    OnDisk (filesWithEvidence media_type) (evidencePack media_type) := by
  constructor
  · intro path
    rw [artifacts_evidence]
    simp only [evidencePack, KeyMap.get?_insert, artifactBlobPath, artifactManifestPath,
      ArtifactStore.manifest_path, ArtifactStore.blob_path, List.cons.injEq, true_and]
    rw [if_neg (by simp)]
    simp
  · intro path
    have hsources : (filesWithEvidence media_type).sources = ∅ := rfl
    rw [hsources]
    simp [evidencePack, artifactBlobPath, artifactManifestPath]

theorem storedManifest_evidence (media_type : String) {item : Json} :
    StoredManifest (filesWithEvidence media_type) item ↔ item = evidenceManifest media_type := by
  rw [storedManifest_iff (consistent_evidence media_type), ledger_evidence]
  constructor
  · rintro ⟨id, hid⟩
    dsimp only at hid
    rw [KeyMap.get?_insert] at hid
    split_ifs at hid
    · exact (Option.some.inj hid).symm
    · simp at hid
  · rintro rfl
    refine ⟨(Sha256.hashlib.digest evidenceText).artifactId, ?_⟩
    rw [evidenceArtifact_eq]
    exact KeyMap.get?_insert_self _ _ _

theorem indexed_evidence {media_type : String}
    (hlisted : listedManifests (evidencePack media_type) indexedManifest =
      .ok [evidenceManifest media_type]) :
    Indexed (filesWithEvidence media_type) (evidencePack media_type) indexedManifest := by
  refine ⟨_, hlisted, List.nodup_singleton _, ?_⟩
  intro item
  rw [List.mem_singleton, storedManifest_evidence]

/-- The manifest is written on one line. -/
theorem one_line {media_type : String}
    (h : ((evidenceManifest media_type).print.all fun c => !isLineEnd c) = true) :
    listedManifests (evidencePack media_type) indexedManifest =
      .ok [evidenceManifest media_type] := by
  have hrelatives : iterate ((indexedManifest.get? "artifact_manifests").getD (.arr [])) =
      .ok [.str "index.jsonl"] := rfl
  have hfile : (evidencePack media_type).read_bytes ["index.jsonl"] =
      .ok (evidenceManifest media_type).canonical := by
    rw [Directory.read_bytes, evidencePack, KeyMap.get?_insert_self]
  have hlines : indexLines ((evidenceManifest media_type).dumps ++ "\n") =
      [(1, (evidenceManifest media_type).dumps)] := by
    apply indexLines_line
    · intro c hc
      rw [Json.dumps, String.toList_ofList] at hc
      simpa using List.all_eq_true.mp h c hc
    · rw [Text.isBlank, Json.dumps, String.toList_ofList]
      rfl
  have hload : Json.loads (evidenceManifest media_type).dumps =
      .ok (evidenceManifest media_type) := by
    have hloads := Json.loads_dumps_append
      (ArtifactLedger.wf_manifestFor evidenceDigest evidenceText media_type) "" (by decide)
    rwa [String.append_empty] at hloads
  have hlisted : listedIn (evidencePack media_type) (.str "index.jsonl") =
      .ok [evidenceManifest media_type] := by
    rw [listedIn, show relativePath (Json.str "index.jsonl").pyStr = ["index.jsonl"] by decide,
      hfile]
    simp only [bind, Except.bind, Json.readText_canonical, liftPy_ok, hlines, List.mapM_cons,
      List.mapM_nil, hload]
    rfl
  rw [listedManifests, hrelatives]
  simp only [bind, Except.bind, List.mapM_cons, List.mapM_nil, hlisted]
  rfl

theorem valid_indexedManifest :
    KnowledgePackValidator.validate StoreConfig.plain.formats indexedManifest = .ok () := by
  decide +kernel

theorem written_evidence (media_type : String) : Written .hashlib StoreConfig.plain.formats
    (ArtifactLedger.empty.put_bytes .hashlib evidenceText media_type).2
    (filesWithEvidence media_type) (evidencePack media_type) :=
  ⟨consistent_evidence media_type, (ArtifactLedger.whole_empty .hashlib).put_bytes _ _,
    onDisk_evidence media_type⟩

/-- An artifact is put with an empty media type, and the audit refuses it. -/
theorem untyped_artifact_refused :
    OnDisk (filesWithEvidence "") (evidencePack "") ∧
      KnowledgePackValidator.validate StoreConfig.plain.formats indexedManifest = .ok () ∧
      Indexed (filesWithEvidence "") (evidencePack "") indexedManifest ∧
      ¬ AuditAccepts .hashlib StoreConfig.plain.formats (fun _ => evidencePack "") "pack"
        indexedManifest (CreatedDuring .hashlib StoreConfig.plain.formats (putEvidence "")) := by
  have hindexed : Indexed (filesWithEvidence "") (evidencePack "") indexedManifest :=
    indexed_evidence (one_line (by decide +kernel))
  have hwritten := written_evidence ""
  refine ⟨onDisk_evidence "", valid_indexedManifest, hindexed, ?_⟩
  rintro ⟨artifacts, snapshots, hread, -⟩
  have htyped := (hwritten.read_artifacts_iff hindexed).mp ⟨artifacts, hread⟩ (evidenceManifest "")
    ((storedManifest_evidence "").mpr rfl)
  exact htyped (get?_media_type _ _ _)

theorem audit_accepts_evidence :
    AuditAccepts .hashlib StoreConfig.plain.formats (fun _ => evidencePack "text/plain") "pack"
      indexedManifest (CreatedDuring .hashlib StoreConfig.plain.formats
        (putEvidence "text/plain")) := by
  have hkept : ∀ call ∈ putEvidence "text/plain", call.isRedaction = false := by
    simp [putEvidence, Call.isRedaction, ArtifactLedger.isRedaction]
  have hcalls : ∀ call ∈ putEvidence "text/plain", call.Acceptable .hashlib := by
    simp [putEvidence, Call.Acceptable]
  exact (audit_accepts_iff_acceptable .hashlib StoreConfig.plain.formats
    (putEvidence "text/plain") hkept (fun _ => evidencePack "text/plain") "pack"
    (onDisk_evidence "text/plain") indexedManifest valid_indexedManifest
    (indexed_evidence (one_line (by decide +kernel)))).2 hcalls

end Sample

end FossilCore
