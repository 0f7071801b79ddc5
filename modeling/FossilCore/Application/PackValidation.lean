import FossilCore.Domain.EventContracts
import FossilCore.Domain.PackSetLock

/-!
# Manifest validation

`KnowledgePackValidator` of `application/ingest/pack_validation.py`, the schema it checks, and
what it makes of locks: over accepted manifests, a lock is accepted exactly when it is what the
builder writes.
-/

namespace FossilCore

open Base

def dependencySchema : Schema :=
  Schema.allOf [Schema.type [.object], Schema.closed ["pack_id", "required", "reason"],
    Schema.required ["pack_id", "required"],
    Schema.properties [("pack_id", _PACK_ID), ("required", Schema.type [.boolean]),
      ("reason", Schema.type [.string])]]

def dependenciesSchema : Schema :=
  Schema.allOf [Schema.type [.array], Schema.items dependencySchema]

def knowledgePackProperties (formats : FormatChecker) : List (String × Schema) :=
  [("contract_version", Schema.const (.str "dkg.pack.v1")),
    ("pack_id", _PACK_ID),
    ("name", _string 1),
    ("kind", Schema.enum
      (["common", "domain", "project", "personal", "experimental"].map .str)),
    ("description", Schema.type [.string]),
    ("schema_version", _string 1),
    ("ontology_requirements", Schema.allOf [Schema.type [.array], Schema.items (Schema.allOf
      [Schema.type [.object], Schema.closed ["ontology_id", "version_constraint"],
        Schema.required ["ontology_id", "version_constraint"],
        Schema.properties [("ontology_id", _string 1), ("version_constraint", _string 1)]])]),
    ("dependencies", dependenciesSchema),
    ("read_mounts", Schema.allOf [Schema.type [.array], Schema.uniqueItems, Schema.items _PACK_ID]),
    ("write_targets",
      Schema.allOf [Schema.type [.array], Schema.uniqueItems, Schema.items _PACK_ID]),
    ("event_roots",
      Schema.allOf [Schema.type [.array], Schema.minItems 1, Schema.items (_string 1)]),
    ("artifact_manifests", Schema.allOf [Schema.type [.array], Schema.items (_string 1)]),
    ("placement_hint",
      Schema.enum (["unspecified", "shared", "dedicated", "external"].map .str)),
    ("projection_namespace", Schema.type [.string, .null]),
    ("source_policy_ref", Schema.type [.string, .null]),
    ("created_at", Schema.allOf [Schema.type [.string], Schema.format formats.isDateTime])]

/-- `schemas/knowledge-pack/v1.schema.json` -/
def knowledgePackSchema (formats : FormatChecker) : Schema :=
  Schema.allOf [Schema.type [.object], Schema.closed ((knowledgePackProperties formats).map Prod.fst),
    Schema.required ["contract_version", "pack_id", "name", "kind", "schema_version", "read_mounts",
      "write_targets", "event_roots", "artifact_manifests"],
    Schema.properties (knowledgePackProperties formats)]

/-- `value in manifest[key]` for a list of texts -/
def listed (value : Json) (manifest : Json) (key : String) : Except Error Bool := do
  let items ← liftPy (manifest.getItem key)
  return value ∈ items.items

def validateWriteTarget (manifest target : Json) : Except Error Unit := do
  let readable ← listed target manifest "read_mounts"
  if readable then return ()
  else .error (.packBoundaryError "every write target must also be readable")

def validateRequiredMount (manifest dependency : Json) : Except Error Unit := do
  let required ← liftPy (dependency.getItem "required")
  if !required.truthy then return ()
  else
    let target ← liftPy (dependency.getItem "pack_id")
    let readable ← listed target manifest "read_mounts"
    if readable then return ()
    else .error (.packBoundaryError "every required dependency must be in read_mounts")

def KnowledgePackValidator.validate (formats : FormatChecker) (manifest : Json) :
    Except Error Unit := do
  validateSchema (knowledgePackSchema formats) manifest
  let pack_id ← liftPy (manifest.getItem "pack_id")
  let readable ← listed pack_id manifest "read_mounts"
  if !readable then .error (.packBoundaryError "a pack must be able to read itself")
  else
    let write_targets ← liftPy (manifest.getItem "write_targets")
    write_targets.items.forM (validateWriteTarget manifest)
    ((manifest.get? "dependencies").getD (.arr [])).items.forM (validateRequiredMount manifest)

/-! ## Accepted manifests -/

theorem schema_of_validate {formats : FormatChecker} {manifest : Json}
    (h : KnowledgePackValidator.validate formats manifest = .ok ()) :
    knowledgePackSchema formats manifest = true := by
  obtain ⟨⟨⟩, hschema, -⟩ := bind_eq_ok.mp h
  exact validateSchema_ok.mp hschema

theorem dependencies_of_schema {formats : FormatChecker} {manifest declared : Json}
    (h : knowledgePackSchema formats manifest = true)
    (hget : manifest.get? "dependencies" = some declared) :
    ∃ items, declared = .arr items ∧ ∀ dependency ∈ items, dependencySchema dependency = true := by
  have hproperties : Schema.properties (knowledgePackProperties formats) manifest = true :=
    Schema.allOf_iff.mp h _ (by simp)
  have hschema : dependenciesSchema declared = true :=
    Schema.of_properties hproperties (by simp [knowledgePackProperties]) hget
  have hparts := Schema.allOf_iff.mp hschema
  obtain ⟨items, rfl⟩ := Schema.isArr_of_type (hparts _ List.mem_cons_self)
  have hitems : Schema.items dependencySchema (.arr items) = true :=
    hparts _ (List.mem_cons_of_mem _ List.mem_cons_self)
  exact ⟨items, rfl, List.all_eq_true.mp hitems⟩

/-- An accepted manifest declares its dependencies as the lock code reads them. -/
theorem isManifest_of_validate {formats : FormatChecker} {manifest : Json}
    (h : KnowledgePackValidator.validate formats manifest = .ok ()) : IsManifest manifest := by
  have hschema := schema_of_validate h
  obtain ⟨fields, hfields⟩ := Schema.isObj_of_type (Schema.allOf_iff.mp hschema _ List.mem_cons_self)
  have hmember : ∀ dependency ∈ declaredDependencies manifest, ∀ key ∈ ["pack_id", "required"],
      ∃ w, dependency.get? key = some w := by
    intro dependency hdependency key hkey
    cases hget : manifest.get? "dependencies" with
    | none =>
        rw [declaredDependencies, hget] at hdependency
        cases hdependency
    | some declared =>
        obtain ⟨items, rfl, hitems⟩ := dependencies_of_schema hschema hget
        rw [declaredDependencies, hget] at hdependency
        have hparts := Schema.allOf_iff.mp (hitems dependency hdependency)
        obtain ⟨members, rfl⟩ := Schema.isObj_of_type (hparts _ List.mem_cons_self)
        exact Schema.get?_of_required (hparts _ (by simp)) hkey
  constructor
  · rw [hfields]
    rfl
  · cases hget : manifest.get? "dependencies" with
    | none => rfl
    | some declared =>
        obtain ⟨items, rfl, -⟩ := dependencies_of_schema hschema hget
        rfl
  · exact fun dependency hdependency => hmember dependency hdependency "pack_id" (by simp)
  · exact fun dependency hdependency => hmember dependency hdependency "required" (by simp)

/-! ## Locks over accepted manifests -/

/-- Over accepted manifests a lock is a pin that can be rebuilt: it is accepted exactly when the
builder writes it for its packs and its revisions.  So every built lock is accepted, no two locks
over the same packs and revisions are, and nothing else in the catalog counts. -/
theorem validate_packset_lock_iff (sha256 : Sha256) (formats : FormatChecker)
    (catalog : PackCatalog)
    (haccepted : ∀ manifest ∈ catalog.values,
      KnowledgePackValidator.validate formats manifest = .ok ()) (hids : FullIds catalog) :
    (∀ lock : Json, lock.WF →
      (validate_packset_lock sha256 lock catalog = .ok () ↔
        ∃ revisions, pack_revisions_from_lock lock = .ok revisions ∧
          build_packset_lock sha256 (restrictCatalog catalog revisions) revisions = .ok lock)) ∧
    (∀ revisions lock, build_packset_lock sha256 catalog revisions = .ok lock →
      validate_packset_lock sha256 lock catalog = .ok ()) ∧
    (∀ lock lock' : Json, lock.WF → lock'.WF →
      validate_packset_lock sha256 lock catalog = .ok () →
        validate_packset_lock sha256 lock' catalog = .ok () →
          pack_revisions_from_lock lock = pack_revisions_from_lock lock' → lock = lock') ∧
    ∀ (lock : Json) (other : PackCatalog),
      (∀ revisions, pack_revisions_from_lock lock = .ok revisions →
        ∀ pack_id ∈ revisions.keys, other.get? pack_id = catalog.get? pack_id) →
      validate_packset_lock sha256 lock other = validate_packset_lock sha256 lock catalog := by
  have hall : ∀ manifest ∈ catalog.values, IsManifest manifest :=
    fun manifest hmanifest => isManifest_of_validate (haccepted manifest hmanifest)
  refine ⟨fun lock hwf => validate_ok_iff_build hall hwf, ?_, ?_, ?_⟩
  · exact fun revisions lock hbuild => validate_of_build hall hids hbuild
  · intro lock lock' hwf hwf' hvalid hvalid' hsame
    obtain ⟨revisions, hrevisions, hbuild⟩ := (validate_ok_iff_build hall hwf).mp hvalid
    obtain ⟨revisions', hrevisions', hbuild'⟩ := (validate_ok_iff_build hall hwf').mp hvalid'
    rw [hrevisions, hrevisions'] at hsame
    rw [← Except.ok.inj hsame, hbuild] at hbuild'
    exact Except.ok.inj hbuild'
  · exact fun lock other h => validate_congr h

/-! ## A project pack on a common pack -/

def anyFormat : FormatChecker := ⟨fun _ => true, fun _ => true⟩

def packManifest (pack_id kind : String) (mounts : List String) (dependencies : List Json) : Json :=
  .ofMembers [("contract_version", .str "dkg.pack.v1"), ("pack_id", .str pack_id),
    ("name", .str pack_id), ("kind", .str kind), ("schema_version", .str "1"),
    ("dependencies", .arr dependencies), ("read_mounts", .arr (mounts.map .str)),
    ("write_targets", .arr [.str pack_id]), ("event_roots", .arr [.str "events"]),
    ("artifact_manifests", .arr [])]

def commonManifest : Json := packManifest commonPack "common" [commonPack] []

def projectManifest : Json :=
  packManifest projectPack "project" [projectPack, commonPack] [requiredDependency commonPack]

def mountedPacks : PackCatalog :=
  (Dict.empty.set projectPack projectManifest).set commonPack commonManifest

theorem values_mountedPacks : mountedPacks.values = [projectManifest, commonManifest] := by
  decide +kernel

theorem accepted_mountedPacks : ∀ manifest ∈ mountedPacks.values,
    KnowledgePackValidator.validate anyFormat manifest = .ok () := by
  rw [values_mountedPacks]
  intro manifest hmanifest
  rcases List.mem_pair.mp hmanifest with rfl | rfl
  · rfl
  · rfl

theorem fullIds_mountedPacks : FullIds mountedPacks := by
  constructor
  · rw [values_mountedPacks]
    decide +kernel
  · rw [values_mountedPacks]
    decide +kernel

theorem validate_packset_lock_iff_of_two :
    (∀ lock : Json, lock.WF →
      (validate_packset_lock .hashlib lock mountedPacks = .ok () ↔
        ∃ revisions, pack_revisions_from_lock lock = .ok revisions ∧
          build_packset_lock .hashlib (restrictCatalog mountedPacks revisions) revisions =
            .ok lock)) ∧
    ∀ revisions lock, build_packset_lock .hashlib mountedPacks revisions = .ok lock →
      validate_packset_lock .hashlib lock mountedPacks = .ok () := by
  have h := validate_packset_lock_iff .hashlib anyFormat mountedPacks accepted_mountedPacks
    fullIds_mountedPacks
  exact ⟨h.1, h.2.1⟩

end FossilCore
