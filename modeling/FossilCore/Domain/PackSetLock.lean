import FossilCore.Base.JsonObject
import FossilCore.Base.JsonText
import FossilCore.Domain.Identity
import FossilCore.Domain.PackSet

/-!
# Pack-set locks

`build_packset_lock`, `pack_revisions_from_lock` and `validate_packset_lock` of
`domain/packset.py`.  A lock that has the required shape is the JSON form of a list of records;
what the builder writes and what the validator accepts are the same lists.
-/

namespace FossilCore

open Base

def PACKSET_LOCK_CONTRACT_VERSION : String := "dkg.packset-lock.v1"

def _PACK_RECORD_FIELDS : List String := ["pack_id", "revision", "manifest_digest", "dependencies"]

def _DIGEST_FIELDS : List String := ["algorithm", "digest"]

def _DEPENDENCY_FIELDS : List String := ["pack_id", "required"]

/-- `_PACK_ID_RE.fullmatch` -/
def isPackId (s : String) : Bool :=
  Text.startsWith s "pack_" ∧ 16 ≤ (Text.drop s 5).toList.length ∧
    (Text.drop s 5).toList.all Schema.isWordChar

/-- `_HEX64_RE.fullmatch` -/
def isHex64 (s : String) : Bool := s.toList.length = 64 ∧ s.toList.all isHexChar

def canonical_manifest_digest (sha256 : Sha256) (manifest : Json) : String :=
  sha256.hexdigest manifest.dumps.toUTF8

/-- `repr` of a list of texts -/
def reprTexts (texts : List String) : String := (Json.arr (texts.map .str)).pyRepr

namespace Error

def packSetLockError (message : String) : Error := ⟨.packSetLockError, message⟩

def revisionRequired (pack_id : String) : Error :=
  packSetLockError ("pack " ++ pack_id ++ " requires a non-empty exact revision")

end Error

/-! ## Building -/

def resolvedRecord (entry : String × Json) : Except Error Json := do
  let required ← liftPy (entry.2.getItem "required")
  return .ofMembers [("pack_id", .str entry.1), ("required", .bool required.truthy)]

def _resolved_dependencies (manifest : Json) (mounted_pack_ids : List String) :
    Except Error (List Json) := do
  let dependencies ← _dependencies_by_target manifest
  ((sortedBy Prod.fst dependencies.entries).filter fun entry => entry.1 ∈ mounted_pack_ids).mapM
    resolvedRecord

def packRecord (sha256 : Sha256) (mounted : List String) (revisions : Dict String Json)
    (entry : String × Json) : Except Error Json :=
  match revisions.get? entry.1 with
  | none => .error (.keyError entry.1)
  | some (.str revision) =>
      if Text.isBlank revision then .error (.revisionRequired entry.1)
      else do
        let dependencies ← _resolved_dependencies entry.2 mounted
        return .ofMembers [("pack_id", .str entry.1), ("revision", .str revision),
          ("manifest_digest", .ofMembers [("algorithm", .str "sha256"),
            ("digest", .str (canonical_manifest_digest sha256 entry.2))]),
          ("dependencies", .arr dependencies)]
  | some _ => .error (.revisionRequired entry.1)

def build_packset_lock (sha256 : Sha256) (validated_manifests : PackCatalog)
    (revisions : Dict String Json) : Except Error Json :=
  let mounted := validated_manifests.keys
  if mounted = [] then
    .error (.packSetLockError "packset lock requires at least one mounted pack")
  else do
    validate_pack_dependency_graph validated_manifests
    let missing := sorted (mounted.filter fun pack_id => pack_id ∉ revisions.keys)
    let extra := sorted (revisions.keys.filter fun pack_id => pack_id ∉ mounted)
    if missing ≠ [] then
      .error (.packSetLockError
        ("missing exact revision for mounted pack(s): " ++ reprTexts missing))
    else if extra ≠ [] then
      .error (.packSetLockError
        ("unresolved revision pack(s) are not mounted: " ++ reprTexts extra))
    else
      let packs ← (sortedBy Prod.fst validated_manifests.entries).mapM
        (packRecord sha256 mounted revisions)
      return .ofMembers [("contract_version", .str PACKSET_LOCK_CONTRACT_VERSION),
        ("packs", .arr packs)]

/-! ## Reading -/

/-- `set(value) == fields` -/
def hasExactly (value : Json) (fields : List String) : Except Error Bool := do
  let keys ← iterate value
  if keys.all Json.hashable then
    return (keys.all fun key => key ∈ fields.map Json.str) &&
      fields.all fun field => .str field ∈ keys
  else .error .typeError

/-- `repr(value)` where `None` stands in for an absent member. -/
def reprMember (value : Option Json) : String := (value.getD .null).pyRepr

def _lock_records (lock : Json) : Except Error (List Json) := do
  let exact ← hasExactly lock ["contract_version", "packs"]
  if !exact then
    .error (.packSetLockError ("packset lock fields must be exactly contract_version and packs; " ++
      "lock digest is external"))
  else
    let version ← liftPy (lock.getMethod "contract_version")
    if version ≠ some (.str PACKSET_LOCK_CONTRACT_VERSION) then
      .error (.packSetLockError ("unsupported packset lock contract: " ++ reprMember version))
    else
      let packs ← liftPy (lock.getMethod "packs")
      match packs with
      | some (.arr (first :: rest)) =>
          if (first :: rest).all Json.isObj then return first :: rest
          else .error (.packSetLockError "packset lock pack records must be objects")
      | _ => .error (.packSetLockError "packset lock requires at least one pack record")

def validateLockRevision (pack_id : String) (record : Json) : Except Error Unit :=
  match record.get? "revision" with
  | some (.str revision) =>
      if Text.isBlank revision then .error (.revisionRequired pack_id) else .ok ()
  | _ => .error (.revisionRequired pack_id)

def validateLockDigest (pack_id : String) (record : Json) : Except Error Unit :=
  match record.get? "manifest_digest" with
  | some (.obj fields) => do
      let digest := Json.obj fields
      let exact ← hasExactly digest _DIGEST_FIELDS
      if !exact then
        .error (.packSetLockError
          ("pack " ++ pack_id ++ " manifest digest fields must be exactly algorithm and digest"))
      else if digest.get? "algorithm" ≠ some (.str "sha256") then
        .error (.packSetLockError ("pack " ++ pack_id ++ " manifest digest must use sha256"))
      else
        match digest.get? "digest" with
        | some (.str text) =>
            if isHex64 text then .ok ()
            else .error (.packSetLockError
              ("pack " ++ pack_id ++ " manifest digest must be 64 lowercase hex chars"))
        | _ =>
            .error (.packSetLockError ("pack " ++ pack_id ++ " manifest digest must use sha256"))
  | _ =>
      .error (.packSetLockError
        ("pack " ++ pack_id ++ " manifest digest fields must be exactly algorithm and digest"))

def validateLockDependency (pack_id : String) (dependency_ids : List String) (dependency : Json) :
    Except Error (List String) :=
  if !dependency.isObj then
    .error (.packSetLockError ("pack " ++ pack_id ++ " dependency records must be objects"))
  else do
    let exact ← hasExactly dependency _DEPENDENCY_FIELDS
    if !exact then
      .error (.packSetLockError
        ("pack " ++ pack_id ++ " dependency fields must be exactly pack_id and required"))
    else
      match dependency.get? "pack_id" with
      | some (.str target) =>
          if !isPackId target then
            .error (.packSetLockError ("pack " ++ pack_id ++ " has invalid dependency pack_id: " ++
              Text.repr target))
          else
            match dependency.get? "required" with
            | some (.bool _) =>
                if target ∈ dependency_ids then
                  .error (.packSetLockError
                    ("duplicate dependency in lock for pack " ++ pack_id ++ ": " ++ target))
                else return dependency_ids ++ [target]
            | _ =>
                .error (.packSetLockError ("pack " ++ pack_id ++ " dependency " ++ target ++
                  " required flag must be boolean"))
      | other =>
          .error (.packSetLockError ("pack " ++ pack_id ++ " has invalid dependency pack_id: " ++
            reprMember other))

def validateLockDependencies (pack_id : String) (record : Json) : Except Error Unit :=
  match record.get? "dependencies" with
  | some (.arr items) => do
      let dependency_ids ← items.foldlM (validateLockDependency pack_id) []
      if dependency_ids ≠ sorted dependency_ids then
        .error (.packSetLockError
          ("pack " ++ pack_id ++ " dependencies must be sorted by pack_id"))
      else return ()
  | _ => .error (.packSetLockError ("pack " ++ pack_id ++ " dependencies must be a list"))

def _validate_lock_record_shape (record : Json) : Except Error Unit := do
  let exact ← hasExactly record _PACK_RECORD_FIELDS
  if !exact then
    .error (.packSetLockError
      "pack record fields must be exactly pack_id, revision, manifest_digest, dependencies")
  else
    match record.get? "pack_id" with
    | some (.str pack_id) =>
        if !isPackId pack_id then
          .error (.packSetLockError ("invalid pack_id in packset lock: " ++ Text.repr pack_id))
        else
          validateLockRevision pack_id record
          validateLockDigest pack_id record
          validateLockDependencies pack_id record
    | other => .error (.packSetLockError ("invalid pack_id in packset lock: " ++ reprMember other))

def addRevision (by_pack : Dict String Json) (record : Json) : Except Error (Dict String Json) := do
  _validate_lock_record_shape record
  let pack_id ← liftPy (record.getItem "pack_id")
  let revision ← liftPy (record.getItem "revision")
  if by_pack.contains pack_id.pyStr then
    .error (.packSetLockError ("duplicate pack_id in packset lock: " ++ pack_id.pyStr))
  else return by_pack.set pack_id.pyStr (.str revision.pyStr)

/-- The keys of `by_pack` are the `sequence` of the source, in its order. -/
def pack_revisions_from_lock (lock : Json) : Except Error (Dict String Json) := do
  let records ← _lock_records lock
  let by_pack ← records.foldlM addRevision .empty
  if by_pack.keys ≠ sorted by_pack.keys then
    .error (.packSetLockError "packset lock pack records must be sorted by pack_id")
  else return by_pack

/-! ## Validation -/

theorem keys_restrict (catalog : PackCatalog) (ids : List String) :
    (ids.filterMap fun id => (catalog.get? id).map fun manifest => (id, manifest)).map Prod.fst =
      ids.filter fun id => catalog.contains id := by
  induction ids with
  | nil => rfl
  | cons id ids ih =>
      rw [List.filterMap_cons, List.filter_cons, Dict.contains]
      cases catalog.get? id with
      | none => exact ih
      | some manifest => exact congrArg (id :: ·) ih

/-- `{pack_id: dict(manifests[pack_id]) for pack_id in mounted}` -/
def restrictCatalog (catalog : PackCatalog) (revisions : Dict String Json) : PackCatalog where
  entries := revisions.keys.filterMap fun id =>
    (catalog.get? id).map fun manifest => (id, manifest)
  nodup := by
    rw [keys_restrict]
    exact revisions.nodup.filter _

def checkMounted (pack_id : String) (mounted : List String) (dependency : Json) :
    Except Error Unit := do
  let target ← liftPy (dependency.getItem "pack_id")
  if target.pyStr ∈ mounted then return ()
  else .error (.packSetLockError
    ("unresolved referenced pack in lock dependency: " ++ pack_id ++ " -> " ++ target.pyStr))

def normalizedDependency (dependency : Json) : Except Error Json := do
  let target ← liftPy (dependency.getItem "pack_id")
  let required ← liftPy (dependency.getItem "required")
  return .ofMembers [("pack_id", .str target.pyStr), ("required", required)]

def checkLockRecord (sha256 : Sha256) (mounted : List String) (mounted_manifests : PackCatalog)
    (record : Json) : Except Error Unit := do
  let pack_id ← liftPy (record.getItem "pack_id")
  let pack_id := pack_id.pyStr
  match mounted_manifests.get? pack_id with
  | none => .error (.keyError pack_id)
  | some manifest =>
      let dependencies ← liftPy (record.getItem "dependencies")
      let dependencies ← iterate dependencies
      dependencies.forM (checkMounted pack_id mounted)
      let expected ← _resolved_dependencies manifest mounted
      let normalized ← dependencies.mapM normalizedDependency
      if normalized ≠ expected then
        .error (.packSetLockError
          ("pack " ++ pack_id ++ " dependency metadata differs from validated manifest"))
      else
        let manifest_digest ← liftPy (record.getItem "manifest_digest")
        let digest ← liftPy (manifest_digest.getItem "digest")
        if digest ≠ .str (canonical_manifest_digest sha256 manifest) then
          .error (.packSetLockError
            ("pack " ++ pack_id ++ " manifest digest differs from validated manifest"))
        else return ()

def validate_packset_lock (sha256 : Sha256) (lock : Json) (manifests : PackCatalog) :
    Except Error Unit := do
  let revisions ← pack_revisions_from_lock lock
  let records ← _lock_records lock
  let mounted := revisions.keys
  let missing_manifests := sorted (mounted.filter fun pack_id => !manifests.contains pack_id)
  if missing_manifests ≠ [] then
    .error (.packSetLockError
      ("unresolved referenced pack manifest(s): " ++ reprTexts missing_manifests))
  else
    let mounted_manifests := restrictCatalog manifests revisions
    validate_pack_dependency_graph mounted_manifests
    records.forM (checkLockRecord sha256 mounted mounted_manifests)

/-! ## Lists of records -/

structure LockDependency where
  target : String
  required : Bool

def LockDependency.json (d : LockDependency) : Json :=
  .ofMembers [("pack_id", .str d.target), ("required", .bool d.required)]

structure LockRecord where
  pack_id : String
  revision : String
  digest : String
  dependencies : List LockDependency

namespace LockRecord

def json (r : LockRecord) : Json :=
  .ofMembers [("pack_id", .str r.pack_id), ("revision", .str r.revision),
    ("manifest_digest", .ofMembers [("algorithm", .str "sha256"), ("digest", .str r.digest)]),
    ("dependencies", .arr (r.dependencies.map LockDependency.json))]

structure Valid (r : LockRecord) : Prop where
  pack_id : isPackId r.pack_id = true
  revision : Text.isBlank r.revision = false
  digest : isHex64 r.digest = true
  targets : ∀ d ∈ r.dependencies, isPackId d.target = true
  sorted : (r.dependencies.map LockDependency.target).Pairwise (· < ·)

/-- The entry of the record in the revisions of the lock. -/
def revisionEntry (r : LockRecord) : String × Json := (r.pack_id, .str r.revision)

end LockRecord

def lockOf (records : List LockRecord) : Json :=
  .ofMembers [("contract_version", .str PACKSET_LOCK_CONTRACT_VERSION),
    ("packs", .arr (records.map LockRecord.json))]

/-! ## Which values have the shape -/

theorem hasExactly_obj {value : Json} (h : value.isObj = true) (fields : List String) :
    ∃ exact, hasExactly value fields = .ok exact ∧
      (exact = true ↔ ∀ key, key ∈ fields ↔ ∃ w, value.get? key = some w) := by
  obtain ⟨members, rfl⟩ := Json.isObj_iff.mp h
  have hkey : ∀ key, (∃ w, (Json.obj members).get? key = some w) ↔ key ∈ members.map Prod.fst := by
    intro key
    rw [← not_iff_not, ← Json.lookup_eq_none_iff]
    simp only [not_exists, Json.get?]
    exact Option.eq_none_iff_forall_ne_some.symm
  have hhash : ((members.map fun field => Json.str field.1).all Json.hashable) = true := by
    rw [List.all_eq_true]
    intro key hmem
    obtain ⟨field, -, rfl⟩ := List.mem_map.mp hmem
    rfl
  have hexact : hasExactly (.obj members) fields = .ok
      (((members.map fun field => Json.str field.1).all fun key => key ∈ fields.map Json.str) &&
        fields.all fun field => .str field ∈ members.map fun field => Json.str field.1) := by
    rw [hasExactly, iterate]
    show (if _ then _ else _) = _
    rw [if_pos hhash]
    rfl
  refine ⟨_, hexact, ?_⟩
  rw [Bool.and_eq_true, List.all_eq_true, List.all_eq_true]
  constructor
  · rintro ⟨hsub, hsup⟩ key
    rw [hkey]
    constructor
    · intro hfield
      obtain ⟨field, hmem, heq⟩ := List.mem_map.mp (of_decide_eq_true (hsup key hfield))
      rw [← Json.str.inj heq]
      exact List.mem_map_of_mem hmem
    · intro hname
      obtain ⟨field, hmem, rfl⟩ := List.mem_map.mp hname
      obtain ⟨key, hfield, heq⟩ := List.mem_map.mp
        (of_decide_eq_true (hsub (.str field.1) (List.mem_map_of_mem hmem)))
      rw [← Json.str.inj heq]
      exact hfield
  · intro hall
    constructor
    · intro key hname
      obtain ⟨field, hmem, rfl⟩ := List.mem_map.mp hname
      exact decide_eq_true (List.mem_map_of_mem
        ((hall field.1).mpr ((hkey field.1).mpr (List.mem_map_of_mem hmem))))
    · intro key hfield
      obtain ⟨field, hmem, rfl⟩ := List.mem_map.mp ((hkey key).mp ((hall key).mp hfield))
      exact decide_eq_true (List.mem_map_of_mem hmem)

/-- An object that has exactly the fields of a display, with its values, is the display. -/
theorem eq_display {value : Json} (hv : value.WF) (ho : value.isObj = true)
    {members : List (String × Json)} (hnodup : (members.map Prod.fst).Nodup)
    (hkeys : ∀ key, key ∈ members.map Prod.fst ↔ ∃ w, value.get? key = some w)
    (hvalues : ∀ m ∈ members, value.get? m.1 = some m.2) : value = .ofMembers members := by
  apply hv.eq_ofMembers ho hnodup
  intro key
  cases hlookup : Json.lookup key members with
  | some w => exact hvalues (key, w) (Json.mem_of_lookup hlookup)
  | none =>
      cases hget : value.get? key with
      | none => rfl
      | some w => exact absurd ((hkeys key).mpr ⟨w, hget⟩) (Json.lookup_eq_none_iff.mp hlookup)

theorem hasExactly_display {members : List (String × Json)}
    (hnodup : (members.map Prod.fst).Nodup) :
    hasExactly (.ofMembers members) (members.map Prod.fst) = .ok true := by
  obtain ⟨exact, hexact, hiff⟩ := hasExactly_obj (Json.isObj_ofMembers members)
    (members.map Prod.fst)
  rw [hexact]
  congr 1
  rw [hiff]
  intro key
  rw [← not_iff_not, ← Json.lookup_eq_none_iff, Json.get?_ofMembers_of_nodup hnodup]
  simp only [not_exists]
  exact Option.eq_none_iff_forall_ne_some

/-! ## The shape of a record -/

theorem validateLockDependency_ok_iff {dependency : Json} (hwf : dependency.WF)
    {pack_id : String} {ids ids' : List String} :
    validateLockDependency pack_id ids dependency = .ok ids' ↔
      ∃ d : LockDependency, dependency = d.json ∧ isPackId d.target = true ∧ d.target ∉ ids ∧
        ids' = ids ++ [d.target] := by
  constructor
  · intro h
    rw [validateLockDependency] at h
    split_ifs at h with hobj
    have ho : dependency.isObj = true := by simpa using hobj
    obtain ⟨exact, hexact, hfields⟩ := hasExactly_obj ho _DEPENDENCY_FIELDS
    rw [hexact] at h
    cases exact with
    | false => cases h
    | true =>
        have hfields := hfields.mp rfl
        change (match dependency.get? "pack_id" with
          | some (.str target) => _
          | other => _) = _ at h
        split at h
        · rename_i target htarget
          split_ifs at h with hid hdup
          · split at h <;> cases h
          split at h
          · rename_i required hrequired
            refine ⟨⟨target, required⟩, ?_, by simpa using hid, hdup, (Except.ok.inj h).symm⟩
            have hnodup : List.Nodup ["pack_id", "required"] := by decide
            refine @eq_display _ hwf ho [("pack_id", .str target), ("required", .bool required)]
              hnodup hfields ?_
            intro m hm
            rcases List.mem_pair.mp hm with rfl | rfl
            · exact htarget
            · exact hrequired
          · cases h
        · cases h
  · rintro ⟨d, rfl, hid, hfresh, rfl⟩
    have hexact : hasExactly d.json _DEPENDENCY_FIELDS = .ok true := by
      apply hasExactly_display
      show List.Nodup ["pack_id", "required"]
      decide
    have htarget : d.json.get? "pack_id" = some (.str d.target) := by
      rw [LockDependency.json, Json.get?_ofMembers]
      rfl
    have hrequired : d.json.get? "required" = some (.bool d.required) := by
      rw [LockDependency.json, Json.get?_ofMembers]
      rfl
    rw [validateLockDependency, hexact]
    show (match d.json.get? "pack_id" with
      | some (.str target) => _
      | other => _) = _
    rw [htarget]
    dsimp only
    rw [hid, hrequired]
    simp only [Bool.not_true, Bool.false_eq_true, if_false, if_neg hfresh]
    rfl

theorem foldlM_validateLockDependency_ok_iff {items : List Json} (hwf : Json.WFItems items)
    {pack_id : String} {ids ids' : List String} (hids : ids.Nodup) :
    items.foldlM (validateLockDependency pack_id) ids = .ok ids' ↔
      ∃ ds : List LockDependency, items = ds.map LockDependency.json ∧
        (∀ d ∈ ds, isPackId d.target = true) ∧ (ids ++ ds.map LockDependency.target).Nodup ∧
          ids' = ids ++ ds.map LockDependency.target := by
  induction items generalizing ids with
  | nil =>
      constructor
      · intro h
        have heq : ids = ids' := Except.ok.inj h
        refine ⟨[], rfl, by simp, ?_, ?_⟩
        · rwa [List.map_nil, List.append_nil]
        · rw [List.map_nil, List.append_nil, heq]
      · rintro ⟨ds, hitems, -, -, rfl⟩
        rw [List.map_eq_nil_iff.mp hitems.symm, List.map_nil, List.append_nil]
        rfl
  | cons dependency items ih =>
      rw [Json.WFItems] at hwf
      rw [List.foldlM_cons, bind_eq_ok]
      constructor
      · rintro ⟨next, hnext, hrest⟩
        obtain ⟨d, rfl, hid, hfresh, rfl⟩ := (validateLockDependency_ok_iff hwf.1).mp hnext
        have hnodup : (ids ++ [d.target]).Nodup :=
          hids.append (List.nodup_singleton _) (by simpa using hfresh)
        obtain ⟨ds, rfl, hds, hall, rfl⟩ := (ih hwf.2 hnodup).mp hrest
        refine ⟨d :: ds, rfl, ?_, ?_, ?_⟩
        · intro other hother
          rcases List.mem_cons.mp hother with rfl | hother
          · exact hid
          · exact hds other hother
        · rwa [List.append_assoc] at hall
        · rw [List.append_assoc]
          rfl
      · rintro ⟨ds, hitems, hds, hall, rfl⟩
        cases ds with
        | nil => cases hitems
        | cons d ds =>
            obtain ⟨rfl, rfl⟩ := List.cons.inj hitems
            have hfresh : d.target ∉ ids := fun hmem =>
              List.disjoint_of_nodup_append hall hmem List.mem_cons_self
            have hnodup : (ids ++ [d.target]).Nodup :=
              hids.append (List.nodup_singleton _) (by simpa using hfresh)
            refine ⟨ids ++ [d.target], (validateLockDependency_ok_iff hwf.1).mpr
              ⟨d, rfl, hds d List.mem_cons_self, hfresh, rfl⟩, (ih hwf.2 hnodup).mpr
                ⟨ds, rfl, fun other hother => hds other (List.mem_cons_of_mem d hother), ?_, ?_⟩⟩
            · rwa [List.append_assoc]
            · rw [List.append_assoc]
              rfl

/-- A list without repetitions equals its sorted form exactly when it increases. -/
theorem eq_sorted_iff {ids : List String} (h : ids.Nodup) :
    ids = sorted ids ↔ ids.Pairwise (· < ·) := by
  constructor
  · intro heq
    have hle : (sorted ids).Pairwise (· ≤ ·) := pairwise_sortedBy id ids
    rw [← heq] at hle
    exact hle.imp₂ (fun _ _ hab hne => lt_of_le_of_ne hab hne) h
  · intro hlt
    exact (sortedBy_of_pairwise (hlt.imp fun hab => le_of_lt hab)).symm

theorem validateLockDependencies_ok_iff {record : Json} (hwf : record.WF) {pack_id : String} :
    validateLockDependencies pack_id record = .ok () ↔
      ∃ ds : List LockDependency,
        record.get? "dependencies" = some (.arr (ds.map LockDependency.json)) ∧
          (∀ d ∈ ds, isPackId d.target = true) ∧
            (ds.map LockDependency.target).Pairwise (· < ·) := by
  rw [validateLockDependencies]
  constructor
  · intro h
    split at h
    · rename_i items hitems
      have hitemswf : Json.WFItems items := hwf.of_get? hitems
      obtain ⟨ids, hfold, hsorted⟩ := bind_eq_ok.mp h
      obtain ⟨ds, rfl, hds, hnodup, rfl⟩ :=
        (foldlM_validateLockDependency_ok_iff hitemswf List.nodup_nil).mp hfold
      rw [List.nil_append] at hnodup hsorted
      refine ⟨ds, hitems, hds, ?_⟩
      split_ifs at hsorted with heq
      exact (eq_sorted_iff hnodup).mp (not_not.mp heq)
    · cases h
  · rintro ⟨ds, hitems, hds, hlt⟩
    have hitemswf : Json.WFItems (ds.map LockDependency.json) := hwf.of_get? hitems
    have hnodup : (ds.map LockDependency.target).Nodup := hlt.imp fun hab => hab.ne
    rw [hitems]
    dsimp only
    rw [(foldlM_validateLockDependency_ok_iff hitemswf List.nodup_nil).mpr
      ⟨ds, rfl, hds, hnodup, rfl⟩]
    show (if _ then _ else _) = _
    rw [List.nil_append, if_neg (not_not.mpr ((eq_sorted_iff hnodup).mpr hlt))]
    rfl

theorem validateLockRevision_ok_iff {record : Json} {pack_id : String} :
    validateLockRevision pack_id record = .ok () ↔
      ∃ revision, record.get? "revision" = some (.str revision) ∧
        Text.isBlank revision = false := by
  rw [validateLockRevision]
  constructor
  · intro h
    split at h
    · rename_i revision hrevision
      split_ifs at h with hblank
      exact ⟨revision, hrevision, by simpa using hblank⟩
    · cases h
  · rintro ⟨revision, hrevision, hblank⟩
    rw [hrevision]
    dsimp only
    rw [hblank]
    rfl

def digestJson (text : String) : Json :=
  .ofMembers [("algorithm", .str "sha256"), ("digest", .str text)]

theorem validateLockDigest_ok_iff {record : Json} (hwf : record.WF) {pack_id : String} :
    validateLockDigest pack_id record = .ok () ↔
      ∃ text, record.get? "manifest_digest" = some (digestJson text) ∧ isHex64 text = true := by
  have hkeys : List.Nodup ["algorithm", "digest"] := by decide
  rw [validateLockDigest]
  constructor
  · intro h
    split at h
    · rename_i fields hdigest
      obtain ⟨exact, hexact, hfields⟩ := hasExactly_obj (rfl : (Json.obj fields).isObj = true)
        _DIGEST_FIELDS
      dsimp only at h
      rw [hexact] at h
      cases exact with
      | false => cases h
      | true =>
          change (if (Json.obj fields).get? "algorithm" ≠ some (.str "sha256") then _ else _) = _ at h
          split_ifs at h with halgorithm
          split at h
          · rename_i text htext
            split_ifs at h with hhex
            refine ⟨text, ?_, hhex⟩
            rw [hdigest]
            congr 1
            refine @eq_display _ (hwf.of_get? hdigest) rfl
              [("algorithm", .str "sha256"), ("digest", .str text)] hkeys (hfields.mp rfl) ?_
            intro m hm
            rcases List.mem_pair.mp hm with rfl | rfl
            · exact not_not.mp halgorithm
            · exact htext
          · cases h
    · cases h
  · rintro ⟨text, hdigest, hhex⟩
    have hexact : hasExactly (digestJson text) _DIGEST_FIELDS = .ok true :=
      @hasExactly_display [("algorithm", .str "sha256"), ("digest", .str text)] hkeys
    have halgorithm : (digestJson text).get? "algorithm" = some (.str "sha256") := by
      rw [digestJson, Json.get?_ofMembers]
      rfl
    have htext : (digestJson text).get? "digest" = some (.str text) := by
      rw [digestJson, Json.get?_ofMembers]
      rfl
    rw [hdigest]
    obtain ⟨fields, hfields⟩ := Json.isObj_iff.mp (Json.isObj_ofMembers
      [("algorithm", .str "sha256"), ("digest", .str text)])
    have hobj : digestJson text = .obj fields := hfields
    rw [hobj] at hexact halgorithm htext ⊢
    dsimp only
    rw [hexact]
    show (if (Json.obj fields).get? "algorithm" ≠ some (.str "sha256") then _ else _) = _
    rw [if_neg (not_not.mpr halgorithm), htext]
    dsimp only
    rw [if_pos hhex]

namespace LockRecord

theorem nodup_fields : List.Nodup ["pack_id", "revision", "manifest_digest", "dependencies"] := by
  decide

variable (r : LockRecord)

theorem get?_pack_id : r.json.get? "pack_id" = some (.str r.pack_id) := by
  rw [json, Json.get?_ofMembers]
  rfl

theorem get?_revision : r.json.get? "revision" = some (.str r.revision) := by
  rw [json, Json.get?_ofMembers]
  rfl

theorem get?_manifest_digest : r.json.get? "manifest_digest" = some (digestJson r.digest) := by
  rw [json, Json.get?_ofMembers]
  rfl

theorem get?_dependencies : r.json.get? "dependencies" =
    some (.arr (r.dependencies.map LockDependency.json)) := by
  rw [json, Json.get?_ofMembers]
  rfl

theorem wf_json : r.json.WF := by
  apply Json.wf_ofMembers
  intro m hm
  simp only [List.mem_cons, List.not_mem_nil, or_false] at hm
  rcases hm with rfl | rfl | rfl | rfl
  · exact Json.wf_str _
  · exact Json.wf_str _
  · apply Json.wf_ofMembers
    intro m hm
    rcases List.mem_pair.mp hm with rfl | rfl
    · exact Json.wf_str _
    · exact Json.wf_str _
  · simp only [Json.WF]
    rw [Json.wfItems_iff]
    intro dependency hdependency
    obtain ⟨d, -, rfl⟩ := List.mem_map.mp hdependency
    apply Json.wf_ofMembers
    intro m hm
    rcases List.mem_pair.mp hm with rfl | rfl
    · exact Json.wf_str _
    · simp only [Json.WF]

end LockRecord

theorem validate_lock_record_shape_ok_iff {record : Json} (hwf : record.WF)
    (ho : record.isObj = true) :
    _validate_lock_record_shape record = .ok () ↔
      ∃ r : LockRecord, record = r.json ∧ r.Valid := by
  constructor
  · intro h
    obtain ⟨exact, hexact, hfields⟩ := hasExactly_obj ho _PACK_RECORD_FIELDS
    rw [_validate_lock_record_shape, hexact] at h
    cases exact with
    | false => cases h
    | true =>
        change (match record.get? "pack_id" with
          | some (.str pack_id) => _
          | other => _) = _ at h
        split at h
        · rename_i pack_id hpack
          split_ifs at h with hid
          obtain ⟨⟨⟩, hrevision, h⟩ := bind_eq_ok.mp h
          obtain ⟨⟨⟩, hdigest, hdependencies⟩ := bind_eq_ok.mp h
          obtain ⟨revision, hrevision, hblank⟩ := validateLockRevision_ok_iff.mp hrevision
          obtain ⟨text, hdigest, hhex⟩ := (validateLockDigest_ok_iff hwf).mp hdigest
          obtain ⟨ds, hdependencies, hds, hlt⟩ :=
            (validateLockDependencies_ok_iff hwf).mp hdependencies
          refine ⟨⟨pack_id, revision, text, ds⟩, ?_, by simpa using hid, hblank, hhex, hds, hlt⟩
          refine @eq_display _ hwf ho [("pack_id", .str pack_id), ("revision", .str revision),
            ("manifest_digest", digestJson text), ("dependencies", .arr (ds.map LockDependency.json))]
            LockRecord.nodup_fields (hfields.mp rfl) ?_
          intro m hm
          simp only [List.mem_cons, List.not_mem_nil, or_false] at hm
          rcases hm with rfl | rfl | rfl | rfl
          · exact hpack
          · exact hrevision
          · exact hdigest
          · exact hdependencies
        · cases h
  · rintro ⟨r, rfl, hvalid⟩
    have hexact : hasExactly r.json _PACK_RECORD_FIELDS = .ok true :=
      @hasExactly_display [("pack_id", .str r.pack_id), ("revision", .str r.revision),
        ("manifest_digest", digestJson r.digest),
        ("dependencies", .arr (r.dependencies.map LockDependency.json))] LockRecord.nodup_fields
    rw [_validate_lock_record_shape, hexact]
    show (match r.json.get? "pack_id" with
      | some (.str pack_id) => _
      | other => _) = _
    rw [r.get?_pack_id]
    dsimp only
    rw [hvalid.pack_id, validateLockRevision_ok_iff.mpr ⟨_, r.get?_revision, hvalid.revision⟩,
      (validateLockDigest_ok_iff hwf).mpr ⟨_, r.get?_manifest_digest, hvalid.digest⟩]
    exact (validateLockDependencies_ok_iff hwf).mpr
      ⟨_, r.get?_dependencies, hvalid.targets, hvalid.sorted⟩

/-! ## The revisions of a lock -/

theorem addRevision_ok_iff {record : Json} (hwf : record.WF) (ho : record.isObj = true)
    {by_pack next : Dict String Json} :
    addRevision by_pack record = .ok next ↔
      ∃ r : LockRecord, record = r.json ∧ r.Valid ∧ r.pack_id ∉ by_pack.keys ∧
        next = by_pack.set r.pack_id (.str r.revision) := by
  have hcontains : ∀ pack_id, by_pack.contains pack_id = true ↔ pack_id ∈ by_pack.keys := by
    intro pack_id
    rw [Dict.contains_iff, Dict.mem_keys_iff]
  have hread : ∀ r : LockRecord, (do
      let pack_id ← liftPy (r.json.getItem "pack_id")
      let revision ← liftPy (r.json.getItem "revision")
      if by_pack.contains pack_id.pyStr then
        .error (.packSetLockError ("duplicate pack_id in packset lock: " ++ pack_id.pyStr))
      else return by_pack.set pack_id.pyStr (.str revision.pyStr)) =
        if by_pack.contains r.pack_id then
          .error (.packSetLockError ("duplicate pack_id in packset lock: " ++ r.pack_id))
        else .ok (by_pack.set r.pack_id (.str r.revision)) := by
    intro r
    rw [Json.getItem_of_get? r.get?_pack_id, Json.getItem_of_get? r.get?_revision]
    rfl
  rw [addRevision, bind_eq_ok]
  constructor
  · rintro ⟨⟨⟩, hshape, h⟩
    obtain ⟨r, rfl, hvalid⟩ := (validate_lock_record_shape_ok_iff hwf ho).mp hshape
    rw [hread] at h
    split_ifs at h with hdup
    exact ⟨r, rfl, hvalid, fun hmem => hdup ((hcontains _).mpr hmem), (Except.ok.inj h).symm⟩
  · rintro ⟨r, rfl, hvalid, hfresh, rfl⟩
    refine ⟨(), (validate_lock_record_shape_ok_iff hwf ho).mpr ⟨r, rfl, hvalid⟩, ?_⟩
    rw [hread, if_neg (mt (hcontains _).mp hfresh)]

theorem foldlM_addRevision_ok_iff {records : List Json} (hwf : ∀ record ∈ records, record.WF)
    (ho : ∀ record ∈ records, record.isObj = true) {by_pack result : Dict String Json} :
    records.foldlM addRevision by_pack = .ok result ↔
      ∃ rs : List LockRecord, records = rs.map LockRecord.json ∧ (∀ r ∈ rs, r.Valid) ∧
        (by_pack.keys ++ rs.map LockRecord.pack_id).Nodup ∧
          result.entries = by_pack.entries ++ rs.map LockRecord.revisionEntry := by
  induction records generalizing by_pack with
  | nil =>
      constructor
      · intro h
        have heq : by_pack = result := Except.ok.inj h
        refine ⟨[], rfl, by simp, ?_, ?_⟩
        · rw [List.map_nil, List.append_nil]
          exact by_pack.nodup
        · rw [List.map_nil, List.append_nil, heq]
      · rintro ⟨rs, hrecords, -, -, hentries⟩
        rw [List.map_eq_nil_iff.mp hrecords.symm, List.map_nil, List.append_nil] at hentries
        rw [Dict.ext_entries hentries]
        rfl
  | cons record records ih =>
      have hfirst := @addRevision_ok_iff record (hwf record List.mem_cons_self)
        (ho record List.mem_cons_self) by_pack
      have hrest := fun (next : Dict String Json) => @ih
        (fun other hother => hwf other (List.mem_cons_of_mem record hother))
        (fun other hother => ho other (List.mem_cons_of_mem record hother)) next
      have hentries : ∀ r : LockRecord, r.pack_id ∉ by_pack.keys →
          (by_pack.set r.pack_id (.str r.revision)).entries =
            by_pack.entries ++ [r.revisionEntry] := fun r => Dict.assign_of_notMem
      rw [List.foldlM_cons, bind_eq_ok]
      constructor
      · rintro ⟨next, hnext, hfold⟩
        obtain ⟨r, rfl, hvalid, hfresh, rfl⟩ := hfirst.mp hnext
        obtain ⟨rs, rfl, hall, hnodup, hresult⟩ := (hrest _).mp hfold
        rw [Dict.keys_set, if_neg hfresh, List.append_assoc] at hnodup
        rw [hentries r hfresh, List.append_assoc] at hresult
        exact ⟨r :: rs, rfl, List.forall_mem_cons.mpr ⟨hvalid, hall⟩, hnodup, hresult⟩
      · rintro ⟨rs, hrecords, hall, hnodup, hresult⟩
        cases rs with
        | nil => cases hrecords
        | cons r rs =>
            obtain ⟨rfl, rfl⟩ := List.cons.inj hrecords
            obtain ⟨hvalid, hall⟩ := List.forall_mem_cons.mp hall
            have hfresh : r.pack_id ∉ by_pack.keys := fun hmem =>
              List.disjoint_of_nodup_append hnodup hmem List.mem_cons_self
            refine ⟨_, hfirst.mpr ⟨r, rfl, hvalid, hfresh, rfl⟩,
              (hrest _).mpr ⟨rs, rfl, hall, ?_, ?_⟩⟩
            · rw [Dict.keys_set, if_neg hfresh, List.append_assoc]
              exact hnodup
            · rw [hentries r hfresh, List.append_assoc]
              exact hresult

theorem lock_records_ok_iff {lock : Json} (hwf : lock.WF) {records : List Json} :
    _lock_records lock = .ok records ↔
      records ≠ [] ∧ (∀ record ∈ records, record.isObj = true) ∧
        lock = .ofMembers [("contract_version", .str PACKSET_LOCK_CONTRACT_VERSION),
          ("packs", .arr records)] := by
  have hkeys : List.Nodup ["contract_version", "packs"] := by decide
  constructor
  · intro h
    obtain ⟨exact, hexact, h⟩ := bind_eq_ok.mp h
    split_ifs at h with hfalse
    obtain ⟨version, hversion, h⟩ := bind_eq_ok.mp h
    have ho : lock.isObj = true := by
      cases lock with
      | obj fields => rfl
      | _ => cases hversion
    rw [Json.getMethod_of_isObj ho] at hversion
    obtain rfl := Except.ok.inj hversion
    split_ifs at h with hversion
    obtain ⟨packs, hpacks, h⟩ := bind_eq_ok.mp h
    rw [Json.getMethod_of_isObj ho] at hpacks
    obtain rfl := Except.ok.inj hpacks
    split at h
    · rename_i first rest hpacks
      split_ifs at h with hall
      obtain rfl := Except.ok.inj h
      refine ⟨List.cons_ne_nil _ _, List.all_eq_true.mp hall, ?_⟩
      obtain ⟨exact', hexact', hfields⟩ := hasExactly_obj ho ["contract_version", "packs"]
      rw [hexact] at hexact'
      obtain rfl := Except.ok.inj hexact'
      refine @eq_display _ hwf ho [("contract_version", .str PACKSET_LOCK_CONTRACT_VERSION),
        ("packs", .arr (first :: rest))] hkeys (hfields.mp (by simpa using hfalse)) ?_
      intro m hm
      rcases List.mem_pair.mp hm with rfl | rfl
      · exact not_not.mp hversion
      · exact hpacks
    · cases h
  · rintro ⟨hne, hall, rfl⟩
    have hversion : (Json.ofMembers [("contract_version", .str PACKSET_LOCK_CONTRACT_VERSION),
        ("packs", .arr records)]).get? "contract_version" =
          some (.str PACKSET_LOCK_CONTRACT_VERSION) := by
      rw [Json.get?_ofMembers]
      rfl
    have hpacks : (Json.ofMembers [("contract_version", .str PACKSET_LOCK_CONTRACT_VERSION),
        ("packs", .arr records)]).get? "packs" = some (.arr records) := by
      rw [Json.get?_ofMembers]
      rfl
    have hexact := @hasExactly_display [("contract_version", .str PACKSET_LOCK_CONTRACT_VERSION),
      ("packs", .arr records)] hkeys
    rw [_lock_records]
    refine bind_eq_ok.mpr ⟨true, hexact, ?_⟩
    rw [Json.getMethod_of_isObj (Json.isObj_ofMembers _), Json.getMethod_of_isObj (Json.isObj_ofMembers _),
      hversion, hpacks]
    cases records with
    | nil => exact absurd rfl hne
    | cons first rest =>
        show (if (first :: rest).all Json.isObj = true then _ else _) = _
        rw [if_pos (List.all_eq_true.mpr hall)]
        rfl

theorem pack_revisions_ok_iff {lock : Json} (hwf : lock.WF) {revisions : Dict String Json} :
    pack_revisions_from_lock lock = .ok revisions ↔
      ∃ rs : List LockRecord, rs ≠ [] ∧ lock = lockOf rs ∧ (∀ r ∈ rs, r.Valid) ∧
        (rs.map LockRecord.pack_id).Pairwise (· < ·) ∧
          revisions.entries = rs.map LockRecord.revisionEntry := by
  have hsort : ∀ {rs : List LockRecord} {d : Dict String Json},
      d.entries = rs.map LockRecord.revisionEntry → d.keys = rs.map LockRecord.pack_id := by
    intro rs d hentries
    rw [Dict.keys, hentries, List.map_map]
    rfl
  have hpacks : ∀ {records : List Json}, lock = .ofMembers
      [("contract_version", .str PACKSET_LOCK_CONTRACT_VERSION), ("packs", .arr records)] →
        ∀ record ∈ records, record.WF := by
    rintro records rfl
    apply Json.wfItems_iff.mp
    have hget : (Json.ofMembers [("contract_version", .str PACKSET_LOCK_CONTRACT_VERSION),
        ("packs", .arr records)]).get? "packs" = some (.arr records) := by
      rw [Json.get?_ofMembers]
      rfl
    exact hwf.of_get? hget
  constructor
  · intro h
    obtain ⟨records, hrecords, h⟩ := bind_eq_ok.mp h
    obtain ⟨hne, ho, hlock⟩ := (lock_records_ok_iff hwf).mp hrecords
    obtain ⟨by_pack, hfold, hreturn⟩ := bind_eq_ok.mp h
    obtain ⟨rs, rfl, hall, hnodup, hentries⟩ :=
      (foldlM_addRevision_ok_iff (hpacks hlock) ho).mp hfold
    have hentries' : by_pack.entries = rs.map LockRecord.revisionEntry := hentries
    split_ifs at hreturn with hsorted
    obtain rfl := Except.ok.inj hreturn
    refine ⟨rs, by simpa using hne, hlock, hall, ?_, hentries'⟩
    rw [← hsort hentries']
    exact (eq_sorted_iff by_pack.nodup).mp (not_not.mp hsorted)
  · rintro ⟨rs, hne, hlock, hall, hlt, hentries⟩
    have ho : ∀ record ∈ rs.map LockRecord.json, record.isObj = true := by
      intro record hrecord
      obtain ⟨r, -, rfl⟩ := List.mem_map.mp hrecord
      rfl
    refine bind_eq_ok.mpr ⟨rs.map LockRecord.json,
      (lock_records_ok_iff hwf).mpr ⟨by simpa using hne, ho, hlock⟩, ?_⟩
    refine bind_eq_ok.mpr ⟨revisions, (foldlM_addRevision_ok_iff (hpacks hlock) ho).mpr
      ⟨rs, rfl, hall, hlt.imp fun hab => hab.ne, hentries⟩, ?_⟩
    rw [hsort hentries, if_neg (not_not.mpr ((eq_sorted_iff (hlt.imp fun hab => hab.ne)).mpr hlt))]
    rfl

/-! ## What the builder writes -/

section Build

variable {sha256 : Sha256} {catalog : PackCatalog} {revisions : Dict String Json}
  {mounted : List String} {manifest : Json}

def builtDependencies (manifest : Json) (mounted : List String) : List LockDependency :=
  ((sortedBy Prod.fst ((declaredDependencies manifest).map fun d => (dependencyTarget d, d))).filter
    fun entry => entry.1 ∈ mounted).map fun entry =>
      ⟨entry.1, Json.truthy? (entry.2.get? "required")⟩

/-- The exact revision of a pack. -/
def revisionOf (revisions : Dict String Json) (pack_id : String) : String :=
  ((revisions.get? pack_id).bind Json.asStr?).getD ""

def HasRevision (revisions : Dict String Json) (pack_id : String) : Prop :=
  ∃ revision, revisions.get? pack_id = some (.str revision) ∧ Text.isBlank revision = false

def builtRecord (sha256 : Sha256) (mounted : List String) (revisions : Dict String Json)
    (entry : String × Json) : LockRecord where
  pack_id := entry.1
  revision := revisionOf revisions entry.1
  digest := canonical_manifest_digest sha256 entry.2
  dependencies := builtDependencies entry.2 mounted

theorem resolved_dependencies_ok_iff (h : IsManifest manifest) {out : List Json} :
    _resolved_dependencies manifest mounted = .ok out ↔
      ((declaredDependencies manifest).map dependencyTarget).Nodup ∧
        out = (builtDependencies manifest mounted).map LockDependency.json := by
  have hrecord : ∀ entry ∈ (sortedBy Prod.fst
      ((declaredDependencies manifest).map fun d => (dependencyTarget d, d))).filter
        (fun entry => entry.1 ∈ mounted),
      resolvedRecord entry =
        .ok (LockDependency.json ⟨entry.1, Json.truthy? (entry.2.get? "required")⟩) := by
    intro entry hentry
    have hmem := mem_sortedBy.mp (List.mem_filter.mp hentry).1
    obtain ⟨dependency, hdependency, rfl⟩ := List.mem_map.mp hmem
    obtain ⟨required, hrequired⟩ := h.decided dependency hdependency
    rw [resolvedRecord, Json.getItem_of_get? hrequired, hrequired]
    rfl
  rw [_resolved_dependencies, bind_eq_ok]
  constructor
  · rintro ⟨dependencies, hdependencies, hout⟩
    obtain ⟨hnodup, hentries⟩ := (dependencies_by_target_ok_iff h).mp hdependencies
    rw [hentries, mapM_of_forall hrecord] at hout
    refine ⟨hnodup, ?_⟩
    rw [builtDependencies, List.map_map]
    exact (Except.ok.inj hout).symm
  · rintro ⟨hnodup, rfl⟩
    have hkeys : (((declaredDependencies manifest).map fun d => (dependencyTarget d, d)).map
        Prod.fst).Nodup := by
      rw [List.map_map]
      exact hnodup
    refine ⟨⟨_, hkeys⟩, (dependencies_by_target_ok_iff h).mpr ⟨hnodup, rfl⟩, ?_⟩
    rw [mapM_of_forall hrecord, builtDependencies, List.map_map]
    rfl

theorem packRecord_ok_iff (h : IsManifest manifest)
    (hnodup : ((declaredDependencies manifest).map dependencyTarget).Nodup) {pack_id : String}
    {record : Json} :
    packRecord sha256 mounted revisions (pack_id, manifest) = .ok record ↔
      HasRevision revisions pack_id ∧
        record = (builtRecord sha256 mounted revisions (pack_id, manifest)).json := by
  have hresolved : _resolved_dependencies manifest mounted =
      .ok ((builtDependencies manifest mounted).map LockDependency.json) :=
    (resolved_dependencies_ok_iff h).mpr ⟨hnodup, rfl⟩
  rw [packRecord, HasRevision]
  constructor
  · intro hrecord
    split at hrecord
    · cases hrecord
    · rename_i revision hrevision
      split_ifs at hrecord with hblank
      dsimp only at hrecord
      rw [hresolved] at hrecord
      refine ⟨⟨revision, hrevision, by simpa using hblank⟩, ?_⟩
      have hof : revisionOf revisions pack_id = revision := by
        rw [revisionOf, hrevision]
        rfl
      rw [builtRecord, LockRecord.json, hof]
      exact (Except.ok.inj hrecord).symm
    · cases hrecord
  · rintro ⟨⟨revision, hrevision, hblank⟩, rfl⟩
    rw [hrevision]
    dsimp only
    rw [hblank, hresolved, builtRecord, LockRecord.json, revisionOf, hrevision]
    rfl

theorem sorted_eq_nil_iff {ids : List String} : sorted ids = [] ↔ ids = [] := by
  rw [List.eq_nil_iff_forall_not_mem, List.eq_nil_iff_forall_not_mem]
  have hmem : ∀ pack_id, pack_id ∈ sorted ids ↔ pack_id ∈ ids := by
    intro pack_id
    exact (sortedBy_perm id ids).mem_iff
  exact forall_congr' fun pack_id => not_congr (hmem pack_id)

theorem build_ok_iff (hall : ∀ manifest ∈ catalog.values, IsManifest manifest) {lock : Json} :
    build_packset_lock sha256 catalog revisions = .ok lock ↔
      catalog.keys ≠ [] ∧ validate_pack_dependency_graph catalog = .ok () ∧
        (∀ pack_id, pack_id ∈ catalog.keys ↔ pack_id ∈ revisions.keys) ∧
          (∀ pack_id ∈ catalog.keys, HasRevision revisions pack_id) ∧
            lock = lockOf ((sortedBy Prod.fst catalog.entries).map
              (builtRecord sha256 catalog.keys revisions)) := by
  have hrecords : validate_pack_dependency_graph catalog = .ok () →
      ∀ entry ∈ sortedBy Prod.fst catalog.entries, ∀ record,
        packRecord sha256 catalog.keys revisions entry = .ok record ↔
          HasRevision revisions entry.1 ∧
            record = (builtRecord sha256 catalog.keys revisions entry).json := by
    rintro hgraph ⟨pack_id, manifest⟩ hentry record
    have hget := Dict.mem_entries_iff.mp (mem_sortedBy.mp hentry)
    exact packRecord_ok_iff (hall manifest (Dict.mem_values_iff.mpr ⟨_, hget⟩))
      (((graph_ok_iff hall).mp hgraph).declared_once pack_id manifest hget)
  have hkeys : (∀ entry ∈ sortedBy Prod.fst catalog.entries, HasRevision revisions entry.1) ↔
      ∀ pack_id ∈ catalog.keys, HasRevision revisions pack_id := by
    constructor
    · intro h pack_id hmem
      obtain ⟨entry, hentry, rfl⟩ := List.mem_map.mp hmem
      exact h entry (mem_sortedBy.mpr hentry)
    · intro h entry hentry
      exact h entry.1 (List.mem_map_of_mem (mem_sortedBy.mp hentry))
  have hmissing : ∀ {xs ys : List String}, sorted (xs.filter fun pack_id => pack_id ∉ ys) = [] ↔
      ∀ pack_id ∈ xs, pack_id ∈ ys := by
    intro xs ys
    rw [sorted_eq_nil_iff, List.filter_eq_nil_iff]
    simp
  rw [build_packset_lock]
  constructor
  · intro h
    dsimp only at h
    split_ifs at h with hempty hnone hextra
    · obtain ⟨-, -, h⟩ := bind_eq_ok.mp h
      cases h
    · obtain ⟨-, -, h⟩ := bind_eq_ok.mp h
      cases h
    obtain ⟨⟨⟩, hgraph, h⟩ := bind_eq_ok.mp h
    obtain ⟨packs, hpacks, h⟩ := bind_eq_ok.mp h
    obtain ⟨hrevisions, rfl⟩ := (mapM_ok_iff (hrecords hgraph)).mp hpacks
    refine ⟨hempty, hgraph, ?_, hkeys.mp hrevisions, ?_⟩
    · exact fun pack_id => ⟨hmissing.mp (not_not.mp hnone) pack_id,
        hmissing.mp (not_not.mp hextra) pack_id⟩
    · rw [lockOf, List.map_map]
      exact (Except.ok.inj h).symm
  · rintro ⟨hne, hgraph, hsame, hrevisions, rfl⟩
    dsimp only
    rw [if_neg hne, hgraph]
    show (if _ then _ else _) = _
    rw [if_neg (not_not.mpr (hmissing.mpr fun pack_id => (hsame pack_id).mp)),
      if_neg (not_not.mpr (hmissing.mpr fun pack_id => (hsame pack_id).mpr)),
      (mapM_ok_iff (hrecords hgraph)).mpr ⟨hkeys.mpr hrevisions, rfl⟩, lockOf, List.map_map]
    rfl

end Build

/-! ## What the validator accepts -/

section Validate

variable {sha256 : Sha256} {catalog : PackCatalog} {revisions : Dict String Json}

theorem LockDependency.json_inj {d e : LockDependency} (h : d.json = e.json) : d = e := by
  have htarget := congrArg (fun v => Json.get? "pack_id" v) h
  have hrequired := congrArg (fun v => Json.get? "required" v) h
  simp only [json, Json.get?_ofMembers] at htarget hrequired
  obtain ⟨target, required⟩ := d
  obtain ⟨target', required'⟩ := e
  obtain rfl : target = target' := Json.str.inj (Option.some.inj htarget)
  obtain rfl : required = required' := Json.bool.inj (Option.some.inj hrequired)
  rfl

theorem LockRecord.json_inj {r s : LockRecord} (h : r.json = s.json) : r = s := by
  have hpack := r.get?_pack_id
  have hrevision := r.get?_revision
  have hdigest := r.get?_manifest_digest
  have hdependencies := r.get?_dependencies
  rw [h, s.get?_pack_id, Option.some.injEq, Json.str.injEq] at hpack
  rw [h, s.get?_revision, Option.some.injEq, Json.str.injEq] at hrevision
  rw [h, s.get?_manifest_digest, Option.some.injEq] at hdigest
  rw [h, s.get?_dependencies, Option.some.injEq, Json.arr.injEq] at hdependencies
  have htext := congrArg (fun v => Json.get? "digest" v) hdigest
  simp only [digestJson, Json.get?_ofMembers] at htext
  obtain ⟨pack_id, revision, digest, dependencies⟩ := r
  obtain ⟨pack_id', revision', digest', dependencies'⟩ := s
  obtain rfl : pack_id' = pack_id := hpack
  obtain rfl : revision' = revision := hrevision
  obtain rfl : digest' = digest := Json.str.inj (Option.some.inj htext)
  obtain rfl : dependencies' = dependencies :=
    List.map_injective_iff.mpr (fun _ _ => LockDependency.json_inj) hdependencies
  rfl

theorem lockOf_inj {rs ss : List LockRecord} (h : lockOf rs = lockOf ss) : rs = ss := by
  have hpacks := congrArg (fun v => Json.get? "packs" v) h
  simp only [lockOf, Json.get?_ofMembers] at hpacks
  have hrecords : rs.map LockRecord.json = ss.map LockRecord.json :=
    Json.arr.inj (Option.some.inj hpacks)
  exact List.map_injective_iff.mpr (fun _ _ => LockRecord.json_inj) hrecords

theorem get?_restrictCatalog (pack_id : String) :
    (restrictCatalog catalog revisions).get? pack_id =
      if pack_id ∈ revisions.keys then catalog.get? pack_id else none := by
  apply Option.ext
  intro manifest
  rw [← Dict.mem_entries_iff, restrictCatalog, List.mem_filterMap]
  constructor
  · rintro ⟨id, hid, hmap⟩
    obtain ⟨manifest', hget, heq⟩ := Option.map_eq_some_iff.mp hmap
    obtain ⟨rfl, rfl⟩ := Prod.mk.inj heq
    rw [if_pos hid, hget]
  · intro h
    split_ifs at h with hmem
    exact ⟨pack_id, hmem, by rw [h]; rfl⟩

theorem mem_values_restrictCatalog {manifest : Json}
    (h : manifest ∈ (restrictCatalog catalog revisions).values) : manifest ∈ catalog.values := by
  obtain ⟨pack_id, hget⟩ := Dict.mem_values_iff.mp h
  rw [get?_restrictCatalog] at hget
  split_ifs at hget
  exact Dict.mem_values_iff.mpr ⟨pack_id, hget⟩

theorem entries_restrictCatalog {manifest : String → Json}
    (h : ∀ pack_id ∈ revisions.keys, catalog.get? pack_id = some (manifest pack_id)) :
    (restrictCatalog catalog revisions).entries =
      revisions.keys.map fun pack_id => (pack_id, manifest pack_id) := by
  rw [restrictCatalog]
  dsimp only
  rw [← List.filterMap_eq_map]
  apply List.filterMap_congr
  intro pack_id hmem
  rw [h pack_id hmem]
  rfl

theorem keys_restrictCatalog
    (h : ∀ pack_id ∈ revisions.keys, catalog.contains pack_id = true) :
    (restrictCatalog catalog revisions).keys = revisions.keys := by
  rw [Dict.keys, restrictCatalog]
  dsimp only
  rw [keys_restrict, List.filter_eq_self]
  exact h

theorem checkMounted_ok_iff {pack_id : String} {mounted : List String} {d : LockDependency} :
    checkMounted pack_id mounted d.json = .ok () ↔ d.target ∈ mounted := by
  have hget : d.json.get? "pack_id" = some (.str d.target) := by
    rw [LockDependency.json, Json.get?_ofMembers]
    rfl
  rw [checkMounted, Json.getItem_of_get? hget]
  show (if d.target ∈ mounted then _ else _) = _ ↔ _
  split_ifs with hmem
  · exact iff_of_true rfl hmem
  · exact iff_of_false (by intro h; cases h) hmem

theorem normalizedDependency_json (d : LockDependency) :
    normalizedDependency d.json = .ok d.json := by
  have htarget : d.json.get? "pack_id" = some (.str d.target) := by
    rw [LockDependency.json, Json.get?_ofMembers]
    rfl
  have hrequired : d.json.get? "required" = some (.bool d.required) := by
    rw [LockDependency.json, Json.get?_ofMembers]
    rfl
  rw [normalizedDependency, Json.getItem_of_get? htarget, Json.getItem_of_get? hrequired]
  rfl

theorem target_mem_of_builtDependencies {manifest : Json} {mounted : List String}
    {d : LockDependency} (h : d ∈ builtDependencies manifest mounted) : d.target ∈ mounted := by
  obtain ⟨entry, hentry, rfl⟩ := List.mem_map.mp h
  exact of_decide_eq_true (List.mem_filter.mp hentry).2

theorem checkLockRecord_ok_iff {mounted : List String} {manifests : PackCatalog}
    {manifest : Json} {r : LockRecord} (hget : manifests.get? r.pack_id = some manifest)
    (h : IsManifest manifest)
    (hnodup : ((declaredDependencies manifest).map dependencyTarget).Nodup) :
    checkLockRecord sha256 mounted manifests r.json = .ok () ↔
      r.dependencies = builtDependencies manifest mounted ∧
        r.digest = canonical_manifest_digest sha256 manifest := by
  have hresolved : _resolved_dependencies manifest mounted =
      .ok ((builtDependencies manifest mounted).map LockDependency.json) :=
    (resolved_dependencies_ok_iff h).mpr ⟨hnodup, rfl⟩
  have hnormalized : (r.dependencies.map LockDependency.json).mapM normalizedDependency =
      .ok (r.dependencies.map LockDependency.json) := by
    rw [List.mapM_map]
    exact mapM_of_forall fun d _ => normalizedDependency_json d
  have hmounted : (r.dependencies.map LockDependency.json).forM
      (checkMounted r.pack_id mounted) = .ok () ↔ ∀ d ∈ r.dependencies, d.target ∈ mounted := by
    rw [forM_ok_iff, List.forall_mem_map]
    exact forall₂_congr fun d _ => checkMounted_ok_iff
  have hdigest : (digestJson r.digest).get? "digest" = some (.str r.digest) := by
    rw [digestJson, Json.get?_ofMembers]
    rfl
  have hinj : Function.Injective LockDependency.json := fun _ _ => LockDependency.json_inj
  rw [checkLockRecord, Json.getItem_of_get? r.get?_pack_id]
  show (match manifests.get? r.pack_id with
    | none => _
    | some manifest => _) = _ ↔ _
  rw [hget]
  dsimp only
  rw [Json.getItem_of_get? r.get?_dependencies, hresolved,
    Json.getItem_of_get? r.get?_manifest_digest]
  show ((r.dependencies.map LockDependency.json).forM _ >>= fun _ =>
    (r.dependencies.map LockDependency.json).mapM normalizedDependency >>= _) = _ ↔ _
  rw [hnormalized, bind_eq_ok]
  constructor
  · rintro ⟨⟨⟩, -, hrest⟩
    change (if r.dependencies.map LockDependency.json ≠
      (builtDependencies manifest mounted).map LockDependency.json then _ else _) = _ at hrest
    split_ifs at hrest with hdiffers
    change (liftPy ((digestJson r.digest).getItem "digest") >>= _) = _ at hrest
    rw [Json.getItem_of_get? hdigest] at hrest
    change (if Json.str r.digest ≠ .str (canonical_manifest_digest sha256 manifest) then _
      else _) = _ at hrest
    split_ifs at hrest with hother
    exact ⟨List.map_injective_iff.mpr hinj (not_not.mp hdiffers), Json.str.inj (not_not.mp hother)⟩
  · rintro ⟨hdependencies, hsame⟩
    refine ⟨(), hmounted.mpr ?_, ?_⟩
    · intro d hd
      rw [hdependencies] at hd
      exact target_mem_of_builtDependencies hd
    · show (if r.dependencies.map LockDependency.json ≠
        (builtDependencies manifest mounted).map LockDependency.json then _ else _) = _
      rw [if_neg (not_not.mpr (congrArg _ hdependencies))]
      show (liftPy ((digestJson r.digest).getItem "digest") >>= _) = _
      rw [Json.getItem_of_get? hdigest]
      show (if Json.str r.digest ≠ .str (canonical_manifest_digest sha256 manifest) then _
        else _) = _
      rw [if_neg (not_not.mpr (congrArg _ hsame))]
      rfl

theorem wf_lockOf (rs : List LockRecord) : (lockOf rs).WF := by
  apply Json.wf_ofMembers
  intro m hm
  rcases List.mem_pair.mp hm with rfl | rfl
  · exact Json.wf_str _
  · simp only [Json.WF]
    rw [Json.wfItems_iff, List.forall_mem_map]
    exact fun r _ => r.wf_json

theorem lock_records_lockOf {rs : List LockRecord} (hwf : (lockOf rs).WF) (hne : rs ≠ []) :
    _lock_records (lockOf rs) = .ok (rs.map LockRecord.json) := by
  apply (lock_records_ok_iff hwf).mpr
  refine ⟨by simpa using hne, ?_, rfl⟩
  intro record hrecord
  obtain ⟨r, -, rfl⟩ := List.mem_map.mp hrecord
  rfl

/-- The validation of a lock whose records have been read. -/
theorem validate_lockOf {rs : List LockRecord} (hwf : (lockOf rs).WF) (hne : rs ≠ [])
    (hrevisions : pack_revisions_from_lock (lockOf rs) = .ok revisions) :
    validate_packset_lock sha256 (lockOf rs) catalog = .ok () ↔
      (∀ pack_id ∈ revisions.keys, catalog.contains pack_id = true) ∧
        validate_pack_dependency_graph (restrictCatalog catalog revisions) = .ok () ∧
          ∀ r ∈ rs, checkLockRecord sha256 revisions.keys (restrictCatalog catalog revisions)
            r.json = .ok () := by
  have hmissing : sorted (revisions.keys.filter fun pack_id => !catalog.contains pack_id) = [] ↔
      ∀ pack_id ∈ revisions.keys, catalog.contains pack_id = true := by
    rw [sorted_eq_nil_iff, List.filter_eq_nil_iff]
    simp
  have hrecords : (rs.map LockRecord.json).forM
      (checkLockRecord sha256 revisions.keys (restrictCatalog catalog revisions)) = .ok () ↔
        ∀ r ∈ rs, checkLockRecord sha256 revisions.keys (restrictCatalog catalog revisions)
          r.json = .ok () := by
    rw [forM_ok_iff, List.forall_mem_map]
  rw [validate_packset_lock, hrevisions]
  show (_lock_records (lockOf rs) >>= _) = _ ↔ _
  rw [lock_records_lockOf hwf hne]
  show (if _ then _ else _) = _ ↔ _
  by_cases hall : ∀ pack_id ∈ revisions.keys, catalog.contains pack_id = true
  · rw [if_neg (not_not.mpr (hmissing.mpr hall)), bind_eq_ok]
    constructor
    · rintro ⟨⟨⟩, hgraph, hok⟩
      exact ⟨hall, hgraph, hrecords.mp hok⟩
    · rintro ⟨-, hgraph, hok⟩
      exact ⟨(), hgraph, hrecords.mpr hok⟩
  · rw [if_pos (mt hmissing.mp hall)]
    exact iff_of_false (by intro h; cases h) fun h => hall h.1

/-- The entry of a record's pack in the restricted catalog. -/
def catalogEntry (catalog : PackCatalog) (r : LockRecord) : String × Json :=
  (r.pack_id, (catalog.get? r.pack_id).getD .null)

section Records

variable {rs : List LockRecord} (hlt : (rs.map LockRecord.pack_id).Pairwise (· < ·))
  (hentries : revisions.entries = rs.map LockRecord.revisionEntry)
  (hcontains : ∀ pack_id ∈ revisions.keys, catalog.contains pack_id = true)

include hentries

theorem keys_of_revisionEntries : revisions.keys = rs.map LockRecord.pack_id := by
  rw [Dict.keys, hentries, List.map_map]
  rfl

theorem get?_revisions {r : LockRecord} (hr : r ∈ rs) :
    revisions.get? r.pack_id = some (.str r.revision) := by
  apply Dict.mem_entries_iff.mp
  rw [hentries]
  exact List.mem_map_of_mem hr

include hcontains

theorem get?_catalogEntry {r : LockRecord} (hr : r ∈ rs) :
    (restrictCatalog catalog revisions).get? r.pack_id = some (catalogEntry catalog r).2 := by
  have hmem : r.pack_id ∈ revisions.keys := by
    rw [keys_of_revisionEntries hentries]
    exact List.mem_map_of_mem hr
  obtain ⟨manifest, hget⟩ := Dict.contains_iff.mp (hcontains _ hmem)
  rw [get?_restrictCatalog, if_pos hmem, catalogEntry, hget]
  rfl

include hlt

theorem sortedBy_restrictCatalog :
    sortedBy Prod.fst (restrictCatalog catalog revisions).entries =
      rs.map (catalogEntry catalog) := by
  have hmanifest : ∀ pack_id ∈ revisions.keys,
      catalog.get? pack_id = some ((catalog.get? pack_id).getD .null) := by
    intro pack_id hpack
    obtain ⟨manifest, hget⟩ := Dict.contains_iff.mp (hcontains pack_id hpack)
    rw [hget]
    rfl
  rw [entries_restrictCatalog hmanifest, keys_of_revisionEntries hentries, List.map_map]
  apply sortedBy_of_pairwise
  exact List.pairwise_map.mpr ((List.pairwise_map.mp hlt).imp fun hab => le_of_lt hab)

end Records

/-- A lock is accepted exactly when it is what the builder writes for its packs and revisions. -/
theorem validate_ok_iff_build (hall : ∀ manifest ∈ catalog.values, IsManifest manifest)
    {lock : Json} (hwf : lock.WF) :
    validate_packset_lock sha256 lock catalog = .ok () ↔
      ∃ revisions, pack_revisions_from_lock lock = .ok revisions ∧
        build_packset_lock sha256 (restrictCatalog catalog revisions) revisions = .ok lock := by
  have hshared : ∀ revisions, pack_revisions_from_lock lock = .ok revisions →
      (validate_packset_lock sha256 lock catalog = .ok () ↔
        build_packset_lock sha256 (restrictCatalog catalog revisions) revisions = .ok lock) := by
    intro revisions hrevisions
    obtain ⟨rs, hne, rfl, hvalid, hlt, hentries⟩ := (pack_revisions_ok_iff hwf).mp hrevisions
    have hrestricted : ∀ manifest ∈ (restrictCatalog catalog revisions).values,
        IsManifest manifest := fun manifest h => hall manifest (mem_values_restrictCatalog h)
    have hkeys := keys_of_revisionEntries hentries
    have hmatches : (∀ pack_id ∈ revisions.keys, catalog.contains pack_id = true) →
        validate_pack_dependency_graph (restrictCatalog catalog revisions) = .ok () →
        ((∀ r ∈ rs, checkLockRecord sha256 revisions.keys (restrictCatalog catalog revisions)
            r.json = .ok ()) ↔
          rs.map (fun r => builtRecord sha256 revisions.keys revisions (catalogEntry catalog r)) =
            rs) := by
      intro hcontains hgraph
      have hmounts := (graph_ok_iff hrestricted).mp hgraph
      have hself : rs.map (fun r => builtRecord sha256 revisions.keys revisions
          (catalogEntry catalog r)) = rs ↔
            ∀ r ∈ rs, builtRecord sha256 revisions.keys revisions (catalogEntry catalog r) = r := by
        conv_lhs => rhs; rw [← List.map_id rs]
        exact List.map_inj_left
      rw [hself]
      apply forall₂_congr
      intro r hr
      have hget := get?_catalogEntry hentries hcontains hr
      rw [checkLockRecord_ok_iff hget (hrestricted _ (Dict.mem_values_iff.mpr ⟨_, hget⟩))
        (hmounts.declared_once _ _ hget)]
      have hrevision : revisionOf revisions r.pack_id = r.revision := by
        rw [revisionOf, get?_revisions hentries hr]
        rfl
      obtain ⟨pack_id, revision, digest, dependencies⟩ := r
      simp only [builtRecord, catalogEntry, LockRecord.mk.injEq, true_and] at hrevision ⊢
      rw [hrevision]
      constructor
      · rintro ⟨rfl, rfl⟩
        exact ⟨rfl, rfl, rfl⟩
      · rintro ⟨-, rfl, rfl⟩
        exact ⟨rfl, rfl⟩
    rw [validate_lockOf hwf hne hrevisions, build_ok_iff hrestricted]
    constructor
    · rintro ⟨hcontains, hgraph, hrecords⟩
      have hrestrictedkeys := keys_restrictCatalog hcontains
      rw [hrestrictedkeys, sortedBy_restrictCatalog hlt hentries hcontains, List.map_map]
      refine ⟨?_, hgraph, fun _ => Iff.rfl, ?_, ?_⟩
      · rw [hkeys]
        simpa using hne
      · intro pack_id hpack
        rw [hkeys] at hpack
        obtain ⟨r, hr, rfl⟩ := List.mem_map.mp hpack
        exact ⟨r.revision, get?_revisions hentries hr, (hvalid r hr).revision⟩
      · exact congrArg lockOf ((hmatches hcontains hgraph).mp hrecords).symm
    · rintro ⟨-, hgraph, hsame, -, hlock⟩
      have hcontains : ∀ pack_id ∈ revisions.keys, catalog.contains pack_id = true := by
        intro pack_id hpack
        obtain ⟨manifest, hget⟩ := Dict.mem_keys_iff.mp ((hsame pack_id).mpr hpack)
        rw [get?_restrictCatalog, if_pos hpack] at hget
        exact Dict.contains_iff.mpr ⟨manifest, hget⟩
      rw [keys_restrictCatalog hcontains, sortedBy_restrictCatalog hlt hentries hcontains,
        List.map_map] at hlock
      exact ⟨hcontains, hgraph, (hmatches hcontains hgraph).mpr (lockOf_inj hlock).symm⟩
  constructor
  · intro h
    obtain ⟨revisions, hrevisions, -⟩ := bind_eq_ok.mp h
    exact ⟨revisions, hrevisions, (hshared revisions hrevisions).mp h⟩
  · rintro ⟨revisions, hrevisions, hbuild⟩
    exact (hshared revisions hrevisions).mpr hbuild

/-- The outcome of the validation depends on the manifests of the lock's packs alone. -/
theorem validate_congr {lock : Json} {other : PackCatalog}
    (h : ∀ revisions, pack_revisions_from_lock lock = .ok revisions →
      ∀ pack_id ∈ revisions.keys, other.get? pack_id = catalog.get? pack_id) :
    validate_packset_lock sha256 lock other = validate_packset_lock sha256 lock catalog := by
  rw [validate_packset_lock, validate_packset_lock]
  cases hrevisions : pack_revisions_from_lock lock with
  | error e => rfl
  | ok revisions =>
      have hget := h revisions hrevisions
      have hrestrict : restrictCatalog other revisions = restrictCatalog catalog revisions := by
        apply Dict.ext_entries
        apply List.filterMap_congr
        intro pack_id hpack
        rw [hget pack_id hpack]
      have hmissing : (revisions.keys.filter fun pack_id => !other.contains pack_id) =
          revisions.keys.filter fun pack_id => !catalog.contains pack_id := by
        apply List.filter_congr
        intro pack_id hpack
        rw [Dict.contains, Dict.contains, hget pack_id hpack]
      show (_lock_records lock >>= _) = (_lock_records lock >>= _)
      simp only [hrestrict, hmissing]

/-! ## Built locks -/

/-- The pack ids and the dependency targets of the catalog have the form that locks ask for. -/
structure FullIds (catalog : PackCatalog) : Prop where
  pack_id : ∀ manifest ∈ catalog.values, isPackId (textOf manifest "pack_id") = true
  target : ∀ manifest ∈ catalog.values, ∀ dependency ∈ declaredDependencies manifest,
    isPackId (dependencyTarget dependency) = true

theorem isHex64_digest (sha256 : Sha256) (manifest : Json) :
    isHex64 (canonical_manifest_digest sha256 manifest) = true := by
  rw [isHex64, canonical_manifest_digest, decide_eq_true_eq, List.all_eq_true]
  exact ⟨sha256.length_hexdigest _, sha256.isHexChar_hexdigest _⟩

theorem sorted_builtDependencies {manifest : Json} (mounted : List String)
    (hnodup : ((declaredDependencies manifest).map dependencyTarget).Nodup) :
    ((builtDependencies manifest mounted).map LockDependency.target).Pairwise (· < ·) := by
  have hentries : (((declaredDependencies manifest).map fun d => (dependencyTarget d, d)).map
      Prod.fst).Nodup := by
    rw [List.map_map]
    exact hnodup
  have hsorted := pairwise_sortedBy Prod.fst
    ((declaredDependencies manifest).map fun d => (dependencyTarget d, d))
  have hdistinct := List.pairwise_map.mp
    (((sortedBy_perm Prod.fst _).map Prod.fst).nodup_iff.mpr hentries)
  rw [builtDependencies, List.map_map]
  apply List.pairwise_map.mpr
  apply List.Pairwise.filter
  exact hsorted.imp₂ (fun _ _ hle hne => lt_of_le_of_ne hle hne) hdistinct

theorem builtDependencies_congr {manifest : Json} {mounted mounted' : List String}
    (h : ∀ pack_id, pack_id ∈ mounted ↔ pack_id ∈ mounted') :
    builtDependencies manifest mounted = builtDependencies manifest mounted' := by
  rw [builtDependencies, builtDependencies]
  congr 1
  apply List.filter_congr
  intro entry _
  rw [decide_eq_decide]
  exact h entry.1

/-- Every lock that the builder writes is accepted. -/
theorem validate_of_build (hall : ∀ manifest ∈ catalog.values, IsManifest manifest)
    (hids : FullIds catalog) {lock : Json}
    (hbuild : build_packset_lock sha256 catalog revisions = .ok lock) :
    validate_packset_lock sha256 lock catalog = .ok () := by
  obtain ⟨hne, hgraph, hsame, hhas, hlock⟩ := (build_ok_iff hall).mp hbuild
  have hmounts := (graph_ok_iff hall).mp hgraph
  have hentry : ∀ entry ∈ sortedBy Prod.fst catalog.entries,
      catalog.get? entry.1 = some entry.2 := fun entry hmem =>
    Dict.mem_entries_iff.mp (mem_sortedBy.mp hmem)
  have hidsnodup : ((sortedBy Prod.fst catalog.entries).map Prod.fst).Nodup :=
    ((sortedBy_perm Prod.fst _).map Prod.fst).nodup_iff.mpr catalog.nodup
  have hidslt : ((sortedBy Prod.fst catalog.entries).map Prod.fst).Pairwise (· < ·) := by
    have hle := List.pairwise_map.mpr (pairwise_sortedBy Prod.fst catalog.entries)
    exact hle.imp₂ (fun _ _ hle hne => lt_of_le_of_ne hle hne) hidsnodup
  have hvalid : ∀ r ∈ (sortedBy Prod.fst catalog.entries).map
      (builtRecord sha256 catalog.keys revisions), r.Valid := by
    intro r hr
    obtain ⟨entry, hmem, rfl⟩ := List.mem_map.mp hr
    have hget := hentry entry hmem
    have hvalue : entry.2 ∈ catalog.values := Dict.mem_values_iff.mpr ⟨_, hget⟩
    constructor
    · have hid := hids.pack_id entry.2 hvalue
      rw [textOf, hmounts.identified _ _ hget] at hid
      exact hid
    · obtain ⟨revision, hrevision, hblank⟩ := hhas entry.1 (Dict.mem_keys_iff.mpr ⟨_, hget⟩)
      rw [builtRecord, revisionOf, hrevision]
      exact hblank
    · exact isHex64_digest sha256 entry.2
    · intro d hd
      obtain ⟨declared, hdeclared, rfl⟩ := List.mem_map.mp hd
      obtain ⟨dependency, hdependency, rfl⟩ :=
        List.mem_map.mp (mem_sortedBy.mp (List.mem_filter.mp hdeclared).1)
      exact hids.target entry.2 hvalue dependency hdependency
    · exact sorted_builtDependencies _ (hmounts.declared_once _ _ hget)
  have hpackids : ((sortedBy Prod.fst catalog.entries).map
      (builtRecord sha256 catalog.keys revisions)).map LockRecord.pack_id =
        (sortedBy Prod.fst catalog.entries).map Prod.fst := by
    rw [List.map_map]
    rfl
  have hmember : ∀ pack_id, pack_id ∈ (sortedBy Prod.fst catalog.entries).map Prod.fst ↔
      pack_id ∈ catalog.keys := fun pack_id =>
    ((sortedBy_perm Prod.fst catalog.entries).map Prod.fst).mem_iff
  generalize hrs : (sortedBy Prod.fst catalog.entries).map
    (builtRecord sha256 catalog.keys revisions) = rs at hlock hvalid hpackids
  have hnodup : ((rs.map LockRecord.revisionEntry).map Prod.fst).Nodup := by
    rw [List.map_map]
    exact hpackids ▸ hidsnodup
  obtain ⟨written, hwritten⟩ : ∃ written : Dict String Json,
      written.entries = rs.map LockRecord.revisionEntry := ⟨⟨_, hnodup⟩, rfl⟩
  have hkeys : ∀ pack_id, pack_id ∈ written.keys ↔ pack_id ∈ catalog.keys := by
    intro pack_id
    rw [keys_of_revisionEntries hwritten, hpackids, hmember]
  have hne' : rs ≠ [] := by
    intro hnil
    rw [hnil, List.map_nil] at hpackids
    apply hne
    rw [List.eq_nil_iff_forall_not_mem]
    intro pack_id hpack
    rw [← hmember, ← hpackids] at hpack
    cases hpack
  have hrevisions : pack_revisions_from_lock (lockOf rs) = .ok written :=
    (pack_revisions_ok_iff (wf_lockOf rs)).mpr
      ⟨rs, hne', rfl, hvalid, hpackids ▸ hidslt, hwritten⟩
  have hget : ∀ pack_id, (restrictCatalog catalog written).get? pack_id = catalog.get? pack_id := by
    intro pack_id
    rw [get?_restrictCatalog]
    split_ifs with hmem
    · rfl
    · rw [hkeys, Dict.mem_keys_iff, not_exists] at hmem
      exact (Option.eq_none_iff_forall_ne_some.mpr hmem).symm
  have hrestricted : ∀ manifest ∈ (restrictCatalog catalog written).values, IsManifest manifest :=
    fun manifest h => hall manifest (mem_values_restrictCatalog h)
  have hreordered : Reordered catalog (restrictCatalog catalog written) := by
    intro pack_id
    rw [hget]
    cases catalog.get? pack_id with
    | none => exact Option.Rel.none
    | some manifest => exact Option.Rel.some ⟨fun _ _ => rfl, List.Perm.refl _⟩
  rw [hlock, validate_lockOf (wf_lockOf rs) hne' hrevisions]
  refine ⟨?_, (graph_ok_iff hrestricted).mpr (hmounts.reorder hreordered), ?_⟩
  · intro pack_id hpack
    exact Dict.contains_iff.mpr (Dict.mem_keys_iff.mp ((hkeys pack_id).mp hpack))
  · intro r hr
    rw [← hrs] at hr
    obtain ⟨entry, hmem, rfl⟩ := List.mem_map.mp hr
    have hmanifest := hentry entry hmem
    apply (checkLockRecord_ok_iff ((hget entry.1).trans hmanifest)
      (hall _ (Dict.mem_values_iff.mpr ⟨_, hmanifest⟩))
      (hmounts.declared_once _ _ hmanifest)).mpr
    exact ⟨builtDependencies_congr fun pack_id => (hkeys pack_id).symm, rfl⟩

end Validate

end FossilCore
