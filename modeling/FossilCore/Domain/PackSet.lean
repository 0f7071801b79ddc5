import Mathlib.Data.List.ReduceOption
import FossilCore.Base.Checks
import FossilCore.Base.DepthFirst
import FossilCore.Base.Dict
import FossilCore.Base.JsonObject
import FossilCore.Base.KeyMap
import FossilCore.Domain.Promotion

/-!
# Pack dependencies

`validate_pack_dependency_graph` of `domain/packset.py`.  A catalog is a dictionary of
manifests; the search for a cycle is the depth-first search of the library.
-/

namespace FossilCore

open Base

/-- The manifests by pack id. -/
abbrev PackCatalog := Dict String Json

def addDependency (manifest : Json) (by_target : Dict String Json) (dependency : Json) :
    Except Error (Dict String Json) := do
  let pack_id ← liftPy (dependency.getItem "pack_id")
  let target := pack_id.pyStr
  if by_target.contains target then
    let source ← liftPy (manifest.getItem "pack_id")
    .error (.packBoundaryError
      ("duplicate dependency for pack " ++ source.pyStr ++ ": " ++ target))
  else return by_target.set target dependency

def _dependencies_by_target (manifest : Json) : Except Error (Dict String Json) := do
  let dependencies ← liftPy (manifest.getMethod "dependencies")
  let items ← iterate (dependencies.getD (.arr []))
  items.foldlM (addDependency manifest) .empty

def _STANDARD_LAYER_RANK : Dict String ℕ :=
  ((Dict.empty.set "common" 0).set "domain" 1).set "project" 2

/-- `str(manifest.get("kind", ""))` -/
def packKind (manifest : Json) : Except Error String := do
  let kind ← liftPy (manifest.getMethod "kind")
  return (kind.getD (.str "")).pyStr

namespace Error

def identityMismatch (pack_id : String) (declared : Option Json) : Error :=
  packBoundaryError ("manifest identity mismatch: catalog key " ++ pack_id ++
    " != manifest pack_id " ++ (declared.getD .null).pyStr)

def requiredUnavailable (target : String) : Error :=
  packBoundaryError ("required dependency " ++ target ++ " is unavailable")

def layerViolation (pack_id source_kind target target_kind : String) : Error :=
  packBoundaryError ("dependency layer violation: " ++ pack_id ++ " (" ++ source_kind ++
    ") cannot depend on " ++ target ++ " (" ++ target_kind ++
    "); standard dependencies must point strictly upstream common <- domain <- project")

def dependencyCycle (walk : List String) : Error :=
  packBoundaryError ("dependency cycle: " ++ Text.join " -> " walk)

end Error

/-- The dependency on a target: `none` when an optional one is not mounted. -/
def resolveTarget (manifests : PackCatalog) (pack_id source_kind : String)
    (entry : String × Json) : Except Error (Option String) :=
  match manifests.get? entry.1 with
  | none => do
      let required ← liftPy (entry.2.getItem "required")
      if required.truthy then .error (.requiredUnavailable entry.1) else return none
  | some manifest => do
      let target_kind ← packKind manifest
      match _STANDARD_LAYER_RANK.get? source_kind, _STANDARD_LAYER_RANK.get? target_kind with
      | some source_rank, some target_rank =>
          if source_rank ≤ target_rank then
            .error (.layerViolation pack_id source_kind entry.1 target_kind)
          else return some entry.1
      | _, _ => return some entry.1

/-- The resolved dependencies of one pack. -/
def adjacencyRow (manifests : PackCatalog) (entry : String × Json) :
    Except Error (String × List String) := do
  let declared ← liftPy (entry.2.getMethod "pack_id")
  if declared ≠ some (.str entry.1) then .error (.identityMismatch entry.1 declared)
  else
    let dependencies ← _dependencies_by_target entry.2
    let source_kind ← packKind entry.2
    let resolved ← (sortedBy Prod.fst dependencies.entries).mapM
      (resolveTarget manifests entry.1 source_kind)
    return (entry.1, resolved.reduceOption)

def adjacencyRows (manifests : PackCatalog) : Except Error (List (String × List String)) :=
  (sortedBy Prod.fst manifests.entries).mapM (adjacencyRow manifests)

/-- `adjacency[pack_id]` -/
def targetsIn (rows : List (String × List String)) (pack_id : String) : List String :=
  (Dict.find pack_id rows).getD []

/-- `for pack_id in sorted(adjacency): visit(pack_id)` -/
def visitRows (rows : List (String × List String)) : Except Error Unit :=
  match DepthFirst.run (targetsIn rows) (rows.map Prod.fst) with
  | .ok _ => .ok ()
  | .error walk => .error (.dependencyCycle walk)

def validate_pack_dependency_graph (manifests : PackCatalog) : Except Error Unit := do
  let rows ← adjacencyRows manifests
  visitRows rows

/-! ## Well-formed mounts -/

def declaredDependencies (manifest : Json) : List Json :=
  ((manifest.get? "dependencies").getD (.arr [])).items

def dependencyTarget (dependency : Json) : String :=
  ((dependency.get? "pack_id").getD .null).pyStr

/-- A manifest declares a list of dependencies, each of which names a pack and says whether it is
required. -/
structure IsManifest (manifest : Json) : Prop where
  isObj : manifest.isObj = true
  isArr : ((manifest.get? "dependencies").getD (.arr [])).isArr = true
  named : ∀ dependency ∈ declaredDependencies manifest,
    ∃ pack_id, dependency.get? "pack_id" = some pack_id
  decided : ∀ dependency ∈ declaredDependencies manifest,
    ∃ required, dependency.get? "required" = some required

/-- Between two standard kinds a dependency points strictly upstream. -/
def LayerBelow (target source : Json) : Prop :=
  ∀ target_rank source_rank,
    _STANDARD_LAYER_RANK.get? (textOf target "kind") = some target_rank →
      _STANDARD_LAYER_RANK.get? (textOf source "kind") = some source_rank →
        target_rank < source_rank

/-- A dependency of a mounted pack on a mounted pack. -/
def MountEdge (manifests : PackCatalog) (source target : String) : Prop :=
  ∃ manifest, manifests.get? source = some manifest ∧
    (∃ dependency ∈ declaredDependencies manifest, dependencyTarget dependency = target) ∧
      manifests.contains target = true

structure WellFormedMounts (manifests : PackCatalog) : Prop where
  identified : ∀ pack_id manifest, manifests.get? pack_id = some manifest →
    manifest.get? "pack_id" = some (.str pack_id)
  declared_once : ∀ pack_id manifest, manifests.get? pack_id = some manifest →
    ((declaredDependencies manifest).map dependencyTarget).Nodup
  required_mounted : ∀ pack_id manifest, manifests.get? pack_id = some manifest →
    ∀ dependency ∈ declaredDependencies manifest,
      Json.truthy? (dependency.get? "required") = true →
        manifests.contains (dependencyTarget dependency) = true
  layered : ∀ source target manifest manifest', MountEdge manifests source target →
    manifests.get? source = some manifest → manifests.get? target = some manifest' →
      LayerBelow manifest' manifest
  acyclic : ∀ pack_id, ¬ Relation.TransGen (MountEdge manifests) pack_id pack_id

/-! ## The checks of one manifest -/

section Row

variable {manifests : PackCatalog} {manifest : Json} {pack_id : String}

theorem packKind_of_isObj (h : manifest.isObj = true) :
    packKind manifest = .ok (textOf manifest "kind") := by
  rw [packKind, Json.getMethod_of_isObj h]
  rfl

theorem addDependency_ok_iff {by_target result : Dict String Json} {dependency : Json}
    (h : ∃ pack_id, dependency.get? "pack_id" = some pack_id) :
    addDependency manifest by_target dependency = .ok result ↔
      dependencyTarget dependency ∉ by_target.keys ∧
        result = by_target.set (dependencyTarget dependency) dependency := by
  obtain ⟨target, htarget⟩ := h
  have hname : dependencyTarget dependency = target.pyStr := by
    rw [dependencyTarget, htarget]
    rfl
  have hcontains : by_target.contains target.pyStr = true ↔ target.pyStr ∈ by_target.keys := by
    rw [Dict.contains_iff, Dict.mem_keys_iff]
  rw [addDependency, Json.getItem_of_get? htarget, hname]
  show (if by_target.contains target.pyStr = true then _ else _) = _ ↔ _
  split_ifs with hdup
  · constructor
    · intro h
      obtain ⟨source, -, h⟩ := bind_eq_ok.mp h
      cases h
    · rintro ⟨hfresh, -⟩
      exact absurd (hcontains.mp hdup) hfresh
  · constructor
    · intro h
      exact ⟨fun hmem => hdup (hcontains.mpr hmem), (Except.ok.inj h).symm⟩
    · rintro ⟨-, rfl⟩
      rfl

theorem foldlM_addDependency_ok_iff {items : List Json} {by_target result : Dict String Json}
    (h : ∀ dependency ∈ items, ∃ pack_id, dependency.get? "pack_id" = some pack_id) :
    items.foldlM (addDependency manifest) by_target = .ok result ↔
      (by_target.keys ++ items.map dependencyTarget).Nodup ∧
        result.entries = by_target.entries ++ items.map fun d => (dependencyTarget d, d) := by
  induction items generalizing by_target with
  | nil =>
      rw [List.foldlM_nil, List.map_nil, List.map_nil, List.append_nil, List.append_nil]
      constructor
      · intro h
        have heq : by_target = result := Except.ok.inj h
        rw [← heq]
        exact ⟨by_target.nodup, rfl⟩
      · rintro ⟨-, hentries⟩
        rw [Dict.ext_entries hentries]
        rfl
  | cons dependency items ih =>
      have hfirst : ∀ next, addDependency manifest by_target dependency = .ok next ↔
          dependencyTarget dependency ∉ by_target.keys ∧
            next = by_target.set (dependencyTarget dependency) dependency :=
        fun _ => addDependency_ok_iff (h dependency List.mem_cons_self)
      have hrest := fun d hd => h d (List.mem_cons_of_mem dependency hd)
      have hset : dependencyTarget dependency ∉ by_target.keys →
          (by_target.set (dependencyTarget dependency) dependency).entries =
            by_target.entries ++ [(dependencyTarget dependency, dependency)] :=
        Dict.assign_of_notMem
      rw [List.foldlM_cons, bind_eq_ok]
      constructor
      · rintro ⟨next, hnext, hfold⟩
        obtain ⟨hfresh, rfl⟩ := (hfirst next).mp hnext
        obtain ⟨hnodup, hentries⟩ := (ih hrest).mp hfold
        rw [Dict.keys_set, if_neg hfresh, List.append_assoc] at hnodup
        refine ⟨hnodup, ?_⟩
        rw [hentries, hset hfresh, List.append_assoc]
        rfl
      · rintro ⟨hnodup, hentries⟩
        have hfresh : dependencyTarget dependency ∉ by_target.keys := fun hmem =>
          List.disjoint_of_nodup_append hnodup hmem List.mem_cons_self
        refine ⟨_, (hfirst _).mpr ⟨hfresh, rfl⟩, (ih hrest).mpr ⟨?_, ?_⟩⟩
        · rw [Dict.keys_set, if_neg hfresh, List.append_assoc]
          exact hnodup
        · rw [hentries, hset hfresh, List.append_assoc]
          rfl

theorem IsManifest.iterate_dependencies (h : IsManifest manifest) :
    iterate ((manifest.get? "dependencies").getD (.arr [])) =
      .ok (declaredDependencies manifest) := by
  have harr := h.isArr
  rw [declaredDependencies]
  generalize (manifest.get? "dependencies").getD (.arr []) = declared at harr
  cases declared with
  | arr items => rfl
  | _ => cases harr

theorem dependencies_by_target_ok_iff (h : IsManifest manifest) {result : Dict String Json} :
    _dependencies_by_target manifest = .ok result ↔
      ((declaredDependencies manifest).map dependencyTarget).Nodup ∧
        result.entries = (declaredDependencies manifest).map fun d => (dependencyTarget d, d) := by
  rw [_dependencies_by_target, Json.getMethod_of_isObj h.isObj]
  show (iterate _ >>= _) = _ ↔ _
  rw [h.iterate_dependencies]
  exact foldlM_addDependency_ok_iff h.named

/-- What the loop checks of one dependency. -/
def Resolvable (manifests : PackCatalog) (source dependency : Json) : Prop :=
  (Json.truthy? (dependency.get? "required") = true →
    manifests.contains (dependencyTarget dependency) = true) ∧
  ∀ target, manifests.get? (dependencyTarget dependency) = some target → LayerBelow target source

def mountedTarget (manifests : PackCatalog) (entry : String × Json) : Option String :=
  if manifests.contains entry.1 then some entry.1 else none

theorem resolveTarget_unmounted {dependency required : Json}
    (hrequired : dependency.get? "required" = some required)
    (hget : manifests.get? (dependencyTarget dependency) = none) (source_kind : String) :
    resolveTarget manifests pack_id source_kind (dependencyTarget dependency, dependency) =
      if required.truthy then .error (.requiredUnavailable (dependencyTarget dependency))
      else .ok none := by
  rw [resolveTarget, hget]
  show (liftPy (dependency.getItem "required") >>= _) = _
  rw [Json.getItem_of_get? hrequired]
  rfl

theorem resolveTarget_mounted {dependency target : Json}
    (hget : manifests.get? (dependencyTarget dependency) = some target)
    (htarget : target.isObj = true) {out : Option String} :
    resolveTarget manifests pack_id (textOf manifest "kind")
        (dependencyTarget dependency, dependency) = .ok out ↔
      LayerBelow target manifest ∧ out = some (dependencyTarget dependency) := by
  rw [resolveTarget, hget]
  show (packKind target >>= _) = _ ↔ _
  rw [packKind_of_isObj htarget, LayerBelow]
  show (match _STANDARD_LAYER_RANK.get? (textOf manifest "kind"),
    _STANDARD_LAYER_RANK.get? (textOf target "kind") with
    | some source_rank, some target_rank => _
    | _, _ => _) = _ ↔ _
  cases hsource : _STANDARD_LAYER_RANK.get? (textOf manifest "kind") with
  | none =>
      cases _STANDARD_LAYER_RANK.get? (textOf target "kind") <;> simp [pure, Except.pure, eq_comm]
  | some source_rank =>
      cases htargetrank : _STANDARD_LAYER_RANK.get? (textOf target "kind") with
      | none => simp [pure, Except.pure, eq_comm]
      | some target_rank =>
          dsimp only
          split_ifs with hle
          · simp [hle]
          · simp [pure, Except.pure, eq_comm, not_le.mp hle]

theorem resolveTarget_ok_iff (hall : ∀ target ∈ manifests.values, IsManifest target)
    {dependency : Json} (hdecided : ∃ required, dependency.get? "required" = some required)
    {out : Option String} :
    resolveTarget manifests pack_id (textOf manifest "kind")
        (dependencyTarget dependency, dependency) = .ok out ↔
      Resolvable manifests manifest dependency ∧
        out = mountedTarget manifests (dependencyTarget dependency, dependency) := by
  obtain ⟨required, hrequired⟩ := hdecided
  have hcontains : manifests.contains (dependencyTarget dependency) =
      (manifests.get? (dependencyTarget dependency)).isSome := rfl
  rw [Resolvable, mountedTarget, hcontains, hrequired]
  cases hget : manifests.get? (dependencyTarget dependency) with
  | none =>
      rw [resolveTarget_unmounted hrequired hget]
      cases htruthy : required.truthy <;> simp [Json.truthy?, htruthy, eq_comm]
  | some target =>
      have htarget := hall target (Dict.mem_values_iff.mpr ⟨_, hget⟩)
      rw [resolveTarget_mounted hget htarget.isObj]
      simp

structure RowAccepted (manifests : PackCatalog) (pack_id : String) (manifest : Json) : Prop where
  identified : manifest.get? "pack_id" = some (.str pack_id)
  declared_once : ((declaredDependencies manifest).map dependencyTarget).Nodup
  resolvable : ∀ dependency ∈ declaredDependencies manifest,
    Resolvable manifests manifest dependency

/-- The mounted targets in the order of their ids. -/
def resolvedTargets (manifests : PackCatalog) (manifest : Json) : List String :=
  ((sortedBy Prod.fst ((declaredDependencies manifest).map fun d => (dependencyTarget d, d))).map
    (mountedTarget manifests)).reduceOption

theorem mem_resolvedTargets {target : String} :
    target ∈ resolvedTargets manifests manifest ↔
      (∃ dependency ∈ declaredDependencies manifest, dependencyTarget dependency = target) ∧
        manifests.contains target = true := by
  rw [resolvedTargets, List.reduceOption_mem_iff, List.mem_map]
  constructor
  · rintro ⟨entry, hentry, hmounted⟩
    rw [mem_sortedBy, List.mem_map] at hentry
    obtain ⟨dependency, hdependency, rfl⟩ := hentry
    rw [mountedTarget] at hmounted
    split_ifs at hmounted with hcontains
    obtain rfl := Option.some.inj hmounted
    exact ⟨⟨dependency, hdependency, rfl⟩, hcontains⟩
  · rintro ⟨⟨dependency, hdependency, rfl⟩, hcontains⟩
    refine ⟨(dependencyTarget dependency, dependency), ?_, ?_⟩
    · rw [mem_sortedBy]
      exact List.mem_map_of_mem hdependency
    · rw [mountedTarget, if_pos hcontains]

theorem adjacencyRow_ok_iff (hall : ∀ target ∈ manifests.values, IsManifest target)
    (h : IsManifest manifest) {row : String × List String} :
    adjacencyRow manifests (pack_id, manifest) = .ok row ↔
      RowAccepted manifests pack_id manifest ∧
        row = (pack_id, resolvedTargets manifests manifest) := by
  rw [adjacencyRow, Json.getMethod_of_isObj h.isObj]
  show (if manifest.get? "pack_id" ≠ some (.str pack_id) then _ else _) = _ ↔ _
  split_ifs with hne
  · constructor
    · intro h
      cases h
    · rintro ⟨haccepted, -⟩
      exact absurd haccepted.identified hne
  · have hid := not_not.mp hne
    rw [packKind_of_isObj h.isObj]
    have hresolve : ∀ entry ∈ sortedBy Prod.fst
        ((declaredDependencies manifest).map fun d => (dependencyTarget d, d)), ∀ out,
        resolveTarget manifests pack_id (textOf manifest "kind") entry = .ok out ↔
          Resolvable manifests manifest entry.2 ∧ out = mountedTarget manifests entry := by
      intro entry hentry out
      rw [mem_sortedBy, List.mem_map] at hentry
      obtain ⟨dependency, hdependency, rfl⟩ := hentry
      exact resolveTarget_ok_iff hall (h.decided dependency hdependency)
    constructor
    · intro hrow
      obtain ⟨dependencies, hdependencies, hrow⟩ := bind_eq_ok.mp hrow
      obtain ⟨hnodup, hentries⟩ := (dependencies_by_target_ok_iff h).mp hdependencies
      obtain ⟨kind, hkind, hrow⟩ := bind_eq_ok.mp hrow
      obtain rfl := Except.ok.inj hkind
      obtain ⟨resolved, hresolved, hrow⟩ := bind_eq_ok.mp hrow
      rw [hentries] at hresolved
      obtain ⟨hresolvable, rfl⟩ := (mapM_ok_iff hresolve).mp hresolved
      refine ⟨⟨hid, hnodup, ?_⟩, (Except.ok.inj hrow).symm⟩
      intro dependency hdependency
      exact hresolvable (dependencyTarget dependency, dependency)
        (mem_sortedBy.mpr (List.mem_map_of_mem hdependency))
    · rintro ⟨haccepted, rfl⟩
      have hkeys : (((declaredDependencies manifest).map fun d => (dependencyTarget d, d)).map
          Prod.fst).Nodup := by
        rw [List.map_map]
        exact haccepted.declared_once
      refine bind_eq_ok.mpr ⟨⟨_, hkeys⟩,
        (dependencies_by_target_ok_iff h).mpr ⟨haccepted.declared_once, rfl⟩, ?_⟩
      refine bind_eq_ok.mpr ⟨_, rfl, ?_⟩
      refine bind_eq_ok.mpr ⟨_, (mapM_ok_iff hresolve).mpr ⟨?_, rfl⟩, rfl⟩
      intro entry hentry
      rw [mem_sortedBy, List.mem_map] at hentry
      obtain ⟨dependency, hdependency, rfl⟩ := hentry
      exact haccepted.resolvable dependency hdependency

end Row

/-! ## The graph -/

section Graph

variable {manifests : PackCatalog}

def resolvedRows (manifests : PackCatalog) : List (String × List String) :=
  (sortedBy Prod.fst manifests.entries).map fun entry =>
    (entry.1, resolvedTargets manifests entry.2)

theorem adjacencyRows_ok_iff (hall : ∀ manifest ∈ manifests.values, IsManifest manifest)
    {rows : List (String × List String)} :
    adjacencyRows manifests = .ok rows ↔
      (∀ pack_id manifest, manifests.get? pack_id = some manifest →
        RowAccepted manifests pack_id manifest) ∧ rows = resolvedRows manifests := by
  have hrow : ∀ entry ∈ sortedBy Prod.fst manifests.entries, ∀ row,
      adjacencyRow manifests entry = .ok row ↔ RowAccepted manifests entry.1 entry.2 ∧
        row = (entry.1, resolvedTargets manifests entry.2) := by
    rintro ⟨pack_id, manifest⟩ hentry row
    have hget := Dict.mem_entries_iff.mp (mem_sortedBy.mp hentry)
    exact adjacencyRow_ok_iff hall (hall manifest (Dict.mem_values_iff.mpr ⟨_, hget⟩))
  rw [adjacencyRows, mapM_ok_iff hrow, resolvedRows]
  apply and_congr_left
  intro _
  constructor
  · intro h pack_id manifest hget
    exact h (pack_id, manifest) (mem_sortedBy.mpr (Dict.mem_entries_iff.mpr hget))
  · rintro h ⟨pack_id, manifest⟩ hentry
    exact h pack_id manifest (Dict.mem_entries_iff.mp (mem_sortedBy.mp hentry))

theorem keys_resolvedRows : (resolvedRows manifests).map Prod.fst =
    (sortedBy Prod.fst manifests.entries).map Prod.fst := by
  rw [resolvedRows, List.map_map]
  rfl

theorem mem_keys_resolvedRows {pack_id : String} :
    pack_id ∈ (resolvedRows manifests).map Prod.fst ↔ manifests.contains pack_id = true := by
  rw [keys_resolvedRows, ((sortedBy_perm Prod.fst manifests.entries).map Prod.fst).mem_iff,
    Dict.contains_iff]
  exact Dict.mem_keys_iff

theorem edge_targetsIn_iff {source target : String} :
    DepthFirst.Edge (targetsIn (resolvedRows manifests)) source target ↔
      MountEdge manifests source target := by
  have hnodup : ((resolvedRows manifests).map Prod.fst).Nodup := by
    rw [keys_resolvedRows]
    exact ((sortedBy_perm Prod.fst manifests.entries).map Prod.fst).nodup_iff.mpr manifests.nodup
  have hfind : ∀ targets, Dict.find source (resolvedRows manifests) = some targets ↔
      ∃ manifest, manifests.get? source = some manifest ∧
        resolvedTargets manifests manifest = targets := by
    intro targets
    have hrow : (⟨resolvedRows manifests, hnodup⟩ : Dict String (List String)).get? source =
        some targets ↔ (source, targets) ∈ resolvedRows manifests := Dict.mem_entries_iff.symm
    refine hrow.trans ?_
    rw [resolvedRows, List.mem_map]
    constructor
    · rintro ⟨⟨pack_id, manifest⟩, hentry, heq⟩
      obtain ⟨rfl, rfl⟩ := Prod.mk.inj heq
      exact ⟨manifest, Dict.mem_entries_iff.mp (mem_sortedBy.mp hentry), rfl⟩
    · rintro ⟨manifest, hget, rfl⟩
      exact ⟨(source, manifest), mem_sortedBy.mpr (Dict.mem_entries_iff.mpr hget), rfl⟩
  rw [DepthFirst.Edge, targetsIn, MountEdge]
  constructor
  · intro hmem
    cases hrow : Dict.find source (resolvedRows manifests) with
    | none =>
        rw [hrow] at hmem
        cases hmem
    | some targets =>
        rw [hrow] at hmem
        obtain ⟨manifest, hget, rfl⟩ := (hfind targets).mp hrow
        exact ⟨manifest, hget, mem_resolvedTargets.mp hmem⟩
  · rintro ⟨manifest, hget, htarget⟩
    rw [(hfind _).mpr ⟨manifest, hget, rfl⟩]
    exact mem_resolvedTargets.mpr htarget

theorem resolvedRows_closed : ∀ a ∈ (resolvedRows manifests).map Prod.fst,
    ∀ b ∈ targetsIn (resolvedRows manifests) a, b ∈ (resolvedRows manifests).map Prod.fst := by
  intro a _ b hb
  obtain ⟨-, -, -, hcontains⟩ := edge_targetsIn_iff.mp hb
  exact mem_keys_resolvedRows.mpr hcontains

theorem visitRows_ok_iff : visitRows (resolvedRows manifests) = .ok () ↔
    ∀ pack_id, ¬ Relation.TransGen (MountEdge manifests) pack_id pack_id := by
  have hedge : DepthFirst.Edge (targetsIn (resolvedRows manifests)) = MountEdge manifests := by
    funext source target
    exact propext edge_targetsIn_iff
  have hrun := DepthFirst.run_ok_iff (@resolvedRows_closed manifests)
  rw [hedge] at hrun
  have hnodes : (∀ pack_id ∈ (resolvedRows manifests).map Prod.fst,
      ¬ Relation.TransGen (MountEdge manifests) pack_id pack_id) ↔
        ∀ pack_id, ¬ Relation.TransGen (MountEdge manifests) pack_id pack_id := by
    constructor
    · intro h pack_id hcycle
      obtain ⟨-, ⟨manifest, hget, -⟩, -⟩ := Relation.TransGen.head'_iff.mp hcycle
      exact h pack_id (mem_keys_resolvedRows.mpr (Dict.contains_iff.mpr ⟨manifest, hget⟩)) hcycle
    · exact fun h pack_id _ => h pack_id
  rw [← hnodes, ← hrun, visitRows]
  cases DepthFirst.run (targetsIn (resolvedRows manifests)) _ with
  | ok s => exact iff_of_true rfl ⟨s, rfl⟩
  | error walk =>
      apply iff_of_false
      · intro h
        cases h
      · rintro ⟨s, hs⟩
        cases hs

theorem wellFormedMounts_iff : WellFormedMounts manifests ↔
    (∀ pack_id manifest, manifests.get? pack_id = some manifest →
      RowAccepted manifests pack_id manifest) ∧
    ∀ pack_id, ¬ Relation.TransGen (MountEdge manifests) pack_id pack_id := by
  constructor
  · intro h
    refine ⟨?_, h.acyclic⟩
    intro pack_id manifest hget
    refine ⟨h.identified pack_id manifest hget, h.declared_once pack_id manifest hget, ?_⟩
    intro dependency hdependency
    refine ⟨h.required_mounted pack_id manifest hget dependency hdependency, ?_⟩
    intro target htarget
    exact h.layered pack_id (dependencyTarget dependency) manifest target
      ⟨manifest, hget, ⟨dependency, hdependency, rfl⟩, Dict.contains_iff.mpr ⟨target, htarget⟩⟩
      hget htarget
  · rintro ⟨hrows, hacyclic⟩
    refine ⟨?_, ?_, ?_, ?_, hacyclic⟩
    · exact fun pack_id manifest hget => (hrows pack_id manifest hget).identified
    · exact fun pack_id manifest hget => (hrows pack_id manifest hget).declared_once
    · intro pack_id manifest hget dependency hdependency
      exact ((hrows pack_id manifest hget).resolvable dependency hdependency).1
    · rintro source target manifest manifest' ⟨other, hother, ⟨dependency, hdependency, rfl⟩, -⟩
        hget hget'
      rw [hget] at hother
      obtain rfl := Option.some.inj hother
      exact ((hrows source manifest hget).resolvable dependency hdependency).2 manifest' hget'

theorem graph_ok_iff (hall : ∀ manifest ∈ manifests.values, IsManifest manifest) :
    validate_pack_dependency_graph manifests = .ok () ↔ WellFormedMounts manifests := by
  rw [validate_pack_dependency_graph, bind_eq_ok, wellFormedMounts_iff]
  constructor
  · rintro ⟨rows, hrows, hvisit⟩
    obtain ⟨haccepted, rfl⟩ := (adjacencyRows_ok_iff hall).mp hrows
    exact ⟨haccepted, visitRows_ok_iff.mp hvisit⟩
  · rintro ⟨haccepted, hacyclic⟩
    exact ⟨_, (adjacencyRows_ok_iff hall).mpr ⟨haccepted, rfl⟩, visitRows_ok_iff.mpr hacyclic⟩

/-! ## Refusals -/

/-- The error of every refusal is the boundary error of packs. -/
abbrev RefusesAtBoundary {α : Type} (x : Except Error α) : Prop :=
  FailsWith (fun e => e.cls = .packBoundaryError) x

theorem refuses_bind {α β : Type} {x : Except Error α} {f : α → Except Error β}
    (hx : RefusesAtBoundary x) (hf : ∀ a, x = .ok a → RefusesAtBoundary (f a)) :
    RefusesAtBoundary (x >>= f) := FailsWith.bind hx hf

theorem refuses_dependencies_by_target {manifest : Json} (h : IsManifest manifest)
    (hid : ∃ pack_id, manifest.get? "pack_id" = some pack_id) :
    RefusesAtBoundary (_dependencies_by_target manifest) := by
  obtain ⟨pack_id, hid⟩ := hid
  rw [_dependencies_by_target, Json.getMethod_of_isObj h.isObj]
  show RefusesAtBoundary (iterate _ >>= _)
  rw [h.iterate_dependencies]
  apply FailsWith.foldlM
  intro by_target dependency hdependency
  obtain ⟨target, htarget⟩ := h.named dependency hdependency
  rw [addDependency, Json.getItem_of_get? htarget, Json.getItem_of_get? hid]
  show RefusesAtBoundary (if by_target.contains target.pyStr = true then _ else _)
  split_ifs
  · exact FailsWith.error rfl
  · exact FailsWith.ok _

theorem refuses_resolveTarget (hall : ∀ target ∈ manifests.values, IsManifest target)
    (pack_id source_kind : String) {dependency : Json}
    (hdecided : ∃ required, dependency.get? "required" = some required) :
    RefusesAtBoundary (resolveTarget manifests pack_id source_kind
      (dependencyTarget dependency, dependency)) := by
  obtain ⟨required, hrequired⟩ := hdecided
  cases hget : manifests.get? (dependencyTarget dependency) with
  | none =>
      rw [resolveTarget_unmounted hrequired hget]
      split_ifs
      · exact FailsWith.error rfl
      · exact FailsWith.ok _
  | some target =>
      have htarget := hall target (Dict.mem_values_iff.mpr ⟨_, hget⟩)
      rw [resolveTarget, hget]
      show RefusesAtBoundary (packKind target >>= _)
      rw [packKind_of_isObj htarget.isObj]
      refine refuses_bind (FailsWith.ok _) ?_
      intro target_kind _
      split
      · split_ifs
        · exact FailsWith.error rfl
        · exact FailsWith.ok _
      · exact FailsWith.ok _

theorem refuses_adjacencyRow (hall : ∀ target ∈ manifests.values, IsManifest target)
    {pack_id : String} {manifest : Json} (h : IsManifest manifest) :
    RefusesAtBoundary (adjacencyRow manifests (pack_id, manifest)) := by
  rw [adjacencyRow, Json.getMethod_of_isObj h.isObj]
  show RefusesAtBoundary (if manifest.get? "pack_id" ≠ some (.str pack_id) then _ else _)
  split_ifs with hne
  · exact FailsWith.error rfl
  · rw [packKind_of_isObj h.isObj]
    refine refuses_bind (refuses_dependencies_by_target h ⟨_, not_not.mp hne⟩) ?_
    intro dependencies hdependencies
    obtain ⟨-, hentries⟩ := (dependencies_by_target_ok_iff h).mp hdependencies
    refine refuses_bind (FailsWith.ok _) ?_
    intro source_kind _
    refine refuses_bind ?_ fun resolved _ => FailsWith.ok _
    · apply FailsWith.mapM
      intro entry hentry
      rw [mem_sortedBy, hentries, List.mem_map] at hentry
      obtain ⟨dependency, hdependency, rfl⟩ := hentry
      exact refuses_resolveTarget hall pack_id source_kind (h.decided dependency hdependency)

theorem refuses_graph (hall : ∀ manifest ∈ manifests.values, IsManifest manifest) :
    RefusesAtBoundary (validate_pack_dependency_graph manifests) := by
  refine refuses_bind ?_ ?_
  · apply FailsWith.mapM
    rintro ⟨pack_id, manifest⟩ hentry
    have hget := Dict.mem_entries_iff.mp (mem_sortedBy.mp hentry)
    exact refuses_adjacencyRow hall (hall manifest (Dict.mem_values_iff.mpr ⟨_, hget⟩))
  · intro rows _
    rw [visitRows]
    cases DepthFirst.run (targetsIn rows) (rows.map Prod.fst) with
    | ok s => exact FailsWith.ok _
    | error walk => exact FailsWith.error rfl

/-! ## Order -/

structure ReorderedManifest (manifest manifest' : Json) : Prop where
  get?_eq : ∀ key, key ≠ "dependencies" → manifest.get? key = manifest'.get? key
  perm : (declaredDependencies manifest).Perm (declaredDependencies manifest')

/-- The same manifests in any order, each with its dependencies in any order. -/
def Reordered (manifests other : PackCatalog) : Prop :=
  ∀ pack_id, Option.Rel ReorderedManifest (manifests.get? pack_id) (other.get? pack_id)

theorem ReorderedManifest.symm {manifest manifest' : Json}
    (h : ReorderedManifest manifest manifest') : ReorderedManifest manifest' manifest :=
  ⟨fun key hkey => (h.get?_eq key hkey).symm, h.perm.symm⟩

variable {other : PackCatalog}

theorem Reordered.symm (h : Reordered manifests other) : Reordered other manifests := by
  intro pack_id
  have hrel := h pack_id
  generalize manifests.get? pack_id = x at hrel ⊢
  generalize other.get? pack_id = y at hrel ⊢
  cases hrel with
  | some hmanifest => exact Option.Rel.some hmanifest.symm
  | none => exact Option.Rel.none

theorem Reordered.exists_get? (h : Reordered manifests other) {pack_id : String} {manifest : Json}
    (hget : manifests.get? pack_id = some manifest) :
    ∃ manifest', other.get? pack_id = some manifest' ∧ ReorderedManifest manifest manifest' := by
  have hrel := h pack_id
  rw [hget] at hrel
  cases hother : other.get? pack_id with
  | none =>
      rw [hother] at hrel
      cases hrel
  | some manifest' =>
      rw [hother] at hrel
      cases hrel with
      | some hmanifest => exact ⟨manifest', rfl, hmanifest⟩

theorem Reordered.contains (h : Reordered manifests other) {pack_id : String}
    (hcontains : manifests.contains pack_id = true) : other.contains pack_id = true := by
  obtain ⟨manifest, hget⟩ := Dict.contains_iff.mp hcontains
  obtain ⟨manifest', hget', -⟩ := h.exists_get? hget
  exact Dict.contains_iff.mpr ⟨manifest', hget'⟩

theorem Reordered.mountEdge (h : Reordered manifests other) {source target : String}
    (hedge : MountEdge manifests source target) : MountEdge other source target := by
  obtain ⟨manifest, hget, ⟨dependency, hdependency, hname⟩, hcontains⟩ := hedge
  obtain ⟨manifest', hget', hreordered⟩ := h.exists_get? hget
  exact ⟨manifest', hget', ⟨dependency, hreordered.perm.mem_iff.mp hdependency, hname⟩,
    h.contains hcontains⟩

theorem WellFormedMounts.reorder (hmounts : WellFormedMounts manifests)
    (h : Reordered manifests other) : WellFormedMounts other := by
  have hkind : ∀ {manifest manifest' : Json}, ReorderedManifest manifest manifest' →
      textOf manifest "kind" = textOf manifest' "kind" := by
    intro manifest manifest' hreordered
    rw [textOf, textOf, hreordered.get?_eq "kind" (by decide)]
  constructor
  · intro pack_id manifest' hget'
    obtain ⟨manifest, hget, hreordered⟩ := h.symm.exists_get? hget'
    rw [hreordered.get?_eq "pack_id" (by decide)]
    exact hmounts.identified pack_id manifest hget
  · intro pack_id manifest' hget'
    obtain ⟨manifest, hget, hreordered⟩ := h.symm.exists_get? hget'
    rw [(hreordered.perm.map dependencyTarget).nodup_iff]
    exact hmounts.declared_once pack_id manifest hget
  · intro pack_id manifest' hget' dependency hdependency hrequired
    obtain ⟨manifest, hget, hreordered⟩ := h.symm.exists_get? hget'
    exact h.contains (hmounts.required_mounted pack_id manifest hget dependency
      (hreordered.perm.mem_iff.mp hdependency) hrequired)
  · intro source target manifest' target' hedge' hget' htarget'
    obtain ⟨manifest, hget, hreordered⟩ := h.symm.exists_get? hget'
    obtain ⟨target'', htarget, hreordered'⟩ := h.symm.exists_get? htarget'
    have hbelow := hmounts.layered source target manifest target'' (h.symm.mountEdge hedge') hget
      htarget
    rw [LayerBelow, hkind hreordered, hkind hreordered']
    exact hbelow
  · intro pack_id hcycle
    exact hmounts.acyclic pack_id
      (Relation.TransGen.mono (fun _ _ hedge => h.symm.mountEdge hedge) _ _ hcycle)

/-- Two computations that succeed alike and refuse with one class of error have one outcome. -/
theorem mapError_cls_eq {x y : Except Error Unit} (hx : RefusesAtBoundary x)
    (hy : RefusesAtBoundary y) (h : x = .ok () ↔ y = .ok ()) :
    x.mapError Error.cls = y.mapError Error.cls := by
  cases x with
  | ok u =>
      rw [h.mp rfl]
  | error e =>
      cases y with
      | ok u => cases h.mpr rfl
      | error e' =>
          rw [Except.mapError, Except.mapError, hx e rfl, hy e' rfl]

/-- The validation accepts exactly the well-formed mounts, in whatever order the mapping and the
dependencies are given. -/
theorem validate_pack_dependency_graph_iff (manifests : PackCatalog)
    (hall : ∀ manifest ∈ manifests.values, IsManifest manifest) :
    (validate_pack_dependency_graph manifests = .ok () ↔ WellFormedMounts manifests) ∧
      ∀ other : PackCatalog, (∀ manifest ∈ other.values, IsManifest manifest) →
        Reordered manifests other →
          (validate_pack_dependency_graph other).mapError Error.cls =
            (validate_pack_dependency_graph manifests).mapError Error.cls := by
  refine ⟨graph_ok_iff hall, ?_⟩
  intro other hother hreordered
  apply mapError_cls_eq (refuses_graph hother) (refuses_graph hall)
  rw [graph_ok_iff hother, graph_ok_iff hall]
  exact ⟨fun h => h.reorder hreordered.symm, fun h => h.reorder hreordered⟩

end Graph

/-! ## A project pack on a common pack -/

def manifestOf (pack_id kind : String) (dependencies : List Json) : Json :=
  .ofMembers [("pack_id", .str pack_id), ("kind", .str kind), ("dependencies", .arr dependencies)]

def requiredDependency (pack_id : String) : Json :=
  .ofMembers [("pack_id", .str pack_id), ("required", .bool true)]

def commonPack : String := "pack_0000000000000001"

def projectPack : String := "pack_0000000000000002"

def twoPacks : PackCatalog :=
  (Dict.empty.set projectPack (manifestOf projectPack "project" [requiredDependency commonPack])).set
    commonPack (manifestOf commonPack "common" [])

theorem isManifest_manifestOf (pack_id kind : String) {targets : List String} :
    IsManifest (manifestOf pack_id kind (targets.map requiredDependency)) := by
  have hget : (manifestOf pack_id kind (targets.map requiredDependency)).get? "dependencies" =
      some (.arr (targets.map requiredDependency)) := by
    rw [manifestOf, Json.get?_ofMembers]
    rfl
  have hdeclared : declaredDependencies
      (manifestOf pack_id kind (targets.map requiredDependency)) =
        targets.map requiredDependency := by
    rw [declaredDependencies, hget]
    rfl
  constructor
  · rfl
  · rw [hget]
    rfl
  · intro dependency hdependency
    rw [hdeclared] at hdependency
    obtain ⟨target, -, rfl⟩ := List.mem_map.mp hdependency
    exact ⟨.str target, by rw [requiredDependency, Json.get?_ofMembers]; rfl⟩
  · intro dependency hdependency
    rw [hdeclared] at hdependency
    obtain ⟨target, -, rfl⟩ := List.mem_map.mp hdependency
    exact ⟨.bool true, by rw [requiredDependency, Json.get?_ofMembers]; rfl⟩

theorem validate_pack_dependency_graph_iff_of_two :
    (validate_pack_dependency_graph twoPacks = .ok () ↔ WellFormedMounts twoPacks) ∧
      ∀ other : PackCatalog, (∀ manifest ∈ other.values, IsManifest manifest) →
        Reordered twoPacks other →
          (validate_pack_dependency_graph other).mapError Error.cls =
            (validate_pack_dependency_graph twoPacks).mapError Error.cls := by
  apply validate_pack_dependency_graph_iff
  intro manifest hmanifest
  have hvalues : twoPacks.values =
      [manifestOf projectPack "project" ([commonPack].map requiredDependency),
        manifestOf commonPack "common" (([] : List String).map requiredDependency)] := by decide
  rw [hvalues] at hmanifest
  rcases List.mem_pair.mp hmanifest with rfl | rfl
  · exact isManifest_manifestOf projectPack "project"
  · exact isManifest_manifestOf commonPack "common"

end FossilCore
