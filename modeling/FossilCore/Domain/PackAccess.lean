import Mathlib.Data.Finset.Sort
import FossilCore.Errors

/-!
# Pack access

`PackAccess` of `domain/pack.py`: the packs that a pack may read, and those it may write.
-/

namespace FossilCore

open Base

structure PackAccess where
  pack_id : String
  read_mounts : Finset String
  write_targets : Finset String

/-- `value in packs`, for a set of texts. -/
def inPacks (value : Json) (packs : Finset String) : Except Error Bool :=
  match value with
  | .str s => .ok (decide (s ∈ packs))
  | v => if v.hashable then .ok false else .error .typeError

/-- `frozenset(value)`, for a list of texts. -/
def textSet (value : Json) : Finset String := (value.items.filterMap Json.asStr?).toFinset

namespace PackAccess

/-- The access of a validated manifest. -/
def from_manifest (manifest : Json) : Except Error PackAccess := liftPy do
  let pack_id ← manifest.getItem "pack_id"
  let read_mounts ← manifest.getItem "read_mounts"
  let write_targets ← manifest.getItem "write_targets"
  return ⟨pack_id.pyStr, textSet read_mounts, textSet write_targets⟩

def require_read (access : PackAccess) (pack_id : Json) : Except Error Unit := do
  if ← inPacks pack_id access.read_mounts then return ()
  else .error (.packBoundaryError s!"pack {pack_id.pyStr} is not mounted for reading")

def require_write (access : PackAccess) (pack_id : Json) : Except Error Unit := do
  if ← inPacks pack_id access.write_targets then return ()
  else .error (.packBoundaryError s!"pack {pack_id.pyStr} is not an allowed write target")

end PackAccess

end FossilCore
