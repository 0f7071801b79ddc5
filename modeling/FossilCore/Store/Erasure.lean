import FossilCore.Store.Contract

/-!
# What may lie in a store

A sound backend has events and tombstones at the keys of a layout, no event beside a tombstone
of its id, and elsewhere only spare files.  Unlike the contents of a ledger this survives calls
that stop half-way.
-/

namespace FossilCore

open Base

section Sound

variable {κ : Type} [Ord κ] [Std.TransOrd κ] [Std.LawfulEqOrd κ]

/-- What the bytes at a key are: an event, a tombstone, or a spare file. -/
inductive Placed (config : StoreConfig) (L : Layout EventSlot κ) (spare : κ → ByteArray → Prop) :
    κ → ByteArray → Prop where
  | event {id : EventId} {e : Json} (h : StoredEvent config id e) :
      Placed config L spare (L.key (.event id)) e.canonical
  | tombstone {id : EventId} {t : Json} (h : Ledger.IsTombstone id t) :
      Placed config L spare (L.key (.tombstone id)) t.canonical
  | spare {k : κ} {data : ByteArray} (h : spare k data) : Placed config L spare k data

def AllPlaced (config : StoreConfig) (L : Layout EventSlot κ) (spare : κ → ByteArray → Prop)
    (m : KeyMap κ ByteArray) : Prop :=
  ∀ (k : κ) data, m[k]? = some data → Placed config L spare k data

structure Sound (config : StoreConfig) (L : Layout EventSlot κ) (spare : κ → ByteArray → Prop)
    (m : KeyMap κ ByteArray) : Prop where
  placed : AllPlaced config L spare m
  erased : ∀ id, m[L.key (.tombstone id)]?.isSome → m[L.key (.event id)]? = none

variable {config : StoreConfig} {L : Layout EventSlot κ} {spare : κ → ByteArray → Prop}
  {m : KeyMap κ ByteArray} {k : κ} {data : ByteArray}

omit [Std.LawfulEqOrd κ] in
theorem sound_empty : Sound config L spare (∅ : KeyMap κ ByteArray) := by
  constructor <;> simp [AllPlaced]

omit [Ord κ] [Std.TransOrd κ] [Std.LawfulEqOrd κ] in
theorem event_key_ne_tombstone_key (id id' : EventId) :
    L.key (.event id) ≠ L.key (.tombstone id') := fun h => by cases L.inj h

namespace AllPlaced

theorem insert (h : AllPlaced config L spare m) (hdata : Placed config L spare k data) :
    AllPlaced config L spare (m.insert k data) := by
  classical
  intro k' data' hk'
  rw [KeyMap.get?_insert] at hk'
  split_ifs at hk' with hkey
  · cases hk'
    rwa [← hkey]
  · exact h k' data' hk'

theorem erase (h : AllPlaced config L spare m) (k : κ) : AllPlaced config L spare (m.erase k) := by
  classical
  intro k' data' hk'
  rw [KeyMap.get?_erase] at hk'
  split_ifs at hk'
  exact h k' data' hk'

variable (hslots : ∀ slot data, ¬ spare (L.key slot) data)

include hslots in
omit [Std.LawfulEqOrd κ] in
theorem exists_event (h : AllPlaced config L spare m) {id : EventId}
    (he : m[L.key (.event id)]? = some data) :
    ∃ e, StoredEvent config id e ∧ data = e.canonical := by
  generalize hk : L.key (.event id) = k at he
  cases h k data he with
  | event hstored =>
      cases L.inj hk
      exact ⟨_, hstored, rfl⟩
  | tombstone ht => cases L.inj hk
  | spare hspare =>
      subst hk
      exact (hslots _ _ hspare).elim

include hslots in
omit [Std.LawfulEqOrd κ] in
theorem exists_tombstone (h : AllPlaced config L spare m) {id : EventId}
    (ht : m[L.key (.tombstone id)]? = some data) :
    ∃ t, Ledger.IsTombstone id t ∧ data = t.canonical := by
  generalize hk : L.key (.tombstone id) = k at ht
  cases h k data ht with
  | event hstored => cases L.inj hk
  | tombstone htomb =>
      cases L.inj hk
      exact ⟨_, htomb, rfl⟩
  | spare hspare =>
      subst hk
      exact (hslots _ _ hspare).elim

end AllPlaced

namespace Sound

theorem insert_event (h : Sound config L spare m) {id : EventId} {e : Json}
    (he : StoredEvent config id e) (ht : m[L.key (.tombstone id)]? = none) :
    Sound config L spare (m.insert (L.key (.event id)) e.canonical) := by
  refine ⟨h.placed.insert (.event he), ?_⟩
  intro id' ht'
  rw [KeyMap.get?_insert_ne _ _ (event_key_ne_tombstone_key id id')] at ht'
  have hne : L.key (.event id) ≠ L.key (.event id') := by
    intro hkey
    cases L.inj hkey
    rw [ht] at ht'
    cases ht'
  rw [KeyMap.get?_insert_ne _ _ hne]
  exact h.erased id' ht'

/-- Both effects of a redaction together. -/
theorem redact (h : Sound config L spare m) {id : EventId} {t : Json}
    (ht : Ledger.IsTombstone id t) :
    Sound config L spare
      ((m.insert (L.key (.tombstone id)) t.canonical).erase (L.key (.event id))) := by
  classical
  refine ⟨(h.placed.insert (.tombstone ht)).erase _, ?_⟩
  intro id' ht'
  rw [KeyMap.get?_erase_ne _ (event_key_ne_tombstone_key id id')] at ht'
  rw [KeyMap.get?_erase]
  split_ifs with hkey
  · rfl
  · rw [KeyMap.get?_insert_ne _ _ (event_key_ne_tombstone_key id' id).symm]
    have hne : L.key (.tombstone id) ≠ L.key (.tombstone id') := by
      intro htomb
      cases L.inj htomb
      exact hkey rfl
    rw [KeyMap.get?_insert_ne _ _ hne] at ht'
    exact h.erased id' ht'

theorem insert_spare (h : Sound config L spare m) (hspare : spare k data)
    (hk : ∀ slot, L.key slot ≠ k) : Sound config L spare (m.insert k data) := by
  refine ⟨h.placed.insert (.spare hspare), ?_⟩
  intro id ht
  rw [KeyMap.get?_insert_ne _ _ (hk _).symm] at ht ⊢
  exact h.erased id ht

theorem erase_spare (h : Sound config L spare m) (hk : ∀ slot, L.key slot ≠ k) :
    Sound config L spare (m.erase k) := by
  refine ⟨h.placed.erase k, ?_⟩
  intro id ht
  rw [KeyMap.get?_erase_ne _ (hk _).symm] at ht ⊢
  exact h.erased id ht

omit [Std.LawfulEqOrd κ] in
theorem tombstone_absent (h : Sound config L spare m) {id : EventId}
    (he : m[L.key (.event id)]? = some data) : m[L.key (.tombstone id)]? = none := by
  apply Option.eq_none_iff_forall_ne_some.mpr
  intro t ht
  have herased := h.erased id (by rw [ht]; rfl)
  rw [he] at herased
  cases herased

end Sound

/-- No tombstone goes away. -/
def KeepsTombstones (L : Layout EventSlot κ) (m m' : KeyMap κ ByteArray) : Prop :=
  ∀ id, m[L.key (.tombstone id)]?.isSome → m'[L.key (.tombstone id)]?.isSome

namespace KeepsTombstones

variable {m' m'' : KeyMap κ ByteArray}

omit [Std.LawfulEqOrd κ] in
theorem refl (m : KeyMap κ ByteArray) : KeepsTombstones L m m := fun _ h => h

omit [Std.LawfulEqOrd κ] in
theorem trans (h : KeepsTombstones L m m') (h' : KeepsTombstones L m' m'') :
    KeepsTombstones L m m'' := fun id hid => h' id (h id hid)

theorem insert (m : KeyMap κ ByteArray) (k : κ) (data : ByteArray) :
    KeepsTombstones L m (m.insert k data) := by
  classical
  intro id hid
  rw [KeyMap.get?_insert]
  split_ifs
  · rfl
  · exact hid

theorem erase (m : KeyMap κ ByteArray) (hk : ∀ id, L.key (.tombstone id) ≠ k) :
    KeepsTombstones L m (m.erase k) := by
  intro id hid
  rw [KeyMap.get?_erase_ne _ (hk id).symm]
  exact hid

end KeepsTombstones

/-- No file of the store holds an event of the id. -/
def Erased (config : StoreConfig) (m : KeyMap κ ByteArray) (id : EventId) : Prop :=
  ∀ (k : κ) data e, m[k]? = some data → StoredEvent config id e → data ≠ e.canonical

theorem Ledger.IsTombstone.canonical_ne {id id' : EventId} {t e : Json} (h : Ledger.IsTombstone id t)
    (he : StoredEvent config id' e) : t.canonical ≠ e.canonical := by
  intro heq
  obtain rfl := (Json.canonical_inj h.wf he.wf).mp heq
  obtain ⟨fields, hpayload, -⟩ := get?_payload he.accepted.envelope
  rw [h.payload] at hpayload
  cases hpayload

omit [Std.LawfulEqOrd κ] in
/-- Where no spare file holds an event, an id without an event file is erased. -/
theorem Sound.erased_of_absent (h : Sound config L spare m)
    (hspare : ∀ k data id e, spare k data → StoredEvent config id e → data ≠ e.canonical)
    {id : EventId} (habsent : m[L.key (.event id)]? = none) : Erased config m id := by
  intro k data e hk he heq
  cases h.placed k data hk with
  | event he' =>
      obtain rfl := (Json.canonical_inj he'.wf he.wf).mp heq
      obtain rfl := he'.id_eq he
      rw [habsent] at hk
      cases hk
  | tombstone ht => exact ht.canonical_ne he heq
  | spare hdata => exact hspare k data id e hdata he heq

end Sound

end FossilCore
