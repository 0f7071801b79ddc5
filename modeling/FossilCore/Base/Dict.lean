import Mathlib.Data.List.Induction
import Mathlib.Data.List.Nodup

/-!
# Dictionaries

A Python dictionary: entries in the order of the first assignment of their keys, each key once.
-/

namespace Base

structure Dict (κ α : Type) where
  entries : List (κ × α)
  nodup : (entries.map Prod.fst).Nodup

namespace Dict

variable {κ α : Type}

theorem ext_entries {d e : Dict κ α} (h : d.entries = e.entries) : d = e := by
  cases d
  cases e
  cases h
  rfl

instance [DecidableEq κ] [DecidableEq α] : DecidableEq (Dict κ α) := fun d e =>
  decidable_of_iff (d.entries = e.entries) ⟨ext_entries, congrArg entries⟩

def empty : Dict κ α := ⟨[], List.nodup_nil⟩

def keys (d : Dict κ α) : List κ := d.entries.map Prod.fst

def values (d : Dict κ α) : List α := d.entries.map Prod.snd

variable [DecidableEq κ]

def find (key : κ) : List (κ × α) → Option α
  | [] => none
  | (k, v) :: rest => if k = key then some v else find key rest

def get? (d : Dict κ α) (key : κ) : Option α := find key d.entries

def contains (d : Dict κ α) (key : κ) : Bool := (d.get? key).isSome

def assign (key : κ) (value : α) : List (κ × α) → List (κ × α)
  | [] => [(key, value)]
  | (k, v) :: rest => if k = key then (key, value) :: rest else (k, v) :: assign key value rest

theorem find_eq_none_iff {key : κ} {entries : List (κ × α)} :
    find key entries = none ↔ key ∉ entries.map Prod.fst := by
  induction entries with
  | nil => simp [find]
  | cons entry entries ih =>
      obtain ⟨k, v⟩ := entry
      by_cases hk : k = key
      · simp [find, hk]
      · simp [find, hk, ih, Ne.symm hk]

theorem map_fst_assign_of_mem {key : κ} {value : α} {entries : List (κ × α)}
    (h : key ∈ entries.map Prod.fst) :
    (assign key value entries).map Prod.fst = entries.map Prod.fst := by
  induction entries with
  | nil => simp at h
  | cons entry entries ih =>
      obtain ⟨k, v⟩ := entry
      by_cases hk : k = key
      · simp [assign, hk]
      · have hmem : key ∈ entries.map Prod.fst := by
          rcases List.mem_cons.mp h with h | h
          · exact absurd h.symm hk
          · exact h
        simp [assign, hk, ih hmem]

theorem map_fst_assign_of_notMem {key : κ} {value : α} {entries : List (κ × α)}
    (h : key ∉ entries.map Prod.fst) :
    (assign key value entries).map Prod.fst = entries.map Prod.fst ++ [key] := by
  induction entries with
  | nil => simp [assign]
  | cons entry entries ih =>
      obtain ⟨k, v⟩ := entry
      simp only [List.map_cons, List.mem_cons, not_or] at h
      simp [assign, Ne.symm h.1, ih h.2]

theorem assign_of_notMem {key : κ} {value : α} {entries : List (κ × α)}
    (h : key ∉ entries.map Prod.fst) : assign key value entries = entries ++ [(key, value)] := by
  induction entries with
  | nil => rfl
  | cons entry entries ih =>
      obtain ⟨k, v⟩ := entry
      simp only [List.map_cons, List.mem_cons, not_or] at h
      rw [assign, if_neg (Ne.symm h.1), ih h.2]
      rfl

theorem nodup_assign (key : κ) (value : α) {entries : List (κ × α)}
    (h : (entries.map Prod.fst).Nodup) : ((assign key value entries).map Prod.fst).Nodup := by
  by_cases hmem : key ∈ entries.map Prod.fst
  · rw [map_fst_assign_of_mem hmem]
    exact h
  · rw [map_fst_assign_of_notMem hmem]
    exact h.append (List.nodup_singleton key) (by simpa using hmem)

/-- `d[key] = value` -/
def set (d : Dict κ α) (key : κ) (value : α) : Dict κ α :=
  ⟨assign key value d.entries, nodup_assign key value d.nodup⟩

@[simp] theorem get?_empty (key : κ) : (empty : Dict κ α).get? key = none := rfl

theorem find_assign (key other : κ) (value : α) (entries : List (κ × α)) :
    find other (assign key value entries) =
      if key = other then some value else find other entries := by
  induction entries with
  | nil => rfl
  | cons entry entries ih =>
      obtain ⟨k, v⟩ := entry
      by_cases hk : k = key
      · subst hk
        by_cases ho : k = other <;> simp [assign, find, ho]
      · by_cases ho : k = other
        · subst ho
          simp [assign, find, hk, Ne.symm hk]
        · simp [assign, find, hk, ho, ih]

theorem get?_set (d : Dict κ α) (key other : κ) (value : α) :
    (d.set key value).get? other = if key = other then some value else d.get? other :=
  find_assign key other value d.entries

@[simp] theorem get?_set_self (d : Dict κ α) (key : κ) (value : α) :
    (d.set key value).get? key = some value := by
  rw [get?_set, if_pos rfl]

theorem get?_set_ne (d : Dict κ α) {key other : κ} (value : α) (h : other ≠ key) :
    (d.set key value).get? other = d.get? other := by
  rw [get?_set, if_neg (Ne.symm h)]

theorem contains_iff {d : Dict κ α} {key : κ} :
    d.contains key = true ↔ ∃ value, d.get? key = some value :=
  Option.isSome_iff_exists

theorem mem_entries_iff {d : Dict κ α} {key : κ} {value : α} :
    (key, value) ∈ d.entries ↔ d.get? key = some value := by
  obtain ⟨entries, hnodup⟩ := d
  show (key, value) ∈ entries ↔ find key entries = some value
  induction entries with
  | nil => simp [find]
  | cons entry entries ih =>
      obtain ⟨k, v⟩ := entry
      rw [List.map_cons, List.nodup_cons] at hnodup
      by_cases hk : k = key
      · subst hk
        have hnot : (k, value) ∉ entries := fun h =>
          hnodup.1 (List.mem_map.mpr ⟨(k, value), h, rfl⟩)
        simp [find, hnot, eq_comm]
      · simp [find, hk, Ne.symm hk, ih hnodup.2]

theorem mem_values_iff {d : Dict κ α} {value : α} :
    value ∈ d.values ↔ ∃ key, d.get? key = some value := by
  rw [values, List.mem_map]
  constructor
  · rintro ⟨⟨k, v⟩, hmem, rfl⟩
    exact ⟨k, mem_entries_iff.mp hmem⟩
  · rintro ⟨k, hk⟩
    exact ⟨(k, value), mem_entries_iff.mpr hk, rfl⟩

theorem mem_keys_iff {d : Dict κ α} {key : κ} :
    key ∈ d.keys ↔ ∃ value, d.get? key = some value := by
  rw [keys, List.mem_map]
  constructor
  · rintro ⟨⟨k, v⟩, hmem, rfl⟩
    exact ⟨v, mem_entries_iff.mp hmem⟩
  · rintro ⟨v, hv⟩
    exact ⟨(key, v), mem_entries_iff.mpr hv, rfl⟩

theorem keys_set (d : Dict κ α) (key : κ) (value : α) :
    (d.set key value).keys = if key ∈ d.keys then d.keys else d.keys ++ [key] := by
  by_cases h : key ∈ d.keys
  · rw [if_pos h]
    exact map_fst_assign_of_mem h
  · rw [if_neg h]
    exact map_fst_assign_of_notMem h

theorem keys_set_congr {β : Type} {d : Dict κ α} {e : Dict κ β} (h : d.keys = e.keys) (key : κ)
    (a : α) (b : β) : (d.set key a).keys = (e.set key b).keys := by
  rw [keys_set, keys_set, h]

theorem get?_eq_none_congr {β : Type} {d : Dict κ α} {e : Dict κ β} (h : d.keys = e.keys)
    {key : κ} : d.get? key = none ↔ e.get? key = none := by
  rw [get?, find_eq_none_iff, get?, find_eq_none_iff]
  rw [keys, keys] at h
  rw [h]

theorem notMem_keys_iff {d : Dict κ α} {key : κ} : key ∉ d.keys ↔ d.contains key = false := by
  rw [← Bool.not_eq_true, contains_iff, mem_keys_iff]

theorem entries_set {d : Dict κ α} {key : κ} {value : α} (h : key ∉ d.keys) :
    (d.set key value).entries = d.entries ++ [(key, value)] :=
  assign_of_notMem h

/-! ## Comprehensions -/

/-- `{key: value for key, value in pairs}` -/
def ofPairs (pairs : List (κ × α)) : Dict κ α := pairs.foldl (fun d pair => d.set pair.1 pair.2) empty

theorem ofPairs_concat (pairs : List (κ × α)) (pair : κ × α) :
    ofPairs (pairs ++ [pair]) = (ofPairs pairs).set pair.1 pair.2 := by
  rw [ofPairs, List.foldl_append]
  rfl

theorem mem_of_get?_ofPairs {pairs : List (κ × α)} {key : κ} {value : α}
    (h : (ofPairs pairs).get? key = some value) : (key, value) ∈ pairs := by
  induction pairs using List.reverseRecOn with
  | nil => cases h
  | append_singleton pairs pair ih =>
      rw [ofPairs_concat, get?_set] at h
      split_ifs at h with hkey
      · rw [← hkey, ← Option.some.inj h]
        exact List.mem_append_right _ List.mem_cons_self
      · exact List.mem_append_left _ (ih h)

theorem exists_get?_ofPairs {pairs : List (κ × α)} {key : κ} :
    (∃ value, (ofPairs pairs).get? key = some value) ↔ key ∈ pairs.map Prod.fst := by
  induction pairs using List.reverseRecOn with
  | nil => simp [ofPairs]
  | append_singleton pairs pair ih =>
      rw [ofPairs_concat, List.map_append, List.mem_append, ← ih, get?_set]
      by_cases hkey : pair.1 = key
      · simp [hkey]
      · simp [hkey, Ne.symm hkey]

theorem get?_ofPairs_iff {pairs : List (κ × α)} (h : (pairs.map Prod.fst).Nodup) {key : κ}
    {value : α} : (ofPairs pairs).get? key = some value ↔ (key, value) ∈ pairs := by
  refine ⟨mem_of_get?_ofPairs, ?_⟩
  intro hmem
  obtain ⟨other, hother⟩ := exists_get?_ofPairs.mpr (List.mem_map_of_mem hmem)
  have heq : (key, value) = (key, other) :=
    List.inj_on_of_nodup_map h hmem (mem_of_get?_ofPairs hother) rfl
  rw [hother, (Prod.mk.inj heq).2]

theorem ofPairs_entries (d : Dict κ α) : ofPairs d.entries = d := by
  obtain ⟨entries, hnodup⟩ := d
  apply ext_entries
  show (ofPairs entries).entries = entries
  induction entries using List.reverseRecOn with
  | nil => rfl
  | append_singleton entries entry ih =>
      rw [List.map_append, List.nodup_append] at hnodup
      have hentries := ih hnodup.1
      rw [ofPairs_concat, entries_set, hentries]
      rw [keys, hentries]
      intro hmem
      exact hnodup.2.2 _ hmem entry.1 (List.mem_singleton.mpr rfl) rfl

/-! ## Growth -/

/-- Every entry of the first dictionary is in the second, under a related value. -/
def Grows (R : α → α → Prop) (d e : Dict κ α) : Prop :=
  ∀ key a, d.get? key = some a → ∃ b, e.get? key = some b ∧ R a b

theorem Grows.refl {R : α → α → Prop} (hR : ∀ a, R a a) (d : Dict κ α) : Grows R d d :=
  fun _ a h => ⟨a, h, hR a⟩

theorem Grows.trans {R : α → α → Prop} (hR : ∀ a b c, R a b → R b c → R a c)
    {d₁ d₂ d₃ : Dict κ α} (h : Grows R d₁ d₂) (h' : Grows R d₂ d₃) : Grows R d₁ d₃ := by
  intro key a ha
  obtain ⟨b, hb, hab⟩ := h key a ha
  obtain ⟨c, hc, hbc⟩ := h' key b hb
  exact ⟨c, hc, hR a b c hab hbc⟩

theorem Grows.set {R : α → α → Prop} (hR : ∀ a, R a a) {d : Dict κ α} {key : κ} {value : α}
    (h : ∀ a, d.get? key = some a → R a value) : Grows R d (d.set key value) := by
  intro other a ha
  rw [get?_set]
  by_cases hk : key = other
  · subst hk
    exact ⟨value, by rw [if_pos rfl], h a ha⟩
  · exact ⟨a, by rw [if_neg hk, ha], hR a⟩

end Dict

end Base
