import FossilCore.Base.KeyMap
import FossilCore.Base.Runs
import Mathlib.Logic.Function.Basic

/-!
# Layouts

A store keeps its data under slots, and a backend keeps bytes under keys.  A layout places the
slots; a map holds some contents under the layout when it has them at their keys and nothing
anywhere else.  A model says what each call does to the contents; a store over a backend
refines the model when each call answers alike and the backend keeps holding the contents.
-/

namespace Base

structure Layout (τ κ : Type) where
  key : τ → κ
  inj : Function.Injective key

namespace Layout

variable {τ κ α : Type} [Ord κ] [Std.TransOrd κ] [Std.LawfulEqOrd κ]

structure Holds (L : Layout τ κ) (contents : τ → Option α) (m : KeyMap κ α) : Prop where
  slot : ∀ t, m[L.key t]? = contents t
  only : ∀ k v, m[k]? = some v → ∃ t, L.key t = k

variable {L : Layout τ κ} {contents contents' : τ → Option α} {m m' : KeyMap κ α}

omit [Std.LawfulEqOrd κ] in
theorem holds_empty : L.Holds (fun _ => (none : Option α)) ∅ := by
  constructor <;> simp

theorem Holds.unique (h : L.Holds contents m) (h' : L.Holds contents m') : m = m' := by
  apply KeyMap.ext
  intro k
  by_cases hk : ∃ t, L.key t = k
  · obtain ⟨t, rfl⟩ := hk
    rw [h.slot, h'.slot]
  · rw [Option.eq_none_iff_forall_ne_some.mpr fun v hv => hk (h.only k v hv),
      Option.eq_none_iff_forall_ne_some.mpr fun v hv => hk (h'.only k v hv)]

omit [Std.LawfulEqOrd κ] in
/-- A key of no slot is free. -/
theorem Holds.free (h : L.Holds contents m) {k : κ} (hk : ∀ t, L.key t ≠ k) : m[k]? = none := by
  apply Option.eq_none_iff_forall_ne_some.mpr
  intro v hv
  obtain ⟨t, ht⟩ := h.only k v hv
  exact hk t ht

omit [Std.LawfulEqOrd κ] in
theorem Holds.congr (h : L.Holds contents m) (heq : ∀ t, contents t = contents' t) :
    L.Holds contents' m :=
  ⟨fun t => (h.slot t).trans (heq t), h.only⟩

theorem Holds.insert (h : L.Holds contents m) {t : τ} {v : α} (ht : contents' t = some v)
    (hother : ∀ t', t' ≠ t → contents' t' = contents t') :
    L.Holds contents' (m.insert (L.key t) v) := by
  constructor
  · intro t'
    by_cases hkey : t' = t
    · subst hkey
      rw [KeyMap.get?_insert_self, ht]
    · rw [KeyMap.get?_insert_ne _ _ fun hk => hkey (L.inj hk).symm, h.slot, hother t' hkey]
  · intro k v' hv
    by_cases hkey : L.key t = k
    · exact ⟨t, hkey⟩
    · rw [KeyMap.get?_insert_ne _ _ hkey] at hv
      exact h.only k v' hv

theorem Holds.erase (h : L.Holds contents m) {t : τ} (ht : contents' t = none)
    (hother : ∀ t', t' ≠ t → contents' t' = contents t') :
    L.Holds contents' (m.erase (L.key t)) := by
  constructor
  · intro t'
    by_cases hkey : t' = t
    · subst hkey
      rw [KeyMap.get?_erase_self, ht]
    · rw [KeyMap.get?_erase_ne _ fun hk => hkey (L.inj hk).symm, h.slot, hother t' hkey]
  · intro k v' hv
    by_cases hkey : L.key t = k
    · exact ⟨t, hkey⟩
    · rw [KeyMap.get?_erase_ne _ hkey] at hv
      exact h.only k v' hv

/-- What a map has at the keys of the layout, whatever else it has. -/
def view (L : Layout τ κ) (m : KeyMap κ α) : τ → Option α := fun t => m[L.key t]?

omit [Std.LawfulEqOrd κ] in
theorem view_empty : L.view (∅ : KeyMap κ α) = fun _ => none := by
  funext t
  exact Std.ExtTreeMap.getElem?_empty

theorem view_insert [DecidableEq τ] (m : KeyMap κ α) (t : τ) (v : α) :
    L.view (m.insert (L.key t) v) = Function.update (L.view m) t (some v) := by
  funext t'
  by_cases ht : t' = t
  · subst ht
    rw [view, KeyMap.get?_insert_self, Function.update_self]
  · rw [view, KeyMap.get?_insert_ne _ _ fun hk => ht (L.inj hk).symm, Function.update_of_ne ht, view]

theorem view_erase [DecidableEq τ] (m : KeyMap κ α) (t : τ) :
    L.view (m.erase (L.key t)) = Function.update (L.view m) t none := by
  funext t'
  by_cases ht : t' = t
  · subst ht
    rw [view, KeyMap.get?_erase_self, Function.update_self]
  · rw [view, KeyMap.get?_erase_ne _ fun hk => ht (L.inj hk).symm, Function.update_of_ne ht, view]

/-- A key of no slot is out of view. -/
theorem view_insert_spare (m : KeyMap κ α) {k : κ} (v : α) (hk : ∀ t, L.key t ≠ k) :
    L.view (m.insert k v) = L.view m := by
  funext t
  exact KeyMap.get?_insert_ne _ _ (hk t).symm

theorem view_erase_spare (m : KeyMap κ α) {k : κ} (hk : ∀ t, L.key t ≠ k) :
    L.view (m.erase k) = L.view m := by
  funext t
  exact KeyMap.get?_erase_ne _ (hk t).symm

/-- A listing of the keys of one kind of slot, in any order, lists the filled slots. -/
theorem Holds.keys_perm (h : L.Holds contents m) (q : κ → Bool) {slots : List τ}
    (hnodup : slots.Nodup)
    (hslots : ∀ t, t ∈ slots ↔ q (L.key t) = true ∧ (contents t).isSome) :
    (m.keys.filter q).Perm (slots.map L.key) := by
  have hkeys : m.keys.Nodup := Std.ExtTreeMap.nodup_keys
  refine (List.perm_ext_iff_of_nodup (hkeys.filter _) (hnodup.map L.inj)).mpr ?_
  intro k
  rw [List.mem_filter, KeyMap.mem_keys_iff, List.mem_map]
  constructor
  · rintro ⟨⟨v, hv⟩, hq⟩
    obtain ⟨t, rfl⟩ := h.only k v hv
    refine ⟨t, (hslots t).mpr ⟨hq, ?_⟩, rfl⟩
    rw [← h.slot, hv]
    rfl
  · rintro ⟨t, ht, rfl⟩
    obtain ⟨hq, hsome⟩ := (hslots t).mp ht
    rw [← h.slot] at hsome
    exact ⟨Option.isSome_iff_exists.mp hsome, hq⟩

end Layout

/-! ## Models of stores -/

structure Model (σ τ α ι ω : Type) where
  contents : σ → τ → Option α
  step : σ → ι → ω × σ
  Valid : σ → Prop
  valid_step : ∀ s c, Valid s → Valid (step s c).2

namespace Model

variable {σ τ κ κ' α ι ω : Type} [Ord κ] [Std.TransOrd κ] [Std.LawfulEqOrd κ]
  [Ord κ'] [Std.TransOrd κ'] [Std.LawfulEqOrd κ']

/-- The backend holds what a valid state of the model stands for. -/
structure StoredAs (M : Model σ τ α ι ω) (L : Layout τ κ) (s : σ) (m : KeyMap κ α) : Prop where
  valid : M.Valid s
  holds : L.Holds (M.contents s) m

/-- Each call answers as the model does, up to `S`, and leaves the backend a layout of the
model's state. -/
def Refines (M : Model σ τ α ι ω) (L : Layout τ κ) (S : ω → ω → Prop)
    (step : KeyMap κ α → ι → ω × KeyMap κ α) : Prop :=
  ∀ s m c, M.StoredAs L s m →
    S (step m c).1 (M.step s c).1 ∧ L.Holds (M.contents (M.step s c).2) (step m c).2

variable {M : Model σ τ α ι ω} {L : Layout τ κ} {L' : Layout τ κ'} {S : ω → ω → Prop}
  {step : KeyMap κ α → ι → ω × KeyMap κ α} {step' : KeyMap κ' α → ι → ω × KeyMap κ' α}
  {s : σ} {m : KeyMap κ α} {m' : KeyMap κ' α}

omit [Std.LawfulEqOrd κ] in
theorem Refines.next (h : M.Refines L S step) (hs : M.StoredAs L s m) (c : ι) :
    M.StoredAs L (M.step s c).2 (step m c).2 :=
  ⟨M.valid_step s c hs.valid, (h s m c hs).2⟩

/-- A call that leaves the model alone leaves the backend alone. -/
theorem Refines.unchanged (h : M.Refines L S step) (hs : M.StoredAs L s m) {c : ι}
    (hsame : (M.step s c).2 = s) : (step m c).2 = m := by
  have hholds := (h.next hs c).holds
  rw [hsame] at hholds
  exact hholds.unique hs.holds

omit [Std.LawfulEqOrd κ] in
theorem Refines.after (h : M.Refines L S step) (hs : M.StoredAs L s m) (calls : List ι) :
    M.StoredAs L (Runs.after M.step s calls) (Runs.after step m calls) := by
  refine (Runs.simulation (R := fun m s => M.StoredAs L s m) (S := S) (T := Eq)
    (List.forall₂_refl calls) hs ?_).2
  rintro m s c c' rfl hs
  exact ⟨(h s m c hs).1, h.next hs c⟩

omit [Std.LawfulEqOrd κ] [Std.LawfulEqOrd κ'] in
/-- Two stores that refine one model answer runs alike when the model does not tell their calls
apart. -/
theorem Refines.agree (h : M.Refines L S step) (h' : M.Refines L' S step')
    (hs : M.StoredAs L s m) (hs' : M.StoredAs L' s m') {T : ι → ι → Prop}
    (hT : ∀ c c', T c c' → ∀ s, M.step s c = M.step s c') {calls calls' : List ι}
    (hcalls : List.Forall₂ T calls calls') :
    List.Forall₂ (fun o o' => ∃ a, S o a ∧ S o' a)
      (Runs.outcomes step m calls) (Runs.outcomes step' m' calls') := by
  refine (Runs.simulation (R := fun m m' => ∃ s, M.StoredAs L s m ∧ M.StoredAs L' s m') hcalls
    ⟨s, hs, hs'⟩ ?_).1
  rintro m m' c c' hc ⟨s, hs, hs'⟩
  have hout := (h' s m' c' hs').1
  have hnext := h'.next hs' c'
  rw [← hT c c' hc] at hout hnext
  exact ⟨⟨_, (h s m c hs).1, hout⟩, _, h.next hs c, hnext⟩

end Model

end Base
