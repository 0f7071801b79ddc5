import FossilCore.Base.Checks
import FossilCore.Base.Dict

/-!
# Loops that collect distinct keys

A loop reads one item after the other into a dictionary and stops at a key it has seen.  It
succeeds exactly when the items can be read and their keys are distinct, and then the dictionary
holds what was read, in the order of the items.
-/

namespace Base

variable {ε α κ β : Type}

theorem mapM_concat_ok {f : α → Except ε β} {xs : List α} {ys : List β} {x : α} {y : β}
    (hxs : xs.mapM f = .ok ys) (hx : f x = .ok y) : (xs ++ [x]).mapM f = .ok (ys ++ [y]) := by
  rw [List.mapM_append, hxs, List.mapM_cons, hx]
  rfl

/-- A loop that passes over some of its items. -/
theorem foldlM_skip {γ δ : Type} (skip : γ → Bool) (f : δ → γ → Except ε δ) (d : δ) (xs : List γ) :
    xs.foldlM (fun d x => if skip x then .ok d else f d x) d =
      (xs.filter fun x => !skip x).foldlM f d := by
  induction xs generalizing d with
  | nil => rfl
  | cons x xs ih =>
      rw [List.foldlM_cons]
      by_cases hskip : skip x = true
      · rw [if_pos hskip, List.filter_cons_of_neg (by simp [hskip])]
        exact ih d
      · rw [if_neg hskip, List.filter_cons_of_pos (by simp [hskip]), List.foldlM_cons]
        exact congrArg (f d x >>= ·) (funext ih)

namespace Dict

variable [DecidableEq κ]

/-- One turn of the loop. -/
def collect (read : α → Except ε (κ × β)) (duplicate : κ → ε) (d : Dict κ β) (x : α) :
    Except ε (Dict κ β) := do
  let (key, value) ← read x
  if d.contains key then .error (duplicate key) else return d.set key value

variable {read : α → Except ε (κ × β)} {duplicate : κ → ε} {d e : Dict κ β} {xs : List α}

theorem collect_ok_iff {x : α} :
    collect read duplicate d x = .ok e ↔ ∃ entry, read x = .ok entry ∧
      e.entries = d.entries ++ [entry] := by
  rw [collect, bind_eq_ok]
  constructor
  · rintro ⟨⟨key, value⟩, hread, h⟩
    refine ⟨(key, value), hread, ?_⟩
    cases hkey : d.contains key with
    | true => simp [hkey] at h
    | false =>
        simp only [hkey, Bool.false_eq_true, if_false] at h
        cases h
        exact entries_set (notMem_keys_iff.mpr hkey)
  · rintro ⟨⟨key, value⟩, hread, hentries⟩
    refine ⟨(key, value), hread, ?_⟩
    have hnodup := e.nodup
    rw [hentries, List.map_append, List.nodup_append] at hnodup
    have hkey : key ∉ d.keys := fun hmem =>
      hnodup.2.2 key hmem key (List.mem_singleton.mpr rfl) rfl
    simp only [notMem_keys_iff.mp hkey, Bool.false_eq_true, if_false]
    congr 1
    exact ext_entries ((entries_set hkey).trans hentries.symm)

theorem foldlM_collect_ok_iff :
    xs.foldlM (collect read duplicate) d = .ok e ↔ ∃ entries, xs.mapM read = .ok entries ∧
      e.entries = d.entries ++ entries := by
  induction xs generalizing d with
  | nil =>
      constructor
      · intro h
        cases h
        exact ⟨[], rfl, (List.append_nil _).symm⟩
      · rintro ⟨entries, hread, hentries⟩
        rw [List.forall₂_nil_left_iff.mp (mapM_eq_ok.mp hread), List.append_nil] at hentries
        rw [ext_entries hentries]
        rfl
  | cons x xs ih =>
      rw [List.foldlM_cons, bind_eq_ok]
      constructor
      · rintro ⟨d', hx, hrest⟩
        obtain ⟨entry, hread, hd'⟩ := collect_ok_iff.mp hx
        obtain ⟨entries, hreads, he⟩ := ih.mp hrest
        refine ⟨entry :: entries, ?_, ?_⟩
        · exact mapM_eq_ok.mpr (.cons hread (mapM_eq_ok.mp hreads))
        · rw [he, hd', List.append_assoc]
          rfl
      · rintro ⟨entries, hreads, he⟩
        obtain ⟨entry, rest, hread, hrest, rfl⟩ :=
          List.forall₂_cons_left_iff.mp (mapM_eq_ok.mp hreads)
        have hnodup := e.nodup
        have hsplit : e.entries = (d.entries ++ [entry]) ++ rest := by simpa using he
        rw [hsplit, List.map_append] at hnodup
        let d' : Dict κ β := ⟨d.entries ++ [entry], hnodup.of_append_left⟩
        exact ⟨d', collect_ok_iff.mpr ⟨entry, hread, rfl⟩, ih.mpr ⟨rest, mapM_eq_ok.mpr hrest, hsplit⟩⟩

/-- The whole loop, from the empty dictionary. -/
theorem collected_iff :
    xs.foldlM (collect read duplicate) .empty = .ok e ↔ xs.mapM read = .ok e.entries := by
  rw [foldlM_collect_ok_iff]
  constructor
  · rintro ⟨entries, hread, he⟩
    rw [he, hread]
    rfl
  · intro h
    exact ⟨e.entries, h, rfl⟩

variable (duplicate) in
/-- What is read from distinct places under keys that tell the places has distinct keys. -/
theorem exists_collected {place : κ → α} (h : ∀ x ∈ xs, ∃ entry, read x = .ok entry)
    (hplace : ∀ x entry, read x = .ok entry → x = place entry.1) (hnodup : xs.Nodup) :
    ∃ e, xs.foldlM (collect read duplicate) .empty = .ok e ∧ xs.mapM read = .ok e.entries := by
  obtain ⟨entries, hentries⟩ := mapM_ok_of_forall h
  have hxs : xs = entries.map fun entry => place entry.1 := by
    have hforall := mapM_eq_ok.mp hentries
    clear hentries h hnodup
    induction hforall with
    | nil => rfl
    | cons hx _ ih => rw [List.map_cons, ← ih, hplace _ _ hx]
  have hkeys : (entries.map Prod.fst).Nodup := by
    rw [hxs, show (fun entry : κ × β => place entry.1) = place ∘ Prod.fst from rfl,
      ← List.map_map] at hnodup
    exact hnodup.of_map place
  exact ⟨⟨entries, hkeys⟩, collected_iff.mpr hentries, hentries⟩

end Dict

end Base
