import FossilCore.Base.DepthFirst

/-!
# Breadth-first search

The search from a start node with a queue of nodes, each with the path that it was reached on.
The nodes that have left the queue are kept beside it in the proofs: the paths of both grow no
shorter from one entry to the next, and a walk of any length has left the entries that are done
only through a path in the queue that is no longer.  It runs on a fuel argument, of which one more
than the number of nodes is enough.
-/

namespace Base

namespace BreadthFirst

open DepthFirst (Edge)

variable {α : Type}

/-! ## Walks -/

section Walks

variable (edge : α → α → Prop)

/-- The walk goes along edges, and has at least its two ends. -/
structure IsWalk (start : α) (walk : List α) (goal : α) : Prop where
  head : walk.head? = some start
  last : walk.getLast? = some goal
  chain : walk.IsChain edge

/-- A walk without repeated nodes than which no walk is shorter. -/
structure IsShortest (start : α) (walk : List α) (goal : α) : Prop where
  isWalk : IsWalk edge start walk goal
  nodup : walk.Nodup
  least : ∀ other, IsWalk edge start other goal → walk.length ≤ other.length

variable {edge} {start goal node : α} {walk : List α}

theorem isWalk_self (start : α) : IsWalk edge start [start] start :=
  ⟨rfl, rfl, List.isChain_singleton start⟩

theorem IsWalk.concat (h : IsWalk edge start walk node) (hedge : edge node goal) :
    IsWalk edge start (walk ++ [goal]) goal := by
  refine ⟨?_, List.getLast?_concat, ?_⟩
  · rw [List.head?_append, h.head]
    rfl
  · rw [List.isChain_append]
    refine ⟨h.chain, List.isChain_singleton goal, ?_⟩
    intro a ha b hb
    rw [h.last] at ha
    cases ha
    cases hb
    exact hedge

/-- A walk is one node, or a walk and an edge. -/
theorem IsWalk.cases (h : IsWalk edge start walk goal) :
    (walk = [start] ∧ goal = start) ∨
      ∃ before node, walk = before ++ [goal] ∧ IsWalk edge start before node ∧ edge node goal := by
  obtain ⟨before, rfl⟩ := List.getLast?_eq_some_iff.mp h.last
  cases hlast : before.getLast? with
  | none =>
      rw [List.getLast?_eq_none_iff] at hlast
      subst hlast
      have hhead := h.head
      cases hhead
      exact Or.inl ⟨rfl, rfl⟩
  | some node =>
      obtain ⟨hbefore, -, hjoin⟩ := List.isChain_append.mp h.chain
      have hne : before ≠ [] := by
        rintro rfl
        cases hlast
      have hhead := h.head
      rw [List.head?_append_of_ne_nil _ hne] at hhead
      exact Or.inr ⟨before, node, rfl, ⟨hhead, hlast, hbefore⟩, hjoin node hlast goal rfl⟩

theorem IsWalk.reaches (h : IsWalk edge start walk goal) :
    Relation.ReflTransGen edge start goal := by
  induction hn : walk.length generalizing walk goal with
  | zero =>
      rw [List.length_eq_zero_iff.mp hn] at h
      cases h.head
  | succ n ih =>
      rcases h.cases with ⟨-, rfl⟩ | ⟨before, node, rfl, hbefore, hedge⟩
      · exact .refl
      · exact (ih hbefore (by simpa using hn)).tail hedge

/-- A walk does not leave a set that no edge leaves. -/
theorem IsWalk.subset {nodes : List α} (h : IsWalk edge start walk goal) (hstart : start ∈ nodes)
    (hclosed : ∀ a ∈ nodes, ∀ b, edge a b → b ∈ nodes) : ∀ a ∈ walk, a ∈ nodes := by
  induction hn : walk.length generalizing walk goal with
  | zero =>
      rw [List.length_eq_zero_iff.mp hn] at h
      cases h.head
  | succ n ih =>
      rcases h.cases with ⟨rfl, -⟩ | ⟨before, node, rfl, hbefore, hedge⟩
      · intro a ha
        rw [List.mem_singleton.mp ha]
        exact hstart
      · have hinside := ih hbefore (by simpa using hn)
        intro a ha
        rcases List.mem_append.mp ha with ha | ha
        · exact hinside a ha
        · rw [List.mem_singleton.mp ha]
          exact hclosed node (hinside node (List.mem_of_getLast? hbefore.last)) goal hedge

theorem exists_isWalk (h : Relation.ReflTransGen edge start goal) :
    ∃ walk, IsWalk edge start walk goal := by
  induction h with
  | refl => exact ⟨[start], isWalk_self start⟩
  | tail _ hedge ih =>
      obtain ⟨walk, hwalk⟩ := ih
      exact ⟨_, hwalk.concat hedge⟩

end Walks

/-! ## The search -/

/-- The queue, and the nodes that have been put into it. -/
structure Search (α : Type) where
  queue : List (α × List α)
  visited : List α

def Search.single (start : α) : Search α := ⟨[(start, [start])], [start]⟩

variable [DecidableEq α]

def discover (path : List α) (s : Search α) (target : α) : Search α :=
  if target ∈ s.visited then s
  else ⟨s.queue ++ [(target, path ++ [target])], target :: s.visited⟩

def search (next : α → List α) (goal : α) : ℕ → Search α → List α
  | 0, _ => []
  | fuel + 1, s =>
      match s.queue with
      | [] => []
      | (current, path) :: rest =>
          if current = goal then path
          else search next goal fuel ((next current).foldl (discover path) ⟨rest, s.visited⟩)

/-! ## What is discovered -/

/-- The targets that have not been visited, each once. -/
def fresh : List α → List α → List α
  | _, [] => []
  | visited, target :: targets =>
      if target ∈ visited then fresh visited targets
      else target :: fresh (target :: visited) targets

theorem mem_fresh {visited targets : List α} {a : α} :
    a ∈ fresh visited targets ↔ a ∈ targets ∧ a ∉ visited := by
  induction targets generalizing visited with
  | nil => simp [fresh]
  | cons target targets ih =>
      rw [fresh]
      split_ifs with hvisited
      · rw [ih, List.mem_cons]
        constructor
        · exact fun h => ⟨Or.inr h.1, h.2⟩
        · rintro ⟨rfl | h, hnot⟩
          · exact absurd hvisited hnot
          · exact ⟨h, hnot⟩
      · rw [List.mem_cons, ih, List.mem_cons, List.mem_cons]
        by_cases ha : a = target
        · subst ha
          simp [hvisited]
        · simp [ha]

theorem nodup_fresh (visited targets : List α) : (fresh visited targets).Nodup := by
  induction targets generalizing visited with
  | nil => exact List.nodup_nil
  | cons target targets ih =>
      rw [fresh]
      split_ifs with hvisited
      · exact ih visited
      · refine List.nodup_cons.mpr ⟨fun hmem => ?_, ih _⟩
        exact (mem_fresh.mp hmem).2 List.mem_cons_self

theorem foldl_discover (path targets : List α) (s : Search α) :
    (targets.foldl (discover path) s).queue =
        s.queue ++ (fresh s.visited targets).map (fun a => (a, path ++ [a])) ∧
      ∀ a, a ∈ (targets.foldl (discover path) s).visited ↔
        a ∈ s.visited ∨ a ∈ fresh s.visited targets := by
  induction targets generalizing s with
  | nil => simp [fresh]
  | cons target targets ih =>
      rw [List.foldl_cons, fresh, discover]
      by_cases hvisited : target ∈ s.visited
      · rw [if_pos hvisited, if_pos hvisited]
        exact ih s
      · rw [if_neg hvisited, if_neg hvisited]
        obtain ⟨hqueue, hmem⟩ := ih ⟨s.queue ++ [(target, path ++ [target])], target :: s.visited⟩
        refine ⟨?_, fun a => ?_⟩
        · rw [hqueue, List.append_assoc]
          rfl
        · rw [hmem, List.mem_cons, List.mem_cons]
          tauto

/-! ## The invariant -/

/-- What holds between two steps, `done` being the entries that have left the queue. -/
structure Consistent (next : α → List α) (nodes : List α) (start goal : α)
    (done : List (α × List α)) (s : Search α) : Prop where
  distinct : ((done ++ s.queue).map Prod.fst).Nodup
  visited_iff : ∀ a, a ∈ s.visited ↔ a ∈ (done ++ s.queue).map Prod.fst
  inside : ∀ a ∈ s.visited, a ∈ nodes
  started : (start, [start]) ∈ done ++ s.queue
  walks : ∀ e ∈ done ++ s.queue, IsWalk (Edge next) start e.2 e.1
  simple : ∀ e ∈ done ++ s.queue, e.2.Nodup ∧ ∀ a ∈ e.2, a ∈ s.visited
  ordered : (done ++ s.queue).Pairwise fun e e' => e.2.length ≤ e'.2.length
  close : ∀ e rest, s.queue = e :: rest → ∀ e' ∈ rest, e'.2.length ≤ e.2.length + 1
  followed : ∀ e ∈ done, ∀ b ∈ next e.1,
    ∃ e' ∈ done ++ s.queue, e'.1 = b ∧ e'.2.length ≤ e.2.length + 1
  missed : ∀ e ∈ done, e.1 ≠ goal

section Invariant

omit [DecidableEq α]

variable {next : α → List α} {nodes : List α} {start goal : α} {done : List (α × List α)}
  {s : Search α}

theorem consistent_from (hstart : start ∈ nodes) :
    Consistent next nodes start goal [] (Search.single start) where
  distinct := List.nodup_singleton _
  visited_iff _ := Iff.rfl
  inside a ha := by
    rw [List.mem_singleton.mp ha]
    exact hstart
  started := List.mem_singleton_self _
  walks e he := by
    rw [List.mem_singleton.mp he]
    exact isWalk_self start
  simple e he := by
    rw [List.mem_singleton.mp he]
    exact ⟨List.nodup_singleton start, fun a ha => ha⟩
  ordered := List.pairwise_singleton _ _
  close e rest hqueue e' he' := by
    obtain ⟨-, rfl⟩ := List.cons.inj hqueue
    cases he'
  followed e he := by cases he
  missed e he := by cases he

/-- A walk ends at an entry that is no longer, or passes one in the queue that is no longer. -/
theorem Consistent.frontier (h : Consistent next nodes start goal done s) {walk : List α} {a : α}
    (hwalk : IsWalk (Edge next) start walk a) :
    (∃ e ∈ done ++ s.queue, e.1 = a ∧ e.2.length ≤ walk.length) ∨
      ∃ e ∈ s.queue, e.2.length ≤ walk.length := by
  induction hn : walk.length generalizing walk a with
  | zero =>
      rw [List.length_eq_zero_iff.mp hn] at hwalk
      cases hwalk.head
  | succ n ih =>
      rcases hwalk.cases with ⟨rfl, rfl⟩ | ⟨before, node, rfl, hbefore, hedge⟩
      · exact Or.inl ⟨_, h.started, rfl, by simp⟩
      · rcases ih hbefore (by simpa using hn) with ⟨e, he, rfl, hle⟩ | ⟨e, he, hle⟩
        · rcases List.mem_append.mp he with hdone | hqueue
          · obtain ⟨e', he', heq, hle'⟩ := h.followed e hdone a hedge
            exact Or.inl ⟨e', he', heq, by omega⟩
          · exact Or.inr ⟨e, hqueue, by omega⟩
        · exact Or.inr ⟨e, he, by omega⟩

theorem Consistent.length_done_le (h : Consistent next nodes start goal done s) :
    done.length ≤ nodes.length := by
  have hnodup : (done.map Prod.fst).Nodup := by
    have hdistinct := h.distinct
    rw [List.map_append] at hdistinct
    exact hdistinct.of_append_left
  have hsub : done.map Prod.fst ⊆ nodes := by
    intro a ha
    apply h.inside a
    rw [h.visited_iff, List.map_append]
    exact List.mem_append_left _ ha
  have hle := (hnodup.subperm hsub).length_le
  rwa [List.length_map] at hle

section Step

variable {current : α} {path : List α} {rest : List (α × List α)} {visited : List α}

/-- The entry at the front is at most one edge shorter than any other. -/
theorem Consistent.le_front
    (h : Consistent next nodes start goal done ⟨(current, path) :: rest, visited⟩) :
    (∀ e ∈ done ++ (current, path) :: rest, e.2.length ≤ path.length + 1) ∧
      ∀ e ∈ rest, path.length ≤ e.2.length := by
  obtain ⟨-, hqueue, hbetween⟩ := List.pairwise_append.mp h.ordered
  constructor
  · intro e he
    rcases List.mem_append.mp he with hdone | he
    · exact (hbetween e hdone _ List.mem_cons_self).trans (Nat.le_succ _)
    · rcases List.mem_cons.mp he with rfl | hrest
      · exact Nat.le_succ _
      · exact h.close _ _ rfl e hrest
  · exact (List.pairwise_cons.mp hqueue).1

theorem Consistent.step [DecidableEq α]
    (h : Consistent next nodes start goal done ⟨(current, path) :: rest, visited⟩)
    (hinside : ∀ b ∈ next current, b ∈ nodes) (hgoal : current ≠ goal) :
    Consistent next nodes start goal (done ++ [(current, path)])
      ((next current).foldl (discover path) ⟨rest, visited⟩) := by
  obtain ⟨hqueue, hvisited⟩ := foldl_discover path (next current) ⟨rest, visited⟩
  set s' := (next current).foldl (discover path) ⟨rest, visited⟩
  let new := (fresh visited (next current)).map fun a => (a, path ++ [a])
  have hentries : (done ++ [(current, path)]) ++ s'.queue =
      (done ++ (current, path) :: rest) ++ new := by
    rw [hqueue, List.append_assoc, List.append_assoc]
    rfl
  have hnew : ∀ e ∈ new, e.1 ∈ next current ∧ e.1 ∉ visited ∧ e.2 = path ++ [e.1] := by
    intro e he
    obtain ⟨a, ha, rfl⟩ := List.mem_map.mp he
    exact ⟨(mem_fresh.mp ha).1, (mem_fresh.mp ha).2, rfl⟩
  have hlength : ∀ e ∈ new, e.2.length = path.length + 1 := by
    intro e he
    rw [(hnew e he).2.2, List.length_append, List.length_singleton]
  have hkeys : new.map Prod.fst = fresh visited (next current) := by
    rw [List.map_map]
    exact List.map_id _
  have hfront : (current, path) ∈ done ++ (current, path) :: rest := by simp
  obtain ⟨hle, hge⟩ := h.le_front
  constructor
  · rw [hentries, List.map_append, hkeys]
    refine List.nodup_append.mpr ⟨h.distinct, nodup_fresh _ _, ?_⟩
    rintro a ha b hb rfl
    exact (mem_fresh.mp hb).2 ((h.visited_iff a).mpr ha)
  · intro a
    rw [hvisited, hentries, List.map_append, List.mem_append, hkeys]
    exact or_congr_left (h.visited_iff a)
  · intro a ha
    rcases (hvisited a).mp ha with hold | hfresh
    · exact h.inside a hold
    · exact hinside a (mem_fresh.mp hfresh).1
  · rw [hentries]
    exact List.mem_append_left _ h.started
  · rw [hentries]
    intro e he
    rcases List.mem_append.mp he with hold | he
    · exact h.walks e hold
    · obtain ⟨hnext, -, hpath⟩ := hnew e he
      rw [hpath]
      exact (h.walks _ hfront).concat hnext
  · rw [hentries]
    intro e he
    rcases List.mem_append.mp he with hold | he
    · obtain ⟨hnodup, hmem⟩ := h.simple e hold
      exact ⟨hnodup, fun a ha => (hvisited a).mpr (Or.inl (hmem a ha))⟩
    · obtain ⟨hnext, hnot, hpath⟩ := hnew e he
      obtain ⟨hnodup, hmem⟩ := h.simple _ hfront
      rw [hpath]
      constructor
      · refine List.nodup_append.mpr ⟨hnodup, List.nodup_singleton _, ?_⟩
        rintro a ha b hb rfl
        exact hnot (List.mem_singleton.mp hb ▸ hmem a ha)
      · intro a ha
        rw [hvisited]
        rcases List.mem_append.mp ha with hpath | hlast
        · exact Or.inl (hmem a hpath)
        · rw [List.mem_singleton.mp hlast]
          exact Or.inr (mem_fresh.mpr ⟨hnext, hnot⟩)
  · rw [hentries]
    refine List.pairwise_append.mpr ⟨h.ordered, ?_, ?_⟩
    · refine List.pairwise_of_forall_mem_list fun e he e' he' => ?_
      rw [hlength e he, hlength e' he']
    · intro e he e' he'
      rw [hlength e' he']
      exact hle e he
  · rw [hqueue]
    intro e others heq e' he'
    have hbounds : ∀ x ∈ rest ++ new, path.length ≤ x.2.length ∧ x.2.length ≤ path.length + 1 := by
      intro x hx
      rcases List.mem_append.mp hx with hrest | hx
      · exact ⟨hge x hrest, hle x (by simp [hrest])⟩
      · rw [hlength x hx]
        omega
    have hfirst := hbounds e (by rw [show rest ++ new = e :: others from heq]; exact List.mem_cons_self)
    have hother := hbounds e' (by
      rw [show rest ++ new = e :: others from heq]
      exact List.mem_cons_of_mem _ he')
    omega
  · rw [hentries]
    intro e he b hb
    rcases List.mem_append.mp he with hdone | he
    · obtain ⟨e', he', heq, hshort⟩ := h.followed e hdone b hb
      exact ⟨e', List.mem_append_left _ he', heq, hshort⟩
    · obtain rfl := List.mem_singleton.mp he
      by_cases hseen : b ∈ visited
      · obtain ⟨e', he', rfl⟩ := List.mem_map.mp ((h.visited_iff b).mp hseen)
        exact ⟨e', List.mem_append_left _ he', rfl, hle e' he'⟩
      · refine ⟨(b, path ++ [b]), List.mem_append_right _ ?_, rfl, by simp⟩
        exact List.mem_map_of_mem (mem_fresh.mpr ⟨hb, hseen⟩)
  · intro e he
    rcases List.mem_append.mp he with hdone | he
    · exact h.missed e hdone
    · rw [List.mem_singleton.mp he]
      exact hgoal

/-- The path of the goal at the front is a shortest one. -/
theorem Consistent.shortest
    (h : Consistent next nodes start goal done ⟨(goal, path) :: rest, visited⟩) :
    IsShortest (Edge next) start path goal := by
  have hfront : (goal, path) ∈ done ++ (goal, path) :: rest := by simp
  refine ⟨h.walks _ hfront, (h.simple _ hfront).1, fun other hother => ?_⟩
  rcases h.frontier hother with ⟨e, he, heq, hle⟩ | ⟨e, he, hle⟩
  · have hsame : e = (goal, path) := List.inj_on_of_nodup_map h.distinct he hfront heq
    rwa [hsame] at hle
  · rcases List.mem_cons.mp he with rfl | hrest
    · exact hle
    · exact (h.le_front.2 e hrest).trans hle

end Step

/-- With an empty queue, no walk leads to the goal. -/
theorem Consistent.unreachable {visited : List α}
    (h : Consistent next nodes start goal done ⟨[], visited⟩) :
    ¬ Relation.ReflTransGen (Edge next) start goal := by
  intro hreach
  obtain ⟨walk, hwalk⟩ := exists_isWalk hreach
  rcases h.frontier hwalk with ⟨e, he, heq, -⟩ | ⟨e, he, -⟩
  · rcases List.mem_append.mp he with hdone | he
    · exact h.missed e hdone heq
    · cases he
  · cases he

theorem search_spec [DecidableEq α] (hinside : ∀ a ∈ nodes, ∀ b ∈ next a, b ∈ nodes) (fuel : ℕ)
    (h : Consistent next nodes start goal done s) (hfuel : nodes.length < done.length + fuel) :
    (search next goal fuel s = [] ∧ ¬ Relation.ReflTransGen (Edge next) start goal) ∨
      IsShortest (Edge next) start (search next goal fuel s) goal := by
  induction fuel generalizing done s with
  | zero =>
      have hle := h.length_done_le
      omega
  | succ fuel ih =>
      obtain ⟨queue, visited⟩ := s
      cases queue with
      | nil => exact Or.inl ⟨rfl, h.unreachable⟩
      | cons e rest =>
          obtain ⟨current, path⟩ := e
          rw [search]
          dsimp only
          by_cases hgoal : current = goal
          · subst hgoal
            rw [if_pos rfl]
            exact Or.inr h.shortest
          · rw [if_neg hgoal]
            have hcurrent : current ∈ nodes := by
              apply h.inside current
              rw [h.visited_iff]
              simp
            apply ih (h.step (hinside current hcurrent) hgoal)
            rw [List.length_append, List.length_singleton]
            omega

/-- The search finds a shortest walk to the goal when there is a walk, and else nothing. -/
theorem search_from [DecidableEq α] (hinside : ∀ a ∈ nodes, ∀ b ∈ next a, b ∈ nodes)
    (hstart : start ∈ nodes) :
    (search next goal (nodes.length + 1) (Search.single start) = [] ∧
        ¬ Relation.ReflTransGen (Edge next) start goal) ∨
      IsShortest (Edge next) start (search next goal (nodes.length + 1) (Search.single start)) goal :=
  search_spec hinside _ (consistent_from hstart) (by simp)

end Invariant

end BreadthFirst

end Base
