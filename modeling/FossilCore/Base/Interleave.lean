import Mathlib.Logic.Function.Basic
import FossilCore.Base.Program

/-!
# Interleaved programs

Any number of clients, each running a program against one state, whose requests are answered
one at a time in an order that a schedule picks.  The history of a run lists the exchanges.
Its projection to one client is a trace of that client's program, and its answers are those
of the state transformer; facts about an interleaving follow from these two.
-/

namespace Base

namespace Program

variable {R : Type} {A : R → Type} {ε α β σ : Type}

/-- A request and its answer. -/
abbrev Exchange (A : R → Type) := (r : R) × A r

/-- Given the answers of the trace, the program asks its requests and ends with the result. -/
inductive Traced : Program R A ε α → List (Exchange A) → Except ε α → Prop
  | done (x : Except ε α) : Traced (.done x) [] x
  | request {r : R} {next : A r → Program R A ε α} {a : A r} {trace : List (Exchange A)}
      {x : Except ε α} (h : Traced (next a) trace x) :
      Traced (.request r next) (⟨r, a⟩ :: trace) x

theorem traced_done {x y : Except ε α} {trace : List (Exchange A)} :
    (Program.done x : Program R A ε α).Traced trace y ↔ trace = [] ∧ y = x := by
  constructor
  · rintro ⟨⟩
    exact ⟨rfl, rfl⟩
  · rintro ⟨rfl, rfl⟩
    exact .done _

theorem traced_request {r : R} {next : A r → Program R A ε α} {trace : List (Exchange A)}
    {x : Except ε α} : (Program.request r next).Traced trace x ↔
      ∃ a rest, trace = ⟨r, a⟩ :: rest ∧ (next a).Traced rest x := by
  constructor
  · rintro (_ | h)
    exact ⟨_, _, rfl, h⟩
  · rintro ⟨a, rest, rfl, h⟩
    exact .request h

theorem traced_follow {p : Program R A ε α} {k : Except ε α → Program R A ε β}
    {trace : List (Exchange A)} {y : Except ε β} (h : (p.follow k).Traced trace y) :
    ∃ x before after, trace = before ++ after ∧ p.Traced before x ∧ (k x).Traced after y := by
  induction p generalizing trace with
  | done x => exact ⟨x, [], trace, rfl, .done x, h⟩
  | request r next ih =>
      obtain ⟨a, rest, rfl, hrest⟩ := traced_request.mp h
      obtain ⟨x, before, after, rfl, hbefore, hafter⟩ := ih a hrest
      exact ⟨x, ⟨r, a⟩ :: before, after, rfl, .request hbefore, hafter⟩

/-- The trace of a sequence is that of its first part, with that of the rest behind it when the
first part ended with a value. -/
theorem traced_bind {p : Program R A ε α} {f : α → Program R A ε β} {trace : List (Exchange A)}
    {y : Except ε β} (h : (p >>= f).Traced trace y) :
    (∃ a before after, trace = before ++ after ∧ p.Traced before (.ok a) ∧
      (f a).Traced after y) ∨
    ∃ e, y = .error e ∧ p.Traced trace (.error e) := by
  obtain ⟨x, before, after, rfl, hp, hrest⟩ := traced_follow h
  cases x with
  | ok a => exact Or.inl ⟨a, before, after, rfl, hp, hrest⟩
  | error e =>
      obtain ⟨rfl, rfl⟩ := traced_done.mp hrest
      rw [List.append_nil]
      exact Or.inr ⟨e, rfl, hp⟩

theorem traced_catching {p : Program R A ε α} {clause : ε → Program R A ε α}
    {trace : List (Exchange A)} {y : Except ε α} (h : (p.catching clause).Traced trace y) :
    (∃ a, y = .ok a ∧ p.Traced trace (.ok a)) ∨
    ∃ e before after, trace = before ++ after ∧ p.Traced before (.error e) ∧
      (clause e).Traced after y := by
  obtain ⟨x, before, after, rfl, hp, hrest⟩ := traced_follow h
  cases x with
  | ok a =>
      obtain ⟨rfl, rfl⟩ := traced_done.mp hrest
      rw [List.append_nil]
      exact Or.inl ⟨a, rfl, hp⟩
  | error e => exact Or.inr ⟨e, before, after, rfl, hp, hrest⟩

theorem Quiet.traced {reads : R → Bool} {p : Program R A ε α} (h : p.Quiet reads)
    {trace : List (Exchange A)} {x : Except ε α} (htrace : p.Traced trace x) :
    ∀ e ∈ trace, reads e.1 = true := by
  induction htrace with
  | done x => simp
  | request _ ih =>
      intro e he
      rcases List.mem_cons.mp he with rfl | he
      · exact h.1
      · exact ih (h.2 _) e he

/-! ## Histories -/

section History

variable {ι : Type} (handler : (r : R) → σ → A r × σ)

/-- Every answer of the history is the transformer's, from the first state to the last. -/
def Answered (s : σ) : List (ι × Exchange A) → σ → Prop
  | [], s' => s' = s
  | turn :: rest, s' =>
      turn.2.2 = (handler turn.2.1 s).1 ∧ Answered (handler turn.2.1 s).2 rest s'

/-- The exchanges of one client. -/
def exchangesOf [DecidableEq ι] (i : ι) (history : List (ι × Exchange A)) : List (Exchange A) :=
  (history.filter fun turn => turn.1 = i).map Prod.snd

variable {handler}

theorem answered_append {xs ys : List (ι × Exchange A)} {s s' : σ} :
    Answered handler s (xs ++ ys) s' ↔
      ∃ m, Answered handler s xs m ∧ Answered handler m ys s' := by
  induction xs generalizing s with
  | nil =>
      constructor
      · intro h
        exact ⟨s, rfl, h⟩
      · rintro ⟨m, rfl, h⟩
        exact h
  | cons turn xs ih =>
      constructor
      · rintro ⟨hanswer, hrest⟩
        obtain ⟨m, hxs, hys⟩ := ih.mp hrest
        exact ⟨m, ⟨hanswer, hxs⟩, hys⟩
      · rintro ⟨m, ⟨hanswer, hxs⟩, hys⟩
        exact ⟨hanswer, ih.mpr ⟨m, hxs, hys⟩⟩

/-- What every answered request preserves holds at the end. -/
theorem Answered.invariant {P : σ → Prop} {history : List (ι × Exchange A)} {s s' : σ}
    (h : Answered handler s history s') (hs : P s)
    (hstep : ∀ turn ∈ history, ∀ m, P m → P (handler turn.2.1 m).2) : P s' := by
  induction history generalizing s with
  | nil =>
      obtain rfl := h
      exact hs
  | cons turn history ih =>
      apply ih h.2 (hstep turn List.mem_cons_self s hs)
      intro later hlater
      exact hstep later (List.mem_cons_of_mem turn hlater)

theorem mem_exchangesOf [DecidableEq ι] {i : ι} {e : Exchange A}
    {history : List (ι × Exchange A)} : e ∈ exchangesOf i history ↔ (i, e) ∈ history := by
  simp [exchangesOf]

end History

/-! ## Schedules -/

section Interleave

variable {ι : Type} [DecidableEq ι] (handler : (r : R) → σ → A r × σ)

structure Interleaving (ι : Type) (A : R → Type) (ε α σ : Type) where
  history : List (ι × Exchange A)
  pool : ι → Program R A ε α
  state : σ

/-- Each entry of the schedule lets a client issue its next request; a client whose program has
ended takes no turn. -/
def interleave : List ι → (ι → Program R A ε α) → σ → Interleaving ι A ε α σ
  | [], pool, s => ⟨[], pool, s⟩
  | i :: schedule, pool, s =>
      match pool i with
      | .done _ => interleave schedule pool s
      | .request r next =>
          let answered := handler r s
          let rest := interleave schedule (Function.update pool i (next answered.1)) answered.2
          { rest with history := (i, ⟨r, answered.1⟩) :: rest.history }

variable {handler}

theorem answered_interleave (schedule : List ι) (pool : ι → Program R A ε α) (s : σ) :
    Answered handler s (interleave handler schedule pool s).history
      (interleave handler schedule pool s).state := by
  induction schedule generalizing pool s with
  | nil => rfl
  | cons i schedule ih =>
      rw [interleave]
      split
      · exact ih pool s
      · exact ⟨rfl, ih _ _⟩

/-- What a client that returned has exchanged is a trace of its program. -/
theorem traced_interleave {schedule : List ι} {pool : ι → Program R A ε α} {s : σ} {i : ι}
    {x : Except ε α} (h : (interleave handler schedule pool s).pool i = .done x) :
    (pool i).Traced (exchangesOf i (interleave handler schedule pool s).history) x := by
  induction schedule generalizing pool s with
  | nil =>
      have hdone : pool i = .done x := h
      rw [hdone]
      exact .done x
  | cons j schedule ih =>
      rw [interleave] at h ⊢
      split at h
      · exact ih h
      · rename_i r next hrequest
        have htrace := ih h
        by_cases hij : j = i
        · subst hij
          rw [Function.update_self] at htrace
          rw [hrequest]
          simp only [exchangesOf, List.filter_cons, decide_true, if_true, List.map_cons]
          exact .request htrace
        · rw [Function.update_of_ne (Ne.symm hij)] at htrace
          simpa only [exchangesOf, List.filter_cons, hij, decide_false, Bool.false_eq_true,
            if_false] using htrace

/-- The requests of a history in which every client has returned are those of the clients'
traces. -/
theorem exists_traced {schedule : List ι} {pool : ι → Program R A ε α} {s : σ}
    (hreturned : ∀ i, ∃ x, (interleave handler schedule pool s).pool i = .done x)
    {turn : ι × Exchange A} (hturn : turn ∈ (interleave handler schedule pool s).history) :
    ∃ trace x, (pool turn.1).Traced trace x ∧ turn.2 ∈ trace ∧
      ∀ e ∈ trace, (turn.1, e) ∈ (interleave handler schedule pool s).history := by
  obtain ⟨x, hx⟩ := hreturned turn.1
  exact ⟨_, x, traced_interleave hx, mem_exchangesOf.mpr hturn, fun e he => mem_exchangesOf.mp he⟩

/-- Let a client finish one part of its program, and the others take their turns after that. -/
theorem interleave_part {p : Program R A ε β} {k : Except ε β → Program R A ε α}
    {pool : ι → Program R A ε α} {i : ι} {s s' : σ} {x : Except ε β}
    (hpool : pool i = p.follow k) (hrun : p.run handler s = (x, s')) :
    ∃ turns history, ∀ rest, interleave handler (turns ++ rest) pool s =
      let later := interleave handler rest (Function.update pool i (k x)) s'
      { later with history := history ++ later.history } := by
  induction p generalizing pool s with
  | done y =>
      cases hrun
      refine ⟨[], [], fun rest => ?_⟩
      have hsame : Function.update pool i (k x) = pool := by
        rw [Function.update_eq_self_iff]
        exact hpool.symm
      rw [hsame]
      rfl
  | request r next ih =>
      have hnext : Function.update pool i ((next (handler r s).1).follow k) i =
          (next (handler r s).1).follow k := Function.update_self ..
      obtain ⟨turns, history, hrest⟩ := ih (handler r s).1 hnext hrun
      refine ⟨i :: turns, (i, ⟨r, (handler r s).1⟩) :: history, fun rest => ?_⟩
      rw [List.cons_append, interleave, hpool]
      simp only [follow_request, hrest, Function.update_idem]
      rfl

theorem follow_done_self (p : Program R A ε α) : p.follow .done = p := by
  induction p with
  | done x => rfl
  | request r next ih => exact congrArg (request r) (funext ih)

theorem follow_follow {γ : Type} (p : Program R A ε α) (k : Except ε α → Program R A ε β)
    (l : Except ε β → Program R A ε γ) :
    (p.follow k).follow l = p.follow fun x => (k x).follow l := by
  induction p with
  | done x => rfl
  | request r next ih => exact congrArg (request r) (funext ih)

theorem interleave_whole {pool : ι → Program R A ε α} {i : ι} {s s' : σ} {x : Except ε α}
    (hrun : (pool i).run handler s = (x, s')) :
    ∃ turns history, ∀ rest, interleave handler (turns ++ rest) pool s =
      let later := interleave handler rest (Function.update pool i (.done x)) s'
      { later with history := history ++ later.history } :=
  interleave_part (follow_done_self (pool i)).symm hrun

/-- Two clients, one after the other. -/
theorem exists_sequential {pool : Bool → Program R A ε α} {s m s' : σ} {x y : Except ε α}
    (hfirst : (pool false).run handler s = (x, m)) (hsecond : (pool true).run handler m = (y, s')) :
    ∃ schedule, (interleave handler schedule pool s).pool =
      fun i => .done (if i then y else x) := by
  obtain ⟨turns, history, hrest⟩ := interleave_whole hfirst
  have hother : Function.update pool false (.done x) true = pool true :=
    Function.update_of_ne (by decide) ..
  rw [← hother] at hsecond
  obtain ⟨turns', history', hrest'⟩ := interleave_whole hsecond
  refine ⟨turns ++ (turns' ++ []), ?_⟩
  rw [hrest, hrest']
  funext i
  cases i with
  | false =>
      show Function.update (Function.update pool false (.done x)) true (.done y) false = _
      rw [Function.update_of_ne (by decide), Function.update_self]
      rfl
  | true =>
      show Function.update (Function.update pool false (.done x)) true (.done y) true = _
      rw [Function.update_self]
      rfl

end Interleave

end Program

end Base
