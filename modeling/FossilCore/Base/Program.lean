import Mathlib.Data.List.Basic

/-!
# Programs that issue requests

A program either ends, with a value or by raising, or issues a request and goes on with the
answer.  `run` answers the requests by a state transformer.  `exec` does the same under a
script that can stop the process before a request or have the request refused; `Always` is
the weakest precondition for all scripts.
-/

namespace Base

inductive Program (R : Type) (A : R → Type) (ε α : Type) where
  | done (result : Except ε α)
  | request (r : R) (next : A r → Program R A ε α)

namespace Program

variable {R : Type} {A : R → Type} {ε α β σ : Type}

/-- Go on with the result of a program, whether a value or an exception. -/
def follow : Program R A ε α → (Except ε α → Program R A ε β) → Program R A ε β
  | .done x, k => k x
  | .request r next, k => .request r fun a => (next a).follow k

def bind (p : Program R A ε α) (f : α → Program R A ε β) : Program R A ε β :=
  p.follow fun
    | .ok a => f a
    | .error e => .done (.error e)

instance : Monad (Program R A ε) where
  pure a := .done (.ok a)
  bind := bind

def raise (e : ε) : Program R A ε α := .done (.error e)

/-- `try: p` with `except` clauses; a clause that does not match raises again. -/
def catching (p : Program R A ε α) (clause : ε → Program R A ε α) : Program R A ε α :=
  p.follow fun
    | .ok a => .done (.ok a)
    | .error e => clause e

/-- `try: p` with a `finally` clause; an exception of the clause replaces the result. -/
def ensuring (p : Program R A ε α) (clause : Program R A ε Unit) : Program R A ε α :=
  p.follow fun x => clause.follow fun
    | .ok _ => .done x
    | .error e => .done (.error e)

/-- The results for each of a list in turn. -/
def forEach (f : β → Program R A ε α) : List β → Program R A ε (List α)
  | [] => .done (.ok [])
  | x :: xs => do
      let a ← f x
      let as ← forEach f xs
      return a :: as

def call (r : R) : Program R A ε (A r) := .request r fun a => .done (.ok a)

@[simp] theorem follow_done (x : Except ε α) (k : Except ε α → Program R A ε β) :
    (Program.done x : Program R A ε α).follow k = k x := rfl

@[simp] theorem follow_request (r : R) (next : A r → Program R A ε α)
    (k : Except ε α → Program R A ε β) :
    (Program.request r next).follow k = .request r fun a => (next a).follow k := rfl

@[simp] theorem bind_done_ok (a : α) (f : α → Program R A ε β) :
    (Program.done (.ok a) : Program R A ε α) >>= f = f a := rfl

@[simp] theorem bind_done_error (e : ε) (f : α → Program R A ε β) :
    (Program.done (.error e) : Program R A ε α) >>= f = .done (.error e) := rfl

@[simp] theorem bind_request (r : R) (next : A r → Program R A ε α)
    (f : α → Program R A ε β) :
    (Program.request r next) >>= f = .request r fun a => next a >>= f := rfl

@[simp] theorem pure_eq_done (a : α) : (pure a : Program R A ε α) = .done (.ok a) := rfl

@[simp] theorem raise_eq_done (e : ε) : (raise e : Program R A ε α) = .done (.error e) := rfl

@[simp] theorem call_bind (r : R) (f : A r → Program R A ε β) :
    (call r : Program R A ε (A r)) >>= f = .request r f := rfl

/-! ## Runs without faults -/

section Run

variable (handler : (r : R) → σ → A r × σ)

def run : Program R A ε α → σ → Except ε α × σ
  | .done x, s => (x, s)
  | .request r next, s => (next (handler r s).1).run (handler r s).2

@[simp] theorem run_done (x : Except ε α) (s : σ) :
    (Program.done x : Program R A ε α).run handler s = (x, s) := rfl

@[simp] theorem run_request (r : R) (next : A r → Program R A ε α) (s : σ) :
    (Program.request r next).run handler s =
      (next (handler r s).1).run handler (handler r s).2 := rfl

theorem run_follow (p : Program R A ε α) (k : Except ε α → Program R A ε β) (s : σ) :
    (p.follow k).run handler s = (k (p.run handler s).1).run handler (p.run handler s).2 := by
  induction p generalizing s with
  | done x => rfl
  | request r next ih => exact ih _ _

theorem run_bind_ok {p : Program R A ε α} {f : α → Program R A ε β} {s s' : σ} {a : α}
    (h : p.run handler s = (.ok a, s')) : (p >>= f).run handler s = (f a).run handler s' := by
  show (p.bind f).run handler s = _
  rw [bind, run_follow, h]

theorem run_bind_error {p : Program R A ε α} {f : α → Program R A ε β} {s s' : σ} {e : ε}
    (h : p.run handler s = (.error e, s')) : (p >>= f).run handler s = (.error e, s') := by
  show (p.bind f).run handler s = _
  rw [bind, run_follow, h]
  rfl

theorem run_bind_eq_ok {p : Program R A ε α} {f : α → Program R A ε β} {s s' : σ} {b : β} :
    (p >>= f).run handler s = (.ok b, s') ↔
      ∃ a s₁, p.run handler s = (.ok a, s₁) ∧ (f a).run handler s₁ = (.ok b, s') := by
  constructor
  · intro h
    cases hp : p.run handler s with
    | mk x s₁ =>
        cases x with
        | error e =>
            rw [run_bind_error _ hp] at h
            cases h
        | ok a =>
            rw [run_bind_ok _ hp] at h
            exact ⟨a, s₁, rfl, h⟩
  · rintro ⟨a, s₁, hp, hf⟩
    rw [run_bind_ok _ hp, hf]

theorem run_bind_pure (p : Program R A ε α) (f : α → β) (s : σ) :
    (p >>= fun a => pure (f a)).run handler s =
      ((p.run handler s).1.map f, (p.run handler s).2) := by
  cases h : p.run handler s with
  | mk x s' =>
      cases x with
      | ok a => exact run_bind_ok handler h
      | error e => exact run_bind_error handler h

theorem run_catching_ok {p : Program R A ε α} {clause : ε → Program R A ε α} {s s' : σ} {a : α}
    (h : p.run handler s = (.ok a, s')) :
    (p.catching clause).run handler s = (.ok a, s') := by
  rw [catching, run_follow, h]
  rfl

theorem run_catching_error {p : Program R A ε α} {clause : ε → Program R A ε α} {s s' : σ}
    {e : ε} (h : p.run handler s = (.error e, s')) :
    (p.catching clause).run handler s = (clause e).run handler s' := by
  rw [catching, run_follow, h]

theorem run_ensuring {p : Program R A ε α} {clause : Program R A ε Unit} {s s' s'' : σ}
    {x : Except ε α} (h : p.run handler s = (x, s'))
    (hclause : clause.run handler s' = (.ok (), s'')) :
    (p.ensuring clause).run handler s = (x, s'') := by
  rw [ensuring, run_follow, h, run_follow, hclause]
  rfl

theorem run_forEach {ι : Type} {f : β → Program R A ε α} {xs : List ι} {key : ι → β}
    {value : ι → Option α} {s : σ}
    (h : ∀ i ∈ xs, ∃ a, value i = some a ∧ (f (key i)).run handler s = (.ok a, s)) :
    (forEach f (xs.map key)).run handler s = (.ok (xs.filterMap value), s) := by
  induction xs with
  | nil => rfl
  | cons i xs ih =>
      obtain ⟨a, hvalue, hrun⟩ := h i List.mem_cons_self
      have hrest := ih fun j hj => h j (List.mem_cons_of_mem i hj)
      rw [List.map_cons, forEach, run_bind_ok _ hrun, run_bind_ok _ hrest,
        List.filterMap_cons_some hvalue]
      rfl

end Run

/-! ## Runs in which the process may stop and requests may be refused -/

inductive Decision where
  | go
  | refuse
  | stop
  deriving DecidableEq, Repr

section Exec

variable (handler : (r : R) → σ → A r × σ) (refused : (r : R) → Option (A r))

/-- One decision of the script is used for each request; after its end all requests go
through.  A request that `refused` gives no answer for cannot be refused.  The first component
is `none` when the process stopped. -/
def exec : Program R A ε α → List Decision → σ → Option (Except ε α) × List Decision × σ
  | .done x, script, s => (some x, script, s)
  | .request r next, [], s => (next (handler r s).1).exec [] (handler r s).2
  | .request r next, .go :: script, s => (next (handler r s).1).exec script (handler r s).2
  | .request _ _, .stop :: script, s => (none, script, s)
  | .request r next, .refuse :: script, s =>
      match refused r with
      | some a => (next a).exec script s
      | none => (next (handler r s).1).exec script (handler r s).2

/-- Does the script stop the program at a request of the kind, or have one refused? -/
def cutAt (kind : R → Bool) : Program R A ε α → List Decision → σ → Bool
  | .done _, _, _ => false
  | .request _ _, [], _ => false
  | .request r next, .go :: script, s =>
      (next (handler r s).1).cutAt kind script (handler r s).2
  | .request r _, .stop :: _, _ => kind r
  | .request r next, .refuse :: script, s =>
      match refused r with
      | some a => kind r || (next a).cutAt kind script s
      | none => (next (handler r s).1).cutAt kind script (handler r s).2

theorem exec_nil (p : Program R A ε α) (s : σ) :
    p.exec handler refused [] s = (some (p.run handler s).1, [], (p.run handler s).2) := by
  induction p generalizing s with
  | done x => rfl
  | request r next ih => exact ih _ _

theorem cutAt_nil (kind : R → Bool) (p : Program R A ε α) (s : σ) :
    p.cutAt handler refused kind [] s = false := by
  cases p <;> rfl

/-- No script cuts a program at a request of a kind that has none. -/
theorem cutAt_none {kind : R → Bool} (h : ∀ r, kind r = false) (p : Program R A ε α)
    (script : List Decision) (s : σ) : p.cutAt handler refused kind script s = false := by
  induction p generalizing script s with
  | done x => rfl
  | request r next ih =>
      cases script with
      | nil => rfl
      | cons d script =>
          cases d with
          | go => exact ih _ _ _
          | stop => exact h r
          | refuse =>
              cases ha : refused r with
              | none => simpa only [cutAt, ha] using ih _ _ _
              | some a => simp only [cutAt, ha, h r, ih, Bool.or_false]

theorem exec_follow (p : Program R A ε α) (k : Except ε α → Program R A ε β)
    (script : List Decision) (s : σ) :
    (p.follow k).exec handler refused script s =
      match p.exec handler refused script s with
      | (some x, script, s) => (k x).exec handler refused script s
      | (none, script, s) => (none, script, s) := by
  induction p generalizing script s with
  | done x => rfl
  | request r next ih =>
      cases script with
      | nil => exact ih _ _ _
      | cons d script =>
          cases d with
          | go => exact ih _ _ _
          | stop => rfl
          | refuse =>
              simp only [follow_request, exec]
              cases refused r with
              | none => exact ih _ _ _
              | some a => exact ih _ _ _

/-- Every request the program can issue only reads. -/
def Quiet (reads : R → Bool) : Program R A ε α → Prop
  | .done _ => True
  | .request r next => reads r = true ∧ ∀ a, (next a).Quiet reads

theorem Quiet.follow {reads : R → Bool} {p : Program R A ε α}
    {k : Except ε α → Program R A ε β} (h : p.Quiet reads) (hk : ∀ x, (k x).Quiet reads) :
    (p.follow k).Quiet reads := by
  induction p with
  | done x => exact hk x
  | request r next ih => exact ⟨h.1, fun a => ih a (h.2 a)⟩

theorem Quiet.bind {reads : R → Bool} {p : Program R A ε α} {f : α → Program R A ε β}
    (h : p.Quiet reads) (hf : ∀ a, (f a).Quiet reads) : (p >>= f).Quiet reads := by
  apply h.follow
  intro x
  cases x with
  | ok a => exact hf a
  | error e => trivial

theorem Quiet.forEach {reads : R → Bool} {f : β → Program R A ε α} (h : ∀ b, (f b).Quiet reads)
    (xs : List β) : (forEach f xs).Quiet reads := by
  induction xs with
  | nil => trivial
  | cons x xs ih =>
      apply (h x).bind
      intro a
      apply ih.bind
      intro as
      trivial

/-- What no request of the program changes is as it was after the run. -/
theorem Quiet.run_eq {τ : Type} {reads : R → Bool} {p : Program R A ε α} (h : p.Quiet reads)
    {g : σ → τ} (hreads : ∀ r s, reads r = true → g (handler r s).2 = g s) (s : σ) :
    g (p.run handler s).2 = g s := by
  induction p generalizing s with
  | done x => rfl
  | request r next ih => rw [run_request, ih _ (h.2 _), hreads r s h.1]

/-- A program whose requests all only read leaves the state as it was. -/
theorem Quiet.run_state {reads : R → Bool} {p : Program R A ε α} (h : p.Quiet reads)
    (hreads : ∀ r s, reads r = true → (handler r s).2 = s) (s : σ) :
    (p.run handler s).2 = s :=
  h.run_eq handler (g := id) hreads s

/-- The weakest precondition of a postcondition on the outcome and the state, over all scripts
that neither stop the process at a request of the kind nor have one refused. -/
def Always (kind : R → Bool) (post : Option (Except ε α) → σ → Prop) :
    Program R A ε α → σ → Prop
  | .done x, s => post (some x) s
  | .request r next, s =>
      (next (handler r s).1).Always kind post (handler r s).2 ∧
        (kind r = false →
          post none s ∧ ∀ a, refused r = some a → (next a).Always kind post s)

variable {handler refused}

theorem exec_bind_ok {p : Program R A ε α} {f : α → Program R A ε β}
    {script script' : List Decision} {s s' : σ} {a : α}
    (h : p.exec handler refused script s = (some (.ok a), script', s')) :
    (p >>= f).exec handler refused script s = (f a).exec handler refused script' s' := by
  show (p.follow _).exec handler refused script s = _
  rw [exec_follow, h]

theorem exec_catching_ok {p : Program R A ε α} {clause : ε → Program R A ε α}
    {script script' : List Decision} {s s' : σ} {a : α}
    (h : p.exec handler refused script s = (some (.ok a), script', s')) :
    (p.catching clause).exec handler refused script s = (some (.ok a), script', s') := by
  rw [catching, exec_follow, h]
  rfl

theorem exec_bind_none {p : Program R A ε α} {f : α → Program R A ε β}
    {script script' : List Decision} {s s' : σ}
    (h : p.exec handler refused script s = (none, script', s')) :
    (p >>= f).exec handler refused script s = (none, script', s') := by
  show (p.follow _).exec handler refused script s = _
  rw [exec_follow, h]

theorem Always.exec {kind : R → Bool} {post : Option (Except ε α) → σ → Prop}
    {p : Program R A ε α} {script : List Decision} {s : σ}
    (h : p.Always handler refused kind post s)
    (hcut : p.cutAt handler refused kind script s = false) :
    post (p.exec handler refused script s).1 (p.exec handler refused script s).2.2 := by
  induction p generalizing script s with
  | done x => exact h
  | request r next ih =>
      cases script with
      | nil =>
          exact ih _ h.1 (cutAt_nil handler refused kind _ _)
      | cons d script =>
          cases d with
          | go => exact ih _ h.1 hcut
          | stop => exact (h.2 hcut).1
          | refuse =>
              cases ha : refused r with
              | none =>
                  simp only [Program.cutAt, ha] at hcut
                  simpa only [Program.exec, ha] using ih _ h.1 hcut
              | some a =>
                  simp only [Program.cutAt, ha, Bool.or_eq_false_iff] at hcut
                  simpa only [Program.exec, ha] using ih _ ((h.2 hcut.1).2 a ha) hcut.2

theorem Always.mono {kind : R → Bool} {post post' : Option (Except ε α) → σ → Prop}
    {p : Program R A ε α} {s : σ} (h : p.Always handler refused kind post s)
    (himp : ∀ o s, post o s → post' o s) : p.Always handler refused kind post' s := by
  induction p generalizing s with
  | done x => exact himp _ _ h
  | request r next ih =>
      exact ⟨ih _ h.1, fun hk =>
        ⟨himp _ _ (h.2 hk).1, fun a ha => ih _ ((h.2 hk).2 a ha)⟩⟩

theorem Always.follow {kind : R → Bool} {post : Option (Except ε β) → σ → Prop}
    {p : Program R A ε α} {k : Except ε α → Program R A ε β} {s : σ}
    (h : p.Always handler refused kind
      (fun o s => match o with
        | some x => (k x).Always handler refused kind post s
        | none => post none s) s) :
    (p.follow k).Always handler refused kind post s := by
  induction p generalizing s with
  | done x => exact h
  | request r next ih =>
      exact ⟨ih _ h.1, fun hk => ⟨(h.2 hk).1, fun a ha => ih _ ((h.2 hk).2 a ha)⟩⟩

theorem Always.bind {kind : R → Bool} {post : Option (Except ε β) → σ → Prop}
    {p : Program R A ε α} {f : α → Program R A ε β} {s : σ}
    (h : p.Always handler refused kind
      (fun o s => match o with
        | some (.ok a) => (f a).Always handler refused kind post s
        | some (.error e) => post (some (.error e)) s
        | none => post none s) s) :
    (p >>= f).Always handler refused kind post s := by
  refine Always.follow (h.mono ?_)
  intro o s ho
  cases o with
  | none => exact ho
  | some x =>
      cases x with
      | ok a => exact ho
      | error e => exact ho

theorem Always.map {kind : R → Bool} {post : Option (Except ε β) → σ → Prop}
    {p : Program R A ε α} {s : σ} (f : α → β)
    (h : p.Always handler refused kind (fun o s => post (o.map (Except.map f)) s) s) :
    (p >>= fun a => pure (f a)).Always handler refused kind post s := by
  refine Always.bind (h.mono ?_)
  intro o s ho
  match o with
  | none => exact ho
  | some (.ok a) => exact ho
  | some (.error e) => exact ho

theorem Always.catching {kind : R → Bool} {post : Option (Except ε α) → σ → Prop}
    {p : Program R A ε α} {clause : ε → Program R A ε α} {s : σ}
    (h : p.Always handler refused kind
      (fun o s => match o with
        | some (.ok a) => post (some (.ok a)) s
        | some (.error e) => (clause e).Always handler refused kind post s
        | none => post none s) s) :
    (p.catching clause).Always handler refused kind post s := by
  refine Always.follow (h.mono ?_)
  intro o s ho
  cases o with
  | none => exact ho
  | some x =>
      cases x with
      | ok a => exact ho
      | error e => exact ho

theorem Always.ensuring {kind : R → Bool} {post : Option (Except ε α) → σ → Prop}
    {p : Program R A ε α} {clause : Program R A ε Unit} {s : σ}
    (h : p.Always handler refused kind
      (fun o s => match o with
        | some x => clause.Always handler refused kind
            (fun c s => match c with
              | some (.ok _) => post (some x) s
              | some (.error e) => post (some (.error e)) s
              | none => post none s) s
        | none => post none s) s) :
    (p.ensuring clause).Always handler refused kind post s := by
  refine Always.follow (h.mono ?_)
  intro o s ho
  cases o with
  | none => exact ho
  | some x =>
      refine Always.follow (Always.mono ho ?_)
      intro c s hc
      cases c with
      | none => exact hc
      | some y =>
          cases y with
          | ok u => exact hc
          | error e => exact hc

/-- What holds before a program whose requests all only read holds after it, cut or not. -/
theorem Quiet.always {reads : R → Bool} {p : Program R A ε α} (h : p.Quiet reads)
    (hreads : ∀ r s, reads r = true → (handler r s).2 = s) {kind : R → Bool}
    {post : Option (Except ε α) → σ → Prop} {s : σ} (hpost : ∀ o, post o s) :
    p.Always handler refused kind post s := by
  induction p with
  | done x => exact hpost (some x)
  | request r next ih =>
      refine ⟨?_, fun _ => ⟨hpost none, fun a _ => ih a (h.2 a)⟩⟩
      rw [hreads r s h.1]
      exact ih _ (h.2 _)

/-- One call of a program family, under a script. -/
structure Attempt (ι : Type) where
  call : ι
  script : List Decision

variable (handler refused) in
def attempt {ι : Type} (program : ι → Program R A ε α) (s : σ) (a : Attempt ι) :
    Option (Except ε α) × σ :=
  let result := (program a.call).exec handler refused a.script s
  (result.1, result.2.2)

end Exec

end Program

end Base
