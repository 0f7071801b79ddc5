import FossilCore.TrustedLocal.ReleaseGate

/-!
# Rolling a release back

What `apply_release` leaves behind over all answers of the host.  A release is reported as applied
only after the container was read with the candidate's image, its revision and a healthy status,
and one that is current already changes nothing.  Where it raises after it stopped or removed the
container, the previous image is run again exactly when the container could be inspected and
stopped and no other failure than a refused command occurred.
-/

namespace FossilCore

namespace Supervisor

open Base Base.Program

section

variable {α β : Type} {config : SupervisorConfig} {release : Release} {t : List HostExchange}
  {sha image candidate : String}

/-! ## Fatal failures -/

/-- A command failed otherwise than by being refused. -/
def IsFatal (exchange : HostExchange) : Prop :=
  ∃ argv cwd e, exchange = ⟨.run argv cwd, .error e⟩ ∧ e.isSupervisorError = false

/-- The program raises something else than a `SupervisorError` exactly where a command did. -/
def PassesOn (p : Supervised α) : Prop :=
  p.Surfaces IsFatal fun e => e.isSupervisorError = false

theorem isFatal_run {argv : List String} {cwd : Option String} {x : Except RunnerError String} :
    IsFatal ⟨.run argv cwd, x⟩ ↔ ∃ e, x = .error e ∧ e.isSupervisorError = false := by
  constructor
  · rintro ⟨argv, cwd, e, heq, he⟩
    cases heq
    exact ⟨e, rfl, he⟩
  · rintro ⟨e, rfl, he⟩
    exact ⟨argv, cwd, e, rfl, he⟩

theorem passesOn_hostRun (argv : List String) (cwd : Option String) :
    PassesOn (hostRun argv cwd) := by
  intro t x h
  rw [ends_hostRun.mp h]
  simp [isFatal_run]

theorem passesOn_require (condition : Bool) (message : String) :
    PassesOn (require condition message) := by
  cases condition with
  | false => exact surfaces_raise (by simp [RunnerError.isSupervisorError])
  | true => exact surfaces_done_ok ()

theorem passesOn_orIfRefused (argv : List String) (f : String → α) (value : α) :
    PassesOn (orIfRefused (hostRun argv >>= fun text => pure (f text)) value) := by
  intro t x h
  obtain ⟨answer, rfl, rfl⟩ := ends_orIfRefused.mp h
  simp only [List.mem_singleton, exists_eq_left, isFatal_run]
  cases answer with
  | ok text => simp [unlessRefused]
  | error e =>
      cases he : e.isSupervisorError <;> simp [unlessRefused, he]

theorem passesOn_awaitHealthy (name : String) (attempts : ℕ) :
    PassesOn (awaitHealthy name attempts) := by
  induction attempts with
  | zero => exact surfaces_done_ok false
  | succ left ih =>
      refine Surfaces.bind (passesOn_orIfRefused _ _ _) fun status => ?_
      split
      · exact surfaces_done_ok true
      · split
        · exact surfaces_done_ok false
        · split
          · exact surfaces_done_ok false
          · rintro t x ⟨answer, rest, rfl, hrest⟩
            rw [← ih rest x hrest]
            have hsleep : ¬ IsFatal ⟨.sleep HEALTH_CHECK_INTERVAL_SECONDS, answer⟩ := by
              rintro ⟨argv, cwd, e, heq, -⟩
              cases heq
            simp [hsleep]

theorem passesOn_reached : PassesOn (reached config sha candidate) := by
  refine Surfaces.bind (Surfaces.bind (passesOn_orIfRefused _ _ _) fun _ => surfaces_done_ok _)
    fun up => ?_
  split
  · exact surfaces_done_ok false
  · refine Surfaces.bind (passesOn_orIfRefused _ _ _) fun image => ?_
    split
    · exact surfaces_done_ok false
    · refine Surfaces.bind (passesOn_orIfRefused _ _ _) fun revision => ?_
      split
      · exact surfaces_done_ok false
      · exact passesOn_awaitHealthy _ _

theorem runBroker_eq (hconfig : config.validate = .ok ()) (image : String) :
    runBroker config image = hostRun (runtimeShape config image) := by
  rw [runBroker, runtimeArgv, hconfig]

theorem passesOn_startCandidate (hconfig : config.validate = .ok ()) :
    PassesOn (startCandidate config sha image candidate) := by
  rw [startCandidate, runBroker_eq hconfig]
  exact (passesOn_hostRun _ _).bind fun _ => passesOn_reached.bind fun _ => passesOn_require _ _

theorem passesOn_buildAndSmoke (worktree : String) : PassesOn (buildAndSmoke sha image worktree) := by
  refine (passesOn_hostRun _ _).bind fun _ => (passesOn_require _ _).bind fun _ => ?_
  refine (passesOn_hostRun _ _).bind fun _ => (passesOn_require _ _).bind fun _ => ?_
  refine (passesOn_hostRun _ _).bind fun _ => Surfaces.bind ?_ fun _ => ?_
  · exact (passesOn_hostRun _ _).bind fun _ => (passesOn_require _ _).bind fun _ => surfaces_done_ok _
  · exact (passesOn_hostRun _ _).bind fun _ => surfaces_done_ok _

def HostCall.isRun : HostCall → Bool
  | .run _ _ => true
  | _ => false

/-- A program without host commands has no fatal failure of one. -/
theorem strict_of_quiet {p : Supervised α} (h : p.Quiet fun call => !call.isRun) :
    p.Strict IsFatal := by
  rintro t a hends _ hmem ⟨argv, cwd, e, rfl, -⟩
  have := h.of_ends hends _ hmem
  cases this

theorem strict_buildCandidate : (buildCandidate config sha image).Strict IsFatal := by
  refine Strict.bind (strict_of_quiet ⟨rfl, fun _ => trivial⟩) fun temporary => Strict.ensuring ?_ ?_
  · refine (passesOn_hostRun _ _).strict.bind fun _ => Strict.ensuring ?_ ?_
    · exact (passesOn_buildAndSmoke _).strict
    · exact ((passesOn_hostRun _ _).bind fun _ => surfaces_done_ok ()).strict
  · exact strict_of_quiet ⟨rfl, fun _ => trivial⟩

theorem strict_verifyRelease : (verifyRelease config release).Strict IsFatal := by
  intro t u hends exchange hexchange hfatal
  obtain ⟨origin, main, payload, checks, rfl, -⟩ := ends_verifyRelease hends
  obtain ⟨argv, cwd, e, rfl, -⟩ := hfatal
  simp at hexchange

theorem strict_isCurrent : (isCurrent config sha).Strict IsFatal := by
  have hpasses : PassesOn (isCurrent config sha) := by
    refine Surfaces.bind (Surfaces.bind (passesOn_orIfRefused _ _ _) fun _ => surfaces_done_ok _)
      fun up => ?_
    split
    · exact Surfaces.bind (passesOn_orIfRefused _ _ _) fun _ => surfaces_done_ok _
    · exact surfaces_done_ok false
  exact hpasses.strict

/-! ## What the replacement issues -/

def changeOf : HostExchange → Option (List String)
  | ⟨.run argv cwd, _⟩ => if (HostCall.run argv cwd).changesState then some argv else none
  | _ => none

/-- The last docker command that changes the host. -/
def lastChange (t : List HostExchange) : Option (List String) := (t.filterMap changeOf).getLast?

theorem changeOf_eq_none {exchange : HostExchange} (h : exchange.1.changesState = false) :
    changeOf exchange = none := by
  obtain ⟨call, answer⟩ := exchange
  cases call with
  | run argv cwd => exact if_neg (by simpa using h)
  | get | temporaryDirectory | cleanup | sleep => rfl

theorem lastChange_of_later {before later : List HostExchange} {argv : List String}
    {cwd : Option String} {x : Except RunnerError String}
    (hchange : (HostCall.run argv cwd).changesState = true)
    (hlater : ∀ exchange ∈ later, exchange.1.changesState = false) :
    lastChange (before ++ ⟨.run argv cwd, x⟩ :: later) = some argv := by
  have hnone : later.filterMap changeOf = [] :=
    List.filterMap_eq_nil_iff.mpr fun exchange hexchange => changeOf_eq_none (hlater exchange hexchange)
  have hsome : changeOf ⟨.run argv cwd, x⟩ = some argv := if_pos hchange
  rw [lastChange, List.filterMap_append, List.filterMap_cons_some hsome, hnone, List.getLast?_concat]

theorem reached_keeps : (reached config sha candidate).Quiet fun call => !call.changesState := by
  apply quiet_reached <;> simp [HostCall.changesState, inspectArgv]

theorem ends_startCandidate (hconfig : config.validate = .ok ()) {x : Except RunnerError Unit}
    (h : (startCandidate config sha image candidate).Ends t x) : ∃ answer reads,
      t = ⟨.run (runtimeShape config image) none, answer⟩ :: reads ∧
        ∀ exchange ∈ reads, exchange.1.changesState = false := by
  rw [startCandidate, runBroker_eq hconfig] at h
  obtain ⟨answer, reads, rfl, hrest⟩ := h
  refine ⟨answer, reads, rfl, ?_⟩
  have hquiet : (Program.done answer >>= fun _ => reached config sha candidate >>= fun up =>
      require up "candidate did not reach requested healthy image revision").Quiet
        fun call => !call.changesState :=
    Quiet.bind (by trivial) fun _ => reached_keeps.bind fun _ => quiet_require _ _
  intro exchange hexchange
  simpa using hquiet.of_ends hrest exchange hexchange

/-- What a replacement of a running container did before it raised: which of its commands failed,
and with what. -/
inductive Failed (config : SupervisorConfig) (sha image candidate previous : String) :
    List HostExchange → Prop
  | stop (e : RunnerError) : Failed config sha image candidate previous
      [⟨.run (stopArgv config.brokerName) none, .error e⟩]
  | remove (output : String) (e : RunnerError) (he : e.isSupervisorError = false) :
      Failed config sha image candidate previous
        [⟨.run (stopArgv config.brokerName) none, .ok output⟩,
          ⟨.run (removeArgv config.brokerName) none, .error e⟩]
  | start (output : String) (answer : Except RunnerError String) (e : RunnerError)
      (start : List HostExchange) (hstart : (startCandidate config sha image candidate).Ends start (.error e))
      (he : e.isSupervisorError = false) :
      Failed config sha image candidate previous
        (⟨.run (stopArgv config.brokerName) none, .ok output⟩ ::
          ⟨.run (removeArgv config.brokerName) none, answer⟩ :: start)
  | removeCandidate (output : String) (answer : Except RunnerError String) (e e' : RunnerError)
      (start : List HostExchange) (hstart : (startCandidate config sha image candidate).Ends start (.error e))
      (he' : e'.isSupervisorError = false) :
      Failed config sha image candidate previous
        (⟨.run (stopArgv config.brokerName) none, .ok output⟩ ::
          ⟨.run (removeArgv config.brokerName) none, answer⟩ :: (start ++
            [⟨.run (removeArgv config.brokerName) none, .error e'⟩]))
  | rolledBack (output : String) (answer answer' answer'' : Except RunnerError String)
      (e : RunnerError) (start : List HostExchange)
      (hstart : (startCandidate config sha image candidate).Ends start (.error e))
      (he : e.isSupervisorError = true)
      (hanswer : ¬ IsFatal ⟨.run (removeArgv config.brokerName) none, answer⟩)
      (hanswer' : ¬ IsFatal ⟨.run (removeArgv config.brokerName) none, answer'⟩) :
      Failed config sha image candidate previous
        (⟨.run (stopArgv config.brokerName) none, .ok output⟩ ::
          ⟨.run (removeArgv config.brokerName) none, answer⟩ :: (start ++
            [⟨.run (removeArgv config.brokerName) none, answer'⟩,
              ⟨.run (runtimeShape config previous) none, answer''⟩]))

theorem ends_remove_error {name : String} {e : RunnerError} (h : (remove name).Ends t (.error e)) :
    t = [⟨.run (removeArgv name) none, .error e⟩] ∧ e.isSupervisorError = false := by
  obtain ⟨answer, rfl, hx⟩ := ends_remove.mp h
  cases answer with
  | ok output => cases hx
  | error e' =>
      cases he : e'.isSupervisorError with
      | true => simp [unlessRefused, he] at hx
      | false =>
          obtain rfl : e = e' := by simpa [unlessRefused, he] using hx
          exact ⟨rfl, he⟩

theorem ends_remove_ok {name : String} (h : (remove name).Ends t (.ok ())) : ∃ answer,
    t = [⟨.run (removeArgv name) none, answer⟩] ∧
      ¬ IsFatal ⟨.run (removeArgv name) none, answer⟩ := by
  obtain ⟨answer, rfl, hx⟩ := ends_remove.mp h
  refine ⟨answer, rfl, ?_⟩
  rw [isFatal_run]
  rintro ⟨e, rfl, he⟩
  simp [unlessRefused, he] at hx

theorem ends_rollBack_some (hconfig : config.validate = .ok ()) {previous : String}
    {e : RunnerError} {x : Except RunnerError Unit} (he : e.isSupervisorError = true)
    (h : (rollBack config (some previous) e).Ends t x) :
    (∃ e', t = [⟨.run (removeArgv config.brokerName) none, .error e'⟩] ∧
        e'.isSupervisorError = false) ∨
      ∃ answer answer', t = [⟨.run (removeArgv config.brokerName) none, answer⟩,
          ⟨.run (runtimeShape config previous) none, answer'⟩] ∧
        ¬ IsFatal ⟨.run (removeArgv config.brokerName) none, answer⟩ := by
  unfold rollBack at h
  rw [if_pos he] at h
  rcases ends_bind.mp h with ⟨e', hremove, -⟩ | ⟨_, first, rest, rfl, hremove, hrun⟩
  · exact Or.inl ⟨e', ends_remove_error hremove⟩
  · obtain ⟨answer, rfl, hanswer⟩ := ends_remove_ok hremove
    dsimp only at hrun
    rw [runBroker_eq hconfig] at hrun
    rcases ends_bind.mp hrun with ⟨e', hagain, -⟩ | ⟨output, first, rest, rfl, hagain, hraise⟩
    · rw [ends_hostRun.mp hagain]
      exact Or.inr ⟨answer, .error e', rfl, hanswer⟩
    · obtain ⟨rfl, -⟩ := hraise
      rw [ends_hostRun.mp hagain]
      exact Or.inr ⟨answer, .ok output, rfl, hanswer⟩

theorem failed_of_ends (hconfig : config.validate = .ok ()) {previous : String} {e : RunnerError}
    (h : (replaceBroker config sha image candidate (some previous)).Ends t (.error e)) :
    Failed config sha image candidate previous t := by
  rcases ends_bind.mp h with ⟨e', hfirst, -⟩ | ⟨_, first, rest, rfl, hfirst, hrest⟩
  · rcases ends_bind.mp hfirst with ⟨e'', hstop, -⟩ | ⟨output, first, rest, rfl, hstop, hremove⟩
    · rw [ends_hostRun.mp hstop]
      exact .stop e''
    · rw [ends_hostRun.mp hstop]
      obtain ⟨rfl, he⟩ := ends_remove_error hremove
      exact .remove output e' he
  · obtain ⟨output, first, rest', rfl, hstop, hremove⟩ := ends_bind_ok.mp hfirst
    obtain ⟨answer, rfl, hanswer⟩ := ends_remove_ok hremove
    rw [ends_hostRun.mp hstop]
    rcases ends_bind.mp hrest with ⟨e', hcatching, -⟩ | ⟨_, first, rest, rfl, -, hend⟩
    · rcases ends_catching.mp hcatching with ⟨_, -, hx⟩ | ⟨e₀, start, rest, rfl, hstart, hclause⟩
      · cases hx
      · cases he : e₀.isSupervisorError with
        | false =>
            unfold rollBack at hclause
            rw [he] at hclause
            obtain ⟨rfl, -⟩ := hclause
            rw [List.append_nil]
            exact .start output answer e₀ start hstart he
        | true =>
            rcases ends_rollBack_some hconfig he hclause with ⟨e₁, rfl, he₁⟩ |
              ⟨answer', answer'', rfl, hanswer'⟩
            · exact .removeCandidate output answer e₀ e₁ start hstart he₁
            · exact .rolledBack output answer answer' answer'' e₀ start hstart he hanswer hanswer'
    · cases hend.2

/-- Where no container was inspected, what is raised leaves the container alone or removed. -/
theorem ends_replaceBroker_none {e : RunnerError}
    (h : (replaceBroker config sha image candidate none).Ends t (.error e)) :
    (∃ e, (startCandidate config sha image candidate).Ends t (.error e)) ∨
      ∃ before answer, t = before ++ [⟨.run (removeArgv config.brokerName) none, answer⟩] := by
  have htry : ((startCandidate config sha image candidate).catching (rollBack config none) >>=
      fun _ => return Outcome.applied).Ends t (.error e) := h
  rcases ends_bind.mp htry with ⟨e', hcatching, -⟩ | ⟨_, first, rest, rfl, -, hend⟩
  · rcases ends_catching.mp hcatching with ⟨_, -, hx⟩ | ⟨e₀, start, rest, rfl, hstart, hclause⟩
    · cases hx
    · unfold rollBack at hclause
      cases he : e₀.isSupervisorError with
      | false =>
          rw [he] at hclause
          obtain ⟨rfl, -⟩ := hclause
          rw [List.append_nil]
          exact Or.inl ⟨e₀, hstart⟩
      | true =>
          rw [if_pos he] at hclause
          right
          rcases ends_bind.mp hclause with ⟨e', hremove, -⟩ | ⟨_, first, rest', rfl, hremove, hraise⟩
          · exact ⟨start, _, congrArg _ (ends_remove_error hremove).1⟩
          · obtain ⟨rfl, -⟩ := hraise
            obtain ⟨answer, rfl, -⟩ := ends_remove_ok hremove
            exact ⟨start, answer, rfl⟩
  · cases hend.2

/-! ## The rollback -/

/-- The first answer to a call. -/
def FirstAnswer (t : List HostExchange) (call : HostCall) (answer : call.Answer) : Prop :=
  ∃ before after, t = before ++ ⟨call, answer⟩ :: after ∧
    ∀ exchange ∈ before, exchange.1 ≠ call

/-- The calls that stop or remove the container. -/
def Removes (config : SupervisorConfig) (call : HostCall) : Prop :=
  call = .run (stopArgv config.brokerName) none ∨ call = .run (removeArgv config.brokerName) none

/-- The container was inspected and stopped, and commands failed by being refused only, the last run
of its image apart. -/
structure RollsBack (config : SupervisorConfig) (had : String) (t : List HostExchange) : Prop where
  inspected : FirstAnswer t (.run (inspectArgv imageFormat config.brokerName) none) (.ok had)
  stopped : ∃ output, (⟨.run (stopArgv config.brokerName) none, .ok output⟩ : HostExchange) ∈ t
  refusals : ∀ argv cwd e, (⟨.run argv cwd, .error e⟩ : HostExchange) ∈ t →
    argv ≠ runtimeShape config had → e.isSupervisorError = true

theorem FirstAnswer.unique {call : HostCall} {answer answer' : call.Answer}
    (h : FirstAnswer t call answer) (h' : FirstAnswer t call answer') : answer = answer' := by
  obtain ⟨before, after, rfl, hbefore⟩ := h
  obtain ⟨before', after', hsplit, hbefore'⟩ := h'
  rcases append_cons_cases hsplit with ⟨last, rfl, -⟩ | ⟨later, rfl, hlater⟩
  · exact absurd rfl (hbefore' ⟨call, answer⟩ (List.mem_append_right _ List.mem_cons_self))
  · cases later with
    | nil =>
        have := (List.cons.inj hlater).1
        cases this
        rfl
    | cons e later =>
        obtain ⟨rfl, -⟩ := List.cons.inj hlater
        exact absurd rfl (hbefore ⟨call, answer'⟩ (List.mem_append_right _ List.mem_cons_self))

theorem runtimeShape_injective {image' : String} (h : runtimeShape config image = runtimeShape config image') :
    image = image' := by
  have hlast := congrArg List.getLast? h
  simpa only [runtimeShape, List.getLast?_concat, Option.some.injEq] using hlast

@[simp] theorem changesState_runtimeShape (cwd : Option String) :
    (HostCall.run (runtimeShape config image) cwd).changesState = true := rfl

@[simp] theorem changesState_removeArgv (name : String) (cwd : Option String) :
    (HostCall.run (removeArgv name) cwd).changesState = true := rfl

@[simp] theorem changesState_stopArgv (name : String) (cwd : Option String) :
    (HostCall.run (stopArgv name) cwd).changesState = true := rfl

theorem removeArgv_ne_runtimeShape : removeArgv config.brokerName ≠ runtimeShape config image := by
  simp [removeArgv, runtimeShape]

theorem stopArgv_ne_runtimeShape : stopArgv config.brokerName ≠ runtimeShape config image := by
  simp [stopArgv, runtimeShape]

theorem isSupervisorError_of_not_isFatal (argv : List String) (cwd : Option String)
    {e : RunnerError} (h : ¬ IsFatal ⟨.run argv cwd, .error e⟩) : e.isSupervisorError = true := by
  by_contra he
  exact h (isFatal_run.mpr ⟨e, rfl, Bool.eq_false_of_not_eq_true he⟩)

/-- A fatal failure of the start is none of the run of another image. -/
theorem fatal_of_startCandidate (hconfig : config.validate = .ok ()) {previous : String}
    (hother : previous ≠ image) {e : RunnerError}
    (h : (startCandidate config sha image candidate).Ends t (.error e))
    (he : e.isSupervisorError = false) :
    ∃ argv cwd e', (⟨.run argv cwd, .error e'⟩ : HostExchange) ∈ t ∧
      argv ≠ runtimeShape config previous ∧ e'.isSupervisorError = false := by
  obtain ⟨_, hmem, argv, cwd, e', rfl, he'⟩ :=
    (passesOn_startCandidate hconfig t _ h).mpr ⟨e, rfl, he⟩
  refine ⟨argv, cwd, e', hmem, ?_, he'⟩
  rintro rfl
  obtain ⟨answer, reads, rfl, hreads⟩ := ends_startCandidate hconfig h
  rcases List.mem_cons.mp hmem with hhead | hmem
  · have hcall := congrArg Sigma.fst hhead
    exact hother (runtimeShape_injective (HostCall.run.inj hcall).1)
  · have := hreads _ hmem
    cases this

theorem lastChange_of_start (hconfig : config.validate = .ok ()) {e : RunnerError}
    (h : (startCandidate config sha image candidate).Ends t (.error e))
    (before : List HostExchange) : lastChange (before ++ t) = some (runtimeShape config image) := by
  obtain ⟨answer, reads, rfl, hreads⟩ := ends_startCandidate hconfig h
  exact lastChange_of_later (changesState_runtimeShape none) hreads

/-- The last change of a failed replacement is a run of the previous image exactly when the
container was stopped and nothing but that run failed otherwise than by being refused. -/
theorem lastChange_of_failed (hconfig : config.validate = .ok ()) {previous : String}
    (hother : previous ≠ image) (h : Failed config sha image candidate previous t)
    {before : List HostExchange} (hbefore : ∀ exchange ∈ before, ¬ IsFatal exchange)
    (hstop : ∀ exchange ∈ before, exchange.1 ≠ .run (stopArgv config.brokerName) none) :
    lastChange (before ++ t) = some (runtimeShape config previous) ↔
      (∃ output, (⟨.run (stopArgv config.brokerName) none, .ok output⟩ : HostExchange) ∈ before ++ t) ∧
        ∀ argv cwd e, (⟨.run argv cwd, .error e⟩ : HostExchange) ∈ before ++ t →
          argv ≠ runtimeShape config previous → e.isSupervisorError = true := by
  cases h with
  | stop e =>
      rw [lastChange_of_later (changesState_stopArgv _ _) (by simp), Option.some.injEq]
      refine iff_of_false stopArgv_ne_runtimeShape ?_
      rintro ⟨⟨output, hmem⟩, -⟩
      rcases List.mem_append.mp hmem with hmem | hmem
      · exact hstop _ hmem rfl
      · simp at hmem
  | remove output e he =>
      rw [List.append_cons, lastChange_of_later (changesState_removeArgv _ _) (by simp),
        Option.some.injEq]
      refine iff_of_false removeArgv_ne_runtimeShape ?_
      rintro ⟨-, hrefusals⟩
      have := hrefusals (removeArgv config.brokerName) none e (by simp) removeArgv_ne_runtimeShape
      rw [he] at this
      cases this
  | start output answer e start hstart he =>
      rw [List.append_cons, List.append_cons, lastChange_of_start hconfig hstart, Option.some.injEq]
      refine iff_of_false (fun heq => hother (runtimeShape_injective heq).symm) ?_
      rintro ⟨-, hrefusals⟩
      obtain ⟨argv, cwd, e', hmem, hargv, he'⟩ := fatal_of_startCandidate hconfig hother hstart he
      have := hrefusals argv cwd e' (List.mem_append_right _ hmem) hargv
      rw [he'] at this
      cases this
  | removeCandidate output answer e e' start hstart he' =>
      rw [List.append_cons, List.append_cons, ← List.append_assoc,
        lastChange_of_later (changesState_removeArgv _ _) (by simp), Option.some.injEq]
      refine iff_of_false removeArgv_ne_runtimeShape ?_
      rintro ⟨-, hrefusals⟩
      have := hrefusals (removeArgv config.brokerName) none e' (by simp) removeArgv_ne_runtimeShape
      rw [he'] at this
      cases this
  | rolledBack output answer answer' answer'' e start hstart he hanswer hanswer' =>
      rw [List.append_cons, List.append_cons, ← List.append_assoc, List.append_cons,
        lastChange_of_later (changesState_runtimeShape _) (by simp)]
      refine iff_of_true rfl ⟨⟨output, by simp⟩, fun argv cwd e' hmem hargv => ?_⟩
      have hstart' : ∀ exchange ∈ start, ¬ IsFatal exchange := fun exchange hexchange hfatal => by
        obtain ⟨e₁, heq, he₁⟩ :=
          (passesOn_startCandidate hconfig start _ hstart).mp ⟨exchange, hexchange, hfatal⟩
        obtain rfl := Except.error.inj heq
        rw [he] at he₁
        cases he₁
      apply isSupervisorError_of_not_isFatal argv cwd
      simp only [List.mem_append, List.mem_singleton] at hmem
      rcases hmem with ((((hmem | hmem) | hmem) | hmem) | hmem) | hmem
      · exact hbefore _ hmem
      · cases hmem
      · rwa [hmem]
      · exact hstart' _ hmem
      · rwa [hmem]
      · exact absurd (HostCall.run.inj (congrArg Sigma.fst hmem)).1 hargv

/-! ## The parts of an application -/

/-- The call neither reads the image of the container nor stops nor removes it. -/
def isCalm (config : SupervisorConfig) : HostCall → Bool
  | .run argv _ => argv ≠ inspectArgv imageFormat config.brokerName ∧
      argv ≠ stopArgv config.brokerName ∧ argv ≠ removeArgv config.brokerName
  | _ => true

theorem verifyRelease_calm : (verifyRelease config release).Quiet (isCalm config) := by
  apply quiet_verifyRelease
  · simp [isCalm, originArgv, gitArgv, inspectArgv, stopArgv, removeArgv]
  · simp [isCalm, mainArgv, gitArgv, inspectArgv, stopArgv, removeArgv]
  · exact fun _ => rfl

theorem isCurrent_calm : (isCurrent config sha).Quiet (isCalm config) := by
  apply quiet_isCurrent
  intro format hformat
  simp [isCalm, inspectArgv, stopArgv, removeArgv, hformat]

theorem buildCandidate_calm : (buildCandidate config sha image).Quiet (isCalm config) := by
  apply quiet_buildCandidate
  · exact fun _ => rfl
  · exact fun _ => rfl
  · simp [isCalm, worktreeAddArgv, worktreeRemoveArgv, headArgv, originArgv, gitArgv, inspectArgv,
      stopArgv, removeArgv]
  · simp [isCalm, buildArgv, imageIdArgv, smokeArgv, inspectArgv, stopArgv, removeArgv]

theorem not_removes_of_calm (h : ∀ exchange ∈ t, isCalm config exchange.1 = true) :
    ¬ ∃ exchange ∈ t, Removes config exchange.1 := by
  rintro ⟨exchange, hexchange, hremoves⟩
  have hcalm := h exchange hexchange
  rcases hremoves with hcall | hcall <;> simp [hcall, isCalm] at hcalm

theorem ends_verifyRelease_config (h : (verifyRelease config release).Ends t (.ok ())) :
    config.validate = .ok () := by
  obtain ⟨_, _, _, -, hvalid, -⟩ := ends_bind_ok.mp h
  exact hvalid.2.symm

/-- Once a release is verified and built, and the container inspected, the rest is its replacement. -/
structure Deployed (config : SupervisorConfig) (sha : String) (t : List HostExchange)
    (x : Except RunnerError Outcome) where
  calm : List HostExchange
  answer : Except RunnerError String
  replaced : List HostExchange
  candidate : String
  previous : Option String
  split : t = calm ++ ⟨.run (inspectArgv imageFormat config.brokerName) none, answer⟩ :: replaced
  calm_of_mem : ∀ exchange ∈ calm, isCalm config exchange.1 = true
  strict : ∀ exchange ∈ calm, ¬ IsFatal exchange
  built : (⟨.run (imageIdArgv (candidateImage sha)) none, .ok candidate⟩ : HostExchange) ∈ calm
  inspected : unlessRefused inspected none answer = .ok previous
  ends : (replaceBroker config sha (candidateImage sha) candidate previous).Ends replaced x

theorem ends_imageId {name : String} {value : String} (h : (imageId name).Ends t (.ok value)) :
    t = [⟨.run (imageIdArgv name) none, .ok value⟩] := by
  obtain ⟨value', first, rest, rfl, hrun, hrest⟩ := ends_bind_ok.mp h
  rcases ends_require_bind.mp hrest with ⟨-, rfl, heq⟩ | ⟨-, -, hraised⟩
  · obtain rfl := Except.ok.inj heq
    rw [ends_hostRun.mp hrun]
    rfl
  · cases hraised

/-- The candidate is what its image was identified as. -/
theorem ends_buildCandidate (h : (buildCandidate config sha image).Ends t (.ok candidate)) :
    (⟨.run (imageIdArgv image) none, .ok candidate⟩ : HostExchange) ∈ t := by
  obtain ⟨temporary, first, rest, rfl, -, hin⟩ := ends_bind_ok.mp h
  obtain ⟨inner, last, y, z, rfl, hinner, -, hz⟩ := ends_ensuring.mp hin
  cases z with
  | error e => cases hz
  | ok u =>
      obtain rfl : .ok candidate = y := hz
      obtain ⟨_, first', rest', rfl, -, htry⟩ := ends_bind_ok.mp hinner
      obtain ⟨body, last', y', z', rfl, hbody, -, hz'⟩ := ends_ensuring.mp htry
      cases z' with
      | error e => cases hz'
      | ok u =>
          obtain rfl : .ok candidate = y' := hz'
          suffices hmem : (⟨.run (imageIdArgv image) none, .ok candidate⟩ : HostExchange) ∈ body by
            simp [hmem]
          obtain ⟨_, _, _, rfl, -, h₁⟩ := ends_bind_ok.mp hbody
          rcases ends_require_bind.mp h₁ with ⟨-, h₂⟩ | ⟨-, -, hraised⟩
          · obtain ⟨_, _, _, rfl, -, h₃⟩ := ends_bind_ok.mp h₂
            rcases ends_require_bind.mp h₃ with ⟨-, h₄⟩ | ⟨-, -, hraised⟩
            · obtain ⟨_, _, _, rfl, -, h₅⟩ := ends_bind_ok.mp h₄
              obtain ⟨_, _, _, rfl, hid, h₆⟩ := ends_bind_ok.mp h₅
              obtain ⟨_, _, _, rfl, -, hend⟩ := ends_bind_ok.mp h₆
              obtain ⟨rfl, heq⟩ := hend
              obtain rfl := Except.ok.inj heq
              rw [ends_imageId hid]
              simp
            · cases hraised
          · cases hraised

theorem ends_candidateTag (h : (candidateTag sha).Ends t (.ok image)) :
    t = [] ∧ image = candidateImage sha := by
  rcases ends_require_bind.mp h with ⟨-, rfl, heq⟩ | ⟨-, -, hraised⟩
  · exact ⟨rfl, Except.ok.inj heq⟩
  · cases hraised

theorem candidateTag_calm : (candidateTag sha).Quiet (isCalm config) :=
  (quiet_require _ _).bind fun _ => by trivial

theorem isCurrent_keeps : (isCurrent config sha).Quiet fun call => !call.changesState := by
  apply quiet_isCurrent
  simp [HostCall.changesState, inspectArgv]

/-- Calm calls without a fatal failure may precede. -/
def Deployed.after {x : Except RunnerError Outcome} (d : Deployed config sha t x)
    {before : List HostExchange} (hcalm : ∀ exchange ∈ before, isCalm config exchange.1 = true)
    (hstrict : ∀ exchange ∈ before, ¬ IsFatal exchange) : Deployed config sha (before ++ t) x where
  calm := before ++ d.calm
  answer := d.answer
  replaced := d.replaced
  candidate := d.candidate
  previous := d.previous
  split := (congrArg _ d.split).trans (List.append_assoc _ _ _).symm
  calm_of_mem := fun _ h => (List.mem_append.mp h).elim (hcalm _) (d.calm_of_mem _)
  strict := fun _ h => (List.mem_append.mp h).elim (hstrict _) (d.strict _)
  built := List.mem_append_right _ d.built
  inspected := d.inspected
  ends := d.ends

theorem deploy_cases {x : Except RunnerError Outcome} (h : (deploy config sha).Ends t x) :
    ((¬ ∃ exchange ∈ t, Removes config exchange.1) ∧ ∃ e, x = .error e) ∨
      Nonempty (Deployed config sha t x) := by
  rcases ends_bind.mp h with ⟨e, htag, rfl⟩ | ⟨image, first, rest, rfl, htag, hbuild⟩
  · exact Or.inl ⟨not_removes_of_calm (candidateTag_calm.of_ends htag), e, rfl⟩
  obtain ⟨rfl, rfl⟩ := ends_candidateTag htag
  rw [List.nil_append]
  rcases ends_bind.mp hbuild with ⟨e, hbuilt, rfl⟩ | ⟨candidate, calm, rest, rfl, hbuilt, hinspect⟩
  · exact Or.inl ⟨not_removes_of_calm (buildCandidate_calm.of_ends hbuilt), e, rfl⟩
  have hcalm : ∀ exchange ∈ calm, isCalm config exchange.1 = true :=
    buildCandidate_calm.of_ends hbuilt
  rcases ends_bind.mp hinspect with ⟨e, hread, rfl⟩ | ⟨previous, first, replaced, rfl, hread, hends⟩
  · obtain ⟨answer, rfl, -⟩ := ends_inspect.mp hread
    refine Or.inl ⟨?_, e, rfl⟩
    rintro ⟨exchange, hexchange, hremoves⟩
    rcases List.mem_append.mp hexchange with hmem | hmem
    · exact not_removes_of_calm hcalm ⟨exchange, hmem, hremoves⟩
    · rw [List.mem_singleton.mp hmem] at hremoves
      rcases hremoves with hcall | hcall <;>
        simp [inspectArgv, stopArgv, removeArgv] at hcall
  · obtain ⟨answer, rfl, hanswer⟩ := ends_inspect.mp hread
    exact Or.inr ⟨calm, answer, replaced, candidate, previous, rfl, hcalm,
      strict_buildCandidate calm _ hbuilt, ends_buildCandidate hbuilt, hanswer.symm, hends⟩

/-- An application leaves the container alone, or verified, built and then replaced it. -/
theorem applyRelease_cases {x : Except RunnerError Outcome}
    (h : (applyRelease config release).Ends t x) :
    ((¬ ∃ exchange ∈ t, Removes config exchange.1) ∧ x ≠ .ok .applied ∧
        (x = .ok .noop → ∀ exchange ∈ t, exchange.1.changesState = false)) ∨
      (config.validate = .ok () ∧ Nonempty (Deployed config release.sha t x)) := by
  rcases ends_bind.mp h with ⟨e, hverify, rfl⟩ | ⟨_, verified, rest, rfl, hverify, hrest⟩
  · have hcalm := verifyRelease_calm.of_ends hverify
    exact Or.inl ⟨not_removes_of_calm hcalm, by simp, by simp⟩
  have hverified := verifyRelease_calm.of_ends hverify
  rcases ends_bind.mp hrest with ⟨e, hcurrent, rfl⟩ | ⟨current, reads, rest, rfl, hcurrent, hdeploy⟩
  · have hcalm := isCurrent_calm.of_ends hcurrent
    refine Or.inl ⟨not_removes_of_calm fun exchange hexchange => ?_, by simp, by simp⟩
    exact (List.mem_append.mp hexchange).elim (hverified _) (hcalm _)
  have hreads := isCurrent_calm.of_ends hcurrent
  cases current with
  | true =>
      obtain ⟨rfl, rfl⟩ := hdeploy
      rw [List.append_nil]
      refine Or.inl ⟨not_removes_of_calm fun exchange hexchange => ?_, by simp, fun _ => ?_⟩
      · exact (List.mem_append.mp hexchange).elim (hverified _) (hreads _)
      · intro exchange hexchange
        rcases List.mem_append.mp hexchange with hmem | hmem
        · simpa using verifyRelease_keeps.of_ends hverify exchange hmem
        · simpa using isCurrent_keeps.of_ends hcurrent exchange hmem
  | false =>
      have hbefore : ∀ exchange ∈ verified ++ reads, isCalm config exchange.1 = true :=
        fun exchange hexchange => (List.mem_append.mp hexchange).elim (hverified _) (hreads _)
      have hstrict : ∀ exchange ∈ verified ++ reads, ¬ IsFatal exchange :=
        fun exchange hexchange => (List.mem_append.mp hexchange).elim
          (strict_verifyRelease _ _ hverify _) (strict_isCurrent _ _ hcurrent _)
      rw [← List.append_assoc]
      rcases deploy_cases hdeploy with ⟨hnone, e, rfl⟩ | ⟨⟨d⟩⟩
      · refine Or.inl ⟨?_, by simp, by simp⟩
        rw [exists_append_iff, not_or]
        exact ⟨not_removes_of_calm hbefore, hnone⟩
      · exact Or.inr ⟨ends_verifyRelease_config hverify, ⟨d.after hbefore hstrict⟩⟩

/-! ## Applied releases -/

/-- The last reads are of the container running with the image that was built and its revision, and
of a healthy status, before which only the status was awaited. -/
def ReachedHealthy (config : SupervisorConfig) (sha : String) (t : List HostExchange) : Prop :=
  ∃ id before waits, t = before ++
      ⟨.run (inspectArgv runningFormat config.brokerName) none, .ok "true"⟩ ::
      ⟨.run (inspectArgv imageFormat config.brokerName) none, .ok id⟩ ::
      ⟨.run (inspectArgv revisionFormat config.brokerName) none, .ok sha⟩ ::
      (waits ++ [⟨.run (inspectArgv healthFormat config.brokerName) none, .ok "healthy"⟩]) ∧
    (∀ exchange ∈ waits, exchange.1 = .run (inspectArgv healthFormat config.brokerName) none ∨
      exchange.1 = .sleep HEALTH_CHECK_INTERVAL_SECONDS) ∧
    (⟨.run (imageIdArgv (candidateImage sha)) none, .ok id⟩ : HostExchange) ∈ before

theorem inspected_eq_some {answer : Except RunnerError String} {value : String}
    (h : unlessRefused inspected none answer = .ok (some value)) : answer = .ok value := by
  cases answer with
  | error e =>
      cases he : e.isSupervisorError <;> simp [unlessRefused, he] at h
  | ok text =>
      have hvalue : inspected text = some value := Except.ok.inj h
      rw [inspected] at hvalue
      split at hvalue
      · cases hvalue
      · rw [Option.some.inj hvalue]

theorem ends_inspect_some {format name value : String}
    (h : (inspect format name).Ends t (.ok (some value))) :
    t = [⟨.run (inspectArgv format name) none, .ok value⟩] := by
  obtain ⟨answer, rfl, hx⟩ := ends_inspect.mp h
  rw [inspected_eq_some hx.symm]

theorem ends_awaitHealthy {name : String} {attempts : ℕ}
    (h : (awaitHealthy name attempts).Ends t (.ok true)) : ∃ waits,
      t = waits ++ [⟨.run (inspectArgv healthFormat name) none, .ok "healthy"⟩] ∧
        ∀ exchange ∈ waits, exchange.1 = .run (inspectArgv healthFormat name) none ∨
          exchange.1 = .sleep HEALTH_CHECK_INTERVAL_SECONDS := by
  induction attempts generalizing t with
  | zero => cases h.2
  | succ left ih =>
      obtain ⟨status, first, rest, rfl, hstatus, hrest⟩ := ends_bind_ok.mp h
      split at hrest
      · rename_i hhealthy
        subst hhealthy
        obtain ⟨rfl, -⟩ := hrest
        rw [ends_inspect_some hstatus]
        exact ⟨[], rfl, by simp⟩
      · split at hrest
        · cases hrest.2
        · split at hrest
          · cases hrest.2
          · obtain ⟨answer, rest, rfl, hrest⟩ := hrest
            obtain ⟨waits, rfl, hwaits⟩ := ih hrest
            obtain ⟨read, rfl, -⟩ := ends_inspect.mp hstatus
            refine ⟨_ :: ⟨.sleep HEALTH_CHECK_INTERVAL_SECONDS, answer⟩ :: waits, rfl, ?_⟩
            intro exchange hexchange
            rcases List.mem_cons.mp hexchange with rfl | hexchange
            · exact Or.inl rfl
            · rcases List.mem_cons.mp hexchange with rfl | hexchange
              · exact Or.inr rfl
              · exact hwaits exchange hexchange

theorem ends_running (name : String) (h : (running name).Ends t (.ok true)) :
    t = [⟨.run (inspectArgv runningFormat name) none, .ok "true"⟩] := by
  obtain ⟨value, first, rest, rfl, hvalue, hrest⟩ := ends_bind_ok.mp h
  obtain ⟨rfl, heq⟩ := hrest
  have htrue : value = some "true" := of_decide_eq_true (Except.ok.inj heq).symm
  rw [htrue] at hvalue
  rw [ends_inspect_some hvalue, List.append_nil]

theorem ends_reached (h : (reached config sha candidate).Ends t (.ok true)) : ∃ waits,
    t = ⟨.run (inspectArgv runningFormat config.brokerName) none, .ok "true"⟩ ::
      ⟨.run (inspectArgv imageFormat config.brokerName) none, .ok candidate⟩ ::
      ⟨.run (inspectArgv revisionFormat config.brokerName) none, .ok sha⟩ ::
      (waits ++ [⟨.run (inspectArgv healthFormat config.brokerName) none, .ok "healthy"⟩]) ∧
    ∀ exchange ∈ waits, exchange.1 = .run (inspectArgv healthFormat config.brokerName) none ∨
      exchange.1 = .sleep HEALTH_CHECK_INTERVAL_SECONDS := by
  obtain ⟨up, _, rest, rfl, hup, h₁⟩ := ends_bind_ok.mp h
  cases up with
  | false => cases h₁.2
  | true =>
      rw [ends_running config.brokerName hup]
      obtain ⟨value, _, rest, rfl, himage, h₂⟩ := ends_bind_ok.mp h₁
      split at h₂
      · cases h₂.2
      · rename_i hsame
        obtain rfl := of_not_not hsame
        rw [ends_inspect_some himage]
        obtain ⟨revision, _, rest, rfl, hrevision, h₃⟩ := ends_bind_ok.mp h₂
        split at h₃
        · cases h₃.2
        · rename_i hsame
          obtain rfl := of_not_not hsame
          rw [ends_inspect_some hrevision]
          obtain ⟨waits, rfl, hwaits⟩ := ends_awaitHealthy h₃
          exact ⟨waits, rfl, hwaits⟩

theorem ends_startCandidate_ok (hconfig : config.validate = .ok ())
    (h : (startCandidate config sha image candidate).Ends t (.ok ())) : ∃ output reads,
      t = ⟨.run (runtimeShape config image) none, .ok output⟩ :: reads ∧
        (reached config sha candidate).Ends reads (.ok true) := by
  rw [startCandidate, runBroker_eq hconfig] at h
  obtain ⟨output, _, rest, rfl, hrun, h₁⟩ := ends_bind_ok.mp h
  obtain ⟨up, reads, _, rfl, hreached, h₂⟩ := ends_bind_ok.mp h₁
  obtain ⟨rfl, hup⟩ := ends_require.mp h₂
  rw [ends_hostRun.mp hrun, List.append_nil]
  cases up with
  | false => cases hup
  | true => exact ⟨output, reads, rfl, hreached⟩

theorem not_ends_rollBack {previous : Option String} {e : RunnerError} {u : Unit} :
    ¬ (rollBack config previous e).Ends t (.ok u) := by
  intro h
  unfold rollBack at h
  split at h
  · obtain ⟨_, _, _, -, -, hrest⟩ := ends_bind_ok.mp h
    cases previous with
    | none => cases hrest.2
    | some image =>
        obtain ⟨_, _, _, -, -, hend⟩ := ends_bind_ok.mp hrest
        cases hend.2
  · cases h.2

theorem Deployed.reachedHealthy (d : Deployed config sha t (.ok .applied))
    (hconfig : config.validate = .ok ()) : ReachedHealthy config sha t := by
  obtain ⟨_, stopped, rest, hreplaced, -, hrest⟩ := ends_bind_ok.mp d.ends
  obtain ⟨_, start, _, hstart, htry, hend⟩ := ends_bind_ok.mp hrest
  obtain ⟨rfl, -⟩ := hend
  rcases ends_catching.mp htry with ⟨_, hends, -⟩ | ⟨e, _, _, rfl, -, hclause⟩
  · obtain ⟨output, reads, rfl, hreached⟩ := ends_startCandidate_ok hconfig hends
    obtain ⟨waits, rfl, hwaits⟩ := ends_reached hreached
    refine ⟨d.candidate, d.calm ++ ⟨.run (inspectArgv imageFormat config.brokerName) none, d.answer⟩ ::
      (stopped ++ [⟨.run (runtimeShape config (candidateImage sha)) none, .ok output⟩]), waits, ?_,
      hwaits, List.mem_append_left _ d.built⟩
    refine d.split.trans ?_
    rw [hreplaced, hstart]
    simp
  · exact absurd hclause not_ends_rollBack

theorem ends_replaceBroker_ok {previous : Option String} {outcome : Outcome}
    (h : (replaceBroker config sha image candidate previous).Ends t (.ok outcome)) :
    outcome = .applied := by
  obtain ⟨_, _, _, -, -, hrest⟩ := ends_bind_ok.mp h
  obtain ⟨_, _, _, -, -, hend⟩ := ends_bind_ok.mp hrest
  exact Except.ok.inj hend.2

theorem firstAnswer_of_calm {calm : List HostExchange} (replaced : List HostExchange)
    (answer : Except RunnerError String) (h : ∀ exchange ∈ calm, isCalm config exchange.1 = true) :
    FirstAnswer (calm ++ ⟨.run (inspectArgv imageFormat config.brokerName) none, answer⟩ :: replaced)
      (.run (inspectArgv imageFormat config.brokerName) none) answer := by
  refine ⟨calm, replaced, rfl, fun exchange hexchange hcall => ?_⟩
  have hcalm := h exchange hexchange
  simp [hcall, isCalm] at hcalm

theorem not_removes_inspect {format : String} :
    ¬ Removes config (.run (inspectArgv format config.brokerName) none) := by
  rintro (hcall | hcall) <;> simp [inspectArgv, stopArgv, removeArgv] at hcall

theorem not_removes_start (hconfig : config.validate = .ok ()) {e : RunnerError}
    (h : (startCandidate config sha image candidate).Ends t (.error e)) :
    ¬ ∃ exchange ∈ t, Removes config exchange.1 := by
  obtain ⟨answer, reads, rfl, hreads⟩ := ends_startCandidate hconfig h
  rintro ⟨exchange, hexchange, hremoves⟩
  rcases List.mem_cons.mp hexchange with rfl | hexchange
  · rcases hremoves with hcall | hcall
    · exact stopArgv_ne_runtimeShape (HostCall.run.inj hcall).1.symm
    · exact removeArgv_ne_runtimeShape (HostCall.run.inj hcall).1.symm
  · have hkeeps := hreads exchange hexchange
    rcases hremoves with hcall | hcall <;> simp [hcall] at hkeeps

/-- After a raise, the image the container had is run again exactly when all went well but for
refused commands. -/
theorem Deployed.lastChange_iff {e : RunnerError} (d : Deployed config sha t (.error e))
    (hconfig : config.validate = .ok ()) {had : String} (hne : had ≠ "")
    (hother : had ≠ candidateImage sha)
    (htruth : ∀ value, FirstAnswer t (.run (inspectArgv imageFormat config.brokerName) none)
      (.ok value) → value = had) (hremoves : ∃ exchange ∈ t, Removes config exchange.1) :
    lastChange t = some (runtimeShape config had) ↔ RollsBack config had t := by
  obtain ⟨calm, answer, replaced, candidate, previous, rfl, hcalm, hstrict, -, hanswer, hends⟩ := d
  have hfirst := firstAnswer_of_calm replaced answer hcalm
  rw [List.append_cons] at hremoves hfirst htruth ⊢
  have hbefore : ¬ ∃ exchange ∈ calm ++ [⟨.run (inspectArgv imageFormat config.brokerName) none, answer⟩],
      Removes config exchange.1 := by
    rw [exists_append_iff, not_or]
    refine ⟨not_removes_of_calm hcalm, ?_⟩
    simpa using not_removes_inspect
  cases previous with
  | none =>
      have hunanswered : ∀ value, answer ≠ .ok value := by
        rintro value rfl
        obtain rfl := htruth value hfirst
        have hempty : Supervisor.inspected value = none := Except.ok.inj hanswer
        rw [Supervisor.inspected, if_neg hne] at hempty
        cases hempty
      refine iff_of_false ?_ fun h => hunanswered had (hfirst.unique h.inspected)
      rcases ends_replaceBroker_none hends with ⟨e', hstart⟩ | ⟨before, answer', rfl⟩
      · rw [exists_append_iff] at hremoves
        exact absurd hremoves (not_or.mpr ⟨hbefore, not_removes_start hconfig hstart⟩)
      · rw [← List.append_assoc, lastChange_of_later (changesState_removeArgv _ _) (by simp),
          Option.some.injEq]
        exact removeArgv_ne_runtimeShape
  | some previous =>
      obtain rfl := inspected_eq_some hanswer
      obtain rfl := htruth previous hfirst
      have hfatal : ∀ exchange ∈ calm ++
          [⟨.run (inspectArgv imageFormat config.brokerName) none, .ok previous⟩], ¬ IsFatal exchange := by
        intro exchange hexchange
        rcases List.mem_append.mp hexchange with hmem | hmem
        · exact hstrict exchange hmem
        · rw [List.mem_singleton.mp hmem, isFatal_run]
          rintro ⟨e', he', -⟩
          cases he'
      rw [lastChange_of_failed hconfig hother (failed_of_ends hconfig hends) hfatal
        fun exchange hexchange hcall => hbefore ⟨exchange, hexchange, Or.inl hcall⟩]
      exact ⟨fun h => ⟨hfirst, h.1, h.2⟩, fun h => ⟨h.stopped, h.refusals⟩⟩

/-! ## Safety of an application -/

/-- What an application of a release promises, where the container had the given image before. -/
structure SafeApplication (config : SupervisorConfig) (sha had : String) (t : List HostExchange)
    (x : Except RunnerError Outcome) : Prop where
  applied : x = .ok .applied → ReachedHealthy config sha t
  noop : x = .ok .noop → ∀ exchange ∈ t, exchange.1.changesState = false
  raised : ∀ e, x = .error e → (∃ exchange ∈ t, Removes config exchange.1) →
    lastChange t = some (runtimeShape config had)

theorem ne_of_imageId {had : String} (h : Text.startsWith had "sha256:" = true) (sha : String) :
    had ≠ "" ∧ had ≠ candidateImage sha := by
  obtain ⟨rest, hrest⟩ := Text.startsWith_iff.mp h
  have hhead : had.toList.head? = some 's' := by
    rw [hrest, List.head?_append]
    rfl
  have hcandidate : (candidateImage sha).toList.head? = some 'f' := Text.head?_append sha (by decide)
  constructor
  · rintro rfl
    cases hhead
  · rintro rfl
    rw [hcandidate] at hhead
    exact absurd (Option.some.inj hhead) (by decide)

/-! ## An application that cannot stop the container -/

def previousImage : String :=
  "sha256:2c26b46b68ffc68ff99b453c1d30413413422d706483bfa0f98a5e886266e7ae"

def candidateId : String :=
  "sha256:fcde2b2edba56bf408601fb721fe9b5c338d10ee429ea04fae5511b68fbf8fb9"

/-- What a build that succeeds issues. -/
def builtCandidate (config : SupervisorConfig) (sha : String) : List HostExchange :=
  [⟨.temporaryDirectory "fossil-broker-release-", .ok "/tmp/fossil-broker-release-0"⟩,
    ⟨.run (worktreeAddArgv config buildWorktree sha) none, .ok ""⟩,
    ⟨.run (headArgv buildWorktree) none, .ok sha⟩,
    ⟨.run (originArgv buildWorktree) none, .ok fixedOrigin⟩,
    ⟨.run (buildArgv sha (candidateImage sha)) (some buildWorktree), .ok ""⟩,
    ⟨.run (imageIdArgv (candidateImage sha)) none, .ok candidateId⟩,
    ⟨.run (smokeArgv (candidateImage sha)) none, .ok ""⟩,
    ⟨.run (worktreeRemoveArgv config buildWorktree) none, .ok ""⟩,
    ⟨.cleanup "/tmp/fossil-broker-release-0", .ok ()⟩]

/-- An application for a container that runs another revision and that docker does not stop. -/
def unstoppable (config : SupervisorConfig) (sha : String) (payload : Json) : List HostExchange :=
  verification config sha payload ++
    ([⟨.run (inspectArgv runningFormat config.brokerName) none, .ok "true"⟩,
        ⟨.run (inspectArgv revisionFormat config.brokerName) none, .ok ""⟩] ++
      (builtCandidate config sha ++
        [⟨.run (inspectArgv imageFormat config.brokerName) none, .ok previousImage⟩,
          ⟨.run (stopArgv config.brokerName) none, .error refused⟩]))

theorem ends_builtCandidate : (buildCandidate config sha (candidateImage sha)).Ends
    (builtCandidate config sha) (.ok candidateId) := by
  have hbody : (buildAndSmoke sha (candidateImage sha) buildWorktree).Ends
      [⟨.run (headArgv buildWorktree) none, .ok sha⟩,
        ⟨.run (originArgv buildWorktree) none, .ok fixedOrigin⟩,
        ⟨.run (buildArgv sha (candidateImage sha)) (some buildWorktree), .ok ""⟩,
        ⟨.run (imageIdArgv (candidateImage sha)) none, .ok candidateId⟩,
        ⟨.run (smokeArgv (candidateImage sha)) none, .ok ""⟩] (.ok candidateId) := by
    refine ⟨.ok sha, _, rfl, ends_require_bind.mpr (Or.inl ⟨decide_eq_true rfl, ?_⟩)⟩
    refine ⟨.ok fixedOrigin, _, rfl, ends_require_bind.mpr (Or.inl ⟨by decide, ?_⟩)⟩
    refine ⟨.ok "", _, rfl, .ok candidateId, _, rfl, ?_⟩
    exact ⟨.ok "", [], rfl, rfl, rfl⟩
  have hin : (buildIn config sha (candidateImage sha) buildWorktree).Ends
      ((builtCandidate config sha).tail.dropLast) (.ok candidateId) := by
    refine ⟨.ok "", _, rfl, ends_ensuring.mpr ⟨_,
      [⟨.run (worktreeRemoveArgv config buildWorktree) none, .ok ""⟩], _, .ok (), ?_, hbody, ?_, rfl⟩⟩
    · rfl
    · exact ⟨.ok "", [], rfl, rfl, rfl⟩
  refine ⟨.ok _, _, rfl, ends_ensuring.mpr ⟨_,
    [⟨.cleanup "/tmp/fossil-broker-release-0", .ok ()⟩], _, .ok (), ?_, hin, ?_, rfl⟩⟩
  · rfl
  · exact ⟨.ok (), [], rfl, rfl, rfl⟩

theorem ends_unstoppable {payload : Json} {runs : List Json} (hconfig : config.validate = .ok ())
    (hsha : isSha sha = true) (hserves : Serves runs payload) (hpassed : AllPassed (runs.take 100)) :
    (applyRelease config ⟨sha⟩).Ends (unstoppable config sha payload) (.error refused) := by
  have htag : candidateTag sha = Program.done (.ok (candidateImage sha)) := by
    rw [candidateTag, hsha]
    rfl
  have hdeploy : (deploy config sha).Ends (builtCandidate config sha ++
      [⟨.run (inspectArgv imageFormat config.brokerName) none, .ok previousImage⟩,
        ⟨.run (stopArgv config.brokerName) none, .error refused⟩]) (.error refused) := by
    rw [deploy, htag]
    refine ends_builtCandidate.bind ?_
    refine ⟨.ok previousImage, _, rfl, ?_⟩
    exact ⟨.error refused, [], rfl, rfl, rfl⟩
  have hcurrent : (isCurrent config sha).Ends
      [⟨.run (inspectArgv runningFormat config.brokerName) none, .ok "true"⟩,
        ⟨.run (inspectArgv revisionFormat config.brokerName) none, .ok ""⟩] (.ok false) := by
    refine ⟨.ok "true", _, rfl, ?_⟩
    exact ⟨.ok "", [], rfl, rfl, rfl⟩
  exact (ends_verification hconfig hsha hserves hpassed).bind (hcurrent.bind hdeploy)

theorem firstAnswer_unstoppable {payload : Json} {value : String}
    (h : FirstAnswer (unstoppable config sha payload)
      (.run (inspectArgv imageFormat config.brokerName) none) (.ok value)) : value = previousImage := by
  obtain ⟨before, after, hsplit, -⟩ := h
  have hmem : (⟨.run (inspectArgv imageFormat config.brokerName) none, .ok value⟩ : HostExchange) ∈
      unstoppable config sha payload := by
    rw [hsplit]
    exact List.mem_append_right _ List.mem_cons_self
  simpa [unstoppable, verification, builtCandidate, inspectArgv, originArgv, mainArgv, gitArgv,
    worktreeAddArgv, headArgv, buildArgv, imageIdArgv, smokeArgv, worktreeRemoveArgv, stopArgv,
    imageFormat, runningFormat, revisionFormat] using hmem

end

/-- An application is safe exactly when, if it raises after the container was stopped or removed,
the container had been inspected and stopped, and commands failed by being refused only. -/
theorem applyRelease_safe_iff (config : SupervisorConfig) (release : Release) (had : String)
    (t : List HostExchange) (x : Except RunnerError Outcome)
    (h : (applyRelease config release).Ends t x) (hid : Text.startsWith had "sha256:" = true)
    (htruth : ∀ value, FirstAnswer t (.run (inspectArgv imageFormat config.brokerName) none)
      (.ok value) → value = had) :
    SafeApplication config release.sha had t x ↔
      ∀ e, x = .error e → (∃ exchange ∈ t, Removes config exchange.1) →
        RollsBack config had t := by
  obtain ⟨hne, hother⟩ := ne_of_imageId hid release.sha
  rcases applyRelease_cases h with ⟨hnone, happlied, hnoop⟩ | ⟨hconfig, ⟨d⟩⟩
  · exact iff_of_true ⟨fun hx => absurd hx happlied, hnoop, fun _ _ hremoves => absurd hremoves hnone⟩
      fun _ _ hremoves => absurd hremoves hnone
  · constructor
    · rintro hsafe e rfl hremoves
      exact (d.lastChange_iff hconfig hne hother htruth hremoves).mp (hsafe.raised e rfl hremoves)
    · refine fun hrolls => ⟨?_, ?_, ?_⟩
      · rintro rfl
        exact d.reachedHealthy hconfig
      · rintro rfl
        cases ends_replaceBroker_ok d.ends
      · rintro e rfl hremoves
        exact (d.lastChange_iff hconfig hne hother htruth hremoves).mpr (hrolls e rfl hremoves)

/-- One check run, completed with success. -/
theorem allPassed_success : AllPassed ([checkRun "success"].take 100) := by
  refine ⟨List.cons_ne_nil _ _, fun run hrun => ?_⟩
  rw [List.mem_singleton.mp hrun]
  decide +kernel

theorem lastChange_unstoppable {config : SupervisorConfig} {sha : String} {payload : Json} :
    lastChange (unstoppable config sha payload) = some (stopArgv config.brokerName) := by
  rw [unstoppable, List.append_cons _ (⟨.run (inspectArgv imageFormat config.brokerName) none, .ok previousImage⟩ : HostExchange),
    ← List.append_assoc, ← List.append_assoc]
  exact lastChange_of_later (changesState_stopArgv _ _) (by simp)

theorem valid_sampleConfig : sampleConfig.validate = .ok () := by decide +kernel

theorem isSha_sampleSha : isSha sampleSha = true := by decide +kernel

theorem unstoppable_safe_iff :
    SafeApplication sampleConfig sampleSha previousImage
        (unstoppable sampleConfig sampleSha (firstPage [checkRun "success"])) (.error refused) ↔
      ∀ e, (.error refused : Except RunnerError Outcome) = .error e →
        (∃ exchange ∈ unstoppable sampleConfig sampleSha (firstPage [checkRun "success"]),
          Removes sampleConfig exchange.1) →
        RollsBack sampleConfig previousImage
          (unstoppable sampleConfig sampleSha (firstPage [checkRun "success"])) := by
  have hends := @ends_unstoppable sampleConfig sampleSha (firstPage [checkRun "success"])
    [checkRun "success"] valid_sampleConfig isSha_sampleSha (serves_firstPage _) allPassed_success
  exact applyRelease_safe_iff sampleConfig ⟨sampleSha⟩ previousImage _ _ hends (by decide +kernel)
    fun _ => firstAnswer_unstoppable

theorem not_safe_of_unstoppable {config : SupervisorConfig} {sha : String}
    (hconfig : config.validate = .ok ()) (hsha : isSha sha = true) :
    ∃ t x, (applyRelease config ⟨sha⟩).Ends t x ∧
      (∀ value, FirstAnswer t (.run (inspectArgv imageFormat config.brokerName) none)
        (.ok value) → value = previousImage) ∧ ¬ SafeApplication config sha previousImage t x := by
  refine ⟨_, _, ends_unstoppable hconfig hsha (serves_firstPage _) allPassed_success,
    fun _ => firstAnswer_unstoppable, fun hsafe => ?_⟩
  have hlast := hsafe.raised refused rfl
    ⟨⟨.run (stopArgv config.brokerName) none, .error refused⟩, by simp [unstoppable], Or.inl rfl⟩
  rw [lastChange_unstoppable, Option.some.injEq] at hlast
  exact stopArgv_ne_runtimeShape hlast

/-- When `docker stop` fails, the application raises and no image is run again. -/
theorem unstoppable_not_safe : ∃ t x, (applyRelease sampleConfig ⟨sampleSha⟩).Ends t x ∧
    (∀ value, FirstAnswer t (.run (inspectArgv imageFormat sampleConfig.brokerName) none)
      (.ok value) → value = previousImage) ∧
    ¬ SafeApplication sampleConfig sampleSha previousImage t x :=
  not_safe_of_unstoppable valid_sampleConfig isSha_sampleSha

end Supervisor

end FossilCore
