import FossilCore.TrustedLocal.ReleaseRollback

/-!
# A pass over the release directives

On a host where every command for one commit succeeds, a pass of the supervisor ends with the
broker running that commit exactly when the first directive of the queue names it, or the broker ran
it before.  A directive of another commit raises out of the loop, so that none after it is applied.
-/

namespace FossilCore

namespace Supervisor

open Base Base.Program

/-- A container of the broker. -/
structure Container where
  image : String
  revision : String
  up : Bool
  image_ne : image ≠ ""
  deriving DecidableEq

/-- Is the call none that replaces the container: no docker command, an inspection, a build of a
candidate or its smoke run? -/
def spares (sha : String) : HostCall → Bool
  | .run argv cwd => !(HostCall.run argv cwd).changesState ∨
      argv = buildArgv sha (candidateImage sha) ∨ argv = smokeArgv (candidateImage sha)
  | _ => true

/-- The worktree in a temporary directory. -/
def worktreeOf (temporary : String) : String := temporary ++ "/source"

/-- The answer to an inspection of the container. -/
def reading (container : Option Container) (field : Container → String) :
    Except RunnerError String :=
  match container with
  | some c => .ok (field c)
  | none => .error refused

/-- A host on which the commands for a commit succeed. -/
structure GoodHost {σ : Type} (handler : (r : HostCall) → σ → r.Answer × σ)
    (config : SupervisorConfig) (sha : String) where
  broker : σ → Option Container
  spared : ∀ r s, spares sha r = true → broker (handler r s).2 = broker s
  origin : String
  main : String
  payload : Json
  checks : List Json
  temporary : String
  candidate : String
  candidate_ne : candidate ≠ ""
  fixed : isFixedOrigin origin = true
  head : (Text.words main).head? = some sha
  served : payload.get? "check_runs" = some (.arr checks)
  passed : AllPassed checks
  origin_answer : ∀ s, (handler (.run (originArgv config.repositoryPath) none) s).1 = .ok origin
  main_answer : ∀ s, (handler (.run (mainArgv config) none) s).1 = .ok main
  checks_answer : ∀ s, (handler (.get (checkRunsUrl sha)) s).1 = .ok payload
  running_answer : ∀ s, (handler (.run (inspectArgv runningFormat config.brokerName) none) s).1 =
    reading (broker s) fun c => if c.up then "true" else "false"
  image_answer : ∀ s, (handler (.run (inspectArgv imageFormat config.brokerName) none) s).1 =
    reading (broker s) Container.image
  revision_answer : ∀ s,
    (handler (.run (inspectArgv revisionFormat config.brokerName) none) s).1 =
      reading (broker s) Container.revision
  temporary_answer : ∀ s,
    (handler (.temporaryDirectory "fossil-broker-release-") s).1 = .ok temporary
  cleanup_answer : ∀ s, (handler (.cleanup temporary) s).1 = .ok ()
  added : ∀ s, ∃ output, (handler (.run (worktreeAddArgv config (worktreeOf temporary) sha) none) s).1 =
    .ok output
  head_answer : ∀ s, (handler (.run (headArgv (worktreeOf temporary)) none) s).1 = .ok sha
  worktree_answer : ∀ s, (handler (.run (originArgv (worktreeOf temporary)) none) s).1 = .ok origin
  built : ∀ s, ∃ output, (handler (.run (buildArgv sha (candidateImage sha))
    (some (worktreeOf temporary))) s).1 = .ok output
  identified : ∀ s, (handler (.run (imageIdArgv (candidateImage sha)) none) s).1 = .ok candidate
  smoked : ∀ s, ∃ output, (handler (.run (smokeArgv (candidateImage sha)) none) s).1 = .ok output
  dropped : ∀ s, ∃ output,
    (handler (.run (worktreeRemoveArgv config (worktreeOf temporary)) none) s).1 = .ok output
  stopped : ∀ s c, broker s = some c → ∃ output,
    (handler (.run (stopArgv config.brokerName) none) s).1 = .ok output
  removed : ∀ s, (∃ output, (handler (.run (removeArgv config.brokerName) none) s).1 = .ok output) ∧
    broker (handler (.run (removeArgv config.brokerName) none) s).2 = none
  started : ∀ s, broker s = none → (∃ output,
      (handler (.run (runtimeShape config (candidateImage sha)) none) s).1 = .ok output) ∧
    broker (handler (.run (runtimeShape config (candidateImage sha)) none) s).2 =
      some ⟨candidate, sha, true, candidate_ne⟩
  awaited : ∀ s, broker s = some ⟨candidate, sha, true, candidate_ne⟩ →
    ((healthy config.brokerName).run handler s).1 = .ok true

/-- The broker runs a commit. -/
def Runs (container : Option Container) (sha : String) : Prop :=
  ∃ c, container = some c ∧ c.up = true ∧ c.revision = sha

/-! ## Runs of the parts -/

section

variable {σ : Type} {handler : (r : HostCall) → σ → r.Answer × σ} {α : Type} {s : σ}

theorem run_hostRun_bind {argv : List String} {cwd : Option String} {output : String}
    {f : String → Supervised α} (h : (handler (.run argv cwd) s).1 = .ok output) :
    (hostRun argv cwd >>= f).run handler s = (f output).run handler (handler (.run argv cwd) s).2 :=
  run_bind_ok handler (Prod.ext h rfl)

theorem run_hostRun_skip {argv : List String} {cwd : Option String} {p : Supervised α}
    (h : ∃ output, (handler (.run argv cwd) s).1 = .ok output) :
    (hostRun argv cwd >>= fun _ => p).run handler s = p.run handler (handler (.run argv cwd) s).2 :=
  run_hostRun_bind h.choose_spec

theorem require_bind {condition : Bool} {message : String} {f : Unit → Supervised α}
    (h : condition = true) : (require condition message >>= f) = f () := by
  subst h
  rfl

theorem run_inspect (format name : String) : (inspect format name).run handler s =
    (unlessRefused inspected none (handler (.run (inspectArgv format name) none) s).1,
      (handler (.run (inspectArgv format name) none) s).2) :=
  congrArg (fun p : Supervised (Option String) => p.run handler s) (orIfRefused_eq _ _ _)

variable {config : SupervisorConfig} {sha : String}

theorem inspected_reading (container : Option Container) {field : Container → String}
    (h : ∀ c, container = some c → field c ≠ "") :
    unlessRefused inspected none (reading container field) = .ok (container.map field) := by
  cases container with
  | none => rfl
  | some c => exact congrArg Except.ok (if_neg (h c rfl))

/-! ### What leaves the container as it is -/

theorem spares_inspect (format : String) :
    spares sha (.run (inspectArgv format config.brokerName) none) = true := by
  simp [spares, HostCall.changesState, inspectArgv]

theorem verifyRelease_spares (release : Release) : (verifyRelease config release).Quiet (spares sha) := by
  apply quiet_verifyRelease
  · simp [spares, HostCall.changesState, originArgv, gitArgv]
  · simp [spares, HostCall.changesState, mainArgv, gitArgv]
  · exact fun _ => rfl

theorem running_spares : (running config.brokerName).Quiet (spares sha) :=
  Quiet.bind (quiet_orIfRefused (spares_inspect runningFormat)) fun _ => trivial

theorem isCurrent_spares (sha' : String) : (isCurrent config sha').Quiet (spares sha) :=
  quiet_isCurrent fun format _ => spares_inspect format

theorem buildCandidate_spares : (buildCandidate config sha (candidateImage sha)).Quiet (spares sha) := by
  apply quiet_buildCandidate
  · exact fun _ => rfl
  · exact fun _ => rfl
  · simp [spares, HostCall.changesState, worktreeAddArgv, worktreeRemoveArgv, headArgv, originArgv,
      gitArgv]
  · simp [spares, HostCall.changesState, imageIdArgv]

theorem reached_spares {candidate : String} : (reached config sha candidate).Quiet (spares sha) :=
  quiet_reached spares_inspect fun _ => rfl

theorem inspect_spares (format : String) : (inspect format config.brokerName).Quiet (spares sha) :=
  quiet_orIfRefused (spares_inspect format)

theorem GoodHost.keeps (host : GoodHost handler config sha) (p : Supervised α)
    (hp : p.Quiet (spares sha)) (s : σ) : host.broker (p.run handler s).2 = host.broker s :=
  hp.run_eq handler host.spared s

/-! ### Results -/

theorem GoodHost.run_verifyOriginAndMain (host : GoodHost handler config sha) (sha' : String) :
    ((verifyOriginAndMain config sha').run handler s).1 = if sha = sha' then .ok () else
      .error (.supervisorError "reviewed_sha is not live origin/main") := by
  rw [verifyOriginAndMain, run_hostRun_bind (host.origin_answer s), require_bind host.fixed,
    run_hostRun_bind (host.main_answer _), host.head]
  by_cases h : sha = sha'
  · subst h
    rw [if_pos rfl, decide_eq_true rfl]
    rfl
  · rw [if_neg h, decide_eq_false fun heq => h (Option.some.inj heq)]
    rfl

theorem GoodHost.run_checksSuccessful (host : GoodHost handler config sha) (hsha : isSha sha = true) :
    ((checksSuccessful sha).run handler s).1 = .ok true := by
  have htruthy : (Json.arr host.checks).truthy = true := decide_eq_true host.passed.1
  have hpayload : checksPassed host.payload = Program.done (.ok true) := by
    rw [checksPassed, host.served, Option.getD_some, htruthy]
    exact congrArg (fun b => Program.done (.ok b)) (List.all_eq_true.mpr host.passed.2)
  rw [checksSuccessful, if_neg (by simp [hsha])]
  have hget : ((hostGet (checkRunsUrl sha)).follow orUnread).run handler s =
      (.ok (some host.payload), (handler (.get (checkRunsUrl sha)) s).2) := by
    rw [run_follow]
    show (orUnread (handler (.get (checkRunsUrl sha)) s).1).run handler _ = _
    rw [host.checks_answer s]
    rfl
  rw [run_bind_ok handler hget]
  show ((checksPassed host.payload).run handler _).1 = _
  rw [hpayload]
  rfl

theorem GoodHost.run_verifyRelease (host : GoodHost handler config sha)
    (hconfig : config.validate = .ok ()) (hsha : isSha sha = true) :
    ((verifyRelease config ⟨sha⟩).run handler s).1 = .ok () := by
  have horigin := host.run_verifyOriginAndMain (s := s) sha
  rw [if_pos rfl] at horigin
  rw [verifyRelease, hconfig]
  show ((require (isSha sha) _ >>= _).run handler s).1 = _
  rw [require_bind hsha, run_bind_ok handler (Prod.ext horigin rfl),
    run_bind_ok handler (Prod.ext (host.run_checksSuccessful hsha) rfl)]
  rfl

theorem GoodHost.run_verifyRelease_other (host : GoodHost handler config sha) {sha' : String}
    (hconfig : config.validate = .ok ()) (hsha : isSha sha' = true) (hne : sha ≠ sha') :
    ∃ e, ((verifyRelease config ⟨sha'⟩).run handler s).1 = .error e := by
  have horigin := host.run_verifyOriginAndMain (s := s) sha'
  rw [if_neg hne] at horigin
  refine ⟨.supervisorError "reviewed_sha is not live origin/main", ?_⟩
  rw [verifyRelease, hconfig]
  show ((require (isSha sha') _ >>= _).run handler s).1 = _
  rw [require_bind hsha, run_bind_error handler (Prod.ext horigin rfl)]

theorem GoodHost.run_running (host : GoodHost handler config sha) :
    ((running config.brokerName).run handler s).1 = .ok ((host.broker s).any Container.up) := by
  have hfield : ∀ c, host.broker s = some c → (if c.up then "true" else "false") ≠ "" := by
    intro c _
    cases c.up <;> decide
  rw [running, run_bind_pure, run_inspect, host.running_answer, inspected_reading _ hfield]
  cases host.broker s with
  | none => rfl
  | some c =>
      show Except.ok (decide (some (if c.up then "true" else "false") = some "true")) = .ok c.up
      cases c.up <;> rfl

theorem GoodHost.run_containerRevision (host : GoodHost handler config sha) {c : Container}
    (hc : host.broker s = some c) :
    ((containerRevision config.brokerName).run handler s).1 =
      .ok (if c.revision = "" then none else some c.revision) := by
  rw [containerRevision, run_inspect, host.revision_answer, hc]
  rfl

theorem GoodHost.run_containerImage (host : GoodHost handler config sha) :
    ((containerImage config.brokerName).run handler s).1 =
      .ok ((host.broker s).map Container.image) := by
  rw [containerImage, run_inspect, host.image_answer]
  exact inspected_reading _ fun c _ => c.image_ne

theorem ne_empty_of_isSha (hsha : isSha sha = true) : sha ≠ "" := by
  rintro rfl
  exact absurd hsha (by decide)

theorem runs_some {c : Container} : Runs (some c) sha ↔ c.up = true ∧ c.revision = sha := by
  constructor
  · rintro ⟨_, hsome, h⟩
    obtain rfl := Option.some.inj hsome
    exact h
  · exact fun h => ⟨c, rfl, h⟩

theorem GoodHost.run_isCurrent (host : GoodHost handler config sha) (hsha : isSha sha = true) :
    ∃ current, ((isCurrent config sha).run handler s).1 = .ok current ∧
      (current = true ↔ Runs (host.broker s) sha) := by
  have hkept := host.keeps (running config.brokerName) running_spares s
  rw [isCurrent, run_bind_ok handler (Prod.ext host.run_running rfl)]
  cases hc : host.broker s with
  | none =>
      refine ⟨false, rfl, ?_⟩
      simp [Runs]
  | some c =>
      rw [hc] at hkept
      rw [runs_some, Option.any_some]
      cases hup : c.up with
      | false => exact ⟨false, rfl, by simp⟩
      | true =>
          refine ⟨decide (c.revision = sha), ?_, by simp⟩
          show ((containerRevision config.brokerName >>= _).run handler _).1 = _
          rw [run_bind_ok handler (Prod.ext (host.run_containerRevision hkept) rfl)]
          show Except.ok (decide ((if c.revision = "" then none else some c.revision) = some sha)) = _
          congr 2
          by_cases hempty : c.revision = ""
          · simp [hempty, (ne_empty_of_isSha hsha).symm]
          · simp [hempty]

/-! ### Applying the release -/

theorem GoodHost.run_buildAndSmoke (host : GoodHost handler config sha) :
    ((buildAndSmoke sha (candidateImage sha) (worktreeOf host.temporary)).run handler s).1 =
      .ok host.candidate := by
  have hid (s : σ) : (imageId (candidateImage sha)).run handler s =
      (.ok host.candidate, (handler (.run (imageIdArgv (candidateImage sha)) none) s).2) := by
    rw [imageId, run_hostRun_bind (host.identified s), require_bind (decide_eq_true host.candidate_ne)]
    rfl
  rw [buildAndSmoke, run_hostRun_bind (host.head_answer s), require_bind (decide_eq_true rfl),
    run_hostRun_bind (host.worktree_answer _), require_bind host.fixed, run_hostRun_skip (host.built _),
    run_bind_ok handler (hid _), run_hostRun_skip (host.smoked _)]
  rfl

theorem GoodHost.run_buildCandidate (host : GoodHost handler config sha) :
    ((buildCandidate config sha (candidateImage sha)).run handler s).1 = .ok host.candidate := by
  have hdrop (s : σ) : (do
      let _ ← hostRun (worktreeRemoveArgv config (worktreeOf host.temporary))
      return () : Supervised Unit).run handler s =
        (.ok (), (handler (.run (worktreeRemoveArgv config (worktreeOf host.temporary)) none) s).2) := by
    rw [run_hostRun_skip (host.dropped s)]
    rfl
  have hin (s : σ) : ∃ s', (buildIn config sha (candidateImage sha) (worktreeOf host.temporary)).run
      handler s = (.ok host.candidate, s') := by
    rw [buildIn, run_hostRun_skip (host.added s)]
    exact ⟨_, run_ensuring handler (Prod.ext host.run_buildAndSmoke rfl) (hdrop _)⟩
  have htemporary : (Program.request (.temporaryDirectory "fossil-broker-release-") .done :
      Supervised String).run handler s = (.ok host.temporary,
        (handler (.temporaryDirectory "fossil-broker-release-") s).2) :=
    Prod.ext (host.temporary_answer s) rfl
  rw [buildCandidate, run_bind_ok handler htemporary]
  obtain ⟨s', hrun⟩ := hin (handler (.temporaryDirectory "fossil-broker-release-") s).2
  have hcleanup : (Program.request (.cleanup host.temporary) .done : Supervised Unit).run handler s' =
      (.ok (), (handler (.cleanup host.temporary) s').2) := Prod.ext (host.cleanup_answer s') rfl
  exact congrArg Prod.fst (run_ensuring handler hrun hcleanup)

theorem run_remove (name : String) : (remove name).run handler s =
    (unlessRefused (fun _ => ()) () (handler (.run (removeArgv name) none) s).1,
      (handler (.run (removeArgv name) none) s).2) :=
  congrArg (fun p : Supervised Unit => p.run handler s) (orIfRefused_eq _ _ _)

/-- A container that was inspected is stopped and removed, so that none is left. -/
theorem GoodHost.run_stopPrevious (host : GoodHost handler config sha) {previous : Option String}
    (hprevious : previous = (host.broker s).map Container.image) : ∃ s',
      (stopPrevious config previous).run handler s = (.ok (), s') ∧ host.broker s' = none := by
  subst hprevious
  cases hc : host.broker s with
  | none => exact ⟨s, rfl, hc⟩
  | some c =>
      show ∃ s', (hostRun (stopArgv config.brokerName) >>= fun _ => remove config.brokerName).run
        handler s = _ ∧ _
      rw [run_hostRun_skip (host.stopped s c hc), run_remove]
      obtain ⟨⟨output, houtput⟩, hnone⟩ :=
        host.removed (handler (.run (stopArgv config.brokerName) none) s).2
      rw [houtput]
      exact ⟨_, rfl, hnone⟩

/-- The candidate that was started is read as what it is. -/
theorem GoodHost.run_reached (host : GoodHost handler config sha) (hsha : isSha sha = true)
    (hc : host.broker s = some ⟨host.candidate, sha, true, host.candidate_ne⟩) :
    ((reached config sha host.candidate).run handler s).1 = .ok true := by
  have hup : ((running config.brokerName).run handler s).1 = .ok true := by
    rw [host.run_running, hc]
    rfl
  have hc₁ := (host.keeps (running config.brokerName) running_spares s).trans hc
  have himage : ((containerImage config.brokerName).run handler
      ((running config.brokerName).run handler s).2).1 = .ok (some host.candidate) := by
    rw [host.run_containerImage, hc₁]
    rfl
  have hc₂ := (host.keeps (containerImage config.brokerName) (inspect_spares imageFormat) _).trans hc₁
  have hrevision := host.run_containerRevision hc₂
  rw [if_neg (ne_empty_of_isSha hsha)] at hrevision
  have hc₃ := (host.keeps (containerRevision config.brokerName)
    (inspect_spares revisionFormat) _).trans hc₂
  rw [reached, run_bind_ok handler (Prod.ext hup rfl)]
  show ((containerImage config.brokerName >>= _).run handler _).1 = _
  rw [run_bind_ok handler (Prod.ext himage rfl), if_neg (not_not.mpr rfl)]
  show ((containerRevision config.brokerName >>= _).run handler _).1 = _
  rw [run_bind_ok handler (Prod.ext hrevision rfl), if_neg (not_not.mpr rfl)]
  exact host.awaited _ hc₃

theorem GoodHost.run_startCandidate (host : GoodHost handler config sha)
    (hconfig : config.validate = .ok ()) (hsha : isSha sha = true) (hnone : host.broker s = none) :
    ∃ s', (startCandidate config sha (candidateImage sha) host.candidate).run handler s =
      (.ok (), s') ∧ Runs (host.broker s') sha := by
  obtain ⟨hstarted, hbroker⟩ := host.started s hnone
  rw [startCandidate, runBroker_eq hconfig, run_hostRun_skip hstarted,
    run_bind_ok handler (Prod.ext (host.run_reached hsha hbroker) rfl)]
  refine ⟨_, rfl, ?_⟩
  have hkept := (host.keeps (reached config sha host.candidate) reached_spares _).trans hbroker
  exact ⟨_, hkept, rfl, rfl⟩

theorem GoodHost.run_deploy (host : GoodHost handler config sha)
    (hconfig : config.validate = .ok ()) (hsha : isSha sha = true) : ∃ s',
      (deploy config sha).run handler s = (.ok .applied, s') ∧ Runs (host.broker s') sha := by
  have htag : candidateTag sha = Program.done (.ok (candidateImage sha)) := by
    rw [candidateTag, hsha]
    rfl
  rw [deploy, htag]
  show ∃ s', ((buildCandidate config sha (candidateImage sha) >>= _).run handler s) = _ ∧ _
  rw [run_bind_ok handler (Prod.ext host.run_buildCandidate rfl),
    run_bind_ok handler (Prod.ext host.run_containerImage rfl)]
  have hkept := host.keeps (containerImage config.brokerName) (inspect_spares imageFormat)
    ((buildCandidate config sha (candidateImage sha)).run handler s).2
  obtain ⟨s₁, hstopped, hnone⟩ := host.run_stopPrevious (congrArg _ hkept.symm)
  obtain ⟨s₂, hstarted, hruns⟩ := host.run_startCandidate hconfig hsha hnone
  rw [replaceBroker, run_bind_ok handler hstopped,
    run_bind_ok handler (run_catching_ok handler hstarted)]
  exact ⟨s₂, rfl, hruns⟩

/-! ### The loop -/

theorem readComments_spares : readComments.Quiet (spares sha) := by
  have hpages (left page : ℕ) (comments : List Comment) :
      (readPages left page comments).Quiet (spares sha) := by
    induction left generalizing page comments with
    | zero => trivial
    | succ left ih =>
        refine Quiet.bind ⟨rfl, fun _ => trivial⟩ fun data => (quiet_require _ _).bind fun _ => ?_
        dsimp only
        split
        · trivial
        · exact ih _ _
  refine (hpages 100 1 []).catching fun e => ?_
  split <;> trivial

/-- A release of the commit is applied, or current already. -/
theorem GoodHost.run_applyRelease (host : GoodHost handler config sha)
    (hconfig : config.validate = .ok ()) (hsha : isSha sha = true) (s : σ) : ∃ outcome s',
      (applyRelease config ⟨sha⟩).run handler s = (.ok outcome, s') ∧ Runs (host.broker s') sha := by
  have hverified := host.keeps (verifyRelease config ⟨sha⟩) (verifyRelease_spares _) s
  obtain ⟨current, hcurrent, hiff⟩ :=
    host.run_isCurrent (s := ((verifyRelease config ⟨sha⟩).run handler s).2) hsha
  have hread := host.keeps (isCurrent config sha) (isCurrent_spares _)
    ((verifyRelease config ⟨sha⟩).run handler s).2
  rw [applyRelease, run_bind_ok handler (Prod.ext (host.run_verifyRelease hconfig hsha) rfl),
    run_bind_ok handler (Prod.ext hcurrent rfl)]
  cases current with
  | true =>
      refine ⟨.noop, _, rfl, ?_⟩
      rw [hread]
      exact hiff.mp rfl
  | false =>
      obtain ⟨s', hdeploy, hruns⟩ := host.run_deploy (s := ((isCurrent config sha).run handler
        ((verifyRelease config ⟨sha⟩).run handler s).2).2) hconfig hsha
      exact ⟨.applied, s', hdeploy, hruns⟩

/-- A release of another commit raises and leaves the broker as it is. -/
theorem GoodHost.run_applyRelease_other (host : GoodHost handler config sha) {sha' : String}
    (hconfig : config.validate = .ok ()) (hsha : isSha sha' = true) (hne : sha ≠ sha') (s : σ) :
    ∃ e s', (applyRelease config ⟨sha'⟩).run handler s = (.error e, s') ∧
      host.broker s' = host.broker s := by
  obtain ⟨e, he⟩ := host.run_verifyRelease_other (s := s) hconfig hsha hne
  refine ⟨e, ((verifyRelease config ⟨sha'⟩).run handler s).2, ?_, ?_⟩
  · rw [applyRelease, run_bind_error handler (Prod.ext he rfl)]
  · exact host.keeps (verifyRelease config ⟨sha'⟩) (verifyRelease_spares _) s

theorem GoodHost.runs_after (host : GoodHost handler config sha)
    (hconfig : config.validate = .ok ()) {releases : List Release}
    (hreleases : ∀ release ∈ releases, isSha release.sha = true) {s : σ}
    (h : Runs (host.broker s) sha) :
    Runs (host.broker ((forEach (applyRelease config) releases).run handler s).2) sha := by
  refine run_forEach_keeps handler (fun s => Runs (host.broker s) sha) ?_ h
  rintro ⟨sha'⟩ hmem s hs
  by_cases hne : sha = sha'
  · subst hne
    obtain ⟨outcome, s', hrun, hruns⟩ := host.run_applyRelease hconfig (hreleases _ hmem) s
    rw [hrun]
    exact hruns
  · obtain ⟨e, s', hrun, hkept⟩ :=
      host.run_applyRelease_other hconfig (hreleases _ hmem) hne s
    rw [hrun]
    exact hkept.symm ▸ hs

theorem GoodHost.run_releases_iff (host : GoodHost handler config sha)
    (hconfig : config.validate = .ok ()) {releases : List Release}
    (hreleases : ∀ release ∈ releases, isSha release.sha = true) (hne : releases ≠ []) (s : σ) :
    Runs (host.broker ((forEach (applyRelease config) releases).run handler s).2) sha ↔
      releases.head? = some ⟨sha⟩ ∨ Runs (host.broker s) sha := by
  cases releases with
  | nil => exact absurd rfl hne
  | cons first rest =>
      obtain ⟨sha'⟩ := first
      have hsha' := hreleases ⟨sha'⟩ List.mem_cons_self
      have hrest : ∀ release ∈ rest, isSha release.sha = true :=
        fun release hmem => hreleases release (List.mem_cons_of_mem _ hmem)
      rw [forEach, List.head?_cons, Option.some.injEq, Release.mk.injEq]
      by_cases hother : sha = sha'
      · subst hother
        obtain ⟨outcome, s', hrun, hruns⟩ := host.run_applyRelease hconfig hsha' s
        rw [run_bind_ok handler hrun, run_bind_pure]
        exact iff_of_true (host.runs_after hconfig hrest hruns) (Or.inl rfl)
      · obtain ⟨e, s', hrun, hkept⟩ := host.run_applyRelease_other hconfig hsha' hother s
        rw [run_bind_error handler hrun, hkept]
        exact ⟨Or.inr, fun h => h.resolve_left fun heq => hother heq.symm⟩

end

/-- On a host on which the commands for a commit succeed, a pass over a queue that names it ends with
the broker running it exactly when the first directive names it or the broker ran it before. -/
theorem pass_runs_iff {σ : Type} (handler : (r : HostCall) → σ → r.Answer × σ)
    (config : SupervisorConfig) (sha : String) (host : GoodHost handler config sha)
    (queue : List Comment) (s : σ) (hconfig : config.validate = .ok ())
    (hqueue : (readComments.run handler s).1 = .ok queue)
    (hnamed : ∃ comment ∈ queue, Names comment sha) :
    Runs (host.broker ((supervisorPass config).run handler s).2) sha ↔
      (parseReleaseDirectives queue).head? = some ⟨sha⟩ ∨ Runs (host.broker s) sha := by
  have hreleases : ∀ release ∈ parseReleaseDirectives queue, isSha release.sha = true := by
    intro release hrelease
    obtain ⟨-, -, -, -, -, -, -, -, -, hsha⟩ := mem_parseReleaseDirectives.mp hrelease
    exact hsha
  have hmem : (⟨sha⟩ : Release) ∈ parseReleaseDirectives queue :=
    mem_parseReleaseDirectives.mpr hnamed
  have hne := List.ne_nil_of_mem hmem
  rw [supervisorPass, run_bind_ok handler (Prod.ext hqueue rfl),
    host.run_releases_iff hconfig hreleases hne, host.keeps readComments readComments_spares]

/-! ## A host -/

section

variable (config : SupervisorConfig) (sha : String)

def candidateContainer : Container := ⟨candidateId, sha, true, by decide⟩

/-- The answers that do not change the container. -/
def answerOf (argv : List String) (broker : Option Container) : Except RunnerError String :=
  if argv = mainArgv config then .ok (sha ++ "\t" ++ "refs/heads/main")
  else if argv = headArgv buildWorktree then .ok sha
  else if argv = imageIdArgv (candidateImage sha) then .ok candidateId
  else if argv = inspectArgv runningFormat config.brokerName then
    reading broker fun c => if c.up then "true" else "false"
  else if argv = inspectArgv imageFormat config.brokerName then reading broker Container.image
  else if argv = inspectArgv revisionFormat config.brokerName then
    reading broker Container.revision
  else if argv = inspectArgv healthFormat config.brokerName then .ok "healthy"
  else .ok fixedOrigin

/-- A host with one container at most, for a queue of one page. -/
def hostStep (page : Json) : (r : HostCall) → Option Container → r.Answer × Option Container
  | .get url, broker =>
      (.ok (if url = checkRunsUrl sha then firstPage [checkRun "success"] else page), broker)
  | .temporaryDirectory _, broker => (.ok "/tmp/fossil-broker-release-0", broker)
  | .cleanup _, broker => (.ok (), broker)
  | .sleep _, broker => ((), broker)
  | .run argv _, broker =>
      if argv = stopArgv config.brokerName then
        (.ok "", broker.map fun c => { c with up := false })
      else if argv = removeArgv config.brokerName then (.ok "", none)
      else if argv = runtimeShape config (candidateImage sha) then
        (.ok "", some (broker.getD (candidateContainer sha)))
      else (answerOf config sha argv broker, broker)

end

section

variable {config : SupervisorConfig} {sha : String} {page : Json} {argv : List String}
  {cwd : Option String} {broker : Option Container}

theorem hostStep_run (h : spares sha (.run argv cwd) = true) :
    hostStep config sha page (.run argv cwd) broker = (answerOf config sha argv broker, broker) := by
  have hstop : argv ≠ stopArgv config.brokerName := by
    rintro rfl
    simp [spares, stopArgv, buildArgv, smokeArgv, HostCall.changesState] at h
  have hremove : argv ≠ removeArgv config.brokerName := by
    rintro rfl
    simp [spares, removeArgv, buildArgv, smokeArgv, HostCall.changesState] at h
  have hrun : argv ≠ runtimeShape config (candidateImage sha) := by
    rintro rfl
    simp [spares, runtimeShape, buildArgv, smokeArgv, HostCall.changesState] at h
  simp only [hostStep, if_neg hstop, if_neg hremove, if_neg hrun]

theorem hostStep_spared (r : HostCall) (broker : Option Container) (h : spares sha r = true) :
    (hostStep config sha page r broker).2 = broker := by
  cases r with
  | get | temporaryDirectory | cleanup | sleep => rfl
  | run argv cwd => rw [hostStep_run h]

theorem hostStep_stop : hostStep config sha page (.run (stopArgv config.brokerName) none) broker =
    (.ok "", broker.map fun c => { c with up := false }) := if_pos rfl

theorem hostStep_remove :
    hostStep config sha page (.run (removeArgv config.brokerName) none) broker = (.ok "", none) := by
  have hstop : removeArgv config.brokerName ≠ stopArgv config.brokerName := by
    simp [removeArgv, stopArgv]
  simp only [hostStep, if_neg hstop, if_pos]

theorem hostStep_start :
    hostStep config sha page (.run (runtimeShape config (candidateImage sha)) none) broker =
      (.ok "", some (broker.getD (candidateContainer sha))) := by
  simp only [hostStep, if_neg stopArgv_ne_runtimeShape.symm, if_neg removeArgv_ne_runtimeShape.symm,
    if_pos]

theorem answerOf_head : answerOf config sha (headArgv buildWorktree) broker = .ok sha := by
  have hmain : headArgv buildWorktree ≠ mainArgv config := by simp [headArgv, mainArgv, gitArgv]
  rw [answerOf, if_neg hmain, if_pos rfl]

theorem answerOf_health :
    answerOf config sha (inspectArgv healthFormat config.brokerName) broker = .ok "healthy" := by
  have hrunning : healthFormat ≠ runningFormat := by decide
  have himage : healthFormat ≠ imageFormat := by decide
  have hrevision : healthFormat ≠ revisionFormat := by decide
  simp [answerOf, mainArgv, headArgv, imageIdArgv, inspectArgv, gitArgv, hrunning, himage, hrevision]

theorem run_healthy : ((healthy config.brokerName).run (hostStep config sha page) broker).1 =
    .ok true := by
  have hhealth : (healthStatus config.brokerName).run (hostStep config sha page) broker =
      (.ok (some "healthy"), broker) := by
    rw [healthStatus, run_inspect, hostStep_run (spares_inspect _), answerOf_health]
    rfl
  show ((awaitHealthy config.brokerName (7 + 1)).run (hostStep config sha page) broker).1 = _
  rw [awaitHealthy, run_bind_ok _ hhealth, if_pos rfl]
  rfl

end

/-- The host is one on which the commands for the commit succeed. -/
def goodHost (config : SupervisorConfig) {sha : String} (hsha : isSha sha = true) (page : Json) :
    GoodHost (hostStep config sha page) config sha where
  broker := id
  spared := hostStep_spared
  origin := fixedOrigin
  main := sha ++ "\t" ++ "refs/heads/main"
  payload := firstPage [checkRun "success"]
  checks := [checkRun "success"]
  temporary := "/tmp/fossil-broker-release-0"
  candidate := candidateId
  candidate_ne := by decide
  fixed := by decide
  head := by
    rw [Text.words_token_append (isToken_of_isSha hsha) rfl (by decide)]
    rfl
  served := rfl
  passed := allPassed_success
  origin_answer := fun s => by
    rw [hostStep_run (by simp [spares, HostCall.changesState, originArgv, gitArgv])]
    simp [answerOf, originArgv, mainArgv, headArgv, imageIdArgv, inspectArgv, gitArgv]
  main_answer := fun s => by
    rw [hostStep_run (by simp [spares, HostCall.changesState, mainArgv, gitArgv]), answerOf, if_pos rfl]
  checks_answer := fun s => congrArg Except.ok (if_pos rfl)
  running_answer := fun s => by
    rw [hostStep_run (spares_inspect _)]
    simp [answerOf, mainArgv, headArgv, imageIdArgv, inspectArgv, gitArgv]
  image_answer := fun s => by
    rw [hostStep_run (spares_inspect _)]
    simp [answerOf, mainArgv, headArgv, imageIdArgv, inspectArgv, gitArgv, imageFormat, runningFormat]
  revision_answer := fun s => by
    rw [hostStep_run (spares_inspect _)]
    simp [answerOf, mainArgv, headArgv, imageIdArgv, inspectArgv, gitArgv, imageFormat, runningFormat,
      revisionFormat]
  temporary_answer := fun _ => rfl
  cleanup_answer := fun _ => rfl
  added := fun s => ⟨fixedOrigin, by
    rw [hostStep_run (by simp [spares, HostCall.changesState, worktreeAddArgv, gitArgv])]
    simp [answerOf, worktreeAddArgv, mainArgv, headArgv, imageIdArgv, inspectArgv, gitArgv]⟩
  head_answer := fun s => by
    rw [hostStep_run (by simp [spares, HostCall.changesState, headArgv, gitArgv])]
    exact answerOf_head
  worktree_answer := fun s => by
    rw [hostStep_run (by simp [spares, HostCall.changesState, originArgv, gitArgv])]
    simp [answerOf, originArgv, mainArgv, headArgv, imageIdArgv, inspectArgv, gitArgv]
  built := fun s => ⟨fixedOrigin, by
    rw [hostStep_run (by simp [spares])]
    simp [answerOf, buildArgv, mainArgv, headArgv, imageIdArgv, inspectArgv, gitArgv]⟩
  identified := fun s => by
    rw [hostStep_run (by simp [spares, HostCall.changesState, imageIdArgv])]
    simp [answerOf, mainArgv, headArgv, imageIdArgv, gitArgv]
  smoked := fun s => ⟨fixedOrigin, by
    rw [hostStep_run (by simp [spares])]
    simp [answerOf, smokeArgv, mainArgv, headArgv, imageIdArgv, inspectArgv, gitArgv]⟩
  dropped := fun s => ⟨fixedOrigin, by
    rw [hostStep_run (by simp [spares, HostCall.changesState, worktreeRemoveArgv, gitArgv])]
    simp [answerOf, worktreeRemoveArgv, mainArgv, headArgv, imageIdArgv, inspectArgv, gitArgv]⟩
  stopped := fun s c _ => ⟨"", congrArg Prod.fst hostStep_stop⟩
  removed := fun s => ⟨⟨"", congrArg Prod.fst hostStep_remove⟩, congrArg Prod.snd hostStep_remove⟩
  started := fun s hnone => by
    obtain rfl : s = none := hnone
    exact ⟨⟨"", congrArg Prod.fst hostStep_start⟩, congrArg Prod.snd hostStep_start⟩
  awaited := fun _ _ => run_healthy

section

variable {config : SupervisorConfig} {sha stale : String}

theorem run_readComments {items : List Json} (h : items.length < 100) (broker : Option Container) :
    (readComments.run (hostStep config sha (.arr items)) broker).1 =
      .ok ((items.filter Json.isObj).map Comment.ofJson) := by
  have hget : (hostGet (commentsUrl 1)).run (hostStep config sha (.arr items)) broker =
      (.ok (.arr items), broker) := by
    show ((Except.ok (if commentsUrl 1 = checkRunsUrl sha then _ else _) : Except RunnerError Json),
      broker) = _
    rw [if_neg (commentsUrl_ne_checkRunsUrl 1 sha)]
  have hpages : (readPages (99 + 1) 1 []).run (hostStep config sha (.arr items)) broker =
      (.ok ((items.filter Json.isObj).map Comment.ofJson), broker) := by
    have harr : (Json.arr items).isArr = true := rfl
    rw [readPages, run_bind_ok _ hget, require_bind harr]
    show (if items.length < 100 then _ else _ : Supervised (List Comment)).run _ _ = _
    rw [if_pos h]
    rfl
  exact congrArg Prod.fst (run_catching_ok _ hpages)

/-- The comments of a queue of release directives. -/
def releaseQueue (shas : List String) : List Comment :=
  shas.map fun sha => ⟨some "Pukujan", releaseText sha, none⟩

theorem run_releaseQueue {shas : List String} (h : shas.length < 100) (broker : Option Container) :
    (readComments.run (hostStep config sha (.arr (shas.map releaseComment))) broker).1 =
      .ok (releaseQueue shas) := by
  rw [run_readComments (by rwa [List.length_map])]
  have hobj : (shas.map releaseComment).filter Json.isObj = shas.map releaseComment := by
    refine List.filter_eq_self.mpr fun item hitem => ?_
    obtain ⟨sha, -, rfl⟩ := List.mem_map.mp hitem
    rfl
  rw [hobj, List.map_map]
  rfl

theorem parseReleaseDirectives_cons (comment : Comment) (comments : List Comment) :
    parseReleaseDirectives (comment :: comments) =
      parseReleaseDirectives [comment] ++ parseReleaseDirectives comments := by
  cases h : comment.trusted <;> simp [parseReleaseDirectives, h]

theorem parse_releaseQueue {shas : List String} (h : ∀ sha ∈ shas, isSha sha = true) :
    parseReleaseDirectives (releaseQueue shas) = shas.map Release.mk := by
  induction shas with
  | nil => rfl
  | cons sha shas ih =>
      have hfirst : parseReleaseDirectives [⟨some "Pukujan", releaseText sha, none⟩] = [⟨sha⟩] :=
        parseReleaseDirectives_releaseText (h sha List.mem_cons_self) (by decide) none
      rw [releaseQueue, List.map_cons, parseReleaseDirectives_cons, hfirst, ← releaseQueue,
        ih fun sha hsha => h sha (List.mem_cons_of_mem _ hsha)]
      rfl

theorem names_releaseQueue {shas : List String} (h : ∀ sha ∈ shas, isSha sha = true)
    (hmem : sha ∈ shas) : ∃ comment ∈ releaseQueue shas, Names comment sha := by
  have hrelease : (⟨sha⟩ : Release) ∈ parseReleaseDirectives (releaseQueue shas) := by
    rw [parse_releaseQueue h]
    exact List.mem_map_of_mem hmem
  exact mem_parseReleaseDirectives.mp hrelease

/-- Behind a directive of another commit, that of the current one is not applied. -/
theorem not_runs_behind_stale (hconfig : config.validate = .ok ()) (hsha : isSha sha = true)
    (hstale : isSha stale = true) (hne : sha ≠ stale) :
    ∃ (handler : (r : HostCall) → Option Container → r.Answer × Option Container)
      (host : GoodHost handler config sha) (queue : List Comment),
      (readComments.run handler none).1 = .ok queue ∧ (∃ comment ∈ queue, Names comment sha) ∧
        ¬ Runs (host.broker ((supervisorPass config).run handler none).2) sha := by
  have hall : ∀ s ∈ [stale, sha], isSha s = true := by
    intro s hs
    rcases List.mem_pair.mp hs with rfl | rfl
    · exact hstale
    · exact hsha
  let page : Json := .arr ([stale, sha].map releaseComment)
  have hqueue : (readComments.run (hostStep config sha page) none).1 = .ok (releaseQueue [stale, sha]) :=
    run_releaseQueue (Nat.lt_of_sub_eq_succ rfl) none
  refine ⟨hostStep config sha page, goodHost config hsha page, releaseQueue [stale, sha], hqueue,
    names_releaseQueue hall (List.mem_cons_of_mem _ List.mem_cons_self), ?_⟩
  have hreleases : ∀ release ∈ [stale, sha].map Release.mk, isSha release.sha = true := by
    intro release hrelease
    obtain ⟨s, hs, rfl⟩ := List.mem_map.mp hrelease
    exact hall s hs
  rw [supervisorPass, run_bind_ok _ (Prod.ext hqueue rfl), parse_releaseQueue hall,
    (goodHost config hsha page).run_releases_iff hconfig hreleases (List.cons_ne_nil _ _)]
  rintro (hhead | ⟨c, hsome, -⟩)
  · exact hne (Release.mk.inj (Option.some.inj hhead)).symm
  · have hnone : (none : Option Container) = some c := hsome
    cases hnone

end

def staleSha : String := "89abcdef0123456789abcdef0123456789abcdef"

theorem pass_runs_sample :
    Runs ((goodHost sampleConfig isSha_sampleSha (.arr ([sampleSha].map releaseComment))).broker
        ((supervisorPass sampleConfig).run (hostStep sampleConfig sampleSha
          (.arr ([sampleSha].map releaseComment))) none).2) sampleSha ↔
      (parseReleaseDirectives (releaseQueue [sampleSha])).head? = some ⟨sampleSha⟩ ∨
        Runs none sampleSha :=
  pass_runs_iff _ sampleConfig sampleSha (goodHost sampleConfig isSha_sampleSha _) (releaseQueue [sampleSha]) none
    valid_sampleConfig (run_releaseQueue (Nat.lt_of_sub_eq_succ rfl) none)
    (names_releaseQueue (by simpa using isSha_sampleSha) List.mem_cons_self)

/-- A directive of an older commit before that of the current one keeps the broker from it. -/
theorem stale_directive_blocks :
    ∃ (handler : (r : HostCall) → Option Container → r.Answer × Option Container)
      (host : GoodHost handler sampleConfig sampleSha) (queue : List Comment),
      (readComments.run handler none).1 = .ok queue ∧
        (∃ comment ∈ queue, Names comment sampleSha) ∧
        ¬ Runs (host.broker ((supervisorPass sampleConfig).run handler none).2) sampleSha :=
  @not_runs_behind_stale sampleConfig sampleSha staleSha valid_sampleConfig isSha_sampleSha
    (by decide +kernel) (by decide +kernel)

end Supervisor

end FossilCore
