import FossilCore.Base.Transcript
import FossilCore.TrustedLocal.Comments

/-!
# The release supervisor

`trusted_local_supervisor.py` and one pass of the loop of its script.  A supervised program issues
host commands, reads of the GitHub API and the calls of the standard library that can fail; what
answers them is left open.
-/

namespace FossilCore

namespace Supervisor

open Base Base.Program

def REPOSITORY : String := "Pukujan/fossil-core"

def ORIGINS : List String :=
  ["https://github.com/Pukujan/fossil-core", "https://github.com/Pukujan/fossil-core.git"]

def FORBIDDEN_MOUNT_NAMES : List String :=
  ["docker", "socket", "owner", "profile", "provider", "secret", "railway", "credential", "home",
    "drive"]

def HEALTH_CHECK_ATTEMPTS : ℕ := 8

def HEALTH_CHECK_INTERVAL_SECONDS : ℕ := 5

inductive HostCall where
  | run (argv : List String) (cwd : Option String)
  | get (url : String)
  /-- `tempfile.TemporaryDirectory(prefix=stem)` -/
  | temporaryDirectory (stem : String)
  | cleanup (path : String)
  | sleep (seconds : ℕ)
  deriving DecidableEq, Repr

@[reducible] def HostCall.Answer : HostCall → Type
  | .run _ _ => Except RunnerError String
  | .get _ => Except RunnerError Json
  | .temporaryDirectory _ => Except RunnerError String
  | .cleanup _ => Except RunnerError Unit
  | .sleep _ => Unit

abbrev Supervised (α : Type) := Program HostCall HostCall.Answer RunnerError α

abbrev HostExchange := Exchange HostCall.Answer

/-- Is the call a docker command other than an inspection? -/
def HostCall.changesState : HostCall → Bool
  | .run ("docker" :: "image" :: "inspect" :: _) _ => false
  | .run ("docker" :: "container" :: "inspect" :: _) _ => false
  | .run ("docker" :: _) _ => true
  | _ => false

def hostRun (argv : List String) (cwd : Option String := none) : Supervised String :=
  .request (.run argv cwd) .done

def hostGet (url : String) : Supervised Json := .request (.get url) .done

/-- `if not condition: raise SupervisorError(message)` -/
def require (condition : Bool) (message : String) : Supervised Unit :=
  if condition then return () else raise (.supervisorError message)

/-- `except SupervisorError: return value` -/
def orIfRefused {α : Type} (p : Supervised α) (value : α) : Supervised α :=
  p.catching fun e => if e.isSupervisorError then return value else raise e

/-! ## Configuration -/

structure SupervisorConfig where
  repositoryPath : String
  brokerConfigFile : String
  brokerName : String := "fossil-trusted-local-broker"
  runtimeNetwork : String := "bridge"
  brokerParentGithubVolume : String := "fossil-broker-github-auth"
  workerCodexVolume : String := "fossil-codex-auth"
  worktreeVolume : String := "fossil-broker-worktrees"
  deriving DecidableEq, Repr

/-- `VOLUME.fullmatch` -/
def isVolume (s : String) : Bool :=
  match s.toList with
  | [] => false
  | c :: cs => c.isAlphanum ∧ cs.length ≤ 127 ∧
      cs.all fun c => c.isAlphanum || c ∈ ['_', '.', '-']

/-- `FORBIDDEN_MOUNT_NAME.search`, on a name that is a volume and so has only ASCII letters. -/
def isForbiddenMountName (s : String) : Bool :=
  FORBIDDEN_MOUNT_NAMES.any fun name => decide (name.toList <:+: s.toList.map Char.toLower)

def SupervisorConfig.validate (config : SupervisorConfig) : Except RunnerError Unit :=
  let volumes := [config.brokerParentGithubVolume, config.workerCodexVolume, config.worktreeVolume]
  if config.runtimeNetwork ≠ "bridge" then
    .error (.supervisorError "only the fixed bridge runtime network is allowed")
  else if config.brokerName = "" ∨ '/' ∈ config.brokerName.toList ∨
      Text.startsWith config.brokerName "." then
    .error (.supervisorError "invalid broker container name")
  else if volumes.any fun volume => !isVolume volume || isForbiddenMountName volume then
    .error (.supervisorError "mount configuration must contain only named Docker volumes")
  else if !Text.startsWith config.brokerConfigFile "/" then
    .error (.supervisorError "broker config file must be an absolute owner-local path")
  else .ok ()

/-! ## Release directives -/

structure Release where
  sha : String
  deriving DecidableEq, Repr

/-- The value of a field of a directive; the last of a name counts. -/
def fieldOf (tokens : List String) (name : String) : Option String :=
  let fields := (tokens.filter fun token => '=' ∈ token.toList).map Text.splitEquals
  fields.reverse.lookup name

/-- The release that a line names. -/
def releaseOfLine (line : String) : Option Release :=
  match Text.words line with
  | [] => none
  | head :: tokens =>
      let sha := (fieldOf tokens "reviewed_sha").getD ""
      if head = "BROKER_RELEASE" ∧ fieldOf tokens "repo" = some REPOSITORY ∧ isSha sha then some ⟨sha⟩
      else none

def parseReleaseDirectives (comments : List Comment) : List Release :=
  (comments.filter Comment.trusted).flatMap fun comment =>
    (Text.splitlines comment.body).filterMap releaseOfLine

/-! ## Reads of the GitHub API -/

def commentsUrl (page : ℕ) : String :=
  "https://api.github.com/repos/" ++ REPOSITORY ++ "/issues/94/comments?per_page=100&page=" ++
    toString page

def checkRunsUrl (sha : String) : String :=
  "https://api.github.com/repos/" ++ REPOSITORY ++ "/commits/" ++ sha ++ "/check-runs?per_page=100"

/-- `for page in range(page, page + left)` -/
def readPages : ℕ → ℕ → List Comment → Supervised (List Comment)
  | 0, _, _ => raise (.supervisorError "trusted release queue pagination limit reached")
  | left + 1, page, comments => do
      let data ← hostGet (commentsUrl page)
      require data.isArr "GitHub queue response was not a list"
      let comments := comments ++ (data.items.filter Json.isObj).map Comment.ofJson
      if data.items.length < 100 then return comments else readPages left (page + 1) comments

def readComments : Supervised (List Comment) :=
  (readPages 100 1 []).catching fun e =>
    if e.isReadError then raise (.supervisorError "trusted release queue is unreadable") else raise e

/-- Is the check run completed with success? -/
def passed (check : Json) : Bool :=
  check.isObj ∧ check.get? "status" = some (.str "completed") ∧
    check.get? "conclusion" = some (.str "success")

def checksPassed (payload : Json) : Supervised Bool :=
  let checks := (payload.get? "check_runs").getD .null
  if !checks.truthy then return false
  else match iterate checks with
    | .ok items => return items.all passed
    | .error e => raise (.raised e)

/-- `except (HTTPError, OSError, ValueError)`: nothing was read. -/
def orUnread : Except RunnerError Json → Supervised (Option Json)
  | .ok payload => return some payload
  | .error e => if e.isReadError then return none else raise e

def checksSuccessful (sha : String) : Supervised Bool :=
  if !isSha sha then return false
  else do
    let payload ← (hostGet (checkRunsUrl sha)).follow orUnread
    match payload with
    | some payload => checksPassed payload
    | none => return false

/-! ## Host commands -/

def candidateImage (sha : String) : String := "fossil-trusted-local-broker:reviewed-" ++ sha

def candidateTag (sha : String) : Supervised String := do
  require (isSha sha) "reviewed_sha must be exactly 40 lowercase hex characters"
  return candidateImage sha

def gitArgv (repository : String) (arguments : List String) : List String :=
  "git" :: "-C" :: repository :: arguments

def originArgv (repository : String) : List String :=
  gitArgv repository ["config", "--get", "remote.origin.url"]

def mainArgv (config : SupervisorConfig) : List String :=
  gitArgv config.repositoryPath ["ls-remote", "origin", "refs/heads/main"]

def isFixedOrigin (origin : String) : Bool := Text.rstrip origin '/' ∈ ORIGINS

def verifyOriginAndMain (config : SupervisorConfig) (sha : String) : Supervised Unit := do
  let origin ← hostRun (originArgv config.repositoryPath)
  require (isFixedOrigin origin) "repository origin is not the fixed fossil-core origin"
  let main ← hostRun (mainArgv config)
  require ((Text.words main).head? = some sha) "reviewed_sha is not live origin/main"

def mount (source target : String) (readonly : Bool) (bind : Bool := false) : List String :=
  let spec := "type=" ++ (if bind then "bind" else "volume") ++ ",src=" ++ source ++ ",dst=" ++ target
  ["--mount", if readonly then spec ++ ",readonly" else spec]

def runtimeShape (config : SupervisorConfig) (image : String) : List String :=
  ["docker", "run", "-d", "--name", config.brokerName, "--restart", "unless-stopped",
    "--network", config.runtimeNetwork] ++
    mount config.brokerParentGithubVolume "/run/fossil/broker-github" true ++
    mount config.workerCodexVolume "/worker/codex-home" false ++
    mount config.worktreeVolume "/worker/worktrees" false ++
    mount config.brokerConfigFile "/etc/fossil/broker.json" true true ++ [image]

def runtimeArgv (config : SupervisorConfig) (image : String) : Except RunnerError (List String) :=
  match config.validate with
  | .ok () => .ok (runtimeShape config image)
  | .error e => .error e

/-- `host.run(runtime_argv(config, image))` -/
def runBroker (config : SupervisorConfig) (image : String) : Supervised String :=
  match runtimeArgv config image with
  | .ok argv => hostRun argv
  | .error e => raise e

def imageIdArgv (image : String) : List String :=
  ["docker", "image", "inspect", "--format", "\x7b\x7b.Id\x7d\x7d", image]

def imageId (image : String) : Supervised String := do
  let value ← hostRun (imageIdArgv image)
  require (value ≠ "") "could not resolve image identity"
  return value

def inspectArgv (format name : String) : List String :=
  ["docker", "container", "inspect", "--format", format, name]

/-- An inspection of a container: nothing where it fails or is empty. -/
def inspect (format name : String) : Supervised (Option String) :=
  orIfRefused (do
    let value ← hostRun (inspectArgv format name)
    return if value = "" then none else some value) none

def imageFormat : String := "\x7b\x7b.Image\x7d\x7d"

def revisionFormat : String :=
  "\x7b\x7bindex .Config.Labels \"org.opencontainers.image.revision\"\x7d\x7d"

def runningFormat : String := "\x7b\x7b.State.Running\x7d\x7d"

def healthFormat : String :=
  "\x7b\x7bif .State.Health\x7d\x7d\x7b\x7b.State.Health.Status\x7d\x7d\x7b\x7belse\x7d\x7dnone" ++
    "\x7b\x7bend\x7d\x7d"

def containerImage (name : String) : Supervised (Option String) := inspect imageFormat name

def containerRevision (name : String) : Supervised (Option String) := inspect revisionFormat name

def running (name : String) : Supervised Bool := do
  let value ← inspect runningFormat name
  return value = some "true"

def healthStatus (name : String) : Supervised (Option String) := inspect healthFormat name

/-- `for attempt in range(...)`, with the attempts that are left. -/
def awaitHealthy (name : String) : ℕ → Supervised Bool
  | 0 => return false
  | left + 1 => do
      let status ← healthStatus name
      if status = some "healthy" then return true
      else if status ≠ some "starting" then return false
      else if left = 0 then return false
      else .request (.sleep HEALTH_CHECK_INTERVAL_SECONDS) fun _ => awaitHealthy name left

def healthy (name : String) : Supervised Bool := awaitHealthy name HEALTH_CHECK_ATTEMPTS

def removeArgv (name : String) : List String := ["docker", "rm", "-f", name]

def remove (name : String) : Supervised Unit :=
  orIfRefused (do
    let _ ← hostRun (removeArgv name)
    return ()) ()

/-! ## Applying a release -/

inductive Outcome where
  | applied
  | noop
  deriving DecidableEq, Repr

/-- What is checked before any command that changes the host. -/
def verifyRelease (config : SupervisorConfig) (release : Release) : Supervised Unit := do
  let () ← Program.done config.validate
  require (isSha release.sha) "malformed reviewed_sha"
  verifyOriginAndMain config release.sha
  let success ← checksSuccessful release.sha
  require success "GitHub CI/check evidence absent, unreadable, or non-success"

/-- `_running(...) and _container_revision(...) == sha` -/
def isCurrent (config : SupervisorConfig) (sha : String) : Supervised Bool := do
  let up ← running config.brokerName
  if up then do
    let revision ← containerRevision config.brokerName
    return revision = some sha
  else return false

def worktreeAddArgv (config : SupervisorConfig) (worktree sha : String) : List String :=
  gitArgv config.repositoryPath ["worktree", "add", "--detach", worktree, sha]

def worktreeRemoveArgv (config : SupervisorConfig) (worktree : String) : List String :=
  gitArgv config.repositoryPath ["worktree", "remove", "--force", worktree]

def headArgv (worktree : String) : List String := gitArgv worktree ["rev-parse", "HEAD"]

def buildArgv (sha image : String) : List String :=
  ["docker", "build", "--label", "org.opencontainers.image.revision=" ++ sha, "-t", image, "-f",
    "docker/trusted-local-broker/Dockerfile", "."]

def smokeArgv (image : String) : List String :=
  ["docker", "run", "--rm", "--network", "none", "--entrypoint", "python3", image, "-c",
    "import fossil_core"]

/-- The body of the `try` in the build worktree. -/
def buildAndSmoke (sha image worktree : String) : Supervised String := do
  let head ← hostRun (headArgv worktree)
  require (head = sha) "detached build worktree revision mismatch"
  let origin ← hostRun (originArgv worktree)
  require (isFixedOrigin origin) "detached build worktree origin mismatch"
  let _ ← hostRun (buildArgv sha image) (some worktree)
  let candidate ← imageId image
  let _ ← hostRun (smokeArgv image)
  return candidate

def buildIn (config : SupervisorConfig) (sha image worktree : String) : Supervised String := do
  let _ ← hostRun (worktreeAddArgv config worktree sha)
  (buildAndSmoke sha image worktree).ensuring (do
    let _ ← hostRun (worktreeRemoveArgv config worktree)
    return ())

/-- The candidate built in a temporary directory, with its image id. -/
def buildCandidate (config : SupervisorConfig) (sha image : String) : Supervised String := do
  let temporary ← Program.request (.temporaryDirectory "fossil-broker-release-") .done
  (buildIn config sha image (temporary ++ "/source")).ensuring
    (.request (.cleanup temporary) .done)

def stopArgv (name : String) : List String := ["docker", "stop", name]

def stopPrevious (config : SupervisorConfig) : Option String → Supervised Unit
  | none => return ()
  | some _ => do
      let _ ← hostRun (stopArgv config.brokerName)
      remove config.brokerName

/-- Did the container reach the requested healthy image revision? -/
def reached (config : SupervisorConfig) (sha candidate : String) : Supervised Bool := do
  let up ← running config.brokerName
  if !up then return false
  else do
    let image ← containerImage config.brokerName
    if image ≠ some candidate then return false
    else do
      let revision ← containerRevision config.brokerName
      if revision ≠ some sha then return false
      else healthy config.brokerName

def startCandidate (config : SupervisorConfig) (sha image candidate : String) : Supervised Unit := do
  let _ ← runBroker config image
  let up ← reached config sha candidate
  require up "candidate did not reach requested healthy image revision"

def rollBack (config : SupervisorConfig) (previous : Option String) (e : RunnerError) :
    Supervised Unit :=
  if e.isSupervisorError then do
    remove config.brokerName
    match previous with
    | some image => do
        let _ ← runBroker config image
        raise e
    | none => raise e
  else raise e

/-- The replacement of the container, once the candidate is built. -/
def replaceBroker (config : SupervisorConfig) (sha image candidate : String)
    (previous : Option String) : Supervised Outcome := do
  stopPrevious config previous
  (startCandidate config sha image candidate).catching (rollBack config previous)
  return .applied

/-- What is done for a release that the container does not already run. -/
def deploy (config : SupervisorConfig) (sha : String) : Supervised Outcome := do
  let image ← candidateTag sha
  let candidate ← buildCandidate config sha image
  let previous ← containerImage config.brokerName
  replaceBroker config sha image candidate previous

def applyRelease (config : SupervisorConfig) (release : Release) : Supervised Outcome := do
  verifyRelease config release
  let current ← isCurrent config release.sha
  if current then return .noop else deploy config release.sha

/-- One pass of the loop of `run_trusted_local_broker_supervisor.py`. -/
def supervisorPass (config : SupervisorConfig) : Supervised (List Outcome) := do
  let comments ← readComments
  forEach (applyRelease config) (parseReleaseDirectives comments)

/-! ## Transcripts of the parts -/

variable {α β : Type} {t : List HostExchange}

@[simp] theorem ends_hostRun {argv : List String} {cwd : Option String}
    {x : Except RunnerError String} :
    (hostRun argv cwd).Ends t x ↔ t = [⟨.run argv cwd, x⟩] := by
  constructor
  · rintro ⟨answer, rest, rfl, rfl, rfl⟩
    rfl
  · rintro rfl
    exact ⟨x, [], rfl, rfl, rfl⟩

@[simp] theorem ends_hostGet {url : String} {x : Except RunnerError Json} :
    (hostGet url).Ends t x ↔ t = [⟨.get url, x⟩] := by
  constructor
  · rintro ⟨answer, rest, rfl, rfl, rfl⟩
    rfl
  · rintro rfl
    exact ⟨x, [], rfl, rfl, rfl⟩

theorem ends_require {condition : Bool} {message : String} {x : Except RunnerError Unit} :
    (require condition message).Ends t x ↔
      t = [] ∧ x = if condition then .ok () else .error (.supervisorError message) := by
  cases condition <;> exact ends_done

theorem ends_require_bind {condition : Bool} {message : String} {f : Unit → Supervised α}
    {x : Except RunnerError α} :
    (require condition message >>= f).Ends t x ↔
      (condition = true ∧ (f ()).Ends t x) ∨
        (condition = false ∧ t = [] ∧ x = .error (.supervisorError message)) := by
  cases condition with
  | false =>
      show (Program.done _).Ends t x ↔ _
      simp
  | true =>
      show (f ()).Ends t x ↔ _
      simp

/-- What is taken of an answer when a refusal stands for a value. -/
def unlessRefused (f : String → α) (value : α) : Except RunnerError String → Except RunnerError α
  | .ok text => .ok (f text)
  | .error e => if e.isSupervisorError then .ok value else .error e

theorem orIfRefused_eq (argv : List String) (f : String → α) (value : α) :
    orIfRefused (hostRun argv >>= fun text => pure (f text)) value =
      .request (.run argv none) fun answer => .done (unlessRefused f value answer) := by
  show Program.request _ _ = _
  congr 1
  funext answer
  cases answer with
  | ok text => rfl
  | error e =>
      show (if e.isSupervisorError then _ else _) = Program.done (if e.isSupervisorError then _ else _)
      split <;> rfl

theorem ends_orIfRefused {argv : List String} {f : String → α} {value : α}
    {x : Except RunnerError α} :
    (orIfRefused (hostRun argv >>= fun text => pure (f text)) value).Ends t x ↔
      ∃ answer, t = [⟨.run argv none, answer⟩] ∧ x = unlessRefused f value answer := by
  rw [orIfRefused_eq, ends_request]
  constructor
  · rintro ⟨answer, rest, rfl, rfl, rfl⟩
    exact ⟨answer, rfl, rfl⟩
  · rintro ⟨answer, rfl, rfl⟩
    exact ⟨answer, [], rfl, rfl, rfl⟩

/-- The text of an inspection, unless it is empty. -/
def inspected (value : String) : Option String := if value = "" then none else some value

theorem ends_inspect {format name : String} {x : Except RunnerError (Option String)} :
    (inspect format name).Ends t x ↔ ∃ answer,
      t = [⟨.run (inspectArgv format name) none, answer⟩] ∧ x = unlessRefused inspected none answer :=
  ends_orIfRefused

theorem ends_remove {name : String} {x : Except RunnerError Unit} :
    (remove name).Ends t x ↔ ∃ answer,
      t = [⟨.run (removeArgv name) none, answer⟩] ∧ x = unlessRefused (fun _ => ()) () answer :=
  ends_orIfRefused

theorem ends_verifyOriginAndMain {config : SupervisorConfig} {sha : String}
    (h : (verifyOriginAndMain config sha).Ends t (.ok ())) : ∃ origin main,
      t = [⟨.run (originArgv config.repositoryPath) none, .ok origin⟩,
        ⟨.run (mainArgv config) none, .ok main⟩] ∧
      isFixedOrigin origin = true ∧ (Text.words main).head? = some sha := by
  obtain ⟨origin, first, rest, rfl, horigin, hrest⟩ := ends_bind_ok.mp h
  rw [ends_hostRun] at horigin
  rcases ends_require_bind.mp hrest with ⟨hfixed, hrest⟩ | ⟨-, -, hraised⟩
  · obtain ⟨main, first', rest', rfl, hmain, hrest⟩ := ends_bind_ok.mp hrest
    rw [ends_hostRun] at hmain
    obtain ⟨rfl, hcondition⟩ := ends_require.mp hrest
    refine ⟨origin, main, ?_, hfixed, ?_⟩
    · rw [horigin, hmain]
      rfl
    · by_contra hother
      rw [if_neg (by simpa using hother)] at hcondition
      cases hcondition
  · cases hraised

theorem ends_checksPassed {payload : Json} (h : (checksPassed payload).Ends t (.ok true)) :
    t = [] ∧ ∃ checks, payload.get? "check_runs" = some (.arr checks) ∧ checks ≠ [] ∧
      ∀ check ∈ checks, passed check = true := by
  -- Neither the characters of a text nor the keys of a dictionary are check runs.
  have htexts (texts : List Json) (hne : texts ≠ []) (h : ∀ v ∈ texts, v.isObj = false) :
      texts.all passed = false := by
    obtain ⟨v, hv⟩ := List.exists_mem_of_ne_nil texts hne
    refine List.all_eq_false.mpr ⟨v, hv, ?_⟩
    simp [passed, h v hv]
  rw [checksPassed] at h
  cases hchecks : payload.get? "check_runs" with
  | none =>
      rw [hchecks] at h
      cases h.2
  | some checks =>
      rw [hchecks, Option.getD_some] at h
      cases htruthy : checks.truthy with
      | false =>
          rw [htruthy] at h
          cases h.2
      | true =>
          rw [htruthy] at h
          cases checks with
          | null | bool b | int n | float x => cases h.2
          | arr items =>
              obtain ⟨rfl, hall⟩ := h
              refine ⟨rfl, items, rfl, by simpa [Json.truthy] using htruthy, ?_⟩
              exact List.all_eq_true.mp (Except.ok.inj hall).symm
          | str text =>
              obtain ⟨rfl, hall⟩ := h
              rw [Except.ok.injEq, htexts] at hall
              · cases hall
              · simpa [Json.truthy] using htruthy
              · intro v hv
                obtain ⟨item, -, rfl⟩ := List.mem_map.mp hv
                rfl
          | obj members =>
              obtain ⟨rfl, hall⟩ := h
              rw [Except.ok.injEq, htexts] at hall
              · cases hall
              · simpa [Json.truthy] using htruthy
              · intro v hv
                obtain ⟨item, -, rfl⟩ := List.mem_map.mp hv
                rfl

theorem ends_checksSuccessful {sha : String} (h : (checksSuccessful sha).Ends t (.ok true)) :
    ∃ payload checks, t = [⟨.get (checkRunsUrl sha), .ok payload⟩] ∧
      payload.get? "check_runs" = some (.arr checks) ∧ checks ≠ [] ∧
        ∀ check ∈ checks, passed check = true := by
  rw [checksSuccessful] at h
  split at h
  · cases h.2
  · obtain ⟨payload, first, rest, rfl, hpayload, hrest⟩ := ends_bind_ok.mp h
    obtain ⟨first, rest', answer, rfl, hget, hanswer⟩ := ends_follow.mp hpayload
    rw [ends_hostGet] at hget
    subst hget
    cases answer with
    | ok value =>
        obtain ⟨rfl, heq⟩ := hanswer
        obtain rfl := Except.ok.inj heq
        obtain ⟨rfl, checks, hchecks, hne, hall⟩ := ends_checksPassed hrest
        exact ⟨value, checks, rfl, hchecks, hne, hall⟩
    | error e =>
        rw [orUnread] at hanswer
        split at hanswer
        · obtain ⟨rfl, heq⟩ := hanswer
          obtain rfl := Except.ok.inj heq
          cases hrest.2
        · cases hanswer.2

/-! ## Kinds of requests -/

section Kinds

variable {kind : HostCall → Bool} {config : SupervisorConfig} {sha image candidate : String}

theorem quiet_hostRun {argv : List String} {cwd : Option String} (h : kind (.run argv cwd) = true) :
    (hostRun argv cwd).Quiet kind :=
  ⟨h, fun _ => trivial⟩

theorem quiet_require (condition : Bool) (message : String) :
    (require condition message).Quiet kind := by
  cases condition <;> trivial

theorem quiet_orIfRefused {argv : List String} {f : String → α} {value : α}
    (h : kind (.run argv none) = true) :
    (orIfRefused (hostRun argv >>= fun text => pure (f text)) value).Quiet kind := by
  rw [orIfRefused_eq]
  exact ⟨h, fun _ => trivial⟩

theorem quiet_runBroker (h : ∀ image, kind (.run (runtimeShape config image) none) = true) :
    (runBroker config image).Quiet kind := by
  rw [runBroker]
  split
  · rename_i argv hargv
    rw [runtimeArgv] at hargv
    split at hargv
    · obtain rfl := Except.ok.inj hargv
      exact quiet_hostRun (h image)
    · cases hargv
  · trivial

theorem quiet_verifyOriginAndMain
    (horigin : kind (.run (originArgv config.repositoryPath) none) = true)
    (hmain : kind (.run (mainArgv config) none) = true) :
    (verifyOriginAndMain config sha).Quiet kind := by
  refine (quiet_hostRun horigin).bind fun _ => (quiet_require _ _).bind fun _ => ?_
  exact (quiet_hostRun hmain).bind fun _ => quiet_require _ _

theorem quiet_checksSuccessful (h : ∀ url, kind (.get url) = true) :
    (checksSuccessful sha).Quiet kind := by
  rw [checksSuccessful]
  split
  · trivial
  · refine Quiet.bind (Quiet.follow ⟨h _, fun _ => trivial⟩ fun answer => ?_) fun payload => ?_
    · cases answer with
      | ok payload => trivial
      | error e =>
          show Quiet kind (if e.isReadError then _ else _)
          split <;> trivial
    · cases payload with
      | none => trivial
      | some payload =>
          show Quiet kind (checksPassed payload)
          rw [checksPassed]
          split
          · trivial
          · split <;> trivial

theorem quiet_verifyRelease {release : Release}
    (horigin : kind (.run (originArgv config.repositoryPath) none) = true)
    (hmain : kind (.run (mainArgv config) none) = true) (hget : ∀ url, kind (.get url) = true) :
    (verifyRelease config release).Quiet kind := by
  refine Quiet.bind (by trivial) fun _ => (quiet_require _ _).bind fun _ => ?_
  refine (quiet_verifyOriginAndMain horigin hmain).bind fun _ => ?_
  exact (quiet_checksSuccessful hget).bind fun _ => quiet_require _ _

theorem quiet_isCurrent
    (h : ∀ format, format ≠ imageFormat → kind (.run (inspectArgv format config.brokerName) none) = true) :
    (isCurrent config sha).Quiet kind := by
  refine Quiet.bind (Quiet.bind (quiet_orIfRefused (h _ (by decide))) fun _ => trivial) fun up => ?_
  cases up with
  | false => trivial
  | true => exact (quiet_orIfRefused (h _ (by decide))).bind fun _ => trivial

theorem quiet_buildCandidate (htemporary : ∀ stem, kind (.temporaryDirectory stem) = true)
    (hcleanup : ∀ path, kind (.cleanup path) = true)
    (hgit : ∀ worktree, ∀ argv ∈ [worktreeAddArgv config worktree sha, headArgv worktree,
      originArgv worktree, worktreeRemoveArgv config worktree], kind (.run argv none) = true)
    (hdocker : ∀ cwd, ∀ argv ∈ [buildArgv sha image, imageIdArgv image, smokeArgv image],
      kind (.run argv cwd) = true) :
    (buildCandidate config sha image).Quiet kind := by
  have hbody (worktree : String) : (buildAndSmoke sha image worktree).Quiet kind := by
    refine (quiet_hostRun (hgit worktree _ (by simp))).bind fun _ => (quiet_require _ _).bind fun _ => ?_
    refine (quiet_hostRun (hgit worktree _ (by simp))).bind fun _ => (quiet_require _ _).bind fun _ => ?_
    refine (quiet_hostRun (hdocker _ _ (by simp))).bind fun _ => Quiet.bind ?_ fun _ => ?_
    · refine (quiet_hostRun (hdocker _ _ (by simp))).bind fun _ => (quiet_require _ _).bind fun _ => ?_
      trivial
    · exact (quiet_hostRun (hdocker _ _ (by simp))).bind fun _ => trivial
  refine Quiet.bind ⟨htemporary _, fun _ => trivial⟩ fun temporary => Quiet.ensuring ?_ ?_
  · refine (quiet_hostRun (hgit (temporary ++ "/source") _ (by simp))).bind fun _ =>
      (hbody _).ensuring ?_
    exact (quiet_hostRun (hgit (temporary ++ "/source") _ (by simp))).bind fun _ => trivial
  · exact ⟨hcleanup _, fun _ => trivial⟩

theorem quiet_awaitHealthy (h : kind (.run (inspectArgv healthFormat config.brokerName) none) = true)
    (hsleep : ∀ seconds, kind (.sleep seconds) = true) (attempts : ℕ) :
    (awaitHealthy config.brokerName attempts).Quiet kind := by
  induction attempts with
  | zero => trivial
  | succ left ih =>
      refine Quiet.bind (quiet_orIfRefused h) fun status => ?_
      split
      · trivial
      · split
        · trivial
        · split
          · trivial
          · exact ⟨hsleep _, fun _ => ih⟩

theorem quiet_reached
    (h : ∀ format, kind (.run (inspectArgv format config.brokerName) none) = true)
    (hsleep : ∀ seconds, kind (.sleep seconds) = true) :
    (reached config sha candidate).Quiet kind := by
  refine Quiet.bind (Quiet.bind (quiet_orIfRefused (h _)) fun _ => trivial) fun up => ?_
  split
  · trivial
  · refine Quiet.bind (quiet_orIfRefused (h _)) fun image => ?_
    split
    · trivial
    · refine Quiet.bind (quiet_orIfRefused (h _)) fun revision => ?_
      split
      · trivial
      · exact quiet_awaitHealthy (h _) hsleep _

theorem quiet_replaceBroker {previous : Option String}
    (hstop : kind (.run (stopArgv config.brokerName) none) = true)
    (hremove : kind (.run (removeArgv config.brokerName) none) = true)
    (hrun : ∀ image, kind (.run (runtimeShape config image) none) = true)
    (h : ∀ format, kind (.run (inspectArgv format config.brokerName) none) = true)
    (hsleep : ∀ seconds, kind (.sleep seconds) = true) :
    (replaceBroker config sha image candidate previous).Quiet kind := by
  refine Quiet.bind ?_ fun _ => Quiet.bind (Quiet.catching ?_ fun e => ?_) fun _ => trivial
  · cases previous with
    | none => trivial
    | some image => exact (quiet_hostRun hstop).bind fun _ => quiet_orIfRefused hremove
  · refine (quiet_runBroker hrun).bind fun _ => (quiet_reached h hsleep).bind fun _ => ?_
    exact quiet_require _ _
  · unfold rollBack
    split
    · refine Quiet.bind (quiet_orIfRefused hremove) fun _ => ?_
      cases previous with
      | none => trivial
      | some image => exact (quiet_runBroker hrun).bind fun _ => trivial
    · trivial

end Kinds

end Supervisor

end FossilCore
