import FossilCore.TrustedLocal.Supervisor

/-!
# The release gate

A pass of the supervisor runs a docker command that changes the host only after the release passed
the gate: a trusted directive names the commit, `origin/main` is that commit, and its check runs
were read as successful.  The read is of the first page of check runs only, so the gate is sound
exactly for those states of GitHub where the first page tells of all the runs.
-/

namespace FossilCore

namespace Supervisor

open Base Base.Program

/-- A trusted comment has a release directive of this repository for the commit. -/
def Names (comment : Comment) (sha : String) : Prop :=
  comment.trusted = true ∧ ∃ line ∈ Text.splitlines comment.body, ∃ tokens,
    Text.words line = "BROKER_RELEASE" :: tokens ∧ fieldOf tokens "repo" = some REPOSITORY ∧
      fieldOf tokens "reviewed_sha" = some sha ∧ isSha sha = true

theorem releaseOfLine_eq_some {line : String} {release : Release} :
    releaseOfLine line = some release ↔ ∃ tokens, Text.words line = "BROKER_RELEASE" :: tokens ∧
      fieldOf tokens "repo" = some REPOSITORY ∧
        fieldOf tokens "reviewed_sha" = some release.sha ∧ isSha release.sha = true := by
  cases hwords : Text.words line with
  | nil => simp [releaseOfLine, hwords]
  | cons head tokens =>
      cases hsha : fieldOf tokens "reviewed_sha" with
      | none =>
          have hempty : isSha "" = false := by decide
          simp [releaseOfLine, hwords, hsha, hempty]
      | some sha =>
          cases release with
          | mk sha' =>
              simp only [releaseOfLine, hwords, hsha, Option.getD_some, List.cons.injEq]
              constructor
              · intro h
                split at h
                · rename_i hline
                  obtain rfl := Release.mk.inj (Option.some.inj h)
                  exact ⟨tokens, ⟨hline.1, rfl⟩, hline.2.1, hsha, hline.2.2⟩
                · cases h
              · rintro ⟨_, ⟨rfl, rfl⟩, hrepo, hsha', hvalid⟩
                obtain rfl := Option.some.inj (hsha.symm.trans hsha')
                rw [if_pos ⟨rfl, hrepo, hvalid⟩]

theorem mem_parseReleaseDirectives {comments : List Comment} {release : Release} :
    release ∈ parseReleaseDirectives comments ↔ ∃ comment ∈ comments, Names comment release.sha := by
  simp only [parseReleaseDirectives, List.mem_flatMap, List.mem_filter, List.mem_filterMap,
    releaseOfLine_eq_some, Names]
  constructor
  · rintro ⟨comment, ⟨hcomment, htrusted⟩, line, hline, h⟩
    exact ⟨comment, hcomment, htrusted, line, hline, h⟩
  · rintro ⟨comment, hcomment, htrusted, line, hline, h⟩
    exact ⟨comment, ⟨hcomment, htrusted⟩, line, hline, h⟩

/-! ## The gate -/

/-- Is the call a read that a release is verified by? -/
def isVerification (config : SupervisorConfig) : HostCall → Bool
  | .get _ => true
  | .run argv _ => argv = mainArgv config
  | _ => false

/-- The check runs a commit may have when they are read. -/
abbrev GitHub := String → List Json → Prop

/-- The response lists the first page of the check runs. -/
def Serves (runs : List Json) (payload : Json) : Prop :=
  payload.get? "check_runs" = some (.arr (runs.take 100))

def AnsweredFrom (github : GitHub) (t : List HostExchange) : Prop :=
  ∀ sha payload, (⟨.get (checkRunsUrl sha), .ok payload⟩ : HostExchange) ∈ t →
    ∃ runs, github sha runs ∧ Serves runs payload

/-- A response with the first page. -/
def firstPage (runs : List Json) : Json := .obj [("check_runs", .arr (runs.take 100))]

theorem serves_firstPage (runs : List Json) : Serves runs (firstPage runs) := rfl

/-- All check runs, and at least one, are completed with success. -/
def AllPassed (runs : List Json) : Prop := runs ≠ [] ∧ ∀ run ∈ runs, passed run = true

/-- The last verification in the transcript is of a commit that a comment of the queue names, that
was the head of the fixed origin, and whose check runs had all passed. -/
def Gated (config : SupervisorConfig) (github : GitHub) (queue : List Comment)
    (t : List HostExchange) : Prop :=
  ∃ sha earlier origin main payload later,
    t = earlier ++ ⟨.run (originArgv config.repositoryPath) none, .ok origin⟩ ::
      ⟨.run (mainArgv config) none, .ok main⟩ :: ⟨.get (checkRunsUrl sha), .ok payload⟩ :: later ∧
    (∀ exchange ∈ later, isVerification config exchange.1 = false) ∧
    (∃ comment ∈ queue, Names comment sha) ∧ isFixedOrigin origin = true ∧
    (Text.words main).head? = some sha ∧
    ∀ runs, github sha runs → Serves runs payload → AllPassed runs

/-- Every docker command of the pass that changes the host was issued behind the gate. -/
def GatedPass (config : SupervisorConfig) (github : GitHub) (t : List HostExchange) : Prop :=
  ∀ before call answer after, t = before ++ ⟨call, answer⟩ :: after → call.changesState = true →
    ∃ queue first rest, before = first ++ rest ∧ readComments.Ends first (.ok queue) ∧
      Gated config github queue rest

/-- The runs of the first page have not all passed unless all runs have. -/
def FirstPageTells (runs : List Json) : Prop := AllPassed (runs.take 100) → AllPassed runs

/-! ## What precedes a change -/

section

variable {config : SupervisorConfig} {release : Release} {t : List HostExchange}

theorem quiet_deploy (sha : String) :
    (deploy config sha).Quiet fun call => !isVerification config call := by
  refine Quiet.bind ((quiet_require _ _).bind fun _ => trivial) fun image => Quiet.bind ?_ fun _ =>
    Quiet.bind (quiet_orIfRefused ?_) fun _ => ?_
  · apply quiet_buildCandidate
    · exact fun _ => rfl
    · exact fun _ => rfl
    · simp [isVerification, mainArgv, gitArgv, worktreeAddArgv, worktreeRemoveArgv, headArgv, originArgv]
    · simp [isVerification, mainArgv, gitArgv, buildArgv, imageIdArgv, smokeArgv]
  · simp [isVerification, mainArgv, gitArgv, inspectArgv]
  · apply quiet_replaceBroker
    · simp [isVerification, mainArgv, gitArgv, stopArgv]
    · simp [isVerification, mainArgv, gitArgv, removeArgv]
    · simp [isVerification, mainArgv, gitArgv, runtimeShape]
    · simp [isVerification, mainArgv, gitArgv, inspectArgv]
    · exact fun _ => rfl

theorem quiet_afterVerification (sha : String) :
    (isCurrent config sha >>= fun current =>
      if current then return .noop else deploy config sha).Quiet
        fun call => !isVerification config call := by
  refine Quiet.bind (quiet_isCurrent ?_) fun current => ?_
  · simp [isVerification, mainArgv, gitArgv, inspectArgv]
  · split
    · trivial
    · exact quiet_deploy sha

theorem verifyRelease_keeps :
    (verifyRelease config release).Quiet fun call => !call.changesState := by
  apply quiet_verifyRelease <;> simp [HostCall.changesState, originArgv, mainArgv, gitArgv]

theorem ends_verifyRelease (h : (verifyRelease config release).Ends t (.ok ())) :
    ∃ origin main payload checks,
      t = [⟨.run (originArgv config.repositoryPath) none, .ok origin⟩,
        ⟨.run (mainArgv config) none, .ok main⟩, ⟨.get (checkRunsUrl release.sha), .ok payload⟩] ∧
      isFixedOrigin origin = true ∧ (Text.words main).head? = some release.sha ∧
      payload.get? "check_runs" = some (.arr checks) ∧ AllPassed checks := by
  obtain ⟨_, _, rest, rfl, ⟨rfl, -⟩, hsha⟩ := ends_bind_ok.mp h
  rcases ends_require_bind.mp hsha with ⟨-, hverify⟩ | ⟨-, -, hraised⟩
  · obtain ⟨_, first, rest, rfl, horigin, hevidence⟩ := ends_bind_ok.mp hverify
    obtain ⟨origin, main, rfl, hfixed, hmain⟩ := ends_verifyOriginAndMain horigin
    obtain ⟨success, first, rest, rfl, hchecks, hrequired⟩ := ends_bind_ok.mp hevidence
    obtain ⟨rfl, hsuccess⟩ := ends_require.mp hrequired
    cases success with
    | false => cases hsuccess
    | true =>
        obtain ⟨payload, checks, rfl, hpayload, hne, hall⟩ := ends_checksSuccessful hchecks
        exact ⟨origin, main, payload, checks, rfl, hfixed, hmain, hpayload, hne, hall⟩
  · cases hraised

/-- A command of a release that changes the host stands behind its verification. -/
theorem ends_applyRelease_change {before after : List HostExchange} {exchange : HostExchange}
    {x : Except RunnerError Outcome}
    (h : (applyRelease config release).Ends (before ++ exchange :: after) x)
    (hchange : exchange.1.changesState = true) : ∃ verified later,
      before = verified ++ later ∧ (verifyRelease config release).Ends verified (.ok ()) ∧
        ∀ exchange ∈ later, isVerification config exchange.1 = false := by
  have hkeeps {s : List HostExchange} {y : Except RunnerError Unit}
      (hs : (verifyRelease config release).Ends s y) : exchange ∉ s := fun hmem => by
    have := verifyRelease_keeps.of_ends hs exchange hmem
    simp [hchange] at this
  rcases ends_bind.mp h with ⟨e, hraised, -⟩ | ⟨_, verified, rest, hsplit, hverified, hrest⟩
  · exact absurd (List.mem_append_right before List.mem_cons_self) (hkeeps hraised)
  · rcases append_cons_cases hsplit with ⟨last, rfl, -⟩ | ⟨later, rfl, rfl⟩
    · exact absurd (List.mem_append_right before List.mem_cons_self) (hkeeps hverified)
    · refine ⟨verified, later, rfl, hverified, fun e he => ?_⟩
      have := (quiet_afterVerification release.sha).of_ends hrest e (List.mem_append_left _ he)
      simpa using this

end

/-! ## The pass -/

section

variable {config : SupervisorConfig} {github : GitHub} {t : List HostExchange}

theorem readPages_keeps (left page : ℕ) (comments : List Comment) :
    (readPages left page comments).Quiet fun call => !call.changesState := by
  induction left generalizing page comments with
  | zero => trivial
  | succ left ih =>
      refine Quiet.bind ⟨rfl, fun _ => trivial⟩ fun data => (quiet_require _ _).bind fun _ => ?_
      dsimp only
      split
      · trivial
      · exact ih _ _

theorem readComments_keeps : readComments.Quiet fun call => !call.changesState := by
  refine (readPages_keeps 100 1 []).catching fun e => ?_
  split <;> trivial

/-- Where the first page tells of all runs, every change stands behind the gate. -/
theorem gatedPass_of_firstPageTells
    (hgithub : ∀ sha runs, isSha sha = true → github sha runs → FirstPageTells runs)
    {x : Except RunnerError (List Outcome)} (h : (supervisorPass config).Ends t x)
    (hanswers : AnsweredFrom github t) : GatedPass config github t := by
  rintro before call answer after rfl hchange
  have hkeeps {s : List HostExchange} {y : Except RunnerError (List Comment)}
      (hs : readComments.Ends s y) : (⟨call, answer⟩ : HostExchange) ∉ s := fun hmem => by
    have := readComments_keeps.of_ends hs _ hmem
    simp [hchange] at this
  rcases ends_bind.mp h with ⟨e, hraised, -⟩ | ⟨queue, first, rest, hsplit, hqueue, hrest⟩
  · exact absurd (List.mem_append_right before List.mem_cons_self) (hkeeps hraised)
  · rcases append_cons_cases hsplit with ⟨last, rfl, -⟩ | ⟨later, rfl, rfl⟩
    · exact absurd (List.mem_append_right before List.mem_cons_self) (hkeeps hqueue)
    · obtain ⟨release, hrelease, earlier, turn, _, _, rfl, hturn⟩ := ends_forEach hrest
      obtain ⟨verified, later, rfl, hverified, hlater⟩ := ends_applyRelease_change hturn hchange
      obtain ⟨origin, main, payload, checks, rfl, hfixed, hmain, hpayload, hpassed⟩ :=
        ends_verifyRelease hverified
      obtain ⟨comment, hcomment, hnames⟩ := mem_parseReleaseDirectives.mp hrelease
      obtain ⟨-, -, -, -, -, -, -, hvalid⟩ := id hnames
      refine ⟨queue, first, _, rfl, hqueue, release.sha, earlier, origin, main, payload, later,
        by simp, hlater, ⟨comment, hcomment, hnames⟩, hfixed, hmain, ?_⟩
      intro runs hruns hserves
      have hchecks : checks = runs.take 100 :=
        Json.arr.inj (Option.some.inj (hpayload.symm.trans hserves))
      exact hgithub release.sha runs hvalid hruns (hchecks ▸ hpassed)

end

/-! ## Directives and addresses as they are written -/

theorem isToken_of_isSha {sha : String} (h : isSha sha = true) : Text.IsToken sha := by
  simp only [isSha, Bool.decide_and, Bool.decide_eq_true, Bool.and_eq_true, decide_eq_true_eq] at h
  refine ⟨?_, fun c hc => ?_⟩
  · rintro rfl
    exact absurd h.1 (by decide)
  · rcases (Bool.or_eq_true _ _).mp (List.all_eq_true.mp h.2 c hc) with hc | hc
    · simp only [Char.isDigit, Bool.and_eq_true, decide_eq_true_eq] at hc
      have hlow : 48 ≤ c.toNat := hc.1
      have hhigh : c.toNat ≤ 57 := hc.2
      exact Text.isWhitespace_eq_false (by omega) (by omega)
    · simp only [Bool.and_eq_true, decide_eq_true_eq] at hc
      have hlow : 97 ≤ c.toNat := hc.1
      have hhigh : c.toNat ≤ 102 := hc.2
      exact Text.isWhitespace_eq_false (by omega) (by omega)

theorem fieldOf_map {fields : List (String × String)} (h : ∀ field ∈ fields, '=' ∉ field.1.toList)
    (name : String) :
    fieldOf (fields.map fun field => field.1 ++ "=" ++ field.2) name = fields.reverse.lookup name := by
  have hfilter : (fields.map fun field => field.1 ++ "=" ++ field.2).filter
      (fun token => '=' ∈ token.toList) = fields.map fun field => field.1 ++ "=" ++ field.2 := by
    refine List.filter_eq_self.mpr fun token htoken => ?_
    obtain ⟨field, -, rfl⟩ := List.mem_map.mp htoken
    simp
  have hsplit : (fields.map fun field => field.1 ++ "=" ++ field.2).map Text.splitEquals = fields := by
    rw [List.map_map]
    refine (List.map_congr_left fun field hfield => ?_).trans (List.map_id fields)
    exact Text.splitEquals_append (h field hfield) field.2
  rw [fieldOf, hfilter, hsplit]

def releaseFields (sha : String) : List (String × String) :=
  [("repo", REPOSITORY), ("reviewed_sha", sha)]

/-- The text of a release directive. -/
def releaseText (sha : String) : String :=
  "BROKER_RELEASE" ++ " " ++
    ("repo" ++ "=" ++ REPOSITORY ++ " " ++ ("reviewed_sha" ++ "=" ++ sha))

theorem isToken_shaField {sha : String} (h : isSha sha = true) :
    Text.IsToken ("reviewed_sha" ++ "=" ++ sha) := by
  refine ⟨?_, fun c hc => ?_⟩
  · intro hempty
    have hlist := congrArg String.toList hempty
    simp at hlist
  · rw [String.toList_append, List.mem_append] at hc
    rcases hc with hc | hc
    · have hname : ∀ c ∈ ("reviewed_sha" ++ "=").toList, Text.isWhitespace c = false := by decide
      exact hname c hc
    · exact (isToken_of_isSha h).2 c hc

theorem words_releaseText {sha : String} (h : isSha sha = true) : Text.words (releaseText sha) =
    "BROKER_RELEASE" :: (releaseFields sha).map fun field => field.1 ++ "=" ++ field.2 := by
  rw [releaseText, Text.words_space_append (by decide), Text.words_space_append (by decide),
    Text.words_token (isToken_shaField h)]
  rfl

theorem splitlines_releaseText {sha : String} (h : isSha sha = true) :
    Text.splitlines (releaseText sha) = [releaseText sha] := by
  have hfixed : ∀ c ∈ ("BROKER_RELEASE" ++ " " ++ ("repo" ++ "=" ++ REPOSITORY ++ " ")).toList,
      Text.isLineBreak c = false := by decide
  apply Text.splitlines_of_no_break
  · intro hempty
    have hlist := congrArg String.toList hempty
    simp [releaseText] at hlist
  · intro c hc
    rw [releaseText, ← String.append_assoc, String.toList_append, List.mem_append] at hc
    rcases hc with hc | hc
    · exact hfixed c hc
    · exact (isToken_shaField h).no_break hc

theorem releaseOfLine_releaseText {sha : String} (h : isSha sha = true) :
    releaseOfLine (releaseText sha) = some ⟨sha⟩ := by
  have hnames : ∀ field ∈ releaseFields sha, '=' ∉ field.1.toList := by
    simp only [releaseFields, List.mem_cons, List.not_mem_nil, or_false]
    rintro field (rfl | rfl)
    · show '=' ∉ "repo".toList
      decide
    · show '=' ∉ "reviewed_sha".toList
      decide
  refine releaseOfLine_eq_some.mpr ⟨_, words_releaseText h, ?_, ?_, h⟩
  · rw [fieldOf_map hnames]
    rfl
  · rw [fieldOf_map hnames]
    rfl

theorem parseReleaseDirectives_releaseText {sha login : String} (h : isSha sha = true)
    (hlogin : login ∈ TRUSTED_AUTHORS) (id : Option ℤ) :
    parseReleaseDirectives [⟨some login, releaseText sha, id⟩] = [⟨sha⟩] := by
  have htrusted : Comment.trusted ⟨some login, releaseText sha, id⟩ = true := decide_eq_true hlogin
  rw [parseReleaseDirectives, List.filter_cons_of_pos htrusted, List.filter_nil,
    List.flatMap_singleton, splitlines_releaseText h, List.filterMap_cons_some
    (releaseOfLine_releaseText h), List.filterMap_nil]

theorem commentsUrl_ne_checkRunsUrl (page : ℕ) (sha : String) :
    commentsUrl page ≠ checkRunsUrl sha := by
  intro h
  unfold commentsUrl checkRunsUrl at h
  have hlist := congrArg String.toList h
  simp only [String.toList_append, List.append_assoc] at hlist
  have hrest := List.append_cancel_left (List.append_cancel_left hlist)
  have hsecond := congrArg (List.take 2) hrest
  rw [List.take_append_of_le_length (by decide), List.take_append_of_le_length (by decide)] at hsecond
  exact absurd hsecond (by decide)

theorem checkRunsUrl_injective {sha sha' : String} (h : checkRunsUrl sha = checkRunsUrl sha') :
    sha = sha' := by
  unfold checkRunsUrl at h
  have hlist := congrArg String.toList h
  simp only [String.toList_append, List.append_assoc] at hlist
  have hrest := List.append_cancel_left (List.append_cancel_left (List.append_cancel_left hlist))
  exact String.toList_inj.mp (List.append_cancel_right hrest)

/-! ## A pass that builds a commit of which only the first page was read -/

def refused : RunnerError := .supervisorError "host command failed"

def fixedOrigin : String := "https://github.com/Pukujan/fossil-core"

def buildWorktree : String := "/tmp/fossil-broker-release-0" ++ "/source"

def releaseComment (sha : String) : Json :=
  .obj [("body", .str (releaseText sha)), ("user", .obj [("login", .str "Pukujan")])]

/-- What the verification of the commit reads. -/
def verification (config : SupervisorConfig) (sha : String) (payload : Json) : List HostExchange :=
  [⟨.run (originArgv config.repositoryPath) none, .ok fixedOrigin⟩,
    ⟨.run (mainArgv config) none, .ok (sha ++ "\t" ++ "refs/heads/main")⟩,
    ⟨.get (checkRunsUrl sha), .ok payload⟩]

/-- What precedes the build, when no container of the broker is there. -/
def beforeBuild (config : SupervisorConfig) (sha : String) : List HostExchange :=
  [⟨.run (inspectArgv runningFormat config.brokerName) none, .error refused⟩,
    ⟨.temporaryDirectory "fossil-broker-release-", .ok "/tmp/fossil-broker-release-0"⟩,
    ⟨.run (worktreeAddArgv config buildWorktree sha) none, .ok ""⟩,
    ⟨.run (headArgv buildWorktree) none, .ok sha⟩,
    ⟨.run (originArgv buildWorktree) none, .ok fixedOrigin⟩]

/-- A build that fails, and what the `finally` clauses do. -/
def failedBuild (config : SupervisorConfig) (sha : String) : List HostExchange :=
  [⟨.run (buildArgv sha (candidateImage sha)) (some buildWorktree), .error refused⟩,
    ⟨.run (worktreeRemoveArgv config buildWorktree) none, .ok ""⟩,
    ⟨.cleanup "/tmp/fossil-broker-release-0", .ok ()⟩]

section

variable {config : SupervisorConfig} {sha : String} {payload : Json} {runs : List Json}

theorem readComments_releaseComment :
    readComments.Ends [⟨.get (commentsUrl 1), .ok (.arr [releaseComment sha])⟩]
      (.ok [⟨some "Pukujan", releaseText sha, none⟩]) :=
  ⟨.ok (.arr [releaseComment sha]), [], rfl, rfl, rfl⟩

theorem ends_require_ok {condition : Bool} {message : String} (h : condition = true) :
    (require condition message).Ends [] (.ok ()) :=
  ends_require.mpr ⟨rfl, by rw [if_pos h]⟩

theorem ends_verifiedOrigin (hsha : isSha sha = true) :
    (verifyOriginAndMain config sha).Ends
      [⟨.run (originArgv config.repositoryPath) none, .ok fixedOrigin⟩,
        ⟨.run (mainArgv config) none, .ok (sha ++ "\t" ++ "refs/heads/main")⟩] (.ok ()) := by
  have hmain : (Text.words (sha ++ "\t" ++ "refs/heads/main")).head? = some sha := by
    rw [Text.words_token_append (isToken_of_isSha hsha) rfl (by decide)]
    rfl
  refine ⟨.ok fixedOrigin, _, rfl, ends_require_bind.mpr (Or.inl ⟨by decide, ?_⟩)⟩
  exact ⟨.ok _, [], rfl, ends_require_ok (decide_eq_true hmain)⟩

theorem ends_passedChecks (hsha : isSha sha = true) (hserves : Serves runs payload)
    (hpassed : AllPassed (runs.take 100)) :
    (checksSuccessful sha).Ends [⟨.get (checkRunsUrl sha), .ok payload⟩] (.ok true) := by
  have htruthy : (Json.arr (runs.take 100)).truthy = true := decide_eq_true hpassed.1
  rw [checksSuccessful, if_neg (by simp [hsha])]
  refine ⟨.ok payload, [], rfl, ?_⟩
  show (checksPassed payload).Ends [] _
  rw [checksPassed, hserves, Option.getD_some, htruthy]
  exact ⟨rfl, congrArg Except.ok (List.all_eq_true.mpr hpassed.2).symm⟩

theorem ends_verification (hconfig : config.validate = .ok ()) (hsha : isSha sha = true)
    (hserves : Serves runs payload) (hpassed : AllPassed (runs.take 100)) :
    (verifyRelease config ⟨sha⟩).Ends (verification config sha payload) (.ok ()) := by
  rw [verifyRelease, hconfig]
  refine ends_require_bind.mpr (Or.inl ⟨hsha, ?_⟩)
  exact (ends_verifiedOrigin hsha).bind
    ((ends_passedChecks hsha hserves hpassed).bind (ends_require_ok rfl))

theorem ends_failedBuild (hsha : isSha sha = true) :
    (isCurrent config sha >>= fun current =>
      if current then return .noop else deploy config sha).Ends
        (beforeBuild config sha ++ failedBuild config sha) (.error refused) := by
  have hbody : (buildAndSmoke sha (candidateImage sha) buildWorktree).Ends
      [⟨.run (headArgv buildWorktree) none, .ok sha⟩,
        ⟨.run (originArgv buildWorktree) none, .ok fixedOrigin⟩,
        ⟨.run (buildArgv sha (candidateImage sha)) (some buildWorktree), .error refused⟩]
      (.error refused) := by
    refine ⟨.ok sha, _, rfl, ends_require_bind.mpr (Or.inl ⟨decide_eq_true rfl, ?_⟩)⟩
    refine ⟨.ok fixedOrigin, _, rfl, ends_require_bind.mpr (Or.inl ⟨by decide, ?_⟩)⟩
    exact ⟨.error refused, [], rfl, rfl, rfl⟩
  have hin : (buildIn config sha (candidateImage sha) buildWorktree).Ends
      [⟨.run (worktreeAddArgv config buildWorktree sha) none, .ok ""⟩,
        ⟨.run (headArgv buildWorktree) none, .ok sha⟩,
        ⟨.run (originArgv buildWorktree) none, .ok fixedOrigin⟩,
        ⟨.run (buildArgv sha (candidateImage sha)) (some buildWorktree), .error refused⟩,
        ⟨.run (worktreeRemoveArgv config buildWorktree) none, .ok ""⟩] (.error refused) := by
    refine ⟨.ok "", _, rfl, ends_ensuring.mpr ⟨_, [⟨.run (worktreeRemoveArgv config buildWorktree) none, .ok ""⟩], _, .ok (), ?_, hbody, ?_, rfl⟩⟩
    · rfl
    · exact ⟨.ok "", [], rfl, rfl, rfl⟩
  have hcandidate : (buildCandidate config sha (candidateImage sha)).Ends
      ((beforeBuild config sha).tail ++ failedBuild config sha) (.error refused) := by
    refine ⟨.ok _, _, rfl, ends_ensuring.mpr ⟨_, [⟨.cleanup "/tmp/fossil-broker-release-0", .ok ()⟩], _, .ok (), ?_, hin, ?_, rfl⟩⟩
    · rfl
    · exact ⟨.ok (), [], rfl, rfl, rfl⟩
  refine ⟨.error refused, _, rfl, ?_⟩
  have htag : candidateTag sha = Program.done (.ok (candidateImage sha)) := by
    rw [candidateTag, hsha]
    rfl
  show (candidateTag sha >>= _).Ends _ _
  rw [htag]
  exact hcandidate.raise

/-- The pass that builds the commit. -/
def ungatedPass (config : SupervisorConfig) (sha : String) (payload : Json) : List HostExchange :=
  [⟨.get (commentsUrl 1), .ok (.arr [releaseComment sha])⟩] ++
    (verification config sha payload ++ (beforeBuild config sha ++ failedBuild config sha))

theorem ends_ungatedPass (hconfig : config.validate = .ok ()) (hsha : isSha sha = true)
    (hserves : Serves runs payload) (hpassed : AllPassed (runs.take 100)) :
    (supervisorPass config).Ends (ungatedPass config sha payload) (.error refused) := by
  refine readComments_releaseComment.bind ?_
  rw [parseReleaseDirectives_releaseText hsha (by decide)]
  exact Ends.raise ((ends_verification hconfig hsha hserves hpassed).bind (ends_failedBuild hsha))

theorem eq_of_mem_ungatedPass {sha' : String} {payload' : Json}
    (h : (⟨.get (checkRunsUrl sha'), .ok payload'⟩ : HostExchange) ∈ ungatedPass config sha payload) :
    sha' = sha ∧ payload' = payload := by
  have hcomments : checkRunsUrl sha' ≠ commentsUrl 1 := (commentsUrl_ne_checkRunsUrl 1 sha').symm
  have heq : checkRunsUrl sha' = checkRunsUrl sha ∧ payload' = payload := by
    simpa [ungatedPass, verification, beforeBuild, failedBuild, hcomments] using h
  exact ⟨checkRunsUrl_injective heq.1, heq.2⟩

theorem answeredFrom_ungatedPass {github : GitHub} (hruns : github sha runs)
    (hserves : Serves runs payload) : AnsweredFrom github (ungatedPass config sha payload) := by
  intro sha' payload' hmem
  obtain ⟨rfl, rfl⟩ := eq_of_mem_ungatedPass hmem
  exact ⟨runs, hruns, hserves⟩

theorem allPassed_of_gatedPass {github : GitHub} (hruns : github sha runs)
    (hserves : Serves runs payload)
    (h : GatedPass config github (ungatedPass config sha payload)) : AllPassed runs := by
  have hsplit : ungatedPass config sha payload =
      ([⟨.get (commentsUrl 1), .ok (.arr [releaseComment sha])⟩] ++
        (verification config sha payload ++ beforeBuild config sha)) ++
      ⟨.run (buildArgv sha (candidateImage sha)) (some buildWorktree), .error refused⟩ ::
        (failedBuild config sha).tail := rfl
  obtain ⟨queue, first, rest, hbefore, -, sha', earlier, origin, main, payload', later, rfl, -, -, -,
    -, hall⟩ := h _ _ _ _ hsplit rfl
  have hmem : (⟨.get (checkRunsUrl sha'), .ok payload'⟩ : HostExchange) ∈
      ungatedPass config sha payload := by
    rw [hsplit, hbefore]
    simp
  obtain ⟨rfl, rfl⟩ := eq_of_mem_ungatedPass hmem
  exact hall runs hruns hserves

end

@[irreducible] def sampleConfig : SupervisorConfig where
  repositoryPath := "/srv/fossil-core"
  brokerConfigFile := "/srv/fossil/broker.json"

def sampleSha : String := "0123456789abcdef0123456789abcdef01234567"

def checkRun (conclusion : String) : Json :=
  .obj [("conclusion", .str conclusion), ("status", .str "completed")]

/-- The last of 101 check runs of a commit failed. -/
def lateFailure : List Json := List.replicate 100 (checkRun "success") ++ [checkRun "failure"]

end Supervisor

end FossilCore
