import FossilCore.TrustedLocal.ClaimLedger

/-!
# The stability of claims

A claim that wins its task keeps it, whatever the other agents post, exactly where no earlier claim
of another agent has merely expired: a renewal extends the last claim that is not released, and does
not ask whether it is active.
-/

namespace FossilCore

open Base Base.Pattern

section Stable

variable {parseDeadline : String → Except RunnerError ℤ}

/-- However the log grows without a release or a renewal for the agent of the claim, every ledger
of it elects the claim for its task as long as the lease runs. -/
def StaysElected (parseDeadline : String → Except RunnerError ℤ) (log : List Comment)
    (task : String) (now : ℤ) (winner : LedgerClaim) : Prop :=
  ∀ extension now' ledger, (∀ comment ∈ extension, Spares task winner.agent comment) →
    now ≤ now' → now' < winner.lease_until →
    parseClaimLedger parseDeadline (log ++ extension) now' = .ok ledger →
      ledger.claims[task]? = some winner

/-- The claims that were posted before the first one that is active for the task. -/
def claimsBefore (task : String) (now : ℤ) (candidates : List LedgerClaim) : List LedgerClaim :=
  candidates.takeWhile fun claim => !claim.competes task now

/-- The winner of a task, with the claims before it. -/
theorem winner_split {candidates : List LedgerClaim} {task : String} {now : ℤ}
    {winner : LedgerClaim} (h : candidates.find? (LedgerClaim.competes task now) = some winner) :
    winner.competes task now = true ∧ ∃ later,
      candidates = claimsBefore task now candidates ++ winner :: later ∧
        ∀ claim ∈ claimsBefore task now candidates, claim.competes task now = false := by
  obtain ⟨hwinner, before, later, rfl, hbefore⟩ := List.find?_eq_some_iff_append.mp h
  have htake : claimsBefore task now (before ++ winner :: later) = before := by
    rw [claimsBefore, List.takeWhile_append_of_pos hbefore,
      List.takeWhile_cons_of_neg (by rw [hwinner]; decide), List.append_nil]
  refine ⟨hwinner, later, by rw [htake], fun claim hclaim => ?_⟩
  rw [htake] at hclaim
  simpa using hbefore claim hclaim

theorem competes_iff {task : String} {now : ℤ} {claim : LedgerClaim} :
    claim.competes task now = true ↔
      claim.task_id = task ∧ claim.released = false ∧ now < claim.lease_until := by
  simp only [LedgerClaim.competes, LedgerClaim.activeFor, Bool.and_eq_true, Bool.not_eq_true',
    decide_eq_true_eq]

/-- Claims that are kept stay out of the competition, where those of other agents are released. -/
theorem not_competes_of_kept {task agent : String} {now now' : ℤ} (hnow : now ≤ now')
    {claim claim' : LedgerClaim} (hkept : KeptAs task agent claim claim')
    (hout : claim.competes task now = false)
    (hreleased : claim.task_id = task → claim.agent ≠ agent → claim.released = true) :
    claim'.competes task now' = false := by
  refine Bool.eq_false_iff.mpr fun hcompetes => Bool.eq_false_iff.mp hout ?_
  obtain ⟨htask', hunreleased, hlease⟩ := competes_iff.mp hcompetes
  have htask : claim.task_id = task := hkept.1.symm.trans htask'
  have hsame : claim' = claim := by
    refine hkept.2.2 ?_
    by_cases hagent : claim.agent = agent
    · exact Or.inr ⟨htask, hagent⟩
    · exact Or.inl (hreleased htask hagent)
  subst hsame
  exact competes_iff.mpr ⟨htask, hunreleased, by omega⟩

theorem staysElected_of_released {log : List Comment} {candidates : List LedgerClaim}
    {task : String} {now : ℤ} {winner : LedgerClaim}
    (hlog : claimCandidates parseDeadline log = .ok candidates)
    (hwinner : candidates.find? (LedgerClaim.competes task now) = some winner)
    (hreleased : ∀ claim ∈ claimsBefore task now candidates, claim.task_id = task →
      claim.agent ≠ winner.agent → claim.released = true) :
    StaysElected parseDeadline log task now winner := by
  intro extension now' ledger hspares hnow hlease hledger
  obtain ⟨hcompetes, later, hsplit, hbefore⟩ := winner_split hwinner
  obtain ⟨candidates', hcandidates', hclaims⟩ := parseClaimLedger_ok hledger
  rw [claimCandidates_append hlog] at hcandidates'
  obtain ⟨old, new, rfl, hkept⟩ := foldlM_claimStep_extends hspares hcandidates'
  rw [hsplit] at hkept
  obtain ⟨before', rest, rfl, hkeptBefore, hrest⟩ := forall₂_append_left hkept
  cases hrest with
  | cons hkeptWinner hkeptLater =>
      obtain ⟨htask, hunreleased, -⟩ := competes_iff.mp hcompetes
      obtain rfl := hkeptWinner.2.2 (Or.inr ⟨htask, rfl⟩)
      rw [hclaims, List.append_assoc, List.cons_append]
      refine List.find?_eq_some_iff_append.mpr
        ⟨competes_iff.mpr ⟨htask, hunreleased, hlease⟩, before', _, rfl, fun claim' hclaim' => ?_⟩
      obtain ⟨claim, hclaim, hkeptClaim⟩ := exists_of_forall₂_right hkeptBefore hclaim'
      rw [not_competes_of_kept hnow hkeptClaim (hbefore claim hclaim) (hreleased claim hclaim)]
      rfl

/-! ## The revival of an expired claim -/

def releaseText (task agent : String) : String := "RELEASE task=" ++ task ++ " agent=" ++ agent

def renewText (task agent lease : String) : String :=
  "RENEW task=" ++ task ++ " agent=" ++ agent ++ " lease_until=" ++ lease

theorem linesStartWith_releaseText {task agent : String} (htask : Text.IsToken task)
    (hagent : Text.IsToken agent) :
    LinesStartWith ["RELEASE task="] (releaseText task agent) := by
  rw [releaseText, String.append_assoc, String.append_assoc]
  refine LinesStartWith.line _ (by decide) (newline_not_mem_append.mpr
    ⟨newline_not_mem_of_isToken htask, newline_not_mem_append.mpr ⟨by decide, ?_⟩⟩)
  exact newline_not_mem_of_isToken hagent

theorem linesStartWith_renewText {task agent lease : String} (htask : Text.IsToken task)
    (hagent : Text.IsToken agent) (hlease : Text.IsToken lease) :
    LinesStartWith ["RENEW task="] (renewText task agent lease) := by
  rw [renewText, String.append_assoc, String.append_assoc, String.append_assoc,
    String.append_assoc]
  refine LinesStartWith.line _ (by decide) (newline_not_mem_append.mpr
    ⟨newline_not_mem_of_isToken htask, newline_not_mem_append.mpr ⟨by decide, ?_⟩⟩)
  exact newline_not_mem_append.mpr ⟨newline_not_mem_of_isToken hagent,
    newline_not_mem_append.mpr ⟨by decide, newline_not_mem_of_isToken hlease⟩⟩

theorem finditer_releaseText {task agent : String} (htask : Text.IsToken task)
    (hagent : Text.IsToken agent) :
    finditer RELEASE_LINE (releaseText task agent) = [⟨task, agent⟩] := by
  have hrun := @run_release _ _ [] htask hagent (by decide)
  rw [List.append_nil] at hrun
  exact (linesStartWith_releaseText htask hagent).finditer_eq hasKeyword_release rfl hrun

theorem leaseAfter_of_run {s : List Char} {match_ : String × List Char}
    (h : LEASE_LINE.run s = some match_) : leaseAfter s = some match_ := by
  cases s with
  | nil => cases h
  | cons c cs => rw [leaseAfter, h, Option.some_or]

/-- The agent is read whole, since the lease follows it. -/
theorem run_agentAndLease {agent lease : String} (hagent : Text.IsToken agent)
    (hlease : Text.IsToken lease) :
    agentAndLease.run (agent.toList ++ (' ' :: ("lease_until=".toList ++ lease.toList))) =
      some ((agent, lease), []) := by
  have hrun : LEASE_LINE.run ("lease_until=".toList ++ lease.toList) = some (lease, []) := by
    rw [LEASE_LINE, run_keyword]
    exact run_token.mpr ⟨hlease, by decide, (List.append_nil _).symm⟩
  have hafter : leaseAfter (' ' :: ("lease_until=".toList ++ lease.toList)) = some (lease, []) := by
    have hspace : LEASE_LINE.run (' ' :: ("lease_until=".toList ++ lease.toList)) = none :=
      (hasKeyword_lit "lease_until=").bind _ _ (by simp)
    rw [leaseAfter, hspace, Option.none_or, leaseAfter_of_run hrun]
  have htake : (agent.toList ++ (' ' :: ("lease_until=".toList ++ lease.toList))).takeWhile
      (fun c => !Text.isWhitespace c) = agent.toList := by
    rw [List.takeWhile_append_of_pos fun c hc => by rw [hagent.2 c hc]; rfl,
      List.takeWhile_cons_of_neg (by decide), List.append_nil]
  obtain ⟨n, hn⟩ := Nat.exists_eq_succ_of_ne_zero
    fun hzero => hagent.toList_ne_nil (List.length_eq_zero_iff.mp hzero)
  have hlen : 1 + n = agent.toList.length := by omega
  show (List.range' 1 (List.takeWhile _ _).length).reverse.findSome? _ = _
  rw [htake, hn, List.range'_1_concat, List.reverse_append, List.reverse_singleton,
    List.singleton_append, List.findSome?_cons, hlen, List.drop_left, hafter]
  simp only [Option.map_some, List.take_left, String.ofList_toList]

theorem finditer_renewText {task agent lease : String} (htask : Text.IsToken task)
    (hagent : Text.IsToken agent) (hlease : Text.IsToken lease) :
    finditer RENEW_LINE (renewText task agent lease) = [⟨task, agent, lease⟩] := by
  have hlist : (renewText task agent lease).toList =
      "RENEW".toList ++ (' ' :: (("task" ++ "=").toList ++ (task.toList ++ (' ' ::
        ("agent=".toList ++ (agent.toList ++ (' ' :: ("lease_until=".toList ++ lease.toList)))))))) :=
    by simp [renewText, String.toList_append]
  have hrun : RENEW_LINE.run (renewText task agent lease).toList =
      some (⟨task, agent, lease⟩, []) := by
    rw [hlist]
    refine run_bind_eq_some.mpr ⟨task, _, run_directive htask (stops_space _), ?_⟩
    refine run_bind_eq_some.mpr ⟨" ", _, run_many.mpr ⟨by decide, by decide, ?_, rfl⟩, ?_⟩
    · exact fun c hc => by cases hc; decide
    · refine run_bind_eq_some.mpr ⟨(), _, run_lit.mpr rfl, ?_⟩
      refine run_bind_eq_some.mpr ⟨(agent, lease), _, run_agentAndLease hagent hlease, ?_⟩
      exact run_pure_eq_some.mpr ⟨rfl, rfl⟩
  exact (linesStartWith_renewText htask hagent hlease).finditer_eq hasKeyword_renew rfl hrun

theorem claimStep_releaseText (candidates : List LedgerClaim) {task agent : String}
    (htask : Text.IsToken task) (hagent : Text.IsToken agent) :
    claimStep parseDeadline candidates (trustedComment (releaseText task agent)) =
      .ok (releaseClaim candidates ⟨task, agent⟩) := by
  have hlines := linesStartWith_releaseText htask hagent
  have hrenew : finditer RENEW_LINE (releaseText task agent) = [] :=
    (hlines.silent hasKeyword_renew (by decide)).finditer_eq
  have hclaim : search CLAIM_LINE (releaseText task agent) = none :=
    (hlines.silent (hasKeyword_directive "CLAIM") (by decide)).search_eq
  rw [claimStep, postedClaim, trustedComment, finditer_releaseText htask hagent, hrenew, hclaim]
  rfl

theorem claimStep_renewText (candidates : List LedgerClaim) {task agent lease : String} {t : ℤ}
    (htask : Text.IsToken task) (hagent : Text.IsToken agent) (hlease : Text.IsToken lease)
    (hparse : parseDeadline lease = .ok t) :
    claimStep parseDeadline candidates (trustedComment (renewText task agent lease)) =
      .ok (modifyLast (LedgerClaim.heldBy task agent)
        (fun claim => { claim with lease_until := t }) candidates) := by
  have hlines := linesStartWith_renewText htask hagent hlease
  have hrelease : finditer RELEASE_LINE (renewText task agent lease) = [] :=
    (hlines.silent hasKeyword_release (by decide)).finditer_eq
  have hclaim : search CLAIM_LINE (renewText task agent lease) = none :=
    (hlines.silent (hasKeyword_directive "CLAIM") (by decide)).search_eq
  rw [claimStep, postedClaim, trustedComment, finditer_renewText htask hagent hlease, hrelease,
    hclaim]
  simp only [List.foldlM_cons, List.foldlM_nil, renewClaim, hparse]
  rfl

/-- Task and agent are single words, and some word is the text of the lease. -/
def Worded (parseDeadline : String → Except RunnerError ℤ) (claim : LedgerClaim) : Prop :=
  Text.IsToken claim.task_id ∧ Text.IsToken claim.agent ∧
    ∃ lease, Text.IsToken lease ∧ parseDeadline lease = .ok claim.lease_until

theorem worded_modifyLast {p : LedgerClaim → Bool} {f : LedgerClaim → LedgerClaim}
    (hf : ∀ claim, Worded parseDeadline claim → Worded parseDeadline (f claim))
    {candidates : List LedgerClaim} (h : ∀ claim ∈ candidates, Worded parseDeadline claim) :
    ∀ claim ∈ modifyLast p f candidates, Worded parseDeadline claim := by
  intro claim' hclaim'
  obtain ⟨claim, hclaim, rfl | ⟨-, rfl⟩⟩ :=
    exists_of_forall₂_right (forall₂_modifyLast p f candidates) hclaim'
  · exact h claim' hclaim
  · exact hf claim (h claim hclaim)

theorem worded_releases {lines : List ReleaseLine} {candidates : List LedgerClaim}
    (h : ∀ claim ∈ candidates, Worded parseDeadline claim) :
    ∀ claim ∈ lines.foldl releaseClaim candidates, Worded parseDeadline claim := by
  induction lines generalizing candidates with
  | nil => exact h
  | cons line lines ih =>
      exact ih (worded_modifyLast (f := fun claim => { claim with released := true })
        (fun _ hclaim => hclaim) h)

/-- The token that a pattern reads. -/
theorem isToken_of_search {m : Pattern String} {text value : String}
    (hm : ∀ s rest value, m.run s = some (value, rest) → Text.IsToken value)
    (h : search m text = some value) : Text.IsToken value := by
  obtain ⟨start, -, hmatch⟩ := List.exists_of_findSome?_eq_some h
  obtain ⟨⟨found, rest⟩, hrun, hfound⟩ := Option.map_eq_some_iff.mp hmatch
  obtain rfl : found = value := hfound
  exact hm start rest found hrun

theorem isToken_of_run_directive {keyword value : String} {s rest : List Char}
    (h : (directive keyword).run s = some (value, rest)) : Text.IsToken value := by
  obtain ⟨⟨⟩, middle, -, hfield⟩ := run_bind_eq_some.mp h
  exact (run_field hfield).1

theorem isToken_of_run_assigned {name value : String} {s rest : List Char}
    (h : (lit name >>= fun _ => token).run s = some (value, rest)) : Text.IsToken value := by
  obtain ⟨⟨⟩, middle, -, htoken⟩ := run_bind_eq_some.mp h
  exact (run_token.mp htoken).1

theorem isToken_of_leaseAfter {s rest : List Char} {lease : String}
    (h : leaseAfter s = some (lease, rest)) : Text.IsToken lease := by
  induction s with
  | nil => cases h
  | cons c cs ih =>
      rw [leaseAfter, Option.or_eq_some_iff] at h
      rcases h with h | ⟨-, h⟩
      · exact isToken_of_run_assigned h
      · exact ih h

theorem isToken_of_mem_renewals {text : String} {renewal : Renewal}
    (h : renewal ∈ finditer RENEW_LINE text) : Text.IsToken renewal.lease := by
  obtain ⟨start, -, rest, hrun⟩ := exists_start_of_mem_finditer h
  obtain ⟨task, s₁, -, hrun⟩ := run_bind_eq_some.mp hrun
  obtain ⟨gap, s₂, -, hrun⟩ := run_bind_eq_some.mp hrun
  obtain ⟨⟨⟩, s₃, -, hrun⟩ := run_bind_eq_some.mp hrun
  obtain ⟨⟨agent, lease⟩, s₄, hpair, hrun⟩ := run_bind_eq_some.mp hrun
  obtain ⟨rfl, -⟩ := run_pure_eq_some.mp hrun
  obtain ⟨n, -, hlease⟩ := List.exists_of_findSome?_eq_some hpair
  obtain ⟨⟨found, behind⟩, hfound, heq⟩ := Option.map_eq_some_iff.mp hlease
  cases heq
  exact isToken_of_leaseAfter hfound

theorem worded_renewals {renewals : List Renewal}
    (htoken : ∀ renewal ∈ renewals, Text.IsToken renewal.lease)
    {candidates candidates' : List LedgerClaim}
    (h : ∀ claim ∈ candidates, Worded parseDeadline claim)
    (hok : renewals.foldlM (renewClaim parseDeadline) candidates = .ok candidates') :
    ∀ claim ∈ candidates', Worded parseDeadline claim := by
  induction renewals generalizing candidates with
  | nil =>
      cases hok
      exact h
  | cons renewal renewals ih =>
      rw [List.foldlM_cons] at hok
      obtain ⟨middle, hmiddle, hrest⟩ := bind_eq_ok.mp hok
      refine ih (fun r hr => htoken r (List.mem_cons_of_mem _ hr)) ?_ hrest
      rcases renewClaim_ok hmiddle with rfl | ⟨lease, hparse, rfl⟩
      · exact h
      · refine worded_modifyLast (fun claim hclaim => ?_) h
        exact ⟨hclaim.1, hclaim.2.1, renewal.lease, htoken renewal List.mem_cons_self, hparse⟩

theorem unlessRefused_eq_some {α : Type} {x : Except RunnerError α} {a : α}
    (h : unlessRefused x = .ok (some a)) : x = .ok a := by
  cases x with
  | ok b =>
      cases h
      rfl
  | error e => cases e <;> cases h

theorem worded_of_postedClaim {body : String} {claim : LedgerClaim}
    (h : postedClaim parseDeadline body = .ok (some claim)) :
    Worded parseDeadline claim ∧ claim.released = false ∧
      search CLAIM_LINE body = some claim.task_id := by
  unfold postedClaim at h
  split at h
  · rename_i task agent lease htask hagent hlease
    obtain ⟨parsed, hparsed, h⟩ := bind_eq_ok.mp h
    cases parsed with
    | none => cases h
    | some lease_until =>
        cases h
        refine ⟨⟨?_, ?_, lease, ?_, unlessRefused_eq_some hparsed⟩, rfl, htask⟩
        · exact isToken_of_search (fun _ _ _ h => isToken_of_run_directive h) htask
        · exact isToken_of_search (fun _ _ _ h => isToken_of_run_assigned h) hagent
        · exact isToken_of_search (fun _ _ _ h => isToken_of_run_assigned h) hlease
  · cases h

theorem worded_of_candidates {comments : List Comment} {candidates : List LedgerClaim}
    (h : claimCandidates parseDeadline comments = .ok candidates) :
    ∀ claim ∈ candidates, Worded parseDeadline claim := by
  induction comments using List.reverseRecOn generalizing candidates with
  | nil =>
      cases h
      exact fun claim hclaim => absurd hclaim List.not_mem_nil
  | append_singleton comments comment ih =>
      rw [claimCandidates, List.foldlM_append] at h
      obtain ⟨before, hbefore, hstep⟩ := bind_eq_ok.mp h
      rw [List.foldlM_cons] at hstep
      obtain ⟨after, hafter, hdone⟩ := bind_eq_ok.mp hstep
      cases hdone
      obtain ⟨renewed, posted, hrenewed, hposted, rfl⟩ := claimStep_ok hafter
      intro claim hclaim
      rcases List.mem_append.mp hclaim with hclaim | hclaim
      · exact worded_renewals (fun _ hr => isToken_of_mem_renewals hr)
          (worded_releases (ih hbefore)) hrenewed claim hclaim
      · obtain rfl := Option.mem_toList.mp hclaim
        exact (worded_of_postedClaim hposted).1

theorem heldBy_iff {task agent : String} {claim : LedgerClaim} :
    claim.heldBy task agent = true ↔
      claim.released = false ∧ claim.task_id = task ∧ claim.agent = agent := by
  simp only [LedgerClaim.heldBy, Bool.and_eq_true, Bool.not_eq_true', decide_eq_true_eq, and_assoc]

theorem spares_releaseText {task agent winner : String} (htask : Text.IsToken task)
    (hagent : Text.IsToken agent) (h : agent ≠ winner) :
    Spares task winner (trustedComment (releaseText task agent)) := by
  have hrenew : finditer RENEW_LINE (releaseText task agent) = [] :=
    ((linesStartWith_releaseText htask hagent).silent hasKeyword_renew (by decide)).finditer_eq
  refine ⟨fun line hline => ?_, fun renewal hrenewal => ?_⟩
  · rw [trustedComment, finditer_releaseText htask hagent] at hline
    rw [List.mem_singleton.mp hline]
    exact fun hsame => h hsame.2
  · rw [trustedComment, hrenew] at hrenewal
    cases hrenewal

theorem spares_renewText {task agent lease winner : String} (htask : Text.IsToken task)
    (hagent : Text.IsToken agent) (hlease : Text.IsToken lease) (h : agent ≠ winner) :
    Spares task winner (trustedComment (renewText task agent lease)) := by
  have hrelease : finditer RELEASE_LINE (renewText task agent lease) = [] :=
    ((linesStartWith_renewText htask hagent hlease).silent hasKeyword_release
      (by decide)).finditer_eq
  refine ⟨fun line hline => ?_, fun renewal hrenewal => ?_⟩
  · rw [trustedComment, hrelease] at hline
    cases hline
  · rw [trustedComment, finditer_renewText htask hagent hlease] at hrenewal
    rw [List.mem_singleton.mp hrenewal]
    exact fun hsame => h hsame.2

/-- An agent extends any claim of its own that is not released: it releases the later ones, and then
renews. -/
theorem exists_revival {task agent lease winner : String} {t : ℤ} (htask : Text.IsToken task)
    (hagent : Text.IsToken agent) (hlease : Text.IsToken lease)
    (hparse : parseDeadline lease = .ok t) (hother : agent ≠ winner) (before : List LedgerClaim)
    {claim : LedgerClaim} (hheld : claim.heldBy task agent = true) (after : List LedgerClaim) :
    ∃ (extension : List Comment) (after' : List LedgerClaim),
      (∀ comment ∈ extension, Spares task winner comment) ∧
      extension.foldlM (claimStep parseDeadline) (before ++ claim :: after) =
        .ok (before ++ { claim with lease_until := t } :: after') := by
  induction hn : after.countP (LedgerClaim.heldBy task agent) using Nat.strong_induction_on
    generalizing after with
  | _ n ih =>
      cases hany : after.any (LedgerClaim.heldBy task agent) with
      | false =>
          refine ⟨[trustedComment (renewText task agent lease)], after, ?_, ?_⟩
          · intro comment hcomment
            rw [List.mem_singleton.mp hcomment]
            exact spares_renewText htask hagent hlease hother
          · rw [List.foldlM_cons, claimStep_renewText _ htask hagent hlease hparse,
              modifyLast_split hheld hany]
            rfl
      | true =>
          let released := modifyLast (LedgerClaim.heldBy task agent)
            (fun claim => { claim with released := true }) after
          have hlt : released.countP (LedgerClaim.heldBy task agent) < n :=
            hn ▸ countP_modifyLast_lt (fun claim => rfl) hany
          obtain ⟨extension, after', hspares, hrun⟩ := ih _ hlt released rfl
          refine ⟨trustedComment (releaseText task agent) :: extension, after', ?_, ?_⟩
          · intro comment hcomment
            rcases List.mem_cons.mp hcomment with rfl | hcomment
            · exact spares_releaseText htask hagent hother
            · exact hspares comment hcomment
          · have hsplit : releaseClaim (before ++ claim :: after) ⟨task, agent⟩ =
                before ++ claim :: released := by
              rw [releaseClaim, List.append_cons, modifyLast_append hany, ← List.append_cons]
            rw [List.foldlM_cons, claimStep_releaseText _ htask hagent, hsplit]
            exact hrun

/-- The winner of a task keeps it, whatever the others post, exactly where every claim of another
agent that was posted before its own has been released. -/
theorem staysElected_iff {log : List Comment} {candidates : List LedgerClaim} {task : String}
    {now : ℤ} {ledger : DispatchLedger} {winner : LedgerClaim}
    (hlog : claimCandidates parseDeadline log = .ok candidates)
    (hledger : parseClaimLedger parseDeadline log now = .ok ledger)
    (hwinner : ledger.claims[task]? = some winner) :
    StaysElected parseDeadline log task now winner ↔
      ∀ claim ∈ claimsBefore task now candidates, claim.task_id = task →
        claim.agent ≠ winner.agent → claim.released = true := by
  have hledger' := (parseClaimLedger_of_candidates now hlog).symm.trans hledger
  cases hledger'
  rw [get?_electClaims] at hwinner
  obtain ⟨hcompetes, later, hsplit, hbefore⟩ := winner_split hwinner
  obtain ⟨-, -, hactive⟩ := competes_iff.mp hcompetes
  refine ⟨fun hstays claim hclaim htask hother => ?_, staysElected_of_released hlog hwinner⟩
  by_contra hunreleased
  have hworded := worded_of_candidates hlog
  obtain ⟨before, between, hclaims⟩ := List.append_of_mem hclaim
  obtain ⟨htoken, hagent, -⟩ := hworded claim (by rw [hsplit, hclaims]; simp)
  obtain ⟨-, -, lease, hlease, hparse⟩ := hworded winner (by rw [hsplit]; simp)
  have hheld : claim.heldBy task claim.agent = true :=
    heldBy_iff.mpr ⟨Bool.eq_false_iff.mpr hunreleased, htask, rfl⟩
  -- The revived claim is active at once, and stands before the winner.
  obtain ⟨extension, after', hspares, hrun⟩ := exists_revival (htask ▸ htoken) hagent hlease hparse
    hother before hheld (between ++ winner :: later)
  have hlog' : claimCandidates parseDeadline (log ++ extension) =
      .ok (before ++ { claim with lease_until := winner.lease_until } :: after') := by
    rw [claimCandidates_append hlog, hsplit, hclaims, List.append_assoc, List.cons_append]
    exact hrun
  have helected := hstays extension now _ hspares le_rfl hactive
    (parseClaimLedger_of_candidates now hlog')
  have hrevived : (before ++ { claim with lease_until := winner.lease_until } :: after').find?
      (LedgerClaim.competes task now) =
        some { claim with lease_until := winner.lease_until } := by
    refine List.find?_eq_some_iff_append.mpr ⟨?_, before, after', rfl, fun other hmem => ?_⟩
    · exact competes_iff.mpr ⟨htask, Bool.eq_false_iff.mpr hunreleased, hactive⟩
    · rw [hbefore other (by rw [hclaims]; exact List.mem_append_left _ hmem)]
      rfl
  rw [get?_electClaims, hrevived] at helected
  have hagents := congrArg (Option.map LedgerClaim.agent) helected
  exact hother (Option.some.inj hagents)

end Stable

/-- `_parse_deadline` on two texts, in microseconds. -/
def sampleDeadline (text : String) : Except RunnerError ℤ :=
  if text = "2026-08-12T16:30:00Z" then .ok 1786552200000000
  else if text = "2026-08-12T18:30:00Z" then .ok 1786559400000000
  else .error (.workOrderError "MALFORMED" "deadline is not ISO-8601")

def claimComment (agent lease : String) : Comment :=
  trustedComment ("CLAIM task=INFRA-03\nagent=" ++ agent ++ "\nlease_until=" ++ lease)

/-- The time 2026-08-12T17:00:00Z. -/
def sampleNow : ℤ := 1786554000000000

def secondClaim : LedgerClaim := ⟨"INFRA-03", "second", 1786559400000000, false⟩

theorem staysElected_of_released_claim :
    StaysElected sampleDeadline
      [claimComment "first" "2026-08-12T16:30:00Z",
        trustedComment (releaseText "INFRA-03" "first"),
        claimComment "second" "2026-08-12T18:30:00Z"] "INFRA-03" sampleNow secondClaim := by
  have hlog : claimCandidates sampleDeadline
      [claimComment "first" "2026-08-12T16:30:00Z",
        trustedComment (releaseText "INFRA-03" "first"),
        claimComment "second" "2026-08-12T18:30:00Z"] =
      .ok [⟨"INFRA-03", "first", 1786552200000000, true⟩, secondClaim] := by decide +kernel
  refine (staysElected_iff hlog (parseClaimLedger_of_candidates sampleNow hlog) ?_).mpr ?_
  · rw [get?_electClaims]
    decide +kernel
  · decide +kernel

def expiredLog : List Comment :=
  [claimComment "first" "2026-08-12T16:30:00Z", claimComment "second" "2026-08-12T18:30:00Z"]

theorem claimCandidates_expiredLog :
    claimCandidates sampleDeadline expiredLog =
      .ok [⟨"INFRA-03", "first", 1786552200000000, false⟩, secondClaim] := by decide +kernel

/-- The renewal of an expired claim takes the task from a live one. -/
theorem expired_claim_is_revived :
    ¬ ∀ log task now ledger winner,
      parseClaimLedger sampleDeadline log now = .ok ledger → ledger.claims[task]? = some winner →
        StaysElected sampleDeadline log task now winner := by
  intro h
  have hlease : Text.IsToken "2026-08-12T18:30:00Z" := by decide +kernel
  have hstays := h expiredLog "INFRA-03" sampleNow _ secondClaim
    (parseClaimLedger_of_candidates sampleNow claimCandidates_expiredLog)
    (by rw [get?_electClaims]; decide +kernel)
  have hrenewed : claimCandidates sampleDeadline (expiredLog ++
      [trustedComment (renewText "INFRA-03" "first" "2026-08-12T18:30:00Z")]) =
        .ok [⟨"INFRA-03", "first", 1786559400000000, false⟩, secondClaim] := by
    rw [claimCandidates_append claimCandidates_expiredLog, List.foldlM_cons,
      claimStep_renewText _ (by decide) (by decide) hlease rfl]
    decide +kernel
  have helected := hstays _ sampleNow _ (fun comment hcomment => by
      rw [List.mem_singleton.mp hcomment]
      exact spares_renewText (by decide) (by decide) hlease (by decide)) le_rfl (by decide)
    (parseClaimLedger_of_candidates sampleNow hrenewed)
  rw [get?_electClaims] at helected
  revert helected
  decide +kernel

end FossilCore
