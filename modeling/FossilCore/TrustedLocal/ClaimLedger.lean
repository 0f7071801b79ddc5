import FossilCore.Base.KeyMap
import FossilCore.Base.Latest
import FossilCore.TrustedLocal.Directives

/-!
# The claim ledger

`parse_claim_ledger` of `trusted_local_runner.py`: the claims of a log of comments with their
releases and renewals, and for each task the first claim that is still active.  The conversion of
`_parse_deadline` to a time is left open.
-/

namespace FossilCore

open Base Base.Pattern

/-- A claim; it is released where its index is among the released ones. -/
structure LedgerClaim where
  task_id : String
  agent : String
  lease_until : ℤ
  released : Bool := false
  deriving DecidableEq, Repr

def LedgerClaim.activeFor (claim : LedgerClaim) (now : ℤ) : Bool :=
  !claim.released && decide (now < claim.lease_until)

structure DispatchLedger where
  claims : KeyMap String LedgerClaim
  cancelled_attempt_ids : List String := []
  terminal_attempt_ids : List String := []
  latest_generation : KeyMap String ℕ := ∅
  available : Bool := true

/-- The result, or nothing where it is a `WorkOrderError`. -/
def unlessRefused {α : Type} : Except RunnerError α → Except RunnerError (Option α)
  | .ok a => .ok (some a)
  | .error (.workOrderError _ _) => .ok none
  | .error e => .error e

/-- A claim of the agent that is not released. -/
def LedgerClaim.heldBy (task agent : String) (claim : LedgerClaim) : Bool :=
  !claim.released && claim.task_id = task && claim.agent = agent

def releaseClaim (candidates : List LedgerClaim) (line : ReleaseLine) : List LedgerClaim :=
  modifyLast (LedgerClaim.heldBy line.task line.agent) (fun claim => { claim with released := true })
    candidates

section Parse

variable (parseDeadline : String → Except RunnerError ℤ)

def renewClaim (candidates : List LedgerClaim) (renewal : Renewal) :
    Except RunnerError (List LedgerClaim) := do
  match ← unlessRefused (parseDeadline renewal.lease) with
  | none => return candidates
  | some renewed_lease =>
      return modifyLast (LedgerClaim.heldBy renewal.task renewal.agent)
        (fun claim => { claim with lease_until := renewed_lease }) candidates

/-- The claim that a comment posts. -/
def postedClaim (body : String) : Except RunnerError (Option LedgerClaim) :=
  match search CLAIM_LINE body, search AGENT_LINE body, search LEASE_LINE body with
  | some task_id, some agent, some lease => do
      match ← unlessRefused (parseDeadline lease) with
      | none => return none
      | some lease_until => return some { task_id, agent, lease_until }
  | _, _, _ => return none

/-- One step of the loop over the comments. -/
def claimStep (candidates : List LedgerClaim) (comment : Comment) :
    Except RunnerError (List LedgerClaim) := do
  let released := (finditer RELEASE_LINE comment.body).foldl releaseClaim candidates
  let renewed ← (finditer RENEW_LINE comment.body).foldlM (renewClaim parseDeadline) released
  match ← postedClaim parseDeadline comment.body with
  | none => return renewed
  | some claim => return renewed ++ [claim]

def claimCandidates (comments : List Comment) : Except RunnerError (List LedgerClaim) :=
  comments.foldlM (claimStep parseDeadline) []

/-- The first active claim of each task. -/
def electClaims (now : ℤ) (candidates : List LedgerClaim) : KeyMap String LedgerClaim :=
  candidates.foldl (fun claims claim =>
    if claim.activeFor now && !claims.contains claim.task_id then claims.insert claim.task_id claim
    else claims) ∅

def parseClaimLedger (comments : List Comment) (now : ℤ) : Except RunnerError DispatchLedger := do
  let candidates ← claimCandidates parseDeadline comments
  return { claims := electClaims now candidates }

end Parse

/-! ## The winner of a task -/

/-- The claim competes for the task. -/
def LedgerClaim.competes (task : String) (now : ℤ) (claim : LedgerClaim) : Bool :=
  claim.task_id = task && claim.activeFor now

theorem get?_foldl_elect (now : ℤ) (task : String) (candidates : List LedgerClaim)
    (claims : KeyMap String LedgerClaim) :
    (candidates.foldl (fun claims claim =>
      if claim.activeFor now && !claims.contains claim.task_id then
        claims.insert claim.task_id claim
      else claims) claims)[task]? =
      (claims[task]?).or (candidates.find? (LedgerClaim.competes task now)) := by
  induction candidates generalizing claims with
  | nil => rw [List.foldl_nil, List.find?_nil, Option.or_none]
  | cons claim candidates ih =>
      rw [List.foldl_cons, ih]
      by_cases htask : claim.task_id = task
      · subst htask
        cases hactive : claim.activeFor now with
        | false =>
            rw [Bool.false_and, if_neg Bool.false_ne_true,
              List.find?_cons_of_neg (by simp [LedgerClaim.competes, hactive])]
        | true =>
            rw [List.find?_cons_of_pos (by simp [LedgerClaim.competes, hactive]),
              Bool.true_and, KeyMap.contains_eq_isSome]
            cases hfound : claims[claim.task_id]? with
            | none =>
                simp only [Option.isSome_none, Bool.not_false, if_true, Option.none_or]
                rw [KeyMap.get?_insert_self, Option.some_or]
            | some found =>
                simp only [Option.isSome_some, Bool.not_true, Bool.false_eq_true, if_false]
                rw [hfound, Option.some_or, Option.some_or]
      · rw [List.find?_cons_of_neg (by simp [LedgerClaim.competes, htask])]
        split
        · rw [KeyMap.get?_insert_ne _ _ htask]
        · rfl

theorem get?_electClaims (now : ℤ) (task : String) (candidates : List LedgerClaim) :
    (electClaims now candidates)[task]? =
      candidates.find? (LedgerClaim.competes task now) := by
  rw [electClaims, get?_foldl_elect, Std.ExtTreeMap.getElem?_empty, Option.none_or]

section

variable {parseDeadline : String → Except RunnerError ℤ}

theorem parseClaimLedger_ok {comments : List Comment} {now : ℤ} {ledger : DispatchLedger}
    (h : parseClaimLedger parseDeadline comments now = .ok ledger) :
    ∃ candidates, claimCandidates parseDeadline comments = .ok candidates ∧
      ∀ task : String, ledger.claims[task]? = candidates.find? (LedgerClaim.competes task now) := by
  obtain ⟨candidates, hcandidates, h⟩ := bind_eq_ok.mp h
  cases h
  exact ⟨candidates, hcandidates, fun task => get?_electClaims now task candidates⟩

theorem parseClaimLedger_of_candidates {comments : List Comment} (now : ℤ)
    {candidates : List LedgerClaim} (h : claimCandidates parseDeadline comments = .ok candidates) :
    parseClaimLedger parseDeadline comments now = .ok { claims := electClaims now candidates } := by
  rw [parseClaimLedger, h]
  rfl

theorem claimCandidates_append {log extension : List Comment} {candidates : List LedgerClaim}
    (h : claimCandidates parseDeadline log = .ok candidates) :
    claimCandidates parseDeadline (log ++ extension) =
      extension.foldlM (claimStep parseDeadline) candidates := by
  rw [claimCandidates, List.foldlM_append]
  show claimCandidates parseDeadline log >>= _ = _
  rw [h]
  rfl

end

/-! ## What a comment changes -/

section Kept

variable {parseDeadline : String → Except RunnerError ℤ} {task agent : String}

/-- The comment neither releases nor renews a claim of the agent for the task. -/
def Spares (task agent : String) (comment : Comment) : Prop :=
  (∀ line ∈ finditer RELEASE_LINE comment.body, ¬ (line.task = task ∧ line.agent = agent)) ∧
    ∀ renewal ∈ finditer RENEW_LINE comment.body,
      ¬ (renewal.task = task ∧ renewal.agent = agent)

/-- A claim keeps its task and its agent; a released one, and one of the agent for the task, is
not changed at all. -/
def KeptAs (task agent : String) (claim claim' : LedgerClaim) : Prop :=
  claim'.task_id = claim.task_id ∧ claim'.agent = claim.agent ∧
    (claim.released = true ∨ claim.task_id = task ∧ claim.agent = agent → claim' = claim)

theorem KeptAs.refl (task agent : String) (claim : LedgerClaim) : KeptAs task agent claim claim :=
  ⟨rfl, rfl, fun _ => rfl⟩

theorem KeptAs.trans {claim₁ claim₂ claim₃ : LedgerClaim} (h : KeptAs task agent claim₁ claim₂)
    (h' : KeptAs task agent claim₂ claim₃) : KeptAs task agent claim₁ claim₃ := by
  refine ⟨h'.1.trans h.1, h'.2.1.trans h.2.1, fun hfixed => ?_⟩
  obtain rfl := h.2.2 hfixed
  exact h'.2.2 hfixed

/-- The candidates, kept, with more behind them. -/
def Extends (task agent : String) (candidates candidates' : List LedgerClaim) : Prop :=
  ∃ old new, candidates' = old ++ new ∧ List.Forall₂ (KeptAs task agent) candidates old

theorem forall₂_keptAs_refl (task agent : String) (candidates : List LedgerClaim) :
    List.Forall₂ (KeptAs task agent) candidates candidates :=
  List.forall₂_same.mpr fun claim _ => KeptAs.refl task agent claim

theorem forall₂_keptAs_trans {xs ys zs : List LedgerClaim}
    (h : List.Forall₂ (KeptAs task agent) xs ys) (h' : List.Forall₂ (KeptAs task agent) ys zs) :
    List.Forall₂ (KeptAs task agent) xs zs := by
  induction h generalizing zs with
  | nil => exact h'
  | cons hx hxs ih =>
      cases h' with
      | cons hy hys => exact List.Forall₂.cons (hx.trans hy) (ih hys)

theorem Extends.refl (task agent : String) (candidates : List LedgerClaim) :
    Extends task agent candidates candidates :=
  ⟨candidates, [], (List.append_nil _).symm, forall₂_keptAs_refl task agent candidates⟩

theorem Extends.trans {xs ys zs : List LedgerClaim} (h : Extends task agent xs ys)
    (h' : Extends task agent ys zs) : Extends task agent xs zs := by
  obtain ⟨old, new, rfl, hold⟩ := h
  obtain ⟨old', new', rfl, hold'⟩ := h'
  obtain ⟨kept, rest, rfl, hkept, hrest⟩ := forall₂_append_left hold'
  exact ⟨kept, rest ++ new', List.append_assoc _ _ _, forall₂_keptAs_trans hold hkept⟩

/-- A change of claims of other tasks or agents that keeps task and agent. -/
theorem forall₂_keptAs_modifyLast {task' agent' : String} (h : ¬ (task' = task ∧ agent' = agent))
    {f : LedgerClaim → LedgerClaim} (hf : ∀ claim, (f claim).task_id = claim.task_id ∧
      (f claim).agent = claim.agent) (candidates : List LedgerClaim) :
    List.Forall₂ (KeptAs task agent) candidates
      (modifyLast (LedgerClaim.heldBy task' agent') f candidates) := by
  refine (forall₂_modifyLast _ f candidates).imp fun claim claim' hclaim => ?_
  rcases hclaim with rfl | ⟨hheld, rfl⟩
  · exact KeptAs.refl task agent claim'
  · simp only [LedgerClaim.heldBy, Bool.and_eq_true, Bool.not_eq_true', decide_eq_true_eq] at hheld
    refine ⟨(hf claim).1, (hf claim).2, ?_⟩
    rintro (hreleased | ⟨rfl, rfl⟩)
    · rw [hheld.1.1] at hreleased
      cases hreleased
    · exact absurd ⟨hheld.1.2.symm, hheld.2.symm⟩ h

theorem forall₂_keptAs_releases {lines : List ReleaseLine}
    (h : ∀ line ∈ lines, ¬ (line.task = task ∧ line.agent = agent))
    (candidates : List LedgerClaim) :
    List.Forall₂ (KeptAs task agent) candidates (lines.foldl releaseClaim candidates) := by
  induction lines generalizing candidates with
  | nil => exact forall₂_keptAs_refl task agent candidates
  | cons line lines ih =>
      have hfirst := forall₂_keptAs_modifyLast (h line List.mem_cons_self)
        (f := fun claim => { claim with released := true }) (fun claim => ⟨rfl, rfl⟩) candidates
      exact forall₂_keptAs_trans hfirst (ih (fun line hl => h line (List.mem_cons_of_mem _ hl)) _)

theorem renewClaim_ok {candidates candidates' : List LedgerClaim} {renewal : Renewal}
    (h : renewClaim parseDeadline candidates renewal = .ok candidates') :
    candidates' = candidates ∨ ∃ lease, parseDeadline renewal.lease = .ok lease ∧
      candidates' = modifyLast (LedgerClaim.heldBy renewal.task renewal.agent)
        (fun claim => { claim with lease_until := lease }) candidates := by
  unfold renewClaim at h
  cases hparse : parseDeadline renewal.lease with
  | ok lease =>
      rw [hparse] at h
      cases h
      exact Or.inr ⟨lease, rfl, rfl⟩
  | error e =>
      rw [hparse] at h
      cases e <;> cases h
      exact Or.inl rfl

theorem forall₂_keptAs_renewals {renewals : List Renewal}
    (h : ∀ renewal ∈ renewals, ¬ (renewal.task = task ∧ renewal.agent = agent))
    {candidates candidates' : List LedgerClaim}
    (hok : renewals.foldlM (renewClaim parseDeadline) candidates = .ok candidates') :
    List.Forall₂ (KeptAs task agent) candidates candidates' := by
  induction renewals generalizing candidates with
  | nil =>
      cases hok
      exact forall₂_keptAs_refl task agent _
  | cons renewal renewals ih =>
      rw [List.foldlM_cons] at hok
      obtain ⟨middle, hmiddle, hrest⟩ := bind_eq_ok.mp hok
      refine forall₂_keptAs_trans ?_
        (ih (fun renewal hr => h renewal (List.mem_cons_of_mem _ hr)) hrest)
      rcases renewClaim_ok hmiddle with rfl | ⟨lease, -, rfl⟩
      · exact forall₂_keptAs_refl task agent middle
      · exact forall₂_keptAs_modifyLast (h renewal List.mem_cons_self)
          (f := fun claim => { claim with lease_until := lease }) (fun claim => ⟨rfl, rfl⟩) _

/-- What a comment does to the candidates: releases, then renewals, then at most one new claim. -/
theorem claimStep_ok {candidates candidates' : List LedgerClaim} {comment : Comment}
    (h : claimStep parseDeadline candidates comment = .ok candidates') :
    ∃ renewed posted,
      (finditer RENEW_LINE comment.body).foldlM (renewClaim parseDeadline)
        ((finditer RELEASE_LINE comment.body).foldl releaseClaim candidates) = .ok renewed ∧
      postedClaim parseDeadline comment.body = .ok posted ∧
      candidates' = renewed ++ posted.toList := by
  obtain ⟨renewed, hrenewed, h⟩ := bind_eq_ok.mp h
  obtain ⟨posted, hposted, h⟩ := bind_eq_ok.mp h
  refine ⟨renewed, posted, hrenewed, hposted, ?_⟩
  cases posted with
  | none =>
      cases h
      exact (List.append_nil _).symm
  | some claim =>
      cases h
      rfl

theorem claimStep_extends {candidates candidates' : List LedgerClaim} {comment : Comment}
    (hspares : Spares task agent comment)
    (h : claimStep parseDeadline candidates comment = .ok candidates') :
    Extends task agent candidates candidates' := by
  obtain ⟨renewed, posted, hrenewed, -, rfl⟩ := claimStep_ok h
  exact ⟨renewed, posted.toList, rfl, forall₂_keptAs_trans
    (forall₂_keptAs_releases hspares.1 candidates) (forall₂_keptAs_renewals hspares.2 hrenewed)⟩

theorem foldlM_claimStep_extends {comments : List Comment} {candidates candidates' : List LedgerClaim}
    (hspares : ∀ comment ∈ comments, Spares task agent comment)
    (h : comments.foldlM (claimStep parseDeadline) candidates = .ok candidates') :
    Extends task agent candidates candidates' := by
  induction comments generalizing candidates with
  | nil =>
      cases h
      exact Extends.refl task agent _
  | cons comment comments ih =>
      rw [List.foldlM_cons] at h
      obtain ⟨middle, hmiddle, hrest⟩ := bind_eq_ok.mp h
      exact (claimStep_extends (hspares comment List.mem_cons_self) hmiddle).trans
        (ih (fun comment hc => hspares comment (List.mem_cons_of_mem _ hc)) hrest)

end Kept

end FossilCore
