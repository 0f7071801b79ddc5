import FossilCore.Base.FirstFailure
import FossilCore.Base.JsonObject
import FossilCore.Domain.AcceptedEvent
import FossilCore.Domain.LifecycleInvariant

/-!
# How a replay fails

The errors of `KnowledgeState.apply` that a caller catches as a `KeyError` or a `ValueError`, and
the values that it looks up without a check: a list or an object cannot be a key.
-/

namespace FossilCore

open Base

/-- `except (KeyError, ValueError)` -/
def IsReplayError (e : Error) : Prop := e.cls = .builtin .keyError ∨ e.cls.isValueError

theorem refuses_lifecycle {α : Type} (message : String) :
    FailsWith IsReplayError (.error (.lifecycleError message) : Except Error α) :=
  FailsWith.error (Or.inr rfl)

theorem refuses_key {α : Type} (key : String) :
    FailsWith IsReplayError (.error (.keyError key) : Except Error α) :=
  FailsWith.error (Or.inl rfl)

theorem not_refuses_type {α : Type} :
    ¬FailsWith IsReplayError (.error .typeError : Except Error α) := by
  rw [FailsWith.error_iff]
  rintro (h | h) <;> cases h

/-! ## Lookups -/

section Lookups

variable {α β : Type}

theorem getItem_of_none {payload : Json} (hobj : payload.isObj = true) {key : String}
    (h : payload.get? key = none) : payload.getItem key = .error (.keyError key) := by
  obtain ⟨fields, rfl⟩ := Json.isObj_iff.mp hobj
  rw [Json.getItem, show Json.lookup key fields = none from h]

theorem refuses_getItem_iff {payload : Json} (hobj : payload.isObj = true) {key : String}
    {f : Json → Except Error β} :
    FailsWith IsReplayError (liftPy (payload.getItem key) >>= f) ↔
      ∀ value, payload.get? key = some value → FailsWith IsReplayError (f value) := by
  cases hget : payload.get? key with
  | none =>
      rw [getItem_of_none hobj hget]
      exact iff_of_true (refuses_key key) fun _ h => nomatch h
  | some value =>
      rw [Json.getItem_of_get? hget, FailsWith.bind_ok_iff (liftPy_ok value)]
      simp

theorem refuses_knownIn_iff {key : Json} {d : Dict Json α} {f : Bool → Except Error β} :
    FailsWith IsReplayError (knownIn key d >>= f) ↔
      key.hashable = true ∧ FailsWith IsReplayError (f (d.contains key)) := by
  unfold knownIn
  split_ifs with h
  · rw [FailsWith.bind_ok_iff rfl, and_iff_right h]
  · exact iff_of_false not_refuses_type fun hboth => h hboth.1

/-- A lookup in a set of names, when another value is refused. -/
theorem refuses_memberOf_iff {value : Json} {names : List String}
    {f : Option String → Except Error β} (hnone : FailsWith IsReplayError (f none)) :
    FailsWith IsReplayError (memberOf value names >>= f) ↔
      value.hashable = true ∧
        ∀ name ∈ names, value = .str name → FailsWith IsReplayError (f (some name)) := by
  unfold memberOf
  split
  · next s =>
      rw [FailsWith.bind_ok_iff rfl, and_iff_right (by rfl)]
      split_ifs with hs
      · refine ⟨fun h name _ heq => ?_, fun h => h s hs rfl⟩
        cases heq
        exact h
      · refine iff_of_true hnone fun name hname heq => ?_
        cases heq
        exact absurd hname hs
  · next hstr =>
      split_ifs with h
      · rw [FailsWith.bind_ok_iff rfl, and_iff_right h]
        exact iff_of_true hnone fun name _ heq => absurd heq (hstr name)
      · exact iff_of_false not_refuses_type fun hboth => h hboth.1

end Lookups

namespace KnowledgeState

variable {state : KnowledgeState}

/-! ## Claims -/

theorem refuses_proposeClaim (subject : String) :
    FailsWith IsReplayError (state.proposeClaim (.str subject)).1 := by
  unfold proposeClaim knownIn
  rw [if_pos (by rfl)]
  cases state.claims.contains (.str subject) with
  | true => exact refuses_lifecycle _
  | false => exact FailsWith.ok ()

theorem refuses_checkClaimChange_iff {subject : String} {target : Json} {expected : Option Json} :
    FailsWith IsReplayError (state.checkClaimChange (.str subject) target expected) ↔
      (state.claims.contains (.str subject) = true → target.hashable = true) := by
  unfold checkClaimChange
  rw [refuses_knownIn_iff, and_iff_right (by rfl)]
  cases state.claims.contains (.str subject) with
  | false => exact iff_of_true (refuses_lifecycle _) fun h => nomatch h
  | true =>
      change FailsWith IsReplayError (memberOf target CLAIM_STATES >>= _) ↔ _
      rw [refuses_memberOf_iff (refuses_lifecycle _)]
      refine ⟨fun h _ => h.1, fun h => ⟨h rfl, fun name _ _ => ?_⟩⟩
      dsimp only
      split
      · exact FailsWith.ok _
      · exact FailsWith.ok _
      · split_ifs
        · exact refuses_lifecycle _
        · exact FailsWith.ok _

theorem refuses_change_claim_iff {claim_id target : Json} {expected : Option Json} :
    FailsWith IsReplayError (state.change_claim claim_id target expected).1 ↔
      FailsWith IsReplayError (state.checkClaimChange claim_id target expected) := by
  unfold change_claim
  cases hcheck : state.checkClaimChange claim_id target expected with
  | error e => exact FailsWith.error_iff.trans FailsWith.error_iff.symm
  | ok t =>
      refine iff_of_true ?_ (FailsWith.ok t)
      dsimp only
      split
      · exact refuses_key _
      · exact FailsWith.ok ()

theorem Coherent.history_of_claim (h : Coherent state) {id : Json}
    (hid : state.claims.contains id = true) : ∃ history, state.claim_history.get? id = some history := by
  rw [Dict.contains_iff] at hid
  by_contra hnone
  rw [← Option.ne_none_iff_exists', not_not] at hnone
  obtain ⟨current, hcurrent⟩ := hid
  rw [(Dict.get?_eq_none_congr h.claim_keys).mpr hnone] at hcurrent
  cases hcurrent

/-- In a coherent state a claim change that passes its checks is made, and no relation is. -/
theorem Coherent.change_claim_ok (h : Coherent state) {claim_id target : Json}
    {expected : Option Json} {s : String}
    (hcheck : state.checkClaimChange claim_id target expected = .ok s) :
    ∃ next, state.change_claim claim_id target expected = (.ok (), next) ∧
      next.relations = state.relations := by
  obtain ⟨⟨current, hcurrent⟩, -⟩ := checkClaimChange_spec hcheck
  obtain ⟨history, hhistory⟩ := h.history_of_claim (Dict.contains_iff.mpr ⟨current, hcurrent⟩)
  unfold change_claim
  rw [hcheck]
  dsimp only
  rw [hhistory]
  exact ⟨_, rfl, rfl⟩

/-! ## Dependents -/

/-- An active dependency on the premise has a source that can be a key. -/
def SourcesKeyed (premise_id : Json) (relations : List RelationRecord) : Prop :=
  ∀ relation ∈ relations, relation.relation_type = "DEPENDS_ON" → relation.state = "active" →
    relation.target_ref = premise_id → relation.source_ref.hashable = true

theorem dependsOn_cases (premise_id : Json) (relation : RelationRecord) :
    state.dependsOn premise_id relation = .ok false ∨
      (relation.relation_type = "DEPENDS_ON" ∧ relation.state = "active" ∧
        relation.target_ref = premise_id ∧
          state.dependsOn premise_id relation = knownIn relation.source_ref state.claims) := by
  unfold dependsOn
  split_ifs with hactive htarget
  · exact Or.inl rfl
  · exact Or.inl rfl
  · rw [not_or, not_not, not_not] at hactive
    exact Or.inr ⟨hactive.1, hactive.2, not_not.mp htarget, rfl⟩

theorem checkClaimChange_stale {claim_id : Json} (hkey : claim_id.hashable = true)
    (hknown : state.claims.contains claim_id = true) :
    state.checkClaimChange claim_id (.str "stale_pending_review") none =
      .ok "stale_pending_review" := by
  unfold checkClaimChange knownIn
  rw [if_pos hkey, hknown]
  rfl

theorem refuses_markStale_iff (h : Coherent state) (premise_id : Json)
    (relations : List RelationRecord) :
    FailsWith IsReplayError (state.markStale premise_id relations).1 ↔
      SourcesKeyed premise_id relations := by
  induction relations generalizing state with
  | nil => exact iff_of_true (FailsWith.ok ()) fun _ h => absurd h List.not_mem_nil
  | cons relation rest ih =>
      unfold SourcesKeyed at ih ⊢
      rw [List.forall_mem_cons, markStale]
      rcases @dependsOn_cases state premise_id relation with
        hother | ⟨htype, hactive, htarget, hdepends⟩
      · rw [hother]
        refine (ih h).trans (and_iff_right fun htype hactive htarget => ?_).symm
        rw [dependsOn, if_neg (by simp [htype, hactive]), if_neg (not_not.mpr htarget)] at hother
        unfold knownIn at hother
        split_ifs at hother with hkey
        exact hkey
      rw [hdepends, knownIn]
      split_ifs with hkey
      swap
      · exact iff_of_false not_refuses_type fun hall => hkey (hall.1 htype hactive htarget)
      rw [and_iff_right fun _ _ _ => hkey]
      cases hknown : state.claims.contains relation.source_ref with
      | false => exact ih h
      | true =>
          obtain ⟨current, hcurrent⟩ := Dict.contains_iff.mp hknown
          simp only [hcurrent]
          split_ifs
          · exact ih h
          · obtain ⟨next, hchange, -⟩ :=
              h.change_claim_ok (checkClaimChange_stale hkey hknown)
            rw [hchange]
            exact ih (h.writes (writes_change_claim hchange))

/-! ## Relations -/

/-- What a proposed relation looks up. -/
structure ProposalKeyed (state : KnowledgeState) (payload : Json) : Prop where
  relation_id : ∀ id, payload.get? "relation_id" = some id → id.hashable = true
  relation_type : ∀ id kind, payload.get? "relation_id" = some id →
    state.relations.contains id = false → payload.get? "relation_type" = some kind →
      kind.hashable = true
  state : ∀ id, payload.get? "relation_id" = some id → state.relations.contains id = false →
    ∀ name ∈ RELATION_TYPES, payload.get? "relation_type" = some (.str name) →
      ((payload.get? "state").getD (.str "proposed")).hashable = true

theorem refuses_readProposal_iff {payload : Json} (hobj : payload.isObj = true) :
    FailsWith IsReplayError (state.readProposal payload) ↔
      ∀ id, payload.get? "relation_id" = some id → id.hashable = true ∧
        (state.relations.contains id = false →
          ∀ kind, payload.get? "relation_type" = some kind → kind.hashable = true ∧
            ∀ name ∈ RELATION_TYPES, kind = .str name →
              ((payload.get? "state").getD (.str "proposed")).hashable = true) := by
  unfold readProposal
  rw [refuses_getItem_iff hobj]
  apply forall₂_congr
  intro id _
  rw [refuses_knownIn_iff]
  apply and_congr_right'
  cases state.relations.contains id with
  | true => exact iff_of_true (refuses_lifecycle _) fun h => nomatch h
  | false =>
      rw [if_neg Bool.false_ne_true, refuses_getItem_iff hobj, forall_prop_of_true rfl]
      apply forall₂_congr
      intro kind _
      rw [refuses_memberOf_iff (refuses_lifecycle _)]
      apply and_congr_right'
      apply forall₃_congr
      intro name _ _
      dsimp only
      rw [refuses_memberOf_iff (refuses_lifecycle _)]
      refine and_iff_left fun relation_state _ _ => ?_
      -- only the texts of the two sides are left to read
      rw [refuses_getItem_iff hobj]
      intro source_ref _
      rw [refuses_getItem_iff hobj]
      exact fun target_ref _ => FailsWith.ok _

theorem refuses_proposeRelation_iff {payload : Json} (hobj : payload.isObj = true) :
    FailsWith IsReplayError (state.proposeRelation payload).1 ↔ ProposalKeyed state payload := by
  have hread : FailsWith IsReplayError (state.proposeRelation payload).1 ↔
      FailsWith IsReplayError (state.readProposal payload) := by
    unfold proposeRelation
    cases state.readProposal payload with
    | error e => exact FailsWith.error_iff.trans FailsWith.error_iff.symm
    | ok relation => exact iff_of_true (FailsWith.ok ()) (FailsWith.ok relation)
  rw [hread, refuses_readProposal_iff hobj]
  constructor
  · intro h
    refine ⟨fun id hid => (h id hid).1, ?_, ?_⟩
    · exact fun id kind hid hfresh hkind => ((h id hid).2 hfresh kind hkind).1
    · exact fun id hid hfresh name hname hkind => ((h id hid).2 hfresh _ hkind).2 name hname rfl
  · intro h id hid
    refine ⟨h.relation_id id hid, fun hfresh kind hkind => ?_⟩
    refine ⟨h.relation_type id kind hid hfresh hkind, ?_⟩
    rintro name hname rfl
    exact h.state id hid hfresh name hname hkind

/-- What the transition of a relation looks up. -/
structure TransitionKeyed (state : KnowledgeState) (kind payload : Json) : Prop where
  relation_id : ∀ id, payload.get? "relation_id" = some id → id.hashable = true
  to_state : kind ≠ .str "relation.superseded" → ∀ id relation target,
    payload.get? "relation_id" = some id → state.relations.get? id = some relation →
      (payload.get? "from_state" = none ∨ payload.get? "from_state" = some .null ∨
        payload.get? "from_state" = some (.str relation.state)) →
      payload.get? "to_state" = some target → target.hashable = true

theorem refuses_readTransition_iff {kind payload : Json} (hobj : payload.isObj = true) :
    FailsWith IsReplayError (state.readTransition kind payload) ↔
      TransitionKeyed state kind payload := by
  have hread : FailsWith IsReplayError (state.readTransition kind payload) ↔
      ∀ id, payload.get? "relation_id" = some id → id.hashable = true ∧
        (kind ≠ .str "relation.superseded" → ∀ relation, state.relations.get? id = some relation →
          (payload.get? "from_state" = none ∨ payload.get? "from_state" = some .null ∨
            payload.get? "from_state" = some (.str relation.state)) →
          ∀ target, payload.get? "to_state" = some target → target.hashable = true) := by
    unfold readTransition
    rw [refuses_getItem_iff hobj]
    apply forall₂_congr
    intro id _
    rw [refuses_knownIn_iff]
    apply and_congr_right'
    cases hrelation : state.relations.get? id with
    | none => exact iff_of_true (refuses_key _) fun _ _ h => nomatch h
    | some relation =>
        simp only [Option.some.injEq, forall_eq']
        split_ifs with hstale
        · refine iff_of_true (refuses_lifecycle _) fun _ hfrom => ?_
          rcases hfrom with hfrom | hfrom | hfrom
          · exact absurd hfrom hstale.1
          · exact absurd hfrom hstale.2.1
          · exact absurd hfrom hstale.2.2
        unfold transitionTarget
        split_ifs with hkind
        · refine iff_of_true ?_ fun hne => absurd hkind hne
          rw [FailsWith.bind_ok_iff rfl, refuses_memberOf_iff (refuses_lifecycle _)]
          exact ⟨rfl, fun name _ _ => FailsWith.ok _⟩
        · rw [refuses_getItem_iff hobj, forall_prop_of_true hkind]
          have hfrom : payload.get? "from_state" = none ∨ payload.get? "from_state" = some .null ∨
              payload.get? "from_state" = some (.str relation.state) := by
            by_contra hne
            rw [not_or, not_or] at hne
            exact hstale ⟨hne.1, hne.2.1, hne.2.2⟩
          rw [forall_prop_of_true hfrom]
          apply forall₂_congr
          intro target _
          rw [refuses_memberOf_iff (refuses_lifecycle _)]
          exact and_iff_left fun name _ _ => FailsWith.ok _
  rw [hread]
  constructor
  · intro h
    refine ⟨fun id hid => (h id hid).1, ?_⟩
    exact fun hkind id relation target hid hrelation hfrom =>
      (h id hid).2 hkind relation hrelation hfrom target
  · intro h id hid
    exact ⟨h.relation_id id hid, fun hkind relation hrelation hfrom target =>
      h.to_state hkind id relation target hid hrelation hfrom⟩

theorem refuses_moveRelation_iff {kind payload : Json} (hobj : payload.isObj = true) :
    FailsWith IsReplayError (state.moveRelation kind payload).1 ↔
      TransitionKeyed state kind payload := by
  rw [← refuses_readTransition_iff hobj]
  unfold moveRelation
  cases state.readTransition kind payload with
  | error e => exact FailsWith.error_iff.trans FailsWith.error_iff.symm
  | ok transition =>
      refine iff_of_true ?_ (FailsWith.ok transition)
      dsimp only
      split
      · exact refuses_key _
      · exact FailsWith.ok ()

/-! ## Events -/

/-- The values that an event makes the state look up can be keys. -/
structure EventKeyed (state : KnowledgeState) (event : Json) : Prop where
  claim_changed : strAt event "event_type" = "claim.state_changed" →
    state.claims.contains (.str (subjectOf event)) = true →
      ∀ to_state, (payloadOf event).get? "to_state" = some to_state → to_state.hashable = true
  claim_superseded : strAt event "event_type" = "claim.superseded" →
    (∃ s, state.checkClaimChange (.str (subjectOf event)) (.str "superseded")
      ((payloadOf event).get? "from_state") = .ok s) →
        SourcesKeyed (.str (subjectOf event)) state.relations.values
  relation_proposed : strAt event "event_type" = "relation.proposed" →
    ProposalKeyed state (payloadOf event)
  relation_moved : strAt event "event_type" = "relation.state_changed" ∨
      strAt event "event_type" = "relation.superseded" →
    TransitionKeyed state (.str (strAt event "event_type")) (payloadOf event)

variable {formats : FormatChecker} {event : Json}

theorem readHead_of_schema (h : eventSchema formats event = true) :
    readHead event = .ok (.str (strAt event "event_type"), payloadOf event,
      .str (subjectOf event)) := by
  obtain ⟨fields, hget, hpayload⟩ := get?_payload h
  obtain ⟨more, hsubjects⟩ := get?_subject_refs h
  unfold readHead
  rw [Json.getItem_of_get? (get?_event_type h), Json.getItem_of_get? hget,
    Json.getItem_of_get? hsubjects, hpayload]
  rfl

theorem refuses_claimChanged_iff {payload : Json} (hobj : payload.isObj = true) (subject : String) :
    FailsWith IsReplayError
        (match liftPy (payload.getItem "to_state") with
          | .error e => ((.error e : Except Error Unit), state)
          | .ok to_state => state.change_claim (.str subject) to_state
              (payload.get? "from_state")).1 ↔
      (state.claims.contains (.str subject) = true →
        ∀ to_state, payload.get? "to_state" = some to_state → to_state.hashable = true) := by
  cases hget : payload.get? "to_state" with
  | none =>
      rw [getItem_of_none hobj hget]
      exact iff_of_true (refuses_key "to_state") fun _ _ h => nomatch h
  | some to_state =>
      rw [Json.getItem_of_get? hget]
      exact refuses_change_claim_iff.trans (refuses_checkClaimChange_iff.trans (by simp))

theorem refuses_claimSuperseded_iff (h : Coherent state) {payload : Json}
    (hobj : payload.isObj = true) (subject : String) :
    FailsWith IsReplayError
        (match liftPy (payload.getMethod "from_state") with
          | .error e => ((.error e : Except Error Unit), state)
          | .ok from_state =>
              match state.change_claim (.str subject) (.str "superseded") from_state with
              | (.error e, state) => (.error e, state)
              | (.ok _, state) => state.mark_dependents_stale (.str subject)).1 ↔
      ((∃ s, state.checkClaimChange (.str subject) (.str "superseded")
        (payload.get? "from_state") = .ok s) →
          SourcesKeyed (.str subject) state.relations.values) := by
  rw [Json.getMethod_of_isObj hobj, liftPy_ok]
  dsimp only
  cases hcheck : state.checkClaimChange (.str subject) (.str "superseded")
      (payload.get? "from_state") with
  | error e =>
      have hrefuses := refuses_checkClaimChange_iff.mpr
        (fun _ : state.claims.contains (.str subject) = true =>
          show (Json.str "superseded").hashable = true from rfl) e hcheck
      have hchange : state.change_claim (.str subject) (.str "superseded")
          (payload.get? "from_state") = (.error e, state) := by
        rw [change_claim, hcheck]
      rw [hchange]
      refine iff_of_true (FailsWith.error hrefuses) ?_
      rintro ⟨_, hok⟩
      cases hok
  | ok s =>
      obtain ⟨next, hchange, hsame⟩ := h.change_claim_ok hcheck
      rw [hchange, forall_prop_of_true ⟨s, rfl⟩, ← hsame]
      exact refuses_markStale_iff (h.writes (writes_change_claim hchange)) _ _

/-- An accepted envelope is applied, or refused as the caller expects, when what it looks up can
be a key. -/
theorem refuses_apply_iff (h : Coherent state) (hevent : eventSchema formats event = true) :
    FailsWith IsReplayError (state.apply event).1 ↔ EventKeyed state event := by
  obtain ⟨fields, -, hpayload⟩ := get?_payload hevent
  have hobj : (payloadOf event).isObj = true := by
    rw [hpayload]
    rfl
  unfold apply applyKind
  rw [readHead_of_schema hevent]
  dsimp only
  simp only [Json.str.injEq]
  split_ifs with hclaim hchanged hsuperseded hproposed hkey hmoved
  · refine iff_of_true (refuses_proposeClaim _) ?_
    constructor <;> simp [hclaim]
  · refine (refuses_claimChanged_iff hobj (subjectOf event)).trans ⟨fun hchange => ?_, fun hkeyed => hkeyed.claim_changed hchanged⟩
    constructor <;> simp [hchanged]
    simpa using hchange
  · refine (refuses_claimSuperseded_iff h hobj (subjectOf event)).trans ⟨fun hchange => ?_, fun hkeyed => hkeyed.claim_superseded hsuperseded⟩
    constructor <;> simp [hsuperseded]
    simpa using hchange
  · refine (refuses_proposeRelation_iff hobj).trans ⟨fun hchange => ?_, fun hkeyed => hkeyed.relation_proposed hproposed⟩
    constructor <;> simp [hproposed]
    exact hchange
  · cases hkey
  · refine (refuses_moveRelation_iff hobj).trans ⟨fun hchange => ?_, fun hkeyed => hkeyed.relation_moved hmoved⟩
    constructor
    · exact fun heq => absurd heq hchanged
    · exact fun heq => absurd heq hsuperseded
    · exact fun heq => absurd heq hproposed
    · exact fun _ => hchange
  · refine iff_of_true (FailsWith.ok ()) ?_
    constructor
    · exact fun heq => absurd heq hchanged
    · exact fun heq => absurd heq hsuperseded
    · exact fun heq => absurd heq hproposed
    · exact fun heq => absurd heq hmoved

/-! ## Replay -/

/-- Each event that the replay reaches looks up keys. -/
def ReplayKeyed (events : List Json) : Prop :=
  ∀ before event after state, events = before ++ event :: after → replay before = .ok state →
    EventKeyed state event

theorem refuses_replayFrom_iff (h : Coherent state) {events : List Json}
    (hevents : ∀ event ∈ events, eventSchema formats event = true) :
    FailsWith IsReplayError (state.replayFrom events) ↔
      ∀ before event after next, events = before ++ event :: after →
        state.replayFrom before = .ok next → EventKeyed next event := by
  induction events generalizing state with
  | nil => exact iff_of_true (FailsWith.ok state) fun before _ _ _ heq => by simp at heq
  | cons event rest ih =>
      obtain ⟨hevent, hrest⟩ := List.forall_mem_cons.mp hevents
      have hstep := refuses_apply_iff h hevent
      rw [replayFrom]
      constructor
      · intro hrefuses before later after next heq hbefore
        cases before with
        | nil =>
            cases heq
            cases hbefore
            refine hstep.mp fun e he => ?_
            split at hrefuses
            · next e' _ happly =>
              rw [happly] at he
              cases he
              exact hrefuses _ rfl
            · next happly =>
              rw [happly] at he
              cases he
        | cons first before =>
            obtain ⟨rfl, rfl⟩ := List.cons.inj heq
            rw [replayFrom] at hbefore
            split at hbefore
            · cases hbefore
            · next middle happly =>
              rw [happly] at hrefuses
              exact (ih (h.writes (writes_apply happly)) hrest).mp hrefuses before later after next
                rfl hbefore
      · intro hkeyed
        have hfirst := hstep.mpr (hkeyed [] event rest state rfl rfl)
        split
        · next e _ happly =>
          rw [happly] at hfirst
          exact FailsWith.error (hfirst e rfl)
        · next middle happly =>
          refine (ih (h.writes (writes_apply happly)) hrest).mpr ?_
          intro before later after next heq hbefore
          refine hkeyed (event :: before) later after next (congrArg _ heq) ?_
          rw [replayFrom, happly]
          exact hbefore

theorem refuses_replay_iff {events : List Json}
    (hevents : ∀ event ∈ events, eventSchema formats event = true) :
    FailsWith IsReplayError (replay events) ↔ ReplayKeyed events :=
  refuses_replayFrom_iff coherent_empty hevents

end KnowledgeState

end FossilCore
