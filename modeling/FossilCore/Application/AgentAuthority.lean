import FossilCore.Adapters.EventStoreCrashes
import FossilCore.Adapters.OperationIds
import FossilCore.Application.Agent

/-!
# Who may write

The only operation of a `CorpusService` that writes is `commit`, after its checks of the skill,
of the write target and of the actor.  So every event of a store that a run of calls built was
put there under an authority that covers it.  The source pack of a promotion is checked by
`propose_promotion` alone, and a commit of the same event by hand goes around that check.
-/

namespace FossilCore

open Base

/-! ## What a call does to the store -/

theorem ite_error_ok {α : Type} {p : Prop} [Decidable p] {err : Error} {a b : α}
    (h : (if p then (.error err : Except Error α) else .ok a) = .ok b) : ¬ p ∧ a = b := by
  split at h
  · cases h
  · next hp => exact ⟨hp, Except.ok.inj h⟩

theorem inPacks_true {value : Json} {packs : Finset String} (h : inPacks value packs = .ok true) :
    ∃ s ∈ packs, value = .str s := by
  cases value with
  | str s => exact ⟨s, of_decide_eq_true (Except.ok.inj h), rfl⟩
  | _ =>
      simp only [inPacks] at h
      split at h <;> cases h

theorem PackAccess.require_write_ok {access : PackAccess} {pack_id : Json}
    (h : access.require_write pack_id = .ok ()) :
    ∃ s ∈ access.write_targets, pack_id = .str s := by
  obtain ⟨found, hfound, h⟩ := bind_eq_ok.mp h
  cases found with
  | true => exact inPacks_true hfound
  | false => cases h

namespace CorpusService

variable {service : CorpusService}

theorem authorize_ok {context : AgentContext} {capability : String} {skill : Skill}
    (h : service._authorize context capability = .ok skill) :
    service.skills.get context.skill_id = .ok skill ∧ skill.version = context.skill_version ∧
      capability ∈ skill.capabilities := by
  obtain ⟨registered, hrequired, h⟩ := bind_eq_ok.mp h
  obtain ⟨hversion, rfl⟩ := ite_error_ok h
  obtain ⟨found, hget, hcapability⟩ := bind_eq_ok.mp hrequired
  obtain ⟨hgrants, rfl⟩ := ite_error_ok hcapability
  exact ⟨hget, not_not.mp hversion, not_not.mp hgrants⟩

/-- The call may write the event: its access, its skill and its session cover it. -/
structure Authority (service : CorpusService) (call : CorpusCall) (e : Json) : Prop where
  pack : ∃ pack_id ∈ call.access.write_targets, e.get? "pack_id" = some (.str pack_id)
  skill : ∃ skill, service.skills.get call.context.skill_id = .ok skill ∧
    skill.version = call.context.skill_version ∧ "commit" ∈ skill.capabilities
  actor : e.get? "actor" = some call.context.durable_actor

theorem getMethod_ok {event : Json} {key : String} {found : Option Json}
    (h : liftPy (event.getMethod key) = .ok found) : event.get? key = found := by
  cases event with
  | obj fields => exact Except.ok.inj h
  | _ => cases h

theorem authorizeWrite_ok {call : CorpusCall} {event : Json}
    (h : service.authorizeWrite call.access call.context "commit" event = .ok ()) :
    service.Authority call event := by
  obtain ⟨skill, hskill, h⟩ := bind_eq_ok.mp h
  obtain ⟨pack_id, hpack, h⟩ := bind_eq_ok.mp h
  obtain ⟨⟨⟩, hwrite, h⟩ := bind_eq_ok.mp h
  obtain ⟨actor, hactor, h⟩ := bind_eq_ok.mp h
  obtain ⟨hsame, -⟩ := ite_error_ok h
  obtain ⟨target, htarget, rfl⟩ := PackAccess.require_write_ok hwrite
  refine ⟨⟨target, htarget, ?_⟩, ⟨skill, authorize_ok hskill⟩, ?_⟩
  · exact get?_of_getItem hpack
  · rw [getMethod_ok hactor]
    exact not_not.mp hsame

/-- The gate gives an event its id and leaves its other members alone. -/
theorem get?_of_validate {config : StoreConfig} {event candidate : Json} {uuid key : String}
    (h : config.validate event uuid = .ok candidate) (hkey : key ≠ "event_id") :
    candidate.get? key = event.get? key := by
  rcases assignId_ok (prepare_ok (validate_ok h).1).1 with ⟨-, rfl⟩ | ⟨-, -, rfl⟩ | ⟨-, -, rfl⟩
  · exact Json.get?_set_ne _ _ hkey
  · exact Json.get?_set_ne _ _ hkey
  · rfl

theorem Authority.of_validate {call : CorpusCall} {event candidate : Json} {uuid : String}
    (h : service.Authority call event)
    (hvalidate : service.config.validate event uuid = .ok candidate) :
    service.Authority call candidate := by
  refine ⟨?_, h.skill, ?_⟩
  · rw [get?_of_validate hvalidate (by decide)]
    exact h.pack
  · rw [get?_of_validate hvalidate (by decide)]
    exact h.actor

theorem quiet_searchFiles (access : PackAccess) (needle : String) (limit : ℤ)
    (paths : List Path) (results : List Json) :
    (service.searchFiles access needle limit paths results).Quiet FsRequest.readsOnly := by
  induction paths generalizing results with
  | nil => trivial
  | cons path rest ih =>
      refine (quiet_readJson path).bind ?_
      intro event
      refine Program.Quiet.bind (p := .done _) trivial ?_
      intro found
      cases found with
      | none => exact ih results
      | some result =>
          dsimp only
          split
          · trivial
          · exact ih _

theorem quiet_get (event_id : String) :
    (DurableEventStore.get event_id).Quiet FsRequest.readsOnly := by
  refine (quiet_isPresent _).bind ?_
  intro redacted
  cases redacted with
  | true => trivial
  | false => exact quiet_readJson _

/-- Every operation other than `commit` only reads files. -/
theorem quiet_program {call : CorpusCall}
    (h : ∀ event uuid temp, call.operation ≠ .commit event uuid temp) :
    (service.program call).Quiet FsRequest.readsOnly := by
  obtain ⟨access, context, operation⟩ := call
  cases operation with
  | commit event uuid temp => exact (h event uuid temp rfl).elim
  | search query limit =>
      refine Program.Quiet.bind (p := service.search access context query limit) ?_
        fun _ => trivial
      refine Program.Quiet.bind (p := .done _) trivial ?_
      intro skill
      dsimp only
      split
      · trivial
      · split
        · trivial
        · exact ⟨rfl, fun paths => quiet_searchFiles _ _ _ _ _⟩
  | read event_id =>
      refine Program.Quiet.bind (p := .done _) trivial ?_
      intro skill
      refine (quiet_get event_id).bind ?_
      intro event
      refine Program.Quiet.bind (p := .done _) trivial ?_
      intro pack_id
      exact Program.Quiet.bind (p := .done _) trivial fun _ => trivial
  | _ => trivial

/-- The files keep a ledger. -/
abbrev Stored (service : CorpusService) (l : Ledger) (files : Files) : Prop :=
  (Ledger.model service.config).StoredAs DurableEventStore.layout l files

/-- An event store over the files lists the event. -/
def Lists (service : CorpusService) (files : Files) (e : Json) : Prop :=
  ∃ es, (DurableEventStore.step service.config files .iter_events).1 = .ok (.listing es) ∧ e ∈ es

variable {l : Ledger} {files : Files}

theorem Stored.lists_iff (h : service.Stored l files) {e : Json} :
    service.Lists files e ↔ ∃ text : String, l.events[text]? = some e := by
  have hlisting : (DurableEventStore.step service.config files .iter_events).1 =
      .ok (.listing (Ledger.listing l.events)) :=
    DurableEventStore.refines_ledger.answer h rfl
  rw [← Ledger.mem_listing]
  constructor
  · rintro ⟨es, hes, he⟩
    rw [hlisting] at hes
    cases hes
    exact he
  · exact fun he => ⟨_, hlisting, he⟩

/-- An authorized commit is the commit of the event store. -/
theorem step_authorized {access : PackAccess} {context : AgentContext} {event : Document}
    (h : service.authorizeWrite access context "commit" event.value = .ok ()) (files : Files)
    (uuid temp : String) :
    DurableEventStore.step service.config files (.commit event uuid temp) =
      ((service.step files ⟨access, context, .commit event uuid temp⟩).1.map .event,
        (service.step files ⟨access, context, .commit event uuid temp⟩).2) := by
  have hrun : service.step files ⟨access, context, .commit event uuid temp⟩ =
      (DurableEventStore.commit service.config event.value uuid temp).run fsStep files := by
    show ((Program.done (service.authorizeWrite access context "commit" event.value)).bind _).run _ _ = _
    rw [h]
    rfl
  rw [hrun, DurableEventStore.step, DurableEventStore.program, Program.run_bind_pure]

theorem ok_of_map_event {x : Except Error Json} {e : Json}
    (h : x.map Returned.event = .ok (.event e)) : x = .ok e := by
  cases x with
  | error err => cases h
  | ok e' =>
      cases h
      rfl

/-- Everything a call can do to the store: nothing, or it commits an event that the service
allows. -/
theorem step_cases (h : service.Stored l files) (call : CorpusCall) :
    (service.step files call).2 = files ∨
      ∃ event uuid temp candidate, ∃ id : EventId, call.operation = .commit event uuid temp ∧
        service.authorizeWrite call.access call.context "commit" event.value = .ok () ∧
        service.config.validate event.value uuid = .ok candidate ∧
        l.events[id.text]? = none ∧ (service.step files call).1 = .ok candidate ∧
        service.Stored { l with events := l.events.insert id.text candidate }
          (service.step files call).2 := by
  by_cases hcommit : ∃ event uuid temp, call.operation = .commit event uuid temp
  · obtain ⟨access, context, operation⟩ := call
    obtain ⟨event, uuid, temp, rfl⟩ := hcommit
    cases hallowed : service.authorizeWrite access context "commit" event.value with
    | error err =>
        refine Or.inl ?_
        show (((Program.done (service.authorizeWrite access context "commit" event.value)).bind _).run
          _ _).2 = _
        rw [hallowed]
        rfl
    | ok u =>
        have hstep := step_authorized hallowed files uuid temp
        have hfiles := congrArg Prod.snd hstep
        have hresult := congrArg Prod.fst hstep
        dsimp only at hfiles hresult
        rcases Ledger.step_cases service.config l (.commit event uuid temp) with heq |
          ⟨_, _, _, candidate, id, hcall, -, -, hfree, hout, heq⟩ | ⟨_, _, _, _, _, hcall, -⟩
        · refine Or.inl ?_
          rw [← hfiles]
          exact DurableEventStore.refines_ledger.unchanged h heq
        · refine Or.inr ⟨event, uuid, temp, candidate, id, rfl, hallowed, ?_, hfree, ?_, ?_⟩
          · have hnew : (l.step service.config (.commit event uuid temp)).2.events[id.text]? =
                some candidate := by
              rw [heq, KeyMap.get?_insert_self]
            rcases Ledger.event_origin service.config l _ hnew with hold |
              ⟨event', uuid', temp', hsame, hvalidate, -, -⟩
            · rw [hfree] at hold
              cases hold
            · cases hsame
              exact hvalidate
          · have hanswer := DurableEventStore.refines_ledger.answer h hout
            rw [hresult] at hanswer
            exact ok_of_map_event hanswer
          · rw [← hfiles, ← heq]
            exact DurableEventStore.refines_ledger.next h _
        · cases hcall
  · refine Or.inl ?_
    have hquiet : (service.program call).Quiet FsRequest.readsOnly :=
      quiet_program fun event uuid temp hop => hcommit ⟨event, uuid, temp, hop⟩
    exact hquiet.run_state _ fsStep_of_readsOnly files

theorem stored_after (service : CorpusService) (calls : List CorpusCall) :
    ∃ l, service.Stored l (Runs.after service.step ∅ calls) := by
  refine Runs.invariant (P := fun files => ∃ l, service.Stored l files)
    ⟨_, storedAs_empty⟩ ?_
  rintro files call - ⟨l, h⟩
  rcases step_cases h call with heq | ⟨_, _, _, _, _, -, -, -, -, -, hnext⟩
  · rw [heq]
    exact ⟨l, h⟩
  · exact ⟨_, hnext⟩

/-- The call commits the event, which was not in the store before. -/
structure Puts (service : CorpusService) (files : Files) (call : CorpusCall) (e : Json) :
    Prop where
  commits : ∃ event uuid temp, call.operation = .commit event uuid temp
  result : (service.step files call).1 = .ok e
  fresh : ¬ service.Lists files e
  stored : service.Lists (service.step files call).2 e

/-- An event that a call brings into the store is the one it commits. -/
theorem puts_of_lists (h : service.Stored l files) {call : CorpusCall} {e : Json}
    (hfresh : ¬ service.Lists files e) (hstored : service.Lists (service.step files call).2 e) :
    service.Puts files call e ∧ ∃ event uuid temp, call.operation = .commit event uuid temp ∧
      service.authorizeWrite call.access call.context "commit" event.value = .ok () ∧
      service.config.validate event.value uuid = .ok e := by
  rcases step_cases h call with heq |
    ⟨event, uuid, temp, candidate, id, hop, hallowed, hvalidate, hfree, hresult, hnext⟩
  · rw [heq] at hstored
    exact (hfresh hstored).elim
  · obtain ⟨text, htext⟩ := hnext.lists_iff.mp hstored
    rw [KeyMap.get?_insert] at htext
    split_ifs at htext with hid
    · cases htext
      exact ⟨⟨⟨event, uuid, temp, hop⟩, hresult, hfresh, hstored⟩, event, uuid, temp, hop, hallowed,
        hvalidate⟩
    · exact (hfresh (h.lists_iff.mpr ⟨text, htext⟩)).elim

/-- Every event of a store that a run built was put there by one of its calls. -/
theorem exists_puts {calls : List CorpusCall} {e : Json}
    (h : service.Lists (Runs.after service.step ∅ calls) e) :
    ∃ before call rest, calls = before ++ call :: rest ∧
      service.Puts (Runs.after service.step ∅ before) call e ∧
      ∃ event uuid temp, call.operation = .commit event uuid temp ∧
        service.authorizeWrite call.access call.context "commit" event.value = .ok () ∧
        service.config.validate event.value uuid = .ok e := by
  have hempty : ¬ service.Lists (∅ : Files) e := by
    intro hlists
    have hstored : service.Stored .empty (∅ : Files) := storedAs_empty
    obtain ⟨text, htext⟩ := hstored.lists_iff.mp hlists
    simp [Ledger.empty] at htext
  obtain ⟨before, call, rest, hcalls, hfresh, hstored⟩ := Runs.exists_turn (P := fun files => service.Lists files e) hempty h
  obtain ⟨l, hl⟩ := stored_after service before
  exact ⟨before, call, rest, hcalls, puts_of_lists hl hfresh hstored⟩

end CorpusService

open CorpusService

/-- Every event in the store of a run was put there by a commit call whose write targets, skill
and actor cover it, and no other call and no call that raises changes the store. -/
theorem corpus_write_authority (service : CorpusService) (calls : List CorpusCall) :
    (∃ es, (DurableEventStore.step service.config (Runs.after service.step ∅ calls)
        .iter_events).1 = .ok (.listing es) ∧
      ∀ e ∈ es, ∃ before call rest, calls = before ++ call :: rest ∧
        service.Puts (Runs.after service.step ∅ before) call e ∧ service.Authority call e) ∧
      ∀ call, ((∀ event uuid temp, call.operation ≠ .commit event uuid temp) ∨
          ∃ err, (service.step (Runs.after service.step ∅ calls) call).1 = .error err) →
        (service.step (Runs.after service.step ∅ calls) call).2 =
          Runs.after service.step ∅ calls := by
  obtain ⟨l, hl⟩ := stored_after service calls
  have hlisting : (DurableEventStore.step service.config (Runs.after service.step ∅ calls)
      .iter_events).1 = .ok (.listing (Ledger.listing l.events)) :=
    DurableEventStore.refines_ledger.answer hl rfl
  refine ⟨⟨_, hlisting, ?_⟩, ?_⟩
  · intro e he
    obtain ⟨before, call, rest, hcalls, hputs, event, uuid, temp, -, hallowed, hvalidate⟩ :=
      exists_puts ⟨_, hlisting, he⟩
    exact ⟨before, call, rest, hcalls, hputs, (authorizeWrite_ok hallowed).of_validate hvalidate⟩
  · intro call hcall
    rcases step_cases hl call with heq |
      ⟨event, uuid, temp, candidate, id, hop, -, -, -, hresult, -⟩
    · exact heq
    · rcases hcall with hother | ⟨err, herr⟩
      · exact (hother event uuid temp hop).elim
      · rw [hresult] at herr
        cases herr

/-! ## Promotions -/

def sourcePack (event : Json) : Option Json :=
  (event.get? "payload").bind fun payload => payload.get? "source_pack_id"

/-- A commit of a promotion that the service and the gate let through is made under an access
that mounts the source pack. -/
def CorpusService.MountsSource (service : CorpusService) (call : CorpusCall) : Prop :=
  ∀ event uuid temp e, call.operation = .commit event uuid temp →
    service.authorizeWrite call.access call.context "commit" event.value = .ok () →
    service.config.validate event.value uuid = .ok e →
    event.value.get? "event_type" = some (.str "knowledge.promoted") →
    ∃ pack_id ∈ call.access.read_mounts, sourcePack event.value = some (.str pack_id)

/-- Where each commit of a promotion mounts its source pack, every promotion in the store was put
there under an access that mounts its source pack. -/
theorem promotions_within_mounts (service : CorpusService) (calls : List CorpusCall)
    (h : ∀ call ∈ calls, service.MountsSource call) :
    ∃ es, (DurableEventStore.step service.config (Runs.after service.step ∅ calls)
        .iter_events).1 = .ok (.listing es) ∧
      ∀ e ∈ es, e.get? "event_type" = some (.str "knowledge.promoted") →
        ∃ before call rest, calls = before ++ call :: rest ∧
          service.Puts (Runs.after service.step ∅ before) call e ∧
          ∃ pack_id ∈ call.access.read_mounts, sourcePack e = some (.str pack_id) := by
  obtain ⟨l, hl⟩ := stored_after service calls
  have hlisting : (DurableEventStore.step service.config (Runs.after service.step ∅ calls)
      .iter_events).1 = .ok (.listing (Ledger.listing l.events)) :=
    DurableEventStore.refines_ledger.answer hl rfl
  refine ⟨_, hlisting, ?_⟩
  intro e he htype
  obtain ⟨before, call, rest, rfl, hputs, event, uuid, temp, hop, hallowed, hvalidate⟩ :=
    exists_puts ⟨_, hlisting, he⟩
  refine ⟨before, call, rest, rfl, hputs, ?_⟩
  rw [get?_of_validate hvalidate (by decide)] at htype
  have hmounted := h call (List.mem_append_right _ List.mem_cons_self) event uuid temp e hop hallowed
    hvalidate htype
  rwa [sourcePack, get?_of_validate hvalidate (by decide)]

/-! ## An agent that may write one pack -/

def promotionSkill : Skill :=
  ⟨"skill_knowledge-promotion", "1.0.0", "Knowledge promotion", "Promotes reusable knowledge.",
    ["search", "read", "propose", "commit"], ["promotion"], none⟩

/-- A service whose store resolves one event of another pack as a promotion source. -/
def promotionService : CorpusService where
  config := { StoreConfig.plain with
    resolvers := ⟨none, some fun pack_id revision event_id =>
      if pack_id = "pack_fedcba9876543210" ∧ revision = "git:aaaa" ∧
          event_id = "evt_00000000000000aa" then
        .value (.ofMembers [("event_id", .str event_id), ("pack_id", .str pack_id),
          ("subject_refs", strings ["claim_01"])])
      else .none⟩ }
  root := "events"
  skills := ⟨[promotionSkill], List.nodup_singleton _⟩
  lineages := .empty
  retriever := none
  context_provider := none
  service_version := "0.1.0"
  lower := String.toLower

def promoter : AgentContext where
  actor_id := "agent-1"
  model_id := "model-1"
  harness_version := "1"
  skill_id := "skill_knowledge-promotion"
  skill_version := "1.0.0"
  complete := by decide

/-- The access mounts and may write one pack, which is not the source of the promotion. -/
def targetOnly : PackAccess :=
  ⟨"pack_0123456789abcdef", {"pack_0123456789abcdef"}, {"pack_0123456789abcdef"}⟩

/-- A promotion that the agent builds by hand. -/
def handBuilt : Document where
  value := (minimalEvent "evt_0123456789abcdef" "knowledge.promoted" "2026-01-01T00:00:00Z"
    "pack_0123456789abcdef" ["claim_01"]
    [("contract_version", .str PROMOTION_CONTRACT_VERSION),
      ("source_pack_id", .str "pack_fedcba9876543210"),
      ("source_pack_revision", .str "git:aaaa"),
      ("source_event_id", .str "evt_00000000000000aa"),
      ("target_pack_id", .str "pack_0123456789abcdef"),
      ("reason", .str "reusable")]
    [("evidence_refs", strings ["art_01"]),
      ("provenance", .ofMembers [("method", .str "explicit_cross_pack_promotion")])]).set "actor"
        promoter.durable_actor
  wf := by decide +kernel

def handBuiltCommit (access : PackAccess) : CorpusCall :=
  ⟨access, promoter, .commit handBuilt "u1" "t1"⟩

theorem validate_handBuilt :
    promotionService.config.validate handBuilt.value "u1" = .ok handBuilt.value := by
  decide +kernel

theorem step_handBuilt {access : PackAccess}
    (h : promotionService.authorizeWrite access promoter "commit" handBuilt.value = .ok ()) :
    (promotionService.step ∅ (handBuiltCommit access)).1 = .ok handBuilt.value ∧
      promotionService.Lists (Runs.after promotionService.step ∅ [handBuiltCommit access])
        handBuilt.value := by
  have hid : handBuilt.value.get? "event_id" = some (.str "evt_0123456789abcdef") := by
    decide +kernel
  have hstored : promotionService.Stored .empty (∅ : Files) := storedAs_empty
  have hledger : Ledger.empty.step promotionService.config (.commit handBuilt "u1" "t1") =
      (.ok (.event handBuilt.value),
        ⟨(∅ : KeyMap String Json).insert "evt_0123456789abcdef" handBuilt.value, ∅⟩) := by
    apply Ledger.step_commit validate_handBuilt hid
    · exact Std.ExtTreeMap.getElem?_empty
    · exact Std.ExtTreeMap.getElem?_empty
  have hstep := step_authorized h ∅ "u1" "t1"
  have hanswer := DurableEventStore.refines_ledger.answer hstored (congrArg Prod.fst hledger)
  rw [hstep] at hanswer
  refine ⟨ok_of_map_event hanswer, ?_⟩
  have hnext := DurableEventStore.refines_ledger.next hstored (.commit handBuilt "u1" "t1")
  rw [hstep, show ((Ledger.model _).step _ _).2 = _ from congrArg Prod.snd hledger] at hnext
  refine Stored.lists_iff hnext |>.mpr ⟨"evt_0123456789abcdef", ?_⟩
  rw [KeyMap.get?_insert_self]

/-- The access that mounts the source of the promotion as well. -/
def sourceAndTarget : PackAccess :=
  ⟨"pack_0123456789abcdef", {"pack_0123456789abcdef", "pack_fedcba9876543210"},
    {"pack_0123456789abcdef"}⟩

theorem promotions_within_mounts_of_commit :
    promotionService.Lists (Runs.after promotionService.step ∅ [handBuiltCommit sourceAndTarget])
        handBuilt.value ∧
      ∃ es, (DurableEventStore.step promotionService.config
          (Runs.after promotionService.step ∅ [handBuiltCommit sourceAndTarget])
          .iter_events).1 = .ok (.listing es) ∧
        ∀ e ∈ es, e.get? "event_type" = some (.str "knowledge.promoted") →
          ∃ before call rest, [handBuiltCommit sourceAndTarget] = before ++ call :: rest ∧
            promotionService.Puts (Runs.after promotionService.step ∅ before) call e ∧
            ∃ pack_id ∈ call.access.read_mounts, sourcePack e = some (.str pack_id) := by
  refine ⟨(step_handBuilt (by decide +kernel)).2,
    promotions_within_mounts promotionService [handBuiltCommit sourceAndTarget] ?_⟩
  intro call hcall event uuid temp e hop _ _ _
  obtain rfl := List.mem_singleton.mp hcall
  cases hop
  exact ⟨"pack_fedcba9876543210", by decide, by decide +kernel⟩

/-- The call commits a promotion whose source pack its access does not mount, and the same agent
is refused when it proposes one. -/
theorem unmounted_promotion_committed :
    (promotionService.step ∅ (handBuiltCommit targetOnly)).1 = .ok handBuilt.value ∧
      (∃ es, (DurableEventStore.step promotionService.config
          (Runs.after promotionService.step ∅ [handBuiltCommit targetOnly]) .iter_events).1 =
            .ok (.listing es) ∧ handBuilt.value ∈ es) ∧
      handBuilt.value.get? "event_type" = some (.str "knowledge.promoted") ∧
      sourcePack handBuilt.value = some (.str "pack_fedcba9876543210") ∧
      "pack_fedcba9876543210" ∉ targetOnly.read_mounts ∧
      ∀ args uuid, args.source_pack_id = "pack_fedcba9876543210" →
        ∃ err, promotionService.propose_promotion targetOnly promoter args uuid = .error err := by
  have hallowed : promotionService.authorizeWrite targetOnly promoter "commit" handBuilt.value = .ok () := by
    decide +kernel
  refine ⟨(step_handBuilt hallowed).1, (step_handBuilt hallowed).2, ?_, ?_, ?_, ?_⟩
  · decide +kernel
  · decide +kernel
  · decide
  · intro args uuid hsource
    have hskill : promotionService._authorize promoter "propose" = .ok promotionSkill := rfl
    obtain ⟨err, herr⟩ : ∃ err, targetOnly.require_read (.str "pack_fedcba9876543210") =
        .error err := ⟨_, rfl⟩
    refine ⟨err, ?_⟩
    simp only [CorpusService.propose_promotion, hskill, hsource, herr, bind, Except.bind]

end FossilCore
