import FossilCore.Adapters.ReplayedStore
import FossilCore.Adapters.S3EventStore

/-!
# Ids that name operations

An event with an idempotency key is stored under the id derived from its pack and its key; an
event without one may bring any id.  So an id binds the operation it is derived from among the
events that have a key, and among those alone.
-/

namespace FossilCore

open Base

/-- The event names the retryable operation of a pack. -/
structure NamesOperation (event : Json) (p k : String) : Prop where
  pack_id : event.get? "pack_id" = some (.str p)
  idempotency_key : event.get? "idempotency_key" = some (.str k)
  nonempty : k ≠ ""

def StoreConfig.idOf (config : StoreConfig) (operation : String × String) : String :=
  deterministic_event_id config.sha256 (.str operation.1) (.str operation.2)

/-- The operations that events name. -/
def operations (events : List Json) : Set (String × String) :=
  {operation | ∃ e ∈ events, NamesOperation e operation.1 operation.2}

variable {config : StoreConfig}

theorem pack_ne_empty {formats : FormatChecker} {event : Json}
    (h : eventSchema formats event = true) {pack_id : String}
    (hpack : event.get? "pack_id" = some (.str pack_id)) : pack_id ≠ "" := by
  obtain ⟨_, hmore⟩ := str_of_envelope h "pack_id"
    [Schema.pattern (Schema.isPrefixedId "pack_" 16)] (by simp [eventRequired])
    (by simp [eventProperties, _PACK_ID])
  have hpattern := hmore _ List.mem_cons_self
  rw [strAt_of_get? hpack] at hpattern
  rintro rfl
  revert hpattern
  decide

theorem NamesOperation.idempotent {formats : FormatChecker} {event : Json} {p k : String}
    (h : NamesOperation event p k) (henvelope : eventSchema formats event = true) :
    Idempotent event := by
  have hp := pack_ne_empty henvelope h.pack_id
  have hk := h.nonempty
  simp [Idempotent, Json.truthy?, h.pack_id, h.idempotency_key, Json.truthy, hp, hk]

/-- What the gate lets through of an operation carries the id of the operation. -/
theorem event_id_of_validate {event : Document} {candidate : Json} {uuid p k : String}
    (h : config.validate event.value uuid = .ok candidate) (hop : NamesOperation candidate p k) :
    candidate.get? "event_id" = some (.str (config.idOf (p, k))) := by
  obtain ⟨hassigned, henvelope⟩ := prepare_ok (validate_ok h).1
  have hidem := hop.idempotent henvelope
  have hid : config.operationId candidate = config.idOf (p, k) := by
    rw [StoreConfig.operationId, hop.pack_id, hop.idempotency_key]
    rfl
  have hsame : ∀ s : String, Idempotent (event.value.set "event_id" (.str s)) ↔
      Idempotent event.value := by
    intro s
    rw [Idempotent, Idempotent, Json.get?_set_ne _ _ (by decide), Json.get?_set_ne _ _ (by decide)]
  rcases assignId_ok hassigned with ⟨hboth, hcandidate⟩ | ⟨hboth, -, hcandidate⟩ |
    ⟨hboth, -, hcandidate⟩
  · have hoperation : config.operationId candidate = config.operationId event.value := by
      rw [hcandidate, StoreConfig.operationId, StoreConfig.operationId,
        Json.get?_set_ne _ _ (by decide), Json.get?_set_ne _ _ (by decide)]
    rw [← hid, hoperation, hcandidate]
    obtain ⟨fields, hfields⟩ := isObj_of_envelope henvelope
    cases hvalue : event.value with
    | obj members => exact Json.get?_set_self _ _ _
    | _ =>
        rw [hcandidate, hvalue] at hfields
        cases hfields
  · rw [hcandidate, hsame] at hidem
    exact absurd hidem hboth
  · rw [hcandidate] at hidem
    exact absurd hidem hboth

namespace Ledger

variable {l : Ledger}

/-- An event that a call brings into the ledger passed the gate in it. -/
theorem event_origin (config : StoreConfig) (l : Ledger) (call : EventCall) {text : String}
    {e : Json} (h : (l.step config call).2.events[text]? = some e) :
    l.events[text]? = some e ∨
      ∃ event uuid temp, call = .commit event uuid temp ∧
        config.validate event.value uuid = .ok e ∧
        e.get? "event_id" = some (.str text) ∧
        (l.step config call).1 = .ok (.event e) := by
  cases call with
  | commit event uuid temp =>
      rcases validate_cases config event uuid with
        ⟨err, herr⟩ | ⟨candidate, id, hvalidate, hstored, hid⟩
      · exact Or.inl (by simpa only [step, commit, herr] using h)
      · cases ht : l.tombstones[id.text]? with
        | some t =>
            exact Or.inl (by simpa [step, commit, hvalidate, hid, ht] using h)
        | none =>
            cases he : l.events[id.text]? with
            | some existing =>
                refine Or.inl ?_
                by_cases heq : existing = candidate
                · simpa [step, commit, hvalidate, hid, ht, he, heq] using h
                · simpa [step, commit, hvalidate, hid, ht, he, heq] using h
            | none =>
                rw [step_commit hvalidate hstored.event_id ht he] at h ⊢
                rw [KeyMap.get?_insert] at h
                split_ifs at h with htext
                · cases h
                  exact Or.inr ⟨event, uuid, temp, rfl, hvalidate, htext ▸ hstored.event_id, rfl⟩
                · exact Or.inl h
  | redact id r temp =>
      refine Or.inl ?_
      rcases step_cases config l (.redact id r temp) with heq |
        ⟨_, _, _, _, _, hcall, -⟩ | ⟨id', _, _, _, _, -, -, -, -, -, heq⟩
      · rwa [heq] at h
      · cases hcall
      · rw [heq, KeyMap.get?_erase] at h
        split_ifs at h
        exact h
  | _ => exact Or.inl h

/-- Every stored event of an operation is stored under the id of the operation. -/
def Bound (config : StoreConfig) (l : Ledger) : Prop :=
  ∀ (text : String) e p k, l.events[text]? = some e → NamesOperation e p k →
    text = config.idOf (p, k)

theorem Bound.step (h : Bound config l) (call : EventCall) : Bound config (l.step config call).2 := by
  intro text e p k he hop
  rcases event_origin config l call he with hold | ⟨event, uuid, temp, -, hvalidate, hid, -⟩
  · exact h text e p k hold hop
  · have hsame := hid.symm.trans (event_id_of_validate hvalidate hop)
    exact Json.str.inj (Option.some.inj hsame)

theorem bound_after (calls : List EventCall) :
    Bound config (Runs.after (step config) empty calls) := by
  apply Runs.invariant
  · intro text e p k he
    simp [empty] at he
  · intro l call _ h
    exact h.step call

end Ledger

/-- A stored event whose key is not empty names an operation. -/
theorem namesOperation_of_truthy {formats : FormatChecker} {event : Json}
    (h : eventSchema formats event = true)
    (hkey : Json.truthy? (event.get? "idempotency_key") = true) :
    ∃ p k, NamesOperation event p k := by
  have hproperties : Schema.properties (eventProperties formats) event = true :=
    Schema.allOf_iff.mp h _ (by simp)
  cases hget : event.get? "idempotency_key" with
  | none =>
      rw [hget] at hkey
      cases hkey
  | some value =>
      have hschema : nullableString value = true :=
        Schema.of_properties hproperties (by simp [eventProperties]) hget
      rw [hget] at hkey
      cases value with
      | str k =>
          refine ⟨_, k, get?_pack_id h, hget, ?_⟩
          rintro rfl
          simp [Json.truthy?, Json.truthy] at hkey
      | null => cases hkey
      | _ => simp [nullableString, Schema.type, Schema.hasType] at hschema

/-- The refusal of a commit that passed the gate is a conflict only for an event stored under
its id. -/
theorem Ledger.stored_of_conflict {l : Ledger} {event : Document} {uuid temp text : String}
    {candidate : Json} {err : Error}
    (hvalidate : config.validate event.value uuid = .ok candidate)
    (hid : candidate.get? "event_id" = some (.str text))
    (herr : (l.step config (.commit event uuid temp)).1 = .error err)
    (hcls : err.cls = .idempotencyConflict) : ∃ e, l.events[text]? = some e := by
  cases he : l.events[text]? with
  | some e => exact ⟨e, rfl⟩
  | none =>
      cases ht : l.tombstones[text]? with
      | none =>
          rw [Ledger.step_commit hvalidate hid ht he] at herr
          cases herr
      | some t =>
          simp [Ledger.step, Ledger.commit, hvalidate, eventIdText_of_get? hid, ht,
            Except.map] at herr
          subst herr
          cases hcls

section Stores

variable {κ : Type} [Ord κ] [Std.TransOrd κ] [Std.LawfulEqOrd κ]

/-- What the id of an operation says in a store that lists these events: an event with a key
under it is of the operation, and a first commit of the operation conflicts only with an event
that has none. -/
structure BindsOperation (config : StoreConfig) (step : StoreStep κ) (m : KeyMap κ ByteArray)
    (es : List Json) (p k : String) : Prop where
  stored : ∀ e ∈ es, e.get? "event_id" = some (.str (config.idOf (p, k))) →
    Json.truthy? (e.get? "idempotency_key") = true → NamesOperation e p k
  conflict : ∀ event uuid temp candidate err,
    config.validate event.value uuid = .ok candidate → NamesOperation candidate p k →
    (∀ e ∈ es, ¬ NamesOperation e p k) → (step m (.commit event uuid temp)).1 = .error err →
    err.cls = .idempotencyConflict →
    ∃ e ∈ es, e.get? "event_id" = some (.str (config.idOf (p, k))) ∧
      Json.truthy? (e.get? "idempotency_key") = false

omit [Std.LawfulEqOrd κ] in
theorem RefinesLedger.bindsOperation {L : Layout EventSlot κ} {step : StoreStep κ}
    (hrefines : RefinesLedger config L step) (calls : List EventCall) :
    ∃ es, (step (Runs.after step ∅ calls) .iter_events).1 = .ok (.listing es) ∧
      ∀ p k, Set.InjOn config.idOf (insert (p, k) (operations es)) →
        BindsOperation config step (Runs.after step ∅ calls) es p k := by
  have hstored := hrefines.after storedAs_empty calls
  have hvalid : (Runs.after (Ledger.step config) .empty calls).Valid config :=
    Ledger.valid_after calls
  refine ⟨_, hrefines.answer hstored rfl, ?_⟩
  intro p k hinj
  have hsame : ∀ e ∈ Ledger.listing (Runs.after (Ledger.step config) .empty calls).events,
      e.get? "event_id" = some (.str (config.idOf (p, k))) →
      Json.truthy? (e.get? "idempotency_key") = true → NamesOperation e p k := by
    intro e he hid hkey
    obtain ⟨id, hevent, hget⟩ := Ledger.storedEvent_of_mem_listing hvalid he
    obtain ⟨p', k', hop⟩ := namesOperation_of_truthy hevent.accepted.envelope hkey
    have htext := Json.str.inj (Option.some.inj (hevent.event_id.symm.trans hid))
    have hbound := Ledger.bound_after calls id.text e p' k' hget hop
    rw [htext] at hbound
    have hpair := hinj (Set.mem_insert _ _) (Set.mem_insert_of_mem _ ⟨e, he, hop⟩) hbound
    cases hpair
    exact hop
  refine ⟨hsame, ?_⟩
  intro event uuid temp candidate err hvalidate hop hfirst herr hcls
  have hid := event_id_of_validate hvalidate hop
  have houtcome := (hrefines _ _ (.commit event uuid temp) hstored).1
  rw [herr] at houtcome
  obtain ⟨err', herr'⟩ := houtcome.symm.error_right
  have hcls' : err'.cls = .idempotencyConflict := by
    have hsame : SameOutcome (.error err : Except Error Returned) (.error err') := herr' ▸ houtcome
    exact (show err.cls = err'.cls from hsame).symm.trans hcls
  have hledger : ((Runs.after (Ledger.step config) .empty calls).step config
      (.commit event uuid temp)).1 = .error err' := herr'
  obtain ⟨e, he⟩ := Ledger.stored_of_conflict hvalidate hid hledger hcls'
  have hmem := Ledger.mem_listing.mpr ⟨_, he⟩
  obtain ⟨id, hevent, hget⟩ := Ledger.storedEvent_of_mem_listing hvalid hmem
  have heid : e.get? "event_id" = some (.str (config.idOf (p, k))) := by
    obtain ⟨id', hid', hstored'⟩ := hvalid.events _ e he
    rw [hstored'.event_id, hid']
  refine ⟨e, hmem, heid, ?_⟩
  rw [← Bool.not_eq_true]
  exact fun hkey => hfirst e hmem (hsame e hmem heid hkey)

end Stores

/-- In every reachable store an event with an idempotency key stored under the id of an operation
is of that operation, and a first commit of an operation conflicts only with an event without a
key, where the ids of the operations in the store and of this one differ. -/
theorem event_ids_bind_operations (config : StoreConfig) (b : S3Backend) (paging : Paging)
    (calls : List EventCall) :
    (∃ es, (DurableEventStore.step config (Runs.after (DurableEventStore.step config) ∅ calls)
        .iter_events).1 = .ok (.listing es) ∧
      ∀ p k, Set.InjOn config.idOf (insert (p, k) (operations es)) →
        BindsOperation config (DurableEventStore.step config)
          (Runs.after (DurableEventStore.step config) ∅ calls) es p k) ∧
      ∃ es, (S3DurableEventStore.step config b paging
          (Runs.after (S3DurableEventStore.step config b paging) ∅ calls) .iter_events).1 =
            .ok (.listing es) ∧
        ∀ p k, Set.InjOn config.idOf (insert (p, k) (operations es)) →
          BindsOperation config (S3DurableEventStore.step config b paging)
            (Runs.after (S3DurableEventStore.step config b paging) ∅ calls) es p k :=
  ⟨DurableEventStore.refines_ledger.bindsOperation calls,
    S3DurableEventStore.refines_ledger.bindsOperation calls⟩

/-- An event of one operation of a pack. -/
def keyed : Document where
  value := minimalEvent "evt_f7a2405d2cade34b70c159eea84b1fde" "claim.proposed"
    "2026-01-01T00:00:00Z" "pack_0123456789abcdef" ["claim_01"] [("claim_text", .str "text")]
    [("idempotency_key", .str "import-1")]
  wf := by decide +kernel

/-- An event of another pack that brings the id of that operation, and no key. -/
def squatter : Document where
  value := minimalEvent "evt_f7a2405d2cade34b70c159eea84b1fde" "claim.proposed"
    "2026-01-01T00:00:00Z" "pack_fedcba9876543210" ["claim_02"] [("claim_text", .str "other")] []
  wf := by decide +kernel

theorem idOf_keyed : StoreConfig.plain.idOf ("pack_0123456789abcdef", "import-1") =
    "evt_f7a2405d2cade34b70c159eea84b1fde" := by
  decide +kernel

theorem validate_keyed : StoreConfig.plain.validate keyed.value "u1" = .ok keyed.value := by
  decide +kernel

theorem step_first {event : Document} (hvalidate : StoreConfig.plain.validate event.value "u1" =
      .ok event.value)
    (hid : event.value.get? "event_id" = some (.str "evt_f7a2405d2cade34b70c159eea84b1fde")) :
    Ledger.empty.step .plain (.commit event "u1" "t1") = (.ok (.event event.value),
      ⟨(∅ : KeyMap String Json).insert "evt_f7a2405d2cade34b70c159eea84b1fde" event.value, ∅⟩) := by
  apply Ledger.step_commit hvalidate hid
  · exact Std.ExtTreeMap.getElem?_empty
  · exact Std.ExtTreeMap.getElem?_empty

open DurableEventStore in
theorem event_ids_bind_keyed :
    BindsOperation .plain (DurableEventStore.step .plain)
      (Runs.after (DurableEventStore.step .plain) ∅ [.commit keyed "u1" "t1"]) [keyed.value]
      "pack_0123456789abcdef" "import-1" := by
  have hid : keyed.value.get? "event_id" =
      some (.str "evt_f7a2405d2cade34b70c159eea84b1fde") := by decide +kernel
  have hpack : keyed.value.get? "pack_id" = some (.str "pack_0123456789abcdef") := by
    decide +kernel
  have hkey : keyed.value.get? "idempotency_key" = some (.str "import-1") := by decide +kernel
  have hlisting : Ledger.listing (ledgerAfter .plain [.commit keyed "u1" "t1"]).events =
      [keyed.value] := by
    rw [show ledgerAfter .plain [.commit keyed "u1" "t1"] = _ from
      congrArg Prod.snd (step_first validate_keyed hid)]
    exact List.perm_singleton.mp (Ledger.listing_insert_empty_perm _ _)
  obtain ⟨es, hes, hbinds⟩ :=
    (event_ids_bind_operations .plain ⟨"prod"⟩ .single [.commit keyed "u1" "t1"]).1
  rw [iter_events_after, hlisting] at hes
  cases hes
  apply hbinds
  have honly : insert ("pack_0123456789abcdef", "import-1") (operations [keyed.value]) ⊆
      {("pack_0123456789abcdef", "import-1")} := by
    rintro ⟨p, k⟩ (hop | ⟨e, he, hop⟩)
    · exact hop
    · rw [List.mem_singleton.mp he] at hop
      rw [Set.mem_singleton_iff, Prod.mk.injEq]
      exact ⟨Json.str.inj (Option.some.inj (hop.pack_id.symm.trans hpack)),
        Json.str.inj (Option.some.inj (hop.idempotency_key.symm.trans hkey))⟩
  exact (Set.injOn_singleton _ _).mono honly

open DurableEventStore in
/-- An event of another pack takes the id of the operation, and the first commit of the operation
is refused as a conflict. -/
theorem squatted_id_conflicts :
    StoreConfig.plain.idOf ("pack_0123456789abcdef", "import-1") =
        "evt_f7a2405d2cade34b70c159eea84b1fde" ∧
      squatter.value.get? "pack_id" = some (.str "pack_fedcba9876543210") ∧
      squatter.value.get? "idempotency_key" = none ∧
      (DurableEventStore.step .plain ∅ (.commit squatter "u1" "t1")).1 =
        .ok (.event squatter.value) ∧
      (DurableEventStore.step .plain
        (Runs.after (DurableEventStore.step .plain) ∅ [.commit squatter "u1" "t1"])
        (.get ⟨"evt_f7a2405d2cade34b70c159eea84b1fde", by decide +kernel⟩)).1 =
          .ok (.event squatter.value) ∧
      ∃ err, (DurableEventStore.step .plain
          (Runs.after (DurableEventStore.step .plain) ∅ [.commit squatter "u1" "t1"])
          (.commit keyed "u1" "t2")).1 = .error err ∧ err.cls = .idempotencyConflict := by
  have hid : squatter.value.get? "event_id" =
      some (.str "evt_f7a2405d2cade34b70c159eea84b1fde") := by decide +kernel
  have hkeyed : keyed.value.get? "event_id" =
      some (.str "evt_f7a2405d2cade34b70c159eea84b1fde") := by decide +kernel
  have hfirst := step_first
    (show StoreConfig.plain.validate squatter.value "u1" = .ok squatter.value by decide +kernel) hid
  have hledger : ledgerAfter .plain [.commit squatter "u1" "t1"] =
      ⟨(∅ : KeyMap String Json).insert "evt_f7a2405d2cade34b70c159eea84b1fde" squatter.value, ∅⟩ :=
    congrArg Prod.snd hfirst
  have hget : (ledgerAfter .plain [.commit squatter "u1" "t1"]).events[
      "evt_f7a2405d2cade34b70c159eea84b1fde"]? = some squatter.value := by
    rw [hledger, KeyMap.get?_insert_self]
  have htomb : (ledgerAfter .plain [.commit squatter "u1" "t1"]).tombstones[
      "evt_f7a2405d2cade34b70c159eea84b1fde"]? = none := by
    rw [hledger]
    exact Std.ExtTreeMap.getElem?_empty
  refine ⟨idOf_keyed, by decide +kernel, by decide +kernel,
    answer_after [] (congrArg Prod.fst hfirst), ?_, ?_⟩
  · apply answer_after
    simp [Ledger.step, Ledger.get, hget, htomb, Except.map]
  · have hne : squatter.value ≠ keyed.value := by decide +kernel
    have hconflict : (ledgerAfter .plain [.commit squatter "u1" "t1"]).step .plain
        (.commit keyed "u1" "t2") = (.error (.differentContent
          "evt_f7a2405d2cade34b70c159eea84b1fde"),
          ledgerAfter .plain [.commit squatter "u1" "t1"]) := by
      simp [Ledger.step, Ledger.commit, validate_keyed, eventIdText_of_get? hkeyed, htomb, hget, hne,
        Except.map]
    have hstored : (Ledger.model .plain).StoredAs layout
        (ledgerAfter .plain [.commit squatter "u1" "t1"])
        (Runs.after (DurableEventStore.step .plain) ∅ [.commit squatter "u1" "t1"]) :=
      storedAs_after _
    have hsame := (refines_ledger _ _ (.commit keyed "u1" "t2") hstored).1
    rw [show ((Ledger.model .plain).step _ _).1 = _ from congrArg Prod.fst hconflict] at hsame
    obtain ⟨err, herr⟩ := hsame.error_right
    rw [herr] at hsame
    exact ⟨err, herr, hsame⟩

end FossilCore
