import FossilCore.Adapters.S3EventStore
import FossilCore.Store.Erasure

/-!
# The S3 event store under crashes

The same runs of attempts as for the file system, over client requests.  There are no temporary
objects, so that sound objects are events and tombstones only.
-/

namespace FossilCore

open Base

def S3Request.readsOnly : S3Request → Bool
  | .get _ | .head _ | .list _ => true
  | _ => false

theorem s3Step_of_readsOnly (paging : Paging) (r : S3Request) (objects : Objects)
    (h : r.readsOnly = true) : (s3Step paging r objects).2 = objects := by
  cases r with
  | get key =>
      simp only [s3Step]
      cases objects[key]? <;> rfl
  | head key =>
      simp only [s3Step]
      cases objects[key]? <;> rfl
  | list start => rfl
  | _ => cases h

namespace S3Backend

variable {b : S3Backend} {paging : Paging} {kind : S3Request → Bool} {objects : Objects}
  {relative : String} {data : ByteArray}

theorem always_quiet {α : Type} {p : S3 α} (h : p.Quiet S3Request.readsOnly)
    {post : Option (Except Error α) → Objects → Prop} (hpost : ∀ o, post o objects) :
    p.Always (s3Step paging) s3Refused kind post objects :=
  h.always (s3Step_of_readsOnly paging) hpost

theorem quiet_read (relative : String) : (b.read relative).Quiet S3Request.readsOnly := by
  refine ⟨rfl, fun a => ?_⟩
  cases a with
  | ok data => trivial
  | error code =>
      dsimp only
      split <;> trivial

theorem quiet_isPresent (relative : String) : (b.isPresent relative).Quiet S3Request.readsOnly := by
  refine ⟨rfl, fun a => ?_⟩
  cases a with
  | ok data => trivial
  | error code =>
      dsimp only
      split <;> trivial

theorem quiet_readJson (relative : String) : (b.readJson relative).Quiet S3Request.readsOnly := by
  apply Program.Quiet.bind (quiet_read relative)
  intro data
  trivial

theorem quiet_iter_keys (start : String) : (b.iter_keys start).Quiet S3Request.readsOnly :=
  ⟨rfl, fun _ => trivial⟩

theorem always_isPresent {post : Option (Except Error Bool) → Objects → Prop}
    (hstop : post none objects)
    (h : post (some (.ok objects[b.key relative]?.isSome)) objects) :
    (b.isPresent relative).Always (s3Step paging) s3Refused kind post objects := by
  refine ⟨?_, fun _ => ⟨hstop, fun a ha => by cases ha⟩⟩
  cases hkey : objects[b.key relative]? with
  | some data =>
      rw [hkey] at h
      simp only [s3Step, hkey]
      exact h
  | none =>
      rw [hkey] at h
      simp only [s3Step, hkey]
      exact h

theorem always_readJson_some {post : Option (Except Error Json) → Objects → Prop} {value : Json}
    (h : objects[b.key relative]? = some data) (hvalue : Json.loadBytes data = .ok value)
    (hstop : post none objects) (hok : post (some (.ok value)) objects) :
    (b.readJson relative).Always (s3Step paging) s3Refused kind post objects := by
  refine ⟨?_, fun _ => ⟨hstop, fun a ha => by cases ha⟩⟩
  simp only [s3Step, h]
  show post (some (liftPy (Json.loadBytes data))) objects
  rw [hvalue]
  exact hok

theorem always_readJson_none {post : Option (Except Error Json) → Objects → Prop}
    (h : objects[b.key relative]? = none) (hstop : post none objects)
    (hfail : ∀ e, post (some (.error e)) objects) :
    (b.readJson relative).Always (s3Step paging) s3Refused kind post objects := by
  refine ⟨?_, fun _ => ⟨hstop, fun a ha => by cases ha⟩⟩
  simp only [s3Step, h]
  exact hfail _

/-- A conditional put creates the object, or finds one and only reads it. -/
theorem always_put_immutable {post : Option (Except Error Bool) → Objects → Prop}
    (hstop : post none objects)
    (hfree : objects[b.key relative]? = none →
      post (some (.ok true)) (objects.insert (b.key relative) data))
    (htaken : objects[b.key relative]?.isSome → ∀ o, post o objects) :
    (b.put_immutable relative data).Always (s3Step paging) s3Refused kind post objects := by
  refine ⟨?_, fun _ => ⟨hstop, fun a ha => by cases ha⟩⟩
  cases h : objects[b.key relative]? with
  | none =>
      simp only [s3Step, h]
      exact hfree h
  | some existing =>
      have hall := htaken (by rw [h]; rfl)
      simp only [s3Step, h]
      refine always_quiet ?_ hall
      split
      · apply Program.Quiet.bind (quiet_read _)
        intro existing
        split <;> trivial
      · trivial

theorem always_delete {post : Option (Except Error Unit) → Objects → Prop}
    (hgo : post (some (.ok ())) (objects.erase (b.key relative)))
    (hcut : kind (.delete (b.key relative)) = false →
      post none objects ∧ ∀ e, post (some (.error e)) objects) :
    (b.delete relative).Always (s3Step paging) s3Refused kind post objects := by
  refine ⟨hgo, fun hkind => ⟨(hcut hkind).1, ?_⟩⟩
  rintro a ⟨⟩
  exact (hcut hkind).2 _

end S3Backend

namespace S3DurableEventStore

variable {config : StoreConfig} {b : S3Backend} {paging : Paging} {kind : S3Request → Bool}
  {objects : Objects} {data : ByteArray}

/-- Nothing but events and tombstones. -/
def spare (_ : String) (_ : ByteArray) : Prop := False

theorem exists_event (h : AllPlaced config (layout b) spare objects) {id : EventId}
    (he : objects[b.key (event_key id.text)]? = some data) :
    ∃ e, StoredEvent config id e ∧ data = e.canonical :=
  h.exists_event (fun _ _ hspare => hspare) he

theorem exists_tombstone (h : AllPlaced config (layout b) spare objects) {id : EventId}
    (ht : objects[b.key (redaction_key id.text)]? = some data) :
    ∃ t, Ledger.IsTombstone id t ∧ data = t.canonical :=
  h.exists_tombstone (fun _ _ hspare => hspare) ht

theorem quiet_get_redaction (event_id : String) :
    (get_redaction b event_id).Quiet S3Request.readsOnly := by
  apply Program.Quiet.bind (S3Backend.quiet_isPresent _)
  intro present
  cases present
  · trivial
  · exact (S3Backend.quiet_readJson _).bind fun _ => trivial

theorem quiet_get (event_id : String) : (get b event_id).Quiet S3Request.readsOnly := by
  apply Program.Quiet.bind (S3Backend.quiet_isPresent _)
  intro redacted
  cases redacted
  · exact S3Backend.quiet_readJson _
  · trivial

theorem quiet_readSorted (start : String) : (readSorted b start).Quiet S3Request.readsOnly := by
  apply Program.Quiet.bind (S3Backend.quiet_iter_keys start)
  intro keys
  exact Program.Quiet.forEach S3Backend.quiet_readJson _

/-! ## What each call preserves -/

def Leaves (config : StoreConfig) (b : S3Backend) (objects objects' : Objects) : Prop :=
  Sound config (layout b) spare objects' ∧ KeepsTombstones (layout b) objects objects'

theorem Leaves.refl (h : Sound config (layout b) spare objects) :
    Leaves config b objects objects := ⟨h, .refl _⟩

theorem always_commit (h : Sound config (layout b) spare objects) (event : Document)
    (uuid : String) :
    (commit config b event.value uuid).Always (s3Step paging) s3Refused kind
      (fun _ objects' => Leaves config b objects objects') objects := by
  rcases Ledger.validate_cases config event uuid with
    ⟨err, herr⟩ | ⟨candidate, id, hvalidate, hstored, hid⟩
  · rw [commit, herr]
    exact .refl h
  · rw [commit, hvalidate, Program.bind_done_ok, publish_candidate, hid, Program.bind_done_ok]
    apply Program.Always.bind
    apply S3Backend.always_isPresent (.refl h)
    cases ht : objects[b.key (redaction_key id.text)]? with
    | some t => exact .refl h
    | none =>
        apply Program.Always.catching
        apply Program.Always.bind
        apply S3Backend.always_put_immutable (.refl h)
        · intro _
          exact ⟨h.insert_event hstored ht, .insert _ _ _⟩
        · rintro _ (_ | e | _)
          · exact .refl h
          · show Program.Always _ _ _ _ (if _ then _ else _) _
            split <;> exact .refl h
          · exact .refl h

theorem always_redact (h : Sound config (layout b) spare objects)
    (hkind : ∀ key, kind (.delete key) = true) (id : EventId) (r : RedactionRequest) :
    (redact config b id.text r).Always (s3Step paging) s3Refused kind
      (fun o objects' => Leaves config b objects objects' ∧
        ∀ t, o = some (.ok t) → objects'[b.key (redaction_key id.text)]?.isSome) objects := by
  rw [redact]
  by_cases hr : r.incomplete = true
  · rw [if_pos hr]
    exact ⟨.refl h, by simp⟩
  · rw [if_neg hr]
    apply Program.Always.bind
    rw [get_redaction]
    apply Program.Always.bind
    apply S3Backend.always_isPresent ⟨.refl h, by simp⟩
    cases ht : objects[b.key (redaction_key id.text)]? with
    | some data =>
        -- The tombstone is already there, and everything that follows only reads.
        obtain ⟨t, htomb, rfl⟩ := exists_tombstone h.placed ht
        apply Program.Always.bind
        apply S3Backend.always_readJson_some ht (Json.loadBytes_canonical htomb.wf)
        · exact ⟨.refl h, by simp⟩
        · simp only [orNone_of_isObj htomb.isObj]
          refine S3Backend.always_quiet (p := .done (r.agrees t) >>= fun agrees =>
              if agrees = true then pure t else .raise (.differentTombstone id.text))
            ?_ fun _ => ⟨.refl h, fun _ _ => by rw [ht]; rfl⟩
          refine Program.Quiet.bind (p := .done _) trivial ?_
          intro agrees
          split <;> trivial
    | none =>
        show Program.Always _ _ _ _ (get b id.text >>= _) _
        apply Program.Always.bind
        rw [get]
        apply Program.Always.bind
        apply S3Backend.always_isPresent ⟨.refl h, by simp⟩
        rw [ht]
        cases he : objects[b.key (event_key id.text)]? with
        | none =>
            exact S3Backend.always_readJson_none he ⟨.refl h, by simp⟩ fun e => ⟨.refl h, by simp⟩
        | some data =>
            obtain ⟨event, hstored, rfl⟩ := exists_event h.placed he
            refine S3Backend.always_readJson_some he (Json.loadBytes_canonical hstored.wf)
              ⟨.refl h, by simp⟩ ?_
            obtain ⟨tombstone, hfor, hburied⟩ := Ledger.tombstoneFor_ok (r := r) hstored
            simp only [hfor, Program.bind_done_ok]
            apply Program.Always.bind
            apply Program.Always.catching
            apply S3Backend.always_put_immutable ⟨.refl h, by simp⟩
            · intro _
              apply Program.Always.bind
              apply S3Backend.always_delete
              · have hne : b.key (event_key id.text) ≠ b.key (redaction_key id.text) :=
                  event_key_ne_tombstone_key (L := layout b) id id
                have hkeeps : KeepsTombstones (layout b) objects
                    ((objects.insert (b.key (redaction_key id.text)) tombstone.canonical).erase
                      (b.key (event_key id.text))) :=
                  (KeepsTombstones.insert _ _ _).trans
                    (.erase _ fun id' => (event_key_ne_tombstone_key id id').symm)
                refine ⟨⟨h.redact hburied, hkeeps⟩, fun t _ => ?_⟩
                rw [KeyMap.get?_erase_ne _ hne, KeyMap.get?_insert_self]
                rfl
              · intro hcut
                rw [hkind] at hcut
                cases hcut
            · intro hpresent
              rw [ht] at hpresent
              cases hpresent

/-! ## Runs of attempts -/

def attempt (config : StoreConfig) (b : S3Backend) (paging : Paging) :
    Objects → Program.Attempt EventCall → Option (Except Error Returned) × Objects :=
  Program.attempt (s3Step paging) s3Refused (program config b)

theorem attempt_nil (objects : Objects) (call : EventCall) :
    attempt config b paging objects ⟨call, []⟩ =
      (some (step config b paging objects call).1, (step config b paging objects call).2) := by
  simp only [attempt, Program.attempt, Program.exec_nil, step]

/-- The deletion of a redaction. -/
def delicate : EventCall → S3Request → Bool
  | .redact .., .delete _ => true
  | _, _ => false

/-- The script neither stops the attempt at a delicate request nor has one refused. -/
def Uncut (config : StoreConfig) (b : S3Backend) (paging : Paging) (objects : Objects)
    (a : Program.Attempt EventCall) : Prop :=
  (program config b a.call).cutAt (s3Step paging) s3Refused (delicate a.call) a.script objects =
    false

theorem uncut_nil (objects : Objects) (call : EventCall) :
    Uncut config b paging objects ⟨call, []⟩ :=
  Program.cutAt_nil _ _ _ _ _

theorem always_program (h : Sound config (layout b) spare objects) (call : EventCall) :
    (program config b call).Always (s3Step paging) s3Refused (delicate call)
      (fun o objects' => Leaves config b objects objects' ∧
        ∀ id r temp t, call = .redact id r temp → o = some (.ok t) →
          objects'[b.key (redaction_key id.text)]?.isSome) objects := by
  have hquiet : ∀ {α : Type} {p : S3 α} {f : α → Returned}, p.Quiet S3Request.readsOnly →
      (∀ id r temp, call ≠ .redact id r temp) →
      (p >>= fun a => pure (f a)).Always (s3Step paging) s3Refused (delicate call)
        (fun o objects' => Leaves config b objects objects' ∧
          ∀ id r temp t, call = .redact id r temp → o = some (.ok t) →
            objects'[b.key (redaction_key id.text)]?.isSome) objects := by
    intro α p f hp hcall
    refine S3Backend.always_quiet (hp.bind (f := fun a => pure (f a)) fun _ => trivial)
      fun _ => ⟨.refl h, ?_⟩
    intro id r temp t hredact
    exact (hcall id r temp hredact).elim
  cases call with
  | commit event uuid temp =>
      apply Program.Always.bind
      refine (always_commit h event uuid).mono ?_
      intro o objects' hleaves
      match o with
      | none => exact ⟨hleaves, by simp⟩
      | some (.ok e) => exact ⟨hleaves, by simp⟩
      | some (.error e) => exact ⟨hleaves, by simp⟩
  | redact id r temp =>
      apply Program.Always.bind
      refine (always_redact h (fun key => rfl) id r).mono ?_
      rintro o objects' ⟨hleaves, hdone⟩
      match o with
      | none => exact ⟨hleaves, by simp⟩
      | some (.error e) => exact ⟨hleaves, by simp⟩
      | some (.ok t) =>
          refine ⟨hleaves, ?_⟩
          rintro _ _ _ _ ⟨⟩ -
          exact hdone t rfl
  | get id => exact hquiet (quiet_get _) (by simp)
  | get_redaction id => exact hquiet (quiet_get_redaction _) (by simp)
  | iter_events => exact hquiet (quiet_readSorted _) (by simp)
  | iter_redactions => exact hquiet (quiet_readSorted _) (by simp)

theorem leaves_attempt {a : Program.Attempt EventCall}
    (h : Sound config (layout b) spare objects) (hcut : Uncut config b paging objects a) :
    Leaves config b objects (attempt config b paging objects a).2 ∧
      ∀ id r temp t, a.call = .redact id r temp →
        (attempt config b paging objects a).1 = some (.ok t) →
        (attempt config b paging objects a).2[b.key (redaction_key id.text)]?.isSome :=
  (always_program h a.call).exec hcut

theorem sound_after {attempts : List (Program.Attempt EventCall)}
    (h : Runs.Meets (attempt config b paging) (Uncut config b paging) ∅ attempts) :
    Sound config (layout b) spare (Runs.after (attempt config b paging) ∅ attempts) :=
  Runs.invariant_of_meets sound_empty h fun _ _ hs ha => (leaves_attempt hs ha).1.1

/-- An acknowledged redaction leaves a tombstone for good. -/
theorem tombstone_after {attempts : List (Program.Attempt EventCall)}
    (h : Runs.Meets (attempt config b paging) (Uncut config b paging) ∅ attempts) {id : EventId}
    {r : RedactionRequest} {temp : String} {script : List Program.Decision} {t : Returned}
    (hanswered : Runs.Answered (attempt config b paging) ∅ attempts ⟨.redact id r temp, script⟩
      (some (.ok t))) :
    (Runs.after (attempt config b paging) ∅ attempts)[b.key (redaction_key id.text)]?.isSome := by
  refine Runs.answered_of_meets (P := Sound config (layout b) spare)
    (Q := fun objects => objects[b.key (redaction_key id.text)]?.isSome) sound_empty h hanswered
    ?_ ?_ ?_
  · exact fun _ _ hs ha => (leaves_attempt hs ha).1.1
  · exact fun _ hs ha ho => (leaves_attempt hs ha).2 id r temp t rfl ho
  · exact fun _ _ hs ha hq => (leaves_attempt hs ha).1.2 id hq

/-! ## The listing of sound objects -/

/-- What an enumeration of the events reads: every key is that of a stored event. -/
theorem exists_of_mem_keys (h : AllPlaced config (layout b) spare objects) {relative : String}
    (hrelative : relative ∈ (objects.keys.filter
      (Text.startsWith · (b.key "canonical/events/"))).filterMap b.relative?) :
    ∃ id e, relative = event_key id.text ∧
      objects[b.key (event_key id.text)]? = some e.canonical ∧ StoredEvent config id e := by
  obtain ⟨key, hkey, hsome⟩ := List.mem_filterMap.mp hrelative
  rw [List.mem_filter, KeyMap.mem_keys_iff] at hkey
  obtain ⟨⟨data, hdata⟩, hstart⟩ := hkey
  cases h key data hdata with
  | @event id e he =>
      have hslot : (layout b).key (.event id) = b.head ++ event_key id.text :=
        key_slotKey b (.event id)
      rw [hslot, b.relative?_head] at hsome
      exact ⟨id, e, (Option.some.inj hsome).symm, hdata, he⟩
  | @tombstone id t ht =>
      have hno : Text.startsWith (b.key (slotKey (.tombstone id))) (b.key "canonical/events/") =
          false := by
        rw [startsWith_slotKey _ _ (by decide)]
        simp only [slotKey, redaction_key, shardedKey, Text.startsWith, String.toList_append]
        rfl
      rw [show (layout b).key (.tombstone id) = b.key (slotKey (.tombstone id)) from rfl, hno]
        at hstart
      cases hstart
  | spare hspare => exact hspare.elim

variable (paging) in
/-- The listing has exactly the stored events. -/
theorem listing_of_placed (h : AllPlaced config (layout b) spare objects) :
    ∃ es, (step config b paging objects .iter_events).1 = .ok (.listing es) ∧
      ∀ e, e ∈ es ↔ ∃ id, StoredEvent config id e ∧
        objects[b.key (event_key id.text)]? = some e.canonical := by
  let keys := sorted (((objects.keys.filter
    (Text.startsWith · (b.key "canonical/events/"))).filterMap b.relative?).filter
      (Text.endsWith · ".json"))
  have hevent : ∀ key ∈ keys, ∃ id e, key = event_key id.text ∧
      objects[b.key (event_key id.text)]? = some e.canonical ∧ StoredEvent config id e := by
    intro key hkey
    simp only [keys, sorted, List.mem_mergeSort] at hkey
    exact exists_of_mem_keys h (List.mem_of_mem_filter hkey)
  let value := fun key => objects[b.key key]?.bind fun data => (Json.loadBytes data).toOption
  have hload : ∀ {key : String} {e : Json} {id : EventId}, objects[b.key key]? = some e.canonical →
      StoredEvent config id e → value key = some e := by
    intro key e id hdata he
    simp only [value, hdata, Option.bind_some, Json.loadBytes_canonical he.wf]
    rfl
  have hvalue : ∀ key ∈ keys, ∃ e,
      value key = some e ∧ (b.readJson key).run (s3Step paging) objects = (.ok e, objects) := by
    intro key hkey
    obtain ⟨id, e, rfl, hdata, he⟩ := hevent key hkey
    exact ⟨e, hload hdata he,
      S3Backend.run_readJson_some hdata (Json.loadBytes_canonical he.wf)⟩
  refine ⟨keys.filterMap value, ?_, ?_⟩
  · have hrun : (Program.forEach b.readJson (keys.map fun key => key)).run (s3Step paging) objects =
        (.ok (keys.filterMap value), objects) := Program.run_forEach _ hvalue
    rw [List.map_id'] at hrun
    rw [step, program, Program.run_bind_pure]
    have hiter : (iter_events b).run (s3Step paging) objects =
        (.ok (keys.filterMap value), objects) := by
      rw [iter_events, readSorted, Program.run_bind_ok _ S3Backend.run_iter_keys]
      exact hrun
    rw [hiter]
    rfl
  · intro e
    rw [List.mem_filterMap]
    constructor
    · rintro ⟨key, hkey, hsome⟩
      obtain ⟨id, e', rfl, hdata, he⟩ := hevent key hkey
      rw [hload hdata he] at hsome
      cases hsome
      exact ⟨id, he, hdata⟩
    · rintro ⟨id, he, hdata⟩
      refine ⟨event_key id.text, ?_, hload hdata he⟩
      have hstart : Text.startsWith (b.key (slotKey (.event id))) (b.key "canonical/events/") =
          true := by
        rw [startsWith_slotKey _ _ (by decide)]
        exact Text.startsWith_append _ _
      have hend : event_key id.text = "canonical/events/" ++
          (shardOf "evt_" id.text ++ ("/" ++ id.text)) ++ ".json" := by
        simp only [event_key, shardedKey, fileName, String.append_assoc]
      simp only [keys, sorted, List.mem_mergeSort, List.mem_filter, List.mem_filterMap,
        KeyMap.mem_keys_iff]
      refine ⟨⟨b.key (event_key id.text), ⟨⟨_, hdata⟩, hstart⟩, ?_⟩, ?_⟩
      · have hkey : b.key (event_key id.text) = b.head ++ event_key id.text :=
          key_slotKey b (.event id)
        rw [hkey, b.relative?_head]
      · rw [hend]
        exact Text.endsWith_append _ _

/-- Among sound objects no event with a tombstone is listed. -/
theorem listed_of_sound (h : Sound config (layout b) spare objects) :
    ∃ es, (step config b paging objects .iter_events).1 = .ok (.listing es) ∧
      ∀ e ∈ es, ∀ id : EventId, e.get? "event_id" = some (.str id.text) →
        objects[b.key (redaction_key id.text)]? = none := by
  obtain ⟨es, hlisting, hmem⟩ := listing_of_placed paging h.placed
  refine ⟨es, hlisting, ?_⟩
  intro e he id hid
  obtain ⟨id', hstored, hdata⟩ := (hmem e).mp he
  obtain rfl : id = id' := hstored.id_of_get? hid
  exact h.tombstone_absent hdata

/-! ## A redaction that is cut -/

variable (paging) in
/-- Stopped before its last request, a redaction has published its tombstone and still keeps the
event. -/
theorem attempt_stopped_redact {id : EventId} {event : Json} {r : RedactionRequest} (temp : String)
    (hevent : objects[b.key (event_key id.text)]? = some event.canonical)
    (hstored : StoredEvent config id event)
    (htomb : objects[b.key (redaction_key id.text)]? = none) (hr : r.incomplete = false) :
    ∃ tombstone, Ledger.IsTombstone id tombstone ∧ r.agrees tombstone = .ok true ∧
      attempt config b paging objects ⟨.redact id r temp, [.go, .go, .go, .go, .stop]⟩ =
        (none, objects.insert (b.key (redaction_key id.text)) tombstone.canonical) := by
  obtain ⟨tombstone, hfor, hburied⟩ := Ledger.tombstoneFor_ok (r := r) hstored
  refine ⟨tombstone, hburied, Ledger.agrees_tombstoneFor hfor, ?_⟩
  have habsent : ∀ script, (b.isPresent (redaction_key id.text)).exec (s3Step paging) s3Refused
      (.go :: script) objects = (some (.ok false), script, objects) := by
    intro script
    simp [S3Backend.isPresent, Program.exec, s3Step, htomb, S3Backend.hasCode, S3Backend.not_found]
  have hread : ∀ script, (get b id.text).exec (s3Step paging) s3Refused (.go :: .go :: script)
      objects = (some (.ok event), script, objects) := by
    intro script
    rw [get, is_redacted, Program.exec_bind_ok (habsent _)]
    simp [S3Backend.readJson, S3Backend.read, Program.exec, s3Step, hevent, liftPy,
      Json.loadBytes_canonical hstored.wf]
  have hput : ∀ script, (b.put_immutable (redaction_key id.text) tombstone.canonical).exec
      (s3Step paging) s3Refused (.go :: script) objects =
        (some (.ok true), script,
          objects.insert (b.key (redaction_key id.text)) tombstone.canonical) := by
    intro script
    simp [S3Backend.put_immutable, Program.exec, s3Step, htomb]
  have hexec : (redact config b id.text r).exec (s3Step paging) s3Refused
      [.go, .go, .go, .go, .stop] objects =
        (none, [], objects.insert (b.key (redaction_key id.text)) tombstone.canonical) := by
    have hnone : (get_redaction b id.text).exec (s3Step paging) s3Refused
        [.go, .go, .go, .go, .stop] objects = (some (.ok none), [.go, .go, .go, .stop], objects) := by
      rw [get_redaction, Program.exec_bind_ok (habsent _)]
      rfl
    rw [redact, hr]
    simp only [Bool.false_eq_true, if_false]
    rw [Program.exec_bind_ok hnone, Program.exec_bind_ok (hread _)]
    simp only [hfor, Program.bind_done_ok]
    rw [Program.exec_bind_ok (Program.exec_catching_ok (hput _))]
    rfl
  simp only [attempt, Program.attempt, program, Program.exec_bind_none hexec]

variable (config) (paging) in
/-- A redaction made again finds its tombstone and leaves everything as it is. -/
theorem attempt_repeated_redact {id : EventId} {tombstone : Json} {r : RedactionRequest}
    (temp : String) (htomb : objects[b.key (redaction_key id.text)]? = some tombstone.canonical)
    (hburied : Ledger.IsTombstone id tombstone) (hagrees : r.agrees tombstone = .ok true)
    (hr : r.incomplete = false) :
    attempt config b paging objects ⟨.redact id r temp, []⟩ =
      (some (.ok (.event tombstone)), objects) := by
  have hpresent : (b.isPresent (redaction_key id.text)).run (s3Step paging) objects =
      (.ok true, objects) := by
    rw [S3Backend.run_isPresent, htomb]
    rfl
  have hsome : (get_redaction b id.text).run (s3Step paging) objects =
      (.ok (some tombstone), objects) := by
    rw [get_redaction, Program.run_bind_ok _ hpresent]
    refine (Program.run_bind_ok _ (S3Backend.run_readJson_some htomb
      (Json.loadBytes_canonical hburied.wf))).trans ?_
    rw [orNone_of_isObj hburied.isObj]
    rfl
  have hrun : (redact config b id.text r).run (s3Step paging) objects =
      (.ok tombstone, objects) := by
    rw [redact, hr]
    simp only [Bool.false_eq_true, if_false]
    rw [Program.run_bind_ok _ hsome]
    simp only [hagrees, Program.bind_done_ok]
    rfl
  simp only [attempt, Program.attempt, program, Program.exec_nil, Program.run_bind_ok _ hrun]
  rfl

end S3DurableEventStore

end FossilCore
