import Mathlib.Data.Fin.VecNotation
import FossilCore.Base.Interleave
import FossilCore.Adapters.RedactionCompleteness
import FossilCore.Adapters.S3ArtifactStoreCrashes

/-!
# Redactions among concurrent writers

Calls of any number of clients of one bucket, interleaved request by request.  A commit looks
for a tombstone and creates the event object in two requests, a redaction publishes the
tombstone and deletes the object in two others; so a create can come after the deletion.  The
object of a redacted identity is gone in the end exactly when no create does.
-/

namespace FossilCore

open Base

/-! ## The writes of a history -/

section Histories

variable {ι : Type} {paging : Paging} {objects objects' : Objects} {k : String}
  {history : List (ι × Program.Exchange S3Answer)}

/-- Every conditional create of the object is followed by a deletion of it. -/
def CreatesErased (k : String) (history : List (ι × Program.Exchange S3Answer)) : Prop :=
  ∀ before i data answer after, history = before ++ (i, ⟨.put k data, answer⟩) :: after →
    ∃ j answer', (j, ⟨.delete k, answer'⟩) ∈ after

/-- What one request does to one key. -/
theorem get?_s3Step (k : String) {e : Program.Exchange S3Answer}
    (he : e.2 = (s3Step paging e.1 objects).1) :
    (s3Step paging e.1 objects).2[k]? = objects[k]? ∨
      (∃ data, e = ⟨.put k data, .ok ()⟩ ∧ (s3Step paging e.1 objects).2[k]? = some data) ∨
      (∃ answer, e = ⟨.delete k, answer⟩ ∧ (s3Step paging e.1 objects).2[k]? = none) := by
  obtain ⟨r, a⟩ := e
  dsimp only at he ⊢
  cases r with
  | get key => exact Or.inl (by rw [s3Step_of_readsOnly _ _ _ rfl])
  | head key => exact Or.inl (by rw [s3Step_of_readsOnly _ _ _ rfl])
  | list start => exact Or.inl rfl
  | put key data =>
      cases hkey : objects[key]? with
      | some existing => exact Or.inl (by simp only [s3Step, hkey])
      | none =>
          simp only [s3Step, hkey] at he ⊢
          by_cases heq : key = k
          · subst heq
            exact Or.inr (Or.inl ⟨data, by rw [he], KeyMap.get?_insert_self _ _ _⟩)
          · exact Or.inl (KeyMap.get?_insert_ne _ _ heq)
  | delete key =>
      simp only [s3Step]
      by_cases heq : key = k
      · subst heq
        exact Or.inr (Or.inr ⟨a, rfl, KeyMap.get?_erase_self _ _⟩)
      · exact Or.inl (KeyMap.get?_erase_ne _ heq)

/-- What is stored in the end was stored at first or put. -/
theorem put_of_answered {data : ByteArray}
    (h : Program.Answered (s3Step paging) objects history objects')
    (hk : objects'[k]? = some data) :
    objects[k]? = some data ∨ ∃ i, (i, ⟨.put k data, .ok ()⟩) ∈ history := by
  induction history generalizing objects with
  | nil =>
      obtain rfl := h
      exact Or.inl hk
  | cons turn history ih =>
      rcases ih h.2 with hnext | ⟨i, hi⟩
      · rcases get?_s3Step k h.1 with hsame | ⟨data', hput, hdata⟩ | ⟨answer, -, hgone⟩
        · exact Or.inl (hsame ▸ hnext)
        · rw [hnext] at hdata
          cases hdata
          exact Or.inr ⟨turn.1, by rw [← hput]; exact List.mem_cons_self⟩
        · rw [hnext] at hgone
          cases hgone
      · exact Or.inr ⟨i, List.mem_cons_of_mem turn hi⟩

/-- What is stored and gone in the end has been deleted. -/
theorem deleted_of_answered (h : Program.Answered (s3Step paging) objects history objects')
    (hk : objects[k]?.isSome = true) (hgone : objects'[k]? = none) :
    ∃ j answer, (j, ⟨.delete k, answer⟩) ∈ history := by
  induction history generalizing objects with
  | nil =>
      obtain rfl := h
      rw [hgone] at hk
      cases hk
  | cons turn history ih =>
      obtain ⟨i, e⟩ := turn
      rcases get?_s3Step k h.1 with hsame | ⟨data, -, hdata⟩ | ⟨answer, rfl, -⟩
      · obtain ⟨j, answer, hj⟩ := ih h.2 (hsame ▸ hk)
        exact ⟨j, answer, List.mem_cons_of_mem _ hj⟩
      · obtain ⟨j, answer, hj⟩ := ih h.2 (by rw [hdata]; rfl)
        exact ⟨j, answer, List.mem_cons_of_mem _ hj⟩
      · exact ⟨i, answer, List.mem_cons_self⟩

theorem isSome_put (k : String) (data : ByteArray) (objects : Objects) :
    (s3Step paging (.put k data) objects).2[k]?.isSome = true := by
  cases hk : objects[k]? with
  | some existing => simp only [s3Step, hk, Option.isSome_some]
  | none => simp only [s3Step, hk, KeyMap.get?_insert_self, Option.isSome_some]

/-- An object that is gone in the end was deleted after each of its creates. -/
theorem createsErased_of_absent (h : Program.Answered (s3Step paging) objects history objects')
    (hgone : objects'[k]? = none) : CreatesErased k history := by
  rintro before i data answer after rfl
  obtain ⟨m, -, -, hafter⟩ := Program.answered_append.mp h
  exact deleted_of_answered hafter (isSome_put k data m) hgone

/-- An object that was absent or is deleted is gone in the end when each of its creates is
followed by a deletion. -/
theorem absent_of_createsErased (h : Program.Answered (s3Step paging) objects history objects')
    (herased : CreatesErased k history)
    (hk : objects[k]? = none ∨ ∃ j answer, (j, ⟨.delete k, answer⟩) ∈ history) :
    objects'[k]? = none := by
  induction history generalizing objects with
  | nil =>
      obtain rfl := h
      rcases hk with hk | ⟨j, answer, hj⟩
      · exact hk
      · cases hj
  | cons turn history ih =>
      obtain ⟨i, e⟩ := turn
      have hrest : CreatesErased k history := by
        rintro before i' data answer after rfl
        exact herased ((i, e) :: before) i' data answer after rfl
      apply ih h.2 hrest
      rcases get?_s3Step k h.1 with hsame | ⟨data, rfl, -⟩ | ⟨answer, -, hgone⟩
      · rcases hk with hk | ⟨j, answer, hj⟩
        · exact Or.inl (hsame.trans hk)
        · rcases List.mem_cons.mp hj with heq | hj
          · cases heq
            exact Or.inl (KeyMap.get?_erase_self _ _)
          · exact Or.inr ⟨j, answer, hj⟩
      · exact Or.inr (herased [] i data (.ok ()) history rfl)
      · exact Or.inl hgone

/-- An object found by a request was there at first or has been created. -/
theorem found_of_answered {i : ι} {before after : List (ι × Program.Exchange S3Answer)}
    (h : Program.Answered (s3Step paging) objects
      (before ++ (i, ⟨.head k, .ok ()⟩) :: after) objects') :
    objects[k]?.isSome = true ∨ ∃ j data, (j, ⟨.put k data, .ok ()⟩) ∈ before := by
  obtain ⟨m, hbefore, hanswer, -⟩ := Program.answered_append.mp h
  cases hk : m[k]? with
  | none => simp [s3Step, hk] at hanswer
  | some data =>
      rcases put_of_answered hbefore hk with hobjects | ⟨j, hj⟩
      · exact Or.inl (by rw [hobjects]; rfl)
      · exact Or.inr ⟨j, data, hj⟩

end Histories

/-! ## The writes of a trace -/

/-- The requests of a trace that can change an object. -/
def writes (trace : List (Program.Exchange S3Answer)) : List (Program.Exchange S3Answer) :=
  trace.filter fun e => !e.1.readsOnly

theorem writes_append (xs ys : List (Program.Exchange S3Answer)) :
    writes (xs ++ ys) = writes xs ++ writes ys := List.filter_append ..

theorem mem_writes {e : Program.Exchange S3Answer} {trace : List (Program.Exchange S3Answer)} :
    e ∈ writes trace ↔ e ∈ trace ∧ e.1.readsOnly = false := by
  simp [writes]

theorem writes_of_quiet {α : Type} {p : S3 α} (hp : p.Quiet S3Request.readsOnly)
    {trace : List (Program.Exchange S3Answer)} {x : Except Error α} (h : p.Traced trace x) :
    writes trace = [] := by
  apply List.filter_eq_nil_iff.mpr
  intro e he
  simp [hp.traced h e he]

theorem traced_map {α β : Type} {p : S3 α} {f : α → β}
    {trace : List (Program.Exchange S3Answer)} {y : Except Error β}
    (h : (do return f (← p) : S3 β).Traced trace y) : ∃ x, p.Traced trace x ∧ y = x.map f := by
  rcases Program.traced_bind h with ⟨a, before, after, rfl, hp, hdone⟩ | ⟨e, rfl, hp⟩
  · obtain ⟨rfl, rfl⟩ := Program.traced_done.mp hdone
    rw [List.append_nil]
    exact ⟨.ok a, hp, rfl⟩
  · exact ⟨.error e, hp, rfl⟩

namespace S3Backend

variable {b : S3Backend} {relative : String} {data : ByteArray}
  {trace : List (Program.Exchange S3Answer)}

theorem writes_put_immutable {x : Except Error Bool}
    (h : (b.put_immutable relative data).Traced trace x) :
    ∃ answer, writes trace = [⟨.put (b.key relative) data, answer⟩] ∧
      (answer = .ok () → x = .ok true) := by
  obtain ⟨answer, rest, rfl, hrest⟩ := Program.traced_request.mp h
  refine ⟨answer, ?_⟩
  have hquiet : writes rest = [] ∧ (answer = .ok () → x = .ok true) := by
    cases answer with
    | ok _ =>
        obtain ⟨rfl, rfl⟩ := Program.traced_done.mp hrest
        exact ⟨rfl, fun _ => rfl⟩
    | error code =>
        refine ⟨?_, nofun⟩
        dsimp only at hrest
        split at hrest
        · refine writes_of_quiet (Program.Quiet.bind (quiet_read relative) ?_) hrest
          intro existing
          split <;> trivial
        · obtain ⟨rfl, -⟩ := Program.traced_done.mp hrest
          rfl
  refine ⟨?_, hquiet.2⟩
  show _ :: writes rest = _
  rw [hquiet.1]

/-- The same under a clause that raises another exception. -/
theorem writes_put_catching {clause : Error → S3 Bool} (hclause : ∀ e, ∃ e', clause e = .raise e')
    {x : Except Error Bool}
    (h : ((b.put_immutable relative data).catching clause).Traced trace x) :
    ∃ answer, writes trace = [⟨.put (b.key relative) data, answer⟩] ∧
      (answer = .ok () → x = .ok true) := by
  rcases Program.traced_catching h with ⟨a, rfl, hput⟩ | ⟨e, before, after, rfl, hput, hraise⟩
  · exact writes_put_immutable hput
  · obtain ⟨e', he'⟩ := hclause e
    rw [he'] at hraise
    obtain ⟨rfl, rfl⟩ := Program.traced_done.mp hraise
    obtain ⟨answer, hwrites, hok⟩ := writes_put_immutable hput
    rw [List.append_nil]
    refine ⟨answer, hwrites, ?_⟩
    intro hanswer
    cases hok hanswer

theorem writes_delete {x : Except Error Unit} (h : (b.delete relative).Traced trace x) :
    ∃ answer, writes trace = [⟨.delete (b.key relative), answer⟩] := by
  obtain ⟨answer, rest, rfl, hrest⟩ := Program.traced_request.mp h
  refine ⟨answer, ?_⟩
  have hnil : rest = [] := by
    cases answer with
    | ok _ => exact (Program.traced_done.mp hrest).1
    | error code => exact (Program.traced_done.mp hrest).1
  rw [hnil]
  rfl

theorem head_of_isPresent (h : (b.isPresent relative).Traced trace (.ok true)) :
    ⟨.head (b.key relative), .ok ()⟩ ∈ trace := by
  obtain ⟨answer, rest, rfl, hrest⟩ := Program.traced_request.mp h
  cases answer with
  | ok _ => exact List.mem_cons_self
  | error code =>
      dsimp only at hrest
      split at hrest
      · obtain ⟨-, hx⟩ := Program.traced_done.mp hrest
        cases hx
      · obtain ⟨-, hx⟩ := Program.traced_done.mp hrest
        cases hx

end S3Backend

/-! ## Events -/

/-- A tombstone made of a decoded event. -/
theorem Ledger.isTombstone_of_tombstoneFor {sha256 : Sha256} {id : EventId} {event tombstone : Json}
    {r : RedactionRequest} (hevent : event.WF)
    (h : tombstoneFor sha256 id.text event r = .ok tombstone) :
    Ledger.IsTombstone id tombstone := by
  unfold tombstoneFor at h
  obtain ⟨pack_id, hpack, h⟩ := bind_eq_ok.mp h
  obtain ⟨event_type, htype, h⟩ := bind_eq_ok.mp h
  obtain ⟨recorded_at, hrecorded, h⟩ := bind_eq_ok.mp h
  cases h
  have hwf : ∀ {key : String} {value : Json}, liftPy (event.getItem key) = .ok value → value.WF :=
    fun hget => hevent.of_get? (get?_of_getItem hget)
  refine ⟨?_, rfl, ?_, ?_⟩
  · apply Json.wf_ofMembers
    intro m hm
    simp only [List.mem_cons, List.not_mem_nil, or_false] at hm
    rcases hm with rfl | rfl | rfl | rfl | rfl | rfl | rfl | rfl | rfl
    case inr.inl => exact hwf hpack
    case inr.inr.inl => exact hwf htype
    case inr.inr.inr.inl => exact hwf hrecorded
    case inr.inr.inr.inr.inl =>
      apply Json.wf_ofMembers
      intro m hm
      simp only [List.mem_cons, List.not_mem_nil, or_false] at hm
      rcases hm with rfl | rfl <;> exact Json.wf_str _
    case inr.inr.inr.inr.inr.inr.inr.inr => exact r.wf_request_refJson
    all_goals exact Json.wf_str _
  · rw [Json.get?_ofMembers]
    simp [Json.lookup]
  · rw [Json.get?_ofMembers]
    simp [Json.lookup]

namespace S3DurableEventStore

variable {config : StoreConfig} {b : S3Backend} {trace : List (Program.Exchange S3Answer)}

theorem writes_commit {event : Document} {uuid : String} {x : Except Error Json}
    (h : (commit config b event.value uuid).Traced trace x) :
    writes trace = [] ∨ ∃ id candidate answer, StoredEvent config id candidate ∧
      writes trace = [⟨.put (b.key (event_key id.text)) candidate.canonical, answer⟩] := by
  rcases Ledger.validate_cases config event uuid with
    ⟨e, he⟩ | ⟨candidate, id, hvalidate, hstored, hid⟩
  · rw [commit, he] at h
    obtain ⟨rfl, -⟩ := Program.traced_done.mp h
    exact Or.inl rfl
  · rw [commit, hvalidate, Program.bind_done_ok, publish_candidate, hid,
      Program.bind_done_ok] at h
    rcases Program.traced_bind h with ⟨redacted, before, after, rfl, hhead, hrest⟩ | ⟨e, -, hhead⟩
    · rw [writes_append, writes_of_quiet (S3Backend.quiet_isPresent _) hhead, List.nil_append]
      split at hrest
      · obtain ⟨rfl, -⟩ := Program.traced_done.mp hrest
        exact Or.inl rfl
      · rcases Program.traced_catching hrest with ⟨a, -, hput⟩ | ⟨e, tr, tr', rfl, hput, hraise⟩
        · rcases Program.traced_bind hput with ⟨c, tr, tr', rfl, hcreate, hdone⟩ | ⟨e, he, -⟩
          · obtain ⟨rfl, -⟩ := Program.traced_done.mp hdone
            obtain ⟨answer, hwrites, -⟩ := S3Backend.writes_put_immutable hcreate
            rw [List.append_nil]
            exact Or.inr ⟨id, candidate, answer, hstored, hwrites⟩
          · cases he
        · have hnil : tr' = [] := by
            split at hraise <;> exact (Program.traced_done.mp hraise).1
          rw [hnil, List.append_nil]
          rcases Program.traced_bind hput with ⟨c, tr, tr', rfl, -, hdone⟩ | ⟨e, -, hcreate⟩
          · cases (Program.traced_done.mp hdone).2
          · obtain ⟨answer, hwrites, -⟩ := S3Backend.writes_put_immutable hcreate
            exact Or.inr ⟨id, candidate, answer, hstored, hwrites⟩
    · exact Or.inl (writes_of_quiet (S3Backend.quiet_isPresent _) hhead)

theorem wf_of_get {event_id : String} {event : Json}
    (h : (get b event_id).Traced trace (.ok event)) : event.WF := by
  rcases Program.traced_bind h with ⟨redacted, before, after, rfl, -, hrest⟩ | ⟨e, he, -⟩
  · split at hrest
    · cases (Program.traced_done.mp hrest).2
    · rcases Program.traced_bind hrest with ⟨data, tr, tr', -, -, hload⟩ | ⟨e, he, -⟩
      · have hok := (Program.traced_done.mp hload).2
        exact Json.wf_loadBytes (liftPy_eq_ok.mp hok.symm)
      · cases he
  · cases he

/-- A redaction that finds no tombstone publishes one, and then deletes the event unless the
publication was refused. -/
theorem writes_redact {id : EventId} {r : RedactionRequest} {x : Except Error Json}
    (h : (redact config b id.text r).Traced trace x) :
    (writes trace = [] ∧ ∀ t, x = .ok t → ⟨.head (b.key (redaction_key id.text)), .ok ()⟩ ∈ trace) ∨
      ∃ t answer rest, Ledger.IsTombstone id t ∧
        writes trace = ⟨.put (b.key (redaction_key id.text)) t.canonical, answer⟩ :: rest ∧
        ((rest = [] ∧ answer ≠ .ok () ∧ ∃ e, x = .error e) ∨
          ∃ answer', rest = [⟨.delete (b.key (event_key id.text)), answer'⟩]) := by
  unfold redact at h
  split at h
  · obtain ⟨rfl, rfl⟩ := Program.traced_done.mp h
    exact Or.inl ⟨rfl, nofun⟩
  have hquiet := quiet_get_redaction (b := b) id.text
  rcases Program.traced_bind h with ⟨existing, before, after, rfl, hfind, hrest⟩ | ⟨e, rfl, hfind⟩
  · cases existing with
    | some existing =>
        refine Or.inl ⟨?_, ?_⟩
        · rw [writes_append, writes_of_quiet hquiet hfind, List.nil_append]
          refine writes_of_quiet ?_ hrest
          refine Program.Quiet.bind
            (show Program.Quiet S3Request.readsOnly (.done (r.agrees existing)) from trivial) ?_
          intro agrees
          split <;> trivial
        · rintro t -
          apply List.mem_append_left
          rcases Program.traced_bind hfind with ⟨present, tr, tr', rfl, hhead, hread⟩ | ⟨e, he, -⟩
          · cases present with
            | true => exact List.mem_append_left _ (S3Backend.head_of_isPresent hhead)
            | false => cases (Program.traced_done.mp hread).2
          · cases he
    | none =>
        rw [writes_append, writes_of_quiet hquiet hfind, List.nil_append]
        dsimp only at hrest
        rcases Program.traced_bind hrest with ⟨event, tr, tr', rfl, hget, hpublish⟩ | ⟨e, rfl, hget⟩
        · rw [writes_append, writes_of_quiet (quiet_get id.text) hget, List.nil_append]
          rcases Program.traced_bind hpublish with ⟨t, u, u', rfl, hfor, hput⟩ | ⟨e, rfl, hfor⟩
          · obtain ⟨rfl, hok⟩ := Program.traced_done.mp hfor
            have htomb := Ledger.isTombstone_of_tombstoneFor (wf_of_get hget) hok.symm
            have hclause : ∀ e : Error, ∃ e', (if e.cls = .remoteObjectConflict then
                .raise (.unpublishedTombstone id.text) else .raise e : S3 Bool) = .raise e' := by
              intro e
              split
              · exact ⟨_, rfl⟩
              · exact ⟨e, rfl⟩
            rcases Program.traced_bind hput with
              ⟨c, v, v', rfl, hcreate, hdelete⟩ | ⟨e, rfl, hcreate⟩
            · obtain ⟨answer, hwrites, -⟩ := S3Backend.writes_put_catching hclause hcreate
              have hdeletes : ∃ answer',
                  writes v' = [⟨.delete (b.key (event_key id.text)), answer'⟩] := by
                rcases Program.traced_bind hdelete with ⟨_, w, w', rfl, hdel, hdone⟩ | ⟨e, -, hdel⟩
                · obtain ⟨rfl, -⟩ := Program.traced_done.mp hdone
                  rw [List.append_nil]
                  exact S3Backend.writes_delete hdel
                · exact S3Backend.writes_delete hdel
              obtain ⟨answer', hdel⟩ := hdeletes
              refine Or.inr ⟨t, answer, _, htomb, ?_, Or.inr ⟨answer', rfl⟩⟩
              rw [List.nil_append, writes_append, hwrites, hdel]
              rfl
            · obtain ⟨answer, hwrites, hok⟩ := S3Backend.writes_put_catching hclause hcreate
              refine Or.inr ⟨t, answer, [], htomb, hwrites, Or.inl ⟨rfl, ?_, e, rfl⟩⟩
              intro hanswer
              cases hok hanswer
          · obtain ⟨rfl, -⟩ := Program.traced_done.mp hfor
            exact Or.inl ⟨rfl, nofun⟩
        · exact Or.inl ⟨writes_of_quiet (quiet_get id.text) hget, nofun⟩
  · exact Or.inl ⟨writes_of_quiet hquiet hfind, nofun⟩

/-- What a call of the store writes: nothing, an event, or a tombstone and then the deletion. -/
theorem writes_program {call : EventCall} {x : Except Error Returned}
    (h : (program config b call).Traced trace x) :
    writes trace = [] ∨
      (∃ id candidate answer, StoredEvent config id candidate ∧
        writes trace = [⟨.put (b.key (event_key id.text)) candidate.canonical, answer⟩]) ∨
      ∃ id t answer rest, Ledger.IsTombstone id t ∧
        writes trace = ⟨.put (b.key (redaction_key id.text)) t.canonical, answer⟩ :: rest ∧
        ((rest = [] ∧ answer ≠ .ok ()) ∨
          ∃ answer', rest = [⟨.delete (b.key (event_key id.text)), answer'⟩]) := by
  cases call with
  | commit event uuid temp =>
      obtain ⟨y, hcommit, -⟩ := traced_map h
      rcases writes_commit hcommit with hnil | hput
      · exact Or.inl hnil
      · exact Or.inr (Or.inl hput)
  | get id =>
      obtain ⟨y, hget, -⟩ := traced_map h
      exact Or.inl (writes_of_quiet (quiet_get id.text) hget)
  | redact id r temp =>
      obtain ⟨y, hredact, -⟩ := traced_map h
      rcases writes_redact hredact with ⟨hnil, -⟩ | ⟨t, answer, rest, ht, hwrites, hrest⟩
      · exact Or.inl hnil
      · refine Or.inr (Or.inr ⟨id, t, answer, rest, ht, hwrites, ?_⟩)
        exact hrest.imp_left fun hcut => ⟨hcut.1, hcut.2.1⟩
  | get_redaction id =>
      obtain ⟨y, hget, -⟩ := traced_map h
      exact Or.inl (writes_of_quiet (quiet_get_redaction id.text) hget)
  | iter_events =>
      obtain ⟨y, hiter, -⟩ := traced_map h
      exact Or.inl (writes_of_quiet (quiet_readSorted _) hiter)
  | iter_redactions =>
      obtain ⟨y, hiter, -⟩ := traced_map h
      exact Or.inl (writes_of_quiet (quiet_readSorted _) hiter)

theorem placed_of_traced {call : EventCall} {x : Except Error Returned}
    (h : (program config b call).Traced trace x) {key : String} {data : ByteArray}
    {answer : S3Answer (.put key data)} (hput : ⟨.put key data, answer⟩ ∈ trace) :
    Placed config (layout b) spare key data := by
  have hmem := mem_writes.mpr ⟨hput, rfl⟩
  rcases writes_program h with hnil | ⟨id, e, answer', he, hwrites⟩ |
    ⟨id, t, answer', rest, ht, hwrites, hrest⟩
  · rw [hnil] at hmem
    cases hmem
  · rw [hwrites] at hmem
    have hrequest := congrArg Sigma.fst (List.mem_singleton.mp hmem)
    obtain ⟨hkey, hdata⟩ := S3Request.put.inj hrequest
    rw [hkey, hdata, ← layout_event]
    exact .event he
  · rw [hwrites] at hmem
    rcases List.mem_cons.mp hmem with heq | hmem
    · obtain ⟨hkey, hdata⟩ := S3Request.put.inj (congrArg Sigma.fst heq)
      rw [hkey, hdata, ← layout_tombstone]
      exact .tombstone ht
    · rcases hrest with ⟨rfl, -⟩ | ⟨answer'', rfl⟩
      · cases hmem
      · cases congrArg Sigma.fst (List.mem_singleton.mp hmem)

/-- The call that publishes a tombstone goes on to delete the event. -/
theorem deleted_of_traced {call : EventCall} {x : Except Error Returned}
    (h : (program config b call).Traced trace x) {id : EventId} {data : ByteArray}
    (hput : ⟨.put (b.key (redaction_key id.text)) data, .ok ()⟩ ∈ trace) :
    ∃ answer, ⟨.delete (b.key (event_key id.text)), answer⟩ ∈ trace := by
  have hmem := mem_writes.mpr ⟨hput, rfl⟩
  rcases writes_program h with hnil | ⟨id', e, answer', he, hwrites⟩ |
    ⟨id', t, answer', rest, ht, hwrites, hrest⟩
  · rw [hnil] at hmem
    cases hmem
  · rw [hwrites] at hmem
    have hkey := congrArg Sigma.fst (List.mem_singleton.mp hmem)
    have hslots : (layout b).key (.tombstone id) = (layout b).key (.event id') :=
      (S3Request.put.inj hkey).1
    cases (layout b).inj hslots
  · rcases hrest with ⟨rfl, hrefused⟩ | ⟨answer'', rfl⟩
    · rw [hwrites] at hmem
      have heq := List.mem_singleton.mp hmem
      have hkey := (S3Request.put.inj (congrArg Sigma.fst heq)).1
      have hslots : (layout b).key (.tombstone id) = (layout b).key (.tombstone id') := hkey
      cases (layout b).inj hslots
      obtain rfl := (S3Request.put.inj (congrArg Sigma.fst heq)).2
      exact (hrefused (eq_of_heq (Sigma.mk.inj heq).2).symm).elim
    · rw [hwrites] at hmem
      rcases List.mem_cons.mp hmem with heq | hmem
      · have hkey := congrArg Sigma.fst heq
        have hslots : (layout b).key (.tombstone id) = (layout b).key (.tombstone id') :=
          (S3Request.put.inj hkey).1
        cases (layout b).inj hslots
        refine ⟨answer'', (mem_writes.mp ?_).1⟩
        rw [hwrites]
        exact List.mem_cons_of_mem _ List.mem_cons_self
      · cases congrArg Sigma.fst (List.mem_singleton.mp hmem)

/-- A redaction that returns has deleted the event, or has found a tombstone. -/
theorem settled_of_traced {id : EventId} {r : RedactionRequest} {temp : String} {t : Returned}
    (h : (program config b (.redact id r temp)).Traced trace (.ok t)) :
    (∃ answer, ⟨.delete (b.key (event_key id.text)), answer⟩ ∈ trace) ∨
      ⟨.head (b.key (redaction_key id.text)), .ok ()⟩ ∈ trace := by
  obtain ⟨y, hredact, hy⟩ := traced_map h
  cases y with
  | error e => cases hy
  | ok t' =>
      rcases writes_redact hredact with ⟨-, hhead⟩ | ⟨t, answer, rest, -, hwrites, hrest⟩
      · exact Or.inr (hhead t' rfl)
      · rcases hrest with ⟨-, -, e, he⟩ | ⟨answer', rfl⟩
        · cases he
        · refine Or.inl ⟨answer', (mem_writes.mp ?_).1⟩
          rw [hwrites]
          exact List.mem_cons_of_mem _ List.mem_cons_self

variable {ι : Type} [DecidableEq ι]

/-- The calls of the clients of an empty store, interleaved by a schedule. -/
def concurrently (config : StoreConfig) (b : S3Backend) (paging : Paging) (calls : ι → EventCall)
    (schedule : List ι) : Program.Interleaving ι S3Answer Error Returned Objects :=
  Program.interleave (s3Step paging) schedule (fun i => program config b (calls i)) ∅

variable {paging : Paging} {calls : ι → EventCall} {schedule : List ι}

theorem placed_concurrently
    (hreturned : ∀ i, ∃ x, (concurrently config b paging calls schedule).pool i = .done x) :
    AllPlaced config (layout b) spare (concurrently config b paging calls schedule).state := by
  intro key data hk
  rcases put_of_answered (Program.answered_interleave ..) hk with hempty | ⟨i, hi⟩
  · rw [Std.ExtTreeMap.getElem?_empty] at hempty
    cases hempty
  · obtain ⟨trace, x, htrace, hmem, -⟩ := Program.exists_traced hreturned hi
    exact placed_of_traced htrace hmem

/-- When a redaction has returned, somebody has deleted the event. -/
theorem deleted_concurrently
    (hreturned : ∀ i, ∃ x, (concurrently config b paging calls schedule).pool i = .done x)
    {i : ι} {id : EventId} {r : RedactionRequest} {temp : String} {t : Returned}
    (hcall : calls i = .redact id r temp)
    (hresult : (concurrently config b paging calls schedule).pool i = .done (.ok t)) :
    ∃ j answer, (j, ⟨.delete (b.key (event_key id.text)), answer⟩) ∈
      (concurrently config b paging calls schedule).history := by
  have htrace := Program.traced_interleave hresult
  rw [hcall] at htrace
  rcases settled_of_traced htrace with ⟨answer, hdelete⟩ | hhead
  · exact ⟨i, answer, Program.mem_exchangesOf.mp hdelete⟩
  · have hturn : (i, ⟨.head (b.key (redaction_key id.text)), .ok ()⟩) ∈
        (concurrently config b paging calls schedule).history := Program.mem_exchangesOf.mp hhead
    obtain ⟨before, after, hsplit⟩ := List.append_of_mem hturn
    have hanswered : Program.Answered (s3Step paging) ∅
        (concurrently config b paging calls schedule).history
        (concurrently config b paging calls schedule).state := Program.answered_interleave ..
    rw [hsplit] at hanswered
    rcases found_of_answered hanswered with hempty | ⟨j, data, hput⟩
    · rw [Std.ExtTreeMap.getElem?_empty] at hempty
      cases hempty
    · have hturn : (j, ⟨.put (b.key (redaction_key id.text)) data, .ok ()⟩) ∈
          (concurrently config b paging calls schedule).history := by
        rw [hsplit]
        exact List.mem_append_left _ hput
      obtain ⟨trace, x, htrace, hmem, hall⟩ := Program.exists_traced hreturned hturn
      obtain ⟨answer, hdelete⟩ := deleted_of_traced htrace hmem
      exact ⟨j, answer, hall _ hdelete⟩

end S3DurableEventStore

/-! ## Artifacts -/

theorem digestText_artifactRecord {artifact_id digest : String} {manifest record : Json}
    {r : RedactionRequest} (h : artifactRecord artifact_id manifest r = .ok record)
    (hdigest : digestText manifest = .ok digest) : digestText record = .ok digest := by
  unfold artifactRecord at h
  obtain ⟨content_hash, hhash, h⟩ := bind_eq_ok.mp h
  obtain ⟨byte_size, -, h⟩ := bind_eq_ok.mp h
  obtain ⟨media_type, -, h⟩ := bind_eq_ok.mp h
  cases h
  rw [digestText, hhash] at hdigest
  rw [digestText, Json.getItem_of_get? (w := content_hash)]
  · exact hdigest
  · rw [Json.get?_ofMembers]
    simp [Json.lookup]

namespace S3ArtifactStore

variable {sha256 : Sha256} {b : S3Backend} {trace : List (Program.Exchange S3Answer)}

/-- A redaction that returns has deleted the blob its record names. -/
theorem deleted_of_traced {id : ArtifactId} {r : RedactionRequest} {temp digest : String}
    {record : Json}
    (h : (program sha256 b (.redact id r temp)).Traced trace (.ok (.document record)))
    (hdigest : digestText record = .ok digest) :
    ∃ answer, ⟨.delete (b.key (blob_key digest)), answer⟩ ∈ trace := by
  obtain ⟨y, hredact, hy⟩ := traced_map h
  cases y with
  | error e => cases hy
  | ok record' =>
      cases hy
      unfold redact at hredact
      split at hredact
      · cases (Program.traced_done.mp hredact).2
      rcases Program.traced_bind hredact with ⟨manifest, tr₀, tr₁, rfl, -, hrest⟩ | ⟨e, he, -⟩
      · rcases Program.traced_bind hrest with ⟨made, tr₂, tr₃, rfl, hmade, hrest⟩ | ⟨e, he, -⟩
        · rcases Program.traced_bind hrest with ⟨c, tr₄, tr₅, rfl, -, hrest⟩ | ⟨e, he, -⟩
          · rcases Program.traced_bind hrest with ⟨named, tr₆, tr₇, rfl, hnamed, hrest⟩ | ⟨e, he, -⟩
            · rcases Program.traced_bind hrest with ⟨c, tr₈, tr₉, rfl, hdelete, hdone⟩ | ⟨e, he, -⟩
              · cases (Program.traced_done.mp hdone).2
                have hok := (Program.traced_done.mp hnamed).2.symm
                have hrecord := (Program.traced_done.mp hmade).2.symm
                rw [digestText_artifactRecord hrecord hok] at hdigest
                cases hdigest
                obtain ⟨answer, hwrites⟩ := S3Backend.writes_delete hdelete
                have hmem := (mem_writes.mp (hwrites ▸ List.mem_singleton_self _)).1
                refine ⟨answer, ?_⟩
                simp only [List.mem_append]
                tauto
              · cases he
            · cases he
          · cases he
        · cases he
      · cases he

variable {ι : Type} [DecidableEq ι]

/-- The calls of the clients of an empty store, interleaved by a schedule. -/
def concurrently (sha256 : Sha256) (b : S3Backend) (paging : Paging) (calls : ι → ArtifactCall)
    (schedule : List ι) : Program.Interleaving ι S3Answer Error ArtifactReturned Objects :=
  Program.interleave (s3Step paging) schedule (fun i => program sha256 b (calls i)) ∅

end S3ArtifactStore

/-- The calls of two clients of which the second erases what the first stored. -/
def eventThenErasure : Bool → EventCall
  | false => .commit proposal "u1" "t1"
  | true => .redact proposalId erasure "t2"

def blobDigest : Digest := Sha256.digest .hashlib "blob".toUTF8

def blobThenErasure : Bool → ArtifactCall
  | false => .put_bytes "blob".toUTF8 "text/plain" "t1" "t2"
  | true => .redact blobDigest.artifactId erasure "t3"

/-- A stored blob can be redacted, and the record names its digest. -/
theorem ArtifactLedger.redact_after_put (sha256 : Sha256) (data : ByteArray) (media_type : String)
    {r : RedactionRequest} (hr : r.incomplete = false) (temp temp' temp'' : String) :
    ∃ record, ((empty.step sha256 (.put_bytes data media_type temp temp')).2.step sha256
        (.redact (sha256.digest data).artifactId r temp'')).1 = .ok (.document record) ∧
      digestText record = .ok (sha256.hexdigest data) := by
  have hid : (sha256.digest data).artifactId.text =
      artifact_id_for_digest (sha256.hexdigest data) := rfl
  obtain ⟨record, hrecord, -, -⟩ := artifactRecord_manifestFor (sha256.hexdigest data) data
    media_type (artifact_id_for_digest (sha256.hexdigest data)) r
  have hdigest := digestText_manifestFor (sha256.hexdigest data) data media_type
  refine ⟨record, ?_, digestText_artifactRecord hrecord hdigest⟩
  have hredaction : ((empty.step sha256 (.put_bytes data media_type temp temp')).2).redaction
      (artifact_id_for_digest (sha256.hexdigest data)) r =
        .ok (record, sha256.hexdigest data) := by
    simp [step, put_bytes, putManifest, empty, redaction, get_manifest, hrecord, hdigest, bind,
      Except.bind, pure, Except.pure]
  have hfree : ((empty.step sha256 (.put_bytes data media_type temp temp')).2).redactions[
      artifact_id_for_digest (sha256.hexdigest data)]? = none := by
    simp [step, put_bytes, putManifest, empty]
  simp only [step] at hredaction hfree ⊢
  simp only [redact, hid, hr, hredaction, hfree]
  rfl

/-- A commit of an event that is already stored, interrupted by the redaction of the event. -/
def racingCalls : Fin 3 → EventCall :=
  ![.commit proposal "u1" "t1", .commit proposal "u1" "t1", .redact proposalId erasure "t2"]

namespace S3DurableEventStore

theorem step_eq (config : StoreConfig) (b : S3Backend) (paging : Paging) (objects : Objects)
    (call : EventCall) :
    step config b paging objects call = (program config b call).run (s3Step paging) objects := rfl

/-- A commit looks for a tombstone; when it found none, it creates the event whatever has been
published since. -/
theorem commit_parts (config : StoreConfig) (b : S3Backend) (paging : Paging) {event : Document}
    {uuid : String} (temp : String) {candidate : Json} {id : String}
    (hvalidate : config.validate event.value uuid = .ok candidate)
    (hid : eventIdText candidate = .ok id) :
    ∃ k, program config b (.commit event uuid temp) = (is_redacted b id).follow k ∧
      ∀ objects : Objects, objects[b.key (event_key id)]? = none →
        (k (.ok false)).run (s3Step paging) objects =
          (.ok (.event candidate), objects.insert (b.key (event_key id)) candidate.canonical) := by
  have hprogram : program config b (.commit event uuid temp) =
      (publish_candidate b candidate).bind fun e => pure (.event e) := by
    rw [program, commit, hvalidate]
    rfl
  rw [hprogram, publish_candidate, hid, Program.bind_done_ok]
  refine ⟨_, Program.follow_follow _ _ _, ?_⟩
  intro objects habsent
  have hput : (do
        let _ ← b.put_immutable (event_key id) candidate.canonical
        return candidate : S3 Json).run (s3Step paging) objects =
      (.ok candidate, objects.insert (b.key (event_key id)) candidate.canonical) :=
    Program.run_bind_ok _ (S3Backend.run_put_none habsent)
  exact Program.run_bind_ok _ (Program.run_catching_ok _ hput)

end S3DurableEventStore

end FossilCore
