import FossilCore.Adapters.EventStore
import FossilCore.Store.Erasure

/-!
# The file system event store under crashes

A run is made of attempts: calls in which the process may stop before any file request, or have
a deletion refused.  The files stay sound, and so no redacted event is listed, as long as no
redaction is cut at its deletions.
-/

namespace FossilCore

open Base

/-- Requests that leave every file as it was. -/
def FsRequest.readsOnly : FsRequest → Bool
  | .isPresent _ | .read _ | .glob _ => true
  | _ => false

theorem fsStep_of_readsOnly (r : FsRequest) (files : Files) (h : r.readsOnly = true) :
    (fsStep r files).2 = files := by
  cases r with
  | isPresent path => rfl
  | read path =>
      simp only [fsStep]
      cases files[path]? <;> rfl
  | glob dir => rfl
  | _ => cases h

theorem quiet_isPresent (path : Path) : (Fs.isPresent path).Quiet FsRequest.readsOnly :=
  ⟨rfl, fun _ => trivial⟩

theorem quiet_readJson (path : Path) : (Fs.readJson path).Quiet FsRequest.readsOnly := by
  apply Program.Quiet.bind
  · exact ⟨rfl, fun _ => trivial⟩
  · intro data
    trivial

section Publication

variable {kind : FsRequest → Bool} {files : Files} {temp path : Path} {data : ByteArray}

theorem always_quiet {α : Type} {p : Fs α} (h : p.Quiet FsRequest.readsOnly)
    {post : Option (Except Error α) → Files → Prop} (hpost : ∀ o, post o files) :
    p.Always fsStep fsRefused kind post files :=
  h.always fsStep_of_readsOnly hpost

theorem always_create {post : Option (Except Error Unit) → Files → Prop} (hstop : post none files)
    (hfree : files[path]? = none → post (some (.ok ())) (files.insert path ByteArray.empty))
    (htaken : files[path]?.isSome → post (some (.error (.ofPython .fileExistsError))) files) :
    (Fs.create path).Always fsStep fsRefused kind post files := by
  refine ⟨?_, fun _ => ⟨hstop, fun a ha => by cases ha⟩⟩
  cases h : files[path]? with
  | none =>
      simp only [fsStep, h]
      exact hfree h
  | some existing =>
      simp only [fsStep, h]
      exact htaken (by rw [h]; rfl)

theorem always_write {post : Option (Except Error Unit) → Files → Prop} (hstop : post none files)
    (h : post (some (.ok ())) (files.insert path data)) :
    (Fs.write path data).Always fsStep fsRefused kind post files :=
  ⟨h, fun _ => ⟨hstop, fun a ha => by cases ha⟩⟩

theorem always_link {post : Option (Except Error Unit) → Files → Prop}
    (hsource : files[temp]? = some data)
    (hstop : kind (.link temp path) = false → post none files)
    (hfree : files[path]? = none → post (some (.ok ())) (files.insert path data))
    (htaken : files[path]?.isSome → post (some (.error (.ofPython .fileExistsError))) files) :
    (Fs.link temp path).Always fsStep fsRefused kind post files := by
  refine ⟨?_, fun hkind => ⟨hstop hkind, fun a ha => by cases ha⟩⟩
  cases h : files[path]? with
  | none =>
      simp only [fsStep, hsource, h]
      exact hfree h
  | some existing =>
      simp only [fsStep, hsource, h]
      exact htaken (by rw [h]; rfl)

theorem always_unlinkMissingOk {post : Option (Except Error Unit) → Files → Prop}
    (hgo : post (some (.ok ())) (files.erase path))
    (hcut : kind (.unlink path) = false →
      post none files ∧ post (some (.error (.ofPython .osError))) files) :
    (Fs.unlinkMissingOk path).Always fsStep fsRefused kind post files := by
  refine ⟨?_, fun hkind => ⟨(hcut hkind).1, ?_⟩⟩
  · cases h : files[path]? with
    | some data =>
        simp only [fsStep, h]
        exact hgo
    | none =>
        rw [KeyMap.erase_of_get? h] at hgo
        simp only [fsStep, h]
        exact hgo
  · rintro a ⟨⟩
    exact (hcut hkind).2

/-- Everything a publication can leave behind. -/
theorem always_publishVia {post : Option (Except Error Bool) → Files → Prop}
    (hne : temp ≠ path) (hstop : post none files)
    (htaken : ∀ exc, post (some (.error (.ofPython exc))) files ∧
      post (some (.error (.ofPython exc))) (files.erase temp))
    (hcreated : files[temp]? = none → post none (files.insert temp ByteArray.empty))
    (hwritten : files[temp]? = none → kind (.link temp path) = false →
      post none (files.insert temp data))
    (hlost : files[temp]? = none → files[path]?.isSome → post (some (.ok false)) files)
    (hlostCut : files[temp]? = none → kind (.unlink temp) = false →
      post none (files.insert temp data) ∧
        ∀ exc, post (some (.error (.ofPython exc))) (files.insert temp data))
    (hwon : files[temp]? = none → files[path]? = none →
      post (some (.ok true)) (files.insert path data))
    (hwonCut : files[temp]? = none → files[path]? = none → kind (.unlink temp) = false →
      post none ((files.insert temp data).insert path data) ∧
        ∀ exc, post (some (.error (.ofPython exc))) ((files.insert temp data).insert path data)) :
    (publishVia temp path data).Always fsStep fsRefused kind post files := by
  have htarget : (files.insert temp data)[path]? = files[path]? := KeyMap.get?_insert_ne _ _ hne
  apply Program.Always.ensuring
  apply Program.Always.bind
  refine always_create hstop ?_ ?_
  · intro htemp
    have herase : (files.insert temp data).erase temp = files := KeyMap.erase_insert _ htemp
    apply Program.Always.bind
    apply Program.Always.catching
    apply always_write (hcreated htemp)
    rw [KeyMap.insert_insert]
    apply Program.Always.catching
    apply Program.Always.bind
    refine always_link (KeyMap.get?_insert_self _ _ _) (hwritten htemp) ?_ ?_
    · intro hpath
      rw [htarget] at hpath
      apply always_unlinkMissingOk
      · rw [KeyMap.erase_insert_comm _ _ hne.symm, herase]
        exact hwon htemp hpath
      · intro hkind
        exact ⟨(hwonCut htemp hpath hkind).1, (hwonCut htemp hpath hkind).2 _⟩
    · intro hpath
      rw [htarget] at hpath
      apply always_unlinkMissingOk
      · rw [herase]
        exact hlost htemp hpath
      · intro hkind
        exact ⟨(hlostCut htemp hkind).1, (hlostCut htemp hkind).2 _⟩
  · intro _
    apply always_unlinkMissingOk (htaken _).2
    intro _
    exact ⟨hstop, (htaken _).1⟩

theorem always_isPresent {α : Type} {f : Bool → Fs α} {post : Option (Except Error α) → Files → Prop}
    (hstop : post none files)
    (h : (f files[path]?.isSome).Always fsStep fsRefused kind post files) :
    (Fs.isPresent path >>= f).Always fsStep fsRefused kind post files :=
  ⟨h, fun _ => ⟨hstop, fun a ha => by cases ha⟩⟩

theorem always_readJson_some {post : Option (Except Error Json) → Files → Prop} {value : Json}
    (h : files[path]? = some data) (hvalue : Json.loadText data = .ok value)
    (hstop : post none files) (hok : post (some (.ok value)) files) :
    (Fs.readJson path).Always fsStep fsRefused kind post files := by
  refine ⟨?_, fun _ => ⟨hstop, fun a ha => by cases ha⟩⟩
  simp only [fsStep, h]
  show post (some (liftPy (Json.loadText data))) files
  rw [hvalue]
  exact hok

theorem always_readJson_none {post : Option (Except Error Json) → Files → Prop}
    (h : files[path]? = none) (hstop : post none files)
    (hfail : ∀ e, post (some (.error e)) files) :
    (Fs.readJson path).Always fsStep fsRefused kind post files := by
  refine ⟨?_, fun _ => ⟨hstop, fun a ha => by cases ha⟩⟩
  simp only [fsStep, h]
  exact hfail _

end Publication

namespace DurableEventStore

/-- The temporary files of the store, with contents as `P` says. -/
def spare (P : ByteArray → Prop) (path : Path) (data : ByteArray) : Prop :=
  (∃ slot uuid, path = tempPath (slotPath slot) uuid) ∧ P data

variable {config : StoreConfig} {P : ByteArray → Prop} {kind : FsRequest → Bool} {files : Files}
  {data : ByteArray}

theorem not_spare_slot (slot : EventSlot) (data : ByteArray) :
    ¬ spare P (layout.key slot) data := by
  rintro ⟨⟨slot', uuid, h⟩, -⟩
  exact slotPath_ne_tempPath slot' slot uuid h

theorem always_publish_slot (slot : EventSlot) {uuid : String}
    {post : Option (Except Error Bool) → Files → Prop}
    (h : Sound config layout (spare P) files) (hempty : P ByteArray.empty)
    (hdata : kind (.link (tempPath (slotPath slot) uuid) (slotPath slot)) = false ∨
      kind (.unlink (tempPath (slotPath slot) uuid)) = false → P data)
    (hcut : kind (.unlink (tempPath (slotPath slot) uuid)) = false → files[slotPath slot]? = none →
      Sound config layout (spare P) (files.insert (slotPath slot) data))
    (hpost : ∀ o files', (∀ b, o ≠ some (.ok b)) → Sound config layout (spare P) files' →
      KeepsTombstones layout files files' → post o files')
    (hlost : files[slotPath slot]?.isSome → post (some (.ok false)) files)
    (hwon : files[slotPath slot]? = none →
      post (some (.ok true)) (files.insert (slotPath slot) data)) :
    (publish_immutable (slotPath slot) data uuid).Always fsStep fsRefused kind post files := by
  have htemp : ∀ slot', slotPath slot' ≠ tempPath (slotPath slot) uuid :=
    fun slot' => slotPath_ne_tempPath slot slot' uuid
  have hwritten : P data → Sound config layout (spare P)
      (files.insert (tempPath (slotPath slot) uuid) data) :=
    fun hP => h.insert_spare ⟨⟨slot, uuid, rfl⟩, hP⟩ htemp
  have hkeeps : KeepsTombstones layout files
      (files.insert (tempPath (slotPath slot) uuid) data) := .insert _ _ _
  refine always_publishVia (htemp slot).symm ?_ ?_ ?_ ?_ ?_ ?_ ?_ ?_
  · exact hpost _ _ (by simp) h (.refl _)
  · intro e
    refine ⟨hpost _ _ (by simp) h (.refl _), hpost _ _ (by simp) (h.erase_spare htemp) ?_⟩
    exact .erase _ fun id => htemp (.tombstone id)
  · intro _
    exact hpost _ _ (by simp) (h.insert_spare ⟨⟨slot, uuid, rfl⟩, hempty⟩ htemp) (.insert _ _ _)
  · intro _ hkind
    exact hpost _ _ (by simp) (hwritten (hdata (Or.inl hkind))) hkeeps
  · exact fun _ => hlost
  · intro _ hkind
    have hsound := hwritten (hdata (Or.inr hkind))
    exact ⟨hpost _ _ (by simp) hsound hkeeps, fun e => hpost _ _ (by simp) hsound hkeeps⟩
  · exact fun _ => hwon
  · intro _ hpath hkind
    have hsound : Sound config layout (spare P)
        ((files.insert (tempPath (slotPath slot) uuid) data).insert (slotPath slot) data) := by
      rw [KeyMap.insert_comm _ _ _ (htemp slot).symm]
      exact (hcut hkind hpath).insert_spare ⟨⟨slot, uuid, rfl⟩, hdata (Or.inr hkind)⟩ htemp
    have hboth := hkeeps.trans (.insert _ (slotPath slot) data)
    exact ⟨hpost _ _ (by simp) hsound hboth, fun e => hpost _ _ (by simp) hsound hboth⟩

theorem exists_event (h : AllPlaced config layout (spare P) files) {id : EventId}
    (he : files[event_path id.text]? = some data) :
    ∃ e, StoredEvent config id e ∧ data = e.canonical :=
  h.exists_event not_spare_slot he

/-! ## What each call preserves -/

/-- What every call leaves behind, under a script that does not cut it. -/
def Leaves (config : StoreConfig) (P : ByteArray → Prop) (files files' : Files) : Prop :=
  Sound config layout (spare P) files' ∧ KeepsTombstones layout files files'

theorem Leaves.refl (h : Sound config layout (spare P) files) : Leaves config P files files :=
  ⟨h, .refl _⟩

theorem always_commit (h : Sound config layout (spare P) files) (hempty : P ByteArray.empty)
    (hdata : ∀ path path', kind (.link path path') = false ∨ kind (.unlink path) = false →
      ∀ data, P data)
    (event : Document) (uuid temp : String) :
    (commit config event.value uuid temp).Always fsStep fsRefused kind
      (fun _ files' => Leaves config P files files') files := by
  rcases Ledger.validate_cases config event uuid with
    ⟨err, herr⟩ | ⟨candidate, id, hvalidate, hstored, hid⟩
  · rw [commit, herr]
    exact .refl h
  · rw [commit, hvalidate, Program.bind_done_ok, publish_candidate, hid, Program.bind_done_ok]
    apply always_isPresent (.refl h)
    cases ht : files[redaction_path id.text]? with
    | some t => exact .refl h
    | none =>
        apply Program.Always.bind
        refine always_publish_slot (.event id) h hempty
          (fun hkind => hdata _ _ hkind _) ?_ ?_ ?_ ?_
        · exact fun _ _ => h.insert_event hstored ht
        · rintro (_ | e | b) files' ho hsound hkeeps
          · exact ⟨hsound, hkeeps⟩
          · exact ⟨hsound, hkeeps⟩
          · exact (ho b rfl).elim
        · intro _
          refine always_quiet ?_ fun _ => .refl h
          apply Program.Quiet.bind (quiet_readJson _)
          intro existing
          split <;> trivial
        · intro _
          exact ⟨h.insert_event hstored ht, .insert _ _ _⟩

theorem always_redact (h : Sound config layout (spare P) files) (hempty : P ByteArray.empty)
    (htomb : ∀ id t, Ledger.IsTombstone id t → P t.canonical)
    (hkind : ∀ path, kind (.unlink path) = true) (id : EventId) (r : RedactionRequest)
    (temp : String) :
    (redact config id.text r temp).Always fsStep fsRefused kind
      (fun o files' => Leaves config P files files' ∧
        ∀ t, o = some (.ok t) → files'[redaction_path id.text]?.isSome) files := by
  rw [redact]
  by_cases hr : r.incomplete = true
  · rw [if_pos hr]
    exact ⟨.refl h, by simp⟩
  · rw [if_neg hr]
    apply always_isPresent ⟨.refl h, by simp⟩
    cases ht : files[redaction_path id.text]? with
    | some t =>
        refine always_quiet ?_ fun _ => ⟨.refl h, fun _ _ => by rw [ht]; rfl⟩
        apply Program.Quiet.bind (quiet_readJson _)
        intro existing
        refine Program.Quiet.bind (p := .done _) trivial ?_
        intro agrees
        split <;> trivial
    | none =>
        apply Program.Always.bind
        cases he : files[event_path id.text]? with
        | none => exact always_readJson_none he ⟨.refl h, by simp⟩ fun e => ⟨.refl h, by simp⟩
        | some data =>
            obtain ⟨event, hstored, rfl⟩ := exists_event h.placed he
            refine always_readJson_some he (Json.loadText_canonical hstored.wf)
              ⟨.refl h, by simp⟩ ?_
            obtain ⟨tombstone, hfor, hburied⟩ := Ledger.tombstoneFor_ok (r := r) hstored
            simp only [hfor, Program.bind_done_ok]
            apply Program.Always.bind
            refine always_publish_slot (.tombstone id) h hempty
              (fun _ => htomb id _ hburied) ?_ ?_ ?_ ?_
            · intro hcut
              rw [hkind] at hcut
              cases hcut
            · rintro (_ | e | b) files' ho hsound hkeeps
              · exact ⟨⟨hsound, hkeeps⟩, by simp⟩
              · exact ⟨⟨hsound, hkeeps⟩, by simp⟩
              · exact (ho b rfl).elim
            · intro hpresent
              exact ⟨.refl h, by simp⟩
            · intro _
              apply Program.Always.bind
              apply always_unlinkMissingOk
              · have hkeeps : KeepsTombstones layout files
                    ((files.insert (redaction_path id.text) tombstone.canonical).erase
                      (event_path id.text)) :=
                  (KeepsTombstones.insert _ _ _).trans
                    (.erase _ fun id' => (event_key_ne_tombstone_key id id').symm)
                refine ⟨⟨h.redact hburied, hkeeps⟩, fun t _ => ?_⟩
                have hne : event_path id.text ≠ redaction_path id.text :=
                  event_key_ne_tombstone_key (L := layout) id id
                rw [KeyMap.get?_erase_ne _ hne]
                exact congrArg Option.isSome
                  (KeyMap.get?_insert_self files (redaction_path id.text) tombstone.canonical)
              · intro hcut
                rw [hkind] at hcut
                cases hcut

/-! ## Runs of attempts -/

def attempt (config : StoreConfig) :
    Files → Program.Attempt EventCall → Option (Except Error Returned) × Files :=
  Program.attempt fsStep fsRefused (program config)

theorem attempt_nil (files : Files) (call : EventCall) :
    attempt config files ⟨call, []⟩ =
      (some (step config files call).1, (step config files call).2) := by
  simp only [attempt, Program.attempt, Program.exec_nil, step]

/-- The requests at which a call must not be cut: the deletions of a redaction and, where
`commits` asks for it, what a commit does after it has written its temporary file. -/
def delicate (commits : Bool) : EventCall → FsRequest → Bool
  | .redact .., .unlink _ => true
  | .commit .., .link _ _ => commits
  | .commit .., .unlink _ => commits
  | _, _ => false

/-- The script neither stops the attempt at a delicate request nor has one refused. -/
def Uncut (config : StoreConfig) (commits : Bool) (files : Files)
    (a : Program.Attempt EventCall) : Prop :=
  (program config a.call).cutAt fsStep fsRefused (delicate commits a.call) a.script files = false

/-- What a temporary file may hold. -/
def Leftover (config : StoreConfig) (commits : Bool) (data : ByteArray) : Prop :=
  commits = true → ∀ id e, StoredEvent config id e → data ≠ e.canonical

theorem uncut_nil (commits : Bool) (files : Files) (call : EventCall) :
    Uncut config commits files ⟨call, []⟩ :=
  Program.cutAt_nil _ _ _ _ _

theorem always_program (commits : Bool)
    (h : Sound config layout (spare (Leftover config commits)) files) (call : EventCall) :
    (program config call).Always fsStep fsRefused (delicate commits call)
      (fun o files' => Leaves config (Leftover config commits) files files' ∧
        ∀ id r temp t, call = .redact id r temp → o = some (.ok t) →
          files'[redaction_path id.text]?.isSome) files := by
  have hempty : Leftover config commits ByteArray.empty :=
    fun _ id e _ hnil => Json.canonical_ne_empty e hnil.symm
  have hquiet : ∀ {α : Type} {p : Fs α} {f : α → Returned}, p.Quiet FsRequest.readsOnly →
      (∀ id r temp, call ≠ .redact id r temp) →
      (p >>= fun a => pure (f a)).Always fsStep fsRefused (delicate commits call)
        (fun o files' => Leaves config (Leftover config commits) files files' ∧
          ∀ id r temp t, call = .redact id r temp → o = some (.ok t) →
            files'[redaction_path id.text]?.isSome) files := by
    intro α p f hp hcall
    refine always_quiet (hp.bind (f := fun a => pure (f a)) fun _ => trivial)
      fun _ => ⟨.refl h, ?_⟩
    intro id r temp t hredact
    exact (hcall id r temp hredact).elim
  cases call with
  | commit event uuid temp =>
      apply Program.Always.bind
      refine (always_commit h hempty ?_ event uuid temp).mono ?_
      · intro path path' hkind data hcommits
        simp only [delicate, or_self] at hkind
        rw [hcommits] at hkind
        cases hkind
      · intro o files' hleaves
        match o with
        | none => exact ⟨hleaves, by simp⟩
        | some (.ok e) => exact ⟨hleaves, by simp⟩
        | some (.error e) => exact ⟨hleaves, by simp⟩
  | redact id r temp =>
      apply Program.Always.bind
      refine (always_redact h hempty (fun id t ht _ id' e he => ht.canonical_ne he)
        (fun path => rfl) id r temp).mono ?_
      rintro o files' ⟨hleaves, hdone⟩
      match o with
      | none => exact ⟨hleaves, by simp⟩
      | some (.error e) => exact ⟨hleaves, by simp⟩
      | some (.ok t) =>
          refine ⟨hleaves, ?_⟩
          rintro _ _ _ _ ⟨⟩ -
          exact hdone t rfl
  | get id =>
      refine hquiet ?_ (by simp)
      refine ⟨rfl, fun redacted => ?_⟩
      cases redacted
      · exact quiet_readJson _
      · trivial
  | get_redaction id =>
      refine hquiet ?_ (by simp)
      refine ⟨rfl, fun present => ?_⟩
      cases present
      · trivial
      · exact (quiet_readJson _).bind fun _ => trivial
  | iter_events =>
      refine hquiet ?_ (by simp)
      exact ⟨rfl, fun paths => Program.Quiet.forEach quiet_readJson _⟩
  | iter_redactions =>
      refine hquiet ?_ (by simp)
      exact ⟨rfl, fun paths => Program.Quiet.forEach quiet_readJson _⟩

theorem leaves_attempt {commits : Bool} {a : Program.Attempt EventCall}
    (h : Sound config layout (spare (Leftover config commits)) files)
    (hcut : Uncut config commits files a) :
    Leaves config (Leftover config commits) files (attempt config files a).2 ∧
      ∀ id r temp t, a.call = .redact id r temp → (attempt config files a).1 = some (.ok t) →
        (attempt config files a).2[redaction_path id.text]?.isSome :=
  (always_program commits h a.call).exec hcut

theorem sound_after {commits : Bool} {attempts : List (Program.Attempt EventCall)}
    (h : Runs.Meets (attempt config) (Uncut config commits) ∅ attempts) :
    Sound config layout (spare (Leftover config commits))
      (Runs.after (attempt config) ∅ attempts) :=
  Runs.invariant_of_meets sound_empty h fun _ _ hs ha => (leaves_attempt hs ha).1.1

/-- An acknowledged redaction leaves a tombstone for good. -/
theorem tombstone_after {commits : Bool} {attempts : List (Program.Attempt EventCall)}
    (h : Runs.Meets (attempt config) (Uncut config commits) ∅ attempts) {id : EventId}
    {r : RedactionRequest} {temp : String} {script : List Program.Decision} {t : Returned}
    (hanswered : Runs.Answered (attempt config) ∅ attempts ⟨.redact id r temp, script⟩
      (some (.ok t))) :
    (Runs.after (attempt config) ∅ attempts)[redaction_path id.text]?.isSome := by
  refine Runs.answered_of_meets (P := Sound config layout (spare (Leftover config commits)))
    (Q := fun files => files[redaction_path id.text]?.isSome) sound_empty h hanswered ?_ ?_ ?_
  · exact fun _ _ hs ha => (leaves_attempt hs ha).1.1
  · exact fun _ hs ha ho => (leaves_attempt hs ha).2 id r temp t rfl ho
  · exact fun _ _ hs ha hq => (leaves_attempt hs ha).1.2 id hq

/-! ## The listing of sound files -/

theorem isGlobbed_tempPath (slot : EventSlot) (uuid : String) :
    isGlobbed [] (tempPath (slotPath slot) uuid) = false := by
  obtain ⟨dir, id, hslot⟩ := slotPath_eq slot
  rw [hslot, tempPath_concat]
  have hend : Text.endsWith ("." ++ fileName id.text ++ "." ++ uuid ++ ".tmp") ".json" = false :=
    Text.endsWith_append_eq_false _ (by decide) (by decide)
  match dir with
  | [] => rfl
  | [d] => simpa [isGlobbed] using hend
  | d :: d' :: rest =>
      cases rest <;> simp [isGlobbed]

/-- The listing has exactly the stored events. -/
theorem listing_of_placed (h : AllPlaced config layout (spare P) files) :
    ∃ es, (step config files .iter_events).1 = .ok (.listing es) ∧
      ∀ e, e ∈ es ↔ ∃ id, StoredEvent config id e ∧
        files[event_path id.text]? = some e.canonical := by
  let paths := sorted (files.keys.filter (isGlobbed []))
  have hevent : ∀ path ∈ paths, ∃ id e, path = event_path id.text ∧
      files[path]? = some e.canonical ∧ StoredEvent config id e := by
    intro path hpath
    simp only [paths, sorted, List.mem_mergeSort, List.mem_filter, KeyMap.mem_keys_iff] at hpath
    obtain ⟨⟨data, hdata⟩, hglob⟩ := hpath
    cases h path data hdata with
    | event he => exact ⟨_, _, rfl, hdata, he⟩
    | tombstone ht =>
        rw [show layout.key _ = redaction_path _ from rfl, isGlobbed_root_redaction_path] at hglob
        cases hglob
    | spare hspare =>
        obtain ⟨⟨slot, uuid, rfl⟩, -⟩ := hspare
        rw [isGlobbed_tempPath] at hglob
        cases hglob
  let value := fun path : Path => files[path]?.bind fun data => (Json.loadText data).toOption
  have hload : ∀ {path : Path} {e : Json} {id : EventId}, files[path]? = some e.canonical →
      StoredEvent config id e → value path = some e := by
    intro path e id hdata he
    simp only [value, hdata, Option.bind_some, Json.loadText_canonical he.wf]
    rfl
  have hvalue : ∀ path ∈ paths, ∃ e,
      value path = some e ∧ (Fs.readJson path).run fsStep files = (.ok e, files) := by
    intro path hpath
    obtain ⟨id, e, -, hdata, he⟩ := hevent path hpath
    exact ⟨e, hload hdata he, run_readJson_some hdata (Json.loadText_canonical he.wf)⟩
  refine ⟨paths.filterMap value, ?_, ?_⟩
  · have hrun : (Program.forEach Fs.readJson (paths.map fun path => path)).run fsStep files =
        (.ok (paths.filterMap value), files) := Program.run_forEach _ hvalue
    rw [List.map_id'] at hrun
    rw [step, program, Program.run_bind_pure]
    have hiter : iter_events.run fsStep files = (.ok (paths.filterMap value), files) := hrun
    rw [hiter]
    rfl
  · intro e
    rw [List.mem_filterMap]
    constructor
    · rintro ⟨path, hpath, hsome⟩
      obtain ⟨id, e', rfl, hdata, he⟩ := hevent path hpath
      rw [hload hdata he] at hsome
      cases hsome
      exact ⟨id, he, hdata⟩
    · rintro ⟨id, he, hdata⟩
      refine ⟨event_path id.text, ?_, hload hdata he⟩
      simp only [paths, sorted, List.mem_mergeSort, List.mem_filter, KeyMap.mem_keys_iff]
      exact ⟨⟨_, hdata⟩, isGlobbed_event_path _⟩

/-- In sound files no event with a tombstone is listed. -/
theorem listed_of_sound (h : Sound config layout (spare P) files) :
    ∃ es, (step config files .iter_events).1 = .ok (.listing es) ∧
      ∀ e ∈ es, ∀ id : EventId, e.get? "event_id" = some (.str id.text) →
        files[redaction_path id.text]? = none := by
  obtain ⟨es, hlisting, hmem⟩ := listing_of_placed h.placed
  refine ⟨es, hlisting, ?_⟩
  intro e he id hid
  obtain ⟨id', hstored, hdata⟩ := (hmem e).mp he
  obtain rfl : id = id' := hstored.id_of_get? hid
  exact h.tombstone_absent hdata

/-! ## A redaction that is cut -/

theorem exec_publishVia {temp path : Path} {script : List Program.Decision} (hne : temp ≠ path)
    (htemp : files[temp]? = none) (hpath : files[path]? = none) :
    (publishVia temp path data).exec fsStep fsRefused (.go :: .go :: .go :: .go :: script) files =
      (some (.ok true), script, files.insert path data) := by
  have htarget : (files.insert temp data)[path]? = none := by
    rw [KeyMap.get?_insert_ne _ _ hne, hpath]
  simp only [publishVia, Program.ensuring, Program.catching, Fs.create, Fs.write, Fs.link,
    Fs.unlinkMissingOk, Fs.unlink]
  simp [Program.exec, fsStep, htemp, Fs.ofAnswer, liftPy, KeyMap.insert_insert, htarget]
  rw [KeyMap.erase_insert_comm _ _ hne.symm, KeyMap.erase_insert _ htemp]

theorem exec_readJson {path : Path} {value : Json} {script : List Program.Decision}
    (h : files[path]? = some value.canonical) (hvalue : value.WF) :
    (Fs.readJson path).exec fsStep fsRefused (.go :: script) files =
      (some (.ok value), script, files) := by
  simp [Fs.readJson, Fs.read, Program.exec, fsStep, h, Fs.ofAnswer, liftPy,
    Json.loadText_canonical hvalue]

/-- Stopped before its last request, a redaction has published its tombstone and still keeps the
event. -/
theorem attempt_stopped_redact {id : EventId} {event : Json} {r : RedactionRequest} {temp : String}
    (hevent : files[event_path id.text]? = some event.canonical)
    (hstored : StoredEvent config id event) (htomb : files[redaction_path id.text]? = none)
    (htemp : files[tempPath (redaction_path id.text) temp]? = none) (hr : r.incomplete = false) :
    ∃ tombstone, Ledger.IsTombstone id tombstone ∧ r.agrees tombstone = .ok true ∧
      attempt config files ⟨.redact id r temp, [.go, .go, .go, .go, .go, .go, .stop]⟩ =
        (none, files.insert (redaction_path id.text) tombstone.canonical) := by
  obtain ⟨tombstone, hfor, hburied⟩ := Ledger.tombstoneFor_ok (r := r) hstored
  refine ⟨tombstone, hburied, Ledger.agrees_tombstoneFor hfor, ?_⟩
  have hne : tempPath (redaction_path id.text) temp ≠ redaction_path id.text :=
    (slotPath_ne_tempPath (.tombstone id) (.tombstone id) temp).symm
  have hexec : (redact config id.text r temp).exec fsStep fsRefused
      [.go, .go, .go, .go, .go, .go, .stop] files =
        (none, [], files.insert (redaction_path id.text) tombstone.canonical) := by
    rw [redact, hr]
    simp only [Bool.false_eq_true, if_false, Fs.isPresent, Program.call_bind, Program.exec, fsStep,
      htomb, Option.isSome_none]
    rw [Program.exec_bind_ok (exec_readJson hevent hstored.wf)]
    simp only [hfor, Program.bind_done_ok]
    rw [publish_immutable, Program.exec_bind_ok (exec_publishVia hne htemp htomb)]
    rfl
  simp only [attempt, Program.attempt, program, Program.exec_bind_none hexec]

variable (config) in
/-- A redaction made again finds its tombstone and leaves everything as it is. -/
theorem attempt_repeated_redact {id : EventId} {tombstone : Json} {r : RedactionRequest}
    (temp : String) (htomb : files[redaction_path id.text]? = some tombstone.canonical)
    (hburied : Ledger.IsTombstone id tombstone) (hagrees : r.agrees tombstone = .ok true)
    (hr : r.incomplete = false) :
    attempt config files ⟨.redact id r temp, []⟩ = (some (.ok (.event tombstone)), files) := by
  have hrun : (redact config id.text r temp).run fsStep files = (.ok tombstone, files) := by
    rw [redact, hr]
    simp only [Bool.false_eq_true, if_false, Fs.isPresent, Program.call_bind, Program.run_request,
      fsStep, htomb, Option.isSome_some, if_true]
    rw [Program.run_bind_ok _ (run_readJson_some htomb (Json.loadText_canonical hburied.wf)),
      hagrees]
    rfl
  simp only [attempt, Program.attempt, program, Program.exec_nil, Program.run_bind_ok _ hrun]
  rfl

end DurableEventStore

end FossilCore
