import FossilCore.Domain.LifecycleFailures
import FossilCore.Pack.EventPacks
import FossilCore.Pack.Failures

/-!
# How the audit of packs fails

The checks of `validate_pack_fixtures` across packs that were read: which of them can end with
another error than the auditor's own, and what a pack set must have for none of them to.
-/

namespace FossilCore

open Base

variable {sha256 : Sha256} {formats : FormatChecker} {disk : Disk} {roots : List String}

/-! ## The index -/

/-- A proposed relation has an id to be indexed under. -/
def NamesRelation (event : Json) : Prop :=
  strAt event "event_type" = "relation.proposed" →
    ∃ relation_id, (payloadOf event).get? "relation_id" = some relation_id

theorem keyError_escapes {α : Type} (key : String) :
    ¬FailsWith IsIntegrity (.error (.keyError key) : Except Error α) := by
  rw [FailsWith.error_iff]
  intro h
  cases h

theorem typeError_escapes {α : Type} :
    ¬FailsWith IsIntegrity (.error .typeError : Except Error α) := by
  rw [FailsWith.error_iff]
  intro h
  cases h

theorem settles_indexEvent {event : Json} (h : eventSchema formats event = true) (pack_id : String)
    (index : PackIndex) :
    Settles IsIntegrity (NamesRelation event) (indexEvent pack_id index event) := by
  obtain ⟨fields, hget, hpayload⟩ := get?_payload h
  obtain ⟨more, hsubjects⟩ := get?_subject_refs h
  unfold indexEvent
  rw [Json.getItem_of_get? (get?_event_type h), Json.getItem_of_get? hget,
    Json.getItem_of_get? hsubjects, liftPy_ok, liftPy_ok]
  change Settles _ _ (if _ then _ else if _ then _ else _)
  simp only [Json.str.injEq]
  split_ifs with hclaim hrelation
  · refine Or.inl ⟨fun hne => ?_, _, rfl⟩
    rw [hclaim] at hne
    exact absurd hne (by decide)
  · rw [← hpayload]
    have hobj : (payloadOf event).isObj = true := by
      rw [hpayload]
      rfl
    cases hid : (payloadOf event).get? "relation_id" with
    | none =>
        refine Or.inr ⟨fun hnames => ?_, ?_⟩
        · obtain ⟨relation_id, hsome⟩ := hnames hrelation
          rw [hid] at hsome
          cases hsome
        · rw [FailsWith.bind_ok_iff (liftPy_ok _), getItem_of_none hobj hid]
          exact keyError_escapes "relation_id"
    | some relation_id =>
        refine Or.inl ⟨fun _ => ⟨relation_id, hid⟩, ?_⟩
        have hitem : liftPy ((payloadOf event).getItem "relation_id") = .ok relation_id := by
          rw [Json.getItem_of_get? hid]
          rfl
        exact ⟨_, bind_eq_ok.mpr ⟨_, liftPy_ok _, bind_eq_ok.mpr ⟨relation_id, hitem, rfl⟩⟩⟩
  · exact Or.inl ⟨fun heq => absurd heq hrelation, _, rfl⟩

/-- The index is made of the packs exactly when each of their relations is named. -/
theorem refuses_indexPacks_iff {packs : Dict String PackContents}
    (hevents : ∀ entry ∈ packs.entries, ∀ event ∈ entry.2.events,
      eventSchema formats event = true) :
    FailsWith IsIntegrity (packs.entries.foldlM indexPack .empty) ↔
      ∀ entry ∈ packs.entries, ∀ event ∈ entry.2.events, NamesRelation event :=
  (Settles.foldlM (fun entry hentry _ => Settles.foldlM (fun event hevent index =>
    settles_indexEvent (hevents entry hentry event hevent) entry.1 index) _) _).iff

theorem refuses_requireUnshared (kind : String) (index : Owners) :
    FailsWith IsIntegrity (requireUnshared kind index) := by
  unfold requireUnshared
  split_ifs
  · exact FailsWith.ok ()
  · exact refuses_integrity _

/-! ## Owners -/

theorem mem_addOwner {owners : Owners} {identifier other pack_id owner : String} :
    owner ∈ ((addOwner owners identifier pack_id).get? other).getD [] ↔
      owner ∈ (owners.get? other).getD [] ∨ (other = identifier ∧ owner = pack_id) := by
  unfold addOwner
  rw [Dict.get?_set]
  by_cases h : identifier = other
  · subst h
    rw [if_pos rfl, Option.getD_some]
    split_ifs with hmem
    · refine ⟨Or.inl, ?_⟩
      rintro (howner | ⟨-, rfl⟩)
      · exact howner
      · exact hmem
    · simp
  · rw [if_neg h]
    simp [Ne.symm h]

/-- The owners of a snapshot are packs that have it. -/
def SnapshotsOwned (packs : Dict String PackContents) (owners : Owners) : Prop :=
  ∀ snapshot_id, ∀ owner ∈ (owners.get? snapshot_id).getD [],
    ∃ pack, packs.get? owner = some pack ∧ snapshot_id ∈ pack.snapshots.keys

theorem SnapshotsOwned.addOwners {packs : Dict String PackContents} {owners : Owners}
    (h : SnapshotsOwned packs owners) {pack_id : String} {pack : PackContents}
    (hget : packs.get? pack_id = some pack) {ids : List String}
    (hids : ∀ snapshot_id ∈ ids, snapshot_id ∈ pack.snapshots.keys) :
    SnapshotsOwned packs (ids.foldl (fun owners id => addOwner owners id pack_id) owners) := by
  induction ids generalizing owners with
  | nil => exact h
  | cons id ids ih =>
      obtain ⟨hid, hrest⟩ := List.forall_mem_cons.mp hids
      refine ih ?_ hrest
      intro other owner howner
      rcases mem_addOwner.mp howner with howner | ⟨rfl, rfl⟩
      · exact h other owner howner
      · exact ⟨pack, hget, hid⟩

theorem snapshotsOwned_index {packs : Dict String PackContents} {index : PackIndex}
    (h : packs.entries.foldlM indexPack .empty = .ok index) :
    SnapshotsOwned packs index.snapshot_owners := by
  have hentries : ∀ entry ∈ packs.entries, packs.get? entry.1 = some entry.2 :=
    fun entry hentry => Dict.mem_entries_iff.mp hentry
  refine foldlM_induction (fun _ (index : PackIndex) =>
    SnapshotsOwned packs index.snapshot_owners) ?_ ?_ h
  · intro snapshot_id owner howner
    cases howner
  · rintro seen entry d d' hinit hd hstep
    have hmem : entry ∈ packs.entries :=
      hinit.subset (List.mem_append_right seen (List.mem_singleton.mpr rfl))
    unfold indexPack at hstep
    dsimp only at hstep
    refine foldlM_induction (fun _ (index : PackIndex) =>
      SnapshotsOwned packs index.snapshot_owners) ?_ ?_ hstep
    · exact hd.addOwners (hentries entry hmem) fun _ hid => hid
    · rintro seen event e e' - he hevent
      rw [snapshot_owners_indexEvent hevent]
      exact he

theorem refuses_requireReadable (access : PackAccess) (index : Owners) (kind identifier : String) :
    FailsWith IsIntegrity (requireReadable access index kind identifier) := by
  unfold requireReadable
  refine FailsWith.bind ?_ fun owners _ => ?_
  · unfold _owners
    split
    · exact refuses_integrity _
    · exact FailsWith.ok _
  · unfold _require_readable_owner
    split
    · exact FailsWith.ok _
    · exact refuses_integrity _

theorem mem_owners_of_requireReadable {access : PackAccess} {index : Owners}
    {kind identifier owner : String} (h : requireReadable access index kind identifier = .ok owner) :
    owner ∈ (index.get? identifier).getD [] := by
  obtain ⟨owners, howners, h⟩ := bind_eq_ok.mp h
  have hsame : owners = (index.get? identifier).getD [] := by
    unfold _owners at howners
    split at howners
    · cases howners
    · exact (Except.ok.inj howners).symm
  unfold _require_readable_owner at h
  split at h
  · next found hfound =>
    cases h
    rw [← hsame]
    exact List.mem_of_mem_filter (List.min?_mem hfound)
  · cases h

/-! ## References -/

theorem refuses_auditReference (access : PackAccess) (owners : Owners) (kind : String)
    (reference : Json) : FailsWith IsIntegrity (auditReference access owners kind reference) := by
  unfold auditReference
  exact (refuses_requireReadable _ _ _ _).bind fun _ _ => FailsWith.ok ()

/-- References that are a list, when there are any. -/
theorem refuses_auditReferences {access : PackAccess} {owners : Owners} {kind : String}
    {value : Json} {key : String} (h : ∀ w, value.get? key = some w → ∃ items, w = .arr items) :
    FailsWith IsIntegrity (auditReferences access owners kind value key) := by
  have hall : ∀ references : List Json,
      FailsWith IsIntegrity (references.forM (auditReference access owners kind)) :=
    fun references => FailsWith.forM fun reference _ => refuses_auditReference _ _ _ reference
  unfold auditReferences
  cases hget : value.get? key with
  | none => exact hall []
  | some w =>
      obtain ⟨items, rfl⟩ := h w hget
      exact hall items

theorem refuses_auditSnapshot {snapshot : Json} (h : snapshotSchema formats snapshot = true)
    (index : PackIndex) (access : PackAccess) :
    FailsWith IsIntegrity (auditSnapshot index access snapshot) := by
  unfold auditSnapshot
  obtain ⟨derivation, hget, -⟩ := snapshot_member h "derivation" _ (List.mem_of_getElem? (i := 11) rfl)
  rw [hget, Option.getD_some]
  dsimp only
  split_ifs with hobj
  · exact FailsWith.ok ()
  · obtain ⟨parents, hparents⟩ := parents_of_schema h hget (by simpa using hobj)
    refine refuses_auditReferences fun w hw => ⟨parents, ?_⟩
    rw [hparents] at hw
    exact (Option.some.inj hw).symm

/-- A member of an event that its schema takes for a list. -/
theorem array_of_event {event : Json} (h : eventSchema formats event = true) (key : String)
    (schemas : List Schema)
    (hmember : (key, Schema.allOf (Schema.type [.array] :: schemas)) ∈ eventProperties formats) :
    ∀ w, event.get? key = some w → ∃ items, w = .arr items := by
  intro w hw
  have hproperties : Schema.properties (eventProperties formats) event = true :=
    Schema.allOf_iff.mp h _ (by simp)
  exact Schema.isArr_of_type
    (Schema.allOf_iff.mp (Schema.of_properties hproperties hmember hw) _ List.mem_cons_self)

/-! ## Citations -/

theorem refuses_citedDigest (citation : Json) (citation_id : String) (data : ByteArray) :
    FailsWith IsIntegrity (citedDigest sha256 citation citation_id data) := by
  unfold citedDigest
  dsimp only
  split_ifs
  · exact refuses_integrity _
  · exact refuses_integrity _
  · exact FailsWith.ok _
  · split
    · split_ifs
      · exact refuses_integrity _
      · exact refuses_integrity _
      · exact FailsWith.ok _
    · exact refuses_integrity _

/-- The artifact of a snapshot that was read is one of the pack's. -/
theorem artifact_of_readSnapshot {directory : Directory} {root : String}
    {artifacts : Dict String Json} {path : Path} {entry : String × Json}
    (h : readSnapshot sha256 formats directory root artifacts path = .ok entry) :
    ∃ artifact, artifacts.get? (textOf entry.2 "artifact_id") = some artifact := by
  unfold readSnapshot at h
  obtain ⟨snapshot, -, h⟩ := bind_eq_ok.mp h
  obtain ⟨⟨⟩, -, h⟩ := bind_eq_ok.mp h
  dsimp only at h
  split_ifs at h
  obtain ⟨locator, -, h⟩ := bind_eq_ok.mp h
  obtain ⟨source_id, -, h⟩ := bind_eq_ok.mp h
  split_ifs at h
  split at h
  · cases h
  · next artifact hartifact =>
    split_ifs at h
    obtain ⟨version, -, h⟩ := bind_eq_ok.mp h
    obtain ⟨digest, -, h⟩ := bind_eq_ok.mp h
    split_ifs at h
    obtain ⟨role, -, h⟩ := bind_eq_ok.mp h
    obtain ⟨derivation, -, h⟩ := bind_eq_ok.mp h
    obtain ⟨⟨⟩, -, h⟩ := bind_eq_ok.mp h
    cases h
    exact ⟨artifact, hartifact⟩

theorem PackRead.snapshot {pack_id : String} {pack : PackContents}
    (h : PackRead sha256 formats disk pack_id pack) {snapshot_id : String} {snapshot : Json}
    (hget : pack.snapshots.get? snapshot_id = some snapshot) :
    snapshotSchema formats snapshot = true ∧
      ∃ artifact, pack.artifacts.get? (textOf snapshot "artifact_id") = some artifact := by
  obtain ⟨path, -, hread⟩ := exists_of_mem_mapM (read_snapshots_ok h.snapshots)
    (snapshot_id, snapshot) (Dict.mem_entries_iff.mpr hget)
  exact ⟨(readSnapshot_ok hread).accepted, artifact_of_readSnapshot hread⟩

/-- The bytes of a pack's artifact can be read. -/
theorem PackRead.artifact_bytes {pack_id : String} {pack : PackContents}
    (h : PackRead sha256 formats disk pack_id pack) {artifact_id : String} {artifact : Json}
    (hget : pack.artifacts.get? artifact_id = some artifact) :
    ∃ digest data, manifestDigest artifact = .ok digest ∧
      (disk pack.root).read_bytes (artifactBlobPath digest) = .ok data := by
  obtain ⟨path, -, hread⟩ := exists_of_mem_mapM (read_artifacts_ok h.artifacts)
    (artifact_id, artifact) (Dict.mem_entries_iff.mpr hget)
  obtain ⟨digest, data, hdigest, -, hfile, -⟩ := (readArtifact_ok hread).stored
  refine ⟨digest, data, hdigest, ?_⟩
  rw [Directory.read_bytes, hfile]

/-- The packs were read, each from its directory. -/
def PacksRead (sha256 : Sha256) (formats : FormatChecker) (disk : Disk)
    (packs : Dict String PackContents) : Prop :=
  ∀ pack_id pack, packs.get? pack_id = some pack → PackRead sha256 formats disk pack_id pack

theorem refuses_citation {packs : Dict String PackContents} {index : PackIndex}
    (hread : PacksRead sha256 formats disk packs)
    (howned : SnapshotsOwned packs index.snapshot_owners) (access : PackAccess) (citation : Json) :
    FailsWith IsIntegrity (_citation_bytes sha256 disk packs index access citation) := by
  unfold _citation_bytes
  refine (refuses_schema _ _ _).bind fun _ _ => ?_
  dsimp only
  refine (refuses_requireReadable _ _ _ _).bind fun owner howner => ?_
  obtain ⟨pack, hpack, hkey⟩ := howned _ owner (mem_owners_of_requireReadable howner)
  obtain ⟨snapshot, hsnapshot⟩ := Dict.mem_keys_iff.mp hkey
  obtain ⟨-, artifact, hartifact⟩ := (hread owner pack hpack).snapshot hsnapshot
  obtain ⟨digest, data, hdigest, hdata⟩ := (hread owner pack hpack).artifact_bytes hartifact
  have hentry : entryOf pack.snapshots (textOf citation "snapshot_id") = .ok snapshot := by
    rw [entryOf, hsnapshot]
  have howner : packOf packs owner = .ok pack := by
    rw [packOf, hpack]
  rw [FailsWith.bind_ok_iff howner, FailsWith.bind_ok_iff hentry]
  split_ifs with hsame
  · exact refuses_integrity _
  have htext : textOf citation "artifact_id" = textOf snapshot "artifact_id" := by
    rw [textOf, textOf, not_not.mp hsame]
  have hfound : entryOf pack.artifacts (textOf citation "artifact_id") = .ok artifact := by
    rw [htext, entryOf, hartifact]
  rw [FailsWith.bind_ok_iff hfound, FailsWith.bind_ok_iff hdigest, FailsWith.bind_ok_iff hdata]
  refine (refuses_citedDigest _ _ _).bind fun passage_digest _ => ?_
  split_ifs
  · exact refuses_integrity _
  · exact FailsWith.ok ()

/-! ## Events -/

/-- The references and the citation of an event pass. -/
structure Referenced (sha256 : Sha256) (disk : Disk) (packs : Dict String PackContents)
    (index : PackIndex) (access : PackAccess) (event : Json) : Prop where
  evidence : auditReferences access index.artifact_owners "artifact" event "evidence_refs" = .ok ()
  sources : auditReferences access index.snapshot_owners "source snapshot" event
    "source_snapshot_refs" = .ok ()
  causes : auditReferences access index.event_owners "causal event" event "caused_by_event_ids" =
    .ok ()
  cited : ∀ citation, (payloadOf event).get? "citation" = some citation → citation.isObj = true →
    _citation_bytes sha256 disk packs index access citation = .ok ()

/-- A proposed relation has a source, and a target too if the source passes. -/
structure EndpointsNamed (index : PackIndex) (access : PackAccess) (event : Json) : Prop where
  source : strAt event "event_type" = "relation.proposed" →
    ∃ source_ref, (payloadOf event).get? "source_ref" = some source_ref
  target : strAt event "event_type" = "relation.proposed" →
    auditEndpoint index access (payloadOf event) "source_ref" = .ok () →
      ∃ target_ref, (payloadOf event).get? "target_ref" = some target_ref

theorem refuses_auditEndpoint_iff {index : PackIndex} {access : PackAccess} {payload : Json}
    (hobj : payload.isObj = true) {side : String} :
    FailsWith IsIntegrity (auditEndpoint index access payload side) ↔
      ∃ reference, payload.get? side = some reference := by
  unfold auditEndpoint
  cases hget : payload.get? side with
  | none =>
      rw [getItem_of_none hobj hget]
      exact iff_of_false (keyError_escapes side) fun ⟨_, h⟩ => nomatch h
  | some reference =>
      rw [Json.getItem_of_get? hget, FailsWith.bind_ok_iff (liftPy_ok reference)]
      refine iff_of_true ?_ ⟨reference, rfl⟩
      split_ifs
      · exact FailsWith.ok ()
      · exact refuses_auditReference _ _ _ _

/-- The endpoints of the relation that an event proposes, if it proposes one. -/
def auditEndpoints (index : PackIndex) (access : PackAccess) (event : Json) :
    Except Error Unit := do
  let event_type ← liftPy (event.getItem "event_type")
  checkIf (event_type = .str "relation.proposed") do
    let payload ← liftPy (event.getItem "payload")
    auditEndpoint index access payload "source_ref"
    auditEndpoint index access payload "target_ref"

theorem auditEvent_eq (packs : Dict String PackContents) (index : PackIndex) (access : PackAccess)
    (event : Json) : auditEvent sha256 disk packs index access event = (do
      auditReferences access index.artifact_owners "artifact" event "evidence_refs"
      auditReferences access index.snapshot_owners "source snapshot" event "source_snapshot_refs"
      auditReferences access index.event_owners "causal event" event "caused_by_event_ids"
      let payload := (event.get? "payload").getD (.obj [])
      let citation := (← liftPy (payload.getMethod "citation")).getD .null
      checkIf (citation.isObj = true) (_citation_bytes sha256 disk packs index access citation)
      auditEndpoints index access event
      return citation.isObj) := by
  have hchecked : ∀ (condition : Prop) [Decidable condition] (check : Except Error Unit)
      (rest : Except Error Bool), (checkIf condition check >>= fun _ => rest) =
        if condition then check >>= fun _ => rest else rest := by
    intro condition _ check rest
    unfold checkIf
    split_ifs <;> rfl
  unfold auditEvent auditEndpoints
  simp only [hchecked, bind_assoc]

theorem refuses_auditEndpoints_iff {index : PackIndex} {access : PackAccess} {event : Json}
    (h : eventSchema formats event = true) :
    FailsWith IsIntegrity (auditEndpoints index access event) ↔
      EndpointsNamed index access event := by
  obtain ⟨fields, hget, hpayload⟩ := get?_payload h
  have hobj : (payloadOf event).isObj = true := by
    rw [hpayload]
    rfl
  unfold auditEndpoints checkIf
  rw [Json.getItem_of_get? (get?_event_type h), Json.getItem_of_get? hget, ← hpayload,
    FailsWith.bind_ok_iff (liftPy_ok _)]
  simp only [Json.str.injEq]
  split_ifs with hrelation
  · rw [FailsWith.bind_ok_iff (liftPy_ok _), FailsWith.bind_iff, refuses_auditEndpoint_iff hobj,
      refuses_auditEndpoint_iff hobj]
    refine ⟨fun hboth => ⟨fun _ => hboth.1, fun _ => hboth.2 ()⟩, fun hnamed => ?_⟩
    exact ⟨hnamed.source hrelation, fun _ => hnamed.target hrelation⟩
  · exact iff_of_true (FailsWith.ok ())
      ⟨fun heq => absurd heq hrelation, fun heq => absurd heq hrelation⟩

theorem refuses_auditEvent_iff {packs : Dict String PackContents} {index : PackIndex}
    (hread : PacksRead sha256 formats disk packs)
    (howned : SnapshotsOwned packs index.snapshot_owners) (access : PackAccess) {event : Json}
    (h : eventSchema formats event = true) :
    FailsWith IsIntegrity (auditEvent sha256 disk packs index access event) ↔
      (Referenced sha256 disk packs index access event → EndpointsNamed index access event) := by
  have hreferences : ∀ (owners : Owners) (kind key : String) (schemas : List Schema),
      (key, Schema.allOf (Schema.type [.array] :: schemas)) ∈ eventProperties formats →
        FailsWith IsIntegrity (auditReferences access owners kind event key) :=
    fun owners kind key schemas hmember =>
      refuses_auditReferences (array_of_event h key schemas hmember)
  obtain ⟨fields, hget, hpayload⟩ := get?_payload h
  have hobj : (payloadOf event).isObj = true := by
    rw [hpayload]
    rfl
  have hrest : ∀ citation, FailsWith IsIntegrity (do
      checkIf (citation.isObj = true) (_citation_bytes sha256 disk packs index access citation)
      auditEndpoints index access event
      return citation.isObj) ↔
        (checkIf (citation.isObj = true)
          (_citation_bytes sha256 disk packs index access citation) = .ok () →
            EndpointsNamed index access event) := by
    intro citation
    have hcitation : FailsWith IsIntegrity (checkIf (citation.isObj = true)
        (_citation_bytes sha256 disk packs index access citation)) := by
      unfold checkIf
      split_ifs
      · exact refuses_citation hread howned access citation
      · exact FailsWith.ok ()
    rw [FailsWith.bind_iff, and_iff_right hcitation, FailsWith.bind_pure_iff,
      refuses_auditEndpoints_iff h]
    exact ⟨fun hall hok => hall () hok, fun hall _ hok => hall hok⟩
  have hcitation : liftPy ((payloadOf event).getMethod "citation") =
      .ok ((payloadOf event).get? "citation") := by
    rw [Json.getMethod_of_isObj hobj]
    rfl
  rw [auditEvent_eq, hget, Option.getD_some, ← hpayload]
  constructor
  · rintro hall ⟨hevidence, hsources, hcauses, hcited⟩
    rw [FailsWith.bind_ok_iff hevidence, FailsWith.bind_ok_iff hsources,
      FailsWith.bind_ok_iff hcauses, FailsWith.bind_ok_iff hcitation] at hall
    refine (hrest _).mp hall (checkIf_ok.mpr fun hcitation => ?_)
    cases hget : (payloadOf event).get? "citation" with
    | none =>
        rw [hget] at hcitation
        cases hcitation
    | some citation =>
        rw [hget] at hcitation
        exact hcited citation hget hcitation
  · intro hall
    refine (hreferences _ _ "evidence_refs" _ (List.mem_of_getElem? (i := 11) rfl)).bind
      fun _ hevidence => ?_
    refine (hreferences _ _ "source_snapshot_refs" _ (List.mem_of_getElem? (i := 12) rfl)).bind
      fun _ hsources => ?_
    refine (hreferences _ _ "caused_by_event_ids" _ (List.mem_of_getElem? (i := 8) rfl)).bind
      fun _ hcauses => ?_
    rw [FailsWith.bind_ok_iff hcitation]
    refine (hrest _).mpr fun hcheck => hall ⟨hevidence, hsources, hcauses, ?_⟩
    intro citation hcitation hobj
    rw [hcitation] at hcheck
    exact checkIf_ok.mp hcheck hobj

/-! ## Replay -/

theorem keyed_of_schema {event : Json} (h : eventSchema formats event = true) : Keyed event :=
  ⟨⟨_, get?_recorded_at h⟩, ⟨_, (get?_event_id h).1⟩⟩

/-- The replay of a pack, caught by the auditor. -/
theorem refuses_auditReplay_iff {events : List Json}
    (h : ∀ event ∈ events, eventSchema formats event = true) (pack_id : String) :
    FailsWith IsIntegrity (auditReplay pack_id events) ↔
      KnowledgeState.ReplayKeyed (sortedBy orderKey events) := by
  have hordered := ordered_events_keyed fun event hevent => keyed_of_schema (h event hevent)
  have hevents : ∀ event ∈ sortedBy orderKey events, eventSchema formats event = true :=
    fun event hevent => h event (mem_sortedBy.mp hevent)
  rw [← KnowledgeState.refuses_replay_iff hevents]
  unfold auditReplay
  rw [FailsWith.bind_ok_iff hordered]
  cases hreplay : KnowledgeState.replay (sortedBy orderKey events) with
  | ok state => exact iff_of_true (FailsWith.ok ()) (FailsWith.ok state)
  | error e =>
      rw [FailsWith.error_iff]
      dsimp only
      split_ifs with hcaught
      · exact iff_of_true (refuses_integrity _) hcaught
      · rw [FailsWith.error_iff]
        refine iff_of_false (fun hintegrity => hcaught (Or.inr ?_)) hcaught
        rw [show e.cls = .packFixtureIntegrityError from hintegrity]
        rfl

/-! ## Packs -/

/-- What a pack must have for its audit to end with the auditor's own error at most. -/
structure PackSound (sha256 : Sha256) (disk : Disk) (packs : Dict String PackContents)
    (index : PackIndex) (pack : PackContents) : Prop where
  endpoints : ∀ event,
    ReachedPast (fun event => ∃ cited, auditEvent sha256 disk packs index pack.access event = .ok cited)
        pack.events event →
      Referenced sha256 disk packs index pack.access event →
        EndpointsNamed index pack.access event
  replayed :
    (∀ event ∈ pack.events, ∃ cited,
      auditEvent sha256 disk packs index pack.access event = .ok cited) →
      KnowledgeState.ReplayKeyed (sortedBy orderKey pack.events)

theorem refuses_auditPack_iff {packs : Dict String PackContents} {index : PackIndex}
    (hread : PacksRead sha256 formats disk packs)
    (howned : SnapshotsOwned packs index.snapshot_owners) {pack_id : String} {pack : PackContents}
    (hpack : packs.get? pack_id = some pack) :
    FailsWith IsIntegrity (auditPack sha256 disk packs index (pack_id, pack)) ↔
      ((∀ snapshot ∈ pack.snapshots.values, auditSnapshot index pack.access snapshot = .ok ()) →
        PackSound sha256 disk packs index pack) := by
  have hpackread := hread pack_id pack hpack
  have hevents : ∀ event ∈ pack.events, eventSchema formats event = true :=
    fun event hevent =>
      ((read_events_ok hpackread.named hpackread.events).1.each event hevent).accepted
  have hsnapshots : FailsWith IsIntegrity
      (pack.snapshots.values.forM (auditSnapshot index pack.access)) := by
    refine FailsWith.forM fun snapshot hsnapshot => ?_
    obtain ⟨snapshot_id, hget⟩ := Dict.mem_values_iff.mp hsnapshot
    exact refuses_auditSnapshot (hpackread.snapshot hget).1 index pack.access
  unfold auditPack
  dsimp only
  rw [FailsWith.bind_iff, and_iff_right hsnapshots, FailsWith.bind_iff, FailsWith.mapM_iff]
  constructor
  · intro hall hpassed
    obtain ⟨haudit, hreplay⟩ := hall () (forM_ok_iff.mpr hpassed)
    constructor
    · intro event hfollows
      exact (refuses_auditEvent_iff hread howned pack.access (hevents event hfollows.mem)).mp
        (haudit event hfollows)
    · intro hcited
      obtain ⟨cited, hmap⟩ := mapM_ok_of_forall hcited
      have hrest := hreplay cited hmap
      rw [FailsWith.bind_pure_iff] at hrest
      exact (refuses_auditReplay_iff hevents pack_id).mp hrest
  · intro hall _ hpassed
    have hsound := hall (forM_ok_iff.mp hpassed)
    constructor
    · intro event hfollows
      exact (refuses_auditEvent_iff hread howned pack.access (hevents event hfollows.mem)).mpr
        (hsound.endpoints event hfollows)
    · intro cited hmap
      rw [FailsWith.bind_pure_iff]
      refine (refuses_auditReplay_iff hevents pack_id).mpr (hsound.replayed ?_)
      intro event hevent
      obtain ⟨b, -, hb⟩ := exists_of_mapM_ok hmap event hevent
      exact ⟨b, hb⟩

/-! ## The audit -/

/-- What the pack directories must have for the audit to return or to raise its own error: each
item that the audit reaches has what the audit reads of it without a check. -/
structure AuditSound (sha256 : Sha256) (formats : FormatChecker) (disk : Disk) (roots : List String) :
    Prop where
  located : PacksLocated sha256 formats disk roots
  related : ∀ packs, readPacks sha256 formats disk roots = .ok packs →
    ∀ entry ∈ packs.entries, ∀ event ∈ entry.2.events, NamesRelation event
  audited : ∀ packs index, readPacks sha256 formats disk roots = .ok packs →
    packs.entries.foldlM indexPack .empty = .ok index →
      sharedIds index.event_owners = [] → sharedIds index.claim_owners = [] →
        sharedIds index.relation_owners = [] →
          ∀ entry, ReachedPast (fun entry => ∃ cited,
              auditPack sha256 disk packs index entry = .ok cited) packs.entries entry →
            (∀ snapshot ∈ entry.2.snapshots.values,
              auditSnapshot index entry.2.access snapshot = .ok ()) →
              PackSound sha256 disk packs index entry.2

theorem packsLocated_nil : PacksLocated sha256 formats disk [] := by
  intro manifests hread _ root manifest hreached
  cases hread
  exact absurd hreached.mem List.not_mem_nil

theorem refuses_auditPacks_iff {packs : Dict String PackContents}
    (hread : PacksRead sha256 formats disk packs) :
    FailsWith IsIntegrity (auditPacks sha256 disk packs) ↔
      (∀ entry ∈ packs.entries, ∀ event ∈ entry.2.events, NamesRelation event) ∧
        ∀ index, packs.entries.foldlM indexPack .empty = .ok index →
          sharedIds index.event_owners = [] → sharedIds index.claim_owners = [] →
            sharedIds index.relation_owners = [] →
              ∀ entry, ReachedPast (fun entry => ∃ cited,
                  auditPack sha256 disk packs index entry = .ok cited) packs.entries entry →
                (∀ snapshot ∈ entry.2.snapshots.values,
                  auditSnapshot index entry.2.access snapshot = .ok ()) →
                  PackSound sha256 disk packs index entry.2 := by
  have hevents : ∀ entry ∈ packs.entries, ∀ event ∈ entry.2.events,
      eventSchema formats event = true := by
    intro entry hentry event hevent
    have hpackread := hread entry.1 entry.2 (Dict.mem_entries_iff.mp hentry)
    exact ((read_events_ok hpackread.named hpackread.events).1.each event hevent).accepted
  unfold auditPacks
  rw [FailsWith.bind_iff, refuses_indexPacks_iff hevents]
  apply and_congr_right'
  apply forall₂_congr
  intro index hindex
  have hpack : ∀ entry ∈ packs.entries, (FailsWith IsIntegrity (auditPack sha256 disk packs index
      entry) ↔ ((∀ snapshot ∈ entry.2.snapshots.values,
        auditSnapshot index entry.2.access snapshot = .ok ()) →
          PackSound sha256 disk packs index entry.2)) :=
    fun entry hentry =>
      refuses_auditPack_iff hread (snapshotsOwned_index hindex) (Dict.mem_entries_iff.mp hentry)
  constructor
  · intro hall hshared hclaims hrelations entry hfollows
    rw [FailsWith.bind_ok_iff (requireUnshared_ok.mpr hshared),
      FailsWith.bind_ok_iff (requireUnshared_ok.mpr hclaims),
      FailsWith.bind_ok_iff (requireUnshared_ok.mpr hrelations), FailsWith.bind_pure_iff,
      FailsWith.mapM_iff] at hall
    exact (hpack entry hfollows.mem).mp (hall entry hfollows)
  · intro hall
    refine (refuses_requireUnshared _ _).bind fun _ hshared => ?_
    refine (refuses_requireUnshared _ _).bind fun _ hclaims => ?_
    refine (refuses_requireUnshared _ _).bind fun _ hrelations => ?_
    rw [FailsWith.bind_pure_iff, FailsWith.mapM_iff]
    intro entry hfollows
    exact (hpack entry hfollows.mem).mpr (hall (requireUnshared_ok.mp hshared)
      (requireUnshared_ok.mp hclaims) (requireUnshared_ok.mp hrelations) entry hfollows)

theorem settled_iff {α : Type} {x : Except Error α} :
    ((∃ a, x = .ok a) ∨ ∃ e, x = .error e ∧ e.cls = .packFixtureIntegrityError) ↔
      FailsWith IsIntegrity x := by
  cases x with
  | ok a => exact iff_of_true (Or.inl ⟨a, rfl⟩) (FailsWith.ok a)
  | error e =>
      rw [FailsWith.error_iff]
      constructor
      · rintro (⟨a, h⟩ | ⟨e', h, hcls⟩)
        · cases h
        · cases h
          exact hcls
      · exact fun hcls => Or.inr ⟨e, rfl, hcls⟩

section Sample

/-- A snapshot that the schema accepts and whose locator names nothing. -/
def blankSnapshot : Json :=
  .ofMembers [
    ("schema_version", .str "fossil.source-snapshot.v1"),
    ("snapshot_id", .str "snap_000000000000"),
    ("source_id", .str "source_00000000"),
    ("source_role", .str "primary"),
    ("locator", .ofMembers [("url", .str " ")]),
    ("retrieved_at", .str "2026-01-01T00:00:00Z"),
    ("published_at", .null),
    ("artifact_id", .str (artifact_id_for_digest SourceSnapshotStore.evidenceDigest)),
    ("content_hash", contentHash SourceSnapshotStore.evidenceDigest),
    ("version_metadata", .ofMembers []),
    ("quality", .ofMembers (qualityKeys.map fun key => (key, .null))),
    ("derivation", .null)]

def blankPath : Path := packSnapshotPath "snap_000000000000"

/-- A pack of a manifest and that snapshot. -/
def blankPack : Directory where
  files := ((∅ : Files).insert ["manifest.json"] commonManifest.canonical).insert blankPath
    blankSnapshot.canonical
  folders := []

theorem blankPack_files {path : Path} {data : ByteArray} (h : blankPack.files[path]? = some data) :
    (path = blankPath ∧ data = blankSnapshot.canonical) ∨
      (path = ["manifest.json"] ∧ data = commonManifest.canonical) := by
  unfold blankPack at h
  rw [KeyMap.get?_insert, KeyMap.get?_insert] at h
  split_ifs at h with hblank hmanifest
  · exact Or.inl ⟨hblank.symm, (Option.some.inj h).symm⟩
  · exact Or.inr ⟨hmanifest.symm, (Option.some.inj h).symm⟩
  · simp at h

theorem readable_blankPack : Readable blankPack := by
  constructor
  · intro path data hdata _
    rcases blankPack_files hdata with ⟨-, rfl⟩ | ⟨-, rfl⟩
    · exact ⟨_, Json.readText_canonical _⟩
    · exact ⟨_, Json.readText_canonical _⟩
  · intro manifest data listed relative bytes _ _ _ _ hbytes
    rcases blankPack_files hbytes with ⟨-, rfl⟩ | ⟨-, rfl⟩
    · exact ⟨_, Json.readText_canonical _⟩
    · exact ⟨_, Json.readText_canonical _⟩

theorem load_manifest_blankPack (root : String) :
    _load_json blankPack root ["manifest.json"] = .ok commonManifest := by
  have hwf : commonManifest.WF := by decide +kernel
  have hfile : blankPack.files[(["manifest.json"] : Path)]? = some commonManifest.canonical := by
    unfold blankPack
    rw [KeyMap.get?_insert, if_neg (by decide), KeyMap.get?_insert_self]
  exact load_json_ok_iff.mpr ⟨_, hfile, Json.loadText_canonical hwf, rfl⟩

theorem textOf_blankSnapshot : textOf blankSnapshot "snapshot_id" = "snap_000000000000" := by
  apply textOf_of_get?
  rw [blankSnapshot, Json.get?_ofMembers]
  rfl

theorem accepted_blankSnapshot :
    snapshotSchema StoreConfig.plain.formats blankSnapshot = true := by
  decide +kernel

theorem placed_blankSnapshot (root : String) :
    SnapshotPlaced StoreConfig.plain.formats blankPack root blankPath blankSnapshot := by
  have hwf : blankSnapshot.WF := by decide +kernel
  have hfile : blankPack.files[blankPath]? = some blankSnapshot.canonical := by
    unfold blankPack
    rw [KeyMap.get?_insert_self]
  refine ⟨load_json_ok_iff.mpr ⟨_, hfile, Json.loadText_canonical hwf, rfl⟩,
    accepted_blankSnapshot, ?_⟩
  rw [textOf_blankSnapshot]
  rfl

theorem not_located_blankSnapshot : ¬Located blankSnapshot := by
  have hlocator : blankSnapshot.get? "locator" = some (.ofMembers [("url", .str " ")]) := by
    rw [blankSnapshot, Json.get?_ofMembers]
    rfl
  rintro ⟨key, hkey, hnamed⟩
  rw [hlocator] at hnamed
  have hall : ∀ key ∈ locatorKeys, isNonBlank ((((some (Json.ofMembers [("url", .str " ")])).getD
      .null).get? key).getD .null) = false := by
    decide +kernel
  rw [hall key hkey] at hnamed
  cases hnamed

theorem glob_blankPack : blankPack.glob ["artifacts", "manifests"] = [] ∧
    blankPack.glob ["sources", "snapshots"] = [blankPath] := by
  constructor
  · rw [List.eq_nil_iff_forall_not_mem]
    intro path hpath
    obtain ⟨⟨data, hdata⟩, hglobbed⟩ := mem_glob_iff.mp hpath
    rcases blankPack_files hdata with ⟨rfl, -⟩ | ⟨rfl, -⟩
    · exact absurd hglobbed (by decide +kernel)
    · exact absurd hglobbed (by decide +kernel)
  · apply List.perm_singleton.mp
    refine (List.perm_ext_iff_of_nodup (List.Nodup.filter _ Std.ExtTreeMap.nodup_keys)
      (List.nodup_singleton _)).mpr ?_
    intro path
    rw [List.mem_singleton]
    change path ∈ blankPack.glob ["sources", "snapshots"] ↔ _
    rw [mem_glob_iff]
    constructor
    · rintro ⟨⟨data, hdata⟩, hglobbed⟩
      rcases blankPack_files hdata with ⟨rfl, -⟩ | ⟨rfl, -⟩
      · rfl
      · exact absurd hglobbed (by decide +kernel)
    · rintro rfl
      obtain ⟨data, hfile, -⟩ := load_json_ok_iff.mp (placed_blankSnapshot "pack").loaded
      exact ⟨⟨data, hfile⟩, by decide +kernel⟩

theorem not_located_blankPack (root : String) : ¬SnapshotsLocated .hashlib StoreConfig.plain.formats
    blankPack root commonManifest := by
  obtain ⟨hartifacts, hsnapshots⟩ := glob_blankPack
  have hread : _read_artifacts .hashlib blankPack root commonManifest = .ok .empty := by
    unfold _read_artifacts
    rw [hartifacts]
    rfl
  intro h
  refine not_located_blankSnapshot (h .empty hread blankPath .empty blankSnapshot ?_
    (placed_blankSnapshot root))
  rw [hsnapshots]
  exact ⟨[], [], rfl, rfl⟩

theorem not_packsLocated_blank : ¬PacksLocated .hashlib StoreConfig.plain.formats
    (fun _ => blankPack) ["pack"] := by
  intro h
  have hmanifests : readManifests (fun _ => blankPack) ["pack"] =
      .ok (Dict.empty.set "pack" commonManifest) := by
    unfold readManifests
    rw [List.foldlM_cons, load_manifest_blankPack]
    rfl
  have hvalues : (Dict.empty.set "pack" commonManifest).values = [commonManifest] := rfl
  have hvalid : KnowledgePackValidator.validate StoreConfig.plain.formats commonManifest =
      .ok () := by
    decide +kernel
  have hset := @validateManifests_of_independent StoreConfig.plain.formats [commonManifest]
    (by simpa using hvalid) (List.nodup_singleton _) (by rw [List.forall_mem_singleton]; rfl)
  refine not_located_blankPack "pack" (h _ hmanifests ⟨_, hvalues ▸ hset⟩ "pack" commonManifest ?_)
  exact ⟨[], [], rfl, fun _ hmem => absurd hmem List.not_mem_nil⟩

/-- A pack whose only event proposes a claim. -/
def claimPack : EventPack where
  manifest := commonManifest
  events := [.ofMembers [
    ("schema_version", .str "dkg.event.v1"), ("event_id", .str "evt_0000000000000001"),
    ("event_type", .str "claim.proposed"), ("occurred_at", .str "2026-01-01T00:00:00Z"),
    ("recorded_at", .str "2026-01-01T00:00:00Z"), ("pack_id", .str commonPack),
    ("actor", .ofMembers [("actor_type", .str "agent"), ("actor_id", .str "agent_01")]),
    ("subject_refs", .arr [.str "clm_01"]),
    ("payload", .ofMembers [("claim_text", .str "a claim")])]]

theorem sound_claimPack : claimPack.Sound StoreConfig.plain.formats := by
  constructor
  all_goals decide +kernel

theorem readable_eventPack (pack : EventPack) : Readable pack.directory := by
  have hcanonical : ∀ (path : Path) data, pack.directory.files[path]? = some data →
      ∃ text, Json.readText data = .ok text := by
    intro path data hdata
    rcases EventPack.mem_files hdata with ⟨-, rfl⟩ | ⟨event, -, -, rfl⟩
    · exact ⟨_, Json.readText_canonical _⟩
    · exact ⟨_, Json.readText_canonical _⟩
  exact ⟨fun path data hdata _ => hcanonical path data hdata,
    fun _ _ _ relative bytes _ _ _ _ hbytes => hcanonical _ bytes hbytes⟩

def claimPacks : List (String × EventPack) := [("pack", claimPack)]

theorem audited_claimPack : ∃ audit, validate_pack_fixtures .hashlib StoreConfig.plain.formats
    (fun _ => claimPack.directory) ["pack"] = .ok audit := by
  have hset := @validateManifests_of_independent StoreConfig.plain.formats [commonManifest]
    (List.forall_mem_singleton.mpr sound_claimPack.valid) (List.nodup_singleton _)
    (by rw [List.forall_mem_singleton]; rfl)
  obtain ⟨index, hindex, hevents, hclaims, hrelations⟩ : ∃ index,
      (EventPack.contentsOf claimPacks).foldlM indexPack .empty = .ok index ∧
        sharedIds index.event_owners = [] ∧ sharedIds index.claim_owners = [] ∧
          sharedIds index.relation_owners = [] :=
    ⟨_, rfl, by decide +kernel, by decide +kernel, by decide +kernel⟩
  refine validate_pack_fixtures_ok_iff.mpr ⟨_, index, @EventPack.audited .hashlib
    StoreConfig.plain.formats (fun _ => claimPack.directory) claimPacks (List.cons_ne_nil _ _) (by simp [claimPacks])
    (List.forall_mem_singleton.mpr sound_claimPack) (List.nodup_singleton _) _ hset index hindex hevents
    hclaims hrelations ?_⟩
  intro entry hentry
  obtain rfl := List.mem_singleton.mp hentry
  constructor
  · exact List.forall_mem_singleton.mpr ⟨false, rfl⟩
  · have hkeyed : ∀ event ∈ claimPack.events, Keyed event :=
      fun event hevent => keyed_of_schema (sound_claimPack.accepted event hevent)
    have hsorted : sortedBy orderKey claimPack.events = claimPack.events :=
      sortedBy_of_pairwise (List.pairwise_singleton _ _)
    have hordered := ordered_events_keyed hkeyed
    rw [hsorted] at hordered
    exact auditReplay_ok_iff.mpr ⟨_, _, hordered, rfl⟩

end Sample

end FossilCore
