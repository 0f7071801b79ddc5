import FossilCore.Adapters.ArtifactStoreCrashes
import FossilCore.Adapters.RedactionCompleteness
import FossilCore.Adapters.S3ArtifactStore
import FossilCore.Adapters.S3EventStoreCrashes

/-!
# The S3 artifact store under crashes

The same for `S3ArtifactStore`, and the theorem about both stores: over every run of attempts that
may be stopped anywhere, what is read is what its manifest records, manifests stay, a conflict
changes nothing, and a redacted blob stays away.
-/

namespace FossilCore

open Base

namespace S3Backend

variable {b : S3Backend} {paging : Paging} {kind : S3Request → Bool} {objects : Objects}
  {relative : String} {data : ByteArray}

theorem always_read_some {post : Option (Except Error ByteArray) → Objects → Prop}
    (h : objects[b.key relative]? = some data) (hstop : post none objects)
    (hok : post (some (.ok data)) objects) :
    (b.read relative).Always (s3Step paging) s3Refused kind post objects := by
  refine ⟨?_, fun _ => ⟨hstop, fun a ha => by cases ha⟩⟩
  simp only [s3Step, h]
  exact hok

theorem always_read_none {post : Option (Except Error ByteArray) → Objects → Prop}
    (h : objects[b.key relative]? = none) (hstop : post none objects)
    (hfail : ∀ e, post (some (.error e)) objects) :
    (b.read relative).Always (s3Step paging) s3Refused kind post objects := by
  refine ⟨?_, fun _ => ⟨hstop, fun a ha => by cases ha⟩⟩
  simp only [s3Step, h]
  exact hfail _

/-- A conditional put that finds an object compares it. -/
theorem always_put_immutable_some {post : Option (Except Error Bool) → Objects → Prop}
    {existing : ByteArray} (h : objects[b.key relative]? = some existing)
    (hstop : post none objects)
    (hdone : post (some (if existing = data then .ok false
      else .error (.remoteObjectConflict
        s!"stable object key already exists with different content: {relative}"))) objects) :
    (b.put_immutable relative data).Always (s3Step paging) s3Refused kind post objects := by
  refine ⟨?_, fun _ => ⟨hstop, fun a ha => by cases ha⟩⟩
  simp only [s3Step, h, hasCode, precondition, List.mem_cons, true_or, or_true, decide_true, if_true]
  apply Program.Always.bind
  refine always_read_some h hstop ?_
  dsimp only
  split_ifs at hdone ⊢ <;> exact hdone

end S3Backend

namespace S3ArtifactStore

variable {sha256 : Sha256} {b : S3Backend} {paging : Paging} {artifacts : Set ByteArray}
  {objects : Objects}

abbrev contents (b : S3Backend) (objects : Objects) : ArtifactContents := (layout b).view objects

theorem contents_insert (objects : Objects) (slot : ArtifactSlot) (v : ByteArray) :
    contents b (objects.insert (b.key (slotKey slot)) v) =
      Function.update (contents b objects) slot (some v) := (layout b).view_insert objects slot v

theorem contents_erase (objects : Objects) (slot : ArtifactSlot) :
    contents b (objects.erase (b.key (slotKey slot))) =
      Function.update (contents b objects) slot none := (layout b).view_erase objects slot

/-- No request is protected from the script. -/
def unprotected (_ : S3Request) : Bool := false

theorem always_putOr (slot : ArtifactSlot) {data : ByteArray} {conflict : Error}
    {post : Option (Except Error Bool) → Objects → Prop} (hstop : post none objects)
    (hfree : contents b objects slot = none →
      post (some (.ok true)) (objects.insert (b.key (slotKey slot)) data))
    (hsame : contents b objects slot = some data → post (some (.ok false)) objects)
    (hother : ∀ existing, contents b objects slot = some existing → existing ≠ data →
      post (some (.error conflict)) objects) :
    (putOr b (slotKey slot) data conflict).Always (s3Step paging) s3Refused unprotected post
      objects := by
  apply Program.Always.catching
  cases h : contents b objects slot with
  | none =>
      refine S3Backend.always_put_immutable hstop (fun _ => hfree h) ?_
      intro hpresent
      rw [show objects[b.key (slotKey slot)]? = none from h] at hpresent
      cases hpresent
  | some existing =>
      refine S3Backend.always_put_immutable_some h hstop ?_
      by_cases heq : existing = data
      · rw [if_pos heq]
        exact hsame (heq ▸ h)
      · rw [if_neg heq]
        exact hother existing h heq

/-- The manifest of an id, when there is one. -/
theorem always_get_manifest {id : ArtifactId} {post : Option (Except Error Json) → Objects → Prop}
    (h : ArtifactContents.Sound sha256 artifacts (contents b objects)) (hstop : post none objects)
    (hmissing : ∀ e, post (some (.error e)) objects)
    (hok : ∀ data ∈ artifacts, ∀ media_type, sha256.artifactId data = id →
      contents b objects (.manifest id) = some (sha256.manifest data media_type) →
      post (some (.ok (manifestFor (sha256.hexdigest data) data media_type))) objects) :
    (get_manifest b id.text).Always (s3Step paging) s3Refused unprotected post objects := by
  apply Program.Always.catching
  cases hm : contents b objects (.manifest id) with
  | none =>
      refine S3Backend.always_readJson_none hm hstop fun e => ?_
      show Program.Always _ _ _ _ (if _ then _ else _) _
      split <;> exact hmissing _
  | some bytes =>
      obtain ⟨data, hdata, media_type, hid, rfl⟩ := h.manifests id bytes hm
      exact S3Backend.always_readJson_some hm
        (Json.loadBytes_canonical (ArtifactLedger.wf_manifestFor _ _ _)) hstop
        (hok data hdata media_type hid hm)

theorem always_read_bytes (hfree : sha256.CollisionFree artifacts)
    (h : ArtifactContents.Sound sha256 artifacts (contents b objects)) (id : ArtifactId) :
    (read_bytes b id.text).Always (s3Step paging) s3Refused unprotected
      (fun o objects' => objects' = objects ∧ ∀ data, o = some (.ok data) →
        ArtifactContents.Recorded sha256 (contents b objects) id data) objects := by
  rw [read_bytes]
  apply Program.Always.bind
  apply S3Backend.always_isPresent ⟨rfl, by simp⟩
  dsimp only
  split
  · exact ⟨rfl, by simp⟩
  · apply Program.Always.bind
    refine always_get_manifest h ⟨rfl, by simp⟩ (fun e => ⟨rfl, by simp⟩) ?_
    rintro data hdata media_type rfl hm
    simp only [ArtifactLedger.digestText_manifestFor, Program.bind_done_ok]
    cases hblob : contents b objects (.blob (sha256.digest data)) with
    | none => exact S3Backend.always_read_none hblob ⟨rfl, by simp⟩ fun e => ⟨rfl, by simp⟩
    | some data' =>
        refine S3Backend.always_read_some hblob ⟨rfl, by simp⟩ ⟨rfl, ?_⟩
        rintro _ ⟨⟩
        exact h.recorded hfree hdata hm hblob

theorem always_put_manifest (hfree : sha256.CollisionFree artifacts)
    (h : ArtifactContents.Sound sha256 artifacts (contents b objects)) {data : ByteArray}
    (hdata : data ∈ artifacts)
    (hblob : contents b objects (.blob (sha256.digest data)) = some data) (media_type : String) :
    (put_manifest b (sha256.artifactId data).text
        (manifestFor (sha256.hexdigest data) data media_type)).Always (s3Step paging) s3Refused
      unprotected (fun o objects' =>
        LeavesPut sha256 artifacts (layout b) data objects o objects') objects := by
  apply Program.Always.bind
  refine always_putOr (.manifest (sha256.artifactId data))
    (.of_python (Or.inl rfl) h (.refl _)) ?_ ?_ ?_
  · intro habsent
    have hsound := h.insertManifest hfree hdata hblob media_type
    have hkeeps : ArtifactContents.Keeps (contents b objects) _ :=
      .insertManifest habsent (sha256.manifest data media_type)
    rw [← contents_insert] at hsound hkeeps
    exact ⟨hsound, hkeeps, by simp⟩
  · exact fun _ => ⟨h, .refl _, by simp⟩
  · intro existing hexisting _
    refine ⟨h, .refl _, fun _ _ _ => ⟨rfl, ?_⟩⟩
    rw [show (layout b).view objects _ = _ from hexisting]
    rfl

theorem always_put_bytes (hfree : sha256.CollisionFree artifacts)
    (h : ArtifactContents.Sound sha256 artifacts (contents b objects)) {data : ByteArray}
    (hdata : data ∈ artifacts) (media_type : String) :
    (put_bytes sha256 b data media_type).Always (s3Step paging) s3Refused unprotected
      (fun o objects' => LeavesPut sha256 artifacts (layout b) data objects o objects')
      objects := by
  rw [put_bytes]
  apply Program.Always.bind
  apply S3Backend.always_isPresent (.of_python (Or.inl rfl) h (.refl _))
  show Program.Always _ _ _ _
    (if (contents b objects (.redaction (sha256.artifactId data))).isSome = true then _ else _) _
  cases hred : contents b objects (.redaction (sha256.artifactId data)) with
  | some t =>
      refine ⟨h, .refl _, ?_⟩
      rintro e ⟨⟩ hcls
      cases hcls
  | none =>
      apply Program.Always.bind
      refine always_putOr (.blob (sha256.digest data)) (.of_python (Or.inl rfl) h (.refl _))
        ?_ ?_ ?_
      · intro habsent
        have hview := contents_insert (b := b) objects (.blob (sha256.digest data)) data
        have hsound := h.insertBlob hfree hdata
        have hkeeps : ArtifactContents.Keeps (contents b objects) (Function.update
            (contents b objects) (.blob (sha256.digest data)) (some data)) := .insertBlob hred
        rw [← hview] at hsound hkeeps
        have hblob : contents b (objects.insert (b.key (slotKey (.blob (sha256.digest data)))) data)
            (.blob (sha256.digest data)) = some data := by
          rw [hview, Function.update_self]
        refine (always_put_manifest hfree hsound hdata hblob media_type).mono ?_
        -- A blob that was absent had no manifest to be in conflict with.
        intro o objects' hput
        refine ⟨hput.sound, hkeeps.trans hput.keeps, ?_⟩
        intro e he hcls
        have hpresent := (hput.conflict e he hcls).2
        rw [show (layout b).view _ = _ from hview, Function.update_of_ne (by simp),
          h.manifest_absent hdata hred habsent] at hpresent
        cases hpresent
      · intro hblob
        exact always_put_manifest hfree h hdata hblob media_type
      · intro existing hexisting hne
        exact (hne (h.blob_eq hfree hdata hexisting)).elim

theorem always_redact (hfree : sha256.CollisionFree artifacts)
    (h : ArtifactContents.Sound sha256 artifacts (contents b objects)) (id : ArtifactId)
    (r : RedactionRequest) :
    (redact b id.text r).Always (s3Step paging) s3Refused unprotected
      (LeavesRedaction sha256 artifacts (layout b) id objects) objects := by
  rw [redact]
  by_cases hr : r.incomplete = true
  · rw [if_pos hr]
    exact ⟨h, .refl _, by simp⟩
  · rw [if_neg hr]
    apply Program.Always.bind
    refine always_get_manifest h ⟨h, .refl _, by simp⟩ (fun e => ⟨h, .refl _, by simp⟩) ?_
    rintro data hdata media_type rfl hm
    obtain ⟨record, hrecord, -, -⟩ := ArtifactLedger.artifactRecord_manifestFor
      (sha256.hexdigest data) data media_type (sha256.artifactId data).text r
    simp only [hrecord, Program.bind_done_ok]
    have hdelete : ∀ {objects' : Objects},
        ArtifactContents.Sound sha256 artifacts (contents b objects') →
        ArtifactContents.Keeps (contents b objects) (contents b objects') →
        (contents b objects' (.redaction (sha256.artifactId data))).isSome →
        Program.Always (s3Step paging) s3Refused unprotected
          (LeavesRedaction sha256 artifacts (layout b) (sha256.artifactId data) objects)
          (do
            let digest ← .done (digestText
              (manifestFor (sha256.hexdigest data) data media_type))
            b.delete (blob_key digest)
            return record) objects' := by
      intro objects' hsound hkeeps hred
      have hview := contents_erase (b := b) objects' (.blob (sha256.digest data))
      simp only [ArtifactLedger.digestText_manifestFor, Program.bind_done_ok]
      apply Program.Always.bind
      apply S3Backend.always_delete
      · have hsound' := hsound.eraseBlob (d := sha256.digest data) hred
        have hkeeps' := hkeeps.trans (.eraseBlob _ (sha256.digest data))
        have herased := hsound.erased hfree hdata hred
        rw [← hview] at hsound' hkeeps' herased
        exact ⟨hsound', hkeeps', fun _ _ => herased⟩
      · intro _
        exact ⟨⟨hsound, hkeeps, by simp⟩, fun e => ⟨hsound, hkeeps, by simp⟩⟩
    apply Program.Always.bind
    refine always_putOr (.redaction (sha256.artifactId data)) ⟨h, .refl _, by simp⟩ ?_ ?_ ?_
    · intro _
      have hview := contents_insert (b := b) objects (.redaction (sha256.artifactId data))
        record.canonical
      have hsound := h.insertRedaction (sha256.artifactId data) record.canonical
      have hkeeps := ArtifactContents.Keeps.insertRedaction (contents b objects)
        (sha256.artifactId data) record.canonical
      rw [← hview] at hsound hkeeps
      refine hdelete hsound hkeeps ?_
      rw [hview, Function.update_self]
      rfl
    · intro hsame
      refine hdelete h (.refl _) ?_
      rw [hsame]
      rfl
    · exact fun _ _ _ => ⟨h, .refl _, by simp⟩

/-! ## Runs of attempts -/

def attempt (sha256 : Sha256) (b : S3Backend) (paging : Paging) : ArtifactAttempt String :=
  Program.attempt (s3Step paging) s3Refused (program sha256 b)

theorem quiet_readDocument (key : String) (invalid : Error) :
    (readDocument b key invalid).Quiet S3Request.readsOnly := by
  refine (S3Backend.quiet_readJson key).follow fun x => ?_
  cases x with
  | ok v => trivial
  | error e =>
      dsimp only
      split <;> trivial

theorem quiet_verify (id : ArtifactId) :
    (verify sha256 b id.text).Quiet S3Request.readsOnly := by
  refine (quiet_readDocument _ _).bind fun manifest => Program.Quiet.bind ?_ fun _ => trivial
  refine (S3Backend.quiet_isPresent _).bind fun redacted => ?_
  cases redacted with
  | true => trivial
  | false =>
      refine (quiet_readDocument _ _).bind fun manifest => ?_
      exact Program.Quiet.bind (p := .done _) trivial fun digest => S3Backend.quiet_read _

theorem quiet_get_redaction (id : ArtifactId) :
    (get_redaction b id.text).Quiet S3Request.readsOnly := by
  refine (S3Backend.quiet_isPresent _).bind fun present => ?_
  cases present with
  | true => exact (quiet_readDocument _ _).bind fun _ => trivial
  | false => trivial

theorem always_program (hfree : sha256.CollisionFree artifacts)
    (h : ArtifactContents.Sound sha256 artifacts (contents b objects)) {call : ArtifactCall}
    (hput : ∀ data media_type temp temp', call = .put_bytes data media_type temp temp' →
      data ∈ artifacts) :
    (program sha256 b call).Always (s3Step paging) s3Refused unprotected
      (LeavesArtifacts sha256 artifacts (layout b) call objects) objects := by
  cases call with
  | put_bytes data media_type temp temp' =>
      apply Program.Always.map
      exact (always_put_bytes hfree h (hput data media_type temp temp' rfl) media_type).mono
        fun _ _ hleaves => .of_put hleaves
  | read_bytes id =>
      apply Program.Always.map
      refine (always_read_bytes hfree h id).mono ?_
      rintro o objects' ⟨rfl, hread⟩
      exact .of_read h hread
  | verify id =>
      refine S3Backend.always_quiet ((quiet_verify id).bind
        (f := fun b => pure (ArtifactReturned.verified b)) fun _ => trivial) fun o => ?_
      exact ⟨h, .refl _, by simp, by simp, by simp⟩
  | redact id r temp =>
      apply Program.Always.map
      exact (always_redact hfree h id r).mono fun _ _ hleaves => .of_redaction hleaves
  | get_redaction id =>
      refine S3Backend.always_quiet ((quiet_get_redaction id).bind
        (f := fun t => pure (ArtifactReturned.redaction t)) fun _ => trivial) fun o => ?_
      exact ⟨h, .refl _, by simp, by simp, by simp⟩

theorem keepsIntegrity (sha256 : Sha256) (b : S3Backend) (paging : Paging)
    (attempts : List (Program.Attempt ArtifactCall))
    (hfree : sha256.CollisionFree (putArtifacts attempts)) :
    KeepsIntegrity sha256 (layout b) (attempt sha256 b paging) attempts := by
  apply keepsIntegrity_of_leaves
  intro objects a ha hsound
  refine (always_program hfree hsound ?_).exec
    (Program.cutAt_none (s3Step paging) s3Refused (fun _ => rfl) _ _ _)
  intro data media_type temp temp' hcall
  exact ⟨a, ha, media_type, temp, temp', hcall⟩

end S3ArtifactStore

/-- Both artifact stores keep integrity over every run of attempts, wherever each of them is
stopped, when no two of the artifacts put have an id in common. -/
theorem artifact_stores_keep_integrity (sha256 : Sha256) (b : S3Backend) (paging : Paging)
    (attempts : List (Program.Attempt ArtifactCall))
    (hfree : sha256.CollisionFree (putArtifacts attempts)) :
    KeepsIntegrity sha256 ArtifactStore.layout (ArtifactStore.attempt sha256) attempts ∧
      KeepsIntegrity sha256 (S3ArtifactStore.layout b) (S3ArtifactStore.attempt sha256 b paging)
        attempts :=
  ⟨ArtifactStore.keepsIntegrity sha256 attempts hfree,
    S3ArtifactStore.keepsIntegrity sha256 b paging attempts hfree⟩

/-- A put that is stopped half-way and made again, and so a redaction. -/
def interruptedArtifact : List (Program.Attempt ArtifactCall) :=
  [⟨.put_bytes "blob".toUTF8 "text/plain" "t1" "t2", [.go, .go, .go, .go, .go, .stop]⟩,
    ⟨.put_bytes "blob".toUTF8 "text/plain" "t3" "t4", []⟩,
    ⟨.redact (Sha256.hashlib.artifactId "blob".toUTF8) erasure "t5", [.go, .go, .go, .go, .stop]⟩,
    ⟨.redact (Sha256.hashlib.artifactId "blob".toUTF8) erasure "t6", []⟩,
    ⟨.read_bytes (Sha256.hashlib.artifactId "blob".toUTF8), []⟩]

theorem artifact_stores_keep_interrupted :
    KeepsIntegrity .hashlib ArtifactStore.layout (ArtifactStore.attempt .hashlib)
        interruptedArtifact ∧
      KeepsIntegrity .hashlib (S3ArtifactStore.layout ⟨"prod"⟩)
        (S3ArtifactStore.attempt .hashlib ⟨"prod"⟩ .single) interruptedArtifact := by
  apply artifact_stores_keep_integrity
  have honly : putArtifacts interruptedArtifact ⊆ {"blob".toUTF8} := by
    rintro data ⟨a, ha, media_type, temp, temp', hcall⟩
    simp only [interruptedArtifact, List.mem_cons, List.not_mem_nil, or_false] at ha
    rcases ha with rfl | rfl | rfl | rfl | rfl <;> cases hcall <;> rfl
  exact (Set.injOn_singleton _ _).mono honly

end FossilCore
