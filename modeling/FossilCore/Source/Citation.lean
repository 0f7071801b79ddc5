import FossilCore.Base.ObjectSchema
import FossilCore.Source.Runs

/-!
# Citations

`create_citation` and `resolve_citation` of `source.py`, on the files of a source store and of its
artifact store.  What `int` makes of a float is a parameter.
-/

namespace FossilCore

open Base

namespace Error

def citationIntegrityError (message : String) : Error := ⟨.citationIntegrityError, message⟩

def citationLaunderingError (role : Json) (allowed : List String) : Error :=
  ⟨.citationLaunderingError, "source role " ++ role.pyStr ++ " cannot satisfy required roles " ++
    (strings (sorted allowed)).pyStr⟩

end Error

def optionalInt (n : Option ℤ) : Json := (n.map Json.int).getD .null

/-- `int(value)`, for an integer of the schema. -/
def toInt (truncate : FloatText → ℤ) : Json → Except Error ℤ
  | .int n => .ok n
  | .float x => .ok (truncate x)
  | _ => .error .typeError

namespace SourceSnapshotStore

variable (sha256 : Sha256) (truncate : FloatText → ℤ) (files : SourceFiles)

def snapshotAt (snapshot_id : String) : Except Error Json :=
  ((get_snapshot snapshot_id).run fsStep files.sources).1

def artifactBytes (artifact_id : String) : Except Error ByteArray :=
  ((ArtifactStore.read_bytes artifact_id).run fsStep files.artifacts).1

/-! ## Creating a citation -/

/-- `snapshot["artifact_id"]`; the artifact store removes a prefix from it. -/
def artifactIdOf (snapshot : Json) : Except Error String := do
  match ← liftPy (snapshot.getItem "artifact_id") with
  | .str artifact_id => return artifact_id
  | _ => .error (.ofPython .attributeError)

/-- The digest of the passage, none for the whole artifact. -/
def passageDigest (data : ByteArray) : Option ℤ → Option ℤ → Except Error (Option String)
  | none, none => .ok none
  | some byte_start, some byte_end =>
      if byte_start < 0 ∨ byte_end ≤ byte_start ∨ (data.size : ℤ) < byte_end then
        .error (.valueError "citation span is outside source artifact bounds")
      else .ok (some (sha256.hexdigest (data.extract byte_start.toNat byte_end.toNat)))
  | _, _ => .error (.valueError "citation byte_start and byte_end must be supplied together")

def citationId (snapshot_id artifact_id : String) (byte_start byte_end : Json)
    (digest : Option String) : String :=
  _stable_id sha256 "cite" [snapshot_id, artifact_id, byte_start.pyStr, byte_end.pyStr,
    digest.getD "whole-artifact"] 24

def citationWith (citation_id snapshot_id artifact_id : String) (byte_start byte_end : Json)
    (digest : Option String) : Json :=
  .ofMembers [
    ("schema_version", .str "fossil.citation.v1"),
    ("citation_id", .str citation_id),
    ("snapshot_id", .str snapshot_id),
    ("artifact_id", .str artifact_id),
    ("byte_start", byte_start),
    ("byte_end", byte_end),
    ("passage_hash", (digest.map contentHash).getD .null)]

def citationFor (snapshot_id artifact_id : String) (byte_start byte_end : Option ℤ)
    (digest : Option String) : Json :=
  citationWith (citationId sha256 snapshot_id artifact_id (optionalInt byte_start)
    (optionalInt byte_end) digest) snapshot_id artifact_id (optionalInt byte_start)
    (optionalInt byte_end) digest

def create_citation (snapshot_id : String) (byte_start byte_end : Option ℤ) :
    Except Error Json := do
  let snapshot ← snapshotAt files snapshot_id
  let artifact_id ← artifactIdOf snapshot
  let data ← artifactBytes files artifact_id
  let digest ← passageDigest sha256 data byte_start byte_end
  let citation := citationFor sha256 snapshot_id artifact_id byte_start byte_end digest
  validateSchema citationSchema citation
  return citation

/-! ## Resolving a citation -/

structure ResolvedCitation where
  citation : Json
  snapshot : Json
  bytes : ByteArray
  text : Option String

/-- `snapshot["source_role"] not in allowed_source_roles`, for a set of roles. -/
def checkSourceRole (snapshot : Json) : Option (List String) → Except Error Unit
  | none => .ok ()
  | some allowed => do
      let role ← liftPy (snapshot.getItem "source_role")
      if !role.hashable then .error .typeError
      else if role ∉ allowed.map Json.str then .error (.citationLaunderingError role allowed)
      else return ()

def citedPassage (data : ByteArray) (byte_start byte_end : Json) : Except Error ByteArray :=
  if byte_start = .null then .ok data
  else do
    let first ← toInt truncate byte_start
    let last ← toInt truncate byte_end
    return data.extract first.toNat last.toNat

def checkPassage (passage : ByteArray) (passage_hash : Json) : Except Error Unit :=
  if passage_hash = .null then .ok ()
  else do
    let digest ← liftPy (passage_hash.getItem "digest")
    if .str (sha256.hexdigest passage) ≠ digest then
      .error (.citationIntegrityError "citation passage hash does not match source bytes")
    else return ()

def _decode_text (data : ByteArray) : Option String := (Json.decode data).toOption

def resolve_citation (citation : Json) (allowed_source_roles : Option (List String)) :
    Except Error ResolvedCitation := do
  validateSchema citationSchema citation
  let snapshot ← snapshotAt files (textOf citation "snapshot_id")
  let artifact_id ← liftPy (snapshot.getItem "artifact_id")
  if some artifact_id ≠ citation.get? "artifact_id" then
    .error (.citationIntegrityError
      "citation artifact does not match the immutable source snapshot")
  else
    checkSourceRole snapshot allowed_source_roles
    let data ← artifactBytes files (textOf citation "artifact_id")
    let passage ← citedPassage truncate data ((citation.get? "byte_start").getD .null)
      ((citation.get? "byte_end").getD .null)
    checkPassage sha256 passage ((citation.get? "passage_hash").getD .null)
    return ⟨citation, snapshot, passage, _decode_text passage⟩

/-! ## Spans -/

/-- A span of an artifact that creation accepts: none, or one inside it that is not empty. -/
def InBounds (data : ByteArray) : Option ℤ → Option ℤ → Prop
  | none, none => True
  | some byte_start, some byte_end =>
      0 ≤ byte_start ∧ byte_start < byte_end ∧ byte_end ≤ (data.size : ℤ)
  | _, _ => False

def passageOf (data : ByteArray) : Option ℤ → Option ℤ → ByteArray
  | some byte_start, some byte_end => data.extract byte_start.toNat byte_end.toNat
  | _, _ => data

/-- The digest that creation states for a span. -/
def spanDigest (sha256 : Sha256) (data : ByteArray) (byte_start byte_end : Option ℤ) :
    Option String :=
  byte_start.map fun _ => sha256.hexdigest (passageOf data byte_start byte_end)

section Span

variable {sha256 : Sha256} {truncate : FloatText → ℤ} {data : ByteArray}
  {byte_start byte_end : Option ℤ} {digest : Option String}

theorem optionalInt_inj {m n : Option ℤ} (h : optionalInt m = optionalInt n) : m = n := by
  cases m <;> cases n <;> simp_all [optionalInt]

theorem passageDigest_ok_iff : passageDigest sha256 data byte_start byte_end = .ok digest ↔
    InBounds data byte_start byte_end ∧ digest = spanDigest sha256 data byte_start byte_end := by
  cases byte_start with
  | none => cases byte_end <;> simp [passageDigest, InBounds, spanDigest, eq_comm]
  | some first =>
      cases byte_end with
      | none => simp [passageDigest, InBounds]
      | some last =>
          by_cases h : first < 0 ∨ last ≤ first ∨ (data.size : ℤ) < last
          · have hout : ¬ InBounds data (some first) (some last) := by
              simp only [InBounds]
              omega
            simp [passageDigest, h, hout]
          · have hin : InBounds data (some first) (some last) := by
              simp only [InBounds]
              omega
            simp [passageDigest, h, hin, spanDigest, passageOf, eq_comm]

theorem citedPassage_optionalInt (h : InBounds data byte_start byte_end) :
    citedPassage truncate data (optionalInt byte_start) (optionalInt byte_end) =
      .ok (passageOf data byte_start byte_end) := by
  cases byte_start with
  | none => cases byte_end <;> rfl
  | some first =>
      cases byte_end with
      | none => exact h.elim
      | some last => rfl

end Span

/-! ## What the schema establishes -/

section Schema

variable {c : Json}

/-- A citation that meets the schema, with its members. -/
structure CitationParts (c : Json) (citation_id snapshot_id artifact_id : String)
    (byte_start byte_end : Json) (digest : Option String) : Prop where
  shape : c = citationWith citation_id snapshot_id artifact_id byte_start byte_end digest
  start_null : byte_start = .null → byte_end = .null
  hashed : byte_start ≠ .null → digest.isSome = true

theorem null_or_integer {n : ℤ} {v : Json}
    (h : Schema.allOf [Schema.type [.integer, .null], Schema.minimum n] v = true) :
    v = .null ∨ Schema.type [.integer] v = true := by
  have htype := Schema.allOf_iff.mp h _ List.mem_cons_self
  cases v with
  | null => exact Or.inl rfl
  | int m => exact Or.inr rfl
  | float x => exact Or.inr (by simpa [Schema.type, Schema.hasType] using htype)
  | _ => simp [Schema.type, Schema.hasType] at htype

theorem contentHash_of_schema {v : Json} (hwf : v.WF) (h : contentHashSchema v = true) :
    ∃ digest, v = contentHash digest := by
  have hparts := Schema.allOf_iff.mp h
  have hobj : v.isObj = true := by
    obtain ⟨fields, rfl⟩ := Schema.isObj_of_type (hparts _ List.mem_cons_self)
    rfl
  obtain ⟨algorithm, halgorithm, hconst⟩ :=
    Schema.member_of_object h "algorithm" _ (by simp) List.mem_cons_self
  obtain ⟨digest, hdigest, htext⟩ := Schema.member_of_object h "digest" _ (by simp)
    (List.mem_cons_of_mem _ List.mem_cons_self)
  obtain ⟨text, rfl, -⟩ := Schema.str_of_strings htext
  obtain rfl := of_decide_eq_true hconst
  refine ⟨text, Schema.eq_ofMembers_of_closed hwf hobj (by simp) (hparts _ (by simp)) ?_⟩
  simp only [List.forall_mem_cons, List.not_mem_nil, false_imp_iff, implies_true, and_true]
  exact ⟨halgorithm, hdigest⟩

theorem digest_of_schema {v : Json} (hwf : v.WF)
    (h : Schema.oneOf [Schema.type [.null], contentHashSchema] v = true) :
    ∃ digest : Option String, v = (digest.map contentHash).getD .null := by
  cases hhash : contentHashSchema v with
  | true =>
      obtain ⟨digest, rfl⟩ := contentHash_of_schema hwf hhash
      exact ⟨some digest, rfl⟩
  | false =>
      cases v with
      | null => exact ⟨none, rfl⟩
      | _ => simp [Schema.oneOf, hhash, Schema.type, Schema.hasType] at h

theorem isObj_of_citationSchema (h : citationSchema c = true) : c.isObj = true := by
  obtain ⟨fields, rfl⟩ := Schema.isObj_of_type (Schema.allOf_iff.mp h _ List.mem_cons_self)
  rfl

theorem citation_of_schema (hwf : c.WF) (h : citationSchema c = true) :
    ∃ citation_id snapshot_id artifact_id byte_start byte_end digest,
      CitationParts c citation_id snapshot_id artifact_id byte_start byte_end digest := by
  have hobj := isObj_of_citationSchema h
  simp only [citationSchema, Schema.allOf_iff, List.forall_mem_cons, List.not_mem_nil,
    false_imp_iff, implies_true, and_true] at h
  obtain ⟨-, hclosed, hrequired, hproperties, hstart, hstop⟩ := h
  have hmember : ∀ key ∈ ["schema_version", "citation_id", "snapshot_id", "artifact_id",
      "byte_start", "byte_end", "passage_hash"], ∃ w, c.get? key = some w := by
    intro key hkey
    exact Option.isSome_iff_exists.mp ((Schema.required_iff hobj).mp hrequired key hkey)
  have hwith := fun m hm w hw => (Schema.properties_iff hobj).mp hproperties m hm w hw
  obtain ⟨version, hversion⟩ := hmember "schema_version" (by simp)
  obtain ⟨id, hid⟩ := hmember "citation_id" (by simp)
  obtain ⟨snapshot, hsnapshot⟩ := hmember "snapshot_id" (by simp)
  obtain ⟨artifact, hartifact⟩ := hmember "artifact_id" (by simp)
  obtain ⟨byte_start, hbyte_start⟩ := hmember "byte_start" (by simp)
  obtain ⟨byte_end, hbyte_end⟩ := hmember "byte_end" (by simp)
  obtain ⟨passage_hash, hpassage_hash⟩ := hmember "passage_hash" (by simp)
  obtain rfl := of_decide_eq_true (hwith _ (.head _) _ hversion)
  obtain ⟨citation_id, rfl, -⟩ :=
    Schema.str_of_strings (hwith _ (.tail _ (.head _)) _ hid)
  obtain ⟨snapshot_id, rfl, -⟩ :=
    Schema.str_of_strings (hwith _ (.tail _ (.tail _ (.head _))) _ hsnapshot)
  obtain ⟨artifact_id, rfl, -⟩ :=
    Schema.str_of_strings (hwith _ (.tail _ (.tail _ (.tail _ (.head _)))) _ hartifact)
  have hnull := null_or_integer (hwith _ (.tail _ (.tail _ (.tail _ (.tail _ (.head _))))) _
    hbyte_start)
  have hdigest := digest_of_schema (hwf.of_get? hpassage_hash) (hwith _
    (.tail _ (.tail _ (.tail _ (.tail _ (.tail _ (.tail _ (.head _))))))) _ hpassage_hash)
  obtain ⟨digest, rfl⟩ := hdigest
  have hend := null_or_integer (hwith _
    (.tail _ (.tail _ (.tail _ (.tail _ (.tail _ (.head _)))))) _ hbyte_end)
  refine ⟨citation_id, snapshot_id, artifact_id, byte_start, byte_end, digest, ?_, ?_, ?_⟩
  · apply Schema.eq_ofMembers_of_closed hwf hobj (by simp) (by exact hclosed)
    simp only [List.forall_mem_cons, List.not_mem_nil, false_imp_iff, implies_true, and_true]
    exact ⟨hversion, hid, hsnapshot, hartifact, hbyte_start, hbyte_end, hpassage_hash⟩
  · rintro rfl
    by_contra hne
    have hcondition : Schema.properties [("byte_end", Schema.type [.integer])] c = true := by
      simpa [Schema.properties_iff hobj, hbyte_end] using hend.resolve_left hne
    simp only [Schema.ifThen, hcondition, Bool.not_true, Bool.false_or] at hstop
    simpa [Schema.type, Schema.hasType] using
      (Schema.properties_iff hobj).mp hstop _ (.head _) _ hbyte_start
  · intro hne
    have hcondition : Schema.properties [("byte_start", Schema.type [.integer])] c = true := by
      simpa [Schema.properties_iff hobj, hbyte_start] using hnull.resolve_left hne
    simp only [Schema.ifThen, hcondition, Bool.not_true, Bool.false_or] at hstart
    have hobject := (Schema.properties_iff hobj).mp hstart _ (.tail _ (.head _)) _ hpassage_hash
    cases digest with
    | none => simp [Schema.type, Schema.hasType] at hobject
    | some text => rfl

end Schema

/-! ## Resolved citations -/

section Resolved

variable {sha256 : Sha256} {truncate : FloatText → ℤ} {files : SourceFiles}

section Members

variable (citation_id snapshot_id artifact_id : String) (byte_start byte_end : Json)
  (digest : Option String)

theorem get?_citationWith (key : String) :
    (citationWith citation_id snapshot_id artifact_id byte_start byte_end digest).get? key =
      Json.lookup key [
        ("schema_version", .str "fossil.citation.v1"),
        ("citation_id", .str citation_id),
        ("snapshot_id", .str snapshot_id),
        ("artifact_id", .str artifact_id),
        ("byte_start", byte_start),
        ("byte_end", byte_end),
        ("passage_hash", (digest.map contentHash).getD .null)] :=
  Json.get?_ofMembers_of_nodup (by simp) key

end Members

/-- What creation gives, for the citation's own span, and the passage it stands for. -/
def CreatedAs (sha256 : Sha256) (files : SourceFiles) (citation : Json) (bytes : ByteArray) : Prop :=
  ∃ (byte_start byte_end : Option ℤ) (data : ByteArray),
    citation.get? "byte_start" = some (optionalInt byte_start) ∧
    citation.get? "byte_end" = some (optionalInt byte_end) ∧
    create_citation sha256 files (textOf citation "snapshot_id") byte_start byte_end =
      .ok citation ∧
    artifactBytes files (textOf citation "artifact_id") = .ok data ∧
    InBounds data byte_start byte_end ∧ bytes = passageOf data byte_start byte_end

/-- The digest that a citation states for its passage. -/
def statedDigest (citation : Json) : Option String :=
  (((citation.get? "passage_hash").getD .null).get? "digest").map Json.pyStr

/-- The span is written in integers and lies in the artifact, a citation of the whole artifact
states no digest, and the id is the one of these fields. -/
def Minted (sha256 : Sha256) (data : ByteArray) (citation : Json) : Prop :=
  ∃ byte_start byte_end : Option ℤ,
    citation.get? "byte_start" = some (optionalInt byte_start) ∧
    citation.get? "byte_end" = some (optionalInt byte_end) ∧
    InBounds data byte_start byte_end ∧
    (byte_start = none → statedDigest citation = none) ∧
    textOf citation "citation_id" = citationId sha256 (textOf citation "snapshot_id")
      (textOf citation "artifact_id") (optionalInt byte_start) (optionalInt byte_end)
      (statedDigest citation)

/-- What is read from a citation. -/
structure Reads (c : Json) (citation_id snapshot_id artifact_id : String)
    (byte_start byte_end : Json) (digest : Option String) : Prop where
  citation : textOf c "citation_id" = citation_id
  snapshot : textOf c "snapshot_id" = snapshot_id
  artifact : textOf c "artifact_id" = artifact_id
  get_artifact : c.get? "artifact_id" = some (.str artifact_id)
  start : c.get? "byte_start" = some byte_start
  stop : c.get? "byte_end" = some byte_end
  hash : c.get? "passage_hash" = some ((digest.map contentHash).getD .null)
  stated : statedDigest c = digest

theorem reads_citationWith (citation_id snapshot_id artifact_id : String)
    (byte_start byte_end : Json) (digest : Option String) :
    Reads (citationWith citation_id snapshot_id artifact_id byte_start byte_end digest)
      citation_id snapshot_id artifact_id byte_start byte_end digest := by
  constructor
  case stated =>
    rw [statedDigest, get?_citationWith]
    cases digest with
    | none => rfl
    | some text =>
        have hdigest := Json.getItem_ok_iff.mp (ArtifactLedger.getItem_digest text)
        simp [Json.lookup, hdigest, Json.pyStr]
  all_goals simp [textOf, get?_citationWith, Json.lookup, Json.pyStr]

theorem CitationParts.reads {c : Json} {citation_id snapshot_id artifact_id : String}
    {byte_start byte_end : Json} {digest : Option String}
    (h : CitationParts c citation_id snapshot_id artifact_id byte_start byte_end digest) :
    Reads c citation_id snapshot_id artifact_id byte_start byte_end digest := by
  rw [h.shape]
  exact reads_citationWith citation_id snapshot_id artifact_id byte_start byte_end digest

theorem checkPassage_ok_iff {passage : ByteArray} {digest : Option String} :
    checkPassage sha256 passage ((digest.map contentHash).getD .null) = .ok () ↔
      ∀ text, digest = some text → sha256.hexdigest passage = text := by
  cases digest with
  | none => simp [checkPassage]
  | some text =>
      have hne : contentHash text ≠ .null := by
        intro h
        cases h
      simp only [Option.map_some, Option.getD_some, checkPassage, if_neg hne,
        ArtifactLedger.getItem_digest, liftPy_ok, bind, Except.bind, Option.some.injEq]
      by_cases h : sha256.hexdigest passage = text
      · simp [h, pure, Except.pure]
      · simp [h]

theorem resolve_ok_iff {c : Json} {citation_id snapshot_id artifact_id : String}
    {byte_start byte_end : Json} {digest : Option String} {allowed : Option (List String)}
    {r : ResolvedCitation}
    (hparts : CitationParts c citation_id snapshot_id artifact_id byte_start byte_end digest) :
    resolve_citation sha256 truncate files c allowed = .ok r ↔
      citationSchema c = true ∧ ∃ snapshot data passage,
        snapshotAt files snapshot_id = .ok snapshot ∧
        snapshot.get? "artifact_id" = some (.str artifact_id) ∧
        checkSourceRole snapshot allowed = .ok () ∧
        artifactBytes files artifact_id = .ok data ∧
        citedPassage truncate data byte_start byte_end = .ok passage ∧
        (∀ text, digest = some text → sha256.hexdigest passage = text) ∧
        r = ⟨c, snapshot, passage, _decode_text passage⟩ := by
  have hreads := hparts.reads
  rw [resolve_citation, hreads.snapshot, hreads.artifact, hreads.get_artifact, hreads.start,
    hreads.stop, hreads.hash]
  simp only [Option.getD_some]
  constructor
  · intro h
    obtain ⟨⟨⟩, hschema, h⟩ := bind_eq_ok.mp h
    obtain ⟨snapshot, hsnapshotAt, h⟩ := bind_eq_ok.mp h
    obtain ⟨value, hvalue, h⟩ := bind_eq_ok.mp h
    by_cases hmatch : some value = some (.str artifact_id)
    · rw [if_neg (not_not.mpr hmatch)] at h
      obtain ⟨⟨⟩, hrole, h⟩ := bind_eq_ok.mp h
      obtain ⟨data, hdata, h⟩ := bind_eq_ok.mp h
      obtain ⟨passage, hpassage, h⟩ := bind_eq_ok.mp h
      obtain ⟨⟨⟩, hcheck, h⟩ := bind_eq_ok.mp h
      cases h
      obtain rfl := Option.some.inj hmatch
      exact ⟨validateSchema_ok.mp hschema, snapshot, data, passage, hsnapshotAt,
        Json.getItem_ok_iff.mp (liftPy_eq_ok.mp hvalue), hrole, hdata, hpassage,
        checkPassage_ok_iff.mp hcheck, rfl⟩
    · rw [if_pos hmatch] at h
      cases h
  · rintro ⟨hschema, snapshot, data, passage, hsnapshotAt, hvalue, hrole, hdata, hpassage, hcheck,
      rfl⟩
    refine bind_eq_ok.mpr ⟨(), validateSchema_ok.mpr hschema, bind_eq_ok.mpr
      ⟨snapshot, hsnapshotAt, bind_eq_ok.mpr
        ⟨.str artifact_id, liftPy_eq_ok.mpr (Json.getItem_ok_iff.mpr hvalue), ?_⟩⟩⟩
    rw [if_neg (not_not.mpr rfl)]
    exact bind_eq_ok.mpr ⟨(), hrole, bind_eq_ok.mpr ⟨data, hdata, bind_eq_ok.mpr
      ⟨passage, hpassage, bind_eq_ok.mpr ⟨(), checkPassage_ok_iff.mpr hcheck, rfl⟩⟩⟩⟩

theorem artifactIdOf_ok_iff {snapshot : Json} {artifact_id : String} :
    artifactIdOf snapshot = .ok artifact_id ↔
      snapshot.get? "artifact_id" = some (.str artifact_id) := by
  rw [artifactIdOf, bind_eq_ok]
  simp only [liftPy_eq_ok, Json.getItem_ok_iff]
  constructor
  · rintro ⟨value, hvalue, h⟩
    cases value with
    | str text =>
        cases h
        exact hvalue
    | _ => cases h
  · intro h
    exact ⟨_, h, rfl⟩

theorem create_ok_iff {c : Json} {snapshot_id : String} {byte_start byte_end : Option ℤ} :
    create_citation sha256 files snapshot_id byte_start byte_end = .ok c ↔
      ∃ snapshot artifact_id data, snapshotAt files snapshot_id = .ok snapshot ∧
        snapshot.get? "artifact_id" = some (.str artifact_id) ∧
        artifactBytes files artifact_id = .ok data ∧ InBounds data byte_start byte_end ∧
        c = citationFor sha256 snapshot_id artifact_id byte_start byte_end
          (spanDigest sha256 data byte_start byte_end) ∧
        citationSchema c = true := by
  rw [create_citation]
  constructor
  · intro h
    obtain ⟨snapshot, hsnapshot, h⟩ := bind_eq_ok.mp h
    obtain ⟨artifact_id, hartifact, h⟩ := bind_eq_ok.mp h
    obtain ⟨data, hdata, h⟩ := bind_eq_ok.mp h
    obtain ⟨digest, hdigest, h⟩ := bind_eq_ok.mp h
    obtain ⟨⟨⟩, hschema, h⟩ := bind_eq_ok.mp h
    cases h
    obtain ⟨hbounds, rfl⟩ := passageDigest_ok_iff.mp hdigest
    exact ⟨snapshot, artifact_id, data, hsnapshot, artifactIdOf_ok_iff.mp hartifact, hdata,
      hbounds, rfl, validateSchema_ok.mp hschema⟩
  · rintro ⟨snapshot, artifact_id, data, hsnapshot, hartifact, hdata, hbounds, rfl, hschema⟩
    exact bind_eq_ok.mpr ⟨snapshot, hsnapshot, bind_eq_ok.mpr
      ⟨artifact_id, artifactIdOf_ok_iff.mpr hartifact, bind_eq_ok.mpr
        ⟨data, hdata, bind_eq_ok.mpr ⟨_, passageDigest_ok_iff.mpr ⟨hbounds, rfl⟩, bind_eq_ok.mpr
          ⟨(), validateSchema_ok.mpr hschema, rfl⟩⟩⟩⟩⟩

/-- A citation that resolves is the one that creation gives for its span, and resolves to the
passage of that span, exactly when it is minted. -/
theorem createdAs_iff {c : Json} {allowed : Option (List String)} {r : ResolvedCitation}
    (hwf : c.WF) (h : resolve_citation sha256 truncate files c allowed = .ok r) :
    CreatedAs sha256 files c r.bytes ↔
      ∃ data, artifactBytes files (textOf c "artifact_id") = .ok data ∧ Minted sha256 data c := by
  have hschema : citationSchema c = true := by
    obtain ⟨⟨⟩, hschema, -⟩ := bind_eq_ok.mp h
    exact validateSchema_ok.mp hschema
  obtain ⟨citation_id, snapshot_id, artifact_id, start, stop, digest, hparts⟩ :=
    citation_of_schema hwf hschema
  obtain ⟨-, snapshot, data, passage, hsnapshotAt, hvalue, -, hdata, hpassage, hcheck, rfl⟩ :=
    (resolve_ok_iff hparts).mp h
  have hreads := hparts.reads
  constructor
  · rintro ⟨byte_start, byte_end, data', hbs, hbe, hcreate, hdata', hbounds, -⟩
    obtain ⟨snapshot', artifact_id', data'', -, -, -, -, hshape, -⟩ := create_ok_iff.mp hcreate
    have hcreated := reads_citationWith (citationId sha256 (textOf c "snapshot_id") artifact_id'
      (optionalInt byte_start) (optionalInt byte_end) (spanDigest sha256 data'' byte_start
        byte_end)) (textOf c "snapshot_id") artifact_id' (optionalInt byte_start)
      (optionalInt byte_end) (spanDigest sha256 data'' byte_start byte_end)
    rw [show citationWith _ _ _ _ _ _ = c from hshape.symm] at hcreated
    refine ⟨data', hdata', byte_start, byte_end, hbs, hbe, hbounds, ?_, ?_⟩
    · rintro rfl
      exact hcreated.stated
    · rw [hcreated.citation, hcreated.artifact, hcreated.stated]
  · rintro ⟨data', hdata', byte_start, byte_end, hbs, hbe, hbounds, hwhole, hminted⟩
    rw [hreads.artifact, hdata] at hdata'
    obtain rfl := Except.ok.inj hdata'
    rw [hreads.start] at hbs
    rw [hreads.stop] at hbe
    obtain rfl := Option.some.inj hbs
    obtain rfl := Option.some.inj hbe
    rw [citedPassage_optionalInt hbounds] at hpassage
    obtain rfl := Except.ok.inj hpassage
    have hdigest : digest = spanDigest sha256 data byte_start byte_end := by
      cases byte_start with
      | none => rw [← hreads.stated, hwhole rfl, spanDigest, Option.map_none]
      | some first =>
          obtain ⟨text, htext⟩ := Option.isSome_iff_exists.mp
            (hparts.hashed (by simp [optionalInt]))
          rw [htext, spanDigest, Option.map_some, hcheck text htext]
    have hid : citation_id = citationId sha256 snapshot_id artifact_id (optionalInt byte_start)
        (optionalInt byte_end) digest := by
      rw [← hreads.citation, hminted, hreads.snapshot, hreads.artifact, hreads.stated]
    refine ⟨byte_start, byte_end, data, hreads.start, hreads.stop, ?_,
      by rw [hreads.artifact]; exact hdata, hbounds, rfl⟩
    rw [hreads.snapshot]
    refine create_ok_iff.mpr ⟨snapshot, artifact_id, data, hsnapshotAt, hvalue, hdata, hbounds, ?_,
      hschema⟩
    rw [← hdigest, citationFor, ← hid]
    exact hparts.shape

end Resolved

/-! ## Citations that were created -/

section Created

variable {sha256 : Sha256} {truncate : FloatText → ℤ} {formats : FormatChecker}
  {files files' : SourceFiles} {l l' : ArtifactLedger}

/-- The citation resolves, to the passage of the span. -/
def ResolvesTo (sha256 : Sha256) (truncate : FloatText → ℤ) (files : SourceFiles)
    (citation : Json) (bytes : ByteArray) : Prop :=
  ∃ r, resolve_citation sha256 truncate files citation none = .ok r ∧ r.bytes = bytes

theorem parts_citationFor (sha256 : Sha256) {data : ByteArray} {byte_start byte_end : Option ℤ}
    (hbounds : InBounds data byte_start byte_end) (snapshot_id artifact_id : String) :
    CitationParts (citationFor sha256 snapshot_id artifact_id byte_start byte_end
        (spanDigest sha256 data byte_start byte_end))
      (citationId sha256 snapshot_id artifact_id (optionalInt byte_start) (optionalInt byte_end)
        (spanDigest sha256 data byte_start byte_end))
      snapshot_id artifact_id (optionalInt byte_start) (optionalInt byte_end)
      (spanDigest sha256 data byte_start byte_end) := by
  refine ⟨rfl, ?_, ?_⟩
  · cases byte_start with
    | none =>
        cases byte_end with
        | none => exact fun _ => rfl
        | some last => exact hbounds.elim
    | some first => exact fun hnull => by cases hnull
  · cases byte_start with
    | none => exact fun hne => absurd rfl hne
    | some first => exact fun _ => rfl

/-- Wherever its snapshot and its artifact can be read, a created citation resolves. -/
theorem resolvesTo_of_create {c : Json} {snapshot_id : String} {byte_start byte_end : Option ℤ}
    (h : create_citation sha256 files snapshot_id byte_start byte_end = .ok c)
    (hsnapshot : ∀ snapshot, snapshotAt files snapshot_id = .ok snapshot →
      snapshotAt files' snapshot_id = .ok snapshot)
    (hbytes : ∀ data, artifactBytes files (textOf c "artifact_id") = .ok data →
      artifactBytes files' (textOf c "artifact_id") = .ok data) :
    ∃ data, artifactBytes files (textOf c "artifact_id") = .ok data ∧
      InBounds data byte_start byte_end ∧
      ResolvesTo sha256 truncate files' c (passageOf data byte_start byte_end) := by
  obtain ⟨snapshot, artifact_id, data, hat, hvalue, hdata, hbounds, hshape, hschema⟩ :=
    create_ok_iff.mp h
  have hparts := parts_citationFor sha256 hbounds snapshot_id artifact_id
  rw [← hshape] at hparts
  rw [hparts.reads.artifact] at hbytes ⊢
  refine ⟨data, hdata, hbounds, _, (resolve_ok_iff hparts).mpr ⟨hschema, snapshot, data,
    passageOf data byte_start byte_end, hsnapshot snapshot hat, hvalue, rfl, hbytes data hdata,
    citedPassage_optionalInt hbounds, ?_, rfl⟩, rfl⟩
  intro text htext
  cases byte_start with
  | none => cases htext
  | some first => exact Option.some.inj htext

theorem snapshotAt_mono
    (h : ∀ (path : Path) data, files.sources[path]? = some data →
      files'.sources[path]? = some data) {snapshot_id : String} {snapshot : Json}
    (hat : snapshotAt files snapshot_id = .ok snapshot) :
    snapshotAt files' snapshot_id = .ok snapshot := by
  rw [snapshotAt, get_snapshot, run_readJson] at hat ⊢
  cases hfile : files.sources[snapshot_path snapshot_id]? with
  | none =>
      rw [hfile] at hat
      cases hat
  | some data =>
      rw [hfile] at hat
      rw [h _ data hfile]
      exact hat

theorem artifact_id_of_schema {c : Json} (h : citationSchema c = true) :
    ∃ id : ArtifactId, textOf c "artifact_id" = id.text := by
  have hobj := isObj_of_citationSchema h
  simp only [citationSchema, Schema.allOf_iff, List.forall_mem_cons, List.not_mem_nil,
    false_imp_iff, implies_true, and_true] at h
  obtain ⟨-, -, hrequired, hproperties, -⟩ := h
  obtain ⟨w, hw⟩ := Option.isSome_iff_exists.mp
    ((Schema.required_iff hobj).mp hrequired "artifact_id" (by simp))
  have hschema := (Schema.properties_iff hobj).mp hproperties _
    (.tail _ (.tail _ (.tail _ (.head _)))) w hw
  obtain ⟨text, rfl, hpattern⟩ := Schema.str_of_strings hschema
  exact ⟨⟨text, hpattern _ List.mem_cons_self⟩, textOf_of_get? hw⟩

/-- After any calls a created citation resolves to its passage, while its artifact is not
redacted. -/
theorem resolvesTo_later (h : Consistent sha256 formats l files)
    (h' : Consistent sha256 formats l' files') (hlater : Later l l' files.sources files'.sources)
    {c : Json} {snapshot_id : String} {byte_start byte_end : Option ℤ}
    (hcreate : create_citation sha256 files snapshot_id byte_start byte_end = .ok c)
    (hkept : ((ArtifactStore.is_redacted (textOf c "artifact_id")).run fsStep
      files'.artifacts).1 = .ok false) :
    ∃ data, artifactBytes files (textOf c "artifact_id") = .ok data ∧
      InBounds data byte_start byte_end ∧
      ResolvesTo sha256 truncate files' c (passageOf data byte_start byte_end) := by
  refine resolvesTo_of_create hcreate (fun _ hat => snapshotAt_mono hlater.files hat) ?_
  intro data hdata
  obtain ⟨-, -, -, -, -, -, -, -, hschema⟩ := create_ok_iff.mp hcreate
  obtain ⟨id, hid⟩ := artifact_id_of_schema hschema
  rw [hid] at hdata hkept ⊢
  rw [ArtifactStore.run_is_redacted h'.stored.holds id] at hkept
  have hnone : l'.redactions[id.text]? = none := by
    apply Option.not_isSome_iff_eq_none.mp
    intro hsome
    rw [hsome] at hkept
    cases hkept
  exact (ArtifactStore.read_bytes_eq_ok h'.stored id).mpr (hlater.bytes id data
    ((ArtifactStore.read_bytes_eq_ok h.stored id).mp hdata) hnone)

/-- A citation that resolves is the one that creation gives for its own span, with the passage of
that span, exactly when it is minted: its span is written in integers and lies in the artifact, it
states a digest only with a span, and its id is the one of its fields.  A created citation resolves
to its passage, at once and after any calls that leave its artifact unredacted. -/
theorem resolution_iff_minted (sha256 : Sha256) (truncate : FloatText → ℤ)
    (formats : FormatChecker) :
    (∀ (files : SourceFiles) (c : Document) allowed r,
      resolve_citation sha256 truncate files c.value allowed = .ok r →
        (CreatedAs sha256 files c.value r.bytes ↔
          ∃ data, artifactBytes files (textOf c.value "artifact_id") = .ok data ∧
            Minted sha256 data c.value)) ∧
      (∀ (files : SourceFiles) snapshot_id byte_start byte_end c,
        create_citation sha256 files snapshot_id byte_start byte_end = .ok c →
          ∃ data, artifactBytes files (textOf c "artifact_id") = .ok data ∧
            InBounds data byte_start byte_end ∧
            ResolvesTo sha256 truncate files c (passageOf data byte_start byte_end)) ∧
      ∀ calls later snapshot_id byte_start byte_end c,
        create_citation sha256 (Runs.after (step sha256 formats) ⟨∅, ∅⟩ calls) snapshot_id
            byte_start byte_end = .ok c →
          ((ArtifactStore.is_redacted (textOf c "artifact_id")).run fsStep
            (Runs.after (step sha256 formats) ⟨∅, ∅⟩ (calls ++ later)).artifacts).1 = .ok false →
          ∃ data, artifactBytes (Runs.after (step sha256 formats) ⟨∅, ∅⟩ calls)
              (textOf c "artifact_id") = .ok data ∧
            InBounds data byte_start byte_end ∧
            ResolvesTo sha256 truncate (Runs.after (step sha256 formats) ⟨∅, ∅⟩ (calls ++ later))
              c (passageOf data byte_start byte_end) := by
  refine ⟨fun files c allowed r h => createdAs_iff c.wf h, ?_, ?_⟩
  · intro files snapshot_id byte_start byte_end c hcreate
    exact resolvesTo_of_create hcreate (fun _ h => h) fun _ h => h
  · intro calls later snapshot_id byte_start byte_end c hcreate hkept
    obtain ⟨l, h, -⟩ := consistent_run (consistent_empty sha256 formats) calls
    rw [Runs.after_append] at hkept ⊢
    obtain ⟨l', h', hlater, -⟩ := consistent_run h later
    exact resolvesTo_later h h' hlater hcreate hkept

end Created

/-! ## A small source store

One snapshot of one artifact. -/

section Sample

def evidenceText : ByteArray := "evidence".toUTF8

def evidenceDigest : String := "ee8250fb76e094b34b471f13a73dbbe51d1ae142e9df59d7c0d31ec20f0a0a8e"

theorem hexdigest_evidenceText : Sha256.hashlib.hexdigest evidenceText = evidenceDigest := by
  decide +kernel

def evidenceCall : SnapshotCall where
  call := {
    data := evidenceText
    locator := .ofMembers [("url", .str "https://example.org/evidence")]
    retrieved_at := "2026-01-01T00:00:00Z"
    source_role := "primary"
    quality := .ofMembers (qualityKeys.map fun key => (key, .null))
    published_at := none
    version_metadata := none
    derivation := none
    media_type := "text/plain"
    source_id := some "source_01234567"
    blob_uuid := "u1"
    manifest_uuid := "u2"
    snapshot_uuid := "u3" }
  locator := by decide +kernel
  quality := by decide +kernel
  version v h := by cases h
  derivation v h := by cases h

def evidenceLocator : Json :=
  .ofMembers [("url", .str "https://example.org/evidence"), ("identifier", .null),
    ("repository_ref", .null)]

def evidenceSnapshotId : String := "snap_c6c27bdcddcf63fd21218dea"

theorem snapshotId_evidence : snapshotId .hashlib "source_01234567" evidenceDigest
    "2026-01-01T00:00:00Z" (versionOf evidenceCall.call) = evidenceSnapshotId := by
  decide +kernel

def evidenceSnapshot : Json :=
  snapshotWith .hashlib evidenceCall.call evidenceLocator "source_01234567"

theorem evidenceSnapshot_eq : evidenceSnapshot = .ofMembers [
    ("schema_version", .str "fossil.source-snapshot.v1"),
    ("snapshot_id", .str evidenceSnapshotId),
    ("source_id", .str "source_01234567"),
    ("source_role", .str "primary"),
    ("locator", evidenceLocator),
    ("retrieved_at", .str "2026-01-01T00:00:00Z"),
    ("published_at", .null),
    ("artifact_id", .str (artifact_id_for_digest evidenceDigest)),
    ("content_hash", contentHash evidenceDigest),
    ("version_metadata", versionOf evidenceCall.call),
    ("quality", evidenceCall.call.quality),
    ("derivation", .null)] := by
  have hid := snapshotId_evidence
  rw [← hexdigest_evidenceText] at hid
  rw [evidenceSnapshot, snapshotWith, ← hexdigest_evidenceText, ← hid]
  rfl

theorem schema_evidence : snapshotSchema StoreConfig.plain.formats evidenceSnapshot = true := by
  rw [evidenceSnapshot_eq]
  decide +kernel

theorem textOf_evidence : textOf evidenceSnapshot "snapshot_id" = evidenceSnapshotId := by
  apply textOf_of_get?
  rw [evidenceSnapshot_eq, Json.get?_ofMembers]
  rfl

/-- The store that has the snapshot. -/
def evidenceFiles : SourceFiles :=
  Runs.after (step .hashlib StoreConfig.plain.formats) ⟨∅, ∅⟩ [.put_snapshot evidenceCall]

theorem put_evidence : ∃ artifacts,
    put_snapshot .hashlib StoreConfig.plain.formats evidenceCall.call ⟨∅, ∅⟩ =
      (.ok evidenceSnapshot, ⟨(∅ : Files).insert (snapshot_path evidenceSnapshotId)
        evidenceSnapshot.canonical, artifacts⟩) ∧
    (ArtifactLedger.model .hashlib).StoredAs ArtifactStore.layout
      (ArtifactLedger.empty.put_bytes .hashlib evidenceText "text/plain").2 artifacts ∧
    (ArtifactLedger.empty.put_bytes .hashlib evidenceText "text/plain").2.Has .hashlib evidenceText
      "text/plain" := by
  have h := consistent_empty .hashlib StoreConfig.plain.formats
  have hnormalized : normalized_locator evidenceCall.call.locator = .ok evidenceLocator := by
    decide +kernel
  have hfree : (∅ : Files)[snapshot_path (textOf evidenceSnapshot "snapshot_id")]? = none := by
    simp
  obtain ⟨artifacts, hrun, hstored, hhas⟩ := put_snapshot_ok h.stored h.documents evidenceCall
    hnormalized rfl (put_bytes_empty .hashlib _ _) rfl schema_evidence hfree
  rw [show snapshotWith .hashlib evidenceCall.call evidenceLocator "source_01234567" =
    evidenceSnapshot from rfl, textOf_evidence] at hrun
  exact ⟨artifacts, hrun, hstored, hhas⟩

theorem snapshotAt_evidence : snapshotAt evidenceFiles evidenceSnapshotId = .ok evidenceSnapshot := by
  obtain ⟨artifacts, hrun, -, -⟩ := put_evidence
  have hfile : evidenceFiles.sources[snapshot_path evidenceSnapshotId]? =
      some evidenceSnapshot.canonical := by
    rw [evidenceFiles, Runs.after_cons, Runs.after_nil, step, hrun]
    exact KeyMap.get?_insert_self _ _ _
  have hwf : evidenceSnapshot.WF := evidenceCall.wf_snapshotWith .hashlib (by decide +kernel) _
  rw [snapshotAt, get_snapshot, run_readJson_some hfile (Json.loadText_canonical hwf)]

theorem evidenceArtifact_eq :
    (Sha256.hashlib.digest evidenceText).artifactId.text = artifact_id_for_digest evidenceDigest := by
  rw [← hexdigest_evidenceText]
  rfl

theorem artifactBytes_evidence :
    artifactBytes evidenceFiles (artifact_id_for_digest evidenceDigest) = .ok evidenceText := by
  obtain ⟨artifacts, hrun, hstored, hhas⟩ := put_evidence
  have hsame : evidenceFiles.artifacts = artifacts := by
    rw [evidenceFiles, Runs.after_cons, Runs.after_nil, step, hrun]
  rw [artifactBytes, hsame, ← evidenceArtifact_eq]
  exact (ArtifactStore.read_bytes_eq_ok hstored _).mpr hhas.read_bytes

/-- A citation that ends beyond the artifact, with the digest of all of it. -/
def overlongCitation : Json :=
  citationWith "cite_000000000000" evidenceSnapshotId (artifact_id_for_digest evidenceDigest)
    (.int 0) (.int 99) (some evidenceDigest)

theorem resolve_overlong : ∃ r, resolve_citation .hashlib (fun _ => 0) evidenceFiles
    overlongCitation none = .ok r := by
  have hparts : CitationParts overlongCitation "cite_000000000000" evidenceSnapshotId
      (artifact_id_for_digest evidenceDigest) (.int 0) (.int 99) (some evidenceDigest) :=
    ⟨rfl, fun h => (by cases h), fun _ => rfl⟩
  have hvalue : evidenceSnapshot.get? "artifact_id" =
      some (.str (artifact_id_for_digest evidenceDigest)) := by
    rw [evidenceSnapshot_eq, Json.get?_ofMembers]
    rfl
  have hall : evidenceText.extract 0 99 = evidenceText := by decide +kernel
  refine ⟨_, (resolve_ok_iff hparts).mpr ⟨by decide +kernel, evidenceSnapshot, evidenceText,
    evidenceText, snapshotAt_evidence, hvalue, rfl, artifactBytes_evidence, ?_, ?_, rfl⟩⟩
  · exact congrArg Except.ok hall
  · intro text htext
    rw [hexdigest_evidenceText]
    exact Option.some.inj htext

/-- It resolves, and creation gives no such citation. -/
theorem overlong_citation_resolves :
    (∃ r, resolve_citation .hashlib (fun _ => 0) evidenceFiles overlongCitation none = .ok r) ∧
      ∀ bytes, ¬ CreatedAs .hashlib evidenceFiles overlongCitation bytes := by
  refine ⟨resolve_overlong, ?_⟩
  rintro bytes ⟨byte_start, byte_end, data, hstart, hend, -, hdata, hbounds, -⟩
  have hreads := reads_citationWith "cite_000000000000" evidenceSnapshotId
    (artifact_id_for_digest evidenceDigest) (.int 0) (.int 99) (some evidenceDigest)
  rw [show citationWith _ _ _ _ _ _ = overlongCitation from rfl] at hreads
  rw [hreads.artifact, artifactBytes_evidence] at hdata
  obtain rfl := Except.ok.inj hdata
  rw [hreads.start] at hstart
  rw [hreads.stop] at hend
  have hfirst : optionalInt (some 0) = optionalInt byte_start := Option.some.inj hstart
  have hlast : optionalInt (some 99) = optionalInt byte_end := Option.some.inj hend
  rw [← optionalInt_inj hfirst, ← optionalInt_inj hlast] at hbounds
  have hsize : evidenceText.size = 8 := by decide +kernel
  simp [InBounds, hsize] at hbounds

theorem create_evidence : ∃ c, create_citation .hashlib evidenceFiles evidenceSnapshotId none none =
    .ok c ∧ textOf c "artifact_id" = artifact_id_for_digest evidenceDigest := by
  refine ⟨_, create_ok_iff.mpr ⟨evidenceSnapshot, artifact_id_for_digest evidenceDigest,
    evidenceText, snapshotAt_evidence, ?_, artifactBytes_evidence, trivial, rfl, ?_⟩,
    (reads_citationWith _ _ _ _ _ _).artifact⟩
  · rw [evidenceSnapshot_eq, Json.get?_ofMembers]
    rfl
  · decide +kernel

theorem is_redacted_evidence : ((ArtifactStore.is_redacted (artifact_id_for_digest
    evidenceDigest)).run fsStep evidenceFiles.artifacts).1 = .ok false := by
  obtain ⟨artifacts, hrun, hstored, hhas⟩ := put_evidence
  have hsame : evidenceFiles.artifacts = artifacts := by
    rw [evidenceFiles, Runs.after_cons, Runs.after_nil, step, hrun]
  rw [hsame, ← evidenceArtifact_eq, ArtifactStore.run_is_redacted hstored.holds]
  exact congrArg (fun t : Option Json => Except.ok t.isSome) hhas.unredacted

theorem resolution_iff_minted_evidence :
    (∃ r : ResolvedCitation, CreatedAs .hashlib evidenceFiles overlongCitation r.bytes ↔
      ∃ data, artifactBytes evidenceFiles (textOf overlongCitation "artifact_id") = .ok data ∧
        Minted .hashlib data overlongCitation) ∧
      ∃ c data, ResolvesTo .hashlib (fun _ => 0) evidenceFiles c (passageOf data none none) := by
  obtain ⟨hresolved, -, hlater⟩ :=
    resolution_iff_minted .hashlib (fun _ => 0) StoreConfig.plain.formats
  obtain ⟨r, hr⟩ := resolve_overlong
  obtain ⟨c, hcreate, hartifact⟩ := create_evidence
  have hkept := is_redacted_evidence
  rw [← hartifact] at hkept
  obtain ⟨data, -, -, hresolves⟩ :=
    hlater [.put_snapshot evidenceCall] [] evidenceSnapshotId none none c hcreate hkept
  exact ⟨⟨r, hresolved evidenceFiles ⟨overlongCitation, by decide +kernel⟩ none r hr⟩, c, data,
    hresolves⟩

end Sample

end SourceSnapshotStore

end FossilCore
