import FossilCore.Base.Occurrences
import FossilCore.Conversation.Committed

/-!
# Spans of a text

`span_for_text` finds an occurrence of a text in an artifact, and `resolve_span_bytes` reads a span
of an envelope back.  The occurrences of a text that do not overlap are counted from the left.
-/

namespace FossilCore

open Base

namespace ConversationStore

/-! ## The search -/

/-- The bytes stand in the data from this position on. -/
def OccursAt (data target : ByteArray) (i : ℕ) : Prop :=
  i + target.size ≤ data.size ∧ data.extract i (i + target.size) = target

instance (data target : ByteArray) (i : ℕ) : Decidable (OccursAt data target i) :=
  inferInstanceAs (Decidable (_ ∧ _))

variable {data target : ByteArray} {cursor start n : ℕ}

theorem findBytes_eq_some :
    findBytes data target cursor = some start ↔
      IsLeast {i | Behind (OccursAt data target) cursor i} start := by
  rw [findBytes, List.find?_range'_eq_some, List.mem_range'_1, decide_eq_true_eq]
  constructor
  · rintro ⟨hsame, ⟨hcursor, hstart⟩, hbefore⟩
    refine ⟨⟨hcursor, by omega, hsame⟩, ?_⟩
    rintro i ⟨hi, -, hoccurs⟩
    by_contra hlt
    have hnot := hbefore i hi (by omega)
    rw [decide_eq_true hoccurs] at hnot
    cases hnot
  · rintro ⟨⟨hcursor, hsize, hsame⟩, hleast⟩
    refine ⟨hsame, ⟨hcursor, by omega⟩, fun i hi hlt => ?_⟩
    rw [Bool.not_eq_true', decide_eq_false_iff_not]
    intro hoccurs
    have hle := hleast ⟨hi, by omega, hoccurs⟩
    omega

theorem findBytes_eq_none :
    findBytes data target cursor = none ↔ ∀ i, ¬ Behind (OccursAt data target) cursor i := by
  constructor
  · rintro h i ⟨hi, hsize, hoccurs⟩
    rw [findBytes, List.find?_range'_eq_none] at h
    have hnot := h i hi (by omega)
    rw [decide_eq_true hoccurs] at hnot
    cases hnot
  · intro h
    cases hfind : findBytes data target cursor with
    | none => rfl
    | some start => exact absurd (findBytes_eq_some.mp hfind).1 (h start)

/-- The search from the left finds the occurrence with this number. -/
theorem occurrenceFrom_eq_some :
    occurrenceFrom data target n cursor = some start ↔
      IsKth (Behind (OccursAt data target) cursor) target.size n start := by
  induction n generalizing cursor with
  | zero => rw [occurrenceFrom, findBytes_eq_some, isKth_zero]
  | succ n ih =>
      rw [occurrenceFrom]
      cases hfirst : findBytes data target cursor with
      | none =>
          constructor
          · exact fun h => nomatch h
          · rintro ⟨⟨front, -, h⟩, -⟩
            obtain ⟨i, hi⟩ := exists_of_apart h
            exact absurd hi (findBytes_eq_none.mp hfirst i)
      | some first =>
          rw [isKth_succ (findBytes_eq_some.mp hfirst), ← ih]
          rfl

theorem occurrence_eq_some :
    occurrenceFrom data target n 0 = some start ↔
      IsKth (OccursAt data target) target.size n start := by
  rw [occurrenceFrom_eq_some, behind_zero]

theorem occursAt_of_isKth (h : IsKth (OccursAt data target) target.size n start) :
    OccursAt data target start := by
  obtain ⟨⟨front, -, hapart⟩, -⟩ := h
  exact hapart.all start (List.mem_append_right _ List.mem_cons_self)

/-- Every position has the empty text. -/
theorem isKth_empty (data : ByteArray) (n : ℕ) :
    IsKth (OccursAt data "".toUTF8) "".toUTF8.size n 0 := by
  change IsKth (OccursAt data ByteArray.empty) ByteArray.empty.size n 0
  have hoccurs : OccursAt data ByteArray.empty 0 := by
    refine ⟨Nat.zero_le _, ?_⟩
    rw [ByteArray.extract_eq_empty_iff]
    exact Nat.min_le_left _ _
  refine ⟨⟨List.replicate n 0, List.length_replicate, fun i hi => ?_, ?_⟩,
    fun i _ => Nat.zero_le i⟩
  · rw [← List.replicate_succ'] at hi
    rw [List.eq_of_mem_replicate hi]
    exact hoccurs
  · rw [← List.replicate_succ', List.pairwise_replicate]
    exact Or.inr le_rfl

/-! ## Spans -/

section Spans

variable {sha256 : Sha256} {truncate : FloatText → ℤ} {artifacts : Files}

/-- The source is described as `add_source` describes it. -/
structure Describes (source : Json) (source_id artifact_id : String) : Prop where
  source_id : source.get? "source_id" = some (.str source_id)
  artifact_id : source.get? "artifact_id" = some (.str artifact_id)
  evidence_status : ∃ status, source.get? "evidence_status" = some status

def spanId (sha256 : Sha256) (source_id status : String) (start stop : ℕ) : String :=
  _stable_id sha256 "span" [source_id, toString start, toString stop, status] 20

def spanAt (sha256 : Sha256) (source_id status : String) (start stop : ℕ) : Json :=
  .ofMembers [
    ("span_id", .str (spanId sha256 source_id status start stop)),
    ("source_id", .str source_id),
    ("byte_start", .int start),
    ("byte_end", .int stop),
    ("evidence_status", .str status)]

variable {source : Json} {source_id artifact_id : String} {occurrence : ℤ}
  {evidence_status : Option String}

theorem spanStatus_ok (h : Describes source source_id artifact_id)
    (evidence_status : Option String) : ∃ status, spanStatus source evidence_status = .ok status := by
  obtain ⟨stated, hstated⟩ := h.evidence_status
  have hitem : liftPy (source.getItem "evidence_status") = .ok stated :=
    liftPy_eq_ok.mpr (Json.getItem_of_get? hstated)
  cases evidence_status with
  | none => exact ⟨stated.pyStr, bind_eq_ok.mpr ⟨stated, hitem, rfl⟩⟩
  | some status =>
      by_cases hstatus : status = ""
      · refine ⟨stated.pyStr, ?_⟩
        rw [spanStatus, if_pos hstatus]
        exact bind_eq_ok.mpr ⟨stated, hitem, rfl⟩
      · exact ⟨status, if_neg hstatus⟩

theorem span_for_text_eq (h : Describes source source_id artifact_id) (hoccurrence : 0 ≤ occurrence)
    (hdata : artifactBytes artifacts artifact_id = .ok data) {status : String}
    (hstatus : spanStatus source evidence_status = .ok status) (needle : String) :
    span_for_text sha256 artifacts source needle occurrence evidence_status =
      match occurrenceFrom data needle.toUTF8 occurrence.toNat 0 with
      | none => .error (.valueError ("source text not found: " ++ Text.repr needle))
      | some start => .ok (spanAt sha256 source_id status start (start + needle.toUTF8.size)) := by
  have hid : liftPy (source.getItem "source_id") = .ok (.str source_id) :=
    liftPy_eq_ok.mpr (Json.getItem_of_get? h.source_id)
  have hartifact : liftPy (source.getItem "artifact_id") = .ok (.str artifact_id) :=
    liftPy_eq_ok.mpr (Json.getItem_of_get? h.artifact_id)
  rw [span_for_text, if_neg (not_lt.mpr hoccurrence), hartifact]
  change (artifactBytes artifacts artifact_id >>= _) = _
  rw [hdata]
  dsimp only [bind, Except.bind]
  cases occurrenceFrom data needle.toUTF8 occurrence.toNat 0 with
  | none => rfl
  | some start =>
      dsimp only
      rw [hstatus, hid]
      rfl

/-- A span is returned exactly for an occurrence with the number that was asked for. -/
theorem span_for_text_eq_ok (h : Describes source source_id artifact_id) {needle : String}
    {span : Json} :
    span_for_text sha256 artifacts source needle occurrence evidence_status = .ok span ↔
      0 ≤ occurrence ∧ ∃ data status start, artifactBytes artifacts artifact_id = .ok data ∧
        spanStatus source evidence_status = .ok status ∧
        IsKth (OccursAt data needle.toUTF8) needle.toUTF8.size occurrence.toNat start ∧
        span = spanAt sha256 source_id status start (start + needle.toUTF8.size) := by
  obtain ⟨status, hstatus⟩ := spanStatus_ok h evidence_status
  constructor
  · intro hspan
    have hoccurrence : 0 ≤ occurrence := by
      by_contra hneg
      rw [span_for_text, if_pos (not_le.mp hneg)] at hspan
      cases hspan
    have hopen := hspan
    rw [span_for_text, if_neg (not_lt.mpr hoccurrence)] at hopen
    obtain ⟨stated, hstated, hopen⟩ := bind_eq_ok.mp hopen
    obtain ⟨data, hdata, -⟩ := bind_eq_ok.mp hopen
    have hsame : stated = .str artifact_id := by
      have hget := Json.getItem_ok_iff.mp (liftPy_eq_ok.mp hstated)
      exact Option.some.inj (hget.symm.trans h.artifact_id)
    rw [hsame] at hdata
    rw [span_for_text_eq h hoccurrence hdata hstatus] at hspan
    cases hfind : occurrenceFrom data needle.toUTF8 occurrence.toNat 0 with
    | none =>
        rw [hfind] at hspan
        cases hspan
    | some start =>
        rw [hfind] at hspan
        exact ⟨hoccurrence, data, status, start, hdata, hstatus, occurrence_eq_some.mp hfind,
          (Except.ok.inj hspan).symm⟩
  · rintro ⟨hoccurrence, data, status', start, hdata, hstatus', hkth, rfl⟩
    rw [span_for_text_eq h hoccurrence hdata hstatus', occurrence_eq_some.mpr hkth]

/-! ## Reading a span back -/

/-- The envelope has the source and the span, and nothing else under their ids. -/
structure HoldsSpan (envelope source span : Json) : Prop where
  source_mem : source ∈ sourcesOf envelope
  source_only : ∀ other ∈ sourcesOf envelope,
    strAt other "source_id" = strAt source "source_id" → other = source
  span_mem : span ∈ spansOf envelope
  span_only : ∀ other ∈ spansOf envelope, strAt other "span_id" = strAt span "span_id" →
    other = span

theorem find?_eq_of_only {key : String} {xs : List Json} {x : Json} (hx : x ∈ xs)
    (honly : ∀ y ∈ xs, strAt y key = strAt x key → y = x) {id : String}
    (hid : strAt x key = id) : (xs.find? fun y => strAt y key = id) = some x := by
  cases hfind : xs.find? fun y => strAt y key = id with
  | none =>
      have hnone := List.find?_eq_none.mp hfind x hx
      simp [hid] at hnone
  | some y =>
      obtain ⟨hy, hsame⟩ := mem_of_find? hfind
      rw [honly y hy (hsame.trans hid.symm)]

theorem get?_spanAt (source_id status : String) (start stop : ℕ) :
    (spanAt sha256 source_id status start stop).get? "span_id" =
        some (.str (spanId sha256 source_id status start stop)) ∧
      (spanAt sha256 source_id status start stop).get? "source_id" = some (.str source_id) ∧
      (spanAt sha256 source_id status start stop).get? "byte_start" = some (.int start) ∧
      (spanAt sha256 source_id status start stop).get? "byte_end" = some (.int stop) ∧
      (spanAt sha256 source_id status start stop).get? "evidence_status" = some (.str status) := by
  simp only [spanAt, Json.get?_ofMembers]
  exact ⟨rfl, rfl, rfl, rfl, rfl⟩

theorem integerAt_int {v : Json} {key : String} {n : ℤ} (h : v.get? key = some (.int n)) :
    integerAt truncate v key = n := by
  rw [integerAt, h]

/-- What a span of an envelope resolves to. -/
theorem resolve_spanAt {envelope : Json} {status : String} {stop : ℕ}
    (h : Describes source source_id artifact_id)
    (hheld : HoldsSpan envelope source (spanAt sha256 source_id status start stop))
    (hdata : artifactBytes artifacts artifact_id = .ok data) :
    resolve_span_bytes truncate artifacts envelope (spanId sha256 source_id status start stop) =
      if start < stop ∧ stop ≤ data.size then .ok (data.extract start stop)
      else .error (outOfBounds (spanId sha256 source_id status start stop)) := by
  obtain ⟨hspan_id, hspan_source, hstart, hstop, -⟩ :=
    @get?_spanAt sha256 source_id status start stop
  have hfindSpan := find?_eq_of_only hheld.span_mem hheld.span_only (strAt_of_get? hspan_id)
  have hfindSource := find?_eq_of_only hheld.source_mem hheld.source_only (strAt_of_get? h.source_id)
  rw [resolve_span_bytes, hfindSpan]
  dsimp only
  rw [strAt_of_get? hspan_source, hfindSource]
  dsimp only
  rw [strAt_of_get? h.artifact_id, hdata, integerAt_int hstart, integerAt_int hstop]
  change (if _ then _ else _) = _
  by_cases hbounds : start < stop ∧ stop ≤ data.size
  · rw [if_pos hbounds, if_neg (by omega)]
    rfl
  · rw [if_neg hbounds, if_pos (by omega)]

/-- A search for a text that returns a span returns one that reads back as the text, at the
occurrence that was asked for. -/
def ResolvesBack (sha256 : Sha256) (truncate : FloatText → ℤ) (artifacts : Files) (source : Json)
    (artifact_id needle : String) (occurrence : ℤ) (evidence_status : Option String) : Prop :=
  ∀ span, span_for_text sha256 artifacts source needle occurrence evidence_status = .ok span →
    ∀ envelope, HoldsSpan envelope source span →
      resolve_span_bytes truncate artifacts envelope (strAt span "span_id") = .ok needle.toUTF8 ∧
      ∃ data start, artifactBytes artifacts artifact_id = .ok data ∧
        integerAt truncate span "byte_start" = (start : ℕ) ∧
        integerAt truncate span "byte_end" = (start + needle.toUTF8.size : ℕ) ∧
        IsKth (OccursAt data needle.toUTF8) needle.toUTF8.size occurrence.toNat start

theorem size_toUTF8_pos {needle : String} (h : needle ≠ "") : 0 < needle.toUTF8.size := by
  rw [Nat.pos_iff_ne_zero]
  intro hzero
  exact h (String.utf8ByteSize_eq_zero_iff.mp hzero)

theorem resolvesBack_of_ne (h : Describes source source_id artifact_id) {needle : String}
    (hneedle : needle ≠ "") :
    ResolvesBack sha256 truncate artifacts source artifact_id needle occurrence
      evidence_status := by
  intro span hspan envelope hheld
  obtain ⟨-, data, status, start, hdata, -, hkth, rfl⟩ := (span_for_text_eq_ok h).mp hspan
  obtain ⟨hspan_id, -, hstart, hstop, -⟩ :=
    @get?_spanAt sha256 source_id status start (start + needle.toUTF8.size)
  obtain ⟨hsize, hoccurs⟩ := occursAt_of_isKth hkth
  have hpos := size_toUTF8_pos hneedle
  refine ⟨?_, data, start, hdata, integerAt_int hstart, integerAt_int hstop, hkth⟩
  rw [strAt_of_get? hspan_id, resolve_spanAt h hheld hdata, if_pos ⟨by omega, hsize⟩, hoccurs]

/-- An envelope of one source and one span. -/
def envelopeOf (source span : Json) : Json :=
  .obj [("sources", .arr [source]), ("spans", .arr [span])]

theorem holdsSpan_envelopeOf (source span : Json) : HoldsSpan (envelopeOf source span) source span where
  source_mem := List.mem_singleton_self source
  source_only _ hother _ := List.mem_singleton.mp hother
  span_mem := List.mem_singleton_self span
  span_only _ hother _ := List.mem_singleton.mp hother

/-- The empty text is found in every artifact, and its span cannot be read. -/
theorem not_resolvesBack_empty (h : Describes source source_id artifact_id)
    (hoccurrence : 0 ≤ occurrence) (hdata : artifactBytes artifacts artifact_id = .ok data) :
    ¬ ResolvesBack sha256 truncate artifacts source artifact_id "" occurrence evidence_status := by
  intro hback
  obtain ⟨status, hstatus⟩ := spanStatus_ok h evidence_status
  have hspan := (@span_for_text_eq_ok sha256 artifacts source source_id artifact_id occurrence
    evidence_status h "" _).mpr
      ⟨hoccurrence, data, status, 0, hdata, hstatus, isKth_empty data _, rfl⟩
  have hheld := holdsSpan_envelopeOf source
    (spanAt sha256 source_id status 0 (0 + "".toUTF8.size))
  obtain ⟨hresolve, -⟩ := hback _ hspan _ hheld
  obtain ⟨hspan_id, -⟩ := @get?_spanAt sha256 source_id status 0 (0 + "".toUTF8.size)
  have hsize : "".toUTF8.size = 0 := rfl
  rw [strAt_of_get? hspan_id, resolve_spanAt h hheld hdata, if_neg (by omega)] at hresolve
  cases hresolve

/-- A span reads back as the text that was searched for exactly where the text is not empty: the
span of an empty text is found, and is refused when it is read. -/
theorem span_for_text_resolves_iff (sha256 : Sha256) (truncate : FloatText → ℤ)
    (artifacts : Files) (source : Json) (source_id artifact_id needle : String) (occurrence : ℤ)
    (evidence_status : Option String) (h : Describes source source_id artifact_id) :
    ResolvesBack sha256 truncate artifacts source artifact_id needle occurrence evidence_status ↔
      (needle = "" → occurrence < 0 ∨ ∀ data, artifactBytes artifacts artifact_id ≠ .ok data) := by
  constructor
  · rintro hback rfl
    by_contra hreads
    push Not at hreads
    obtain ⟨hoccurrence, data, hdata⟩ := hreads
    exact not_resolvesBack_empty h hoccurrence hdata hback
  · intro hcondition
    by_cases hneedle : needle = ""
    · intro span hspan
      obtain ⟨hoccurrence, data, -, -, hdata, -⟩ := (span_for_text_eq_ok h).mp hspan
      rcases hcondition hneedle with hneg | hunread
      · exact absurd hneg (not_lt.mpr hoccurrence)
      · exact absurd hdata (hunread data)
    · exact resolvesBack_of_ne h hneedle

theorem describes_evidenceSource (source_id : String) :
    Describes (evidenceSource source_id) source_id evidenceId where
  source_id := by rw [evidenceSource, Json.get?_ofMembers]; rfl
  artifact_id := by rw [evidenceSource, Json.get?_ofMembers]; rfl
  evidence_status := ⟨.str "verbatim", by rw [evidenceSource, Json.get?_ofMembers]; rfl⟩

theorem span_for_text_resolves_iff_evidence :
    ResolvesBack .hashlib (fun _ => 0) evidenceFiles.artifacts (evidenceSource "src_checkpoint")
        evidenceId "dence" 0 none ↔
      ("dence" = "" → (0 : ℤ) < 0 ∨ ∀ data, artifactBytes evidenceFiles.artifacts evidenceId ≠
        .ok data) :=
  span_for_text_resolves_iff .hashlib _ evidenceFiles.artifacts (evidenceSource "src_checkpoint")
    "src_checkpoint" evidenceId "dence" 0 none (describes_evidenceSource "src_checkpoint")

theorem empty_needle_not_resolved :
    ¬ ∀ (sha256 : Sha256) (truncate : FloatText → ℤ) (artifacts : Files) (source : Json)
      (source_id artifact_id needle : String) (occurrence : ℤ) (evidence_status : Option String),
      Describes source source_id artifact_id →
        ResolvesBack sha256 truncate artifacts source artifact_id needle occurrence
          evidence_status := by
  intro h
  have hdescribes := describes_evidenceSource "src_checkpoint"
  exact not_resolvesBack_empty hdescribes le_rfl artifactBytes_evidence
    (h .hashlib (fun _ => 0) evidenceFiles.artifacts _ _ _ "" 0 none hdescribes)

end Spans

end ConversationStore

end FossilCore
