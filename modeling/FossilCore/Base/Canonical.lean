import FossilCore.Base.JsonText

/-!
# Canonical JSON files

The bytes of a canonical JSON document, `json.dumps(..) + "\n"` in UTF-8, and the two ways a
document is read back: `json.loads(path.read_text(encoding="utf-8"))`, which translates line
ends first, and `json.loads(data.decode("utf-8"))`, which does not.  The encoder escapes
every carriage return, so that both readings give the document back.
-/

namespace Base

instance (priority := high) decidableEqBytes : DecidableEq ByteArray := ByteArray.instDecidableEq

namespace Json

def canonical (v : Json) : ByteArray := (dumps v ++ "\n").toUTF8

/-- `bytes.decode("utf-8")` -/
def decode (data : ByteArray) : Except PyException String :=
  match String.fromUTF8? data with
  | some text => .ok text
  | none => .error .unicodeDecodeError

/-- Universal newlines; the flag says that the line end before was a carriage return. -/
def translateLines : Bool → List Char → List Char
  | _, [] => []
  | afterReturn, c :: cs =>
      if c = '\r' then '\n' :: translateLines true cs
      else if c = '\n' ∧ afterReturn then translateLines false cs
      else c :: translateLines false cs

/-- `path.read_text(encoding="utf-8")` of a file with these bytes. -/
def readText (data : ByteArray) : Except PyException String := do
  let text ← decode data
  return String.ofList (translateLines false text.toList)

/-- `json.loads(path.read_text(encoding="utf-8"))` -/
def loadText (data : ByteArray) : Except PyException Json := readText data >>= loads

/-- `json.loads(data.decode("utf-8"))` -/
def loadBytes (data : ByteArray) : Except PyException Json := decode data >>= loads

theorem decode_toUTF8 (s : String) : decode s.toUTF8 = .ok s := by
  have hs : String.fromUTF8? s.toUTF8 = some s := by
    simp [String.fromUTF8?, String.toUTF8, String.isValidUTF8, String.fromUTF8]
  rw [decode, hs]

/-- What a text is decoded from. -/
theorem toUTF8_of_decode {data : ByteArray} {text : String} (h : decode data = .ok text) :
    text.toUTF8 = data := by
  rw [decode] at h
  cases hdecode : String.fromUTF8? data with
  | none =>
      rw [hdecode] at h
      cases h
  | some decoded =>
      rw [hdecode] at h
      cases h
      rw [String.fromUTF8?] at hdecode
      split_ifs at hdecode with hvalid
      cases hdecode
      rfl

theorem translateLines_eq_self {cs : List Char} (h : '\r' ∉ cs) :
    translateLines false cs = cs := by
  induction cs with
  | nil => rfl
  | cons c cs ih =>
      have hc : c ≠ '\r' := fun hc => h (hc ▸ List.mem_cons_self)
      have hcs := ih fun hcs => h (List.mem_cons_of_mem c hcs)
      simp [translateLines, hc, hcs]

theorem return_notMem_escape (cs : List Char) : '\r' ∉ escape cs := by
  intro h
  obtain ⟨c, -, hc⟩ := List.mem_flatMap.mp h
  have hdigit : ∀ n < 16, Nat.digitChar n ≠ '\r' := by decide
  by_cases hctrl : c.toNat < 32
  · have hhigh := hdigit (c.toNat / 16) (by omega)
    have hlow := hdigit (c.toNat % 16) (by omega)
    unfold escapeChar at hc
    split_ifs at hc
    all_goals simp [hhigh.symm, hlow.symm] at hc
  · have hne : '\r' ≠ c := by
      rintro rfl
      exact hctrl (by decide)
    unfold escapeChar at hc
    split_ifs at hc
    all_goals simp [hne] at hc

theorem return_notMem_printString (s : String) : '\r' ∉ printString s := by
  have h := return_notMem_escape s.toList
  simp [printString, h]

theorem return_notMem_of_token {token : List Char} (h : ∀ c ∈ token, isTokenChar c = true) :
    '\r' ∉ token :=
  fun hr => absurd (h _ hr) (by decide)

mutual

theorem return_notMem_print : ∀ v : Json, '\r' ∉ v.print
  | .null => by simp only [print]; decide
  | .bool true => by simp only [print]; decide
  | .bool false => by simp only [print]; decide
  | .int n => by
      simpa only [print] using return_notMem_of_token (all_isTokenChar_printInt n)
  | .float x => by
      simpa only [print] using return_notMem_of_token (all_isTokenChar_float x)
  | .str s => by simpa only [print] using return_notMem_printString s
  | .arr xs => by
      have h := return_notMem_printItems xs
      simp [print, h]
  | .obj fs => by
      have h := return_notMem_printFields fs
      simp [print, h]

theorem return_notMem_printItems : ∀ xs : List Json, '\r' ∉ printItems xs
  | [] => by simp [printItems]
  | [x] => by simpa only [printItems] using return_notMem_print x
  | x :: y :: rest => by
      have hx := return_notMem_print x
      have hrest := return_notMem_printItems (y :: rest)
      simp [printItems, hx, hrest]

theorem return_notMem_printFields : ∀ fs : List (String × Json), '\r' ∉ printFields fs
  | [] => by simp [printFields]
  | [(k, v)] => by
      have hk := return_notMem_printString k
      have hv := return_notMem_print v
      simp [printFields, hk, hv]
  | (k, v) :: f :: rest => by
      have hk := return_notMem_printString k
      have hv := return_notMem_print v
      have hrest := return_notMem_printFields (f :: rest)
      simp [printFields, hk, hv, hrest]

end

theorem canonical_ne_empty (v : Json) : v.canonical ≠ ByteArray.empty := by
  intro h
  have hdecode := decode_toUTF8 (dumps v ++ "\n")
  rw [← canonical, h] at hdecode
  have hempty : decode ByteArray.empty = .ok "" := decode_toUTF8 ""
  rw [hempty] at hdecode
  have hlen := congrArg (fun s : String => s.toList.length) (Except.ok.inj hdecode)
  simp [String.toList_append] at hlen

theorem loads_canonical_text {v : Json} (hv : v.WF) : loads (dumps v ++ "\n") = .ok v :=
  loads_dumps_append hv "\n" (by decide)

theorem loadBytes_canonical {v : Json} (hv : v.WF) : loadBytes v.canonical = .ok v := by
  rw [loadBytes, canonical, decode_toUTF8]
  exact loads_canonical_text hv

theorem readText_canonical (v : Json) : readText v.canonical = .ok (dumps v ++ "\n") := by
  have hreturn : '\r' ∉ (dumps v ++ "\n").toList := by
    have h := return_notMem_print v
    rw [String.toList_append, dumps, String.toList_ofList]
    simp [h]
  rw [readText, canonical, decode_toUTF8]
  show Except.ok (String.ofList (translateLines false (dumps v ++ "\n").toList)) = _
  rw [translateLines_eq_self hreturn, String.ofList_toList]

theorem loadText_canonical {v : Json} (hv : v.WF) : loadText v.canonical = .ok v := by
  rw [loadText, readText_canonical]
  exact loads_canonical_text hv

theorem canonical_inj {v w : Json} (hv : v.WF) (hw : w.WF) :
    v.canonical = w.canonical ↔ v = w := by
  refine ⟨?_, fun h => congrArg canonical h⟩
  intro h
  have hload := loadBytes_canonical hv
  rw [h, loadBytes_canonical hw] at hload
  exact (Except.ok.inj hload).symm

theorem wf_loadBytes {data : ByteArray} {v : Json} (h : loadBytes data = .ok v) : v.WF := by
  obtain ⟨text, -, hload⟩ := bind_eq_ok.mp h
  exact wf_loads hload

theorem wf_loadText {data : ByteArray} {v : Json} (h : loadText data = .ok v) : v.WF := by
  obtain ⟨text, -, hload⟩ := bind_eq_ok.mp h
  exact wf_loads hload

end Json

end Base
