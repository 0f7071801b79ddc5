import FossilCore.Base.JsonSchema
import FossilCore.Base.KeyMap
import FossilCore.Base.Sha2

/-!
# Durable identities

The ids of `domain/identity.py`.  The hash function is a parameter: what the code uses of it
is that a digest is written as 64 lower-case hexadecimal characters.  A `StableId` is a text
that matches the pattern the schemas give for ids of its kind; the stores file it under a
shard, the first two characters after its prefix.
-/

namespace FossilCore

open Base

def isHexChar (c : Char) : Bool := c.isDigit || ('a' ≤ c && c ≤ 'f')

structure Sha256 where
  hexdigest : ByteArray → String
  length_hexdigest : ∀ data, (hexdigest data).toList.length = 64
  isHexChar_hexdigest : ∀ data, ∀ c ∈ (hexdigest data).toList, isHexChar c = true

theorem isHexChar_hexChar (n : ℕ) : isHexChar (Sha2.hexChar n) = true := by
  have hall : ∀ k : Fin 16, isHexChar ("0123456789abcdef".toList.getD k.val '0') = true := by decide
  exact hall ⟨n % 16, Nat.mod_lt n (by decide)⟩

/-- The hash function of `hashlib`. -/
def Sha256.hashlib : Sha256 where
  hexdigest := Sha2.hexdigest
  length_hexdigest := Sha2.length_hexdigest
  isHexChar_hexdigest data c hc := by
    obtain ⟨n, rfl⟩ := Sha2.exists_of_mem_hexdigest hc
    exact isHexChar_hexChar n

/-- A digest in hexadecimal. -/
structure Digest where
  text : String
  length_text : text.toList.length = 64
  isHexChar_text : ∀ c ∈ text.toList, isHexChar c = true

def Sha256.digest (sha256 : Sha256) (data : ByteArray) : Digest :=
  ⟨sha256.hexdigest data, sha256.length_hexdigest data, sha256.isHexChar_hexdigest data⟩

theorem Digest.ext_text {d e : Digest} (h : d.text = e.text) : d = e := by
  cases d
  cases e
  cases h
  rfl

/-- `new_id`, for the hexadecimal text of the UUID drawn by the call. -/
def new_id (kind uuid : String) : String := kind ++ "_" ++ uuid

/-- The hashed text of an idempotent event; an f-string prints its values with `str`. -/
def idempotencyText (pack_id idempotency_key : Json) : String :=
  pack_id.pyStr ++ "\x00" ++ idempotency_key.pyStr

def deterministic_event_id (sha256 : Sha256) (pack_id idempotency_key : Json) : String :=
  "evt_" ++ Text.take (sha256.hexdigest (idempotencyText pack_id idempotency_key).toUTF8) 32

/-- An id of a kind, `^<kind>[A-Za-z0-9_-]{16,}$`. -/
structure StableId (kind : String) where
  text : String
  ok : Schema.isPrefixedId kind 16 text = true
  deriving DecidableEq

abbrev EventId := StableId "evt_"

abbrev ArtifactId := StableId "art_"

def artifact_id_for_digest (digest : String) : String := "art_" ++ Text.take digest 32

/-- `id.removeprefix(kind)[:2]` -/
def shardOf (kind text : String) : String := Text.take (Text.removePrefix text kind) 2

/-- `f"{id}.json"` -/
def fileName (text : String) : String := text ++ ".json"

namespace StableId

variable {kind : String}

theorem ext_text {i j : StableId kind} (h : i.text = j.text) : i = j := by
  cases i
  cases j
  cases h
  rfl

def shard (i : StableId kind) : String := shardOf kind i.text

/-- A shard is two characters of the id, neither of them a separator. -/
theorem shard_eq (i : StableId kind) :
    ∃ a b rest, i.text.toList = kind.toList ++ a :: b :: rest ∧ i.shard.toList = [a, b] ∧
      Schema.isWordChar a = true ∧ Schema.isWordChar b = true := by
  obtain ⟨body, tail, htext, hlen, hall, -⟩ := Schema.isPrefixedId_iff.mp i.ok
  match body, hlen with
  | a :: b :: rest, _ =>
      refine ⟨a, b, rest ++ tail, by rw [htext]; rfl, ?_, hall a (by simp), hall b (by simp)⟩
      have hcut : (Text.removePrefix i.text kind).toList = a :: b :: rest ++ tail := by
        have hsplit : i.text = kind ++ String.ofList (a :: b :: rest ++ tail) := by
          apply String.toList_inj.mp
          rw [htext, String.toList_append, String.toList_ofList]
        rw [hsplit, Text.removePrefix_append, String.toList_ofList]
      rw [shard, shardOf, Text.toList_take, hcut]
      rfl

theorem length_shard (i : StableId kind) : i.shard.toList.length = 2 := by
  obtain ⟨a, b, rest, -, hshard, -⟩ := i.shard_eq
  rw [hshard]
  rfl

theorem fileName_inj {s t : String} (h : fileName s = fileName t) : s = t :=
  Text.append_right_cancel h

/-- The path of an id below its root, and its key text, order ids the same way. -/
theorem path_le_iff (i j : StableId kind) :
    ([i.shard, fileName i.text] : List String) ≤ [j.shard, fileName j.text] ↔
      i.shard ++ ("/" ++ fileName i.text) ≤ j.shard ++ ("/" ++ fileName j.text) := by
  have hlen : j.shard.toList.length = i.shard.toList.length := by
    rw [length_shard, length_shard]
  rw [← not_lt, ← not_lt, string_append_lt_iff hlen, string_append_lt_iff rfl]
  simp only [List.cons_lt_cons_iff, lt_irrefl, false_or, true_and, and_false, or_false]

end StableId

theorem isWordChar_of_isHexChar {c : Char} (h : isHexChar c = true) :
    Schema.isWordChar c = true := by
  simp only [isHexChar, Bool.or_eq_true, Bool.and_eq_true, decide_eq_true_eq] at h
  rcases h with hdigit | ⟨hlow, hhigh⟩
  · simp [Schema.isWordChar, Char.isAlphanum, hdigit]
  · have hlower : c.isLower = true :=
      Bool.and_eq_true_iff.mpr ⟨decide_eq_true hlow, decide_eq_true (hhigh.trans (by decide))⟩
    have halpha : c.isAlpha = true := Bool.or_eq_true_iff.mpr (.inr hlower)
    simp [Schema.isWordChar, Char.isAlphanum, halpha]

/-- The id that a digest gives matches the pattern of artifact ids. -/
theorem isPrefixedId_artifact (d : Digest) :
    Schema.isPrefixedId "art_" 16 (artifact_id_for_digest d.text) = true := by
  refine Schema.isPrefixedId_iff.mpr ⟨d.text.toList.take 32, [], ?_, ?_, ?_, Or.inl rfl⟩
  · rw [artifact_id_for_digest, String.toList_append, Text.toList_take, List.append_nil]
  · rw [List.length_take, d.length_text]
    decide
  · intro c hc
    exact isWordChar_of_isHexChar (d.isHexChar_text c (List.mem_of_mem_take hc))

def Digest.artifactId (d : Digest) : ArtifactId :=
  ⟨artifact_id_for_digest d.text, isPrefixedId_artifact d⟩

end FossilCore
