import FossilCore.Adapters.ArtifactStore
import FossilCore.Adapters.S3ArtifactStore

/-!
# The adapters keep the contract and agree

Both event stores refine the ledger, so both are immutable over every run, and the file system
and S3 adapters answer every run of calls alike, whatever UUIDs each of them draws.
-/

namespace FossilCore

open Base

/-- The event brings its id or names its operation, so that no id is drawn for it. -/
def Identified (event : Json) : Prop :=
  Idempotent event ∨ Json.truthy? (event.get? "event_id") = true

instance (event : Json) : Decidable (Identified event) := inferInstanceAs (Decidable (_ ∨ _))

theorem assignId_of_identified {config : StoreConfig} {event : Json} (h : Identified event)
    (uuid uuid' : String) : config.assignId event uuid = config.assignId event uuid' := by
  unfold StoreConfig.assignId
  cases event with
  | obj fields =>
      have hkeyed : ¬ Idempotent (.obj fields) →
          (!Json.truthy? ((Json.obj fields).get? "event_id")) = false := by
        intro hboth
        rw [h.resolve_left hboth]
        rfl
      show (if Idempotent (.obj fields) then _ else _) = (if Idempotent (.obj fields) then _ else _)
      by_cases hboth : Idempotent (.obj fields)
      · rw [if_pos hboth, if_pos hboth]
      · rw [if_neg hboth, if_neg hboth, hkeyed hboth]
        rfl
  | _ => rfl

theorem validate_of_identified {config : StoreConfig} {event : Json} (h : Identified event)
    (uuid uuid' : String) : config.validate event uuid = config.validate event uuid' := by
  simp only [StoreConfig.validate, StoreConfig.prepare, assignId_of_identified h uuid uuid']

namespace EventCall

/-- The same call of two stores, each of which draws its own UUIDs. -/
inductive Alike : EventCall → EventCall → Prop where
  | refl (call : EventCall) : Alike call call
  | commit {event : Document} (h : Identified event.value) (uuid uuid' temp temp' : String) :
      Alike (.commit event uuid temp) (.commit event uuid' temp')
  | redact (id : EventId) (r : RedactionRequest) (temp temp' : String) :
      Alike (.redact id r temp) (.redact id r temp')

theorem Alike.step_eq {call call' : EventCall} (h : Alike call call') (config : StoreConfig)
    (l : Ledger) : l.step config call = l.step config call' := by
  cases h with
  | refl => rfl
  | commit h uuid uuid' temp temp' =>
      simp only [Ledger.step, Ledger.commit, validate_of_identified h uuid uuid']
  | redact => rfl

end EventCall

namespace ArtifactCall

inductive Alike : ArtifactCall → ArtifactCall → Prop where
  | refl (call : ArtifactCall) : Alike call call
  | put_bytes (data : ByteArray) (media_type t₁ t₂ u₁ u₂ : String) :
      Alike (.put_bytes data media_type t₁ t₂) (.put_bytes data media_type u₁ u₂)
  | redact (id : ArtifactId) (r : RedactionRequest) (temp temp' : String) :
      Alike (.redact id r temp) (.redact id r temp')

theorem Alike.step_eq {call call' : ArtifactCall} (h : Alike call call') (sha256 : Sha256)
    (l : ArtifactLedger) : l.step sha256 call = l.step sha256 call' := by
  cases h <;> rfl

end ArtifactCall

theorem sameOutcome_of_common {α : Type} {x y : Except Error α}
    (h : ∃ z, SameOutcome x z ∧ SameOutcome y z) : SameOutcome x y := by
  obtain ⟨z, hx, hy⟩ := h
  exact hx.trans hy.symm

/-- The file system adapters and the S3 adapters give every run of calls the same values, the
same classes of errors and the same listings. -/
theorem adapters_agree (config : StoreConfig) (sha256 : Sha256) (b : S3Backend)
    (paging : Paging) {calls calls' : List EventCall} {puts puts' : List ArtifactCall}
    (hevents : List.Forall₂ EventCall.Alike calls calls')
    (hartifacts : List.Forall₂ ArtifactCall.Alike puts puts') :
    List.Forall₂ SameOutcome
        (Runs.outcomes (DurableEventStore.step config) ∅ calls)
        (Runs.outcomes (S3DurableEventStore.step config b paging) ∅ calls') ∧
      List.Forall₂ SameOutcome
        (Runs.outcomes (ArtifactStore.step sha256) ∅ puts)
        (Runs.outcomes (S3ArtifactStore.step sha256 b paging) ∅ puts') := by
  constructor
  · have hs3 : RefinesLedger config (S3DurableEventStore.layout b)
      (S3DurableEventStore.step config b paging) := S3DurableEventStore.refines_ledger
    have hagree := DurableEventStore.refines_ledger.agree hs3 storedAs_empty storedAs_empty
      (fun call call' h => h.step_eq config) hevents
    exact hagree.imp fun _ _ => sameOutcome_of_common
  · have hs3 : (ArtifactLedger.model sha256).Refines (S3ArtifactStore.layout b) SameOutcome
      (S3ArtifactStore.step sha256 b paging) := S3ArtifactStore.refines_ledger
    have hagree := ArtifactStore.refines_ledger.agree hs3 (storedAs_emptyArtifacts sha256)
      (storedAs_emptyArtifacts sha256) (fun call call' h => h.step_eq sha256) hartifacts
    exact hagree.imp fun _ _ => sameOutcome_of_common

theorem adapters_agree_on_proposal :
    List.Forall₂ SameOutcome
        (Runs.outcomes (DurableEventStore.step .plain) ∅
          [.commit proposal "u1" "t1", .iter_events])
        (Runs.outcomes (S3DurableEventStore.step .plain ⟨"prod"⟩ .single) ∅
          [.commit proposal "u2" "t2", .iter_events]) ∧
      List.Forall₂ SameOutcome
        (Runs.outcomes (ArtifactStore.step .hashlib) ∅
          [.put_bytes "blob".toUTF8 "text/plain" "t3" "t4"])
        (Runs.outcomes (S3ArtifactStore.step .hashlib ⟨"prod"⟩ .single) ∅
          [.put_bytes "blob".toUTF8 "text/plain" "t5" "t6"]) :=
  adapters_agree .plain .hashlib ⟨"prod"⟩ .single
    (.cons (.commit (by decide +kernel) "u1" "u2" "t1" "t2") (.cons (.refl .iter_events) .nil))
    (.cons (.put_bytes "blob".toUTF8 "text/plain" "t3" "t4" "t5" "t6") .nil)

end FossilCore
