import FossilCore.Errors
import FossilCore.Base.Json

/-!
# The core ontology

The entity kinds, the relation types with the endpoint kinds each allows, and the two endpoint
checks of `domain/ontology.py`.
-/

namespace FossilCore

open Base

def CORE_ONTOLOGY_REF : String := "dkg.core@1.0.0"

def ENTITY_TYPES : List String :=
  ["Artifact", "Episode", "Source", "Evidence", "Claim", "Assumption", "Argument",
    "Observation", "Experiment", "Decision", "Question", "Concept", "Methodology"]

structure EndpointTypes where
  source_types : List String
  target_types : List String
  deriving DecidableEq, Repr

def RELATION_ENDPOINT_TYPES : List (String × EndpointTypes) :=
  [("SUPPORTS",
      ⟨["Evidence", "Claim", "Observation", "Experiment"], ["Claim", "Assumption", "Decision"]⟩),
    ("CHALLENGES",
      ⟨["Evidence", "Claim", "Observation", "Argument"], ["Claim", "Assumption", "Decision"]⟩),
    ("CONTRADICTS", ⟨["Claim", "Evidence", "Observation"], ["Claim", "Assumption"]⟩),
    ("REFINES", ⟨["Claim", "Concept", "Methodology"], ["Claim", "Concept", "Methodology"]⟩),
    ("DEPENDS_ON",
      ⟨["Claim", "Decision", "Argument", "Methodology"],
        ["Claim", "Assumption", "Concept", "Source"]⟩),
    ("ASSUMES", ⟨["Claim", "Argument", "Decision", "Methodology"], ["Assumption", "Claim"]⟩),
    ("DERIVED_FROM",
      ⟨["Claim", "Concept", "Decision", "Evidence", "Methodology"],
        ["Artifact", "Episode", "Source", "Evidence", "Claim", "Observation"]⟩),
    ("EXEMPLIFIES", ⟨["Observation", "Evidence", "Episode"], ["Claim", "Concept", "Methodology"]⟩),
    ("SUPERSEDES",
      ⟨["Claim", "Concept", "Decision", "Methodology"],
        ["Claim", "Concept", "Decision", "Methodology"]⟩),
    ("RELATED_TO",
      ⟨["Claim", "Concept", "Source", "Methodology"],
        ["Claim", "Concept", "Source", "Methodology"]⟩),
    ("BROADER_THAN", ⟨["Concept"], ["Concept"]⟩),
    ("NARROWER_THAN", ⟨["Concept"], ["Concept"]⟩)]

def RELATION_TYPES : List String := RELATION_ENDPOINT_TYPES.map Prod.fst

/-- What a resolver call gives: an entity kind, `None`, or an exception. -/
inductive Resolved (α : Type) where
  | value (a : α)
  | none
  | raises
  deriving DecidableEq, Repr

abbrev EndpointTypeResolver := String → Resolved String

namespace Error

def ontologyConstraintError (message : String) : Error := ⟨.ontologyConstraintError, message⟩

end Error

/-- The endpoint kinds that the ontology allows for a relation type. -/
def EndpointsAllowed (relation_type source_type target_type : String) : Prop :=
  ∃ types, (relation_type, types) ∈ RELATION_ENDPOINT_TYPES ∧
    source_type ∈ types.source_types ∧ target_type ∈ types.target_types

def validate_relation_endpoints (relation_type source_type target_type ontology_ref : String) :
    Except Error Unit :=
  if ontology_ref ≠ CORE_ONTOLOGY_REF then
    .error (.ontologyConstraintError
      s!"ontology_ref must resolve exactly to {CORE_ONTOLOGY_REF}; got {Text.repr ontology_ref}")
  else
    match RELATION_ENDPOINT_TYPES.lookup relation_type with
    | none =>
        .error (.ontologyConstraintError
          s!"unregistered relation type in {CORE_ONTOLOGY_REF}: {relation_type}")
    | some constraints =>
        if source_type ∉ constraints.source_types then
          .error (.ontologyConstraintError
            s!"source_type {Text.repr source_type} is not valid for relation type {relation_type}")
        else if target_type ∉ constraints.target_types then
          .error (.ontologyConstraintError
            s!"target_type {Text.repr target_type} is not valid for relation type {relation_type}")
        else .ok ()

def _resolve_endpoint (endpoint_ref role : String) (resolver : Option EndpointTypeResolver) :
    Except Error String :=
  match resolver with
  | none =>
      .error (.ontologyConstraintError ("accepted relation endpoint identity cannot be resolved " ++
        "without an endpoint type resolver"))
  | some resolver =>
      match resolver endpoint_ref with
      | .raises | .none =>
          .error (.ontologyConstraintError
            s!"{role} endpoint identity {Text.repr endpoint_ref} could not be resolved")
      | .value endpoint_type =>
          if endpoint_type = "" then
            .error (.ontologyConstraintError
              s!"{role} endpoint identity {Text.repr endpoint_ref} could not be resolved")
          else if endpoint_type ∉ ENTITY_TYPES then
            .error (.ontologyConstraintError (s!"{role} endpoint identity " ++
              s!"{Text.repr endpoint_ref} resolved to unknown entity type " ++
              Text.repr endpoint_type))
          else .ok endpoint_type

def validate_resolved_relation_endpoints (relation_type source_ref source_type target_ref
    target_type ontology_ref : String) (resolver : Option EndpointTypeResolver) :
    Except Error Unit := do
  let resolved_source_type ← _resolve_endpoint source_ref "source" resolver
  let resolved_target_type ← _resolve_endpoint target_ref "target" resolver
  if source_type ≠ resolved_source_type then
    .error (.ontologyConstraintError (s!"source_type {Text.repr source_type} does not match " ++
      s!"resolved endpoint type {Text.repr resolved_source_type}"))
  else if target_type ≠ resolved_target_type then
    .error (.ontologyConstraintError (s!"target_type {Text.repr target_type} does not match " ++
      s!"resolved endpoint type {Text.repr resolved_target_type}"))
  else
    validate_relation_endpoints relation_type resolved_source_type resolved_target_type
      ontology_ref

/-! ## What a passed check says -/

theorem mem_of_lookup {α : Type} {key : String} {value : α} {table : List (String × α)}
    (h : table.lookup key = some value) : (key, value) ∈ table := by
  induction table with
  | nil => simp at h
  | cons entry table ih =>
      obtain ⟨k, v⟩ := entry
      by_cases hk : key = k
      · subst hk
        have hv : v = value := by simpa using h
        simp [hv]
      · rw [List.lookup_cons, beq_false_of_ne hk] at h
        exact List.mem_cons_of_mem _ (ih h)

theorem endpointsAllowed_of_validate {relation_type source_type target_type ontology_ref : String}
    (h : validate_relation_endpoints relation_type source_type target_type ontology_ref = .ok ()) :
    ontology_ref = CORE_ONTOLOGY_REF ∧ EndpointsAllowed relation_type source_type target_type := by
  unfold validate_relation_endpoints at h
  split at h
  · cases h
  · next href =>
    split at h
    · cases h
    · next types htypes =>
      split_ifs at h with hsource htarget
      exact ⟨not_not.mp href, types, mem_of_lookup htypes, hsource, htarget⟩

theorem resolved_of_resolve_endpoint {endpoint_ref role endpoint_type : String}
    {resolver : Option EndpointTypeResolver}
    (h : _resolve_endpoint endpoint_ref role resolver = .ok endpoint_type) :
    ∃ resolve, resolver = some resolve ∧ resolve endpoint_ref = .value endpoint_type := by
  cases resolver with
  | none => cases h
  | some resolve =>
      simp only [_resolve_endpoint] at h
      split at h
      · cases h
      · cases h
      · next kind hkind =>
        split_ifs at h
        cases h
        exact ⟨resolve, rfl, hkind⟩

/-- An accepted relation has resolved endpoint kinds that the ontology allows. -/
theorem validate_resolved_ok {relation_type source_ref source_type target_ref target_type
    ontology_ref : String} {resolver : Option EndpointTypeResolver}
    (h : validate_resolved_relation_endpoints relation_type source_ref source_type target_ref
      target_type ontology_ref resolver = .ok ()) :
    ∃ resolve, resolver = some resolve ∧ resolve source_ref = .value source_type ∧
      resolve target_ref = .value target_type ∧
      EndpointsAllowed relation_type source_type target_type := by
  obtain ⟨source_kind, hsource, h⟩ := bind_eq_ok.mp h
  obtain ⟨target_kind, htarget, h⟩ := bind_eq_ok.mp h
  split_ifs at h with hs ht
  have hallowed := endpointsAllowed_of_validate h
  obtain ⟨resolve, rfl, hrs⟩ := resolved_of_resolve_endpoint hsource
  obtain ⟨resolve', hresolve, hrt⟩ := resolved_of_resolve_endpoint htarget
  cases hresolve
  rw [not_not.mp hs, not_not.mp ht]
  exact ⟨resolve, rfl, hrs, hrt, hallowed.2⟩

end FossilCore
