import BooleanQuery.Proofs.Compile.Events

/-!
# Translations between engines

A translation takes the queries of one engine to those of another, and respects all that the
compiler can build: terms, conjunctions, disjunctions and best-of combinations, each with its
exclusion and its boost. It need not respect the operations one by one, as two exclusions of
one conjunction, which the compiler never asks for, may be anything.

To compile for the second engine is to compile for the first one and to translate the result.
This holds of whole runs, so what happens on the way is the same for both engines.
-/

namespace BooleanQuery

open Compile (weighted)

/-- A map between the queries of two engines that respects all that is built for a query. -/
structure Engine.Translation (source target : Engine) where
  convert : source.Query → target.Query
  convert_term : ∀ boost field value,
    convert (weighted boost source.boostQuery (source.term field value)) =
      weighted boost target.boostQuery (target.term field value)
  convert_conjunction : ∀ boost compiled unwanted,
    convert (source.ofConjunction (weighted boost source.boostConjunction
        (source.without unwanted (source.conjunction compiled)))) =
      target.ofConjunction (weighted boost target.boostConjunction
        (target.without (unwanted.map convert) (target.conjunction (compiled.map convert))))
  convert_disjunction : ∀ boost compiled,
    convert (source.ofDisjunction (weighted boost source.boostDisjunction
        (source.disjunction compiled))) =
      target.ofDisjunction (weighted boost target.boostDisjunction
        (target.disjunction (compiled.map convert)))
  convert_disMax : ∀ boost tiebreaker compiled,
    convert (source.ofDisMax (weighted boost source.boostDisMax
        (source.disMax tiebreaker compiled))) =
      target.ofDisMax (weighted boost target.boostDisMax
        (target.disMax tiebreaker (compiled.map convert)))

namespace Compile

variable {source target : Engine} (translation : source.Translation target)

/-- What a disjunction becomes is translated, also where it is its only child. -/
theorem convert_disjoined (boost : Weight) (compiled : List source.Query) :
    translation.convert (disjoined source boost compiled) =
      disjoined target boost (compiled.map translation.convert) := by
  rcases compiled with _ | ⟨only, _ | ⟨second, others⟩⟩
  · exact translation.convert_disjunction boost []
  · rfl
  · exact translation.convert_disjunction boost (only :: second :: others)

/-- What a best-of combination becomes is translated, also where it is its only child. -/
theorem convert_bestOf (boost tiebreaker : Weight) (compiled : List source.Query) :
    translation.convert (bestOf source boost tiebreaker compiled) =
      bestOf target boost tiebreaker (compiled.map translation.convert) := by
  rcases compiled with _ | ⟨only, _ | ⟨second, others⟩⟩
  · exact translation.convert_disMax boost tiebreaker []
  · rfl
  · exact translation.convert_disMax boost tiebreaker (only :: second :: others)

/-- The run of a term, translated. -/
theorem term_translated (query : Query) :
    term target query = translation.convert <$> term source query := by
  rw [term_eq, term_eq]
  split
  · rfl
  · split
    · rfl
    · rw [Run.map_ok, translation.convert_term]

/-- The run of a combination, converted. -/
theorem combination_map {α β : Type} (convert : α → β) (query : Query) (count : Nat)
    (call : Engine.Call) (target : Engine.Target) (made : α) :
    combination query count call target (convert made) =
      convert <$> combination query count call target made := by
  unfold combination
  split
  · rfl
  · rw [Run.map_ok]

theorem disjunction_translated (query : Query) (compiled : List source.Query) :
    disjunction target query (compiled.map translation.convert) =
      translation.convert <$> disjunction source query compiled := by
  rw [disjunction_eq, disjunction_eq, List.length_map, ← convert_disjoined, combination_map]

theorem disMax_translated (query : Query) (compiled : List source.Query) :
    disMax target query (compiled.map translation.convert) =
      translation.convert <$> disMax source query compiled := by
  rw [disMax_eq, disMax_eq, List.length_map, ← convert_bestOf, combination_map]

/-- Whether a conjunction is replaced by its only child does not depend on what the child is. -/
theorem soleChild?_map {α β : Type} (convert : α → β) (exclusion : Option Query)
    (children : List α) :
    soleChild? exclusion (children.map convert) = (soleChild? exclusion children).map convert := by
  rcases exclusion with _ | excluded
  · rcases children with _ | ⟨only, _ | ⟨second, others⟩⟩ <;> rfl
  · rfl

/-- The run of a conjunction of compiled children, translated. -/
theorem conjunction_translated (query : Query) (exclusion : Run (Option source.Query))
    (compiled : List source.Query) :
    conjunction target query (Option.map translation.convert <$> exclusion)
        (compiled.map translation.convert) =
      translation.convert <$> conjunction source query exclusion compiled := by
  rcases sole : soleChild? query.exclusion compiled with _ | only
  · have kept : soleChild? query.exclusion (compiled.map translation.convert) = none := by
      rw [soleChild?_map, sole, Option.map_none]
    rw [conjunction_eq target kept, conjunction_eq source sole, List.length_map]
    simp [translation.convert_conjunction, exclusionEvents]
  · unfold conjunction
    rw [soleChild?_map, sole]
    rfl

section Nodes

variable {Depth : Type} [DepthCounter Depth] (fuel : Fuel) (depth : Depth)

/-- The run of a node, translated. -/
theorem node_translated (query : Query) :
    node target fuel depth query = translation.convert <$> node source fuel depth query := by
  induction query generalizing depth with
  | node query onChildren onExclusion =>
      have children := mapM_eq_map_mapM fun child member =>
        onChildren child member (DepthCounter.deeper depth)
      have exclusion := optionMapM_eq_map_optionMapM fun excluded member =>
        onExclusion excluded member (DepthCounter.deeper depth)
      rw [node_eq, node_eq, children, exclusion]
      split
      · rw [map_bind]
        refine bind_congr fun _ => ?_
        cases query.kind with
        | term => exact term_translated translation query
        | and =>
            simp only [map_bind, bind_map_left]
            exact bind_congr (conjunction_translated translation query _)
        | or =>
            simp only [map_bind, bind_map_left]
            exact bind_congr (disjunction_translated translation query)
        | disMax =>
            simp only [map_bind, bind_map_left]
            exact bind_congr (disMax_translated translation query)
        | unknown number =>
            simp only [map_bind, bind_map_left]
            rfl
      · rfl

end Nodes

theorem reportFailure_map {α β : Type} (convert : α → β) (run : Run α) :
    (convert <$> run).reportFailure = convert <$> run.reportFailure := by
  rcases run with ⟨events, error | value⟩ <;> rfl

/-- To compile for an engine is to compile for another and to translate. -/
theorem compile_translated (fuel : Fuel) (query : Option Query) :
    compile target fuel query = translation.convert <$> compile source fuel query := by
  cases query with
  | none => rfl
  | some query =>
      rw [compile, compile, tree, tree, node_translated translation, reportFailure_map]

/-- What happens in a compilation is the same for both engines. -/
theorem compile_events_translated (translation : source.Translation target) (fuel : Fuel)
    (query : Option Query) :
    (compile target fuel query).events = (compile source fuel query).events := by
  simp [compile_translated translation]

/-- What a query compiles to is the translation of what it compiles to for the other engine. -/
theorem compile_ok_iff_translated (fuel : Fuel) (query : Option Query) (made : target.Query) :
    (compile target fuel query).result = .ok made ↔
      ∃ part, (compile source fuel query).result = .ok part ∧ translation.convert part = made := by
  simp [compile_translated translation]

/-- A compilation fails with the same error for both engines. -/
theorem compile_error_iff_translated (translation : source.Translation target) (fuel : Fuel)
    (query : Option Query) (error : CompileError) :
    (compile target fuel query).result = .error error ↔
      (compile source fuel query).result = .error error := by
  simp [compile_translated translation]

end Compile

end BooleanQuery
