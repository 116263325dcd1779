import BooleanQuery.Proofs.Compile.Translation

/-!
# Compiling by way of plans

Every engine can interpret plans, and interpretation is a translation from the engine of
plans. So to compile a query for an engine is to compile it to a plan and to interpret the
plan, whatever the engine does: a plan keeps everything that an engine is asked for, and the
order in which it is asked.
-/

namespace BooleanQuery

open Compile (weighted)

/-- Interpretation as a translation from the engine of plans. -/
def Engine.interpretation (engine : Engine) : Plan.engine.Translation engine where
  convert := engine.interpret
  convert_term boost field value := by
    unfold weighted
    split <;> rfl
  convert_conjunction boost compiled unwanted := by
    unfold weighted
    -- What the engine of plans builds is a plan only once it is known what there is to exclude.
    cases unwanted with
    | none => split <;> exact interpret_and engine compiled none _
    | some excluded => split <;> exact interpret_and engine compiled (some excluded) _
  convert_disjunction boost compiled := by
    unfold weighted
    split <;> exact interpret_or engine compiled _
  convert_disMax boost tiebreaker compiled := by
    unfold weighted
    split <;> exact interpret_disMax engine tiebreaker compiled _

namespace Compile

/-- What happens in a compilation does not depend on the engine. -/
theorem compile_events_eq (engine : Engine) (fuel : Fuel) (query : Option Query) :
    (compile engine fuel query).events = (compile Plan.engine fuel query).events :=
  compile_events_translated engine.interpretation fuel query

/-- What an engine makes of a query is what it makes of the plan that the query compiles to, and
its errors are those of compiling to a plan. The plan itself need not be known from what the engine
makes of it. -/
theorem compile_result_iff_interpreted_plan (engine : Engine) (fuel : Fuel)
    (query : Option Query) :
    (∀ made, (compile engine fuel query).result = .ok made ↔
      ∃ plan, (compile Plan.engine fuel query).result = .ok plan ∧ engine.interpret plan = made) ∧
    ∀ error, (compile engine fuel query).result = .error error ↔
      (compile Plan.engine fuel query).result = .error error := by
  constructor
  · intro made
    exact compile_ok_iff_translated engine.interpretation fuel query made
  · intro error
    exact compile_error_iff_translated engine.interpretation fuel query error

/-- An engine that tells no two queries apart. -/
def indifferentEngine : Engine where
  Query := Unit
  Conjunction := Unit
  Disjunction := Unit
  DisMax := Unit
  term _ _ := ()
  conjunction _ := ()
  disjunction _ := ()
  disMax _ _ := ()
  exclude _ _ := ()
  boostQuery _ _ := ()
  boostConjunction _ _ := ()
  boostDisjunction _ _ := ()
  boostDisMax _ _ := ()
  ofConjunction _ := ()
  ofDisjunction _ := ()
  ofDisMax _ := ()

/-- An engine may make of a query what it makes of some plan, although this is not the plan that the
query compiles to. -/
theorem indifferentEngine_compiles_other_plan :
    let query := Query.term "a" "x"
    let plan := Plan.term "b" "y" none
    ¬((compile indifferentEngine (some 512) (some query)).result =
        .ok (indifferentEngine.interpret plan) ↔
      (compile Plan.engine (some 512) (some query)).result = .ok plan) := by
  intro query plan same
  have compiled : (compile Plan.engine (some 512) (some query)).result =
      .ok (.term "a" "x" none) := rfl
  have other : Plan.term "a" "x" none = .term "b" "y" none :=
    Except.ok.inj (compiled.symm.trans (same.mp rfl))
  exact absurd (Plan.term.inj other).1 (by decide)

end Compile

end BooleanQuery
