import BooleanQuery.Plan.Basic

/-!
# Plans read by engines

A plan says which operations were asked for and in which order, so every engine can carry
them out: a combination of the children first, then the exclusion of a conjunction, then the
boost, and only then the conversion to a query. Nothing is assumed of the engine, so none of
these steps may change its place.
-/

namespace BooleanQuery.Engine

/-- A value with the boost of a plan. A boost that was given counts, whatever number it is. -/
def given {α : Type} (boost : Option Weight) (apply : Weight → α → α) (value : α) : α :=
  match boost with
  | none => value
  | some weight => apply weight value

/-- A conjunction without what a query matches, if there is one to exclude. -/
def without (engine : Engine) (exclusion : Option engine.Query)
    (conjunction : engine.Conjunction) : engine.Conjunction :=
  match exclusion with
  | none => conjunction
  | some query => engine.exclude query conjunction

mutual

/-- The query that an engine makes of a plan. -/
def interpret (engine : Engine) : Plan → engine.Query
  | .term field value boost => given boost engine.boostQuery (engine.term field value)
  | .and children exclusion boost =>
      let conjunction := engine.conjunction (interpretAll engine children)
      let narrowed := engine.without (interpretOption engine exclusion) conjunction
      engine.ofConjunction (given boost engine.boostConjunction narrowed)
  | .or children boost =>
      let disjunction := engine.disjunction (interpretAll engine children)
      engine.ofDisjunction (given boost engine.boostDisjunction disjunction)
  | .disMax tiebreaker children boost =>
      let disMax := engine.disMax tiebreaker (interpretAll engine children)
      engine.ofDisMax (given boost engine.boostDisMax disMax)

/-- The queries that an engine makes of plans, in order. -/
def interpretAll (engine : Engine) : List Plan → List engine.Query
  | [] => []
  | plan :: plans => interpret engine plan :: interpretAll engine plans

/-- The query that an engine makes of an exclusion. -/
def interpretOption (engine : Engine) : Option Plan → Option engine.Query
  | none => none
  | some excluded => some (interpret engine excluded)

end

/-- Plans are interpreted one by one. -/
@[simp] theorem interpretAll_eq_map (engine : Engine) (plans : List Plan) :
    engine.interpretAll plans = plans.map engine.interpret := by
  induction plans with
  | nil => rfl
  | cons plan plans inductionHypothesis =>
      rw [interpretAll, List.map_cons, inductionHypothesis]

@[simp] theorem interpretOption_eq_map (engine : Engine) (exclusion : Option Plan) :
    engine.interpretOption exclusion = exclusion.map engine.interpret := by
  cases exclusion <;> rfl

/-- The interpretation of a conjunction. -/
theorem interpret_and (engine : Engine) (children : List Plan) (exclusion : Option Plan)
    (boost : Option Weight) :
    engine.interpret (.and children exclusion boost) =
      engine.ofConjunction (given boost engine.boostConjunction
        (engine.without (exclusion.map engine.interpret)
          (engine.conjunction (children.map engine.interpret)))) := by
  rw [interpret, interpretAll_eq_map, interpretOption_eq_map]

theorem interpret_or (engine : Engine) (children : List Plan) (boost : Option Weight) :
    engine.interpret (.or children boost) =
      engine.ofDisjunction (given boost engine.boostDisjunction
        (engine.disjunction (children.map engine.interpret))) := by
  rw [interpret, interpretAll_eq_map]

/-- The interpretation of a best-of combination. -/
theorem interpret_disMax (engine : Engine) (tiebreaker : Weight) (children : List Plan)
    (boost : Option Weight) :
    engine.interpret (.disMax tiebreaker children boost) =
      engine.ofDisMax (given boost engine.boostDisMax
        (engine.disMax tiebreaker (children.map engine.interpret))) := by
  rw [interpret, interpretAll_eq_map]

end BooleanQuery.Engine
