import BooleanQuery.Query.Weight

/-!
# Engines

An engine is what a retrieval system offers to a compiler: how to make a query of a term,
how to combine queries, how to weight them, and how to exclude one from a conjunction.
Nothing is assumed about these operations. In particular weighting and excluding need not
commute, so their order belongs to the result.

A combination is weighted, and a conjunction given its exclusion, before it becomes a
query of the engine.
-/

namespace BooleanQuery

/-- The operations of a retrieval system, over types of its own. Combinations may still be given
a weight, and conjunctions an exclusion, before they become queries. What a combination of
nothing matches is up to the engine. -/
structure Engine where
  Query : Type
  Conjunction : Type
  Disjunction : Type
  DisMax : Type
  term : String → String → Query
  conjunction : List Query → Conjunction
  disjunction : List Query → Disjunction
  disMax : Weight → List Query → DisMax
  exclude : Query → Conjunction → Conjunction
  boostQuery : Weight → Query → Query
  boostConjunction : Weight → Conjunction → Conjunction
  boostDisjunction : Weight → Disjunction → Disjunction
  boostDisMax : Weight → DisMax → DisMax
  ofConjunction : Conjunction → Query
  ofDisjunction : Disjunction → Query
  ofDisMax : DisMax → Query

namespace Engine

/-- What a weight is given to. -/
inductive Target where
  | term
  | and
  | or
  | disMax
deriving DecidableEq, Repr

/-- The name of what a weight is given to. -/
def Target.name : Target → String
  | .term => "term"
  | .and => "and"
  | .or => "or"
  | .disMax => "dismax"

/-- A call of an operation of an engine. Queries among the arguments are not kept: they are
the results of earlier calls, so their number tells which. -/
inductive Call where
  | term (field value : String)
  | and (count : Nat)
  | or (count : Nat)
  | disMax (tiebreaker : Weight) (count : Nat)
  | exclude
  | boost (target : Target) (weight : Weight)
deriving DecidableEq, Repr

end Engine

end BooleanQuery
