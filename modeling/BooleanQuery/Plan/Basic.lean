import BooleanQuery.Engine

/-!
# Plans

A plan records what an engine was asked for: which combinations of which queries in which
order, with their weights, exclusions and tiebreakers. Plans are the queries of an engine
of their own, which matches and scores nothing.

`Plan.agrees` compares weights as numbers, as `Query.agrees` does for queries.
-/

namespace BooleanQuery

/-- What an engine was asked for. A boost that was not given differs from a boost of
zero. -/
inductive Plan where
  | term (field value : String) (boost : Option Weight)
  | and (children : List Plan) (exclusion : Option Plan) (boost : Option Weight)
  | or (children : List Plan) (boost : Option Weight)
  | disMax (tiebreaker : Weight) (children : List Plan) (boost : Option Weight)

namespace Plan

instance : Inhabited Plan := ⟨.term "" "" none⟩

/-- The weight of a plan, if one was given. -/
@[simp] def boost : Plan → Option Weight
  | .term _ _ boost | .and _ _ boost | .or _ boost | .disMax _ _ boost => boost

/-- The children of a plan in order, without its exclusion. -/
@[simp] def children : Plan → List Plan
  | .term _ _ _ => []
  | .and children _ _ | .or children _ | .disMax _ children _ => children

/-- The exclusion of a plan, if it has one. -/
@[simp] def exclusion : Plan → Option Plan
  | .and _ exclusion _ => exclusion
  | .term _ _ _ | .or _ _ | .disMax _ _ _ => none

/-- A plan with the given weight in place of its own. -/
def boosted (weight : Weight) : Plan → Plan
  | .term field value _ => .term field value (some weight)
  | .and children exclusion _ => .and children exclusion (some weight)
  | .or children _ => .or children (some weight)
  | .disMax tiebreaker children _ => .disMax tiebreaker children (some weight)

/-- A conjunction with the given exclusion in place of its own; no other plan has one. -/
def excluding? (plan exclusion : Plan) : Option Plan :=
  match plan with
  | .and children _ boost => some (.and children (some exclusion) boost)
  | .term _ _ _ | .or _ _ | .disMax _ _ _ => none

/-- Whether two weights agree, both given or both not. -/
def boostsAgree : Option Weight → Option Weight → Bool
  | none, none => true
  | some weight, some other => weight.sameNumber other
  | _, _ => false

mutual

/-- Whether two plans agree, weights compared as numbers. -/
def agrees : Plan → Plan → Bool
  | .term field value boost, .term field' value' boost' =>
      field = field' && value = value' && boostsAgree boost boost'
  | .and children exclusion boost, .and children' exclusion' boost' =>
      agreesAll children children' && agreesOption exclusion exclusion' &&
        boostsAgree boost boost'
  | .or children boost, .or children' boost' =>
      agreesAll children children' && boostsAgree boost boost'
  | .disMax tiebreaker children boost, .disMax tiebreaker' children' boost' =>
      tiebreaker.sameNumber tiebreaker' && agreesAll children children' &&
        boostsAgree boost boost'
  | _, _ => false

/-- Whether two exclusions agree. -/
def agreesOption : Option Plan → Option Plan → Bool
  | none, none => true
  | some plan, some other => plan.agrees other
  | _, _ => false

/-- Whether two lists of plans agree, in the same order. -/
def agreesAll : List Plan → List Plan → Bool
  | [], [] => true
  | plan :: plans, other :: others => plan.agrees other && agreesAll plans others
  | _, _ => false

end

/-- A conjunction that may still be given an exclusion and a weight. -/
structure OpenConjunction where
  children : List Plan
  exclusion : Option Plan
  boost : Option Weight

/-- The plan of a conjunction. -/
def OpenConjunction.close (conjunction : OpenConjunction) : Plan :=
  .and conjunction.children conjunction.exclusion conjunction.boost

/-- The engine whose queries are plans. -/
def engine : Engine where
  Query := Plan
  Conjunction := OpenConjunction
  Disjunction := Plan
  DisMax := Plan
  term field value := .term field value none
  conjunction children := ⟨children, none, none⟩
  disjunction children := .or children none
  disMax tiebreaker children := .disMax tiebreaker children none
  exclude exclusion conjunction := { conjunction with exclusion := some exclusion }
  boostQuery := boosted
  boostConjunction weight conjunction := { conjunction with boost := some weight }
  boostDisjunction := boosted
  boostDisMax := boosted
  ofConjunction := OpenConjunction.close
  ofDisjunction plan := plan
  ofDisMax plan := plan

end Plan

end BooleanQuery
