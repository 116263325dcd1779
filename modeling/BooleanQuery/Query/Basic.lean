import BooleanQuery.Query.Kind
import BooleanQuery.Query.Weight

/-!
# Queries

A query is a tree. Every node has all members; which of them mean something depends on
its kind, and whether a node is legal is decided when it is compiled.

Two queries may be the same tree, or agree in the sense of `Query.agrees`, which compares
weights as numbers: then both zeros agree, and a weight that is not a number agrees with
none.
-/

namespace BooleanQuery

/-- A node of a query tree. -/
structure Query where
  kind : Kind := .term
  field : String := ""
  value : String := ""
  /-- The factor of the score; it counts only above zero. -/
  boost : Weight := .zero
  exclusion : Option Query := none
  children : List Query := []
  tiebreaker : Weight := .zero

namespace Query

instance : Inhabited Query := ⟨{}⟩

/-- A term: documents with a value in a field. -/
def term (field value : String) : Query := { field, value }

/-- The conjunction of queries. -/
def and (children : List Query) : Query := { kind := .and, children }

/-- The disjunction of queries. -/
def or (children : List Query) : Query := { kind := .or, children }

/-- The best of several queries. -/
def disMax (tiebreaker : Weight) (children : List Query) : Query :=
  { kind := .disMax, children, tiebreaker }

/-- The factor that a query asks for, if any: a boost that is not above zero is none. -/
def effectiveBoost (query : Query) : Option Weight :=
  if query.boost.isPositive then some query.boost else none

mutual

/-- Whether two queries agree, weights compared as numbers. -/
def agrees : Query → Query → Bool
  | ⟨kind, field, value, boost, exclusion, children, tiebreaker⟩, other =>
      kind = other.kind && field = other.field && value = other.value &&
        boost.sameNumber other.boost && agreesOption exclusion other.exclusion &&
        agreesAll children other.children && tiebreaker.sameNumber other.tiebreaker

/-- Whether two exclusions agree. -/
def agreesOption : Option Query → Option Query → Bool
  | none, none => true
  | some query, some other => query.agrees other
  | _, _ => false

/-- Whether two lists of queries agree, in the same order. -/
def agreesAll : List Query → List Query → Bool
  | [], [] => true
  | query :: queries, other :: others => query.agrees other && agreesAll queries others
  | _, _ => false

end

end Query

end BooleanQuery
