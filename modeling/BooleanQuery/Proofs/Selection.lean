import BooleanQuery.Proofs.Compile.Outline

/-!
# Which documents match

A document is known by the terms that match it. What a combination says of a document follows
from what its children say, by the same rules in queries and in plans: `Document.verdict` is
that rule for one node, whose outline tells which combination it is. What a combination of
nothing says is up to the retrieval system, so it is part of the document here.
-/

namespace BooleanQuery

/-- A document, as far as queries can tell: which terms match it, and which combinations of
nothing. -/
structure Document where
  term : String → String → Bool
  emptyAnd : Bool
  emptyOr : Bool
  emptyDisMax : Bool

namespace Document

variable (document : Document)

/-- Whether a conjunction matches: all of the children do, and the exclusion does not. -/
def conjunction (children : List Bool) (exclusion : Option Bool) : Bool :=
  (if children.isEmpty then document.emptyAnd else children.all id) && exclusion.all not

/-- Whether a disjunction matches: one of the children does. -/
def disjunction (children : List Bool) : Bool :=
  if children.isEmpty then document.emptyOr else children.any id

/-- Whether a best-of combination matches: one of the children does. -/
def disMax (children : List Bool) : Bool :=
  if children.isEmpty then document.emptyDisMax else children.any id

end Document

namespace Query

mutual

/-- Whether a query matches a document. Only the members that belong to the kind of a node
count. -/
def selects (document : Document) : Query → Bool
  | ⟨kind, field, value, _, exclusion, children, _⟩ =>
      match kind with
      | .term => document.term field value
      | .and =>
          document.conjunction (selectsEach document children)
            (selectsOption document exclusion)
      | .or => document.disjunction (selectsEach document children)
      | .disMax => document.disMax (selectsEach document children)
      | .unknown _ => false

/-- Which of several queries match a document. -/
def selectsEach (document : Document) : List Query → List Bool
  | [] => []
  | query :: queries => query.selects document :: selectsEach document queries

/-- Whether an exclusion matches a document. -/
def selectsOption (document : Document) : Option Query → Option Bool
  | none => none
  | some excluded => some (excluded.selects document)

end

/-- Queries match a document or not, one by one. -/
@[simp] theorem selectsEach_eq_map (document : Document) (queries : List Query) :
    selectsEach document queries = queries.map (selects document) := by
  induction queries with
  | nil => rfl
  | cons query queries inductionHypothesis =>
      rw [selectsEach, List.map_cons, inductionHypothesis]

@[simp] theorem selectsOption_eq_map (document : Document) (exclusion : Option Query) :
    selectsOption document exclusion = exclusion.map (selects document) := by
  cases exclusion <;> rfl

end Query

namespace Plan

mutual

/-- Whether a plan matches a document. -/
def selects (document : Document) : Plan → Bool
  | .term field value _ => document.term field value
  | .and children exclusion _ =>
      document.conjunction (selectsEach document children) (selectsOption document exclusion)
  | .or children _ => document.disjunction (selectsEach document children)
  | .disMax _ children _ => document.disMax (selectsEach document children)

/-- Which of several plans match a document. -/
def selectsEach (document : Document) : List Plan → List Bool
  | [] => []
  | plan :: plans => plan.selects document :: selectsEach document plans

/-- Whether an exclusion matches a document. -/
def selectsOption (document : Document) : Option Plan → Option Bool
  | none => none
  | some excluded => some (excluded.selects document)

end

/-- Plans match a document or not, one by one. -/
@[simp] theorem selectsEach_eq_map (document : Document) (plans : List Plan) :
    selectsEach document plans = plans.map (selects document) := by
  induction plans with
  | nil => rfl
  | cons plan plans inductionHypothesis =>
      rw [selectsEach, List.map_cons, inductionHypothesis]

@[simp] theorem selectsOption_eq_map (document : Document) (exclusion : Option Plan) :
    selectsOption document exclusion = exclusion.map (selects document) := by
  cases exclusion <;> rfl

end Plan

/-- Whether a node with an outline matches a document, given which of its children do and
whether its exclusion does. -/
def Document.verdict (document : Document) (outline : Outline) (children : List Bool)
    (exclusion : Option Bool) : Bool :=
  match outline.kind with
  | .term => outline.term.any fun (field, value) => document.term field value
  | .and => document.conjunction children exclusion
  | .or => document.disjunction children
  | .disMax => document.disMax children
  | .unknown _ => false

/-- Whether a query matches follows from its outline and the queries below it. -/
theorem Query.selects_eq_verdict (document : Document) (query : Query) :
    query.selects document =
      document.verdict query.outline (query.children.map (selects document))
        (query.exclusion.map (selects document)) := by
  obtain ⟨kind, field, value, boost, exclusion, children, tiebreaker⟩ := query
  cases kind <;>
    simp [selects, Document.verdict, outline]

/-- Whether a plan matches follows from its outline and the plans below it, by the same rule
as for queries. -/
theorem Plan.selects_eq_verdict (document : Document) (plan : Plan) :
    plan.selects document =
      document.verdict plan.outline (plan.children.map (selects document))
        (plan.exclusion.map (selects document)) := by
  cases plan <;>
    simp [selects, Document.verdict, outline]

/-- A node around a single child matches when the child does. -/
theorem Document.verdict_of_isCollapsed (document : Document) {query : Query}
    (collapsed : query.isCollapsed = true) (only : Bool) :
    document.verdict query.outline [only] none = only := by
  unfold Query.isCollapsed at collapsed
  unfold Document.verdict Query.outline
  cases kind : query.kind <;>
    simp [kind, Document.conjunction, Document.disjunction, Document.disMax] at collapsed ⊢

end BooleanQuery
