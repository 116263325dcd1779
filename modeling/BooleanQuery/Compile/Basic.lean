import BooleanQuery.Compile.Run
import BooleanQuery.Query.OfText
import BooleanQuery.Query.OfValue

/-!
# Compiling queries

A query is compiled bottom-up: the children of a node in order, then the node itself, and
the first illegal node ends the compilation. A composite node with exactly one child and
no exclusion is replaced by that child, whatever its own weight.

The depth of a node is counted from one at the root; children and exclusions are one
deeper. The counter is a parameter, because its width can matter to a tree that is deeper
than the counter can tell.
-/

namespace BooleanQuery

open Text (Bytes)

/-- A counter of depths. -/
class DepthCounter (Depth : Type) where
  root : Depth
  deeper : Depth → Depth
  number : Depth → Nat

/-- A counter without bound. -/
instance : DepthCounter Nat := ⟨1, (· + 1), id⟩

/-- A counter of 32 bits, which returns to zero after its greatest number. -/
instance : DepthCounter UInt32 := ⟨1, (· + 1), UInt32.toNat⟩

/-- How deep a tree may be; nothing if any depth is allowed. -/
abbrev Fuel := Option UInt32

/-- The fuel of a compilation that asks for none in particular. -/
def defaultFuel : Fuel := some 512

/-- Whether a depth is within a fuel. -/
def Fuel.allows {Depth : Type} [DepthCounter Depth] (fuel : Fuel) (depth : Depth) : Bool :=
  match fuel with
  | none => true
  | some limit => DepthCounter.number depth ≤ limit.toNat

namespace Compile

/-- Give a weight to what is being built, if the weight has an effect. -/
def boosted {α : Type} (target : Engine.Target) (weight : Weight) (apply : Weight → α → α)
    (value : α) : Run α :=
  if weight.isPositive then Run.call (.boost target weight) (apply weight value)
  else pure value

/-- The child that replaces a composite node: its only one, if there is no exclusion. -/
def soleChild? {α : Type} (exclusion : Option Query) (children : List α) : Option α :=
  match exclusion, children with
  | none, [only] => some only
  | _, _ => none

variable (engine : Engine)

/-- Compile a term. A term with children or an exclusion is reported for its shape, also if
its field is missing. -/
def term (query : Query) : Run engine.Query :=
  if query.exclusion.isSome || !query.children.isEmpty then
    Run.fail (.misshapenTerm query.text)
  else if query.field = "" then Run.fail (.missingField query.text)
  else do
    let made ← Run.call (.term query.field query.value) (engine.term query.field query.value)
    boosted .term query.boost engine.boostQuery made

/-- Exclude a query from a conjunction, if there is one. -/
def excluded (exclusion : Option engine.Query) (conjunction : engine.Conjunction) :
    Run engine.Conjunction :=
  match exclusion with
  | none => pure conjunction
  | some query => Run.call .exclude (engine.exclude query conjunction)

/-- Compile a disjunction of compiled children. -/
def disjunction (query : Query) (children : List engine.Query) : Run engine.Query :=
  if query.exclusion.isSome then Run.fail (.misplacedExclusion query.kind query.text)
  else
    match children with
    | [only] => pure only
    | children => do
        let made ← Run.call (.or children.length) (engine.disjunction children)
        let weighted ← boosted .or query.boost engine.boostDisjunction made
        pure (engine.ofDisjunction weighted)

/-- Compile a best-of combination of compiled children. -/
def disMax (query : Query) (children : List engine.Query) : Run engine.Query :=
  if query.exclusion.isSome then Run.fail (.misplacedExclusion query.kind query.text)
  else
    match children with
    | [only] => pure only
    | children => do
        let made ← Run.call (.disMax query.tiebreaker children.length)
          (engine.disMax query.tiebreaker children)
        let weighted ← boosted .disMax query.boost engine.boostDisMax made
        pure (engine.ofDisMax weighted)

section Nodes

variable {Depth : Type} [DepthCounter Depth] (fuel : Fuel)

mutual

/-- Compile a node at a depth. The children of a node of unknown kind are compiled before
the node is refused, so their errors come first. -/
def node (depth : Depth) : Query → Run engine.Query
  | ⟨kind, field, value, boost, exclusion, queries, tiebreaker⟩ =>
      let query : Query := ⟨kind, field, value, boost, exclusion, queries, tiebreaker⟩
      if fuel.allows depth then do
        Run.emit (.entered kind (DepthCounter.number depth))
        match kind with
        | .term => term engine query
        | .and => do
            let compiled ← children (DepthCounter.deeper depth) queries
            match soleChild? exclusion compiled with
            | some only => pure only
            | none => do
                let made ← Run.call (.and compiled.length) (engine.conjunction compiled)
                let unwanted ← exclusionNode (DepthCounter.deeper depth) exclusion
                let narrowed ← excluded engine unwanted made
                let weighted ← boosted .and boost engine.boostConjunction narrowed
                pure (engine.ofConjunction weighted)
        | .or => do
            let compiled ← children (DepthCounter.deeper depth) queries
            disjunction engine query compiled
        | .disMax => do
            let compiled ← children (DepthCounter.deeper depth) queries
            disMax engine query compiled
        | .unknown _ => do
            let _ ← children (DepthCounter.deeper depth) queries
            Run.fail (.unknownKind query.text)
      else Run.fail .tooDeep

/-- Compile the children of a node in order. -/
def children (depth : Depth) : List Query → Run (List engine.Query)
  | [] => pure []
  | query :: queries => do
      let first ← node depth query
      let others ← children depth queries
      pure (first :: others)

/-- Compile the exclusion of a node, if there is one. -/
def exclusionNode (depth : Depth) : Option Query → Run (Option engine.Query)
  | none => pure none
  | some query => do
      let compiled ← node depth query
      pure (some compiled)

end

end Nodes

/-- Compile a tree with a depth counter. -/
def tree (Depth : Type) [DepthCounter Depth] (fuel : Fuel) (query : Query) :
    Run engine.Query :=
  (node engine fuel (DepthCounter.root : Depth) query).reportFailure

end Compile

/-- Compile a query for an engine. A missing query is an error, which is not logged. -/
def compile (engine : Engine) (fuel : Fuel) (query : Option Query) : Run engine.Query :=
  match query with
  | none => Run.fail .noQuery
  | some query => Compile.tree engine Nat fuel query

/-- Decode a text and compile the query that it holds. -/
def compileText (engine : Engine) (fuel : Fuel) (text : Bytes) :
    Except DecodeError (Run engine.Query) :=
  (Query.ofText text).map (compile engine fuel)

/-- Decode a value and compile the query that it holds. -/
def compileValue (engine : Engine) (fuel : Fuel) (value : Json.Value) :
    Except Mismatch (Run engine.Query) :=
  (Query.ofValue value).map (compile engine fuel)

end BooleanQuery
