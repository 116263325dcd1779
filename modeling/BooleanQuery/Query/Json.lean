import BooleanQuery.Query.Basic

/-!
# The JSON text of a query

A query is written as an object without blanks. Members appear in the order of their
declaration, and those with their default are left out; so are zero weights of either
sign. A weight that is not finite is written as null, which reads back as zero.
-/

namespace BooleanQuery

open Json (quoted commaSeparated)

namespace Query

/-- A member of an object under its name. -/
def jsonMember (name : String) (value : List Char) : List Char :=
  quoted name ++ ':' :: value

/-- The member of a string, if it is not empty. -/
def textMember (name value : String) : List (List Char) :=
  if value = "" then [] else [jsonMember name (quoted value)]

/-- The member of a weight, if it is not zero. -/
def weightMember (name : String) (weight : Weight) : List (List Char) :=
  if weight.isZero then [] else [jsonMember name weight.json]

mutual

/-- The compact JSON text of a query, as characters. -/
def json : Query → List Char
  | ⟨kind, field, value, boost, exclusion, children, tiebreaker⟩ =>
      '\x7b' :: commaSeparated
        ((if kind.isTerm then [] else [jsonMember "type" kind.json]) ++
          textMember "field" field ++
          textMember "value" value ++
          weightMember "boost" boost ++
          exclusionMember exclusion ++
          childrenMember children ++
          weightMember "tiebreaker" tiebreaker) ++ ['\x7d']

/-- The member of an exclusion, if there is one. -/
def exclusionMember : Option Query → List (List Char)
  | none => []
  | some exclusion => [jsonMember "not" exclusion.json]

/-- The member of a list of children, if it is not empty. -/
def childrenMember : List Query → List (List Char)
  | [] => []
  | child :: children =>
      [jsonMember "queries"
        ('[' :: commaSeparated (child.json :: jsonAll children) ++ [']'])]

/-- The texts of a list of queries. -/
def jsonAll : List Query → List (List Char)
  | [] => []
  | query :: queries => query.json :: jsonAll queries

end

/-- The compact JSON text of a query. -/
def text (query : Query) : String := String.ofList query.json

instance : ToString Query := ⟨text⟩

end Query

end BooleanQuery
