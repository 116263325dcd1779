import BooleanQuery.Json.Writer

/-!
# Kinds of query

A query is of one of four kinds, each of which has a name and a number. Any other number
is kept as it is, so that it can be reported together with the query that bears it.
-/

namespace BooleanQuery

/-- What a query asks for. -/
inductive Kind where
  | term
  | and
  | or
  | disMax
  | unknown (number : Int32)
deriving DecidableEq, Repr, Inhabited

namespace Kind

/-- The kind of a number. -/
def ofNumber (number : Int32) : Kind :=
  if number = 0 then .term
  else if number = 1 then .and
  else if number = 2 then .or
  else if number = 3 then .disMax
  else .unknown number

/-- The kind of a name. -/
def ofName? (name : String) : Option Kind :=
  if name = "TERM" then some .term
  else if name = "AND" then some .and
  else if name = "OR" then some .or
  else if name = "DISMAX" then some .disMax
  else none

/-- The number of a kind. -/
def number : Kind → Int32
  | .term => 0
  | .and => 1
  | .or => 2
  | .disMax => 3
  | .unknown number => number

/-- The name of a kind; an unknown kind goes by its number. -/
def name : Kind → String
  | .term => "TERM"
  | .and => "AND"
  | .or => "OR"
  | .disMax => "DISMAX"
  | .unknown number => toString number.toInt

/-- The JSON text of a kind: its name as a string, or its number if it is unknown. -/
def json : Kind → List Char
  | .unknown number => Json.integerText number.toInt
  | known => Json.quoted known.name

/-- Whether a kind is that of terms. -/
def isTerm : Kind → Bool
  | .term => true
  | _ => false

end Kind

end BooleanQuery
