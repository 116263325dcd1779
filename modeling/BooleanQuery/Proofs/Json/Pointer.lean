import BooleanQuery.Json.Pointer
import BooleanQuery.Proofs.Decimal.Digits
import BooleanQuery.Proofs.Json.Canonical
import BooleanQuery.Proofs.Json.Number

/-!
# Pointers lead everywhere

Every value inside another one has a path of keys and positions, and every path is written as a
pointer. Keys are escaped one character at a time, so a step never holds a slash and the steps are
those between the slashes; reading a step undoes the escapes, and the digits of a position are its
only spelling. Whether a step is a key or a position is decided by the value that it meets, as it
was when the path was found.

The escapes of slashes are undone before those of tildes, which matters to a key that holds the text
of an escape (`unescapeStep_eq_replaceEscape`).
-/

namespace BooleanQuery.Json

/-- A way from a value to one directly inside it. -/
inductive Place where
  | key (name : String)
  | index (position : Nat)
deriving DecidableEq, Repr

/-- Whether a path leads from a value to one inside it. -/
inductive Value.Leads : Value → List Place → Value → Prop where
  | here (value : Value) : Leads value [] value
  | element {elements : List Value} {position : Nat} {inner target : Value} {path : List Place}
      (found : elements[position]? = some inner) (rest : Leads inner path target) :
      Leads (.array elements) (.index position :: path) target
  | member {members : List (String × Value)} {name : String} {inner target : Value}
      {path : List Place} (present : (name, inner) ∈ members) (rest : Leads inner path target) :
      Leads (.object members) (.key name :: path) target

/-- A character of a key in a step of a pointer. -/
def escapedCharacter (character : Char) : List Char :=
  if character = '~' then ['~', '0'] else if character = '/' then ['~', '1'] else [character]

/-- A key as a step of a pointer. -/
def escapeStep (name : List Char) : List Char := name.flatMap escapedCharacter

/-- A step of a pointer that leads to a place. -/
def Place.step : Place → List Char
  | .key name => escapeStep name.toList
  | .index position => (toString position).toList

/-- The pointer that leads along a path: every step after a slash. -/
def pointerAlong (path : List Place) : String :=
  String.ofList (path.flatMap fun place => '/' :: place.step)

section Steps

/-- A character that starts no escape is kept. -/
theorem unescapeStep_cons_of_ne {character : Char} (ordinary : character ≠ '~')
    (rest : List Char) : unescapeStep (character :: rest) = character :: unescapeStep rest := by
  rw [unescapeStep]
  · intro _ isTilde
    exact absurd isTilde ordinary
  · intro _ isTilde
    exact absurd isTilde ordinary

/-- A step without escapes is kept. -/
theorem unescapeStep_of_not_mem {step : List Char} (plain : '~' ∉ step) :
    unescapeStep step = step := by
  induction step with
  | nil => rfl
  | cons character rest inductionHypothesis =>
      rw [List.mem_cons, not_or] at plain
      rw [unescapeStep_cons_of_ne (Ne.symm plain.1), inductionHypothesis plain.2]

/-- Reading a step undoes the escapes of a key. -/
theorem unescapeStep_escapeStep (name : List Char) : unescapeStep (escapeStep name) = name := by
  induction name with
  | nil => rfl
  | cons character name inductionHypothesis =>
      rw [escapeStep, List.flatMap_cons, ← escapeStep, escapedCharacter]
      by_cases tilde : character = '~'
      · rw [if_pos tilde, tilde]
        exact congrArg ('~' :: ·) inductionHypothesis
      · rw [if_neg tilde]
        by_cases slash : character = '/'
        · rw [if_pos slash, slash]
          exact congrArg ('/' :: ·) inductionHypothesis
        · rw [if_neg slash, List.singleton_append, unescapeStep_cons_of_ne tilde,
            inductionHypothesis]

/-- An escaped key holds no slash. -/
theorem slash_not_mem_escapeStep (name : List Char) : '/' ∉ escapeStep name := by
  rw [escapeStep, List.mem_flatMap]
  rintro ⟨character, -, member⟩
  rw [escapedCharacter] at member
  by_cases tilde : character = '~'
  · rw [if_pos tilde] at member
    exact absurd member (by decide)
  · rw [if_neg tilde] at member
    by_cases slash : character = '/'
    · rw [if_pos slash] at member
      exact absurd member (by decide)
    · rw [if_neg slash, List.mem_singleton] at member
      exact slash member.symm

theorem isDigit_of_mem_toString {number : Nat} {character : Char}
    (member : character ∈ (toString number).toList) : character.isDigit := by
  rw [Nat.toString_eq_repr, Nat.toList_repr] at member
  exact Decimal.isDigit_of_mem_digitsOf member

/-- No step of a pointer holds a slash. -/
theorem Place.slash_not_mem_step (place : Place) : '/' ∉ place.step := by
  cases place with
  | key name => exact slash_not_mem_escapeStep name.toList
  | index position =>
      intro member
      exact absurd (isDigit_of_mem_toString member) (by decide)

/-- The digits of a position are its spelling. -/
theorem stepIndex?_toString (position : Nat) :
    stepIndex? (toString position).toList = some position := by
  have spelled := Decimal.naturalOfDigits?_digitsOf position
  obtain ⟨first, others, shape, leading⟩ := toDigits_shape position
  rw [Decimal.digitsOf, shape] at spelled
  rw [Nat.toString_eq_repr, Nat.toList_repr, shape]
  unfold stepIndex?
  split
  · next more same =>
      -- A further digit stands only after a first one that is not zero.
      obtain ⟨rfl, rfl⟩ := List.cons.inj same
      rcases leading with nonzero | alone
      · exact absurd rfl nonzero
      · cases alone
  · exact spelled

end Steps

/-- A text with one kind of escape replaced, wherever it stands. -/
def replaceEscape (digit character : Char) : List Char → List Char
  | [] => []
  | '~' :: next :: rest =>
      if next = digit then character :: replaceEscape digit character rest
      else '~' :: replaceEscape digit character (next :: rest)
  | other :: rest => other :: replaceEscape digit character rest

section Escapes

variable {digit character : Char}

/-- A character that does not start an escape of this kind is kept. -/
theorem replaceEscape_cons {other : Char} {rest : List Char}
    (kept : other = '~' → ∀ next ∈ rest.head?, next ≠ digit) :
    replaceEscape digit character (other :: rest) =
      other :: replaceEscape digit character rest := by
  by_cases tilde : other = '~'
  · subst tilde
    cases rest with
    | nil => rfl
    | cons next rest => rw [replaceEscape, if_neg (kept rfl next rfl)]
  · rw [replaceEscape]
    intro _ _ isTilde
    exact absurd isTilde tilde

/-- A text in which escapes are replaced starts as it did, or with what replaces them. -/
theorem head?_replaceEscape {text : List Char} {first : Char}
    (starts : first ∈ (replaceEscape digit character text).head?) :
    first = character ∨ first ∈ text.head? := by
  fun_cases replaceEscape digit character text with
  | case1 => exact .inr starts
  | case2 rest =>
      rw [replaceEscape, if_pos rfl] at starts
      exact .inl (Option.some.inj starts).symm
  | case3 next rest notDigit =>
      rw [replaceEscape, if_neg notDigit] at starts
      exact .inr starts
  | case4 other rest notTilde =>
      rw [replaceEscape.eq_3 _ _ _ _ notTilde] at starts
      exact .inr starts

/-- Undoing both kinds of escapes at once is replacing those of slashes first, and then those of
tildes. -/
theorem unescapeStep_eq_replaceEscape (step : List Char) :
    unescapeStep step = replaceEscape '0' '~' (replaceEscape '1' '/' step) := by
  fun_induction unescapeStep step with
  | case1 rest inductionHypothesis =>
      rw [inductionHypothesis]
      rfl
  | case2 rest inductionHypothesis =>
      rw [inductionHypothesis]
      rfl
  | case3 character rest notSlash notTilde inductionHypothesis =>
      have notOne : character = '~' → ∀ next ∈ rest.head?, next ≠ '1' := by
        rintro rfl next first rfl
        obtain ⟨others, rfl⟩ := List.head?_eq_some_iff.mp first
        exact notSlash others rfl rfl
      have notZero : character = '~' → ∀ next ∈ (replaceEscape '1' '/' rest).head?, next ≠ '0' := by
        rintro rfl next first rfl
        rcases head?_replaceEscape first with isSlash | first
        · exact absurd isSlash (by decide)
        · obtain ⟨others, rfl⟩ := List.head?_eq_some_iff.mp first
          exact notTilde others rfl rfl
      rw [replaceEscape_cons notOne, replaceEscape_cons notZero, inductionHypothesis]
  | case4 => rfl

end Escapes

section Pieces

/-- There is always a piece. -/
theorem splitSlashes_ne_nil (text : List Char) : splitSlashes text ≠ [] := by
  cases text with
  | nil => nofun
  | cons character rest =>
      rw [splitSlashes]
      split
      · nofun
      · split <;> nofun

/-- A piece ends where a slash stands. -/
theorem splitSlashes_slash (rest : List Char) :
    splitSlashes ('/' :: rest) = [] :: splitSlashes rest := by
  rw [splitSlashes]
  cases pieces : splitSlashes rest with
  | nil => exact absurd pieces (splitSlashes_ne_nil rest)
  | cons piece pieces => rfl

theorem splitSlashes_cons {character : Char} (ordinary : character ≠ '/') {rest : List Char}
    {piece : List Char} {pieces : List (List Char)} (split : splitSlashes rest = piece :: pieces) :
    splitSlashes (character :: rest) = (character :: piece) :: pieces := by
  rw [splitSlashes, split]
  exact if_neg ordinary

/-- Pieces that hold no slash are those between the slashes that separate them. -/
theorem splitSlashes_flatMap {first : List Char} {others : List (List Char)}
    (absent : '/' ∉ first) (absentToo : ∀ other ∈ others, '/' ∉ other) :
    splitSlashes (first ++ others.flatMap fun other => '/' :: other) = first :: others := by
  induction others generalizing first with
  | nil =>
      induction first with
      | nil => rfl
      | cons character first inductionHypothesis =>
          rw [List.mem_cons, not_or] at absent
          exact splitSlashes_cons (Ne.symm absent.1) (inductionHypothesis absent.2)
  | cons second others onOthers =>
      induction first with
      | nil =>
          rw [List.forall_mem_cons] at absentToo
          exact (splitSlashes_slash _).trans
            (congrArg ([] :: ·) (onOthers absentToo.1 absentToo.2))
      | cons character first inductionHypothesis =>
          rw [List.mem_cons, not_or] at absent
          exact splitSlashes_cons (Ne.symm absent.1) (inductionHypothesis absent.2)

end Pieces

/-- The steps of the pointer along a path are those to its places, without the escapes. -/
theorem pointerSteps?_pointerAlong (path : List Place) :
    pointerSteps? (pointerAlong path) = some (path.map fun place => unescapeStep place.step) := by
  rw [pointerSteps?, pointerAlong, String.toList_ofList]
  cases path with
  | nil => rfl
  | cons place path =>
      have pieces : splitSlashes (place.step ++ path.flatMap fun place => '/' :: place.step) =
          place.step :: path.map Place.step := by
        have absent (step : List Char) (among : step ∈ path.map Place.step) : '/' ∉ step := by
          obtain ⟨other, -, rfl⟩ := List.mem_map.mp among
          exact other.slash_not_mem_step
        rw [← splitSlashes_flatMap place.slash_not_mem_step absent, List.flatMap_map]
      simp only [List.flatMap_cons, List.cons_append, pieces, List.map_cons, List.map_map]
      rfl

namespace Value

/-- The step to a place leads where the place is. -/
theorem descend?_of_leads {value target : Value} {path : List Place}
    (distinct : DistinctKeys value) (leads : value.Leads path target) :
    value.descend? (path.map fun place => unescapeStep place.step) = some target := by
  induction leads with
  | here value => rfl
  | @element elements position inner target path found rest inductionHypothesis =>
      have each := distinctKeys_array_iff.mp distinct inner (List.mem_of_getElem? found)
      have plain : '~' ∉ (toString position).toList := fun member =>
        absurd (isDigit_of_mem_toString member) (by decide)
      have reached : (array elements).step? (unescapeStep (Place.index position).step) =
          some inner := by
        rw [Place.step, unescapeStep_of_not_mem plain, step?, stepIndex?_toString]
        exact found
      rw [List.map_cons, descend?, reached]
      exact inductionHypothesis each
  | @member members name inner target path present rest inductionHypothesis =>
      obtain ⟨keys, each⟩ := distinctKeys_object_iff.mp distinct
      have reached : (object members).step? (unescapeStep (Place.key name).step) = some inner := by
        rw [Place.step, unescapeStep_escapeStep, step?, String.ofList_toList]
        exact lookup_of_mem keys present
      rw [List.map_cons, descend?, reached]
      exact inductionHypothesis (each _ present)

/-- The pointer along a path leads where the path does. -/
theorem at?_pointerAlong {value target : Value} {path : List Place}
    (distinct : DistinctKeys value) (leads : value.Leads path target) :
    value.at? (pointerAlong path) = some target := by
  rw [at?, pointerSteps?_pointerAlong]
  exact descend?_of_leads distinct leads

end Value

end BooleanQuery.Json
