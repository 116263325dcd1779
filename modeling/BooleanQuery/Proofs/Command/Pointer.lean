import BooleanQuery.Proofs.Command.Stages
import BooleanQuery.Proofs.Json.Pointer

/-!
# Queries inside documents

A pointer may choose every value inside a document. What is done with the value then does not depend
on where it was found: the report is that of a document of its own that holds the value.
-/

namespace BooleanQuery.Command

open Json (Value Place pointerAlong)

section Documents

variable {document : String} {whole selected : Value}

theorem valueIn_none (isValue : Value.ofText (Text.bytesOf document) = .ok whole) :
    valueIn document none = .ok whole := by
  rw [valueIn, isValue]

/-- The pointer along a path chooses the value that the path leads to. -/
theorem valueIn_pointerAlong {path : List Place}
    (isValue : Value.ofText (Text.bytesOf document) = .ok whole)
    (leads : whole.Leads path selected) :
    valueIn document (some (pointerAlong path)) = .ok selected := by
  rw [valueIn, isValue]
  dsimp only
  rw [Value.at?_pointerAlong (Value.distinctKeys_of_ofText isValue) leads]

end Documents

/-- Every value that a path leads to in a document is chosen by the pointer along the path. The
report on it, with its plan or message, is that on any document that holds this value alone,
wherever the two documents come from. -/
theorem pointer_selects_as_alone {document : String} {whole selected : Value} {path : List Place}
    (isValue : Value.ofText (Text.bytesOf document) = .ok whole)
    (leads : whole.Leads path selected) :
    valueIn document (some (pointerAlong path)) = .ok selected ∧
    ∀ text, Value.ofText (Text.bytesOf text) = .ok selected →
      (∀ fuel, documentReport fuel (some (pointerAlong path)) document =
        documentReport fuel none text) ∧
      ∀ (surroundings otherSurroundings : Surroundings) (arguments other : Arguments),
        Loads surroundings arguments document → arguments.pointer = some (pointerAlong path) →
        Loads otherSurroundings other text → other.pointer = none →
        arguments.compileFuel = other.compileFuel →
        planReport surroundings arguments = planReport otherSurroundings other := by
  have inside := valueIn_pointerAlong isValue leads
  refine ⟨inside, fun text isAlone => ?_⟩
  have alone := valueIn_none isAlone
  have reports (fuel : Fuel) : documentReport fuel (some (pointerAlong path)) document =
      documentReport fuel none text := by
    rw [documentReport_eq inside, documentReport_eq alone]
  refine ⟨reports, ?_⟩
  intro surroundings otherSurroundings arguments other loads pointer loadsOther noPointer fuels
  rw [loads.planReport_eq, loadsOther.planReport_eq, pointer, noPointer, fuels]
  exact reports other.compileFuel

/-- A term below keys that look like a path, an escape, nothing and a position. -/
def buriedTerm : String :=
  "\x7b\"a/b\":[null,\x7b\"~1\":\x7b\"\":\x7b\"0\":\x7b\"field\":\"x\"\x7d\x7d\x7d\x7d]\x7d"

/-- The same term as a document of its own. -/
def bareTerm : String := "\x7b\"field\":\"x\"\x7d"

/-- The value of the term. -/
def termValue : Value := .object [("field", .scalar (.text "x"))]

theorem ofText_buriedTerm : Value.ofText (Text.bytesOf buriedTerm) =
    .ok (.object [("a/b", .array [.scalar .null,
      .object [("~1", .object [("", .object [("0", termValue)])])]])]) := by
  rw [← mem_toOption_iff]
  decide +kernel

theorem ofText_bareTerm : Value.ofText (Text.bytesOf bareTerm) = .ok termValue := by
  rw [← mem_toOption_iff]
  decide +kernel

/-- The term is chosen by a pointer with both escapes, an empty step and two numbers, of which the
first is a position and the second a key. -/
theorem pointer_selects_as_alone_buried :
    let path : List Place := [.key "a/b", .index 1, .key "~1", .key "", .key "0"]
    let pointer := "/a~1b/1/~01//0"
    let surroundings : Surroundings := ⟨.ok [], fun _ => .ok []⟩
    pointerAlong path = pointer ∧
      (∃ whole, Value.ofText (Text.bytesOf buriedTerm) = .ok whole ∧
        whole.Leads path termValue) ∧
      Value.ofText (Text.bytesOf bareTerm) = .ok termValue ∧
      valueIn buriedTerm (some pointer) = .ok termValue ∧
      documentReport defaultFuel (some pointer) buriedTerm =
        documentReport defaultFuel none bareTerm ∧
      planReport surroundings { text := some buriedTerm, pointer := some pointer } =
        planReport surroundings { text := some bareTerm } := by
  intro path pointer surroundings
  have spelled : pointerAlong path = pointer := by decide +kernel
  have leads : Value.Leads (.object [("a/b", .array [.scalar .null,
      .object [("~1", .object [("", .object [("0", termValue)])])]])]) path termValue :=
    .member List.mem_cons_self (.element rfl (.member List.mem_cons_self
      (.member List.mem_cons_self (.member List.mem_cons_self (.here termValue)))))
  obtain ⟨inside, asAlone⟩ := pointer_selects_as_alone ofText_buriedTerm leads
  obtain ⟨reports, plans⟩ := asAlone bareTerm ofText_bareTerm
  rw [← spelled]
  exact ⟨rfl, ⟨_, ofText_buriedTerm, leads⟩, ofText_bareTerm, inside, reports defaultFuel,
    plans surroundings surroundings _ _ rfl rfl rfl rfl rfl⟩

end BooleanQuery.Command
