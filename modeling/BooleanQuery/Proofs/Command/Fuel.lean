import BooleanQuery.Command.Usage
import BooleanQuery.Proofs.Compile.Fuel
import BooleanQuery.Proofs.Query.DecodedDepth
import BooleanQuery.Proofs.Query.RoundTrip

/-!
# Fuel for decoded queries

A decoded query is no deeper than the brackets that may be open while a text is read. A fuel
that allows this depth therefore changes nothing, whether the query is decoded from a text,
from a value inside a document, or by the command. No smaller fuel has this property: nested
conjunctions open one bracket for each node.
-/

namespace BooleanQuery

open Text (Bytes)
open Json (Value greatestNesting)
open Json.Value (Within within_of_written within_of_ofText)

section Decoded

variable {fuel : Fuel} (engine : Engine)

/-- What has been decoded, if it is a query of a depth that the fuel allows, is compiled as
without a limit. -/
theorem map_compile_eq {ε : Type} {limit : Nat} (allowed : fuel.allows limit)
    {decoded : Except ε (Option Query)}
    (shallow : ∀ query, decoded = .ok (some query) → query.depth ≤ limit) :
    decoded.map (compile engine fuel) = decoded.map (compile engine none) ∧
      ∀ run, decoded.map (compile engine fuel) = .ok run → run.result ≠ .error .tooDeep := by
  rcases decoded with error | (_ | query)
  · exact ⟨rfl, nofun⟩
  · refine ⟨rfl, fun run runs => ?_⟩
    obtain rfl := Except.ok.inj runs
    exact nofun
  · have enough := Compile.allows_of_le (shallow query rfl) allowed
    have same := Compile.compile_eq_of_allows_depth engine enough
    refine ⟨congrArg Except.ok same, fun run runs => ?_⟩
    obtain rfl := Except.ok.inj runs
    exact Compile.result_ne_tooDeep enough

variable (allowed : fuel.allows greatestNesting)

include allowed

/-- The query of a text is compiled as without a limit. -/
theorem compileText_eq (text : Bytes) :
    compileText engine fuel text = compileText engine none text ∧
      ∀ run, compileText engine fuel text = .ok run → run.result ≠ .error .tooDeep :=
  map_compile_eq engine allowed fun _ decoded => Query.depth_le_of_ofText decoded

/-- The query of a value that is nested as values of texts are is compiled as without a limit. -/
theorem compileValue_eq {value : Value} (within : Within greatestNesting value) :
    compileValue engine fuel value = compileValue engine none value ∧
      ∀ run, compileValue engine fuel value = .ok run → run.result ≠ .error .tooDeep :=
  map_compile_eq engine allowed fun _ decoded => Query.depth_le_of_ofValue within decoded

end Decoded

namespace Command

/-- A value in a document is nested as values of texts are. -/
theorem within_of_valueIn {document : String} {pointer : Option String} {value : Value}
    (found : valueIn document pointer = .ok value) : Within greatestNesting value := by
  unfold valueIn at found
  split at found
  · cases found
  · next whole isValue =>
      have within := within_of_ofText isValue
      split at found
      · obtain rfl := Except.ok.inj found
        exact within
      · split at found
        · next selected leads =>
            obtain rfl := Except.ok.inj found
            exact within.pointed leads
        · cases found

variable {fuel : Fuel} (allowed : fuel.allows greatestNesting)

include allowed

/-- The report on a value says the same as without a limit. -/
theorem valueReport_result_eq {value : Value} (within : Within greatestNesting value) :
    (valueReport fuel value).result = (valueReport none value).result ∧
      (valueReport fuel value).result ≠ .error (.compile .tooDeep) := by
  obtain ⟨same, enough⟩ := compileValue_eq Plan.engine allowed within
  unfold valueReport
  rw [← same]
  cases compiled : compileValue Plan.engine fuel value with
  | error reason => exact ⟨rfl, nofun⟩
  | ok run =>
      refine ⟨rfl, fun exhausted => enough run compiled ?_⟩
      dsimp only at exhausted
      cases result : run.result with
      | error error =>
          rw [result] at exhausted
          cases exhausted
          rfl
      | ok plan =>
          rw [result] at exhausted
          cases exhausted

/-- The report on a document says the same as without a limit, whatever the pointer. -/
theorem documentReport_result_eq (pointer : Option String) (document : String) :
    (documentReport fuel pointer document).result =
        (documentReport none pointer document).result ∧
      (documentReport fuel pointer document).result ≠ .error (.compile .tooDeep) := by
  unfold documentReport
  split
  · exact ⟨rfl, nofun⟩
  · next value found => exact valueReport_result_eq allowed (within_of_valueIn found)

omit allowed

/-- The invocation without a limit on the depth of its query. -/
def Invocation.withoutLimit (invocation : Invocation) : Invocation :=
  { invocation with arguments := { invocation.arguments with unlimited := true } }

/-- An invocation with enough fuel comes to the same plan or failure as without a limit. -/
theorem planReport_result_eq {surroundings : Surroundings} {invocation : Invocation}
    (allowed : invocation.arguments.compileFuel.allows greatestNesting) :
    (planReport surroundings invocation.arguments).result =
        (planReport surroundings invocation.withoutLimit.arguments).result ∧
      (planReport surroundings invocation.arguments).result ≠ .error (.compile .tooDeep) := by
  have source : invocation.withoutLimit.arguments.source = invocation.arguments.source := rfl
  have unlimited : invocation.withoutLimit.arguments.compileFuel = none := rfl
  unfold planReport
  rw [source, unlimited]
  split
  · exact ⟨rfl, nofun⟩
  · exact documentReport_result_eq allowed _ _

/-- What an invocation leaves behind depends on its report, apart from the log. -/
theorem run_eq_of_result_eq {surroundings : Surroundings} {invocation other : Invocation}
    (action : invocation.action = other.action)
    (result : (planReport surroundings invocation.arguments).result =
      (planReport surroundings other.arguments).result) :
    (invocation.run surroundings).code = (other.run surroundings).code ∧
      (invocation.run surroundings).output = (other.run surroundings).output := by
  unfold Invocation.run
  dsimp only
  rw [result, action]
  cases (planReport surroundings other.arguments).result with
  | error failure => exact ⟨rfl, rfl⟩
  | ok plan => exact ⟨rfl, rfl⟩

end Command

/-- Every node of nested conjunctions is legal. -/
theorem Query.isLegal_of_reaches_nested {levels : Nat} :
    ∀ node, (Query.nested levels).Reaches node → node.IsLegal := by
  induction levels with
  | zero =>
      rw [forall_reaches_iff]
      exact ⟨trivial, nofun⟩
  | succ levels inductionHypothesis =>
      rw [forall_reaches_iff]
      refine ⟨trivial, fun lower member => ?_⟩
      obtain rfl := List.mem_singleton.mp member
      exact inductionHypothesis

/-- Nested conjunctions compile as long as no limit is below their depth, and are found too deep
if one is. -/
theorem Compile.compile_nested (engine : Engine) {levels : Nat} {limit : UInt32}
    (below : limit.toNat ≤ levels) :
    (∃ made, (compile engine none (some (Query.nested levels))).result = .ok made) ∧
      (compile engine (some limit) (some (Query.nested levels))).result = .error .tooDeep := by
  have legal := @Query.isLegal_of_reaches_nested levels
  refine ⟨(succeeds_iff_allows_depth engine none _).mpr ⟨legal, rfl⟩, ?_⟩
  apply result_eq_tooDeep_of_legal engine legal
  rw [Query.depth_nested, allows_iff]
  intro within
  have atMost := within limit rfl
  omega

namespace Command

/-- A query decoded from a text, or from a value that a pointer chooses in one, is at most 127
deep. A fuel of 127 or more, such as the default one, is therefore as good as none for texts,
documents and command lines: no query is found too deep. With a fuel of 126 one is. -/
theorem decoded_within_fuel :
    (∀ text query, Query.ofText text = .ok (some query) → query.depth ≤ 127) ∧
    (∀ text pointer whole selected query, Value.ofText text = .ok whole →
      whole.at? pointer = some selected → Query.ofValue selected = .ok (some query) →
      query.depth ≤ 127) ∧
    (∀ fuel : Fuel, (∀ limit ∈ fuel, 127 ≤ limit) →
      (∀ engine text, compileText engine fuel text = compileText engine none text ∧
        ∀ run, compileText engine fuel text = .ok run → run.result ≠ .error .tooDeep) ∧
      ∀ pointer document,
        (documentReport fuel pointer document).result =
            (documentReport none pointer document).result ∧
          (documentReport fuel pointer document).result ≠ .error (.compile .tooDeep)) ∧
    (∀ surroundings (invocation : Invocation),
      (∀ limit ∈ invocation.arguments.compileFuel, 127 ≤ limit) →
      (planReport surroundings invocation.arguments).result =
          (planReport surroundings invocation.withoutLimit.arguments).result ∧
        (planReport surroundings invocation.arguments).result ≠ .error (.compile .tooDeep) ∧
        (invocation.run surroundings).code = (invocation.withoutLimit.run surroundings).code ∧
        (invocation.run surroundings).output =
          (invocation.withoutLimit.run surroundings).output) ∧
    ∃ text query plan, Query.ofText text = .ok (some query) ∧
      (compile Plan.engine none (some query)).result = .ok plan ∧
      (compile Plan.engine (some 126) (some query)).result = .error .tooDeep := by
  have enough {fuel : Fuel} (limits : ∀ limit ∈ fuel, 127 ≤ limit) :
      fuel.allows greatestNesting :=
    (Compile.allows_iff fuel greatestNesting).mpr fun limit member =>
      UInt32.le_iff_toNat_le.mp (limits limit member)
  refine ⟨fun text query decoded => Query.depth_le_of_ofText decoded, ?_, ?_, ?_, ?_⟩
  · intro text pointer whole selected query isValue leads decoded
    exact Query.depth_le_of_ofValue ((within_of_ofText isValue).pointed leads) decoded
  · intro fuel limits
    exact ⟨fun engine text => compileText_eq engine (enough limits) text,
      documentReport_result_eq (enough limits)⟩
  · intro surroundings invocation limits
    obtain ⟨same, notTooDeep⟩ := planReport_result_eq (enough limits)
    exact ⟨same, notTooDeep, run_eq_of_result_eq rfl same⟩
  · have decoded : Query.ofText (Text.bytesOf (Query.nested 126).text) =
        .ok (some (Query.nested 126)) := Query.ofText_nested (by decide)
    have below : (126 : UInt32).toNat ≤ 126 := le_rfl
    obtain ⟨⟨plan, compiles⟩, refused⟩ := Compile.compile_nested Plan.engine below
    exact ⟨_, _, plan, decoded, compiles, refused⟩

/-- The deepest nested conjunctions that are decoded, as a text and as a value, are compiled with
the default fuel as without a limit. -/
theorem decoded_within_fuel_nested :
    let query := Query.nested 126
    let text := Text.bytesOf query.text
    let invocation : Invocation := ⟨.check, { text := some query.text }⟩
    (Query.ofText text = .ok (some query) ∧ query.depth ≤ 127) ∧
      (∃ whole, Value.ofText text = .ok whole ∧ whole.at? "" = some whole ∧
        Query.ofValue whole = .ok (some query) ∧ query.depth ≤ 127) ∧
      compileText Plan.engine defaultFuel text = compileText Plan.engine none text ∧
      (documentReport defaultFuel (some "") query.text).result ≠ .error (.compile .tooDeep) ∧
      (planReport ⟨.ok [], fun _ => .ok []⟩ invocation.arguments).result ≠
        .error (.compile .tooDeep) := by
  intro query text invocation
  have decoded : Query.ofText text = .ok (some query) := Query.ofText_nested (by decide)
  obtain ⟨written, isWritten, means⟩ := Query.ofText_eq_ok_iff_ofValue_written.mp decoded
  have isValue : Value.ofText text = .ok written.canonical := by rw [Value.ofText, isWritten]
  have settled := (Query.ofValue_canonical.mp means).2
  have limits : ∀ limit ∈ defaultFuel, 127 ≤ limit := by
    rintro limit ⟨⟩
    decide
  have withDefault := decoded_within_fuel.2.2.1 defaultFuel limits
  refine ⟨⟨decoded, decoded_within_fuel.1 text query decoded⟩,
    ⟨written.canonical, isValue, rfl, settled, ?_⟩, (withDefault.1 Plan.engine text).1,
    (withDefault.2 (some "") query.text).2, ?_⟩
  · exact decoded_within_fuel.2.1 text "" _ _ query isValue rfl settled
  · exact (decoded_within_fuel.2.2.2.1 _ invocation limits).2.1

end Command

end BooleanQuery
