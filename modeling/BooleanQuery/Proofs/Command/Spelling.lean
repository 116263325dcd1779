import BooleanQuery.Proofs.Command.Scanning
import BooleanQuery.Proofs.Command.Stages
import BooleanQuery.Proofs.Decimal.Spelling
import Mathlib.Data.PNat.Basic

/-!
# Options in any order and spelling

What a command line asks for can be written in many ways. A request says what is asked for, and its
groups are the words that say so: the path, each option with its value, each flag. However a group
is spelled and wherever it stands, it makes the same difference to the arguments. Groups that may be
given once each fill a place of their own, so their order does not matter; nor does that of the
verbosity flags, which are only counted.
-/

namespace BooleanQuery.Command

/-- A text that stands for itself in a word of its own, because it does not look like an option. -/
structure PlainWord where
  text : String
  nonempty : text ≠ ""
  undashed : text.toList.head? ≠ some '-'
deriving DecidableEq

/-- What a command line asks for beside its action. -/
structure Request where
  path : Option PlainWord := none
  text : Option PlainWord := none
  oneSource : path = none ∨ text = none
  pointer : Option PlainWord := none
  fuel : Option UInt32 := none
  unlimited : Bool := false
  verbosity : Nat := 0

/-- The spellings of an option with a value: the letter of the option and the value in the next
word, or its name and the value, in the next word or joined by an equals sign. -/
inductive Spelling where
  | lettered
  | named (joined : Bool)
deriving DecidableEq

/-- The words of an option with a value that goes by its name. -/
def namedWords (joined : Bool) (name value : String) : List String :=
  if joined then ["--" ++ name ++ "=" ++ value] else ["--" ++ name, value]

/-- The words of an option with a value. -/
def Spelling.words (spelling : Spelling) (letter : Char) (name value : String) : List String :=
  match spelling with
  | .lettered => [String.ofList ['-', letter], value]
  | .named joined => namedWords joined name value

/-- The decimal digits of a fuel, perhaps after zeros. -/
def fuelDigits (zeros : Nat) (limit : UInt32) : String :=
  String.ofList (Decimal.zeros zeros) ++ toString limit.toNat

/-- Words of a command line that belong together. -/
inductive Group where
  | path (word : PlainWord)
  | text (spelling : Spelling) (value : PlainWord)
  | pointer (spelling : Spelling) (value : PlainWord)
  | fuel (joined : Bool) (zeros : Nat) (limit : UInt32)
  | unlimited
  | verbose (count : ℕ+)
deriving DecidableEq

/-- The words of a group. -/
def Group.words : Group → List String
  | .path word => [word.text]
  | .text spelling value => spelling.words 'q' "query" value.text
  | .pointer spelling value => spelling.words 'p' "pointer" value.text
  | .fuel joined zeros limit => namedWords joined "fuel" (fuelDigits zeros limit)
  | .unlimited => ["--no-fuel"]
  | .verbose count => ["-" ++ String.ofList (List.replicate count 'v')]

/-- How a request is written, its order apart. -/
structure Manner (verbosity : Nat) where
  text : Spelling
  pointer : Spelling
  fuelJoined : Bool
  fuelZeros : Nat
  flags : List ℕ+
  total : (flags.map PNat.val).sum = verbosity

/-- The groups of a request that fill places: those of the path or the document, the pointer, the
fuel, and the flag that allows any depth. -/
def Request.placed (request : Request) (manner : Manner request.verbosity) : List Group :=
  request.path.toList.map .path ++ request.text.toList.map (.text manner.text) ++
    request.pointer.toList.map (.pointer manner.pointer) ++
    request.fuel.toList.map (.fuel manner.fuelJoined manner.fuelZeros) ++
    if request.unlimited then [.unlimited] else []

/-- The groups of a request: those that fill places, and the verbosity flags. -/
def Request.groups (request : Request) (manner : Manner request.verbosity) : List Group :=
  request.placed manner ++ manner.flags.map .verbose

/-- The arguments that a request comes to. -/
def Request.arguments (request : Request) : Arguments where
  path := request.path.map PlainWord.text
  text := request.text.map PlainWord.text
  pointer := request.pointer.map PlainWord.text
  fuel := request.fuel
  unlimited := request.unlimited
  verbosity := min request.verbosity greatestVerbosity

namespace Group

/-- What a group is about. -/
def meaning : Group → Meaning
  | .path _ => .value .path
  | .text _ _ => .value .text
  | .pointer _ _ => .value .pointer
  | .fuel _ _ _ => .value .fuel
  | .unlimited => .flag .unlimited
  | .verbose _ => .flag .verbose

/-- Whether the place that a group fills is empty. -/
def Fits (group : Group) (arguments : Arguments) : Prop :=
  match group with
  | .path _ => arguments.path = none
  | .text _ _ => arguments.text = none
  | .pointer _ _ => arguments.pointer = none
  | .fuel _ _ _ => arguments.fuel = none
  | .unlimited => arguments.unlimited = false
  | .verbose _ => True

/-- The arguments with what a group says. -/
def enter (arguments : Arguments) : Group → Arguments
  | .path word => { arguments with path := some word.text }
  | .text _ value => { arguments with text := some value.text }
  | .pointer _ value => { arguments with pointer := some value.text }
  | .fuel _ _ limit => { arguments with fuel := some limit }
  | .unlimited => { arguments with unlimited := true }
  | .verbose count => arguments.louder count

/-- Whether two groups may stand in one command line: only verbosity flags are repeated. -/
def Apart (group other : Group) : Prop :=
  group.meaning = other.meaning → group.meaning = .flag .verbose

theorem Apart.symm {group other : Group} (apart : group.Apart other) : other.Apart group :=
  fun same => same.trans (apart same.symm)

end Group

section Words

variable {before after : Arguments} {slot : Slot} {value : String}

/-- An option by its name and its value turn arguments as the value does. -/
theorem turns_namedWords {name : String} (noSign : '=' ∉ name.toList)
    (shape : Word.ofString ("--" ++ name) = .long name none)
    (meaning : longMeaning? name = some (.value slot)) (undashed : value.toList.head? ≠ some '-')
    (put : before.put slot value = .ok after) (joined : Bool) :
    Turns (namedWords joined name value) before after := by
  cases joined with
  | false => exact turns_named shape meaning undashed put
  | true =>
      exact turns_joined (Word.ofString_joined noSign value) meaning put

/-- An option with a value turns arguments as the value does, however it is spelled. -/
theorem turns_spelled {letter : Char} {name : String} (noSign : '=' ∉ name.toList)
    (shape : Word.ofString ("--" ++ name) = .long name none)
    (meaning : longMeaning? name = some (.value slot))
    (shortShape : Word.ofString (String.ofList ['-', letter]) = .short [letter])
    (shortMeaning : shortMeaning? letter = some (.value slot))
    (undashed : value.toList.head? ≠ some '-') (put : before.put slot value = .ok after)
    (spelling : Spelling) : Turns (spelling.words letter name value) before after := by
  cases spelling with
  | lettered => exact turns_lettered shortShape shortMeaning undashed put
  | named joined => exact turns_namedWords noSign shape meaning undashed put joined

end Words

section Digits

variable (zeros : Nat) (limit : UInt32)

theorem toList_fuelDigits :
    (fuelDigits zeros limit).toList = Decimal.zeros zeros ++ Nat.toDigits 10 limit.toNat := by
  rw [fuelDigits, String.toList_append, String.toList_ofList, Nat.toString_eq_repr,
    Nat.toList_repr]

/-- A fuel has only digits. -/
theorem isDigit_of_mem_fuelDigits {digit : Char}
    (member : digit ∈ (fuelDigits zeros limit).toList) : digit.isDigit := by
  rw [toList_fuelDigits, List.mem_append] at member
  rcases member with zero | digit
  · exact Decimal.isDigit_of_mem_zeros zero
  · exact Decimal.isDigit_of_mem_digitsOf digit

theorem undashed_fuelDigits : (fuelDigits zeros limit).toList.head? ≠ some '-' := by
  intro dash
  exact absurd (isDigit_of_mem_fuelDigits zeros limit (List.mem_of_mem_head? dash)) (by decide)

/-- The digits of a fuel spell its number. -/
theorem naturalOfDigits?_fuelDigits :
    Decimal.naturalOfDigits? (fuelDigits zeros limit).toList = some limit.toNat := by
  have present : (fuelDigits zeros limit).toList ≠ [] := by
    rw [toList_fuelDigits]
    exact List.append_ne_nil_of_right_ne_nil _ Nat.toDigits_ne_nil
  rw [Decimal.naturalOfDigits?_eq_some present fun _ => isDigit_of_mem_fuelDigits zeros limit,
    toList_fuelDigits, Decimal.ofDigitChars_zeros_append, Nat.ofDigitChars_ten_toDigits]

/-- The digits of a fuel are read as this fuel. -/
theorem fuelOfString?_fuelDigits : fuelOfString? (fuelDigits zeros limit) = some limit := by
  have unsigned (sign : Char) (noDigit : sign.isDigit = false) (digits : List Char) :
      (fuelDigits zeros limit).toList ≠ sign :: digits := by
    intro shape
    have member : sign ∈ (fuelDigits zeros limit).toList := shape ▸ List.mem_cons_self
    rw [isDigit_of_mem_fuelDigits zeros limit member] at noDigit
    nomatch noDigit
  unfold fuelOfString?
  split
  · next shape => exact absurd shape (unsigned '-' rfl _)
  · next shape => exact absurd shape (unsigned '+' rfl _)
  · rw [wordOfDigits?, naturalOfDigits?_fuelDigits]
    dsimp only
    rw [if_pos limit.toNat_lt, UInt32.ofNat_toNat]

end Digits

namespace Group

variable {group other : Group} {arguments : Arguments}

/-- The words of a group turn arguments in which its place is empty into those with what it says. -/
theorem turns_words (fits : group.Fits arguments) :
    Turns group.words arguments (group.enter arguments) := by
  cases group with
  | path word =>
      exact turns_path word.undashed
        (Arguments.put_path_eq_ok_iff.mpr ⟨fits, word.nonempty, rfl⟩)
  | text spelling value =>
      exact turns_spelled (by decide) rfl rfl rfl rfl value.undashed
        (Arguments.put_text_eq_ok_iff.mpr ⟨fits, rfl⟩) spelling
  | pointer spelling value =>
      exact turns_spelled (by decide) rfl rfl rfl rfl value.undashed
        (Arguments.put_pointer_eq_ok_iff.mpr ⟨fits, rfl⟩) spelling
  | fuel joined zeros limit =>
      exact turns_namedWords (by decide) rfl rfl (undashed_fuelDigits zeros limit)
        (Arguments.put_fuel_eq_ok_iff.mpr
          ⟨fits, limit, fuelOfString?_fuelDigits zeros limit, rfl⟩) joined
  | unlimited =>
      exact turns_flag rfl rfl (Arguments.raise_unlimited_eq_ok_iff.mpr ⟨fits, rfl⟩)
  | verbose count =>
      have counted := @turns_verbose arguments count.natPred
      rw [count.natPred_add_one] at counted
      exact counted

/-- A group leaves the place of every other one as it is. -/
theorem Fits.enter (fits : other.Fits arguments) (apart : group.Apart other) :
    other.Fits (group.enter arguments) := by
  cases group <;> cases other <;> simp_all [Apart, meaning, Fits, Group.enter, Arguments.louder]

/-- The order of two groups does not matter. -/
theorem enter_comm (apart : group.Apart other) :
    other.enter (group.enter arguments) = group.enter (other.enter arguments) := by
  cases group <;> cases other <;> simp [Apart, meaning, enter, Arguments.louder] at apart ⊢
  omega

/-- Groups that stand apart turn arguments into which each of them fits, one after another, into
those with what all of them say. -/
theorem turns_groups {groups : List Group} (apart : groups.Pairwise Apart)
    (fit : ∀ group ∈ groups, group.Fits arguments) :
    Turns (groups.flatMap words) arguments (groups.foldl enter arguments) := by
  induction groups generalizing arguments with
  | nil => exact .nil arguments
  | cons group groups inductionHypothesis =>
      rw [List.pairwise_cons] at apart
      rw [List.forall_mem_cons] at fit
      obtain ⟨fitsFirst, fitOthers⟩ := fit
      refine (turns_words fitsFirst).append (inductionHypothesis apart.2 ?_)
      intro other member
      exact (fitOthers other member).enter (apart.1 other member)

/-- What groups that stand apart say together does not depend on their order. -/
theorem foldl_enter_eq_of_perm {groups others : List Group} (apart : groups.Pairwise Apart)
    (order : groups.Perm others) (arguments : Arguments) :
    groups.foldl enter arguments = others.foldl enter arguments := by
  have commute : groups.Pairwise fun group other =>
      ∀ arguments, other.enter (group.enter arguments) = group.enter (other.enter arguments) :=
    apart.imp fun apart arguments => enter_comm apart
  have commuteBack := commute.imp fun commute arguments => (commute arguments).symm
  exact order.foldl_eq' (fun _ member _ further =>
    commute.forall_of_forall_of_flip (fun _ _ _ => rfl) commuteBack member further) arguments

theorem fits_empty (group : Group) : group.Fits {} := by
  cases group <;> trivial

end Group

/-- Verbosity flags add up over words. -/
theorem Group.foldl_verbose (flags : List ℕ+) {arguments : Arguments}
    (counted : arguments.verbosity ≤ greatestVerbosity) :
    (flags.map .verbose).foldl enter arguments = arguments.louder (flags.map PNat.val).sum := by
  induction flags generalizing arguments with
  | nil =>
      have same : min arguments.verbosity greatestVerbosity = arguments.verbosity :=
        Nat.min_eq_left counted
      simp [Arguments.louder, same]
  | cons count flags inductionHypothesis =>
      rw [List.map_cons, List.foldl_cons, List.map_cons, List.sum_cons, ← Arguments.louder_louder]
      exact inductionHypothesis (Nat.min_le_right _ _)

namespace Request

variable (request : Request) (manner : Manner request.verbosity)

/-- The groups of a request stand apart. -/
theorem pairwise_groups : (request.groups manner).Pairwise Group.Apart := by
  have fromFlags (group : Group) (count : ℕ+) : group.Apart (.verbose count) := id
  refine List.pairwise_append.mpr ⟨?_, ?_, ?_⟩
  · obtain ⟨path, text, oneSource, pointer, fuel, unlimited, verbosity⟩ := request
    cases path <;> cases text <;> cases pointer <;> cases fuel <;> cases unlimited
    all_goals simp [placed, Group.Apart, Group.meaning]
  · rw [List.pairwise_map]
    exact List.pairwise_of_forall fun _ count => fromFlags _ count
  · intro group _ flag member
    obtain ⟨count, -, rfl⟩ := List.mem_map.mp member
    exact fromFlags group count

/-- The groups of a request say what is asked for. -/
theorem foldl_groups : (request.groups manner).foldl Group.enter {} = request.arguments := by
  have places : (request.placed manner).foldl Group.enter {} =
      { request.arguments with verbosity := 0 } := by
    obtain ⟨path, text, oneSource, pointer, fuel, unlimited, verbosity⟩ := request
    cases path <;> cases text <;> cases pointer <;> cases fuel <;> cases unlimited <;> rfl
  rw [groups, List.foldl_append, places, Group.foldl_verbose _ (Nat.zero_le _), manner.total]
  simp only [Arguments.louder, Nat.zero_add]
  rfl

theorem withOneSource_arguments : request.arguments.withOneSource = .ok request.arguments := by
  have single : ¬ (request.arguments.path.isSome && request.arguments.text.isSome) = true := by
    rcases request.oneSource with absent | absent <;> simp [arguments, absent]
  exact if_neg single

/-- The groups of a request, in any order, spell its arguments. -/
theorem ofWords_groups {groups : List Group} (order : groups.Perm (request.groups manner)) :
    Arguments.ofWords (groups.flatMap Group.words) = .ok request.arguments := by
  have apart : groups.Pairwise Group.Apart :=
    (request.pairwise_groups manner).perm order.symm Group.Apart.symm
  have turns := Group.turns_groups apart fun group _ => group.fits_empty
  rw [Group.foldl_enter_eq_of_perm apart order, foldl_groups] at turns
  rw [turns.ofWords_eq, withOneSource_arguments]

end Request

/-- The spelling and the order of the groups of a request do not matter: the command line is read,
and to the action and the arguments that are asked for. Without a fuel of its own the request gets
the default one, a fuel has no effect if any depth is allowed, and verbosity flags are counted up to
the greatest verbosity. -/
theorem Invocation.ofWords_in_any_order (action : Action) (request : Request)
    (manner : Manner request.verbosity) {groups : List Group}
    (order : groups.Perm (request.groups manner)) :
    ∃ arguments : Arguments,
      Invocation.ofWords (action.name :: groups.flatMap Group.words) = .ok ⟨action, arguments⟩ ∧
        arguments.path = request.path.map PlainWord.text ∧
        arguments.text = request.text.map PlainWord.text ∧
        arguments.pointer = request.pointer.map PlainWord.text ∧
        arguments.givenFuel = request.fuel.getD 512 ∧
        arguments.unlimited = request.unlimited ∧
        arguments.verbosity = min request.verbosity 255 ∧
        arguments.compileFuel =
          if request.unlimited then none else some (request.fuel.getD 512) := by
  refine ⟨request.arguments, ?_, rfl, rfl, rfl, rfl, rfl, rfl, rfl⟩
  rw [Invocation.ofWords_name, request.ofWords_groups manner order]
  rfl

/-- Verbosity flags stand in two words, and the flag that allows any depth before the fuel. -/
theorem Invocation.ofWords_flags_first :
    let request : Request :=
      { text := some ⟨"null", by decide, by decide⟩, oneSource := .inl rfl,
        pointer := some ⟨"/a", by decide, by decide⟩, fuel := some 7, unlimited := true,
        verbosity := 5 }
    let manner : Manner request.verbosity := ⟨.named true, .lettered, false, 0, [3, 2], by decide⟩
    [.verbose 3, .unlimited, .pointer .lettered ⟨"/a", by decide, by decide⟩, .verbose 2,
      .fuel false 0 7, .text (.named true) ⟨"null", by decide, by decide⟩].Perm
        (request.groups manner) ∧
      ∃ arguments : Arguments,
        Invocation.ofWords
            ["dump", "-vvv", "--no-fuel", "-p", "/a", "-vv", "--fuel", "7", "--query=null"] =
          .ok ⟨.dump, arguments⟩ ∧
        arguments.path = none ∧ arguments.text = some "null" ∧ arguments.pointer = some "/a" ∧
        arguments.givenFuel = 7 ∧ arguments.unlimited = true ∧ arguments.verbosity = 5 ∧
        arguments.compileFuel = none := by
  refine ⟨?order, Invocation.ofWords_in_any_order .dump _ _ ?order⟩
  case order => decide

end BooleanQuery.Command
