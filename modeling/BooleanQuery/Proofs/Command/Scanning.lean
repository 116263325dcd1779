import BooleanQuery.Command.Scan
import BooleanQuery.Proofs.Sequencing

/-!
# Scanning one group of words after another

A value is held back until the next option or path is met, so the arguments of a scan are not all
that has been understood. What a scan has come to are the arguments that it settles to. `Turns`
follows these from word to word, whatever is held back, and so the words of one option can be
looked at without those before and after them.
-/

namespace BooleanQuery.Command

/-- Words turn some arguments into others: from every scan that settles to the ones they lead to
a scan that settles to the others, whatever follows. -/
def Turns (words : List String) (before after : Arguments) : Prop :=
  ∀ (scan : Scan) (rest : List String), scan.settle = .ok before →
    ∃ next : Scan, scan.words (words ++ rest) = next.words rest ∧ next.settle = .ok after

/-- No words turn arguments into themselves. -/
theorem Turns.nil (arguments : Arguments) : Turns [] arguments arguments :=
  fun scan _ settles => ⟨scan, rfl, settles⟩

/-- Words follow one another. -/
theorem Turns.append {words further : List String} {before middle after : Arguments}
    (first : Turns words before middle) (second : Turns further middle after) :
    Turns (words ++ further) before after := by
  intro scan rest settles
  obtain ⟨next, reached, middleSettles⟩ := first scan (further ++ rest) settles
  obtain ⟨last, ended, lastSettles⟩ := second next rest middleSettles
  exact ⟨last, by rw [List.append_assoc, reached, ended], lastSettles⟩

/-- The arguments that words spell are those into which they turn the empty ones, if there is one
source at most. -/
theorem Turns.ofWords_eq {words : List String} {after : Arguments} (turns : Turns words {} after) :
    Arguments.ofWords words = after.withOneSource := by
  obtain ⟨last, ended, settles⟩ := turns {} [] rfl
  rw [List.append_nil] at ended
  rw [Arguments.ofWords, ended, Scan.words]
  change (last.settle >>= Arguments.withOneSource) = _
  rw [settles]
  rfl

section Shapes

/-- A word that does not start with a dash is no option. -/
theorem Word.ofString_of_undashed {word : String} (undashed : word.toList.head? ≠ some '-') :
    Word.ofString word = .plain := by
  unfold Word.ofString
  split
  · next shape => exact absurd (by rw [shape]; rfl) undashed
  · next shape => exact absurd (by rw [shape]; rfl) undashed
  · next shape => exact absurd (by rw [shape]; rfl) undashed
  · rfl

/-- The value of a long option starts after the first equals sign. -/
theorem splitValue_append {name : List Char} (noSign : '=' ∉ name) (value : List Char) :
    splitValue (name ++ '=' :: value) = (String.ofList name, some (String.ofList value)) := by
  have ordinary : ∀ letter ∈ name, letter != '=' := by
    intro letter member
    exact bne_iff_ne.mpr fun isSign => noSign (isSign ▸ member)
  simp only [splitValue, List.takeWhile_append_of_pos ordinary,
    List.dropWhile_append_of_pos ordinary]
  simp

/-- A word with a long option and an equals sign holds the value of the option. -/
theorem Word.ofString_joined {name : String} (noSign : '=' ∉ name.toList) (value : String) :
    Word.ofString ("--" ++ name ++ "=" ++ value) = .long name (some value) := by
  have letters : ("--" ++ name ++ "=" ++ value).toList =
      '-' :: '-' :: (name.toList ++ '=' :: value.toList) := by
    simp [String.toList_append]
  obtain ⟨first, others, shape⟩ : ∃ first others,
      name.toList ++ '=' :: value.toList = first :: others :=
    List.exists_cons_of_ne_nil (by simp)
  have split : Word.ofString ("--" ++ name ++ "=" ++ value) =
      .long (splitValue (first :: others)).1 (splitValue (first :: others)).2 := by
    rw [Word.ofString, letters, shape]
    rfl
  rw [split, ← shape, splitValue_append noSign, String.ofList_toList, String.ofList_toList]

end Shapes

section Values

variable {before after : Arguments} {value : String}

/-- A path is taken if there is none yet and it is not empty. -/
theorem Arguments.put_path_eq_ok_iff :
    before.put .path value = .ok after ↔
      before.path = none ∧ value ≠ "" ∧ after = { before with path := some value } := by
  unfold Arguments.put
  dsimp only
  split
  · next given => simp [Option.ne_none_iff_isSome.mpr given]
  · next absent =>
      rw [Bool.not_eq_true, Option.isSome_eq_false_iff, Option.isNone_iff_eq_none] at absent
      split
      · next empty => simp [empty]
      · next present => simp [absent, present, eq_comm]

theorem Arguments.put_text_eq_ok_iff :
    before.put .text value = .ok after ↔
      before.text = none ∧ after = { before with text := some value } := by
  unfold Arguments.put fillText
  cases before.text <;> simp [Except.map, eq_comm]

theorem Arguments.put_pointer_eq_ok_iff :
    before.put .pointer value = .ok after ↔
      before.pointer = none ∧ after = { before with pointer := some value } := by
  unfold Arguments.put fillText
  cases before.pointer <;> simp [Except.map, eq_comm]

/-- A fuel is taken if there is none yet and it can be read. -/
theorem Arguments.put_fuel_eq_ok_iff :
    before.put .fuel value = .ok after ↔
      before.fuel = none ∧
        ∃ fuel, fuelOfString? value = some fuel ∧ after = { before with fuel := some fuel } := by
  unfold Arguments.put
  dsimp only
  split
  · next given => simp [Option.ne_none_iff_isSome.mpr given]
  · next absent =>
      rw [Bool.not_eq_true, Option.isSome_eq_false_iff, Option.isNone_iff_eq_none] at absent
      cases fuelOfString? value <;> simp [absent, eq_comm]

theorem Arguments.raise_unlimited_eq_ok_iff :
    before.raise .unlimited = .ok after ↔
      before.unlimited = false ∧ after = { before with unlimited := true } := by
  unfold Arguments.raise
  cases before.unlimited <;> simp [eq_comm]

/-- Whether a path has been met can be told from what a scan settles to. -/
theorem Scan.hasPath_eq {scan : Scan} {arguments : Arguments}
    (settles : scan.settle = .ok arguments) : scan.hasPath = arguments.path.isSome := by
  obtain ⟨checked, pending⟩ := scan
  cases pending with
  | nothing =>
      cases settles
      exact Bool.or_false _
  | awaiting slot => nomatch settles
  | held slot value =>
      change checked.put slot value = .ok arguments at settles
      cases slot with
      | path =>
          obtain ⟨-, -, rfl⟩ := Arguments.put_path_eq_ok_iff.mp settles
          exact Bool.or_true _
      | text =>
          obtain ⟨-, rfl⟩ := Arguments.put_text_eq_ok_iff.mp settles
          exact Bool.or_false _
      | pointer =>
          obtain ⟨-, rfl⟩ := Arguments.put_pointer_eq_ok_iff.mp settles
          exact Bool.or_false _
      | fuel =>
          obtain ⟨-, _, -, rfl⟩ := Arguments.put_fuel_eq_ok_iff.mp settles
          exact Bool.or_false _

end Values

section Steps

variable {before after : Arguments} {slot : Slot} {option name value : String}

theorem Scan.words_plain (undashed : value.toList.head? ≠ some '-') (scan : Scan)
    (rest : List String) :
    scan.words (value :: rest) = scan.plain value >>= fun next => next.words rest := by
  rw [Scan.words, Word.ofString_of_undashed undashed]

theorem Scan.words_long {given : Option String} (shape : Word.ofString option = .long name given)
    (scan : Scan) (rest : List String) :
    scan.words (option :: rest) = scan.long name given >>= fun next => next.words rest := by
  rw [Scan.words, shape]

theorem Scan.words_short {letters : List Char} (shape : Word.ofString option = .short letters)
    (scan : Scan) (rest : List String) :
    scan.words (option :: rest) = scan.short letters >>= fun next => next.words rest := by
  rw [Scan.words, shape]

/-- The path is held back. -/
theorem turns_path (undashed : value.toList.head? ≠ some '-')
    (put : before.put .path value = .ok after) : Turns [value] before after := by
  intro scan rest settles
  obtain ⟨absent, -, -⟩ := Arguments.put_path_eq_ok_iff.mp put
  have noPath : scan.hasPath = false := by
    rw [Scan.hasPath_eq settles, absent]
    rfl
  have taken : scan.plain value = .ok ⟨before, .held .path value⟩ := by
    unfold Scan.plain
    split
    · next awaited =>
        -- A scan that still waits for a value does not settle.
        rw [Scan.settle, awaited] at settles
        nomatch settles
    · rw [Scan.path, noPath, settles]
      rfl
  refine ⟨⟨before, .held .path value⟩, ?_, put⟩
  rw [List.singleton_append, Scan.words_plain undashed, taken]
  rfl

/-- The value in the word after its option is held back. -/
theorem turns_separate
    (awaits : ∀ (scan : Scan) (rest : List String), scan.settle = .ok before →
      scan.words (option :: rest) = Scan.words ⟨before, .awaiting slot⟩ rest)
    (undashed : value.toList.head? ≠ some '-') (put : before.put slot value = .ok after) :
    Turns [option, value] before after := by
  intro scan rest settles
  refine ⟨⟨before, .held slot value⟩, ?_, put⟩
  change scan.words (option :: value :: rest) = _
  rw [awaits scan _ settles, Scan.words_plain undashed]
  rfl

/-- A value after the name of its option. -/
theorem turns_named (shape : Word.ofString option = .long name none)
    (meaning : longMeaning? name = some (.value slot))
    (undashed : value.toList.head? ≠ some '-') (put : before.put slot value = .ok after) :
    Turns [option, value] before after := by
  refine turns_separate (fun scan rest settles => ?_) undashed put
  rw [Scan.words_long shape]
  simp only [Scan.long, meaning, Scan.await, settles]
  rfl

/-- A value after the letter of its option. -/
theorem turns_lettered {letter : Char} (shape : Word.ofString option = .short [letter])
    (meaning : shortMeaning? letter = some (.value slot))
    (undashed : value.toList.head? ≠ some '-') (put : before.put slot value = .ok after) :
    Turns [option, value] before after := by
  refine turns_separate (fun scan rest settles => ?_) undashed put
  rw [Scan.words_short shape]
  simp only [Scan.short, meaning, Scan.await, settles]
  rfl

/-- A value in the word of its option is checked at once. -/
theorem turns_joined (shape : Word.ofString option = .long name (some value))
    (meaning : longMeaning? name = some (.value slot)) (put : before.put slot value = .ok after) :
    Turns [option] before after := by
  intro scan rest settles
  refine ⟨⟨after, .nothing⟩, ?_, rfl⟩
  rw [List.singleton_append, Scan.words_long shape]
  simp [Scan.long, meaning, Scan.put, settles, put]

/-- A flag is raised at once. -/
theorem Scan.raise_eq {scan : Scan} {flag : Flag} (settles : scan.settle = .ok before)
    (raised : before.raise flag = .ok after) : scan.raise flag = .ok ⟨after, .nothing⟩ := by
  simp [Scan.raise, settles, raised]

/-- A flag by its name. -/
theorem turns_flag {flag : Flag} (shape : Word.ofString option = .long name none)
    (meaning : longMeaning? name = some (.flag flag)) (raised : before.raise flag = .ok after) :
    Turns [option] before after := by
  intro scan rest settles
  refine ⟨⟨after, .nothing⟩, ?_, rfl⟩
  rw [List.singleton_append, Scan.words_long shape]
  simp only [Scan.long, meaning, Scan.raise_eq settles raised]
  rfl

/-- The arguments after so many verbosity flags. -/
def Arguments.louder (arguments : Arguments) (count : Nat) : Arguments :=
  { arguments with verbosity := min (arguments.verbosity + count) greatestVerbosity }

theorem Arguments.louder_louder (arguments : Arguments) (count further : Nat) :
    (arguments.louder count).louder further = arguments.louder (count + further) := by
  simp only [Arguments.louder, Arguments.mk.injEq, true_and]
  omega

/-- Letters of verbosity are counted one after another, up to the greatest count. -/
theorem Scan.short_verbose {scan : Scan} (settles : scan.settle = .ok before) (more : Nat) :
    scan.short (List.replicate (more + 1) 'v') = .ok ⟨before.louder (more + 1), .nothing⟩ := by
  have first (letters : List Char) {scan : Scan} {before : Arguments}
      (settles : scan.settle = .ok before) :
      scan.short ('v' :: letters) = Scan.short ⟨before.louder 1, .nothing⟩ letters := by
    change (scan.raise .verbose >>= fun next => next.short letters) = _
    rw [Scan.raise_eq settles rfl]
    rfl
  induction more generalizing scan before with
  | zero => exact first [] settles
  | succ more inductionHypothesis =>
      rw [List.replicate_succ, first _ settles, inductionHypothesis rfl, Arguments.louder_louder,
        Nat.add_comm 1]

/-- Verbosity flags in one word. -/
theorem turns_verbose (more : Nat) :
    Turns ["-" ++ String.ofList (List.replicate (more + 1) 'v')] before
      (before.louder (more + 1)) := by
  intro scan rest settles
  have shape : Word.ofString ("-" ++ String.ofList (List.replicate (more + 1) 'v')) =
      .short (List.replicate (more + 1) 'v') := by
    rw [Word.ofString, String.toList_append, List.replicate_succ]
    simp only [String.toList_ofList]
    rfl
  refine ⟨⟨before.louder (more + 1), .nothing⟩, ?_, rfl⟩
  rw [List.singleton_append, Scan.words_short shape, Scan.short_verbose settles]
  rfl

end Steps

end BooleanQuery.Command
