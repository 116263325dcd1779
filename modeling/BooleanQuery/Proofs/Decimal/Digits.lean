import BooleanQuery.Query.Weight

/-!
# Characters of decimals

Which characters stand in the texts of numbers: the shortest decimal of a word has only digits,
and a notation adds no more than points, signs and the mark of an exponent.
-/

namespace BooleanQuery

open Binary (Format Word)

namespace Decimal

theorem isDigit_of_mem_digitsOf {number : Nat} {digit : Char} (member : digit ∈ digitsOf number) :
    digit.isDigit :=
  Nat.isDigit_of_mem_toDigits (by decide) (by decide) member

theorem naturalOfDigits?_eq_some {digits : List Char} (present : digits ≠ [])
    (each : ∀ digit ∈ digits, digit.isDigit) :
    naturalOfDigits? digits = some (Nat.ofDigitChars 10 digits 0) := by
  rw [naturalOfDigits?, List.isEmpty_eq_false_iff.mpr present, List.all_eq_true.mpr each]
  rfl

theorem naturalOfDigits?_digitsOf (number : Nat) :
    naturalOfDigits? (digitsOf number) = some number := by
  have present : digitsOf number ≠ [] := Nat.toDigits_ne_nil
  rw [naturalOfDigits?_eq_some present fun _ => isDigit_of_mem_digitsOf, digitsOf,
    Nat.ofDigitChars_ten_toDigits]

/-- The decimal of a coefficient has only digits. -/
theorem isDigit_of_mem_ofCoefficient {coefficient : Nat} {last : Int} {character : Char}
    (member : character ∈ (ofCoefficient coefficient last).digits) : character.isDigit := by
  have within : character ∈ digitsOf coefficient := by
    have trimmed := (List.dropWhile_sublist _).subset (List.mem_reverse.mp member)
    exact List.mem_reverse.mp trimmed
  exact isDigit_of_mem_digitsOf within

/-- The shortest decimal of a word is that of a coefficient, or zero. -/
theorem shortest_eq {format : Format} (tie : Tie) (word : Word format) :
    shortest tie word = zero ∨
      ∃ coefficient last, shortest tie word = ofCoefficient coefficient last := by
  unfold shortest
  split
  · exact .inl rfl
  · simp only
    generalize found : List.findSome? _ _ = decimal
    cases decimal with
    | none => exact .inl rfl
    | some decimal =>
        obtain ⟨count, -, attempted⟩ := List.exists_of_findSome?_eq_some found
        obtain ⟨coefficient, -, rfl⟩ := Option.map_eq_some_iff.mp attempted
        exact .inr ⟨coefficient, _, rfl⟩

/-- The shortest decimal of a word has only digits. -/
theorem isDigit_of_mem_shortest {format : Format} {tie : Tie} {word : Word format}
    {character : Char} (member : character ∈ (shortest tie word).digits) : character.isDigit := by
  rcases shortest_eq tie word with isZero | ⟨coefficient, last, made⟩
  · rw [isZero] at member
    obtain rfl := List.mem_singleton.mp member
    decide
  · rw [made] at member
    exact isDigit_of_mem_ofCoefficient member

/-- A decimal of digits that is written out has only digits and a point. -/
theorem isDigit_or_eq_of_mem_places {decimal : Decimal} (keepsFraction : Bool)
    (digits : ∀ digit ∈ decimal.digits, digit.isDigit) :
    ∀ character ∈ decimal.places keepsFraction, character.isDigit ∨ character = '.' := by
  have ofDigits {part : List Char} (among : part ⊆ decimal.digits) :
      ∀ character ∈ part, character.isDigit ∨ character = '.' :=
    fun _ member => .inl (digits _ (among member))
  have ofZeros (count : Nat) :
      ∀ character ∈ zeros count, character.isDigit ∨ character = '.' := by
    intro character member
    rw [List.eq_of_mem_replicate member]
    decide
  have zero : '0'.isDigit ∨ '0' = '.' := by decide
  unfold places
  split
  · simp only [List.forall_mem_cons, List.cons_append, List.forall_mem_append]
    exact ⟨zero, .inr trivial, ofZeros _, ofDigits (List.Subset.refl _)⟩
  · simp only [List.forall_mem_append]
    refine ⟨⟨ofDigits (List.take_subset ..), ofZeros _⟩, ?_⟩
    split
    · split
      · simp only [List.forall_mem_cons]
        exact ⟨.inr trivial, zero, nofun⟩
      · nofun
    · rw [List.forall_mem_cons]
      exact ⟨.inr rfl, ofDigits (List.drop_subset ..)⟩

end Decimal

namespace Weight

/-- In plans the text of a weight has only letters, digits, points and minus signs. -/
theorem isAlphanum_or_eq_of_mem_text (weight : Weight) :
    ∀ character ∈ weight.text, character.isAlphanum ∨ character = '.' ∨ character = '-' := by
  -- A check of one character after another, as there are too many characters to check them all.
  have ofWord {word : List Char}
      (each : word.all fun character =>
        decide (character.isAlphanum ∨ character = '.' ∨ character = '-')) :
      ∀ character ∈ word, character.isAlphanum ∨ character = '.' ∨ character = '-' :=
    fun character member => of_decide_eq_true (List.all_eq_true.mp each character member)
  unfold text
  split
  · exact ofWord (by decide)
  · split
    · unfold Decimal.Notation.finite
      rw [List.forall_mem_append]
      constructor
      · split
        · simp
        · nofun
      · intro character member
        have digitOrPoint := Decimal.isDigit_or_eq_of_mem_places false
          (fun _ => Decimal.isDigit_of_mem_shortest) character member
        rcases digitOrPoint with digit | point
        · exact .inl (by simp [Char.isAlphanum, digit])
        · exact .inr (.inl point)
    · split <;> exact ofWord (by decide)

end Weight

end BooleanQuery
