import BooleanQuery.Proofs.Json.Takes
import BooleanQuery.Proofs.Sequencing

/-!
# Readers that ask for nothing

Readers of scalars and keys are polymorphic in the type of mismatches, because they never
report one. `Reader.relabel` gives the mismatches of a reader other names; the readers of
this module do not change by it, so they take the same from every text wherever they are
used.
-/

namespace BooleanQuery.Json

open Text (Bytes)

variable {Mismatch Other α β : Type}

/-- A failure with another name for its mismatch. -/
def Failure.relabel (rename : Mismatch → Other) (failure : Failure Mismatch) : Failure Other where
  obstacle :=
    match failure.obstacle with
    | .malformed fault => .malformed fault
    | .mismatch reason => .mismatch (rename reason)
  unread := failure.unread

/-- An outcome with another name for its mismatch. -/
def relabelled (rename : Mismatch → Other) (outcome : Except (Failure Mismatch) α) :
    Except (Failure Other) α :=
  outcome.mapError (Failure.relabel rename)

/-- Other names do not change what is found. -/
theorem relabelled_eq_ok_iff {rename : Mismatch → Other} {outcome : Except (Failure Mismatch) α}
    {found : α} : relabelled rename outcome = .ok found ↔ outcome = .ok found :=
  mapError_eq_ok_iff

/-- A reader with other names for its mismatches. -/
def Reader.relabel (reader : Reader Mismatch α) (rename : Mismatch → Other) : Reader Other α where
  run text := relabelled rename (reader.run text)
  shrinks outcome := reader.shrinks (relabelled_eq_ok_iff.mp outcome)

@[simp] theorem relabelled_ok (rename : Mismatch → Other) (found : α) :
    relabelled rename (.ok found) = .ok found := rfl

@[simp] theorem relabelled_run (reader : Reader Mismatch α) (rename : Mismatch → Other)
    (text : Bytes) :
    relabelled rename (reader.run text) = (reader.relabel rename).run text := rfl

/-- Readers are the same if they do the same with every text. -/
@[ext] theorem Reader.ext {left right : Reader Mismatch α}
    (run : ∀ text, left.run text = right.run text) : left = right := by
  cases left
  cases right
  cases funext run
  rfl

section Relabelling

variable (rename : Mismatch → Other)

@[simp] theorem relabel_map (reader : Reader Mismatch α) (convert : α → β) :
    (reader.map convert).relabel rename = (reader.relabel rename).map convert := by
  ext text : 1
  simp only [Reader.relabel, Reader.map]
  cases reader.run text <;> rfl

@[simp] theorem relabel_andThen (first : Reader Mismatch α) (second : α → Reader Mismatch β) :
    (first.andThen second).relabel rename =
      (first.relabel rename).andThen fun value => (second value).relabel rename := by
  ext text : 1
  simp only [Reader.relabel, Reader.andThen]
  cases first.run text <;> rfl

@[simp] theorem relabel_validate (reader : Reader Mismatch α) (check : α → Except Fault β) :
    (reader.validate check).relabel rename = (reader.relabel rename).validate check := by
  ext text : 1
  simp only [Reader.relabel, Reader.validate]
  rcases reader.run text with failure | ⟨value, rest⟩
  · rfl
  · simp only [relabelled_ok]
    cases check value <;> rfl

@[simp] theorem relabel_someDigits : (someDigits.relabel rename : Reader Other _) = someDigits := by
  ext text : 1
  simp only [Reader.relabel, someDigits]
  split <;> rfl

@[simp] theorem relabel_wholeDigits :
    (wholeDigits.relabel rename : Reader Other _) = wholeDigits := by
  ext text : 1
  simp only [Reader.relabel, wholeDigits]
  rw [← relabel_someDigits rename]
  simp only [Reader.relabel]
  rcases someDigits.run text with failure | ⟨_ | ⟨_ | first, _ | ⟨second, others⟩⟩, rest⟩ <;> rfl

@[simp] theorem relabelled_fractionPart (text : Bytes) :
    relabelled rename (fractionPart text) = fractionPart text := by
  unfold fractionPart
  split
  · rfl
  · split
    · simp
    · rfl

@[simp] theorem relabelled_exponentPart (text : Bytes) :
    relabelled rename (exponentPart text) = exponentPart text := by
  unfold exponentPart
  split
  · rfl
  · split
    · simp
    · rfl

@[simp] theorem relabel_unsignedLiteral (negative : Bool) :
    ((unsignedLiteral negative).relabel rename : Reader Other _) = unsignedLiteral negative := by
  ext text : 1
  simp only [Reader.relabel, unsignedLiteral]
  rw [← relabel_wholeDigits rename]
  simp only [Reader.relabel]
  rcases wholeDigits.run text with failure | ⟨whole, afterWhole⟩
  · rfl
  · simp only [relabelled_ok]
    rw [← relabelled_fractionPart rename]
    rcases fractionPart afterWhole with failure | ⟨fraction, afterFraction⟩
    · rfl
    · simp only [relabelled_ok]
      rw [← relabelled_exponentPart rename]
      rcases exponentPart afterFraction with failure | ⟨exponent, rest⟩ <;> rfl

@[simp] theorem relabel_numberLiteral :
    (numberLiteral.relabel rename : Reader Other _) = numberLiteral := by
  ext text : 1
  simp only [Reader.relabel, numberLiteral]
  split
  · rfl
  · split
    · simp
    · simp

@[simp] theorem relabel_number : (number.relabel rename : Reader Other _) = number := by
  ext text : 1
  simp only [Reader.relabel, number]
  rw [← relabel_numberLiteral rename]
  simp only [Reader.relabel]
  rcases numberLiteral.run text with failure | ⟨literal, rest⟩
  · rfl
  · simp only [relabelled_ok]
    rcases literal.number with unread | value <;> rfl

@[simp] theorem relabel_quad : (quad.relabel rename : Reader Other _) = quad := by
  ext text : 1
  simp only [Reader.relabel, quad]
  split
  · split <;> rfl
  · rfl

@[simp] theorem relabel_expectByte (expected : UInt8) (fault : Fault) :
    ((expectByte expected fault).relabel rename : Reader Other _) = expectByte expected fault := by
  ext text : 1
  simp only [Reader.relabel, expectByte]
  split
  · rfl
  · split <;> rfl

@[simp] theorem relabel_trailingSurrogate :
    (trailingSurrogate.relabel rename : Reader Other _) = trailingSurrogate := by
  simp [trailingSurrogate]

@[simp] theorem relabel_numberedEscape :
    (numberedEscape.relabel rename : Reader Other _) = numberedEscape := by
  ext text : 1
  simp only [Reader.relabel, numberedEscape]
  rw [← relabel_quad rename]
  simp only [Reader.relabel]
  rcases quad.run text with failure | ⟨code, rest⟩
  · rfl
  · simp only [relabelled_ok]
    split
    · rfl
    · split
      · simp
      · rfl

@[simp] theorem relabel_escape : (escape.relabel rename : Reader Other _) = escape := by
  ext text : 1
  simp only [Reader.relabel, escape]
  split
  · rfl
  · split
    · simp
    · split <;> rfl

@[simp] theorem relabelled_stringContent (text : Bytes) :
    relabelled rename (stringContent text) = stringContent text := by
  induction size : text.length using Nat.strongRecOn generalizing text with
  | ind size inductionHypothesis =>
      subst size
      rcases text with _ | ⟨byte, rest⟩
      · rw [stringContent, stringContent]
        rfl
      · rw [stringContent_cons, stringContent_cons, ← relabel_escape rename]
        split
        · rfl
        · split
          · simp only [Reader.relabel]
            cases read : (@escape Mismatch).run rest with
            | error failure => rfl
            | ok outcome =>
                obtain ⟨character, following⟩ := outcome
                have shorter := Nat.lt_succ_of_lt (escape.shrinks read)
                have later := inductionHypothesis _ shorter following rfl
                simp only [relabelled_ok]
                rw [← later]
                rcases @stringContent Mismatch following with failure | ⟨content, after⟩ <;> rfl
          · split
            · rfl
            · rw [← inductionHypothesis _ (Nat.lt_succ_self _) rest rfl]
              rcases @stringContent Mismatch rest with failure | ⟨content, after⟩ <;> rfl

@[simp] theorem relabel_string : (string.relabel rename : Reader Other _) = string := by
  ext text : 1
  simp only [Reader.relabel, string]
  rw [← relabelled_stringContent rename]
  rcases stringContent text with failure | ⟨content, rest⟩
  · rfl
  · simp only [relabelled_ok]
    rcases Text.decode content with ⟨characters, _ | ⟨first, broken⟩⟩ <;> rfl

@[simp] theorem relabel_key : (key.relabel rename : Reader Other _) = key := by
  ext text : 1
  simp only [Reader.relabel, key]
  split
  · rfl
  · split
    · simp
    · rfl

theorem relabelled_wordEnd (letters text : Bytes) :
    relabelled rename (wordEnd letters text) = wordEnd letters text := by
  induction letters generalizing text with
  | nil => rfl
  | cons letter letters inductionHypothesis =>
      cases text with
      | nil => rfl
      | cons byte rest =>
          simp only [wordEnd]
          split
          · exact inductionHypothesis rest
          · rfl

@[simp] theorem relabel_scalar : (scalar.relabel rename : Reader Other _) = scalar := by
  ext text : 1
  simp only [Reader.relabel, scalar]
  split
  · rfl
  · split
    · next value letters _ =>
        rw [← relabelled_wordEnd rename]
        rcases wordEnd letters _ with failure | after <;> rfl
    · split
      · simp
      · split
        · simp
        · rfl

end Relabelling

/-- A scalar is taken alike whatever else is asked for. -/
theorem takes_scalar_congr {text rest : Bytes} {value : Scalar} :
    (scalar : Reader Mismatch Scalar).Takes text value rest ↔
      (scalar : Reader Empty Scalar).Takes text value rest := by
  rw [← relabel_scalar Empty.elim]
  exact relabelled_eq_ok_iff

/-- A key is taken alike whatever else is asked for. -/
theorem takes_key_congr {text rest : Bytes} {name : String} :
    (key : Reader Mismatch String).Takes text name rest ↔
      (key : Reader Empty String).Takes text name rest := by
  rw [← relabel_key Empty.elim]
  exact relabelled_eq_ok_iff

end BooleanQuery.Json
