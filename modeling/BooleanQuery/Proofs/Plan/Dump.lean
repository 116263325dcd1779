import BooleanQuery.Plan.Dump
import BooleanQuery.Proofs.Decimal.Digits
import BooleanQuery.Proofs.Plan.Tree
import BooleanQuery.Proofs.Sequencing
import BooleanQuery.Proofs.Text.Pieces

/-!
# Dumps can be read back

A dump has no closing brackets: what is below a node is told by its columns only. The lines of a
plan start with its own, and all others start further to the right, so the lines of a plan can be
told from those that follow it. Together with what each heading tells this gives the plan back,
but for weights, of which only the text is shown.

A heading does not quote its field and its value. So a field must not contain the colon that ends
it, a value must not contain the mark of a weight, and neither must contain a line feed.
-/

namespace BooleanQuery.Plan

/-- Whether two plans are the same tree with the same terms, and weights that are given in the
same places and have the same texts. -/
inductive PrintsLike : Plan → Plan → Prop where
  | term {field value : String} {boost otherBoost : Option Weight}
      (boosts : boost.map Weight.text = otherBoost.map Weight.text) :
      PrintsLike (.term field value boost) (.term field value otherBoost)
  | and {children others : List Plan} {exclusion otherExclusion : Option Plan}
      {boost otherBoost : Option Weight} (onChildren : List.Forall₂ PrintsLike children others)
      (onExclusion : Option.Rel PrintsLike exclusion otherExclusion)
      (boosts : boost.map Weight.text = otherBoost.map Weight.text) :
      PrintsLike (.and children exclusion boost) (.and others otherExclusion otherBoost)
  | or {children others : List Plan} {boost otherBoost : Option Weight}
      (onChildren : List.Forall₂ PrintsLike children others)
      (boosts : boost.map Weight.text = otherBoost.map Weight.text) :
      PrintsLike (.or children boost) (.or others otherBoost)
  | disMax {tiebreaker otherTiebreaker : Weight} {children others : List Plan}
      {boost otherBoost : Option Weight} (tiebreakers : tiebreaker.text = otherTiebreaker.text)
      (onChildren : List.Forall₂ PrintsLike children others)
      (boosts : boost.map Weight.text = otherBoost.map Weight.text) :
      PrintsLike (.disMax tiebreaker children boost) (.disMax otherTiebreaker others otherBoost)

/-- Whether the parts of the heading of a node can be told apart. -/
def IsLegible : Plan → Prop
  | .term field value _ =>
      ':' ∉ field.toList ∧ '\n' ∉ field.toList ∧ '\n' ∉ value.toList ∧
        ¬[' ', '^'] <:+: value.toList
  | .and _ _ _ | .or _ _ | .disMax _ _ _ => True

instance : DecidablePred IsLegible
  | .term _ _ _ => inferInstanceAs (Decidable (_ ∧ _))
  | .and _ _ _ | .or _ _ | .disMax _ _ _ => inferInstanceAs (Decidable True)

section Headings

theorem isMarked_boostText (boost : Option Weight) : Text.IsMarked ' ' '^' (boostText boost) := by
  cases boost with
  | none => exact .inl rfl
  | some weight => exact .inr ⟨weight.text, rfl⟩

theorem boostText_eq_iff {boost other : Option Weight} :
    boostText boost = boostText other ↔ boost.map Weight.text = other.map Weight.text := by
  cases boost <;> cases other <;> simp [boostText]

theorem blank_not_mem_text (weight : Weight) : ' ' ∉ weight.text := by
  intro member
  exact absurd (weight.isAlphanum_or_eq_of_mem_text _ member) (by decide)

theorem newline_not_mem_text (weight : Weight) : '\n' ∉ weight.text := by
  intro member
  exact absurd (weight.isAlphanum_or_eq_of_mem_text _ member) (by decide)

theorem not_mark_isInfix_text (weight : Weight) : ¬[' ', '^'] <:+: weight.text := by
  intro marked
  exact blank_not_mem_text weight (marked.subset List.mem_cons_self)

/-- A heading does not start with a blank, and tells a plan from the line of an exclusion. -/
theorem heading_head (plan : Plan) : ∃ first rest, plan.heading = first :: rest ∧ first ≠ ' ' ∧
    first ≠ 'n' := by
  cases plan with
  | term field value boost => exact ⟨'t', _, rfl, by decide, by decide⟩
  | and children exclusion boost => exact ⟨'a', _, rfl, by decide, by decide⟩
  | or children boost => exact ⟨'o', _, rfl, by decide, by decide⟩
  | disMax tiebreaker children boost => exact ⟨'d', _, rfl, by decide, by decide⟩

/-- A legible heading stands in one line. -/
theorem newline_not_mem_heading {plan : Plan} (legible : plan.IsLegible) :
    '\n' ∉ plan.heading := by
  have noBoost (boost : Option Weight) : '\n' ∉ boostText boost := by
    cases boost with
    | none => nofun
    | some weight =>
        simp only [boostText, List.mem_cons, newline_not_mem_text, or_false]
        decide
  cases plan with
  | term field value boost =>
      obtain ⟨-, noField, noValue, -⟩ := legible
      have noLabel : '\n' ∉ "term ".toList ++ field.toList :=
        List.not_mem_append (by decide) noField
      have noEnding : '\n' ∉ ':' :: value.toList :=
        List.not_mem_cons_of_ne_of_not_mem (by decide) noValue
      exact List.not_mem_append (List.not_mem_append noLabel noEnding) (noBoost boost)
  | and children exclusion boost => exact List.not_mem_append (by decide) (noBoost boost)
  | or children boost => exact List.not_mem_append (by decide) (noBoost boost)
  | disMax tiebreaker children boost =>
      have noLabel : '\n' ∉ "dismax tiebreaker=".toList ++ tiebreaker.text :=
        List.not_mem_append (by decide) (newline_not_mem_text tiebreaker)
      exact List.not_mem_append noLabel (noBoost boost)

/-- What can be told from the headings of two terms. -/
theorem term_of_heading_eq {field value other otherValue : String}
    {boost otherBoost : Option Weight} (legible : (Plan.term field value boost).IsLegible)
    (legibleToo : (Plan.term other otherValue otherBoost).IsLegible)
    (same : (Plan.term field value boost).heading = (Plan.term other otherValue otherBoost).heading) :
    field = other ∧ value = otherValue ∧ boost.map Weight.text = otherBoost.map Weight.text := by
  obtain ⟨noColon, -, -, noMark⟩ := legible
  obtain ⟨noColonToo, -, -, noMarkToo⟩ := legibleToo
  have assembled (field value : String) (boost : Option Weight) :
      (Plan.term field value boost).heading =
        "term ".toList ++ (field.toList ++ ':' :: (value.toList ++ boostText boost)) := by
    change ("term ".toList ++ field.toList ++ ':' :: value.toList) ++ boostText boost = _
    simp only [List.append_assoc, List.cons_append]
  rw [assembled, assembled] at same
  obtain ⟨fields, rest⟩ :=
    Text.eq_of_append_cons_eq noColon noColonToo (List.append_cancel_left same)
  obtain ⟨values, boosts⟩ := Text.eq_of_append_isMarked_eq (by decide) noMark noMarkToo
    (isMarked_boostText boost) (isMarked_boostText otherBoost) rest
  exact ⟨String.toList_inj.mp fields, String.toList_inj.mp values, boostText_eq_iff.mp boosts⟩

/-- What can be told from the headings of two best-of combinations. -/
theorem disMax_of_heading_eq {tiebreaker other : Weight} {children others : List Plan}
    {boost otherBoost : Option Weight}
    (same : (Plan.disMax tiebreaker children boost).heading =
      (Plan.disMax other others otherBoost).heading) :
    tiebreaker.text = other.text ∧ boost.map Weight.text = otherBoost.map Weight.text := by
  have assembled (tiebreaker : Weight) (children : List Plan) (boost : Option Weight) :
      (Plan.disMax tiebreaker children boost).heading =
        "dismax tiebreaker=".toList ++ (tiebreaker.text ++ boostText boost) := by
    change ("dismax tiebreaker=".toList ++ tiebreaker.text) ++ boostText boost = _
    rw [List.append_assoc]
  rw [assembled, assembled] at same
  obtain ⟨tiebreakers, boosts⟩ := Text.eq_of_append_isMarked_eq (by decide)
    (not_mark_isInfix_text tiebreaker) (not_mark_isInfix_text other) (isMarked_boostText boost)
    (isMarked_boostText otherBoost) (List.append_cancel_left same)
  exact ⟨tiebreakers, boostText_eq_iff.mp boosts⟩

end Headings

section Columns

/-- The column in which a line starts. -/
def startOf (line : List Char) : Nat := (line.takeWhile (· = ' ')).length

/-- A line that is indented to a column starts there. -/
theorem startOf_indented {column : Nat} {first : Char} {rest : List Char} (visible : first ≠ ' ') :
    startOf (indented column (first :: rest)) = column := by
  have blanks : ∀ blank ∈ List.replicate column ' ', decide (blank = ' ') = true := by
    intro blank member
    exact decide_eq_true (List.eq_of_mem_replicate member)
  rw [startOf, indented, List.takeWhile_append_of_pos blanks,
    List.takeWhile_cons_of_neg (by simp [visible]), List.append_nil, List.length_replicate]

theorem startOf_heading (column : Nat) (plan : Plan) :
    startOf (indented column plan.heading) = column := by
  obtain ⟨first, rest, shape, visible, -⟩ := plan.heading_head
  rw [shape]
  exact startOf_indented visible

/-- The line above an exclusion starts in its column. -/
theorem startOf_not (column : Nat) : startOf (indented column "not".toList) = column :=
  startOf_indented (by decide)

/-- The lines of children are those of one child after another. -/
theorem childLines_eq (column : Nat) (children : List Plan) :
    childLines column children = children.flatMap (lines column) := by
  induction children with
  | nil => rfl
  | cons child children inductionHypothesis =>
      rw [childLines, List.flatMap_cons, inductionHypothesis]

/-- The lines below that of a node, which start in the given column or further in. -/
def linesBelow (column : Nat) (children : List Plan) (exclusion : Option Plan) :
    List (List Char) :=
  children.flatMap (lines column) ++ exclusionLines column exclusion

/-- The lines of a plan are its own and those below it. -/
theorem lines_eq (column : Nat) (plan : Plan) :
    lines column plan = indented column plan.heading ::
      linesBelow (column + indentStep) plan.children plan.exclusion := by
  cases plan with
  | term field value boost => rfl
  | and children exclusion boost =>
    rw [lines, childLines_eq]
    rfl
  | or children boost =>
    rw [lines, childLines_eq]
    exact congrArg _ (List.append_nil _).symm
  | disMax tiebreaker children boost =>
    rw [lines, childLines_eq]
    exact congrArg _ (List.append_nil _).symm

/-- The first of the lines below a node starts in their column. -/
theorem startOf_of_mem_head? {column : Nat} {children : List Plan} {exclusion : Option Plan}
    {line : List Char}
    (member : line ∈ (linesBelow column children exclusion).head?) : startOf line = column := by
  cases children with
  | nil =>
      cases exclusion with
      | none => nomatch member
      | some excluded =>
          obtain rfl := Option.some.inj member
          exact startOf_not column
  | cons child children =>
      rw [linesBelow, List.flatMap_cons, lines_eq] at member
      obtain rfl := Option.some.inj member
      exact startOf_heading column child

/-- The lines below a node are those of its children, and those of its exclusion below a line of
their own. -/
theorem mem_linesBelow_iff {column : Nat} {children : List Plan} {exclusion : Option Plan}
    {line : List Char} :
    line ∈ linesBelow column children exclusion ↔
      (∃ child ∈ children, line ∈ lines column child) ∨
        ∃ excluded ∈ exclusion, line = indented column "not".toList ∨
          line ∈ lines (column + indentStep) excluded := by
  rw [linesBelow, List.mem_append, List.mem_flatMap]
  cases exclusion with
  | none => simp [exclusionLines]
  | some excluded => simp [exclusionLines]

/-- A property of the lines of a plan holds of all of them if it holds of the headings of its nodes
and of the lines above exclusions, in whichever columns these start. -/
theorem forall_mem_lines {column : Nat} {plan : Plan} {property : List Char → Prop}
    (onNodes : ∀ node ∈ plan.preorder, ∀ start, column ≤ start →
      property (indented start node.heading))
    (onMarks : ∀ start, column ≤ start → property (indented start "not".toList)) :
    ∀ line ∈ lines column plan, property line := by
  induction plan generalizing column with
  | node plan onChildren onExclusion =>
      rw [preorder_eq, List.forall_mem_cons, List.forall_mem_append] at onNodes
      obtain ⟨onPlan, onChildNodes, onExclusionNodes⟩ := onNodes
      have inner : column ≤ column + indentStep := Nat.le_add_right ..
      intro line member
      rw [lines_eq, List.mem_cons, mem_linesBelow_iff] at member
      rcases member with rfl | ⟨child, among, inside⟩ | ⟨excluded, present, rfl | inside⟩
      · exact onPlan column le_rfl
      · refine onChildren child among ?_ ?_ line inside
        · exact fun node visited start deeper =>
            onChildNodes node (List.mem_flatMap.mpr ⟨child, among, visited⟩) start
              (inner.trans deeper)
        · exact fun start deeper => onMarks start (inner.trans deeper)
      · exact onMarks _ inner
      · have innermost : column ≤ column + indentStep + indentStep :=
          inner.trans (Nat.le_add_right ..)
        refine onExclusion excluded present ?_ ?_ line inside
        · exact fun node visited start deeper =>
            onExclusionNodes node
              (List.mem_flatMap.mpr ⟨excluded, Option.mem_toList.mpr present, visited⟩) start
              (innermost.trans deeper)
        · exact fun start deeper => onMarks start (innermost.trans deeper)

theorem le_startOf_of_mem_lines {column : Nat} {plan : Plan} :
    ∀ line ∈ lines column plan, column ≤ startOf line :=
  forall_mem_lines (fun node _ start inner => (startOf_heading start node).symm ▸ inner)
    (fun start inner => (startOf_not start).symm ▸ inner)

/-- No line below a node starts in front of their column. -/
theorem le_startOf_of_mem_linesBelow {column : Nat} {children : List Plan}
    {exclusion : Option Plan} :
    ∀ line ∈ linesBelow column children exclusion, column ≤ startOf line := by
  intro line member
  rcases mem_linesBelow_iff.mp member with ⟨child, -, inside⟩ | ⟨excluded, -, rfl | inside⟩
  · exact le_startOf_of_mem_lines line inside
  · exact (startOf_not column).ge
  · exact (Nat.le_add_right ..).trans (le_startOf_of_mem_lines line inside)

/-- The lines of a plan end before the first line that does not start further in than the plan. -/
theorem lines_eq_of_append_eq {column : Nat} {plan other : Plan} {rest others : List (List Char)}
    (ends : ∀ line ∈ rest.head?, startOf line ≤ column)
    (endsToo : ∀ line ∈ others.head?, startOf line ≤ column)
    (same : lines column plan ++ rest = lines column other ++ others) :
    lines column plan = lines column other ∧ rest = others := by
  have deeper (plan : Plan) : ∀ line ∈ linesBelow (column + indentStep) plan.children plan.exclusion,
      decide (column < startOf line) = true := by
    intro line member
    have start := le_startOf_of_mem_linesBelow line member
    exact decide_eq_true (Nat.lt_of_lt_of_le (Nat.lt_add_of_pos_right (by decide)) start)
  have back {lines : List (List Char)} (ends : ∀ line ∈ lines.head?, startOf line ≤ column) :
      ∀ line ∈ lines.head?, decide (column < startOf line) = false :=
    fun line first => decide_eq_false (Nat.not_lt_of_le (ends line first))
  rw [lines_eq, lines_eq, List.cons_append, List.cons_append] at same
  obtain ⟨ownLine, later⟩ := List.cons.inj same
  obtain ⟨below, restSame⟩ :=
    Text.eq_of_append_eq (deeper plan) (deeper other) (back ends) (back endsToo) later
  exact ⟨by rw [lines_eq, lines_eq, ownLine, below], restSame⟩

end Columns

section Reading

/-- The lines of an exclusion are not those of a plan. -/
theorem exclusionLines_ne_lines_append {column : Nat} (exclusion : Option Plan) {plan : Plan}
    {rest : List (List Char)} : exclusionLines column exclusion ≠ lines column plan ++ rest := by
  obtain ⟨first, others, shape, -, noNot⟩ := plan.heading_head
  intro same
  rw [lines_eq, shape] at same
  cases exclusion with
  | none => nomatch same
  | some excluded =>
      have headings : "not".toList = first :: others :=
        List.append_cancel_left (List.cons.inj same).1
      exact noNot (List.cons.inj headings).1.symm

/-- Children are told apart by their lines, and from the exclusion that may follow. -/
theorem forall₂_of_linesBelow_eq {column : Nat} {children others : List Plan}
    {exclusion otherExclusion : Option Plan} {relation : Plan → Plan → Prop}
    (each : ∀ child ∈ children, ∀ other ∈ others,
      lines column child = lines column other → relation child other)
    (same : linesBelow column children exclusion = linesBelow column others otherExclusion) :
    List.Forall₂ relation children others ∧
      exclusionLines column exclusion = exclusionLines column otherExclusion := by
  have first (child : Plan) (children : List Plan) (exclusion : Option Plan) :
      linesBelow column (child :: children) exclusion =
        lines column child ++ linesBelow column children exclusion := List.append_assoc ..
  have ends {children : List Plan} {exclusion : Option Plan} :
      ∀ line ∈ (linesBelow column children exclusion).head?, startOf line ≤ column :=
    fun line member => (startOf_of_mem_head? member).le
  induction children generalizing others with
  | nil =>
      cases others with
      | nil => exact ⟨.nil, same⟩
      | cons other others =>
          rw [first] at same
          exact absurd same (exclusionLines_ne_lines_append exclusion)
  | cons child children inductionHypothesis =>
      cases others with
      | nil =>
          rw [first] at same
          exact absurd same.symm (exclusionLines_ne_lines_append otherExclusion)
      | cons other others =>
          rw [first, first] at same
          obtain ⟨heads, tails⟩ := lines_eq_of_append_eq ends ends same
          have related := each child List.mem_cons_self other List.mem_cons_self heads
          obtain ⟨later, exclusions⟩ := inductionHypothesis
            (fun child member other memberToo =>
              each child (List.mem_cons_of_mem _ member) other (List.mem_cons_of_mem _ memberToo))
            tails
          exact ⟨.cons related later, exclusions⟩

/-- Exclusions are told by their lines. -/
theorem optionRel_of_exclusionLines_eq {column : Nat} {exclusion otherExclusion : Option Plan}
    {relation : Plan → Plan → Prop}
    (each : ∀ excluded ∈ exclusion, ∀ other ∈ otherExclusion,
      lines (column + indentStep) excluded = lines (column + indentStep) other →
        relation excluded other)
    (same : exclusionLines column exclusion = exclusionLines column otherExclusion) :
    Option.Rel relation exclusion otherExclusion := by
  cases exclusion with
  | none =>
      cases otherExclusion with
      | none => exact .none
      | some other => nomatch same
  | some excluded =>
      cases otherExclusion with
      | none => nomatch same
      | some other => exact .some (each excluded rfl other rfl (List.cons.inj same).2)

/-- The nodes of a plan are legible exactly if it is and those below it are. -/
theorem forall_isLegible_iff {plan : Plan} :
    (∀ node ∈ plan.preorder, node.IsLegible) ↔
      plan.IsLegible ∧ (∀ child ∈ plan.children, ∀ node ∈ child.preorder, node.IsLegible) ∧
        ∀ excluded ∈ plan.exclusion, ∀ node ∈ excluded.preorder, node.IsLegible := by
  rw [preorder_eq]
  simp only [List.forall_mem_cons, List.forall_mem_append, List.forall_mem_flatMap,
    Option.mem_toList, Option.mem_def]

/-- Plans with the same heading print like each other, if their children and their exclusions do. -/
theorem printsLike_of_heading_eq {plan other : Plan} (legible : plan.IsLegible)
    (legibleToo : other.IsLegible) (same : plan.heading = other.heading)
    (onChildren : List.Forall₂ PrintsLike plan.children other.children)
    (onExclusion : Option.Rel PrintsLike plan.exclusion other.exclusion) :
    plan.PrintsLike other := by
  -- The first letter of a heading tells what the plan asks for.
  cases plan with
  | term field value boost =>
      cases other with
      | term other otherValue otherBoost =>
          obtain ⟨rfl, rfl, boosts⟩ := term_of_heading_eq legible legibleToo same
          exact .term boosts
      | _ => exact absurd (List.cons.inj same).1 (by decide)
  | and children exclusion boost =>
      cases other with
      | and others otherExclusion otherBoost =>
          exact .and onChildren onExclusion (boostText_eq_iff.mp (List.append_cancel_left same))
      | _ => exact absurd (List.cons.inj same).1 (by decide)
  | or children boost =>
      cases other with
      | or others otherBoost =>
          exact .or onChildren (boostText_eq_iff.mp (List.append_cancel_left same))
      | _ => exact absurd (List.cons.inj same).1 (by decide)
  | disMax tiebreaker children boost =>
      cases other with
      | disMax otherTiebreaker others otherBoost =>
          obtain ⟨tiebreakers, boosts⟩ := disMax_of_heading_eq same
          exact .disMax tiebreakers onChildren boosts
      | _ => exact absurd (List.cons.inj same).1 (by decide)

/-- Plans whose lines are the same print like each other. -/
theorem printsLike_of_lines_eq {column : Nat} {plan other : Plan}
    (legible : ∀ node ∈ plan.preorder, node.IsLegible)
    (legibleToo : ∀ node ∈ other.preorder, node.IsLegible)
    (same : lines column plan = lines column other) : plan.PrintsLike other := by
  induction plan generalizing column other with
  | node plan onChildren onExclusion =>
      rw [forall_isLegible_iff] at legible legibleToo
      rw [lines_eq, lines_eq] at same
      obtain ⟨ownLine, below⟩ := List.cons.inj same
      obtain ⟨children, exclusions⟩ := forall₂_of_linesBelow_eq
        (fun child member other memberToo =>
          onChildren child member (legible.2.1 child member) (legibleToo.2.1 other memberToo))
        below
      have exclusion := optionRel_of_exclusionLines_eq
        (fun excluded present other presentToo =>
          onExclusion excluded present (legible.2.2 excluded present)
            (legibleToo.2.2 other presentToo))
        exclusions
      exact printsLike_of_heading_eq legible.1 legibleToo.1 (List.append_cancel_left ownLine)
        children exclusion

end Reading

section Writing

/-- Plans that print like each other have the same heading, and such plans below them. -/
theorem PrintsLike.inversion {plan other : Plan} (alike : plan.PrintsLike other) :
    plan.heading = other.heading ∧ List.Forall₂ PrintsLike plan.children other.children ∧
      Option.Rel PrintsLike plan.exclusion other.exclusion := by
  cases alike with
  | @term field value boost otherBoost boosts =>
      have headings : (Plan.term field value boost).heading =
          (Plan.term field value otherBoost).heading :=
        congrArg ("term ".toList ++ field.toList ++ ':' :: value.toList ++ ·)
          (boostText_eq_iff.mpr boosts)
      exact ⟨headings, .nil, .none⟩
  | and onChildren onExclusion boosts =>
      exact ⟨congrArg ("and".toList ++ ·) (boostText_eq_iff.mpr boosts), onChildren, onExclusion⟩
  | or onChildren boosts =>
      exact ⟨congrArg ("or".toList ++ ·) (boostText_eq_iff.mpr boosts), onChildren, .none⟩
  | disMax tiebreakers onChildren boosts =>
      have headings := congrArg₂ (fun text boost => "dismax tiebreaker=".toList ++ text ++ boost)
        tiebreakers (boostText_eq_iff.mpr boosts)
      exact ⟨headings, onChildren, .none⟩

/-- Plans that print like each other have the same lines. -/
theorem PrintsLike.lines_eq {column : Nat} {plan other : Plan} (alike : plan.PrintsLike other) :
    lines column plan = lines column other := by
  induction plan generalizing column other with
  | node plan onChildren onExclusion =>
      obtain ⟨headings, children, exclusions⟩ := alike.inversion
      have ofChildren : other.children.flatMap (lines (column + indentStep)) =
          plan.children.flatMap (lines (column + indentStep)) :=
        flatMap_eq_of_forall₂ children fun child member other alike =>
          (onChildren child member alike).symm
      have ofExclusion : exclusionLines (column + indentStep) plan.exclusion =
          exclusionLines (column + indentStep) other.exclusion := by
        generalize plan.exclusion = exclusion at exclusions onExclusion
        generalize other.exclusion = otherExclusion at exclusions
        cases exclusions with
        | none => rfl
        | some alike => exact congrArg (List.cons _) (onExclusion _ rfl alike)
      rw [Plan.lines_eq, Plan.lines_eq, headings, linesBelow, linesBelow, ofChildren, ofExclusion]

end Writing

/-- There is no line feed in the lines of a legible plan. -/
theorem newline_not_mem_of_mem_lines {column : Nat} {plan : Plan}
    (legible : ∀ node ∈ plan.preorder, node.IsLegible) :
    ∀ line ∈ lines column plan, '\n' ∉ line := by
  have indentedLine {start : Nat} {line : List Char} (absent : '\n' ∉ line) :
      '\n' ∉ indented start line := by
    intro member
    rcases List.mem_append.mp member with blank | inLine
    · exact absurd (List.eq_of_mem_replicate blank) (by decide)
    · exact absent inLine
  exact forall_mem_lines
    (fun node visited _ _ => indentedLine (newline_not_mem_heading (legible node visited)))
    (fun _ _ => indentedLine (by decide))

/-- Legible plans with the same dump have the same lines. -/
theorem lines_eq_of_dump_eq {plan other : Plan}
    (legible : ∀ node ∈ plan.preorder, node.IsLegible)
    (legibleToo : ∀ node ∈ other.preorder, node.IsLegible) (same : plan.dump = other.dump) :
    lines 0 plan = lines 0 other := by
  have cut {plan : Plan} (legible : ∀ node ∈ plan.preorder, node.IsLegible) :
      List.splitOn '\n' (['\n'].intercalate (lines 0 plan)) = lines 0 plan :=
    List.splitOn_intercalate '\n' (newline_not_mem_of_mem_lines legible) (by rw [lines_eq]; nofun)
  rw [← cut legible, ← cut legibleToo, String.ofList_injective same]

/-- The dump of a plan tells the plan, but for its weights, of which it tells the texts: two plans
that are legible have the same dump exactly if they are the same tree with the same terms, and
with weights that are given in the same places and have the same texts. -/
theorem dump_eq_iff_printsLike {plan other : Plan}
    (legible : ∀ node ∈ plan.preorder, node.IsLegible)
    (legibleToo : ∀ node ∈ other.preorder, node.IsLegible) :
    plan.dump = other.dump ↔ plan.PrintsLike other := by
  constructor
  · intro same
    exact printsLike_of_lines_eq legible legibleToo (lines_eq_of_dump_eq legible legibleToo same)
  · intro alike
    unfold dump
    rw [alike.lines_eq]

/-- Weights that are no numbers have one text, whatever their bits are: plans that differ in them
alone have the same dump. Their values contain blanks, colons and carets. -/
theorem dump_eq_iff_printsLike_of_undefined_weights :
    let plan (bits : Nat) : Plan :=
      .and [.disMax (.ofBits bits) [.term "a" "x:y^ z" none] none, .or [] none]
        (some (.and [] (some (.term "b c" "not" (some (.ofBits bits)))) none)) (some .zero)
    let weights := (Binary.Word.ofBits 0x7FC00000 : Weight) ≠ .ofBits 0x7FC00001
    (∀ node ∈ (plan 0x7FC00000).preorder, node.IsLegible) ∧
      (∀ node ∈ (plan 0x7FC00001).preorder, node.IsLegible) ∧ weights ∧
      (plan 0x7FC00000).dump = (plan 0x7FC00001).dump ∧
      (plan 0x7FC00000).PrintsLike (plan 0x7FC00001) := by
  intro plan weights
  have legible : ∀ node ∈ (plan 0x7FC00000).preorder, node.IsLegible := by decide
  have legibleToo : ∀ node ∈ (plan 0x7FC00001).preorder, node.IsLegible := by decide
  have same : (plan 0x7FC00000).dump = (plan 0x7FC00001).dump := by decide
  exact ⟨legible, legibleToo, by decide, same, (dump_eq_iff_printsLike legible legibleToo).mp same⟩

end BooleanQuery.Plan
