import BooleanQuery.Proofs.Compile.Outline
import BooleanQuery.Proofs.Query.Agreement

/-!
# Queries that agree compile alike

Queries that agree, up to the signs of zeros, compile to plans that do, or fail with the same
error. The signs remain in the plans where tiebreakers are zero; everywhere else a zero has no
effect.
-/

namespace BooleanQuery

namespace Plan

/-- Lists of plans agree element by element. -/
theorem agreesAll_iff {plans others : List Plan} :
    agreesAll plans others = true ↔
      List.Forall₂ (fun plan other => plan.agrees other = true) plans others := by
  induction plans generalizing others with
  | nil => cases others <;> simp [agreesAll]
  | cons plan plans inductionHypothesis =>
      cases others <;> simp [agreesAll, inductionHypothesis]

theorem agreesOption_iff {exclusion other : Option Plan} :
    agreesOption exclusion other = true ↔
      Option.Rel (fun plan other => plan.agrees other = true) exclusion other := by
  cases exclusion <;> cases other <;> simp [agreesOption]

end Plan

/-- An effective boost is a number. -/
theorem Query.boostsAgree_effectiveBoost (query : Query) :
    Plan.boostsAgree query.effectiveBoost query.effectiveBoost = true := by
  unfold effectiveBoost
  split
  · next positive =>
      simp only [Binary.Word.isPositive, Bool.and_eq_true, Bool.not_eq_true'] at positive
      exact Weight.sameNumber_self positive.2
  · rfl

namespace Compile

/-- Whether two compilations give plans that agree, or the same error. -/
abbrev SameOutcome : Except CompileError Plan → Except CompileError Plan → Prop :=
  Alike fun plan other => plan.agrees other = true

section Parts

variable {query other : Query} {compiled others : List Plan}

/-- Terms that agree have the same outcome. -/
theorem term_agrees (agrees : query.Agrees other) (texts : query.text = other.text) :
    SameOutcome (term Plan.engine query).result (term Plan.engine other).result := by
  have presence := isSome_eq_of_rel agrees.exclusion
  have count := agrees.children.length_eq
  have empty : query.children.isEmpty = other.children.isEmpty := by
    rw [Bool.eq_iff_iff, List.isEmpty_iff_length_eq_zero, List.isEmpty_iff_length_eq_zero, count]
  rw [term_result, term_result, weighted_term, weighted_term, presence, empty, agrees.field,
    agrees.value, agrees.effectiveBoost_eq, texts]
  split
  · exact .error _
  · split
    · exact .error _
    · exact .ok (by simp [Plan.agrees, other.boostsAgree_effectiveBoost])

/-- Conjunctions of plans that agree do so, also where they are the only child. -/
theorem conjoined_agrees (boosts : query.effectiveBoost = other.effectiveBoost)
    (children : List.Forall₂ (fun plan other => plan.agrees other = true) compiled others)
    {unwanted otherUnwanted : Option Plan}
    (exclusion : Option.Rel (fun plan other => plan.agrees other = true) unwanted otherUnwanted) :
    (conjoined Plan.engine query.boost compiled unwanted).agrees
      (conjoined Plan.engine other.boost others otherUnwanted) = true := by
  have all := Plan.agreesAll_iff.mpr children
  have option := Plan.agreesOption_iff.mpr exclusion
  have boost := other.boostsAgree_effectiveBoost
  rw [conjoined_plan, conjoined_plan, boosts]
  cases exclusion with
  | none =>
      rcases children with _ | ⟨only, _ | ⟨second, rest⟩⟩
      · simp [Plan.agrees, all, option, boost]
      · exact only
      · simp [Plan.agrees, all, option, boost]
  | some excluded => simp [Plan.agrees, all, option, boost]

/-- Disjunctions of plans that agree do so, also where they are the only child. -/
theorem disjoined_agrees (boosts : query.effectiveBoost = other.effectiveBoost)
    (children : List.Forall₂ (fun plan other => plan.agrees other = true) compiled others) :
    (disjoined Plan.engine query.boost compiled).agrees
      (disjoined Plan.engine other.boost others) = true := by
  have all := Plan.agreesAll_iff.mpr children
  have boost := other.boostsAgree_effectiveBoost
  rw [disjoined_plan, disjoined_plan, boosts]
  rcases children with _ | ⟨only, _ | ⟨second, rest⟩⟩
  · simp [Plan.agrees, all, boost]
  · exact only
  · simp [Plan.agrees, all, boost]

/-- Best-of combinations of plans that agree do so, also where they are the only child. -/
theorem bestOf_agrees (boosts : query.effectiveBoost = other.effectiveBoost)
    (tiebreakers : query.tiebreaker.sameNumber other.tiebreaker = true)
    (children : List.Forall₂ (fun plan other => plan.agrees other = true) compiled others) :
    (bestOf Plan.engine query.boost query.tiebreaker compiled).agrees
      (bestOf Plan.engine other.boost other.tiebreaker others) = true := by
  have all := Plan.agreesAll_iff.mpr children
  have boost := other.boostsAgree_effectiveBoost
  rw [bestOf_plan, bestOf_plan, boosts]
  rcases children with _ | ⟨only, _ | ⟨second, rest⟩⟩
  · simp [Plan.agrees, all, boost, tiebreakers]
  · exact only
  · simp [Plan.agrees, all, boost, tiebreakers]

/-- Disjunctions of plans that agree have the same outcome. -/
theorem disjunction_agrees (agrees : query.Agrees other) (texts : query.text = other.text)
    {compiled others : List Plan.engine.Query}
    (children : List.Forall₂ (fun plan other : Plan => plan.agrees other = true) compiled others) :
    SameOutcome (disjunction Plan.engine query compiled).result
      (disjunction Plan.engine other others).result := by
  rw [disjunction_result, disjunction_result, isSome_eq_of_rel agrees.exclusion, agrees.kind, texts]
  split
  · exact .error _
  · exact .ok (disjoined_agrees agrees.effectiveBoost_eq children)

/-- Best-of combinations of plans that agree have the same outcome. -/
theorem disMax_agrees (agrees : query.Agrees other) (texts : query.text = other.text)
    {compiled others : List Plan.engine.Query}
    (children : List.Forall₂ (fun plan other : Plan => plan.agrees other = true) compiled others) :
    SameOutcome (disMax Plan.engine query compiled).result
      (disMax Plan.engine other others).result := by
  rw [disMax_result, disMax_result, isSome_eq_of_rel agrees.exclusion, agrees.kind, texts]
  split
  · exact .error _
  · exact .ok (bestOf_agrees agrees.effectiveBoost_eq agrees.tiebreaker children)

end Parts

/-- Nodes that agree have the same outcome at every depth. -/
theorem node_agrees {query other : Query} (agrees : query.agrees other = true) (fuel : Fuel)
    (depth : Nat) :
    SameOutcome (node Plan.engine fuel depth query).result
      (node Plan.engine fuel depth other).result := by
  induction query generalizing other depth with
  | node query onChildren onExclusion =>
      have members := Query.agrees_iff.mp agrees
      have texts := Query.text_eq_of_agrees agrees
      have children := Alike.mapM members.children fun child member counterpart agree =>
        onChildren child member agree (depth + 1)
      have exclusion := Alike.optionMapM members.exclusion fun excluded member counterpart agree =>
        onExclusion excluded member agree (depth + 1)
      rw [node_result, node_result, ← members.kind]
      split
      · cases query.kind with
        | term => exact term_agrees members texts
        | and =>
            refine children.bind fun compiled others all => ?_
            refine exclusion.bind fun unwanted otherUnwanted option => ?_
            exact .ok (conjoined_agrees members.effectiveBoost_eq all option)
        | or => exact children.bind fun compiled others => disjunction_agrees members texts
        | disMax => exact children.bind fun compiled others => disMax_agrees members texts
        | unknown number =>
            refine children.bind fun compiled others all => ?_
            rw [texts]
            exact .error _
      · exact .error _

/-- Queries that agree compile to plans that agree, or fail with the same error. -/
theorem compile_agrees {query other : Query} (agrees : query.agrees other = true) (fuel : Fuel) :
    SameOutcome (compile Plan.engine fuel (some query)).result
      (compile Plan.engine fuel (some other)).result := by
  rw [compile, compile, tree_result, tree_result]
  exact node_agrees agrees fuel 1

end Compile

end BooleanQuery
