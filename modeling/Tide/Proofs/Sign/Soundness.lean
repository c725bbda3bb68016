import Tide.Proofs.Sign.Execution
import Tide.Proofs.Sign.LocalFunctions

/-!
# Known signs and exact values

A variable that is known to be negative is negative in every run.  One that is known not to be
negative is not, as long as no clamp goes against its low limit: a clamp whose low limit is known
not to be negative is trusted, although a negative high limit has the last word.

Each of the two signs is followed on its own, since no rule concludes one from the other.
-/

namespace Tide

/-- What the sign says is true of the value. -/
def Sign.TrueOf : Sign → ℚ → Prop
  | unknown, _ => True
  | nonneg, value => 0 ≤ value
  | negative, value => value < 0

/-- Every variable known to have the sign has it. -/
def Facts.RightAbout (sign : Sign) (facts : Facts) (store : Store) : Prop :=
  ∀ name, facts.sign name = sign → sign.TrueOf (store name)

/-- The facts that a walk starts from: none for a program, and for the body of a function that its
contracted parameters are not negative. -/
inductive Facts.Starts (store : Store) : Facts → Prop
  | program : Starts store .empty
  | function {around : Facts} {parameters : List String}
      (hparameters : ∀ parameter ∈ parameters, 0 ≤ store parameter) :
      Starts store (parameters.foldl (fun inner parameter => inner.bind parameter .nonneg)
        around.push)

/-! ## Expressions -/

namespace Sign

variable {sign left right : Sign} {leftValue rightValue : ℚ}

theorem trueOf_ofNumber (number : Number) : (ofNumber number).TrueOf number.exact := by
  rw [ofNumber]
  split_ifs with hnonneg hnegative
  · simp only [Number.atMost, Number.units_zero, Bool.and_eq_true, decide_eq_true_eq] at hnonneg
    exact number.exact_nonneg_iff.mpr hnonneg.2
  · simp only [Number.lessThan, Number.units_zero, Bool.and_eq_true, decide_eq_true_eq]
      at hnegative
    exact number.exact_neg_iff.mpr hnegative.2
  · trivial

theorem trueOf_ofNegated {store : Store} {operand : Expr} {value : ℚ}
    (hvalue : operand.HasValue store value) : (ofNegated operand).TrueOf (-value) := by
  cases hvalue with
  | @literal line number hfinite =>
      simp only [ofNegated, Expr.number?]
      split_ifs with hpositive hzero
      · simp only [Number.lessThan, Number.units_zero, Bool.and_eq_true, decide_eq_true_eq]
          at hpositive
        exact neg_neg_of_pos (number.exact_pos_iff.mpr hpositive.2)
      · rw [TrueOf, Number.exact_of_isZero hzero, neg_zero]
      · trivial
  | _ => trivial

theorem multiply_eq_add (left right : Sign) : left.multiply right = left.add right := by
  cases left <;> cases right <;> rfl

/-- All that is known of a sum or a product is that it is not negative if both operands are not. -/
theorem trueOf_of_add {value : ℚ} (hsign : left.add right = sign)
    (hleft : left = sign → sign.TrueOf leftValue) (hright : right = sign → sign.TrueOf rightValue)
    (hvalue : 0 ≤ leftValue → 0 ≤ rightValue → 0 ≤ value) : sign.TrueOf value := by
  subst hsign
  cases left with
  | nonneg =>
      cases right with
      | nonneg => exact hvalue (hleft rfl) (hright rfl)
      | unknown | negative => trivial
  | unknown | negative => cases right <;> trivial

theorem trueOf_add (hsign : left.add right = sign) (hleft : left = sign → sign.TrueOf leftValue)
    (hright : right = sign → sign.TrueOf rightValue) : sign.TrueOf (leftValue + rightValue) :=
  trueOf_of_add hsign hleft hright add_nonneg

theorem trueOf_multiply (hsign : left.multiply right = sign)
    (hleft : left = sign → sign.TrueOf leftValue)
    (hright : right = sign → sign.TrueOf rightValue) : sign.TrueOf (leftValue * rightValue) := by
  rw [multiply_eq_add] at hsign
  exact trueOf_of_add hsign hleft hright mul_nonneg

/-- A positive factor changes no sign. -/
theorem TrueOf.mul_pos {value factor : ℚ} (htrue : sign.TrueOf value) (hfactor : 0 < factor) :
    sign.TrueOf (value * factor) := by
  cases sign with
  | unknown => trivial
  | nonneg => exact mul_nonneg htrue hfactor.le
  | negative => exact mul_neg_of_neg_of_pos htrue hfactor

theorem trueOf_of_unknown {value : ℚ} (hsign : unknown = sign) : sign.TrueOf value := by
  subst hsign
  trivial

end Sign

namespace Facts

variable {sign : Sign} {facts : Facts} {store : Store}

/-- An operator on values whose signs are right gives a value whose sign is. -/
theorem trueOf_binary {line : Nat} {operator : BinaryOp} {left right : Expr}
    {leftValue rightValue value : ℚ}
    (hleft : facts.evaluate left = sign → sign.TrueOf leftValue)
    (hright : facts.evaluate right = sign → sign.TrueOf rightValue)
    (hvalue : operator.onRationals leftValue rightValue = some value)
    (hsign : facts.evaluate (.binary line operator left right) = sign) : sign.TrueOf value := by
  cases operator with
  | add =>
      cases hvalue
      exact Sign.trueOf_add hsign hleft hright
  | multiply =>
      cases hvalue
      exact Sign.trueOf_multiply hsign hleft hright
  | _ => exact Sign.trueOf_of_unknown hsign

/-- Where the facts are right about a sign, so is what they say of an expression. -/
theorem RightAbout.evaluate (hright : RightAbout sign facts store) {expression : Expr} {value : ℚ}
    (hvalue : expression.HasValue store value) (hsign : facts.evaluate expression = sign) :
    sign.TrueOf value := by
  induction hvalue with
  | @literal line number hfinite => exact hsign ▸ Sign.trueOf_ofNumber number
  | @name line text => exact hright text hsign
  | negate hoperand => exact hsign ▸ Sign.trueOf_ofNegated hoperand
  | binary hleft hright hvalue ihLeft ihRight => exact trueOf_binary ihLeft ihRight hvalue hsign
  | positive hbranch ih =>
      rw [Facts.evaluate] at hsign
      split at hsign
      case isTrue => exact ih hsign
      case isFalse => exact Sign.trueOf_of_unknown hsign
  | negative hbranch ih =>
      rw [Facts.evaluate] at hsign
      split at hsign
      case isTrue heq => exact ih (heq ▸ hsign)
      case isFalse => exact Sign.trueOf_of_unknown hsign
  | call | index | member => exact Sign.trueOf_of_unknown hsign

theorem RightAbout.bind (hright : RightAbout sign facts store) {name : String} {given : Sign}
    {value : ℚ} (hgiven : given = sign → sign.TrueOf value) :
    RightAbout sign (facts.bind name given) (Function.update store name value) := by
  intro other hother
  rw [Facts.sign, Scopes.shallow?_bind] at hother
  by_cases hname : name = other
  · subst hname
    rw [if_pos rfl] at hother
    rw [Function.update_self]
    exact hgiven hother
  · rw [if_neg hname] at hother
    rw [Function.update_of_ne (Ne.symm hname)]
    exact hright other hother

/-- What a walk starts from is right about both signs. -/
theorem Starts.rightAbout (hstarts : facts.Starts store) (sign : Sign) :
    RightAbout sign facts store := by
  intro name hname
  cases hstarts with
  | program => exact Sign.trueOf_of_unknown hname
  | @function around parameters hparameters =>
      have hchanges : Changes (Sign.nonneg = ·) (· ∈ parameters) around.push
          (parameters.foldl (fun inner parameter => inner.bind parameter .nonneg) around.push) :=
        .bindAll rfl parameters around.push
      by_cases hparameter : name ∈ parameters
      · obtain ⟨given, hgiven, rfl⟩ := hchanges.bound name hparameter
        rw [Facts.sign, hgiven] at hname
        subst hname
        exact hparameters name hparameter
      · rw [hchanges.sign_eq hparameter] at hname
        exact Sign.trueOf_of_unknown hname

end Facts

/-! ## Actions -/

/-- If the action is a clamp whose low limit is known not to be negative, its high limit is not
negative either. -/
def Action.LimitsAgree (facts : Facts) (store : Store) : Action → Prop
  | .bounds _ low high => facts.evaluate low = .nonneg → ∀ lowValue highValue,
      low.HasValue store lowValue → high.HasValue store highValue → 0 ≤ highValue
  | _ => True

namespace SignCheck

variable {sign : Sign} {facts : Facts} {store : Store}

theorem action_of_givesSign {action : Action} {name : String} {given : Sign}
    (hgives : GivesSign facts action name given) (check : SignCheck) (contract : Option Contract)
    (line : Nat) : (check.action contract facts line action).1 = facts.bind name given := by
  cases hgives with
  | declare => rfl
  | assign hassigned =>
      have hdeclare : ∀ binding, action ≠ .declare binding := by
        rintro binding rfl
        cases hassigned
      rw [action_eq check contract hdeclare, hassigned, Option.elim_some]

/-- A target that is only a part of a variable leaves its sign unknown. -/
theorem givesSign_part {target : Expr} {name : String} (hpart : target.IsPartOf name) :
    (∀ operator expression, GivesSign facts (.assign target operator expression) name .unknown) ∧
      (∀ operator, GivesSign facts (.step target operator) name .unknown) ∧
      ∀ expression, GivesSign facts (.mutate target expression) name .unknown := by
  cases hpart with
  | index hroot | member hroot =>
      refine ⟨fun operator expression => .assign ?_, fun operator => .assign ?_,
        fun expression => .assign ?_⟩
      all_goals exact Option.map_eq_some_iff.mpr ⟨name, hroot, rfl⟩

theorem trueOf_compound {line : Nat} {operator : AssignOp} {binary : BinaryOp} {expression : Expr}
    {name : String} {value result : ℚ} (hright : facts.RightAbout sign store)
    (hoperator : operator.binary? = some binary) (hvalue : expression.HasValue store value)
    (hresult : binary.onRationals (store name) value = some result) :
    ∃ given, GivesSign facts (.assign (.name line name) operator expression) name given ∧
      (given = sign → sign.TrueOf result) := by
  cases operator with
  | assign => cases hoperator
  | add =>
      cases hoperator
      cases hresult
      exact ⟨_, .assign rfl, fun hgiven =>
        Sign.trueOf_add hgiven (hright name) (hright.evaluate hvalue)⟩
  | multiply =>
      cases hoperator
      cases hresult
      exact ⟨_, .assign rfl, fun hgiven =>
        Sign.trueOf_multiply hgiven (hright name) (hright.evaluate hvalue)⟩
  | subtract | divide | modulus => exact ⟨_, .assign rfl, Sign.trueOf_of_unknown⟩

/-- A clamp to a known sign leaves a value of that sign, unless its high limit is against it. -/
theorem trueOf_bounds {name : String} {low high : Expr} {lowValue highValue : ℚ}
    (hright : facts.RightAbout sign store)
    (hlimits : sign = .nonneg → (Action.bounds name low high).LimitsAgree facts store)
    (hlow : low.HasValue store lowValue) (hhigh : high.HasValue store highValue) :
    ∃ given, GivesSign facts (.bounds name low high) name given ∧
      (given = sign → sign.TrueOf (min (max (store name) lowValue) highValue)) := by
  refine ⟨_, .assign rfl, fun hgiven => ?_⟩
  split_ifs at hgiven with hlowSign hhighSign
  · subst hgiven
    have hlowValue : 0 ≤ lowValue := hright.evaluate hlow hlowSign
    have hhighValue : 0 ≤ highValue := hlimits rfl hlowSign lowValue highValue hlow hhigh
    exact le_min (le_max_of_le_right hlowValue) hhighValue
  · subst hgiven
    have hhighValue : highValue < 0 := hright.evaluate hhigh hhighSign
    exact min_lt_of_right_lt hhighValue
  · exact Sign.trueOf_of_unknown hgiven

/-- The sign that an action gives is right, if the facts were right before. -/
theorem exists_givesSign_of_sets {action : Action} {name : String} {value : ℚ}
    (hright : facts.RightAbout sign store)
    (hlimits : sign = .nonneg → action.LimitsAgree facts store)
    (hsets : action.Sets store name value) :
    ∃ given, GivesSign facts action name given ∧ (given = sign → sign.TrueOf value) := by
  cases hsets with
  | @declare binding expression _ hbinding hvalue =>
      refine ⟨_, .declare, fun hgiven => hright.evaluate hvalue ?_⟩
      simpa only [hbinding, Option.map_some, Option.getD_some] using hgiven
  | @declareOpen binding _ hbinding =>
      refine ⟨_, .declare, fun hgiven => Sign.trueOf_of_unknown ?_⟩
      simpa only [hbinding, Option.map_none, Option.getD_none] using hgiven
  | assign hvalue => exact ⟨_, .assign rfl, hright.evaluate hvalue⟩
  | compound hoperator hvalue hresult => exact trueOf_compound hright hoperator hvalue hresult
  | assignPart hpart =>
      exact ⟨_, (givesSign_part hpart).1 _ _, Sign.trueOf_of_unknown⟩
  | increment =>
      have hone : Sign.nonneg = sign → sign.TrueOf 1 := by
        rintro rfl
        exact zero_le_one
      exact ⟨_, .assign rfl, fun hgiven => Sign.trueOf_add hgiven (hright name) hone⟩
  | decrement => exact ⟨_, .assign rfl, Sign.trueOf_of_unknown⟩
  | stepPart hpart => exact ⟨_, (givesSign_part hpart).2.1 _, Sign.trueOf_of_unknown⟩
  | mutate hvalue => exact ⟨_, .assign rfl, hright.evaluate hvalue⟩
  | mutatePart hpart => exact ⟨_, (givesSign_part hpart).2.2 _, Sign.trueOf_of_unknown⟩
  | bounds hlow hhigh => exact trueOf_bounds hright hlimits hlow hhigh
  | @duration _ amount unit amountValue hvalue =>
      exact ⟨_, .assign rfl, fun hgiven =>
        (hright.evaluate hvalue hgiven).mul_pos unit.seconds_pos⟩

/-! ## Runs -/

section

variable (check : SignCheck) (table : FunctionTable) (contract : Option Contract)

theorem factsAfter_concat (facts : Facts) (front : List Stmt) (line : Nat) (action : Action) :
    check.factsAfter table contract facts (front ++ [.simple line action]) =
      (check.action contract (check.factsAfter table contract facts front) line action).1 :=
  check.factsAfter_append table contract facts front [.simple line action]

/-- What one more action leaves is right, if everything before was. -/
theorem rightAbout_concat {front : List Stmt} {before : Store} {action : Action} {name : String}
    {value : ℚ} (line : Nat)
    (hright : (check.factsAfter table contract facts front).RightAbout sign before)
    (hlimits : sign = .nonneg →
      action.LimitsAgree (check.factsAfter table contract facts front) before)
    (hsets : action.Sets before name value) :
    (check.factsAfter table contract facts (front ++ [.simple line action])).RightAbout sign
      (Function.update before name value) := by
  obtain ⟨given, hgives, hgiven⟩ := exists_givesSign_of_sets hright hlimits hsets
  rw [factsAfter_concat, action_of_givesSign hgives]
  exact hright.bind hgiven

/-- Along a run the facts stay right about a sign.  For the sign of not being negative, the limits
of the clamps on the way have to agree. -/
theorem rightAbout_of_runs (hright : facts.RightAbout sign store) {statements : List Stmt}
    {after : Store} (hruns : Runs store statements after)
    (hlimits : sign = .nonneg → ∀ front line action,
      front ++ [.simple line action] <+: statements → ∀ before, Runs store front before →
        action.LimitsAgree (check.factsAfter table contract facts front) before) :
    (check.factsAfter table contract facts statements).RightAbout sign after := by
  induction hruns with
  | start => exact hright
  | @step front before line action name value hfront hsets ih =>
      have hbefore := ih fun hsign inner innerLine innerAction hinner =>
        hlimits hsign inner innerLine innerAction (hinner.trans (List.prefix_append _ _))
      exact rightAbout_concat check table contract line hbefore
        (fun hsign => hlimits hsign front line action (List.prefix_refl _) before hfront) hsets

/-- Where a clamp leaves a value that is right, its limits agree. -/
theorem limitsAgree_of_rightAbout {front : List Stmt} {before : Store} {action : Action}
    (line : Nat) (hruns : Runs store front before)
    (hright : ∀ after, Runs store (front ++ [.simple line action]) after →
      (check.factsAfter table contract facts (front ++ [.simple line action])).RightAbout
        .nonneg after) :
    action.LimitsAgree (check.factsAfter table contract facts front) before := by
  cases action with
  | bounds name low high =>
      intro hlowSign lowValue highValue hlow hhigh
      have hafter := hright _ (.step hruns (.bounds hlow hhigh))
      have hsign : (check.factsAfter table contract facts
          (front ++ [.simple line (.bounds name low high)])).sign name = .nonneg := by
        have hgives : GivesSign (check.factsAfter table contract facts front)
            (.bounds name low high) name .nonneg := by
          apply GivesSign.assign
          rw [assigned, if_pos hlowSign]
        rw [factsAfter_concat, action_of_givesSign hgives, sign_bind]
      have hvalue := hafter name hsign
      rw [Function.update_self] at hvalue
      exact le_trans hvalue (min_le_right _ _)
  | _ => trivial

end

/-- In every run of straight-line statements, from the facts that a walk starts from, a variable
that is known to be negative is negative.  Those known not to be negative are not, at every point of
every run, exactly when no run comes to a clamp whose low limit is known not to be negative while
its high limit is negative. -/
theorem known_signs_of_runs (check : SignCheck) (table : FunctionTable)
    (contract : Option Contract) {facts : Facts} {store : Store} (hstarts : facts.Starts store)
    (statements : List Stmt) :
    (∀ after, Runs store statements after → ∀ name,
      (check.factsAfter table contract facts statements).sign name = .negative →
        after name < 0) ∧
    ((∀ front, front <+: statements → ∀ after, Runs store front after → ∀ name,
        (check.factsAfter table contract facts front).sign name = .nonneg → 0 ≤ after name) ↔
      ∀ front line action, front ++ [.simple line action] <+: statements →
        ∀ before, Runs store front before →
          action.LimitsAgree (check.factsAfter table contract facts front) before) := by
  refine ⟨?_, ?_, ?_⟩
  · intro after hruns
    exact rightAbout_of_runs check table contract (hstarts.rightAbout .negative) hruns
      (fun hsign => by cases hsign)
  · intro hright front line action hprefix before hruns
    exact limitsAgree_of_rightAbout check table contract line hruns (hright _ hprefix)
  · intro hlimits front hfront after hruns
    exact rightAbout_of_runs check table contract (hstarts.rightAbout .nonneg) hruns
      (fun _ inner line action hinner => hlimits inner line action (hinner.trans hfront))

/-- Behind `let x = -1` and `bounds y (z, x)`, in a function with a contracted `n`. -/
theorem known_signs_of_runs_clamped :
    let store : Store := fun _ => 2
    let facts : Facts := ["n"].foldl (fun inner parameter => inner.bind parameter .nonneg)
      Scopes.empty.push
    let statements := [negativeLet, .simple 3 (.bounds "y" (.name 3 "z") (.name 3 "x"))]
    facts.Starts store ∧ ∀ after, Runs store statements after → after "y" < 0 := by
  intro store facts statements
  have hstarts : facts.Starts store := .function fun _ _ => zero_le_two
  refine ⟨hstarts, fun after hruns => ?_⟩
  exact (known_signs_of_runs definitions [] none hstarts statements).1 after hruns "y"
    (by decide +kernel)

/-- The literal `1`. -/
def oneLiteral (line : Nat) : Expr := .literal line (.number .one)

/-- The statements `let a = 1`, `bounds a (0, -1)`, `let b = 1` and `bounds b (a, -1)`. -/
def crossedLimits : List Stmt :=
  [.simple 2 (.declare ⟨"a", false, none, some (oneLiteral 2)⟩),
   .simple 3 (.bounds "a" (.literal 3 (.number .zero)) (.unary 3 .negate (oneLiteral 3))),
   .simple 4 (.declare ⟨"b", false, none, some (oneLiteral 4)⟩),
   .simple 5 (.bounds "b" (.name 5 "a") (.unary 5 .negate (oneLiteral 5)))]

/-- The program with `overlay nonneg_x Fn root "x" { ret x }`, these statements and `root(b)`. -/
def callBehindCrossedLimits : Program :=
  .function 1 ⟨1, .function, "root", .listed [⟨"x", none⟩], none, [⟨1, "nonneg_x", []⟩],
    ⟨1, [.simple 1 (.leave (some (.name 1 "x")))]⟩⟩ ::
  (crossedLimits ++ [.simple 6 (.evaluate (.call 6 (.name 6 "root") [.name 6 "b"]))])

theorem runs_crossedLimits : ∃ after, Runs (fun _ => 0) crossedLimits after ∧
    after "a" = -1 ∧ after "b" = -1 := by
  have hexact : Number.zero.exact = 0 := Number.exact_of_isZero (by decide +kernel)
  have hzero : ∀ store, (Expr.literal 3 (.number .zero)).HasValue store 0 := fun store =>
    hexact ▸ .literal (by decide)
  have hone : ∀ store line, (oneLiteral line).HasValue store 1 := fun store line =>
    Number.exact_one ▸ .literal Number.isFinite_one
  have hruns : Runs (fun _ => 0) crossedLimits _ :=
    .step (.step (.step (.step .start (.declare rfl (hone _ 2)))
      (.bounds (hzero _) (.negate (hone _ 3)))) (.declare rfl (hone _ 4)))
      (.bounds .name (.negate (hone _ 5)))
  refine ⟨_, hruns, ?_, ?_⟩
  · norm_num [Function.update]
  · norm_num [Function.update]

/-- Both variables end as minus one, both are known not to be negative, and passing one of them for
a parameter that is contracted not to be negative is not reported. -/
theorem nonneg_behind_crossed_limits :
    Facts.Starts (fun _ => 0) .empty ∧
    (∃ after, Runs (fun _ => 0) crossedLimits after ∧ after "a" = -1 ∧ after "b" = -1) ∧
    (callSites.factsAfter callBehindCrossedLimits.functionTable none .empty
      crossedLimits).sign "a" = .nonneg ∧
    (callSites.factsAfter callBehindCrossedLimits.functionTable none .empty
      crossedLimits).sign "b" = .nonneg ∧
    callSites.run callBehindCrossedLimits.functionTable callBehindCrossedLimits = [] :=
  ⟨.program, runs_crossedLimits, by decide +kernel, by decide +kernel, by decide +kernel⟩

end SignCheck

end Tide
