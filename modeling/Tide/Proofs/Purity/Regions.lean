import Tide.Analysis.Purity
import Tide.Proofs.Grammar.Chains
import Tide.Proofs.Tree.Expressions

/-!
# Side effects where none may be

Every statement of a program stands in some functions and some pure regions, one inside the other.
It must not have a side effect when it stands in a region, or in the body of a pure function, with
no other function in between.  Such a side effect is reported once, unless it is overlooked: the
region stands in an ordinary function, and that function in something pure.
-/

namespace Tide

/-! ## Where a statement stands -/

/-- What can stand around a statement and say something of its side effects. -/
inductive Frame where
  | region
  | function (declaration : FunctionDecl)

namespace Frame

def isPure : Frame → Bool
  | region => true
  | function declaration => declaration.isPure

/-- A statement with these frames around, the innermost first, must not have a side effect. -/
def confined : List Frame → Bool
  | [] => false
  | frame :: _ => frame.isPure

/-- The function nearest around is not pure, and stands in something that is. -/
def overlooked : List Frame → Bool
  | [] => false
  | region :: outer => overlooked outer
  | function declaration :: outer => !declaration.isPure && outer.any isPure

/-- What a side effect is reported as: the function nearest around is to blame if it is pure. -/
def breach (tag : String) : List Frame → Finding
  | [] => .sideEffectInRegion tag
  | region :: outer => breach tag outer
  | function declaration :: _ =>
    if declaration.isPure then .sideEffect declaration.name tag else .sideEffectInRegion tag

/-- The frame that a block of a statement gets, if any. -/
def ofOpener : Opener → List Frame
  | .pureRegion => [region]
  | _ => []

section

variable {around : List Frame}

theorem confined_of_none (hnone : around.any isPure = false) : confined around = false := by
  cases around with
  | nil => rfl
  | cons frame outer =>
      rw [List.any_cons, Bool.or_eq_false_iff] at hnone
      exact hnone.1

theorem overlooked_of_none (hnone : around.any isPure = false) : overlooked around = false := by
  induction around with
  | nil => rfl
  | cons frame outer ih =>
      rw [List.any_cons, Bool.or_eq_false_iff] at hnone
      cases frame with
      | region => cases hnone.1
      | function declaration => rw [overlooked, hnone.2, Bool.and_false]

theorem breach_of_none (hnone : around.any isPure = false) (tag : String) :
    breach tag around = .sideEffectInRegion tag := by
  cases around with
  | nil => rfl
  | cons frame outer =>
      rw [List.any_cons, Bool.or_eq_false_iff] at hnone
      cases frame with
      | region => cases hnone.1
      | function declaration => exact if_neg (Bool.eq_false_iff.mp hnone.1)

/-- With something pure around, a statement that is not confined is overlooked if a region is put
around it. -/
theorem overlooked_of_not_confined (hany : around.any isPure = true)
    (hconfined : confined around = false) : overlooked around = true := by
  cases around with
  | nil => cases hany
  | cons frame outer =>
      cases frame with
      | region => cases hconfined
      | function declaration =>
          have hpure : declaration.isPure = false := hconfined
          simpa [overlooked, isPure, hpure] using hany

end

end Frame

/-- A statement and what stands around it, the innermost first. -/
structure Placement where
  around : List Frame
  statement : Stmt

namespace Placement

/-- The statement has a side effect where it must not have one. -/
def isBreach (placement : Placement) : Bool :=
  Frame.confined placement.around && placement.statement.hasSideEffect

def isOverlooked (placement : Placement) : Bool := Frame.overlooked placement.around

def isReported (placement : Placement) : Bool := placement.isBreach && !placement.isOverlooked

/-- What the side effect is reported as. -/
def diagnostic (placement : Placement) : Diagnostic :=
  ⟨placement.statement.line, Frame.breach placement.statement.tag placement.around⟩

/-- The reports about some statements. -/
def reports (placements : List Placement) : List Diagnostic :=
  (placements.filter isReported).map diagnostic

theorem reports_append (front back : List Placement) :
    reports (front ++ back) = reports front ++ reports back := by
  rw [reports, List.filter_append, List.map_append, reports, reports]

mutual

/-- Every statement in a statement, and the statement itself, with what stands around. -/
def ofStmt (around : List Frame) : Stmt → List Placement
  | .simple line action => [⟨around, .simple line action⟩]
  | .function line declaration =>
    ⟨around, .function line declaration⟩ :: ofFunction around declaration
  | .classDecl line ⟨classLine, kind, name, bases, members⟩ =>
    ⟨around, .classDecl line ⟨classLine, kind, name, bases, members⟩⟩ :: ofMembers around members
  | .nested line opener body =>
    ⟨around, .nested line opener body⟩ :: ofBlock (Frame.ofOpener opener ++ around) body
  | .branch line condition positive negative =>
    ⟨around, .branch line condition positive negative⟩ ::
      (ofBlock around positive ++ ofNegative around negative)
  | .switch line scrutinee cases fallback =>
    ⟨around, .switch line scrutinee cases fallback⟩ ::
      (ofCases around cases ++ ofFallback around fallback)
  | .select line scrutinee arms fallback =>
    ⟨around, .select line scrutinee arms fallback⟩ ::
      (ofArms around arms ++ ofFallback around fallback)
  | .attempt line body binding handler =>
    ⟨around, .attempt line body binding handler⟩ :: (ofBlock around body ++ ofBlock around handler)

def ofStmts (around : List Frame) : List Stmt → List Placement
  | [] => []
  | first :: rest => ofStmt around first ++ ofStmts around rest

def ofBlock (around : List Frame) : Block → List Placement
  | ⟨_, statements⟩ => ofStmts around statements

def ofFunction (around : List Frame) : FunctionDecl → List Placement
  | ⟨line, flavor, name, parameters, result, overlays, body⟩ =>
    ofBlock (.function ⟨line, flavor, name, parameters, result, overlays, body⟩ :: around) body

def ofMembers (around : List Frame) : List ClassMember → List Placement
  | [] => []
  | .field _ _ :: rest => ofMembers around rest
  | .method _ declaration :: rest => ofFunction around declaration ++ ofMembers around rest

def ofNegative (around : List Frame) : Option Stmt → List Placement
  | none => []
  | some negative => ofStmt around negative

def ofCases (around : List Frame) : List SwitchCase → List Placement
  | [] => []
  | ⟨_, body⟩ :: rest => ofBlock around body ++ ofCases around rest

def ofArms (around : List Frame) : List MatchArm → List Placement
  | [] => []
  | ⟨_, body⟩ :: rest => ofBlock around body ++ ofArms around rest

def ofFallback (around : List Frame) : Option Block → List Placement
  | none => []
  | some body => ofBlock around body

end

/-! ## The statements are those of the program -/

mutual

theorem ofStmt_statements : ∀ statement around,
    (ofStmt around statement).map Placement.statement =
      Node.statements (Node.ofStmt .declarations statement)
  | .simple _ action, _ => by simp [ofStmt, Node.ofStmt, Node.ofAction]
  | .function _ declaration, around => by
      simp [ofStmt, Node.ofStmt, ofFunction_statements declaration]
  | .classDecl _ ⟨_, _, _, _, members⟩, around => by
      simp [ofStmt, Node.ofStmt, ofMembers_statements members]
  | .nested _ opener body, around => by simp [ofStmt, Node.ofStmt, ofBlock_statements body]
  | .branch _ _ positive negative, around => by
      simp [ofStmt, Node.ofStmt, ofBlock_statements positive, ofNegative_statements negative]
  | .switch _ _ cases fallback, around => by
      simp [ofStmt, Node.ofStmt, ofCases_statements cases, ofFallback_statements fallback]
  | .select _ _ arms fallback, around => by
      simp [ofStmt, Node.ofStmt, ofArms_statements arms, ofFallback_statements fallback]
  | .attempt _ body _ handler, around => by
      simp [ofStmt, Node.ofStmt, ofBlock_statements body, ofBlock_statements handler]

theorem ofStmts_statements : ∀ statements around,
    (ofStmts around statements).map Placement.statement =
      Node.statements (Node.ofStmts .declarations statements)
  | [], _ => rfl
  | first :: rest, around => by
      simp [ofStmts, Node.ofStmts, ofStmt_statements first, ofStmts_statements rest]

theorem ofBlock_statements : ∀ body around,
    (ofBlock around body).map Placement.statement =
      Node.statements (Node.ofBlock .declarations body)
  | ⟨_, statements⟩, around => ofStmts_statements statements around

theorem ofFunction_statements : ∀ declaration around,
    (ofFunction around declaration).map Placement.statement =
      Node.statements (Node.ofFunction declaration)
  | ⟨_, _, _, _, _, _, body⟩, around => by
      simp [ofFunction, Node.ofFunction, ofBlock_statements body]

theorem ofMembers_statements : ∀ members around,
    (ofMembers around members).map Placement.statement =
      Node.statements (Node.ofMembers members)
  | [], _ => rfl
  | .field _ _ :: rest, around => by
      simp [ofMembers, Node.ofMembers, ofMembers_statements rest]
  | .method _ declaration :: rest, around => by
      simp [ofMembers, Node.ofMembers, ofFunction_statements declaration,
        ofMembers_statements rest]

theorem ofNegative_statements : ∀ negative around,
    (ofNegative around negative).map Placement.statement =
      Node.statements (Node.ofNegative .declarations negative)
  | none, _ => rfl
  | some statement, around => ofStmt_statements statement around

theorem ofCases_statements : ∀ cases around,
    (ofCases around cases).map Placement.statement =
      Node.statements (Node.ofCases .declarations cases)
  | [], _ => rfl
  | ⟨_, body⟩ :: rest, around => by
      simp [ofCases, Node.ofCases, ofBlock_statements body, ofCases_statements rest]

theorem ofArms_statements : ∀ arms around,
    (ofArms around arms).map Placement.statement =
      Node.statements (Node.ofArms .declarations arms)
  | [], _ => rfl
  | ⟨_, body⟩ :: rest, around => by
      simp [ofArms, Node.ofArms, ofBlock_statements body, ofArms_statements rest]

theorem ofFallback_statements : ∀ fallback around,
    (ofFallback around fallback).map Placement.statement =
      Node.statements (Node.ofFallback .declarations fallback)
  | none, _ => rfl
  | some body, around => ofBlock_statements body around

end

end Placement

/-! ## What the walk reports -/

/-- The diagnostic is about a side effect. -/
def Diagnostic.isSideEffect (diagnostic : Diagnostic) : Bool :=
  match diagnostic.finding with
  | .sideEffect _ _ | .sideEffectInRegion _ => true
  | _ => false

namespace Analysis.Purity

open Placement (reports reports_append)

/-- The reports about statements that all have the same frames around. -/
def reportsIn (around : List Frame) (statements : List Stmt) : List Diagnostic :=
  reports (statements.map (Placement.mk around))

/-- The statements of a block, in no function or class declared there. -/
def ownStatements (body : Block) : List Stmt := Node.statements (Node.ofBlock .ownBody body)

section

variable (around : List Frame) (own : List Stmt)

theorem reportsIn_append (front back : List Stmt) :
    reportsIn around (front ++ back) = reportsIn around front ++ reportsIn around back := by
  rw [reportsIn, List.map_append, reports_append, reportsIn, reportsIn]

theorem reportsIn_of_reported {around : List Frame} (hconfined : Frame.confined around = true)
    (hoverlooked : Frame.overlooked around = false) :
    reportsIn around own = (own.filter Stmt.hasSideEffect).map fun statement =>
      ⟨statement.line, Frame.breach statement.tag around⟩ := by
  have hreported : Placement.isReported ∘ Placement.mk around = Stmt.hasSideEffect := by
    funext statement
    simp [Placement.isReported, Placement.isBreach, Placement.isOverlooked, hconfined, hoverlooked]
  rw [reportsIn, reports, List.filter_map, List.map_map, hreported]
  rfl

theorem reportsIn_of_not_reported {around : List Frame}
    (hreported : (Frame.confined around && !Frame.overlooked around) = false) :
    reportsIn around own = [] := by
  rw [reportsIn, reports, List.map_eq_nil_iff, List.filter_eq_nil_iff]
  intro placement hplacement
  obtain ⟨statement, -, rfl⟩ := List.mem_map.mp hplacement
  rw [Placement.isReported, Placement.isBreach, Bool.and_right_comm]
  exact Bool.not_eq_true _ ▸ Bool.and_eq_false_iff.mpr (.inl hreported)

end

/-- The side effects of a body are those of its own statements, whatever they are reported as. -/
theorem sideEffects_map (parameters : List String) (body : Block) (finding : String → Finding) :
    ((Effects.ofBody parameters body).sideEffects.map fun effect =>
        (⟨effect.1, finding effect.2⟩ : Diagnostic)) =
      ((ownStatements body).filter Stmt.hasSideEffect).map fun statement =>
        ⟨statement.line, finding statement.tag⟩ := by
  change ((ownStatements body).filterMap _).map _ = _
  induction ownStatements body with
  | nil => rfl
  | cons head tail ih => cases hhead : head.hasSideEffect <;> simp [hhead, ih]

theorem filter_sideEffects (effects : List (Nat × String)) (finding : String → Finding)
    (hfinding : ∀ line tag, Diagnostic.isSideEffect ⟨line, finding tag⟩ = true) :
    (effects.map fun effect => (⟨effect.1, finding effect.2⟩ : Diagnostic)).filter
        Diagnostic.isSideEffect =
      effects.map fun effect => ⟨effect.1, finding effect.2⟩ := by
  rw [List.filter_eq_self]
  intro diagnostic hdiagnostic
  obtain ⟨effect, -, rfl⟩ := List.mem_map.mp hdiagnostic
  exact hfinding _ _

/-- Of what is reported of a pure function, the first part is about side effects. -/
theorem filter_pureFunction (table : FunctionTable) (declaration : FunctionDecl) :
    (pureFunction table declaration).filter Diagnostic.isSideEffect =
      ((ownStatements declaration.body).filter Stmt.hasSideEffect).map fun statement =>
        ⟨statement.line, .sideEffect declaration.name statement.tag⟩ := by
  rw [← sideEffects_map declaration.parameterNames, pureFunction, List.append_assoc,
    List.filter_append, filter_sideEffects _ _ fun _ _ => rfl]
  refine (congrArg (_ ++ ·) ?_).trans (List.append_nil _)
  rw [List.filter_eq_nil_iff]
  intro diagnostic hdiagnostic
  rcases List.mem_append.mp hdiagnostic with hreassigned | hcall
  · obtain ⟨entry, -, rfl⟩ := List.mem_map.mp hreassigned
    exact Bool.false_ne_true
  · obtain ⟨⟨line, callee⟩, -, hcallee⟩ := List.mem_filterMap.mp hcall
    dsimp only at hcallee
    cases hinfo : table.find callee with
    | none =>
        rw [hinfo] at hcallee
        cases hcallee
    | some info =>
        rw [hinfo] at hcallee
        obtain ⟨-, hcallee⟩ := Option.ite_none_left_eq_some.mp hcallee
        exact Option.some.inj hcallee ▸ Bool.false_ne_true

theorem filter_pureRegion (body : Block) :
    (pureRegion body).filter Diagnostic.isSideEffect =
      ((ownStatements body).filter Stmt.hasSideEffect).map fun statement =>
        ⟨statement.line, .sideEffectInRegion statement.tag⟩ := by
  rw [← sideEffects_map []]
  exact filter_sideEffects _ _ fun _ _ => rfl

/-- A region reports what nobody around it does. -/
theorem filter_region (around : List Frame) (body : Block) :
    (if around.any Frame.isPure then [] else pureRegion body).filter Diagnostic.isSideEffect ++
        reportsIn around (ownStatements body) =
      reportsIn (.region :: around) (ownStatements body) := by
  cases hany : around.any Frame.isPure with
  | false =>
      -- The region is the outermost of its kind, so it is the one that reports.
      have houter : reportsIn around (ownStatements body) = [] := by
        apply reportsIn_of_not_reported
        rw [Frame.confined_of_none hany, Bool.false_and]
      have hinner : Frame.overlooked (.region :: around) = false := by
        rw [Frame.overlooked, Frame.overlooked_of_none hany]
      rw [houter, List.append_nil, reportsIn_of_reported _ rfl hinner]
      simp only [Frame.breach, Frame.breach_of_none hany]
      exact filter_pureRegion body
  | true =>
      -- The region keeps silent.  Whether somebody else reports depends on the function nearest
      -- around.
      cases hoverlooked : Frame.overlooked around with
      | true =>
          rw [reportsIn_of_not_reported _ (by rw [hoverlooked, Bool.not_true, Bool.and_false])]
          rw [reportsIn_of_not_reported]
          · rfl
          · rw [Frame.overlooked, hoverlooked, Bool.not_true, Bool.and_false]
      | false =>
          have hconfined : Frame.confined around = true := by
            by_contra hconfined
            rw [Frame.overlooked_of_not_confined hany (Bool.eq_false_of_not_eq_true hconfined)]
              at hoverlooked
            cases hoverlooked
          have hinner : Frame.overlooked (.region :: around) = false := hoverlooked
          rw [reportsIn_of_reported _ hconfined hoverlooked, reportsIn_of_reported _ rfl hinner]
          rfl

/-- The walk inside `around` found the side effects `found`.  Together with the reports about the
statements `own`, which whoever stands around makes, these are the reports about `placed`. -/
def Accounted (around : List Frame) (found : List Diagnostic) (own : List Stmt)
    (placed : List Placement) : Prop :=
  (found.filter Diagnostic.isSideEffect ++ reportsIn around own).Perm (reports placed)

namespace Accounted

variable {around : List Frame}

theorem nil : Accounted around [] [] [] := List.Perm.nil

theorem append {front back : List Diagnostic} {ownFront ownBack : List Stmt}
    {placedFront placedBack : List Placement}
    (hfront : Accounted around front ownFront placedFront)
    (hback : Accounted around back ownBack placedBack) :
    Accounted around (front ++ back) (ownFront ++ ownBack) (placedFront ++ placedBack) := by
  rw [Accounted, reportsIn_append, reports_append, List.filter_append, List.append_assoc]
  refine List.Perm.trans ?_ (List.Perm.append hfront hback)
  rw [List.append_assoc]
  exact (List.perm_append_comm_assoc ..).append_left _

/-- A statement that the walk itself reports nothing about. -/
theorem statement {found : List Diagnostic} {own : List Stmt} {placed : List Placement}
    (statement : Stmt) (hinner : Accounted around found own placed) :
    Accounted around found (statement :: own) (⟨around, statement⟩ :: placed) := by
  have hself : Accounted around [] [statement] [⟨around, statement⟩] := List.Perm.refl _
  exact hself.append hinner

/-- A region, from its body. -/
theorem region {found : List Diagnostic} {placed : List Placement} {body : Block}
    (hbody : Accounted (.region :: around) found (ownStatements body) placed) :
    Accounted around ((if around.any Frame.isPure then [] else pureRegion body) ++ found)
      (ownStatements body) placed := by
  refine List.Perm.trans ?_ hbody
  rw [List.filter_append, List.append_assoc, ← filter_region]
  exact List.perm_append_comm_assoc ..

/-- A pure function, from its body. -/
theorem pureFunction {table : FunctionTable} {found : List Diagnostic} {placed : List Placement}
    {declaration : FunctionDecl} (hpure : declaration.isPure = true)
    (hbody : Accounted (.function declaration :: around) found (ownStatements declaration.body)
      placed) :
    Accounted around (Analysis.pureFunction table declaration ++ found) [] placed := by
  have hconfined : Frame.confined (.function declaration :: around) = true := hpure
  have hoverlooked : Frame.overlooked (.function declaration :: around) = false := by
    rw [Frame.overlooked, hpure, Bool.not_true, Bool.false_and]
  rw [Accounted, reportsIn_of_reported _ hconfined hoverlooked] at hbody
  simp only [Frame.breach, hpure, if_true] at hbody
  rw [← filter_pureFunction table] at hbody
  refine List.Perm.trans ?_ hbody
  rw [List.filter_append]
  exact (List.append_nil _).symm ▸ List.perm_append_comm

/-- An ordinary function, from its body. -/
theorem function {found : List Diagnostic} {placed : List Placement} {declaration : FunctionDecl}
    (hpure : declaration.isPure = false)
    (hbody : Accounted (.function declaration :: around) found (ownStatements declaration.body)
      placed) :
    Accounted around found [] placed := by
  have hconfined : Frame.confined (.function declaration :: around) = false := hpure
  rw [Accounted, reportsIn_of_not_reported _ (by rw [hconfined, Bool.false_and])] at hbody
  exact hbody

end Accounted

variable (table : FunctionTable)

-- The walk carries one bit down, whether something pure is around.  The frames carry all that is
-- around, and the bit is read off them in every statement here.

mutual

theorem accounted_stmt : ∀ statement around,
    Accounted around (stmt table (around.any Frame.isPure) statement)
      (Node.statements (Node.ofStmt .ownBody statement)) (Placement.ofStmt around statement)
  | .simple line action, around => by
      have hown : Node.statements (Node.ofStmt .ownBody (.simple line action)) =
          [.simple line action] := by simp [Node.ofStmt, Node.ofAction]
      rw [hown]
      exact .statement _ .nil
  | .function line declaration, around => .statement _ (accounted_function declaration around)
  | .classDecl line ⟨_, _, _, _, classMembers⟩, around =>
      .statement _ (accounted_members classMembers around)
  | .nested line opener body, around => by
      rw [Node.ofStmt, Node.statements_statement, Node.statements_append,
        Node.statements_map_expression]
      refine .statement _ ?_
      cases opener with
      | pureRegion => exact .region (accounted_block body (.region :: around))
      | _ => exact accounted_block body around
  | .branch line condition positive alternative, around => by
      rw [Node.ofStmt, Node.statements_statement, Node.statements_expression,
        Node.statements_append]
      exact .statement _
        ((accounted_block positive around).append (accounted_negative alternative around))
  | .switch line scrutinee clauses default, around => by
      rw [Node.ofStmt, Node.statements_statement, Node.statements_expression,
        Node.statements_append]
      exact .statement _
        ((accounted_cases clauses around).append (accounted_fallback default around))
  | .select line scrutinee clauses default, around => by
      rw [Node.ofStmt, Node.statements_statement, Node.statements_expression,
        Node.statements_append]
      exact .statement _
        ((accounted_arms clauses around).append (accounted_fallback default around))
  | .attempt line body binding handler, around => by
      rw [Node.ofStmt, Node.statements_statement, Node.statements_append]
      exact .statement _
        ((accounted_block body around).append (accounted_block handler around))

theorem accounted_stmts : ∀ statements around,
    Accounted around (stmts table (around.any Frame.isPure) statements)
      (Node.statements (Node.ofStmts .ownBody statements)) (Placement.ofStmts around statements)
  | [], _ => .nil
  | first :: rest, around => by
      rw [Node.ofStmts, Node.statements_append]
      exact (accounted_stmt first around).append (accounted_stmts rest around)

theorem accounted_block : ∀ body around,
    Accounted around (block table (around.any Frame.isPure) body) (ownStatements body)
      (Placement.ofBlock around body)
  | ⟨_, statements⟩, around => accounted_stmts statements around

theorem accounted_function : ∀ declaration around,
    Accounted around (function table (around.any Frame.isPure) declaration) []
      (Placement.ofFunction around declaration)
  | ⟨line, flavor, name, parameters, result, overlays, body⟩, around => by
      have hbody := accounted_block body
        (.function ⟨line, flavor, name, parameters, result, overlays, body⟩ :: around)
      rw [List.any_cons, Frame.isPure] at hbody
      rw [function, Placement.ofFunction]
      split
      case isTrue hpure =>
        rw [hpure, Bool.true_or] at hbody
        exact .pureFunction hpure hbody
      case isFalse hpure =>
        have hpure := Bool.eq_false_of_not_eq_true hpure
        rw [hpure, Bool.false_or] at hbody
        exact .function hpure hbody

theorem accounted_members : ∀ classMembers around,
    Accounted around (members table (around.any Frame.isPure) classMembers) []
      (Placement.ofMembers around classMembers)
  | [], _ => .nil
  | .field _ _ :: rest, around => accounted_members rest around
  | .method _ declaration :: rest, around =>
      (accounted_function declaration around).append (accounted_members rest around)

theorem accounted_negative : ∀ alternative around,
    Accounted around (negative table (around.any Frame.isPure) alternative)
      (Node.statements (Node.ofNegative .ownBody alternative))
      (Placement.ofNegative around alternative)
  | none, _ => .nil
  | some statement, around => accounted_stmt statement around

theorem accounted_cases : ∀ clauses around,
    Accounted around (cases table (around.any Frame.isPure) clauses)
      (Node.statements (Node.ofCases .ownBody clauses)) (Placement.ofCases around clauses)
  | [], _ => .nil
  | ⟨_, body⟩ :: rest, around => by
      rw [Node.ofCases, Node.statements_append]
      exact (accounted_block body around).append (accounted_cases rest around)

theorem accounted_arms : ∀ clauses around,
    Accounted around (arms table (around.any Frame.isPure) clauses)
      (Node.statements (Node.ofArms .ownBody clauses)) (Placement.ofArms around clauses)
  | [], _ => .nil
  | ⟨_, body⟩ :: rest, around => by
      rw [Node.ofArms, Node.statements_append]
      exact (accounted_block body around).append (accounted_arms rest around)

theorem accounted_fallback : ∀ default around,
    Accounted around (fallback table (around.any Frame.isPure) default)
      (Node.statements (Node.ofFallback .ownBody default)) (Placement.ofFallback around default)
  | none, _ => .nil
  | some body, around => accounted_block body around

end

end Analysis.Purity

/-! ## Whole programs -/

namespace Program

/-- Every statement of the program, with what stands around. -/
def placements (program : Program) : List Placement := Placement.ofStmts [] program

/-- The side effects where none may be. -/
def breaches (program : Program) : List Placement := program.placements.filter Placement.isBreach

variable (table : FunctionTable) (program : Program)

theorem filter_purity :
    ((Analysis.purity table program).filter Diagnostic.isSideEffect).Perm
      ((program.breaches.filter fun breach => !breach.isOverlooked).map
        Placement.diagnostic) := by
  have haccounted := Analysis.Purity.accounted_stmts table program []
  have hown : Analysis.Purity.reportsIn [] (Node.statements (Node.ofStmts .ownBody program)) = [] :=
    Analysis.Purity.reportsIn_of_not_reported _ rfl
  rw [Analysis.Purity.Accounted, hown, List.append_nil] at haccounted
  refine haccounted.trans (.of_eq ?_)
  rw [Placement.reports, breaches, List.filter_filter]
  exact congrArg (List.map _) (List.filter_congr fun placement _ => Bool.and_comm ..)

/-- Every side effect where none may be is reported exactly once, and no other, except for those
that are overlooked.  So all are reported just if none is overlooked. -/
theorem side_effects_reported :
    program.placements.map Placement.statement = program.allStatements ∧
      ((Analysis.purity table program).filter Diagnostic.isSideEffect).Perm
        ((program.breaches.filter fun breach => !breach.isOverlooked).map
          Placement.diagnostic) ∧
      (((Analysis.purity table program).filter Diagnostic.isSideEffect).Perm
          (program.breaches.map Placement.diagnostic) ↔
        ∀ breach ∈ program.breaches, breach.isOverlooked = false) := by
  have hreported := program.filter_purity table
  refine ⟨Placement.ofStmts_statements program [], hreported, ?_, ?_⟩
  · intro hall
    have hlength := (hreported.symm.trans hall).length_eq
    rw [List.length_map, List.length_map, List.length_filter_eq_length_iff] at hlength
    exact fun breach hbreach => Bool.not_eq_true' _ ▸ hlength breach hbreach
  · intro hnone
    have hself : (program.breaches.filter fun breach => !breach.isOverlooked) = program.breaches :=
      List.filter_eq_self.mpr fun breach hbreach => by rw [hnone breach hbreach, Bool.not_false]
    rwa [hself] at hreported

/-- The tokens of `pure { Fn g "x" { pure { Print x } } }`. -/
def regionInFunctionInRegion : List Token :=
  [⟨.keyword .pureWord, "pure", 1⟩, ⟨.symbol .openBrace, "\x7b", 1⟩, ⟨.keyword .fnWord, "Fn", 1⟩,
   ⟨.identifier, "g", 1⟩, ⟨.string, "x", 1⟩, ⟨.symbol .openBrace, "\x7b", 1⟩,
   ⟨.keyword .pureWord, "pure", 1⟩, ⟨.symbol .openBrace, "\x7b", 1⟩,
   ⟨.keyword .print, "Print", 1⟩, ⟨.identifier, "x", 1⟩, ⟨.symbol .closeBrace, "\x7d", 1⟩,
   ⟨.symbol .closeBrace, "\x7d", 1⟩, ⟨.symbol .closeBrace, "\x7d", 1⟩]

/-- A region in an ordinary function is passed by when the function stands in a region. -/
theorem region_in_function_overlooked : ∃ program,
    (ofTokens regionInFunctionInRegion).result = .ok program ∧
      program.breaches.map Placement.diagnostic = [⟨1, .sideEffectInRegion "print"⟩] ∧
      Analysis.purity program.functionTable program = [] := by
  have hview : (ofTokens regionInFunctionInRegion).result.toOption.map (fun program =>
      (program.breaches.map Placement.diagnostic,
        Analysis.purity program.functionTable program)) =
      some ([⟨1, .sideEffectInRegion "print"⟩], []) := by decide +kernel
  obtain ⟨program, hread, hshown⟩ := exists_read_of_view hview
  exact ⟨program, hread, Prod.mk.inj hshown⟩

end Program

end Tide
