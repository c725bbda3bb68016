import Tide.Emit.Expression
import Tide.Emit.Layout
import Tide.Emit.Requirements
import Tide.Text.Blank

/-!
# Statements as C++

Every statement has a form in C++; what has no meaning there becomes a comment.  Statements that
need a variable of their own take a fresh name, numbered over the whole output, and those that rely
on a header or on support code leave a note of it.
-/

namespace Tide.Emit

/-- What emission keeps on its way through a program. -/
structure Emission where
  /-- The names handed out, the newest first. -/
  temporaries : List String
  requirements : Requirements

def Emission.start : Emission := ⟨[], .none⟩

abbrev Emitter := StateM Emission

/-- The name of the temporary with this label and this number. -/
def temporary (label : String) (number : Nat) : String :=
  "tide_" ++ label ++ "_" ++ toString number

/-- A name that was not handed out before. -/
def fresh (label : String) : Emitter String := fun emission =>
  let name := temporary label emission.temporaries.length
  (name, { emission with temporaries := name :: emission.temporaries })

/-- Leaves a note of what a statement relies on. -/
def rely (note : Requirements → Requirements) : Emitter Unit := fun emission =>
  ((), { emission with requirements := note emission.requirements })

/-- A line that ends with an opening brace. -/
def openBrace (text : String) : Command := .indent (text ++ "\x7b")

/-- A closing brace on a line of its own. -/
def closeBrace : Command := .dedent "\x7d"

/-- The declaration of a variable in a block. -/
def localDeclaration (binding : Local) : String :=
  let qualifier := if binding.constant then "const " else ""
  match binding.type, binding.value with
  | some type, some value =>
    qualifier ++ typeText type ++ " " ++ binding.name ++ " = " ++ value.cppText ++ ";"
  | none, some value => qualifier ++ "auto " ++ binding.name ++ " = " ++ value.cppText ++ ";"
  | some type, none => qualifier ++ typeText type ++ " " ++ binding.name ++ "\x7b\x7d;"
  | none, none => qualifier ++ "double " ++ binding.name ++ "\x7b\x7d;"

/-- The type of a field, which has to be spelt out: without one it follows from a literal value. -/
def fieldType (binding : Local) : String :=
  match binding.type, binding.value.bind Expr.literal? with
  | some type, _ => typeText type
  | none, some (.string _) => "std::string"
  | none, some (.boolean _) => "bool"
  | none, _ => "double"

/-- The declaration of a field in a class. -/
def fieldDeclaration (binding : Local) : String :=
  let declared := (if binding.constant then "const " else "") ++ fieldType binding ++ " "
    ++ binding.name
  match binding.value with
  | some value => declared ++ " = " ++ value.cppText ++ ";"
  | none => declared ++ "\x7b\x7d;"

/-- The length of a time unit in seconds, as a C++ type. -/
def unitRatio : TimeUnit → String
  | .nanosecond => "std::nano"
  | .microsecond => "std::micro"
  | .millisecond => "std::milli"
  | .second => "std::ratio<1>"
  | .minute => "std::ratio<60>"
  | .hour => "std::ratio<3600>"

/-- The step over which a derivative is measured. -/
def derivativeStep : String := "1e-6"

/-- The slope of `body` in the direction of `argument`, measured over a small step. -/
def derivative (name : String) (body : Expr) (argument : String) : Emitter (List Command) := do
  let origin ← fresh "origin"
  let base ← fresh "base"
  let shifted ← fresh "shifted"
  return [.line ("double " ++ name ++ " = 0.0;"),
    openBrace "",
    .line ("const double " ++ origin ++ " = " ++ argument ++ ";"),
    .line ("const double " ++ base ++ " = " ++ body.cppText ++ ";"),
    .line (argument ++ " = " ++ origin ++ " + " ++ derivativeStep ++ ";"),
    .line ("const double " ++ shifted ++ " = " ++ body.cppText ++ ";"),
    .line (argument ++ " = " ++ origin ++ ";"),
    .line (name ++ " = (" ++ shifted ++ " - " ++ base ++ ") / " ++ derivativeStep ++ ";"),
    closeBrace]

/-- The single line of an assignment. -/
def assignment (target : Expr) (operator : AssignOp) (value : Expr) : String :=
  match operator with
  | .modulus =>
    target.cppText ++ " = std::fmod(" ++ target.cppText ++ ", " ++ value.cppText ++ ");"
  | operator => target.cppText ++ " " ++ operator.text ++ " " ++ value.cppText ++ ";"

/-- Maps a variable linearly from one range onto another. -/
def scaling (name : String) (fromLow fromHigh toLow toHigh : Expr) : String :=
  let low := fromLow.cppText
  let image := toLow.cppText
  name ++ " = ((" ++ name ++ " - " ++ low ++ ") / (" ++ fromHigh.cppText ++ " - " ++ low ++ ")) * ("
    ++ toHigh.cppText ++ " - " ++ image ++ ") + " ++ image ++ ";"

/-- The lines of an action that takes no fresh names. -/
def actionLines : Action → List String
  | .declare binding => [localDeclaration binding]
  | .directive overlays =>
    ["// overlay directive: " ++ commentSafe (" ".intercalate (overlays.map (·.name)))]
  | .assign target operator value => [assignment target operator value]
  | .step target operator => [target.cppText ++ operator.text ++ ";"]
  | .mutate target value => [target.cppText ++ " = " ++ value.cppText ++ ";"]
  | .leave (some value) => ["return " ++ value.cppText ++ ";"]
  | .leave none => ["return;"]
  | .breakLoop => ["break;"]
  | .continueLoop => ["continue;"]
  | .raise value => ["throw std::runtime_error(tide::to_text(" ++ value.cppText ++ "));"]
  | .evaluate value => [value.cppText ++ ";"]
  | .print none => ["std::cout << std::endl;"]
  | .print (some value) =>
    ["std::cout << " ++ " << ".intercalate (value.printed.map Expr.cppText) ++ " << std::endl;"]
  | .input name => ["std::cin >> " ++ name ++ ";"]
  | .readInto path name => ["auto " ++ name ++ " = tide::read_file(" ++ path.cppText ++ ");"]
  | .writeOut path value mode =>
    ["tide::write_file(" ++ path.cppText ++ ", " ++ value.cppText ++ ", "
      ++ booleanText (mode = .append) ++ ");"]
  | .channel name element =>
    ["tide::Channel<" ++ (element.map typeText).getD "double" ++ "> " ++ name ++ ";"]
  | .send channel value => [channel ++ ".send(" ++ value.cppText ++ ");"]
  | .receive channel name => ["auto " ++ name ++ " = " ++ channel ++ ".recv();"]
  | .sync => ["std::atomic_thread_fence(std::memory_order_seq_cst);"]
  | .scale name fromLow fromHigh toLow toHigh => [scaling name fromLow fromHigh toLow toHigh]
  | .bounds name low high =>
    [name ++ " = std::min<double>(std::max<double>(" ++ name ++ ", " ++ low.cppText ++ "), "
      ++ high.cppText ++ ");"]
  | .checkpoint label =>
    let message := "[checkpoint]" ++ (label.map (" " ++ ·)).getD ""
    ["std::cerr << \"" ++ escape message ++ "\" << std::endl;"]
  | .duration name amount unit =>
    ["double " ++ name ++ " = std::chrono::duration<double>(std::chrono::duration<double, "
      ++ unitRatio unit ++ ">(" ++ amount.cppText ++ ")).count();"]
  | .derivative _ _ _ => []
  | .splice text => (Text.lines text.toList).map String.ofList
  | .unknown kind text =>
    ["// unknown statement `" ++ commentSafe kind ++ "`: " ++ commentSafe text]

/-- What the lines of an action rely on, besides what was noted before. -/
def actionNote : Action → Requirements → Requirements
  | .raise _, noted => { noted.including ["stdexcept"] with toText := true }
  | .readInto _ _, noted | .writeOut _ _ _, noted => { noted with files := true }
  | .channel _ _, noted => { noted with channel := true }
  | .sync, noted => noted.including ["atomic"]
  | .bounds _ _ _, noted => noted.including ["algorithm"]
  | .duration _ _ _, noted => noted.including ["chrono", "ratio"]
  | _, noted => noted

def actionCommands : Action → Emitter (List Command)
  | .derivative name body argument => derivative name body argument
  | action => return (actionLines action).map .line

def action (action : Action) : Emitter (List Command) := do
  rely (actionNote action)
  actionCommands action

/-- The label of a native case.  It has to be a whole number that fits. -/
def caseLabel? : Literal → Option Int
  | .number value =>
    if value.isWhole && value.isBelow (Nat.pow 2 63) then some value.truncate else none
  | _ => none

/-- A switch can be native when its labels are distinct whole numbers. -/
def isNative (cases : List SwitchCase) : Bool :=
  match cases.mapM (caseLabel? ·.label) with
  | some labels => labels.Nodup
  | none => false

def caseLabelText (label : Literal) : String :=
  toString ((caseLabel? label).getD 0)

/-- The condition that some pattern fits the value of the variable `scrutinee`. -/
def patternCondition (scrutinee : String) : Pattern → String
  | .wildcard => "true"
  | .literal value => scrutinee ++ " == " ++ value.cppText

/-- The condition that one of the patterns fits. -/
def armCondition (scrutinee : String) (patterns : List Pattern) : String :=
  if patterns.isEmpty then "false"
  else " || ".intercalate (patterns.map (patternCondition scrutinee))

/-- The first lines of an arm, which is taken if none was before and its condition holds. -/
def armOpening (matched condition : String) : List Command :=
  [openBrace ("if (!" ++ matched ++ " && (" ++ condition ++ ")) "), .line (matched ++ " = true;")]

/-- Ends the run list that is open, if one is. -/
def closeRunList : Option String → List Command
  | none => []
  | some list => [.line (list ++ ".run();"), closeBrace]

/-- A name for a run list. -/
def newRunList : Emitter String := do
  rely fun noted => { noted with runList := true }
  fresh "run"

def openRunList (list : String) : List Command :=
  [openBrace "", .line ("tide::RunList " ++ list ++ ";")]

/-- Adds a task to a run list. -/
def task (list : String) (priority : Expr) (body : List Command) : List Command :=
  openBrace (list ++ ".add(" ++ priority.cppText ++ ", [&]() ") :: body ++ [.dedent "\x7d);"]

/-- Where a function is declared. -/
inductive Placement where
  | free
  | member
  /-- In a block, as a lambda that captures everything by reference. -/
  | inBlock
  deriving DecidableEq

/-- The result type of a function, if it is fixed. -/
def resultType (flavor : FunctionFlavor) (result : Option TypeName) : Option String :=
  match result, flavor with
  | some type, _ => some (typeText type)
  | none, .routine => some "void"
  | none, _ => none

/-- The parameters of a lambda. -/
def lambdaParameters (parameters : List Parameter) : String :=
  ", ".intercalate (parameters.map fun parameter =>
    match parameter.type with
    | some type => typeText type ++ " " ++ parameter.name
    | none => "auto " ++ parameter.name)

/-- The parameters of a function.  Untyped ones take the template types from number `next` on. -/
def templateParameters : (next : Nat) → List Parameter → List String
  | _, [] => []
  | next, ⟨name, some type⟩ :: rest =>
    (typeText type ++ " " ++ name) :: templateParameters next rest
  | next, ⟨name, none⟩ :: rest =>
    ("T" ++ toString next ++ " " ++ name) :: templateParameters (next + 1) rest

/-- The template types of the untyped parameters. -/
def templateTypes (parameters : List Parameter) : List String :=
  (List.range (parameters.countP (·.type.isNone))).map fun number =>
    "typename T" ++ toString number

/-- The lines in front of the body of a function. -/
def functionOpening (placement : Placement) (flavor : FunctionFlavor) (name : String)
    (parameters : List Parameter) (result : Option TypeName) (overlays : List Overlay) :
    List Command :=
  let comment :=
    if overlays.isEmpty then []
    else [.line ("// overlays: " ++ commentSafe (", ".intercalate (overlays.map (·.name))))]
  let type := resultType flavor result
  comment ++
    match placement with
    | .inBlock =>
      [openBrace ("auto " ++ name ++ " = [&](" ++ lambdaParameters parameters ++ ")"
        ++ (type.map (" -> " ++ ·)).getD "" ++ " ")]
    | .free | .member =>
      let types := templateTypes parameters
      let template :=
        if types.isEmpty then []
        else [.line ("template <" ++ ", ".intercalate types ++ ">")]
      template ++ [openBrace (type.getD "auto" ++ " " ++ name ++ "("
        ++ ", ".intercalate (templateParameters 0 parameters) ++ ") ")]

/-- The line behind the body of a function. -/
def functionClosing : Placement → Command
  | .inBlock => .dedent "\x7d;"
  | .free | .member => closeBrace

/-- The first line of a class. -/
def classOpening (kind : ClassKind) (name : String) (bases : List String) : Command :=
  let inherited :=
    if bases.isEmpty then "" else " : " ++ ", ".intercalate (bases.map ("public " ++ ·))
  openBrace (kind.text ++ " " ++ name ++ inherited ++ " ")

/-- The label in front of a member whose access is not the current one. -/
def accessLabel (current access : Access) : List Command :=
  if access = current then [] else [.outer (access.text ++ ":")]

mutual

def stmt : Stmt → Emitter (List Command)
  | .simple _ act => action act
  | .function _ declaration => function .inBlock declaration
  | .classDecl _ declaration => classDecl declaration
  | .nested _ .block body => do
    let inside ← block body
    return openBrace "" :: inside ++ [closeBrace]
  | .nested _ .pureRegion body => do
    let inside ← block body
    return .line "// pure region" :: openBrace "" :: inside ++ [closeBrace]
  | .nested _ (.whileLoop condition) body => do
    let inside ← block body
    return openBrace ("while (" ++ condition.cppText ++ ") ") :: inside ++ [closeBrace]
  | .nested _ (.forLoop header) body => do
    let inside ← block body
    return openBrace ("for (" ++ header ++ ") ") :: inside ++ [closeBrace]
  | .nested _ (.schedule priority) body => do
    let list ← newRunList
    let inside ← block body
    return openRunList list ++ task list priority inside ++ closeRunList (some list)
  | .branch _ condition positive branch => do
    let inside ← block positive
    let tail ← negative branch
    return openBrace ("if (" ++ condition.cppText ++ ") ") :: inside ++ tail
  | .switch _ scrutinee clauses default => do
    if isNative clauses then
      let inside ← nativeCases clauses
      let tail ← nativeFallback default
      return openBrace ("switch (static_cast<long long>(" ++ scrutinee.cppText ++ ")) ")
        :: inside ++ tail ++ [closeBrace]
    else
      let value ← fresh "match"
      let matched ← fresh "matched"
      let inside ← testedCases value matched clauses
      let tail ← testedFallback matched default
      return openBrace "" :: .line ("const auto " ++ value ++ " = " ++ scrutinee.cppText ++ ";")
        :: .line ("bool " ++ matched ++ " = false;") :: inside ++ tail ++ [closeBrace]
  | .select _ scrutinee clauses default => do
    let value ← fresh "match"
    let matched ← fresh "matched"
    let inside ← arms value matched clauses
    let tail ← testedFallback matched default
    return openBrace "" :: .line ("const auto " ++ value ++ " = " ++ scrutinee.cppText ++ ";")
      :: .line ("bool " ++ matched ++ " = false;") :: inside ++ tail ++ [closeBrace]
  | .attempt _ body binding handler => do
    rely (.including ["stdexcept"])
    let inside ← block body
    let handling ← block handler
    let bound := binding.toList.map fun name =>
      Command.line ("std::string " ++ name ++ " = tide_error.what();")
    return openBrace "try " :: inside ++ closeBrace
      :: openBrace "catch (const std::exception& tide_error) " :: bound ++ handling ++ [closeBrace]

/-- Statements one after the other.  Neighbouring tasks go into one run list, and `list` is the name
of the one that is open. -/
def stmts (list : Option String) : List Stmt → Emitter (List Command)
  | [] => return closeRunList list
  | .nested _ (.schedule priority) body :: rest =>
    match list with
    | some list => do
      let inside ← block body
      let after ← stmts (some list) rest
      return task list priority inside ++ after
    | none => do
      let list ← newRunList
      let inside ← block body
      let after ← stmts (some list) rest
      return openRunList list ++ task list priority inside ++ after
  | first :: rest => do
    let lines ← stmt first
    let after ← stmts none rest
    return closeRunList list ++ lines ++ after

def block : Block → Emitter (List Command)
  | ⟨_, statements⟩ => stmts none statements

/-- What follows the positive branch of an if. -/
def negative : Option Stmt → Emitter (List Command)
  | none => return [closeBrace]
  | some (.branch _ condition positive branch) => do
    let inside ← block positive
    let tail ← negative branch
    return .outer ("\x7d else if (" ++ condition.cppText ++ ") \x7b") :: inside ++ tail
  | some (.nested _ .block body) => do
    let inside ← block body
    return .outer "\x7d else \x7b" :: inside ++ [closeBrace]
  | some statement => do
    let inside ← stmt statement
    return .outer "\x7d else \x7b" :: inside ++ [closeBrace]

/-- The cases of a native switch. -/
def nativeCases : List SwitchCase → Emitter (List Command)
  | [] => return []
  | ⟨label, body⟩ :: rest => do
    let inside ← block body
    let after ← nativeCases rest
    return openBrace ("case " ++ caseLabelText label ++ ": ") :: inside
      ++ .line "break;" :: closeBrace :: after

def nativeFallback : Option Block → Emitter (List Command)
  | none => return []
  | some body => do
    let inside ← block body
    return openBrace "default: " :: inside ++ [.line "break;", closeBrace]

/-- The cases of a switch that is tested case by case. -/
def testedCases (value matched : String) : List SwitchCase → Emitter (List Command)
  | [] => return []
  | ⟨label, body⟩ :: rest => do
    let inside ← block body
    let after ← testedCases value matched rest
    return armOpening matched (armCondition value [.literal label]) ++ inside ++ closeBrace :: after

def arms (value matched : String) : List MatchArm → Emitter (List Command)
  | [] => return []
  | ⟨patterns, body⟩ :: rest => do
    let inside ← block body
    let after ← arms value matched rest
    return armOpening matched (armCondition value patterns) ++ inside ++ closeBrace :: after

def testedFallback (matched : String) : Option Block → Emitter (List Command)
  | none => return []
  | some body => do
    let inside ← block body
    return openBrace ("if (!" ++ matched ++ ") ") :: inside ++ [closeBrace]

def function (placement : Placement) : FunctionDecl → Emitter (List Command)
  | ⟨_, flavor, name, parameters, result, overlays, body⟩ => do
    let inside ← block body
    return functionOpening placement flavor name parameters.parameters result overlays
      ++ inside ++ [functionClosing placement]

def classDecl : ClassDecl → Emitter (List Command)
  | ⟨_, kind, name, bases, classMembers⟩ => do
    let inside ← members kind.defaultAccess classMembers
    return classOpening kind name bases :: inside ++ [.dedent "\x7d;"]

/-- The members of a class after one with the access `current`. -/
def members (current : Access) : List ClassMember → Emitter (List Command)
  | [] => return []
  | .field access binding :: rest => do
    let after ← members access rest
    return accessLabel current access ++ .line (fieldDeclaration binding) :: after
  | .method access declaration :: rest => do
    let inside ← function .member declaration
    let after ← members access rest
    return accessLabel current access ++ inside ++ after

end

end Tide.Emit
