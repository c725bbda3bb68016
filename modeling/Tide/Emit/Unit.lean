import Tide.Emit.Statement

/-!
# The C++ file of a program

Classes come first, then functions, then everything else as the body of `main`, behind the headers
and the support code they rely on.
-/

namespace Tide

/-- The name and the version of this compiler. -/
def compilerName : String := "tidec 0.1.0"

namespace Emit

structure Options where
  /-- Where the source came from. -/
  origin : String
  /-- A line of JSON to embed. -/
  metadata : Option String

def Options.default : Options := ⟨"", none⟩

/-- The classes declared at top level. -/
def topClasses (program : Program) : List ClassDecl :=
  program.filterMap fun
    | .classDecl _ declaration => some declaration
    | _ => none

/-- The functions declared at top level. -/
def topFunctions (program : Program) : List FunctionDecl :=
  program.filterMap fun
    | .function _ declaration => some declaration
    | _ => none

/-- The statement declares a class or a function. -/
def isDeclaration : Stmt → Bool
  | .classDecl _ _ | .function _ _ => true
  | _ => false

/-- What `main` does. -/
def topStatements (program : Program) : List Stmt :=
  program.filter (!isDeclaration ·)

/-- The lines of several declarations, with an empty line behind each. -/
def declarations {α : Type} (emitOne : α → Emitter (List Command)) :
    List α → Emitter (List Command)
  | [] => return []
  | first :: rest => do
    let lines ← emitOne first
    let after ← declarations emitOne rest
    return lines ++ .blank :: after

/-- The lines of the program itself. -/
def commands (program : Program) : Emitter (List Command) := do
  let classes ← declarations classDecl (topClasses program)
  let functions ← declarations (function .free) (topFunctions program)
  let body ← stmts none (topStatements program)
  return classes ++ functions ++ openBrace "int main() "
    :: .line "std::cout << std::boolalpha;" :: body ++ [.line "return 0;", closeBrace]

/-- The comments at the top. -/
def heading (options : Options) : String :=
  "// Generated by " ++ compilerName ++ " from " ++ commentSafe options.origin ++ "\n"
    ++ (options.metadata.map fun metadata =>
      "// tide-metadata: " ++ commentSafe metadata ++ "\n").getD ""

def includes (requirements : Requirements) : String :=
  String.join (requirements.included.map fun header => "#include <" ++ header ++ ">\n")

/-- The metadata as a constant of the program. -/
def metadataConstant (options : Options) : String :=
  (options.metadata.map fun metadata =>
    "[[maybe_unused]] static const char* const TIDE_METADATA = \"" ++ escape metadata
      ++ "\";\n\n").getD ""

/-- The support code in its namespace. -/
def supportSection (requirements : Requirements) : String :=
  if requirements.support.isEmpty then ""
  else "namespace tide \x7b\n\n" ++ "\n".intercalate requirements.support
    ++ "\n\x7d // namespace tide\n\n"

end Emit

/-- The C++ text of a program. -/
def Program.emit (program : Program) (options : Emit.Options) : String :=
  let emitted := (Emit.commands program).run .start
  Emit.heading options ++ "\n" ++ Emit.includes emitted.2.requirements ++ "\n"
    ++ Emit.metadataConstant options ++ Emit.supportSection emitted.2.requirements
    ++ Emit.render emitted.1

end Tide
