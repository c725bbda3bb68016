import Tide.Metadata

/-!
# Arguments of the command line

One source file and options, in any order.  Options with a value take it from the same word or from
the next one.  Nothing may be given twice, but for metadata and the wish for more logging.
-/

namespace Tide

structure Arguments where
  source : String
  /-- The file for the generated code. -/
  output : Option String
  std : String
  optLevel : Nat
  /-- The generated code is compiled too. -/
  build : Bool
  /-- The file for the executable. -/
  binary : Option String
  metadata : List (String × String)
  /-- The optimized program is shown. -/
  dumpTree : Bool
  verbosity : Nat
  deriving DecidableEq

/-- An option that takes a value. -/
inductive ValueOption where
  | output
  | std
  | optLevel
  | binary
  | metadata
  deriving DecidableEq

def ValueOption.text : ValueOption → String
  | output => "--output"
  | std => "--std"
  | optLevel => "-O"
  | binary => "--binary"
  | metadata => "--meta"

/-- An option that takes none. -/
inductive Switch where
  | build
  | dumpTree
  | verbose
  deriving DecidableEq

def Switch.text : Switch → String
  | build => "--build"
  | dumpTree => "--dump-ast"
  | verbose => "--verbose"

/-- Why a command line is refused. -/
inductive UsageFault where
  | unknownOption (text : String)
  | missingValue (option : ValueOption)
  | unexpectedValue (switch : Switch)
  | emptyPath
  | optLevel (text : String)
  | entry (text : String) (fault : EntryFault)
  | repeatedOption (option : ValueOption)
  | repeatedSwitch (switch : Switch)
  | missingSource
  | extraArgument (text : String)
  /-- An executable is named, but none is built. -/
  | binaryWithoutBuild
  | noSuchSource (path : String)
  deriving DecidableEq

def UsageFault.message : UsageFault → String
  | unknownOption text => "unexpected argument '" ++ text ++ "'"
  | missingValue option => "a value is required for '" ++ option.text ++ "'"
  | unexpectedValue switch => "no value is allowed for '" ++ switch.text ++ "'"
  | emptyPath => "a path is empty"
  | optLevel text => "'" ++ text ++ "' is not in 0..=3"
  | entry text fault => fault.message text
  | repeatedOption option => "'" ++ option.text ++ "' is given more than once"
  | repeatedSwitch switch => "'" ++ switch.text ++ "' is given more than once"
  | missingSource => "a source file is required"
  | extraArgument text => "unexpected argument '" ++ text ++ "'"
  | binaryWithoutBuild => "'--binary' requires '--build'"
  | noSuchSource path => "Source file '" ++ path ++ "' does not exist!"

/-- One thing that the command line says. -/
inductive Setting where
  | source (path : String)
  | output (path : String)
  | std (name : String)
  | optLevel (level : Nat)
  | binary (path : String)
  | entry (key value : String)
  | switch (switch : Switch)
  deriving DecidableEq

namespace Setting

def path (build : String → Setting) (text : String) : Except UsageFault Setting :=
  if text.isEmpty then .error .emptyPath else .ok (build text)

/-- A level from zero to three.  A sign may stand in front. -/
def optLevel? (text : List Char) : Option Nat :=
  let digits :=
    match text with
    | '+' :: rest | '-' :: rest => rest
    | text => text
  if digits.isEmpty || !digits.all Char.isDigit then none
  else
    let value := digits.foldl (fun value digit => 10 * value + (digit.toNat - '0'.toNat)) 0
    if value = 0 || (value ≤ 3 && text.head? != some '-') then some value else none

end Setting

namespace ValueOption

def setting (option : ValueOption) (text : String) : Except UsageFault Setting :=
  match option with
  | output => Setting.path .output text
  | binary => Setting.path .binary text
  | std => .ok (.std text)
  | optLevel =>
    match Setting.optLevel? text.toList with
    | some level => .ok (.optLevel level)
    | none => .error (.optLevel text)
  | metadata =>
    match Metadata.entry text with
    | .ok (key, value) => .ok (.entry key value)
    | .error fault => .error (.entry text fault)

end ValueOption

namespace Arguments

/-- What one word says, and the option that still waits for its value. -/
abbrev WordResult := Except UsageFault (List Setting × Option ValueOption)

/-- A word that starts with two dashes.  A value may follow an equals sign. -/
def longOption (text : List Char) : WordResult :=
  let name := String.ofList (text.takeWhile (· != '='))
  let value := (text.dropWhile (· != '=')).tail?.map String.ofList
  let option (option : ValueOption) : WordResult :=
    match value with
    | none => .ok ([], some option)
    | some value => (option.setting value).map fun setting => ([setting], none)
  let switch (switch : Switch) : WordResult :=
    match value with
    | none => .ok ([.switch switch], none)
    | some _ => .error (.unexpectedValue switch)
  match name with
  | "output" => option .output
  | "std" => option .std
  | "binary" => option .binary
  | "meta" => option .metadata
  | "build" => switch .build
  | "dump-ast" => switch .dumpTree
  | "verbose" => switch .verbose
  | _ => .error (.unknownOption ("--" ++ name))

/-- The value that stands behind a letter in the same word, if one does. -/
def attached (option : ValueOption) : List Char → WordResult
  | [] => .ok ([], some option)
  | '=' :: value | value =>
    (option.setting (String.ofList value)).map fun setting => ([setting], none)

/-- A word of letters behind one dash. -/
def shortOptions : List Char → WordResult
  | [] => .ok ([], none)
  | 'v' :: rest => (shortOptions rest).map fun (settings, pending) =>
    (.switch .verbose :: settings, pending)
  | 'o' :: rest => attached .output rest
  | 'O' :: rest => attached .optLevel rest
  | letter :: _ => .error (.unknownOption (String.ofList ['-', letter]))

def word (text : String) : WordResult :=
  match text.toList with
  | '-' :: '-' :: rest => longOption rest
  | '-' :: letter :: rest => shortOptions (letter :: rest)
  | _ => (Setting.path .source text).map fun setting => ([setting], none)

/-- A dash alone is a value, but no other word with a dash in front is. -/
def looksLikeOption (text : String) : Bool :=
  text.startsWith "-" && text != "-"

/-- Everything that the words say.  After two dashes alone every word is a source. -/
def settings : (pending : Option ValueOption) → List String → Except UsageFault (List Setting)
  | none, [] => .ok []
  | some option, [] => .error (.missingValue option)
  | some option, text :: rest =>
    if looksLikeOption text then .error (.missingValue option)
    else do
      let setting ← option.setting text
      let after ← settings none rest
      return setting :: after
  | none, text :: rest =>
    if text = "--" then rest.mapM (Setting.path .source)
    else do
      let (found, pending) ← word text
      let after ← settings pending rest
      return found ++ after

/-- The value of an option that is given at most once. -/
def atMostOne {α : Type} (option : ValueOption) (values : List α) :
    Except UsageFault (Option α) :=
  match values with
  | [] => .ok none
  | [value] => .ok (some value)
  | _ => .error (.repeatedOption option)

def isGiven (settings : List Setting) (switch : Switch) : Except UsageFault Bool :=
  match settings.count (.switch switch) with
  | 0 => .ok false
  | 1 => .ok true
  | _ => .error (.repeatedSwitch switch)

def sourceOf (settings : List Setting) : Except UsageFault String :=
  match settings.filterMap fun | .source path => some path | _ => none with
  | [] => .error .missingSource
  | [path] => .ok path
  | _ :: extra :: _ => .error (.extraArgument extra)

/-- The arguments that settings make up. -/
def ofSettings (settings : List Setting) : Except UsageFault Arguments := do
  let source ← sourceOf settings
  let output ← atMostOne .output (settings.filterMap fun
    | .output path => some path
    | _ => none)
  let std ← atMostOne .std (settings.filterMap fun
    | .std name => some name
    | _ => none)
  let optLevel ← atMostOne .optLevel (settings.filterMap fun
    | .optLevel level => some level
    | _ => none)
  let binary ← atMostOne .binary (settings.filterMap fun
    | .binary path => some path
    | _ => none)
  let build ← isGiven settings .build
  let dumpTree ← isGiven settings .dumpTree
  if binary.isSome && !build then throw .binaryWithoutBuild
  return {
    source := source
    output := output
    std := std.getD CompileOptions.default.std
    optLevel := optLevel.getD CompileOptions.default.optLevel
    build := build
    binary := binary
    metadata := settings.filterMap fun
      | .entry key value => some (key, value)
      | _ => none
    dumpTree := dumpTree
    verbosity := settings.count (.switch .verbose) }

/-- Reads a command line. -/
def ofWords (words : List String) : Except UsageFault Arguments := do
  ofSettings (← settings none words)

end Arguments

end Tide
