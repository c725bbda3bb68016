import Tide.Emit.Unit
import Tide.Flags
import Tide.Text.Blank

/-!
# Metadata of a compilation

How a file was compiled, as a flat record with ascending keys.  Some keys belong to the compiler and
cannot be set by the user.
-/

namespace Tide

/-- What the user can set for a compilation. -/
structure CompileOptions where
  /-- The standard of the generated code. -/
  std : String
  optLevel : Nat
  /-- The user's own metadata, in the order given. -/
  metadata : List (String × String)
  deriving DecidableEq

def CompileOptions.default : CompileOptions := ⟨"c++17", 2, []⟩

/-- Keys in ascending order, each with its value. -/
structure Metadata where
  entries : List (String × String)
  deriving DecidableEq

namespace Metadata

def empty : Metadata := ⟨[]⟩

/-- Puts an entry in its place, instead of an older one with the same key. -/
def insert (key value : String) : List (String × String) → List (String × String)
  | [] => [(key, value)]
  | (other, old) :: rest =>
    if key < other then (key, value) :: (other, old) :: rest
    else if key = other then (key, value) :: rest
    else (other, old) :: insert key value rest

def set (metadata : Metadata) (key value : String) : Metadata :=
  ⟨insert key value metadata.entries⟩

def get? (metadata : Metadata) (key : String) : Option String :=
  metadata.entries.lookup key

/-- The keys that the compiler sets. -/
def reservedKeys : List String :=
  ["source", "std", "opt_level", "compiler", "inspect", "replay", "mutate"]

def isReserved (entry : String × String) : Bool :=
  reservedKeys.contains entry.1

/-- The metadata for a source, before its flags are known.  Of the user's entries the last one for a
key wins. -/
def ofOptions (source : String) (options : CompileOptions) : Metadata :=
  let own := (((empty.set "source" source).set "std" options.std).set "opt_level"
    (toString options.optLevel)).set "compiler" compilerName
  (options.metadata.filter (!isReserved ·)).foldl (fun metadata (key, value) =>
    metadata.set key value) own

/-- What is logged about the user's entries for reserved keys. -/
def reservedLog (options : CompileOptions) : List LogLine :=
  (options.metadata.filter isReserved).map fun (key, _) =>
    warnLine ("ignoring --meta " ++ key ++ ": the key is set by the compiler")

/-- The metadata for a source, with what is logged about the user's entries. -/
def create (source : String) (options : CompileOptions) : Noted Metadata := do
  Noted.log (reservedLog options)
  return ofOptions source options

def recordFlags (metadata : Metadata) (flags : FeatureFlags) : Metadata :=
  ((metadata.set "inspect" (toString flags.inspect)).set "replay" (toString flags.replay)).set
    "mutate" (toString flags.mutate)

def entryJson (entry : String × String) : String :=
  Text.jsonString entry.1 ++ ":" ++ Text.jsonString entry.2

/-- The record as one line of JSON. -/
def json (metadata : Metadata) : String :=
  "\x7b" ++ ",".intercalate (metadata.entries.map entryJson) ++ "\x7d"

end Metadata

/-- What is wrong with an entry on the command line. -/
inductive EntryFault where
  | noValue
  | noKey
  deriving DecidableEq

def EntryFault.message (entry : String) : EntryFault → String
  | noValue => "expected KEY=VALUE but found `" ++ entry ++ "`"
  | noKey => "missing key in `" ++ entry ++ "`"

/-- An entry `KEY=VALUE`.  The key ends at the first sign and stands without blanks around it. -/
def Metadata.entry (text : String) : Except EntryFault (String × String) :=
  let chars := text.toList
  match chars.dropWhile (· != '=') with
  | [] => .error .noValue
  | _ :: value =>
    let key := Text.trim (chars.takeWhile (· != '='))
    if key.isEmpty then .error .noKey else .ok (String.ofList key, String.ofList value)

end Tide
