import Tide.Emit.Support

/-!
# What emitted code relies on

Headers and support code are included as the emitted statements ask for them.
-/

namespace Tide.Emit

/-- What the statements emitted so far rely on. -/
structure Requirements where
  /-- The headers they name, in ascending order. -/
  headers : List String
  toText : Bool
  files : Bool
  channel : Bool
  runList : Bool
  deriving DecidableEq

namespace Requirements

def none : Requirements := ⟨[], false, false, false, false⟩

/-- Puts a header in its place, unless it is there already. -/
def insert (header : String) : List String → List String
  | [] => [header]
  | first :: rest =>
    if header < first then header :: first :: rest
    else if header = first then first :: rest
    else first :: insert header rest

def insertAll (headers added : List String) : List String :=
  added.foldl (fun headers header => insert header headers) headers

def including (added : List String) (requirements : Requirements) : Requirements :=
  { requirements with headers := insertAll requirements.headers added }

/-- The headers that the support code needs, and those that every program gets. -/
def supportHeaders (requirements : Requirements) : List (Bool × List String) :=
  [(true, ["cmath", "iostream", "string"]),
   (requirements.toText, ["sstream"]),
   (requirements.files, ["fstream", "sstream"]),
   (requirements.channel, ["condition_variable", "deque", "mutex"]),
   (requirements.runList, ["algorithm", "functional", "vector"])]

/-- The headers to include, in ascending order. -/
def included (requirements : Requirements) : List String :=
  requirements.supportHeaders.foldl (fun headers (needed, added) =>
    if needed then insertAll headers added else headers) requirements.headers

/-- The pieces of support code to include. -/
def support (requirements : Requirements) : List String :=
  [(Support.toText, requirements.toText),
   (Support.files, requirements.files),
   (Support.channel, requirements.channel),
   (Support.runList, requirements.runList)].filterMap fun (code, needed) =>
    if needed then some code else Option.none

end Requirements

end Tide.Emit
