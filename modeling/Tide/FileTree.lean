import Tide.Error
import Tide.Path

/-!
# A tree of files

Files are kept by their locations, and a folder is there as long as a file is below it.  The working
folder and those it is in are always there.

A path is followed name by name, from the root or from the working folder.  Every name with another
one behind it has to lead to a folder, even if the other one is only a dot.
-/

namespace Tide

/-- A file that holds nothing and passes on what is written to it. -/
inductive Device where
  /-- Takes everything. -/
  | null
  /-- Has room for nothing. -/
  | full
  /-- The standard output. -/
  | output
  /-- The terminal. -/
  | terminal
  deriving DecidableEq

/-- A program that can be started. -/
inductive Tool where
  /-- Writes its arguments. -/
  | echo
  | succeed
  | fail
  deriving DecidableEq

inductive FileContent where
  | text (text : String)
  /-- Bytes that are no text. -/
  | binary
  | device (device : Device)
  | tool (tool : Tool)
  deriving DecidableEq

def FileContent.ofBytes (bytes : ByteArray) : FileContent :=
  match String.fromUTF8? bytes with
  | some decoded => .text decoded
  | none => .binary

/-- Where a file or a folder is: the names that lead to it from the root. -/
abbrev Location := List String

/-- What a path leads to. -/
inductive Place where
  | folder (location : Location)
  | file (location : Location) (content : FileContent)
  /-- A name in a folder that nothing has yet. -/
  | vacant (location : Location)
  deriving DecidableEq

structure FileTree where
  files : List (Location × FileContent)

namespace FileTree

/-- The folder that temporary files are in. -/
def temporaryFolder : Location := ["tmp"]

/-- The folder that a path without a slash in front is followed from. -/
def workingFolder : Location := temporaryFolder ++ ["working-folder"]

/-- The folder that a program is looked for in when it is started by its name. -/
def toolFolder : Location := ["usr", "bin"]

def devices : List (Location × FileContent) :=
  [(["dev", "null"], .device .null), (["dev", "full"], .device .full),
   (["dev", "stdout"], .device .output), (["dev", "stderr"], .device .terminal)]

/-- The programs, in a folder. -/
def tools (folder : Location) : List (Location × FileContent) :=
  [(folder ++ ["echo"], .tool .echo), (folder ++ ["true"], .tool .succeed),
   (folder ++ ["false"], .tool .fail)]

/-- The tree with nothing in the working folder. -/
def empty : FileTree := ⟨devices ++ tools toolFolder ++ tools ["bin"]⟩

def file? (tree : FileTree) (location : Location) : Option FileContent :=
  tree.files.lookup location

def isFolder (tree : FileTree) (location : Location) : Bool :=
  location.isPrefixOf workingFolder
    || tree.files.any fun (other, _) => location.isPrefixOf other && location != other

/-- How many bytes a name may have. -/
def nameLimit : Nat := 255

/-- How many bytes a path has to stay below. -/
def pathLimit : Nat := 4096

/-- Follows names from a folder. -/
def follow (tree : FileTree) : Location → List String → Except SystemFault Place
  | folder, [] => .ok (.folder folder)
  | folder, name :: rest =>
    if name = "." then tree.follow folder rest
    else if name = ".." then tree.follow folder.dropLast rest
    else if nameLimit < name.utf8ByteSize then .error .nameTooLong
    else if tree.isFolder (folder ++ [name]) then tree.follow (folder ++ [name]) rest
    else
      match tree.file? (folder ++ [name]), rest with
      | some content, [] => .ok (.file (folder ++ [name]) content)
      | some _, _ => .error .notDirectory
      | none, [] => .ok (.vacant (folder ++ [name]))
      | none, _ => .error .missing

/-- Follows a path from where it starts, by these of its names. -/
def followPath (tree : FileTree) (path : String) (names : List String) :
    Except SystemFault Place :=
  if path.contains '\x00' then .error .nulInPath
  else if path.isEmpty then .error .missing
  else if pathLimit ≤ path.utf8ByteSize then .error .nameTooLong
  else tree.follow (if path.startsWith "/" then [] else workingFolder) names

/-- What a path leads to.  With a slash at its end that is a folder or nothing. -/
def find (tree : FileTree) (path : String) : Except SystemFault Place :=
  tree.followPath path (Path.names path ++ if path.endsWith "/" then ["."] else [])

/-- Where writing to a path goes: to a file, or to a name that is free.  A name with a slash behind
it is meant for a folder, whether there is one or not. -/
def destination (tree : FileTree) (path : String) :
    Except SystemFault (Location × Option FileContent) :=
  if path.endsWith "/" then do
    let _ ← tree.followPath path ((Path.names path).dropLast ++ ["."])
    .error .isDirectory
  else do
    match ← tree.followPath path (Path.names path) with
    | .folder _ => .error .isDirectory
    | .file location content => return (location, some content)
    | .vacant location => return (location, none)

/-- There is something at the end of the path. -/
def holds (tree : FileTree) (path : String) : Bool :=
  match tree.find path with
  | .ok (.folder _) | .ok (.file _ _) => true
  | _ => false

/-- The path leads to a file that is no device. -/
def isFile (tree : FileTree) (path : String) : Bool :=
  match tree.find path with
  | .ok (.file _ (.device _)) => false
  | .ok (.file _ _) => true
  | _ => false

/-- The text of a file.  There is none to be had of a device. -/
def read (tree : FileTree) (path : String) : Except SystemFault String := do
  match ← tree.find path with
  | .folder _ => .error .isDirectory
  | .file _ (.text text) => return text
  | .file _ .binary | .file _ (.tool _) => .error .notText
  | .file _ (.device _) => return ""
  | .vacant _ => .error .missing

/-- The program of a name or, if there is a slash in it, of a path.  Nothing else can be started. -/
def tool (tree : FileTree) (program : String) : Except SystemFault Tool := do
  let place ←
    if program.isEmpty || program.contains '/' then tree.find program
    else tree.follow toolFolder [program]
  match place with
  | .file _ (.tool tool) => return tool
  | .file _ _ | .folder _ => .error .permissionDenied
  | .vacant _ => .error .missing

/-- The tree with a content in place of what was at a location. -/
def put (tree : FileTree) (location : Location) (content : FileContent) : FileTree :=
  ⟨tree.files.filter (·.1 != location) ++ [(location, content)]⟩

/-- The tree without the file at a path. -/
def remove (tree : FileTree) (path : String) : FileTree :=
  match tree.find path with
  | .ok (.file location _) => ⟨tree.files.filter (·.1 != location)⟩
  | _ => tree

/-- The tree with these files in the working folder. -/
def withFiles (files : List (String × FileContent)) : FileTree :=
  files.foldl
    (fun tree (path, content) =>
      tree.put (workingFolder ++ (Path.names path).filter (· != ".")) content)
    empty

/-- The texts of the files in the working folder that `earlier` does not have, by their paths. -/
def newTexts (tree earlier : FileTree) : List (String × String) :=
  tree.files.filterMap fun (location, content) =>
    match content, workingFolder.isPrefixOf location && (earlier.file? location).isNone with
    | .text text, true => some ("/".intercalate (location.drop workingFolder.length), text)
    | _, _ => none

end FileTree

end Tide
