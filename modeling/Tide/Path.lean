import Tide.Text.Blank

/-!
# Paths

Paths are texts.  The last name between its slashes that is not a dot is the name of the file, and
what stands after the last dot of the name, unless that is its first character, is the extension.
-/

namespace Tide.Path

/-- A path, last character first, without the slashes that it ends in and without the dots between
them, which name the folder itself. -/
def dropIdle : List Char → List Char
  | '/' :: before => dropIdle before
  | '.' :: '/' :: before => dropIdle before
  | before => before

/-- The path up to the end of the name of the file. -/
def trimmed (path : List Char) : List Char :=
  (dropIdle path.reverse).reverse

/-- The folder of a trimmed path with the slash behind it, and the name of the file. -/
def folderAndName (path : List Char) : List Char × List Char :=
  let name := (path.reverse.takeWhile (· != '/')).reverse
  (path.take (path.length - name.length), name)

/-- The name is not that of a file: nothing, or dots for the folder itself or for the one above. -/
def isPlace (name : List Char) : Bool :=
  name ∈ [[], ['.'], ['.', '.']]

/-- The name of a file without its extension. -/
def stem (name : List Char) : List Char :=
  match name.reverse.dropWhile (· != '.') with
  | [] | [_] => name
  | _ :: before => before.reverse

/-- An extension with the dot before it, or nothing for the empty one. -/
def suffix (extension : String) : List Char :=
  if extension.isEmpty then [] else '.' :: extension.toList

/-- The path with this extension in place of its own, or without one if this one is empty.  A path
that names no file stays as it is.  Before the extension of a name such as `..x` stands a dot: where
the path ends in that name, the two dots are left, which name a folder and take no extension. -/
def withExtension (path extension : String) : String :=
  let kept := trimmed path.toList
  let (folder, name) := folderAndName kept
  if isPlace name then path
  else if stem name = ['.'] ∧ kept = path.toList then String.ofList (folder ++ ['.', '.'])
  else String.ofList (folder ++ (stem name ++ suffix extension))

/-- The names in a path, those between slashes that stand side by side left out. -/
def names (path : String) : List String :=
  ((Text.split (· == '/') path.toList).map String.ofList).filter (· != "")

end Tide.Path
