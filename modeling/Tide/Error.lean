import Tide.Analysis.Finding
import Tide.Grammar.Error
import Tide.Text.Style
import Tide.Token.Scan

/-!
# Errors of a compilation

Every way a compilation can fail.  Reading stops at the first error; the analysis reports all of its
findings together.
-/

namespace Tide

open Tide.Text (Palette)

/-- Why the system refuses to do something. -/
inductive SystemFault where
  | missing
  | permissionDenied
  | isDirectory
  | notDirectory
  | nameTooLong
  /-- The device has no room left. -/
  | noSpace
  /-- The bytes of a file are no text. -/
  | notText
  /-- A path has a character that ends texts of the system. -/
  | nulInPath
  /-- A word of a command has one. -/
  | nulInWord
  deriving DecidableEq

def SystemFault.message : SystemFault → String
  | missing => "No such file or directory (os error 2)"
  | permissionDenied => "Permission denied (os error 13)"
  | notDirectory => "Not a directory (os error 20)"
  | isDirectory => "Is a directory (os error 21)"
  | noSpace => "No space left on device (os error 28)"
  | nameTooLong => "File name too long (os error 36)"
  | notText => "stream did not contain valid UTF-8"
  | nulInPath => "file name contained an unexpected NUL byte"
  | nulInWord => "nul byte found in provided data"

inductive CompileError where
  | lex (error : LexError)
  | parse (error : ParseError)
  /-- Some findings are errors. -/
  | analysis (findings : List Diagnostic)
  | access (path : String) (fault : SystemFault)
  /-- The compiler of the generated code could not be started. -/
  | toolchain (compiler : String) (fault : SystemFault)
  deriving DecidableEq

/-- The diagnostic for a terminal. -/
def Diagnostic.render (palette : Palette) (origin : String) (diagnostic : Diagnostic) : String :=
  let label :=
    match diagnostic.severity with
    | .warning => palette.boldColour .yellow "warning:"
    | .error => palette.boldColour .red "error:"
  label ++ " " ++ diagnostic.message ++ " (" ++ origin ++ ":" ++ toString diagnostic.line ++ ")"

namespace CompileError

/-- The error in one line. -/
def message : CompileError → String
  | lex error => "lex error on line " ++ toString error.line ++ ": " ++ error.cause.message
  | parse error => "parse error on line " ++ toString error.line ++ ": " ++ error.cause.message
  | analysis findings =>
    "semantic analysis failed with " ++ toString (errorCount findings) ++ " error(s)"
  | access path _ => "failed to access " ++ path
  | toolchain compiler _ => "native toolchain `" ++ compiler ++ "` could not be started"

/-- What lies behind an error of the system. -/
def fault? : CompileError → Option SystemFault
  | access _ fault | toolchain _ fault => some fault
  | _ => none

/-- The error with what lies behind it. -/
def explanation (error : CompileError) : String :=
  error.message ++ (error.fault?.map (": " ++ ·.message)).getD ""

/-- The source line to blame, if there is one. -/
def line? : CompileError → Option Nat
  | lex error => some error.line
  | parse error => some error.line
  | _ => none

/-- The error for a terminal, with every finding of the analysis. -/
def render (palette : Palette) (origin : String) : CompileError → String
  | lex error =>
    palette.boldColour .red "lex error:" ++ " " ++ error.cause.message ++ " (" ++ origin ++ ":"
      ++ toString error.line ++ ")"
  | parse error =>
    palette.boldColour .red "parse error:" ++ " " ++ error.cause.message ++ " (" ++ origin ++ ":"
      ++ toString error.line ++ ")"
  | analysis findings =>
    "\n".intercalate (findings.map (Diagnostic.render palette origin)) ++ "\n"
      ++ palette.boldColour .red "aborting:" ++ " " ++ toString (errorCount findings)
      ++ " error(s) found in " ++ origin
  | error => palette.boldColour .red "error:" ++ " " ++ error.message

end CompileError

end Tide
