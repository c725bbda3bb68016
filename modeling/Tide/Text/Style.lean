/-!
# Terminal styles

A styled text is wrapped in the sequences that switch a colour on and everything off again.
-/

namespace Tide.Text

inductive Colour where
  | red
  | yellow
  | blue
  | magenta
  | cyan
  | brightGreen
  deriving DecidableEq

namespace Colour

def code : Colour → String
  | red => "31"
  | yellow => "33"
  | blue => "34"
  | magenta => "35"
  | cyan => "36"
  | brightGreen => "92"

end Colour

structure Style where
  bold : Bool
  colour : Colour
  deriving DecidableEq

/-- Whether text is styled at all. -/
structure Palette where
  colours : Bool
  deriving DecidableEq, Inhabited

def Palette.plain : Palette := ⟨false⟩

namespace Style

/-- The sequence that switches the style on. -/
def opening (style : Style) : List Char :=
  ('\x1b' :: '[' :: if style.bold then ['1', ';'] else []) ++ style.colour.code.toList ++ ['m']

/-- The sequence that switches every style off. -/
def closing : List Char := ['\x1b', '[', '0', 'm']

/-- Switches the style on again after every place in the text that switched it off. -/
def reopen (style : Style) : List Char → List Char
  | '\x1b' :: '[' :: '0' :: 'm' :: rest => closing ++ style.opening ++ reopen style rest
  | char :: rest => char :: reopen style rest
  | [] => []

end Style

/-- The text in a style, or as it is when the palette has no colours. -/
def Palette.paint (palette : Palette) (style : Style) (text : String) : String :=
  if palette.colours then
    String.ofList (style.opening ++ style.reopen text.toList ++ Style.closing)
  else text

def Palette.colour (palette : Palette) (colour : Colour) (text : String) : String :=
  palette.paint ⟨false, colour⟩ text

def Palette.boldColour (palette : Palette) (colour : Colour) (text : String) : String :=
  palette.paint ⟨true, colour⟩ text

end Tide.Text
