/-!
# Text without terminal sequences

A terminal reads text as printed characters and escape sequences.  Stripping keeps what it prints.
An unfinished sequence goes on swallowing text, however far it reaches.
-/

namespace Tide.Text

/-- Where a terminal stands between two bytes. -/
inductive Terminal where
  /-- Outside every sequence. -/
  | ground
  /-- After an escape character. -/
  | escape
  /-- After an escape character and intermediate bytes. -/
  | escapeIntermediate
  /-- In the parameters of a control sequence. -/
  | controlSequence
  /-- In an operating system command. -/
  | command
  /-- At the start of a device control string. -/
  | deviceEntry
  /-- In the parameters of a device control string. -/
  | deviceParameters
  /-- After the parameters of a device control string and intermediate bytes. -/
  | deviceIntermediate
  /-- In the data of a device control string. -/
  | deviceData
  /-- In a string that nothing but its end is read of.  A device control string whose parameters are
  out of order is one. -/
  | ignoredString
  deriving DecidableEq

namespace Terminal

/-- The state after a byte inside a sequence, and whether a line feed was executed. -/
def step (state : Terminal) (byte : Nat) : Terminal × Bool :=
  if byte = 0x18 || byte = 0x1a then (ground, false)
  else if byte = 0x1b then (escape, false)
  else
    match state with
    | ground => (ground, false)
    | escape =>
      if byte < 0x20 then (escape, byte = 0x0a)
      else if byte < 0x30 then (escapeIntermediate, false)
      else if byte = 0x50 then (deviceEntry, false)
      else if byte = 0x58 || byte = 0x5e || byte = 0x5f then (ignoredString, false)
      else if byte = 0x5b then (controlSequence, false)
      else if byte = 0x5d then (command, false)
      else if byte < 0x7f then (ground, false)
      else (escape, false)
    | escapeIntermediate =>
      if byte < 0x20 then (escapeIntermediate, byte = 0x0a)
      else if 0x30 ≤ byte && byte < 0x7f then (ground, false)
      else (escapeIntermediate, false)
    | controlSequence =>
      if byte < 0x20 then (controlSequence, byte = 0x0a)
      else if 0x40 ≤ byte && byte < 0x7f then (ground, false)
      else (controlSequence, false)
    | command => if byte = 0x07 then (ground, false) else (command, false)
    | deviceEntry =>
      if byte < 0x20 || 0x7f ≤ byte then (deviceEntry, false)
      else if byte < 0x30 then (deviceIntermediate, false)
      else if byte < 0x40 then (deviceParameters, false)
      else (deviceData, false)
    | deviceParameters =>
      if byte < 0x20 || 0x7f ≤ byte then (deviceParameters, false)
      else if byte < 0x30 then (deviceIntermediate, false)
      else if byte < 0x3c then (deviceParameters, false)
      else if byte < 0x40 then (ignoredString, false)
      else (deviceData, false)
    | deviceIntermediate =>
      if byte < 0x30 || 0x7f ≤ byte then (deviceIntermediate, false)
      else if byte < 0x40 then (ignoredString, false)
      else (deviceData, false)
    | deviceData => if byte = 0x9c then (ground, false) else (deviceData, false)
    | ignoredString => (ignoredString, false)

/-- What a character prints outside every sequence. -/
def printed (char : Char) : List Char :=
  let code := char.toNat
  if code = 0x0a then [char]
  else if code < 0x20 || (0x80 ≤ code && code ≤ 0x9f) then []
  else [char]

/-- What a byte prints that is left of a character when a sequence ends inside of it: nothing if it
is a control, and otherwise the replacement character. -/
def printedStray (byte : Nat) : List Char :=
  if byte ≤ 0x9f then [] else ['�']

/-- Reads the bytes of one character inside a sequence. -/
def readBytes : Terminal → List Nat → Terminal × List Char
  | state, [] => (state, [])
  | ground, byte :: rest =>
    let (state, shown) := readBytes ground rest
    (state, printedStray byte ++ shown)
  | state, byte :: rest =>
    let (next, lineFeed) := state.step byte
    let (last, shown) := readBytes next rest
    (last, if lineFeed then '\n' :: shown else shown)

/-- Reads one character. -/
def read (state : Terminal) (char : Char) : Terminal × List Char :=
  match state with
  | ground => if char = '\x1b' then (escape, []) else (ground, printed char)
  | state => readBytes state ((String.utf8EncodeChar char).map UInt8.toNat)

/-- What the rest of the text prints. -/
def shown : Terminal → List Char → List Char
  | _, [] => []
  | state, char :: rest =>
    let (next, printed) := state.read char
    printed ++ shown next rest

end Terminal

/-- The text as a terminal shows it, without its sequences. -/
def stripSequences (text : String) : String :=
  String.ofList (Terminal.ground.shown text.toList)

end Tide.Text
