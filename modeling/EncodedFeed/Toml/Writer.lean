import EncodedFeed.Toml.Lexis

/-!
# Writing TOML

Tables of strings and integers.  A string takes the plainest of the four forms that can hold it, and
escapes only where no form can hold it as it is.
-/

namespace EncodedFeed.Toml

/-- The forms a string can be written in. -/
inductive StringForm
  /-- Between quotes. -/
  | basic
  /-- Between apostrophes, without escapes. -/
  | literal
  /-- Between three quotes, on several lines. -/
  | multiBasic
  /-- Between three apostrophes, on several lines and without escapes. -/
  | multiLiteral
deriving DecidableEq, Repr

/-- Length of the longest run of a character, of which `n` come right before. -/
def longestRun (q : Char) (n : Nat) : List Char → Nat
  | [] => n
  | c :: rest => if c = q then longestRun q (n + 1) rest else max n (longestRun q 0 rest)

/-- The form for a string: the first of the four that holds it as it is, else one with escapes. -/
def StringForm.of (cs : List Char) : StringForm :=
  let oneLine := cs.all isVisible
  let someLines := cs.all fun c => isVisible c || c == '\n'
  if oneLine && !cs.contains '\\' && !cs.contains '"' then basic
  else if oneLine && !cs.contains '\'' then literal
  else if someLines && !cs.contains '\\' && longestRun '"' 0 cs < 3 then multiBasic
  else if someLines && longestRun '\'' 0 cs < 3 then multiLiteral
  else if cs.contains '\n' then multiBasic
  else basic

/-- A number as four upper-case hexadecimal digits. -/
def fourHexDigits (n : Nat) : List Char :=
  let ds := (Nat.toDigits 16 n).map Char.toUpper
  List.replicate (4 - ds.length) '0' ++ ds

/-- A character other than quotes and line feeds as it stands in a basic form. -/
def escapeChar (c : Char) : List Char :=
  if c = '\\' then ['\\', '\\']
  else if c = '\x08' then ['\\', 'b']
  else if c = '\t' then ['\\', 't']
  else if c = '\x0c' then ['\\', 'f']
  else if c = '\r' then ['\\', 'r']
  else if isVisible c then [c]
  else '\\' :: 'u' :: fourHexDigits c.toNat

/-- The content of a basic string on one line. -/
def basicContent (cs : List Char) : List Char :=
  cs.flatMap fun c =>
    if c = '"' then ['\\', '"'] else if c = '\n' then ['\\', 'n'] else escapeChar c

/-- The content of a basic string on several lines, `run` quotes standing right before it.  Every third
quote of a run is escaped. -/
def multiBasicContent (run : Nat) : List Char → List Char
  | [] => []
  | c :: rest =>
    if c = '"' then
      if run = 2 then '\\' :: '"' :: multiBasicContent 0 rest
      else '"' :: multiBasicContent (run + 1) rest
    else if c = '\n' then '\n' :: multiBasicContent 0 rest
    else escapeChar c ++ multiBasicContent 0 rest

/-- What opens a string on several lines that holds `cs`: a line break after the quotes is dropped when
the string is read, so one is put there to save a line break of the string itself. -/
def opening (quotes cs : List Char) : List Char :=
  if cs.contains '\n' then quotes ++ ['\n'] else quotes

/-- A string as it is written. -/
def writeString (text : String) : String :=
  let cs := text.toList
  String.ofList <|
    match StringForm.of cs with
    | .basic => ['"'] ++ basicContent cs ++ ['"']
    | .literal => ['\''] ++ cs ++ ['\'']
    | .multiBasic =>
      let quotes := ['"', '"', '"']
      opening quotes cs ++ multiBasicContent 0 cs ++ quotes
    | .multiLiteral =>
      let quotes := ['\'', '\'', '\'']
      opening quotes cs ++ cs ++ quotes

/-- A value that can be written. -/
inductive Scalar
  | string (text : String)
  | integer (number : Nat)
deriving DecidableEq, Repr

/-- A value as it is written; an integer must fit in 64 bits with a sign. -/
def Scalar.write? : Scalar → Except Fault String
  | string text => .ok (writeString text)
  | integer n => if n < integerLimit then .ok s!"{n}" else .error (.numberOutOfRange s!"{n}")

/-- A table with its name and its pairs. -/
abbrev Section := String × List (String × Scalar)

/-- One line for a pair. -/
def writePair (pair : String × Scalar) : Except Fault String :=
  pair.2.write?.map fun value => pair.1 ++ " = " ++ value ++ "\n"

/-- The lines of several pairs. -/
def writePairs : List (String × Scalar) → Except Fault String
  | [] => .ok ""
  | pair :: rest =>
    match writePair pair, writePairs rest with
    | .ok line, .ok lines => .ok (line ++ lines)
    | .error e, _ => .error e
    | _, .error e => .error e

/-- A header and its pairs. -/
def writeSection (s : Section) : Except Fault String :=
  (writePairs s.2).map fun lines => "[" ++ s.1 ++ "]\n" ++ lines

/-- A document of several tables, a blank line between each two. -/
def writeDocument : List Section → Except Fault String
  | [] => .ok ""
  | [s] => writeSection s
  | s :: rest =>
    match writeSection s, writeDocument rest with
    | .ok lines, .ok more => .ok (lines ++ "\n" ++ more)
    | .error e, _ => .error e
    | _, .error e => .error e

end EncodedFeed.Toml
