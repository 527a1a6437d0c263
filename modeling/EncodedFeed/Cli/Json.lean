/-!
# JSON text

JSON values as they are printed for people: one item or member a line, two blanks deeper per level.
-/

namespace EncodedFeed.Cli

/-- A JSON value; numbers are given by their text. -/
inductive Json
  | null
  | number (text : String)
  | text (s : String)
  | truth (b : Bool)
  | array (items : List Json)
  | object (members : List (String × Json))

namespace Json

/-- A natural number. -/
def ofNat (n : Nat) : Json := number s!"{n}"

/-- A value, or null if there is none. -/
def optional {α : Type} (f : α → Json) (x : Option α) : Json := (x.map f).getD null

/-- Two hexadecimal digits. -/
def twoHexDigits (n : Nat) : List Char := [Nat.digitChar (n / 16 % 16), Nat.digitChar (n % 16)]

/-- One character of a text. -/
def escapeChar (c : Char) : List Char :=
  if c = '"' then ['\\', '"']
  else if c = '\\' then ['\\', '\\']
  else if c = '\x08' then ['\\', 'b']
  else if c = '\t' then ['\\', 't']
  else if c = '\n' then ['\\', 'n']
  else if c = '\x0c' then ['\\', 'f']
  else if c = '\r' then ['\\', 'r']
  else if c < ' ' then ['\\', 'u', '0', '0'] ++ twoHexDigits c.toNat
  else [c]

/-- A text between quotes. -/
def quote (s : String) : String := "\"" ++ String.ofList (s.toList.flatMap escapeChar) ++ "\""

/-- A line break and the blanks of a level. -/
def newline (level : Nat) : String := "\n" ++ String.ofList (List.replicate (2 * level) ' ')

mutual

/-- A value at a level. -/
def write (level : Nat) : Json → String
  | null => "null"
  | number t => t
  | text s => quote s
  | truth b => if b then "true" else "false"
  | array [] => "[]"
  | array items => "[" ++ writeItems (level + 1) items ++ newline level ++ "]"
  | object [] => "\x7b\x7d"
  | object members => "\x7b" ++ writeMembers (level + 1) members ++ newline level ++ "\x7d"

/-- Items, each on a line of its own. -/
def writeItems (level : Nat) : List Json → String
  | [] => ""
  | [v] => newline level ++ write level v
  | v :: rest => newline level ++ write level v ++ "," ++ writeItems level rest

/-- Members, each on a line of its own. -/
def writeMembers (level : Nat) : List (String × Json) → String
  | [] => ""
  | [(k, v)] => newline level ++ quote k ++ ": " ++ write level v
  | (k, v) :: rest =>
    newline level ++ quote k ++ ": " ++ write level v ++ "," ++ writeMembers level rest

end

/-- A value and a line break. -/
def print (v : Json) : String := v.write 0 ++ "\n"

end Json

end EncodedFeed.Cli
