/-!
# TOML values

What a TOML document says, and the faults a document can have.  Tables remember how they came about,
because that decides how they may be extended.
-/

namespace EncodedFeed.Toml

/-- How a table came about. -/
inductive Origin
  /-- By a header of its own. -/
  | header
  /-- By the header of a table below it. -/
  | implied
  /-- By a dotted key. -/
  | dotted
  /-- As a value between braces. -/
  | inline
deriving DecidableEq, Repr

/-- A value.  Floats and dates are kept as they are written. -/
inductive Value
  | string (text : String)
  | integer (number : Int)
  | float (text : String)
  | boolean (truth : Bool)
  | datetime (text : String)
  | array (items : List Value)
  | table (origin : Origin) (entries : List (String × Value))
  /-- Tables of the same name, each behind a header in double brackets. -/
  | tables (items : List (List (String × Value)))
deriving Repr

/-- Integers have 64 bits with a sign: they are less than this, and no less than its negative. -/
def integerLimit : Nat := 0x8000000000000000

/-- Keys with their values, in the order of their first appearance. -/
abbrev Entries := List (String × Value)

/-- What is wrong with a document. -/
inductive Fault
  /-- Something else was expected here; the text that follows begins as given. -/
  | unexpected (expected : String) (found : String)
  | duplicateKey (key : String)
  /-- A key is used as a table but holds something else. -/
  | notTable (key : String)
  | numberOutOfRange (text : String)
  | badEscape
  | tooDeep
  /-- A field has a value of the wrong type or range. -/
  | wrongType (field : String) (expected : String)
deriving DecidableEq, Repr

/-- Text of a fault. -/
def Fault.message : Fault → String
  | unexpected expected found =>
    "expected " ++ expected
      ++ (if found = "" then " but the text ends" else " before \"" ++ found ++ "\"")
  | duplicateKey key => "duplicate key \"" ++ key ++ "\""
  | notTable key => "\"" ++ key ++ "\" is not a table"
  | numberOutOfRange text => "number out of range: " ++ text
  | badEscape => "invalid escape sequence"
  | tooDeep => "nested too deeply"
  | wrongType field expected => "invalid value for \"" ++ field ++ "\", expected " ++ expected

/-- The fault of finding `cs` where something else was expected. -/
def Fault.at (expected : String) (cs : List Char) : Fault :=
  .unexpected expected (String.ofList ((cs.take 20).takeWhile fun c => c ≠ '\n'))

end EncodedFeed.Toml
