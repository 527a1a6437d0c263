/-!
# Scanning arguments

Options and operands of a command.  An option has a long name and may have a one-letter one; its value
follows it, in the same argument or the next.  No option may be given twice, and a value that begins
with a hyphen must stand in the argument of its option.
-/

namespace EncodedFeed.Cli

/-- An option a command takes. -/
structure OptionSpec where
  long : String
  short : Option Char := none
  takesValue : Bool := true
deriving DecidableEq, Repr

/-- Arguments taken apart. -/
structure Scanned where
  /-- Options by long name; those without a value have an empty one. -/
  options : List (String × String) := []
  operands : List String := []
deriving DecidableEq, Repr

namespace Scanned

/-- With one more option in front. -/
def withOption (name value : String) (x : Scanned) : Scanned :=
  { x with options := (name, value) :: x.options }

/-- With one more operand in front. -/
def withOperand (value : String) (x : Scanned) : Scanned :=
  { x with operands := value :: x.operands }

/-- The option was given. -/
def has (x : Scanned) (name : String) : Bool := x.options.any fun o => o.1 == name

/-- The value an option was given. -/
def value? (x : Scanned) (name : String) : Option String := x.options.lookup name

/-- No option was given twice. -/
def isUnambiguous (x : Scanned) : Bool := (x.options.map Prod.fst).Nodup

end Scanned

/-- The argument begins like an option. -/
def looksLikeOption (arg : String) : Bool := arg.startsWith "-" && arg != "-"

/-- What one-letter options in one argument say: the options given, and the name of the last one if its
value is still to come. -/
def scanLetters (specs : List OptionSpec) :
    List Char → Option (List (String × String) × Option String)
  | [] => some ([], none)
  | c :: rest =>
    match specs.find? fun o => o.short == some c with
    | none => none
    | some o =>
      if o.takesValue then
        match rest with
        | [] => some ([], some o.long)
        | '=' :: value => some ([(o.long, String.ofList value)], none)
        | value => some ([(o.long, String.ofList value)], none)
      else (scanLetters specs rest).map fun (given, pending) => ((o.long, "") :: given, pending)

/-- What an option with a long name says, in the same form. -/
def scanLong (specs : List OptionSpec) (arg : List Char) :
    Option (List (String × String) × Option String) :=
  let (name, rest) := arg.span fun c => c != '='
  match specs.find? fun o => o.long == String.ofList name with
  | none => none
  | some o =>
    match rest with
    | [] => if o.takesValue then some ([], some o.long) else some ([(o.long, "")], none)
    | _ :: value => if o.takesValue then some ([(o.long, String.ofList value)], none) else none

/-- What an argument that begins with a hyphen says. -/
def scanOption (specs : List OptionSpec) (arg : String) :
    Option (List (String × String) × Option String) :=
  match arg.toList with
  | '-' :: '-' :: rest => scanLong specs rest
  | '-' :: rest => scanLetters specs rest
  | _ => none

/-- With several options in front. -/
def Scanned.withOptions (given : List (String × String)) (x : Scanned) : Scanned :=
  { x with options := given ++ x.options }

/-- Take arguments apart; behind `--` all are operands. -/
def scan (specs : List OptionSpec) : List String → Option Scanned
  | [] => some {}
  | arg :: rest =>
    if arg = "--" then some { operands := rest }
    else if looksLikeOption arg then
      match scanOption specs arg with
      | none => none
      | some (given, none) => (scan specs rest).map (·.withOptions given)
      | some (given, some name) =>
        match rest with
        | [] => none
        | value :: rest =>
          if looksLikeOption value then none
          else (scan specs rest).map fun x => (x.withOption name value).withOptions given
    else (scan specs rest).map (·.withOperand arg)

/-! ### Values -/

/-- A decimal integer with an optional sign. -/
def integer? (text : String) : Option Int :=
  let digits (cs : List Char) : Option Nat :=
    if cs ≠ [] ∧ cs.all Char.isDigit then some (cs.foldl (fun n c => n * 10 + (c.toNat - 48)) 0)
    else none
  match text.toList with
  | '-' :: rest => (digits rest).map fun n => -(n : Int)
  | '+' :: rest => (digits rest).map Int.ofNat
  | cs => (digits cs).map Int.ofNat

/-- An integer in a range. -/
def number? (lo hi : Nat) (text : String) : Option Nat :=
  match integer? text with
  | some n => if lo ≤ n ∧ n ≤ hi then some n.toNat else none
  | none => none

/-- The value of an option, or its default; none if the value given cannot be read. -/
def Scanned.get {α : Type} (x : Scanned) (name : String) (read : String → Option α) (default : α) :
    Option α :=
  match x.value? name with
  | none => some default
  | some text => read text

/-- The value of an option that may be left out. -/
def Scanned.get? {α : Type} (x : Scanned) (name : String) (read : String → Option α) :
    Option (Option α) :=
  x.get name (fun t => (read t).map some) none

/-- A path, which must not be empty. -/
def path? (text : String) : Option String := if text = "" then none else some text

end EncodedFeed.Cli
