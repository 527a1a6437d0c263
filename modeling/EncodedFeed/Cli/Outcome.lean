import EncodedFeed.Error
import EncodedFeed.FileTree
import EncodedFeed.Pacing

/-!
# Outcomes of commands

What a command prints, warns of and leaves behind, and how it ends.  How long it took is known only when
it is over, so that the text is a function of that.
-/

namespace EncodedFeed.Cli

/-- How long a run took. -/
inductive Elapsed
  /-- It was not measured, and is written as the letter `T`, or as zero where a number must stand. -/
  | unknown
  | micros (n : Nat)
deriving DecidableEq, Repr

namespace Elapsed

/-- A number of at least `width` digits. -/
def padded (width n : Nat) : String :=
  let digits := (toString n).toList
  String.ofList (List.replicate (width - digits.length) '0' ++ digits)

/-- Seconds with two decimals. -/
def text : Elapsed → String
  | unknown => "T"
  | micros n =>
    let hundredths := (n + 5000) / 10000
    s!"{hundredths / 100}." ++ padded 2 (hundredths % 100) ++ "s"

/-- Seconds as a number. -/
def number : Elapsed → String
  | unknown => "0"
  | micros n => s!"{n / 1000000}." ++ padded 6 (n % 1000000)

end Elapsed

/-- How a command ends. -/
inductive Ending
  | done
  /-- With errors, each wrapping the next. -/
  | failed (chain : List String)
  /-- Cut short. -/
  | crashed (why : String)
deriving DecidableEq, Repr

/-- What comes of a command. -/
structure Outcome where
  files : FileTree
  printed : Elapsed → String := fun _ => ""
  /-- Microseconds the run takes at the rate asked for. -/
  paced : Nat := 0
  warnings : List String := []
  ending : Ending := .done

/-- The chain of an error of the library. -/
def chainOf (e : Error) : List String := e.message :: e.causes

/-- The ending with an error, behind what was being done. -/
def Ending.ofError (contexts : List String) (e : Error) : Ending := failed (contexts ++ chainOf e)

/-- The ending of a run that was cut short. -/
def Ending.ofAbort : Abort Error → Ending
  | .failed e => ofError [] e
  | .refused text => failed [text]
  | .zeroInterval => crashed "The rate leaves no time between frames"
  | .overflow => crashed "A number does not fit its machine word"

namespace Ending

/-- What wraps an error, each on a line of its own. -/
def causeLines : List String → List String
  | [] => []
  | [cause] => ["", "Caused by:", "    " ++ cause]
  | causes => ["", "Caused by:"] ++ causes.zipIdx.map fun c => s!"    {c.2}: " ++ c.1

/-- What is said about an ending, line by line. -/
def report : Ending → List String
  | done => []
  | failed [] => ["Error"]
  | failed (e :: causes) => ("Error: " ++ e) :: causeLines causes
  | crashed why => [why]

/-- Exit status of the program. -/
def status : Ending → UInt32
  | done => 0
  | failed _ => 1
  | crashed _ => 101

end Ending

end EncodedFeed.Cli
