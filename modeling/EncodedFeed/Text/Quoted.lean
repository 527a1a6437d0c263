import EncodedFeed.Text.DefaultIgnorable
import EncodedFeed.Text.GraphemeExtend
import EncodedFeed.Text.Unprintable

/-!
# Quoted text

A text between double quotes in which nothing is invisible: quotes, backslashes and the usual control
characters are escaped by a letter, all other characters that cannot be seen on their own by their
code point.
-/

namespace EncodedFeed.Text

/-- The code point lies in one of the ranges. -/
def inRanges (ranges : List (Nat × Nat)) (n : Nat) : Bool :=
  ranges.any fun r => r.1 ≤ n && n ≤ r.2

/-- The halfwidth voicing marks, which extend a grapheme and yet have a cell of their own. -/
def isHalfwidthVoicing (c : Char) : Bool := c = '\uff9e' || c = '\uff9f'

/-- The character is drawn upon the one before it. -/
def isAttached (c : Char) : Bool :=
  inRanges graphemeExtendRanges c.toNat && !isHalfwidthVoicing c

/-- The character cannot be seen on its own. -/
def isHidden (c : Char) : Bool :=
  isAttached c || inRanges defaultIgnorableRanges c.toNat || inRanges unprintableRanges c.toNat

/-- Lower-case hexadecimal digits of a number. -/
def hexDigits (n : Nat) : String := String.ofList (Nat.toDigits 16 n)

/-- One character as it stands between quotes. -/
def escapeChar (c : Char) : String :=
  if c = '\x00' then "\\0"
  else if c = '\t' then "\\t"
  else if c = '\n' then "\\n"
  else if c = '\r' then "\\r"
  else if c = '"' then "\\\""
  else if c = '\\' then "\\\\"
  else if isHidden c then "\\u\x7b" ++ hexDigits c.toNat ++ "\x7d"
  else c.toString

/-- A text between double quotes. -/
def quoted (s : String) : String := "\"" ++ String.join (s.toList.map escapeChar) ++ "\""

end EncodedFeed.Text
