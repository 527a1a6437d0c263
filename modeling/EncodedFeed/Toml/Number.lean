import EncodedFeed.Toml.Lexis

/-!
# Numbers, truth values, dates and times of TOML

All of these are made of the same characters, so that one word is taken off the text and then read as
a whole.  Only a date and a time with a blank between them take two words.
-/

namespace EncodedFeed.Toml

/-- The characters numbers, truth values, dates and times are made of. -/
def isWordChar (c : Char) : Bool :=
  c.isAlphanum || c == '_' || c == '+' || c == '-' || c == '.' || c == ':'

/-- The digits of a number in which single underscores may stand between two digits. -/
def digits? (isDigit : Char → Bool) : List Char → Option (List Char)
  | [] => none
  | [c] => if isDigit c then some [c] else none
  | c :: '_' :: rest => if isDigit c then (digits? isDigit rest).map (c :: ·) else none
  | c :: rest => if isDigit c then (digits? isDigit rest).map (c :: ·) else none

/-- Digits of a decimal number without superfluous leading zeros. -/
def decimal? (cs : List Char) : Option (List Char) :=
  (digits? Char.isDigit cs).filter fun ds => ds.length = 1 || ds.head? != some '0'

/-- A number's sign, true for minus, and what follows it. -/
def takeSign : List Char → Bool × List Char
  | '-' :: rest => (true, rest)
  | '+' :: rest => (false, rest)
  | cs => (false, cs)

/-! ### Integers -/

/-- An integer, whatever its size: decimal with an optional sign, or in base 16, 8 or 2 without. -/
def integer? (word : List Char) : Option Int :=
  match word with
  | '0' :: 'x' :: rest => (digits? isHexDigit rest).map fun ds => (ofDigits 16 ds : Int)
  | '0' :: 'o' :: rest =>
    (digits? (fun c => '0' ≤ c && c ≤ '7') rest).map fun ds => (ofDigits 8 ds : Int)
  | '0' :: 'b' :: rest =>
    (digits? (fun c => c == '0' || c == '1') rest).map fun ds => (ofDigits 2 ds : Int)
  | _ =>
    let (negative, rest) := takeSign word
    (decimal? rest).map fun ds => if negative then -(ofDigits 10 ds : Int) else ofDigits 10 ds

/-- The number can be kept as an integer. -/
def fitsInteger (n : Int) : Bool := -(integerLimit : Int) ≤ n && n < integerLimit

/-! ### Floats -/

/-- A decimal fraction: `mantissa * 10 ^ exponent`. -/
structure Fraction where
  negative : Bool
  mantissa : Nat
  exponent : Int
deriving DecidableEq, Repr

/-- Exponent behind its letter: a sign and digits. -/
def exponent? (cs : List Char) : Option Int :=
  let (negative, rest) := takeSign cs
  (digits? Char.isDigit rest).map fun ds => if negative then -(ofDigits 10 ds : Int) else ofDigits 10 ds

/-- A float in decimal notation, with a fraction or an exponent or both. -/
def fraction? (word : List Char) : Option Fraction :=
  let (negative, rest) := takeSign word
  let (whole, rest) := rest.span fun c => c != '.' && c != 'e' && c != 'E'
  match decimal? whole, rest with
  | some ds, '.' :: rest =>
    let (part, rest) := rest.span fun c => c != 'e' && c != 'E'
    match digits? Char.isDigit part, rest with
    | some fs, [] => some ⟨negative, ofDigits 10 (ds ++ fs), -fs.length⟩
    | some fs, _ :: rest =>
      (exponent? rest).map fun e => ⟨negative, ofDigits 10 (ds ++ fs), e - fs.length⟩
    | none, _ => none
  | some ds, _ :: rest => (exponent? rest).map fun e => ⟨negative, ofDigits 10 ds, e⟩
  | _, _ => none

/-- Least number that rounds to no finite double: 970 zeros behind 54 ones, in binary. -/
def doubleLimit : Nat := 0x3fffffffffffff <<< 970

/-- The fraction is positive and rounds to no finite double.  Far from the limit its decimal length
decides. -/
def Fraction.overflows (f : Fraction) : Bool :=
  let places : Int := (Nat.toDigits 10 f.mantissa).length + f.exponent
  if f.negative || f.mantissa == 0 || places < 300 then false
  else if places > 310 then true
  else f.mantissa * Nat.pow 10 f.exponent.toNat ≥ doubleLimit * Nat.pow 10 (-f.exponent).toNat

/-! ### Dates and times -/

/-- The number two digits write, if it is at most `limit`. -/
def twoDigits? (a b : Char) (limit : Nat) : Option Nat :=
  if a.isDigit && b.isDigit && ofDigits 10 [a, b] ≤ limit then some (ofDigits 10 [a, b]) else none

/-- The year has a 29th of February. -/
def isLeapYear (year : Nat) : Bool := year % 4 == 0 && (year % 100 != 0 || year % 400 == 0)

/-- Days of a month. -/
def daysIn (year month : Nat) : Nat :=
  if month == 2 then (if isLeapYear year then 29 else 28)
  else if month == 4 || month == 6 || month == 9 || month == 11 then 30
  else 31

/-- What follows a date at the front of a word. -/
def afterDate? : List Char → Option (List Char)
  | y₁ :: y₂ :: y₃ :: y₄ :: '-' :: m₁ :: m₂ :: '-' :: d₁ :: d₂ :: rest =>
    let year := ofDigits 10 [y₁, y₂, y₃, y₄]
    match twoDigits? m₁ m₂ 12 with
    | none => none
    | some month =>
      match twoDigits? d₁ d₂ (daysIn year month) with
      | none => none
      | some day =>
        if [y₁, y₂, y₃, y₄].all Char.isDigit && month ≠ 0 && day ≠ 0 then some rest else none
  | _ => none

/-- What follows a time of day at the front of a word. -/
def afterTime? : List Char → Option (List Char)
  | h₁ :: h₂ :: ':' :: m₁ :: m₂ :: ':' :: s₁ :: s₂ :: rest =>
    if (twoDigits? h₁ h₂ 23).isSome && (twoDigits? m₁ m₂ 59).isSome && (twoDigits? s₁ s₂ 60).isSome
    then
      match rest with
      | '.' :: d :: more => if d.isDigit then some (more.dropWhile Char.isDigit) else none
      | _ => some rest
    else none
  | _ => none

/-- Nothing, or an offset from universal time. -/
def isOffset : List Char → Bool
  | [] => true
  | ['Z'] | ['z'] => true
  | [sign, h₁, h₂, ':', m₁, m₂] =>
    (sign == '+' || sign == '-') && (twoDigits? h₁ h₂ 23).isSome && (twoDigits? m₁ m₂ 59).isSome
  | _ => false

/-- A time of day with or without an offset. -/
def isTimeOfDate (word : List Char) : Bool := (afterTime? word).any isOffset

/-- A date, a date and a time, or a time alone, in one word. -/
def isDateTime (word : List Char) : Bool :=
  match afterDate? word with
  | some [] => true
  | some (c :: rest) => (c == 'T' || c == 't') && isTimeOfDate rest
  | none => afterTime? word == some []

/-! ### Words -/

/-- The special floats. -/
def isSpecialFloat (word : List Char) : Bool :=
  (takeSign word).2 == "inf".toList || (takeSign word).2 == "nan".toList

/-- The value one word writes. -/
def ofWord (word : List Char) : Except Fault Value :=
  if word = "true".toList then .ok (.boolean true)
  else if word = "false".toList then .ok (.boolean false)
  else if isSpecialFloat word then .ok (.float (String.ofList word))
  else if isDateTime word then .ok (.datetime (String.ofList word))
  else
    match integer? word, fraction? word with
    | some n, _ =>
      if fitsInteger n then .ok (.integer n) else .error (.numberOutOfRange (String.ofList word))
    | none, some f =>
      if f.overflows then .error (.numberOutOfRange (String.ofList word))
      else .ok (.float (String.ofList word))
    | none, none => .error (.at "a value" word)

/-- A number, truth value, date or time. -/
def readScalar : Reader Value := fun cs =>
  let (word, rest) := cs.span isWordChar
  match afterDate? word, rest with
  | some [], ' ' :: d :: more =>
    if d.isDigit then
      let (time, rest) := (d :: more).span isWordChar
      if isTimeOfDate time then .ok (.datetime (String.ofList (word ++ ' ' :: time)), rest)
      else .error (.at "a time" (d :: more))
    else .ok (.datetime (String.ofList word), rest)
  | _, _ =>
    match ofWord word with
    | .ok v => .ok (v, rest)
    | .error (.unexpected expected _) => .error (.at expected cs)
    | .error e => .error e

end EncodedFeed.Toml
