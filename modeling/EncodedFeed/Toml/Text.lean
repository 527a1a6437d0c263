import EncodedFeed.Toml.Lexis

/-!
# Reading TOML strings

The four forms of strings: basic and literal, each on one line or on several.  Basic forms have
escapes; forms on several lines drop a line break right after the opening quotes, read every line break
as one line feed, and may end in up to two quotes before the closing three.
-/

namespace EncodedFeed.Toml

/-- The character an escape letter stands for. -/
def letterEscape? : Char → Option Char
  | 'b' => some '\x08'
  | 't' => some '\t'
  | 'n' => some '\n'
  | 'f' => some '\x0c'
  | 'r' => some '\r'
  | '"' => some '"'
  | '\\' => some '\\'
  | _ => none

/-- The character with the code point written in hexadecimal digits, if there is one. -/
def codePoint? (digits : List Char) : Option Char :=
  let n := ofDigits 16 digits
  if digits.all isHexDigit && Nat.isValidChar n then some (Char.ofNat n) else none

/-- What an escape behind its backslash stands for, and how many characters it takes. -/
def escape? : List Char → Option (Char × Nat)
  | 'u' :: rest => (codePoint? (rest.take 4)).bind fun c =>
    if 4 ≤ rest.length then some (c, 5) else none
  | 'U' :: rest => (codePoint? (rest.take 8)).bind fun c =>
    if 8 ≤ rest.length then some (c, 9) else none
  | c :: _ => (letterEscape? c).map fun c => (c, 1)
  | [] => none

/-- The rest of a string on one line, up to its closing quote.  `skip` characters of an escape are
still to be passed over; `done` holds what was read, last character first. -/
def basicBody (done : List Char) (skip : Nat) : Reader String
  | [] => .error (.unexpected "a closing quote" "")
  | c :: rest =>
    if skip ≠ 0 then basicBody done (skip - 1) rest
    else if c = '"' then .ok (String.ofList done.reverse, rest)
    else if c = '\\' then
      match escape? rest with
      | some (e, n) => basicBody (e :: done) n rest
      | none => .error .badEscape
    else if isVisible c then basicBody (c :: done) 0 rest
    else .error (.at "a closing quote" (c :: rest))

/-- Where a backslash ends the line: only blanks stand before the line break. -/
def endsLine (cs : List Char) : Bool := (afterNewline? (skipBlanks cs)).isSome

/-- What is passed over in a string on several lines. -/
inductive Passing
  /-- Nothing. -/
  | none
  /-- So many more characters of an escape. -/
  | escape (left : Nat)
  /-- Blanks and line breaks behind a backslash that ends its line. -/
  | blank
deriving DecidableEq, Repr

/-- The rest of a basic string on several lines. -/
def multiBasicBody (done : List Char) (passing : Passing) : Reader String
  | [] => .error (.unexpected "closing quotes" "")
  | c :: rest =>
    match passing with
    | .escape (left + 1) => multiBasicBody done (.escape left) rest
    | _ =>
      if c = '\n' then
        multiBasicBody (if passing = .blank then done else '\n' :: done)
          (if passing = .blank then .blank else .none) rest
      else if c = '\r' ∧ rest.head? = some '\n' then multiBasicBody done passing rest
      else if passing = .blank ∧ isBlank c then multiBasicBody done .blank rest
      else if c = '"' then
        match rest with
        | '"' :: '"' :: '"' :: '"' :: after => .ok (String.ofList ('"' :: '"' :: done).reverse, after)
        | '"' :: '"' :: '"' :: after => .ok (String.ofList ('"' :: done).reverse, after)
        | '"' :: '"' :: after => .ok (String.ofList done.reverse, after)
        | _ => multiBasicBody ('"' :: done) .none rest
      else if c = '\\' then
        if endsLine rest then multiBasicBody done .blank rest
        else
          match escape? rest with
          | some (e, n) => multiBasicBody (e :: done) (.escape n) rest
          | none => .error .badEscape
      else if isVisible c then multiBasicBody (c :: done) .none rest
      else .error (.at "closing quotes" (c :: rest))

/-- The rest of a literal string on one line. -/
def literalBody (cs : List Char) : Except Fault (String × List Char) :=
  let (text, rest) := cs.span fun c => isVisible c && c != '\''
  match rest with
  | '\'' :: rest => .ok (String.ofList text, rest)
  | _ => .error (.at "a closing apostrophe" rest)

/-- The rest of a literal string on several lines. -/
def multiLiteralBody (done : List Char) : Reader String
  | [] => .error (.unexpected "closing apostrophes" "")
  | c :: rest =>
    if c = '\'' then
      match rest with
      | '\'' :: '\'' :: '\'' :: '\'' :: after =>
        .ok (String.ofList ('\'' :: '\'' :: done).reverse, after)
      | '\'' :: '\'' :: '\'' :: after => .ok (String.ofList ('\'' :: done).reverse, after)
      | '\'' :: '\'' :: after => .ok (String.ofList done.reverse, after)
      | _ => multiLiteralBody ('\'' :: done) rest
    else if c = '\r' ∧ rest.head? = some '\n' then multiLiteralBody done rest
    else if c = '\n' ∨ isVisible c then multiLiteralBody (c :: done) rest
    else .error (.at "closing apostrophes" (c :: rest))

/-- The text behind one line break, if it begins with one. -/
def skipNewline (cs : List Char) : List Char := (afterNewline? cs).getD cs

/-- A string in any of the four forms. -/
def readString : Reader String
  | '"' :: '"' :: '"' :: rest => multiBasicBody [] .none (skipNewline rest)
  | '"' :: rest => basicBody [] 0 rest
  | '\'' :: '\'' :: '\'' :: rest => multiLiteralBody [] (skipNewline rest)
  | '\'' :: rest => literalBody rest
  | cs => .error (.at "a string" cs)

/-! ### Keys -/

/-- Parts a key may have, and levels values may be nested, less one. -/
def depthLimit : Nat := 79

/-- One part of a key: bare, or a string on one line. -/
def readSimpleKey : Reader String
  | '"' :: rest => basicBody [] 0 rest
  | '\'' :: rest => literalBody rest
  | cs =>
    let (key, rest) := cs.span isBareKeyChar
    if key = [] then .error (.at "a key" cs) else .ok (String.ofList key, rest)

/-- A key of at most `n` parts with dots between them; blanks may stand around each part. -/
def readKey : Nat → Reader (List String)
  | 0, _ => .error .tooDeep
  | n + 1, cs =>
    match readSimpleKey (skipBlanks cs) with
    | .error e => .error e
    | .ok (part, cs) =>
      match skipBlanks cs with
      | '.' :: rest =>
        match readKey n rest with
        | .error e => .error e
        | .ok (parts, cs) => .ok (part :: parts, cs)
      | cs => .ok ([part], cs)

end EncodedFeed.Toml
