import EncodedFeed.Toml.Number
import EncodedFeed.Toml.Text

/-!
# Reading TOML documents

A document is a sequence of lines: pairs of a key and a value, which go into the table whose header came
last, and headers.  `Entries.putDotted` and `Entries.within` say which tables a key and a header may
extend: a table is written out once, by its header or by dotted keys, never by both.
-/

namespace EncodedFeed.Toml

/-! ### Building tables -/

namespace Entries

/-- Change the value of a key, which may be absent. -/
def alter (key : String) (f : Option Value → Except Fault Value) : Entries → Except Fault Entries
  | [] => (f none).map fun v => [(key, v)]
  | (k, v) :: rest =>
    if k = key then (f (some v)).map fun v => (k, v) :: rest
    else (alter key f rest).map ((k, v) :: ·)

/-- The value for a key that must be absent. -/
def ifAbsent (key : String) (value : Value) : Option Value → Except Fault Value
  | none => .ok value
  | some _ => .error (.duplicateKey key)

/-- Change the last of several tables. -/
def alterLast (f : Entries → Except Fault Entries) : List Entries → Except Fault (List Entries)
  | [] => .ok []
  | [es] => (f es).map ([·])
  | es :: rest => (alterLast f rest).map (es :: ·)

/-- Put a value under the last part of a key whose other parts are `path`.  `open?` says whether the
table at hand may get new keys: dotted keys pass through tables implied by headers but add nothing to
them, and never touch a table that has a header of its own. -/
def putDotted (path : List String) (key : String) (value : Value) (open? : Bool) (es : Entries) :
    Except Fault Entries :=
  match path with
  | [] => if open? then alter key (ifAbsent key value) es else .error (.duplicateKey key)
  | part :: path =>
    alter part
      (fun
        | none => (putDotted path key value true []).map (.table .dotted)
        | some (.table .dotted es) => (putDotted path key value true es).map (.table .dotted)
        | some (.table .implied es) => (putDotted path key value false es).map (.table .implied)
        | some (.tables items) => (alterLast (putDotted path key value false) items).map .tables
        | some (.table .header _) => .error (.duplicateKey part)
        | some _ => .error (.notTable part))
      es

/-- Change the table that a header names.  Tables on the way that are absent come into being, and of
several tables of one name the last is meant. -/
def within (path : List String) (f : Entries → Except Fault Entries) (es : Entries) :
    Except Fault Entries :=
  match path with
  | [] => f es
  | part :: path =>
    alter part
      (fun
        | none => (within path f []).map (.table .implied)
        | some (.table .inline _) => .error (.notTable part)
        | some (.table origin es) => (within path f es).map (.table origin)
        | some (.tables items) => (alterLast (within path f) items).map .tables
        | some _ => .error (.notTable part))
      es

/-- The table of a header in single brackets: new, or so far implied. -/
def asHeader (key : String) : Option Value → Except Fault Value
  | none => .ok (.table .header [])
  | some (.table .implied es) => .ok (.table .header es)
  | some _ => .error (.duplicateKey key)

/-- The tables of a header in double brackets, with one more. -/
def asItem (key : String) : Option Value → Except Fault Value
  | none => .ok (.tables [[]])
  | some (.tables items) => .ok (.tables (items ++ [[]]))
  | some _ => .error (.duplicateKey key)

/-- Open the table a header names. -/
def openTable (path : List String) (isItem : Bool) (es : Entries) : Except Fault Entries :=
  let key := path.getLastD ""
  within path.dropLast (alter key (if isItem then asItem key else asHeader key)) es

end Entries

/-! ### Values -/

/-- The items of an array up to its closing bracket, which may follow a comma.  An array has no more
items than `fuel`. -/
def arrayItems (item : Reader Value) : Nat → Reader (List Value)
  | 0, cs => .error (.at "]" cs)
  | fuel + 1, cs =>
    match skipTrivia false cs with
    | ']' :: rest => .ok ([], rest)
    | cs =>
      match item cs with
      | .error e => .error e
      | .ok (v, cs) =>
        match skipTrivia false cs with
        | ',' :: rest =>
          match arrayItems item fuel rest with
          | .error e => .error e
          | .ok (vs, cs) => .ok (v :: vs, cs)
        | ']' :: rest => .ok ([v], rest)
        | cs => .error (.at "]" cs)

/-- A key, an equals sign and a value, blanks behind it passed over. -/
def readPair (value : Reader Value) : Reader (List String × Value) := fun cs =>
  match readKey depthLimit cs with
  | .error e => .error e
  | .ok (path, '=' :: rest) =>
    match value (skipBlanks rest) with
    | .error e => .error e
    | .ok (v, cs) => .ok ((path, v), skipBlanks cs)
  | .ok (_, cs) => .error (.at "=" cs)

/-- The pairs of a table between braces, the first of at most `fuel` to come, put into `es`. -/
def inlinePairs (value : Reader Value) : Nat → Entries → Reader Entries
  | 0, _, cs => .error (.at "\x7d" cs)
  | fuel + 1, es, cs =>
    match readPair value cs with
    | .error e => .error e
    | .ok ((path, v), cs) =>
      match es.putDotted path.dropLast (path.getLastD "") v true with
      | .error e => .error e
      | .ok es =>
        match cs with
        | ',' :: rest => inlinePairs value fuel es rest
        | '}' :: rest => .ok (es, rest)
        | cs => .error (.at "\x7d" cs)

/-- A value in which arrays and tables are nested at most `depth` deep. -/
def readValue (depth : Nat) : Reader Value := fun cs =>
  match cs with
  | '"' :: _ | '\'' :: _ => (readString cs).map fun (s, cs) => (.string s, cs)
  | '[' :: rest =>
    match depth with
    | 0 => .error .tooDeep
    | depth + 1 =>
      (arrayItems (readValue depth) (rest.length + 1) rest).map fun (vs, cs) => (.array vs, cs)
  | '{' :: rest =>
    match depth with
    | 0 => .error .tooDeep
    | depth + 1 =>
      match skipBlanks rest with
      | '}' :: rest => .ok (.table .inline [], rest)
      | cs =>
        (inlinePairs (readValue depth) (cs.length + 1) [] cs).map fun (es, cs) =>
          (.table .inline es, cs)
  | _ => readScalar cs

/-! ### Lines -/

/-- A header, its brackets included: its path, and whether its brackets are double. -/
def readHeader : Reader (List String × Bool)
  | '[' :: '[' :: rest =>
    match readKey depthLimit rest with
    | .error e => .error e
    | .ok (path, ']' :: ']' :: rest) => .ok ((path, true), rest)
    | .ok (_, cs) => .error (.at "]]" cs)
  | '[' :: rest =>
    match readKey depthLimit rest with
    | .error e => .error e
    | .ok (path, ']' :: rest) => .ok ((path, false), rest)
    | .ok (_, cs) => .error (.at "]" cs)
  | cs => .error (.at "[" cs)

/-- The lines of a document, at most `fuel` of them.  `table` is the path of the last header. -/
def readLines : Nat → List String → Entries → List Char → Except Fault Entries
  | 0, _, _, cs => .error (.at "the end of the document" cs)
  | fuel + 1, table, es, cs =>
    match skipBlanks cs with
    | [] => .ok es
    | '#' :: rest =>
      match lineEnd ('#' :: rest) with
      | .error e => .error e
      | .ok cs => readLines fuel table es cs
    | '[' :: rest =>
      match readHeader ('[' :: rest) with
      | .error e => .error e
      | .ok ((path, isItem), cs) =>
        match lineEnd cs, es.openTable path isItem with
        | .ok cs, .ok es => readLines fuel path es cs
        | .error e, _ => .error e
        | _, .error e => .error e
    | cs =>
      match afterNewline? cs with
      | some cs => readLines fuel table es cs
      | none =>
        match readPair (readValue depthLimit) cs with
        | .error e => .error e
        | .ok ((path, v), cs) =>
          match lineEnd cs,
              es.within table fun es => es.putDotted path.dropLast (path.getLastD "") v true with
          | .ok cs, .ok es => readLines fuel table es cs
          | .error e, _ => .error e
          | _, .error e => .error e

/-- The text without a byte order mark at its front. -/
def skipMark : List Char → List Char
  | '\ufeff' :: rest => rest
  | cs => cs

/-- Read a whole document. -/
def readDocument (text : String) : Except Fault Entries :=
  let cs := skipMark text.toList
  readLines (cs.length + 1) [] [] cs

end EncodedFeed.Toml
