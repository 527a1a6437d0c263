import EncodedFeed.Octets

/-!
# File trees

A finite tree of files and directories, with what a command or a recording does to it: look, read,
create, write at a position, and make directories.  A place is the list of names on the way to it from
the current directory; an absolute path starts at the place `["/"]`.
-/

namespace EncodedFeed

/-- Why the operating system refuses to touch a file. -/
inductive OsError
  | notFound
  | occupied
  | notDirectory
  | isDirectory
  | nameTooLong
  /-- A path holds the character NUL. -/
  | nulInPath
  /-- The octets read are not UTF-8. -/
  | notText
deriving DecidableEq, Repr

/-- Text of a refusal. -/
def OsError.message : OsError → String
  | notFound => "No such file or directory (os error 2)"
  | occupied => "File exists (os error 17)"
  | notDirectory => "Not a directory (os error 20)"
  | isDirectory => "Is a directory (os error 21)"
  | nameTooLong => "File name too long (os error 36)"
  | nulInPath => "file name contained an unexpected NUL byte"
  | notText => "stream did not contain valid UTF-8"

/-- What stands at a place. -/
inductive Entry
  | directory
  | file (data : Octets)
deriving DecidableEq, Repr

/-- A place in a tree: the names on the way to it. -/
abbrev Place := List String

/-- Files and directories by place.  The current directory and the root are always there. -/
structure FileTree where
  entries : List (Place × Entry) := []
deriving DecidableEq, Repr

namespace FileTree

/-- The place of the root directory. -/
def root : Place := ["/"]

/-- Bytes a file name may have. -/
def nameLimit : Nat := 255

/-- Bytes a whole path may have. -/
def pathLimit : Nat := 4095

/-- What stands at a place, if anything does. -/
def find? (t : FileTree) (place : Place) : Option Entry :=
  if place = [] ∨ place = root then some .directory else t.entries.lookup place

/-- Put an entry at a place, replacing what stood there. -/
def put (t : FileTree) (place : Place) (entry : Entry) : FileTree where
  entries := (place, entry) :: t.entries.filter fun e => e.1 ≠ place

/-- Follow names from a place on.  The last one may lead nowhere. -/
def walk (t : FileTree) (here : Place) : List String → Except OsError Place
  | [] => .ok here
  | name :: rest =>
    match t.find? here with
    | none => .error .notFound
    | some (.file _) => .error .notDirectory
    | some .directory =>
      if name = "" ∨ name = "." then t.walk here rest
      else if name = ".." then t.walk (if here = root then root else here.dropLast) rest
      else if name.utf8ByteSize > nameLimit then .error .nameTooLong
      else t.walk (here ++ [name]) rest

/-- Why a path is refused before anyone looks where it leads. -/
def refusal? (path : String) : Option OsError :=
  if path.contains '\x00' then some .nulInPath
  else if path.utf8ByteSize > pathLimit then some .nameTooLong
  else none

/-- Where a path starts. -/
def start (path : String) : Place := if path.startsWith "/" then root else []

/-- The place a path names. -/
def place (t : FileTree) (path : String) : Except OsError Place :=
  match refusal? path with
  | some e => .error e
  | none => if path = "" then .error .notFound else t.walk (start path) (path.splitOn "/")

/-- The path of what a path names when it is meant from a directory on.  An absolute path is meant from
the root wherever it is used. -/
def join (directory path : String) : String :=
  if path.startsWith "/" then path
  else if directory = "" ∨ directory.endsWith "/" then directory ++ path
  else directory ++ "/" ++ path

/-- The path of the directory that holds the file at a path. -/
def parent (path : String) : String :=
  "/".intercalate (path.splitOn "/").dropLast

/-- Paths of a path's directories, outermost first, and the path itself. -/
def ancestors (path : String) : List String :=
  let names := path.splitOn "/"
  ((List.range names.length).map fun n => "/".intercalate (names.take (n + 1))).filter (· ≠ "")

/-- A path that leads to a place. -/
def pathTo (place : Place) : String :=
  match place with
  | "/" :: rest => "/" ++ "/".intercalate rest
  | names => "/".intercalate names

/-- What stands elsewhere than in an earlier tree, or otherwise; directories before what is in them. -/
def changesSince (before after : FileTree) : List (Place × Entry) :=
  let changed := after.entries.filter fun e => before.find? e.1 ≠ some e.2
  changed.mergeSort fun a b => a.1.length ≤ b.1.length

/-- Something stands at the path. -/
def contains (t : FileTree) (path : String) : Bool :=
  match t.place path with
  | .ok p => (t.find? p).isSome
  | .error _ => false

/-- The octets of the file at a path. -/
def read (t : FileTree) (path : String) : Except OsError Octets :=
  match t.place path with
  | .error e => .error e
  | .ok p =>
    match t.find? p with
    | none => .error .notFound
    | some .directory => .error .isDirectory
    | some (.file data) => .ok data

/-- The text of the file at a path. -/
def readText (t : FileTree) (path : String) : Except OsError String :=
  match t.read path with
  | .error e => .error e
  | .ok data =>
    match Octets.toText? data with
    | some text => .ok text
    | none => .error .notText

/-- A path without the slashes at its end. -/
def withoutEndSlashes (path : String) : String :=
  String.ofList (path.toList.reverse.dropWhile (· == '/')).reverse

/-- The place at which a path has a file created.  A path that ends with a slash can only mean a
directory, whatever stands at its place. -/
def creationPlace (t : FileTree) (path : String) : Except OsError Place :=
  match refusal? path with
  | some e => .error e
  | none =>
    if path.endsWith "/" then
      match t.place (parent (withoutEndSlashes path) ++ "/.") with
      | .ok _ => .error .isDirectory
      | .error e => .error e
    else t.place path

/-- Make the file at a path empty, creating it where there is none; also gives its place. -/
def create (t : FileTree) (path : String) : Except OsError (Place × FileTree) :=
  match t.creationPlace path with
  | .error e => .error e
  | .ok p =>
    match t.find? p with
    | some .directory => .error .isDirectory
    | _ => .ok (p, t.put p (.file []))

/-- Give the file at a path the octets `data`. -/
def write (t : FileTree) (path : String) (data : Octets) : Except OsError FileTree :=
  match t.create path with
  | .error e => .error e
  | .ok (p, t) => .ok (t.put p (.file data))

/-- `old` with `data` written over it from `offset` on; a gap is filled with zeros. -/
def overwrite (old : Octets) (offset : Nat) (data : Octets) : Octets :=
  old.take offset ++ List.replicate (offset - old.length) 0 ++ data
    ++ old.drop (offset + data.length)

/-- The octets of the file at a place; none if there is no file. -/
def data (t : FileTree) (p : Place) : Octets :=
  match t.find? p with
  | some (.file data) => data
  | _ => []

/-- Write octets into the file at a place from `offset` on. -/
def writeAt (t : FileTree) (p : Place) (offset : Nat) (data : Octets) : FileTree :=
  if data = [] then t else t.put p (.file (overwrite (t.data p) offset data))

/-- Make the directories named from a place on, those that are not there yet. -/
def makeFrom (t : FileTree) (here : Place) : List String → Except OsError FileTree
  | [] => .ok t
  | name :: rest =>
    if name = "" ∨ name = "." then t.makeFrom here rest
    else if name = ".." then t.makeFrom (if here = root then root else here.dropLast) rest
    else if name.utf8ByteSize > nameLimit then .error .nameTooLong
    else
      match t.find? (here ++ [name]) with
      | some (.file _) => .error (if rest = [] then .occupied else .notDirectory)
      | some .directory => t.makeFrom (here ++ [name]) rest
      | none => (t.put (here ++ [name]) .directory).makeFrom (here ++ [name]) rest

/-- Make the directory at a path and those above it. -/
def makeDirectories (t : FileTree) (path : String) : Except OsError FileTree :=
  match refusal? path with
  | some e => .error e
  | none => t.makeFrom (start path) (path.splitOn "/")

end FileTree

end EncodedFeed
