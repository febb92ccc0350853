/-!
Directories: a snapshot of the files in a working directory, in which paths are looked up name by
name.
-/

namespace ClassLang

/-- How files are read: the text of a file, or the reason why there is none. -/
abbrev FileReader :=
  String → Except String String

inductive ReadFailure where
  | absent
  | isDirectory
  | notDirectory
  | notText
  deriving DecidableEq, Repr

namespace ReadFailure

def reason : ReadFailure → String
  | .absent => "No such file or directory (os error 2)"
  | .isDirectory => "Is a directory (os error 21)"
  | .notDirectory => "Not a directory (os error 20)"
  | .notText => "stream did not contain valid UTF-8"

end ReadFailure

inductive FileEntry where
  | file (content : ByteArray)
  | directory

/-- A place in a tree of files: the names on the way from the working directory, last first. -/
abbrev Place :=
  List String

namespace Place

/--
The place above. Above the working directory lies a place of which nothing is known; the root, whose
name is a slash, has no place above it.
-/
def parent : Place → Place
  | [] => [".."]
  | "/" :: names => "/" :: names
  | ".." :: names => ".." :: ".." :: names
  | _ :: names => names

def enter (place : Place) (name : String) : Place :=
  if name = "" ∨ name = "." then place
  else if name = ".." then place.parent
  else name :: place

/-- Holds of the working directory and of the places above it. -/
def isAbove (place : Place) : Bool :=
  place.all fun name => name = ".." || name = "/"

def start (path : String) : Place :=
  if path.startsWith "/" then ["/"] else []

def names (path : String) : List String :=
  path.splitOn "/"

/-- The places that names lead through, from a first place on. -/
def along (place : Place) : List String → List Place
  | [] => [place]
  | name :: names => place :: along (place.enter name) names

def ofPath (path : String) : Place :=
  (names path).foldl enter (start path)

def through (path : String) : List Place :=
  along (start path) (names path)

end Place

/-- The files and directories below a working directory, with their paths. -/
structure Directory where
  entries : List (String × FileEntry)

namespace Directory

/-- What stands at a place. A place on the way to an entry is a directory. -/
def entryAt? (d : Directory) (place : Place) : Option FileEntry :=
  if place.isAbove then some .directory
  else
    match d.entries.find? fun entry => Place.ofPath entry.1 = place with
    | some entry => some entry.2
    | none =>
        if d.entries.any fun entry => (Place.through entry.1).contains place then some .directory
        else none

/-- Follows names from a place on, each of which has to be looked up in a directory. -/
def follow (d : Directory) : Place → List String → Except ReadFailure Place
  | place, [] => .ok place
  | place, name :: names =>
      match d.entryAt? place with
      | none => .error .absent
      | some (.file _) => .error .notDirectory
      | some .directory => follow d (place.enter name) names

/-- The text that a path leads to. The empty path leads nowhere. -/
def textAt (d : Directory) (path : String) : Except ReadFailure String :=
  if path = "" then .error .absent
  else do
    let place ← d.follow (Place.start path) (Place.names path)
    match d.entryAt? place with
    | none => .error .absent
    | some .directory => .error .isDirectory
    | some (.file content) =>
        match String.fromUTF8? content with
        | none => .error .notText
        | some text => .ok text

def reader (d : Directory) : FileReader :=
  fun path => (d.textAt path).mapError ReadFailure.reason

end Directory

end ClassLang
