import OneShot.Failure
import OneShot.Text.Utf8

/-! # Paths and what they lead to

A `FileSystem` is one tree. An absolute path starts at its root, any other path at the working
directory, which is a place in the tree like all others. Paths are bytes. There are no links, and
nobody lacks a permission.

* `FileSystem.locate`   follows a path
* `FileSystem.unlink`, `makeDirectories`, `bind`, `abandon`   the changes that a server makes
-/

namespace OneShot

/-- What a name in a directory stands for. -/
inductive Entry where
  | directory
  | file (content : Bytes)
  /-- A socket, and the number of the listener behind it while there is one. -/
  | socket (listener : Option Nat)
  deriving Repr, DecidableEq

/-- What is left of an entry when a listener is gone: its socket stays, with nobody behind it. -/
def Entry.without (listener : Nat) : Entry → Entry
  | .socket l => .socket (if l = some listener then none else l)
  | entry => entry

/-- A place that exists or could exist, by the names that lead to it from the root. -/
abbrev Place := List Bytes

/-- What lies in the tree, each entry at its place, and the place of the working directory. The root
and the directories on the way to the working directory need no entries. -/
structure FileSystem where
  entries : List (Place × Entry) := []
  working : Place := [[0x77, 0x6F, 0x72, 0x6B]]

namespace FileSystem

def slash : UInt8 := 0x2F
def dot : Bytes := [0x2E]
def dotDot : Bytes := [0x2E, 0x2E]

/-- The greatest length of one name. -/
def longestName : Nat := 255

/-- The length at which paths are refused. -/
def pathLimit : Nat := 4096

/-- What is at a place. -/
def at? (fs : FileSystem) (place : Place) : Option Entry :=
  if place.isPrefixOf fs.working then some .directory else fs.entries.lookup place

/-- The names of a path, in order; doubled and trailing slashes give empty names. -/
def namesOf (path : Bytes) : List Bytes :=
  path.foldr (fun b names =>
    if b == slash then [] :: names
    else match names with
      | [] => [[b]]
      | n :: ns => (b :: n) :: ns) [[]]

/-- One name further, from a place that has to be a directory. Above the root there is only the root
itself. -/
def step (fs : FileSystem) (place : Place) (name : Bytes) : Except SystemError Place :=
  if fs.at? place ≠ some .directory then .error .notADirectory
  else if name = [] ∨ name = dot then .ok place
  else if name = dotDot then .ok place.dropLast
  else if longestName < name.length then .error .nameTooLong
  else if (fs.at? (place ++ [name])).isSome then .ok (place ++ [name])
  else .error .noSuchFile

/-- Follows names from a place. -/
def walk (fs : FileSystem) : List Bytes → Place → Except SystemError Place
  | [], place => .ok place
  | name :: names, place =>
    match fs.step place name with
    | .ok place => fs.walk names place
    | .error e => .error e

/-- Where a path starts. -/
def startOf (fs : FileSystem) (path : Bytes) : Place :=
  if path.head? = some slash then [] else fs.working

/-- Follows a path to the end. -/
def locate (fs : FileSystem) (path : Bytes) : Except SystemError Place :=
  if path = [] then .error .noSuchFile
  else if pathLimit ≤ path.length then .error .nameTooLong
  else fs.walk (namesOf path) (fs.startOf path)

/-- What a path leads to. -/
def find (fs : FileSystem) (path : Bytes) : Except SystemError Entry :=
  match fs.locate path with
  | .error e => .error e
  | .ok place =>
    match fs.at? place with
    | some entry => .ok entry
    | none => .error .noSuchFile

/-- Whether something is at a path; an error if the path cannot be followed. -/
def tryExists (fs : FileSystem) (path : Bytes) : Except SystemError Bool :=
  match fs.find path with
  | .ok _ => .ok true
  | .error .noSuchFile => .ok false
  | .error e => .error e

/-- The content of the file at a path. -/
def read (fs : FileSystem) (path : Bytes) : Except SystemError Bytes :=
  match fs.find path with
  | .ok (.file content) => .ok content
  | .ok .directory => .error .isADirectory
  | .ok (.socket _) => .error .noSuchDevice
  | .error e => .error e

/-- The failure for a path that holds a zero byte. -/
def zeroByte : Failure := ⟨.invalidInput, "file name contained an unexpected NUL byte"⟩

/-- The content of the file at a path, or why it cannot be read. -/
def content (fs : FileSystem) (path : Bytes) : Except Failure Bytes :=
  if path.contains 0 then .error zeroByte else (fs.read path).mapError SystemError.failure

/-- Adds or replaces the entry at a place. -/
def put (fs : FileSystem) (place : Place) (entry : Entry) : FileSystem :=
  { fs with entries := (place, entry) :: fs.entries.filter (·.1 != place) }

/-- Adds or replaces the entry that the names lead to from the working directory. -/
def insert (fs : FileSystem) (names : List Bytes) (entry : Entry) : FileSystem :=
  fs.put (fs.working ++ names) entry

/-- Removes the entry at a place. -/
def erase (fs : FileSystem) (place : Place) : FileSystem :=
  { fs with entries := fs.entries.filter (·.1 != place) }

/-- Removes the file or socket at a path. -/
def unlink (fs : FileSystem) (path : Bytes) : Except SystemError FileSystem :=
  match fs.locate path with
  | .error e => .error e
  | .ok place =>
    match fs.at? place with
    | none => .error .noSuchFile
    | some .directory => .error .isADirectory
    | some _ => .ok (fs.erase place)

/-- The names of the directory that a path lies in. -/
def parentNames (path : Bytes) : List Bytes :=
  ((namesOf path).filter fun n => n != [] && n != dot).dropLast

/-- Makes the directories that are missing on the way along the names, as far as possible. -/
def makeAlong (fs : FileSystem) : List Bytes → Place → FileSystem
  | [], _ => fs
  | name :: names, place =>
    match fs.step place name with
    | .ok next => fs.makeAlong names next
    | .error .noSuchFile =>
      (fs.put (place ++ [name]) .directory).makeAlong names (place ++ [name])
    | .error _ => fs

/-- Makes the directories that a path needs, as far as possible. -/
def makeDirectories (fs : FileSystem) (path : Bytes) : FileSystem :=
  fs.makeAlong (parentNames path) (fs.startOf path)

/-- Puts the socket of a listener at a path where nothing is. -/
def bind (fs : FileSystem) (listener : Nat) (path : Bytes) : Except SystemError FileSystem :=
  let names := namesOf path
  match fs.walk names.dropLast (fs.startOf path), names.getLast? with
  | .error e, _ => .error e
  | .ok place, some name =>
    if fs.at? place ≠ some .directory then .error .notADirectory
    else if longestName < name.length then .error .nameTooLong
    else if name = [] ∨ name = dot ∨ name = dotDot ∨ (fs.at? (place ++ [name])).isSome then
      .error .addressInUse
    else .ok (fs.put (place ++ [name]) (.socket (some listener)))
  | .ok _, none => .error .noSuchFile

/-- Takes a listener away from its sockets. -/
def abandon (fs : FileSystem) (listener : Nat) : FileSystem :=
  { fs with entries := fs.entries.map fun (place, entry) => (place, entry.without listener) }

end FileSystem

end OneShot
