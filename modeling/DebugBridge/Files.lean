/-
The files that sources are read from.

Files are known by name alone, or they lie in the folders of a disk. On a disk a path is walked part
by part, and every part has to be taken from a folder. So several paths lead to one file, and a path
through something that is not there, or is a file, leads nowhere.
-/
import DebugBridge.Failure
import DebugBridge.Text.Split

namespace DebugBridge

/-! ### Contents

A file can be there and still not be a source, since its bytes need not be text. The faults below
are those that a disk reports, in its own words.
-/

/-- What a file holds: text, or bytes that need not be text. -/
inductive FileContents where
  | text (contents : String)
  | bytes (contents : List UInt8)
  deriving DecidableEq, Repr

/-- The contents as text. -/
def FileContents.read : FileContents → Except SourceFault String
  | .text contents => .ok contents
  | .bytes contents =>
    match String.fromUTF8? ⟨contents.toArray⟩ with
    | some contents => .ok contents
    | none => .error (.platform "stream did not contain valid UTF-8")

namespace SourceFault

def missing : SourceFault := .platform "No such file or directory (os error 2)"

def notFolder : SourceFault := .platform "Not a directory (os error 20)"

def isFolder : SourceFault := .platform "Is a directory (os error 21)"

def tooLong : SourceFault := .platform "File name too long (os error 36)"

end SourceFault

/-! ### Places on a disk

Different paths may lead to one place, so files are kept by place and not by path. Two points go
back one step, which is why a place has to remember the way to it.
-/

/-- Where something lies: the names that lead to it from the folder in which all paths start. -/
abbrev Place := List String

namespace Place

/-- The place that one part of a path leads to. An empty part and a point stay, two points go back
to the folder around, and nothing is known around the folder in which all paths start. -/
def step (place : Place) (part : String) : Option Place :=
  if part = "" ∨ part = "." then some place
  else if part = ".." then if place = [] then none else some place.dropLast
  else some (place ++ [part])

@[simp] theorem step_point (place : Place) : place.step "." = some place := rfl

/-- The folders a place lies in, from the outside to the inside. -/
def around (place : Place) : List Place :=
  (List.range place.length).map place.take

end Place

/-- The parts of a path, which slashes separate. -/
def pathParts (path : String) : List String :=
  (Text.pieces (· = '/') path.toList).map String.ofList

/-! ### Disks

Folders are kept apart from files, since there are empty ones. A walk goes through folders only, and
its faults tell what stood in the way.
-/

/-- Files and folders by place. -/
structure Disk where
  files : List (Place × FileContents)
  folders : List Place
  deriving DecidableEq, Repr

namespace Disk

/-- A disk with nothing on it but the folder in which all paths start. -/
def empty : Disk := ⟨[], [[]]⟩

/-- The longest name in bytes. -/
def nameLimit : Nat := 255

/-- The number of bytes at which a path is too long. -/
def pathLimit : Nat := 4096

/-- Takes one part of a path. The place it is taken from has to be a folder. -/
def enter (disk : Disk) (place : Place) (part : String) : Except SourceFault Place :=
  if place ∈ disk.folders then
    if nameLimit < part.utf8ByteSize then .error .tooLong
    else (place.step part).elim (.error .missing) .ok
  else if (disk.files.lookup place).isSome then .error .notFolder
  else .error .missing

/-- Walks from a place. -/
def walk (disk : Disk) : Place → List String → Except SourceFault Place
  | place, [] => .ok place
  | place, part :: parts =>
    match disk.enter place part with
    | .error fault => .error fault
    | .ok place => disk.walk place parts

/-- A point, taken from a folder, changes nothing about where a path leads. -/
theorem walk_point {disk : Disk} {place : Place} (h : place ∈ disk.folders)
    (parts : List String) : disk.walk place ("." :: parts) = disk.walk place parts := by
  have : disk.enter place "." = .ok place := by
    rw [enter, if_pos h, if_neg (by decide), Place.step_point]; rfl
  rw [walk, this]

/-- The text of the file a path leads to. A path is never empty, and one that starts with a slash
leads out of what is known here. -/
def read (disk : Disk) (path : String) : Except SourceFault String :=
  if pathLimit ≤ path.utf8ByteSize then .error .tooLong
  else if path = "" ∨ path.front? = some '/' then .error .missing
  else
    match disk.walk [] (pathParts path) with
    | .error fault => .error fault
    | .ok place =>
      match disk.files.lookup place with
      | some contents => contents.read
      | none => .error (if place ∈ disk.folders then .isFolder else .missing)

/-- Replaces the contents of a file, making the folders it lies in, or removes it. Folders stay. -/
def set (disk : Disk) (path : String) (contents : Option FileContents) : Disk :=
  match (pathParts path).foldlM Place.step [] with
  | none => disk
  | some place =>
    let others := disk.files.filter fun file => file.1 ≠ place
    match contents with
    | none => { disk with files := others }
    | some contents => ⟨(place, contents) :: others, disk.folders ++ place.around⟩

end Disk

/-! ### Files

Where paths do not matter, a name is enough to find a file. Both kinds are read and written by the
same functions.
-/

/-- The files that can be read. -/
inductive Files where
  /-- Files by name: a path is nothing but the name of its file. -/
  | named (contents : List (String × FileContents))
  | onDisk (disk : Disk)
  deriving DecidableEq, Repr

namespace Files

/-- The text of a file. -/
def read (files : Files) (path : String) : Except SourceFault String :=
  match files with
  | named contents =>
    match contents.lookup path with
    | some contents => contents.read
    | none => .error (.notFound path)
  | onDisk disk => disk.read path

/-- Replaces the contents of a file, or removes it. -/
def set (files : Files) (path : String) (contents : Option FileContents) : Files :=
  match files with
  | named files =>
    let others := files.filter fun file => file.1 ≠ path
    named ((contents.map fun c => (path, c)).toList ++ others)
  | onDisk disk => onDisk (disk.set path contents)

/-- Writes one file after the other. -/
def write (files : Files) (contents : List (String × FileContents)) : Files :=
  contents.foldl (fun files file => files.set file.1 (some file.2)) files

/-- What is written under a name can be read under that name. -/
theorem read_set_named (files : List (String × FileContents)) (path : String)
    (contents : FileContents) :
    ((named files).set path (some contents)).read path = contents.read := by
  simp [set, read, List.lookup_cons_self]

end Files

end DebugBridge
