import ImportRepair.Host.Basic
import ImportRepair.Text.Utf8

/-!
# A tree of files

A tree of files in memory: a list of places, each with the octets of the file
or the directory that is there.  A path is followed name by name, and every
name but the last has to lead to a directory.  A name is looked up only if the
directory can be searched and the name is short enough, and no earlier than the
names in front of it.

There are no links in the tree, so a place is all that makes a file the file it
is.  What is not permitted, and how much of a file can be stored, is said for
each place and does not change; space that several files share is not modelled.
-/

namespace ImportRepair

/-- A file or a directory. -/
inductive Node where
  | file (octets : List UInt8)
  | directory
deriving DecidableEq, Repr

def Node.kind : Node → NodeKind
  | file _ => .file
  | directory => .directory

/-- A place in the tree: the names that lead to it from the root. -/
abbrev Location := List Text

/-- What cannot be done at a place, and why. -/
structure Limits where
  /-- Why no names are looked up in the directory. -/
  unsearchable : Option FileFault := none
  /-- Why the file is not read. -/
  unreadable : Option FileFault := none
  /-- Why the file is not opened for writing, or the directory takes no new files. -/
  unwritable : Option FileFault := none
  /-- How many octets the file can hold, and why there cannot be more. -/
  room : Option (Nat × DeviceFault) := none
deriving DecidableEq, Repr

namespace Limits

variable (r : Limits)

/-- What comes of reading a file that holds the octets. -/
def reveal (octets : List UInt8) : Except FileFault (List UInt8) :=
  match r.unreadable with
  | some f => .error f
  | none => .ok octets

/-- Opening a file to write it empties it.  The octets are stored as far as there is room. -/
def store (octets : List UInt8) : Except FileFault Unit × List UInt8 :=
  match r.room with
  | none => (.ok (), octets)
  | some (size, f) =>
    if size < octets.length then (.error (.device f), octets.take size) else (.ok (), octets)

/-- What comes of writing a file, and what the file holds then. -/
def overwrite (old new : List UInt8) : Except FileFault Unit × List UInt8 :=
  match r.unwritable with
  | some f => (.error f, old)
  | none => r.store new

end Limits

/-- A tree of files.  Of several entries for a place the first counts. -/
structure Disk where
  entries : List (Location × Node) := []
  /-- The places that are not free to be used. -/
  limits : List (Location × Limits) := []
deriving DecidableEq, Repr

namespace Disk

variable (d : Disk)

/-- What is at a place.  The root is always a directory. -/
def at? (l : Location) : Option Node := if l.isEmpty then some .directory else d.entries.lookup l

def limitsAt (l : Location) : Limits := (d.limits.lookup l).getD {}

def set (l : Location) (n : Node) : Disk :=
  { d with entries := (l, n) :: d.entries.filter (·.1 != l) }

def erase (l : Location) : Disk := { d with entries := d.entries.filter (·.1 != l) }

def makeDirectory (l : Location) : Disk :=
  (List.range l.length).foldl (fun d k =>
    let place := l.take (k + 1)
    if (d.at? place).isSome then d else d.set place .directory) d

def putFile (l : Location) (octets : List UInt8) : Disk :=
  (d.makeDirectory l.dropLast).set l (.file octets)

/-- How many octets a name may take. -/
def nameLimit : Nat := 255

/-- How many octets a path may take. -/
def pathLimit : Nat := 4095

/-- A text takes more octets than permitted. -/
def exceeds (limit : Nat) (t : Text) : Bool := decide (limit < (Utf8.encode t).length)

/-- The place to which names lead from a place. -/
def follow (here : Location) : List Text → Except FileFault Location
  | [] => .ok here
  | n :: ns =>
    match d.at? here with
    | none => .error .missing
    | some (.file _) => .error .notDirectory
    | some .directory =>
      match (d.limitsAt here).unsearchable with
      | some f => .error f
      | none =>
        if exceeds nameLimit n then .error .nameTooLong
        else follow (if n = ['.', '.'] then here.dropLast else here ++ [n]) ns

/-- The place to which a path leads from a working directory. -/
def locate (workingDirectory p : Path) : Except FileFault Location :=
  if p.holdsNul then .error .nulCharacter
  else if exceeds pathLimit p.text then .error .nameTooLong
  else d.follow [] (workingDirectory.join p).names

def look (workingDirectory p : Path) : Except FileFault NodeKind := do
  match d.at? (← d.locate workingDirectory p) with
  | some n => return n.kind
  | none => throw .missing

/-- What the file at a path holds, whether it can be read or not. -/
def content (workingDirectory p : Path) : Except FileFault (List UInt8) := do
  match d.at? (← d.locate workingDirectory p) with
  | some (.file octets) => return octets
  | some .directory => throw .isDirectory
  | none => throw .missing

def read (workingDirectory p : Path) : Except FileFault (List UInt8) := do
  (d.limitsAt (← d.locate workingDirectory p)).reveal (← d.content workingDirectory p)

/-- Writes a file, or makes a new one in a directory that takes it.  A write that fails may leave
    a part of what was to be written. -/
def write (workingDirectory p : Path) (octets : List UInt8) : Except FileFault Unit × Disk :=
  match d.locate workingDirectory p with
  | .error f => (.error f, d)
  | .ok l =>
    match d.at? l with
    | some .directory => (.error .isDirectory, d)
    | some (.file old) =>
      let (r, stored) := (d.limitsAt l).overwrite old octets
      (r, d.set l (.file stored))
    | none =>
      match (d.limitsAt l.dropLast).unwritable with
      | some f => (.error f, d)
      | none =>
        let (r, stored) := (d.limitsAt l).store octets
        (r, d.set l (.file stored))

def files : List (Location × List UInt8) :=
  d.entries.filterMap fun e =>
    match e.2 with
    | .file octets => some (e.1, octets)
    | .directory => none

end Disk

end ImportRepair
