/-
Files and directories.

The tree keeps names apart from contents.  A location is the list of names that leads from
the top to an entry, and an entry is a directory or the number of a file.  Contents hang
on the number: an open stream keeps its number, so it goes on working on a file whose name
was removed or given to another.

A path is followed step by step, each step from a directory: a dot stays, two dots lead
up, a name leads to an entry.  The last step is the one that operations differ in, so
following a path gives where it stands and not what is there.
-/
import ExternalSort.Fault.Io
import ExternalSort.Storage.Path

namespace ExternalSort.Storage

open Fault

/-- The names that lead from the top to an entry. -/
abbrev Location := List Bytes

/-- What stands at a location. -/
inductive Entry where
  | directory
  | file (number : Nat)
  deriving DecidableEq, Repr

/-- A tree of directories and files. -/
structure FileTree where
  entries : List (Location × Entry)
  contents : List (Nat × Bytes)
  /-- The number of the next new file. -/
  fresh : Nat

/-- Where a path leads. -/
inductive Place where
  /-- To a directory, by a last step that is no name. -/
  | directory (location : Location)
  /-- To a name in a directory; `trailing` says that a separator follows it. -/
  | named (parent : Location) (name : Bytes) (trailing : Bool)

namespace FileTree

/-- The tree that has nothing but its top. -/
def empty : FileTree := ⟨[], [], 0⟩

/-- The greatest length of a name. -/
def greatestName : Nat := 255

/-- The greatest length of a path. -/
def greatestPath : Nat := 4095

/-- What stands at a location; at the top a directory. -/
def entry? (t : FileTree) (l : Location) : Option Entry :=
  if l = [] then some .directory else t.entries.lookup l

/-- The contents of a file. -/
def contentsOf (t : FileTree) (number : Nat) : Bytes := (t.contents.lookup number).getD []

/-- Gives a file other contents. -/
def setContents (t : FileTree) (number : Nat) (bs : Bytes) : FileTree :=
  { t with contents := (number, bs) :: t.contents.filter (·.1 ≠ number) }

/-- Puts an entry at a location. -/
def insert (t : FileTree) (l : Location) (e : Entry) : FileTree :=
  { t with entries := (l, e) :: t.entries.filter (·.1 ≠ l) }

/-- Takes an entry away. -/
def erase (t : FileTree) (l : Location) : FileTree :=
  { t with entries := t.entries.filter (·.1 ≠ l) }

/-! ### Following paths -/

/-- One step from a directory to a directory. -/
def step (t : FileTree) (l : Location) (name : Bytes) : Except IoFault Location :=
  if name = Path.dot then .ok l
  else if name = Path.dotDot then .ok l.dropLast
  else if greatestName < name.length then .error (.system SystemCode.nameTooLong)
  else match t.entry? (l ++ [name]) with
    | some .directory => .ok (l ++ [name])
    | some (.file _) => .error (.system SystemCode.notDirectory)
    | none => .error (.system SystemCode.noEntry)

/-- Follows steps, all of them to directories. -/
def walk (t : FileTree) (names : List Bytes) : Except IoFault Location :=
  names.foldlM t.step []

/-- Follows a path up to its last step. -/
def follow (t : FileTree) (p : Path) : Except IoFault Place :=
  if p.octets.contains 0 then .error .zeroInName
  else if greatestPath < p.octets.length then .error (.system SystemCode.nameTooLong)
  else match p.names.reverse with
    | [] => if p.isAbsolute then .ok (.directory []) else .error (.system SystemCode.noEntry)
    | last :: before =>
      match t.walk before.reverse with
      | .error f => .error f
      | .ok l =>
        if last = Path.dot then .ok (.directory l)
        else if last = Path.dotDot then .ok (.directory l.dropLast)
        else if greatestName < last.length then .error (.system SystemCode.nameTooLong)
        else .ok (.named l last p.endsOpen)

/-- What stands where a path leads, with its location. -/
def find (t : FileTree) (p : Path) : Except IoFault (Location × Entry) :=
  match t.follow p with
  | .error f => .error f
  | .ok (.directory l) => .ok (l, .directory)
  | .ok (.named parent name trailing) =>
    match t.entry? (parent ++ [name]) with
    | none => .error (.system SystemCode.noEntry)
    | some .directory => .ok (parent ++ [name], .directory)
    | some (.file n) =>
      if trailing then .error (.system SystemCode.notDirectory)
      else .ok (parent ++ [name], .file n)

/-- Whether a path leads to anything. -/
def exists? (t : FileTree) (p : Path) : Bool := (t.find p).toOption.isSome

/-- Whether a path leads to a directory. -/
def isDirectory (t : FileTree) (p : Path) : Bool :=
  (t.find p).toOption.elim false fun e => e.2 == .directory

/-- The number of the file to which a path leads. -/
def fileAt? (t : FileTree) (p : Path) : Option Nat :=
  match t.find p with
  | .ok (_, .file n) => some n
  | _ => none

/-- The contents of the file to which a path leads. -/
def contentsAt? (t : FileTree) (p : Path) : Option Bytes := (t.fileAt? p).map t.contentsOf

/-! ### Directories -/

/-- Makes a directory in a directory that exists. -/
def makeDirectory (t : FileTree) (p : Path) : Except IoFault Unit × FileTree :=
  match t.follow p with
  | .error f => (.error f, t)
  | .ok (.directory _) => (.error (.system SystemCode.nameTaken), t)
  | .ok (.named parent name _) =>
    match t.entry? (parent ++ [name]) with
    | some _ => (.error (.system SystemCode.nameTaken), t)
    | none => (.ok (), t.insert (parent ++ [name]) .directory)

/-- Makes a directory and those above it, as far as they are missing.  Each level of the
fuel is one step up. -/
def makeAllFrom (t : FileTree) (p : Path) : Nat → Except IoFault Unit × FileTree
  | 0 => (.ok (), t)
  | fuel + 1 =>
    let settle : Except IoFault Unit × FileTree → Except IoFault Unit × FileTree
      | (.error f, t) => if t.isDirectory p then (.ok (), t) else (.error f, t)
      | r => r
    if p.octets = [] then (.ok (), t)
    else match t.makeDirectory p with
      | (.error f, t) =>
        if f.kind = .notFound then
          match p.parent? with
          | none => (.error f, t)
          | some parent => match makeAllFrom t parent fuel with
            | (.error f, t) => (.error f, t)
            | (.ok _, t) => settle (t.makeDirectory p)
        else settle (.error f, t)
      | r => r

/-- Makes a directory and those above it, as far as they are missing. -/
def makeAll (t : FileTree) (p : Path) : Except IoFault Unit × FileTree :=
  t.makeAllFrom p (p.names.length + 2)

/-- Takes away everything below a location. -/
def clear (t : FileTree) (l : Location) : FileTree :=
  { t with entries := t.entries.filter fun e => !(l.isPrefixOf e.1 && e.1 ≠ l) }

/-- Removes a directory with everything below it.  A path that ends in a dot or two still
loses what is below, but the directory itself cannot be removed by it. -/
def removeAll (t : FileTree) (p : Path) : Except IoFault Unit × FileTree :=
  match t.follow p with
  | .error f => (.error f, t)
  | .ok (.directory l) => (.error (.system SystemCode.invalid), t.clear l)
  | .ok (.named parent name _) =>
    let l := parent ++ [name]
    match t.entry? l with
    | none => (.error (.system SystemCode.noEntry), t)
    | some (.file _) => (.error (.system SystemCode.notDirectory), t)
    | some .directory => (.ok (), (t.clear l).erase l)

/-! ### Files -/

/-- Opens a file to write it anew, making it if it is not there; gives its number. -/
def create (t : FileTree) (p : Path) : Except IoFault Nat × FileTree :=
  match t.follow p with
  | .error f => (.error f, t)
  | .ok (.directory _) => (.error (.system SystemCode.isDirectory), t)
  | .ok (.named parent name trailing) =>
    match t.entry? (parent ++ [name]) with
    | some .directory => (.error (.system SystemCode.isDirectory), t)
    | some (.file n) =>
      if trailing then (.error (.system SystemCode.notDirectory), t)
      else (.ok n, t.setContents n [])
    | none =>
      if trailing then (.error (.system SystemCode.isDirectory), t)
      else
        let t := { t with fresh := t.fresh + 1 }.insert (parent ++ [name]) (.file t.fresh)
        (.ok (t.fresh - 1), t.setContents (t.fresh - 1) [])

/-- Removes the name of a file. -/
def remove (t : FileTree) (p : Path) : Except IoFault Unit × FileTree :=
  match t.follow p with
  | .error f => (.error f, t)
  | .ok (.directory _) => (.error (.system SystemCode.isDirectory), t)
  | .ok (.named parent name trailing) =>
    match t.entry? (parent ++ [name]) with
    | none => (.error (.system SystemCode.noEntry), t)
    | some .directory => (.error (.system SystemCode.isDirectory), t)
    | some (.file _) =>
      if trailing then (.error (.system SystemCode.notDirectory), t)
      else (.ok (), t.erase (parent ++ [name]))

/-- Octets put into contents at an offset; a gap before them is filled with zeros. -/
def overlay (contents : Bytes) (offset : Nat) (bs : Bytes) : Bytes :=
  contents.take offset ++ List.replicate (offset - contents.length) 0 ++ bs ++
    contents.drop (offset + bs.length)

/-- Writes octets into a file at an offset. -/
def writeAt (t : FileTree) (number offset : Nat) (bs : Bytes) : FileTree :=
  t.setContents number (overlay (t.contentsOf number) offset bs)

/-- At most `n` octets of a file from an offset on. -/
def readAt (t : FileTree) (number offset n : Nat) : Bytes :=
  ((t.contentsOf number).drop offset).take n

end FileTree
end ExternalSort.Storage
