/-
Spill areas.

A spill area names the files of one operator.  It has a directory for the operator below
each spill directory and takes them in turn; files are numbered through, so no two names
are the same.  The operator's directories are made when they are first needed, and the
area remembers which it has made, because those are what it cleans up.
-/
import ExternalSort.Binary.Power
import ExternalSort.Config.Basic
import ExternalSort.Fault.First
import ExternalSort.Storage.Buffered
import ExternalSort.Storage.Channel
import ExternalSort.Text.Numeral

namespace ExternalSort.Storage

open Fault

/-- A spill area. -/
structure Area where
  config : SpillConfig
  /-- The operator's directory below each spill directory. -/
  roots : List Path
  /-- The operator's directories made so far. -/
  created : List Path
  /-- How many names were asked for. -/
  asked : Nat
  /-- How many names were given. -/
  given : Nat
  /-- Octets written by all streams that are closed, modulo two to the 64th. -/
  written : Nat
  /-- Octets read by all streams that are closed, modulo two to the 64th. -/
  consumed : Nat
  /-- The private directory, which goes when the area goes. -/
  personal : Option Path

/-- A spill area with the files it works on. -/
structure Site where
  files : FileTree
  area : Area

namespace Area

/-- Where counts start again. -/
def wrap : Nat := Binary.twoTo 64

/-- The spill area of a configuration.  Without spill directories it gets a private one,
which is made at `temporary`. -/
def start (config : SpillConfig) (temporary : Path) (files : FileTree) :
    Except Fault Area × FileTree :=
  match config.check with
  | .error f => (.error f, files)
  | .ok _ =>
    let area (directories : List Path) (personal : Option Path) : Area :=
      { config, personal
        roots := directories.map (·.join (Text.Utf8.encode config.operatorId))
        created := [], asked := 0, given := 0, written := 0, consumed := 0 }
    if config.directories.isEmpty then
      match files.makeDirectory temporary with
      | (.error f, files) => (.error (.io f), files)
      | (.ok _, files) => (.ok (area [temporary] (some temporary)), files)
    else (.ok (area config.directories none), files)

/-- The name of the file with a number. -/
def fileName (n : Nat) (extra : Option String) : Bytes :=
  Text.Utf8.encode ("spill" ++ Text.Numeral.ofNat n ++ extra.elim "" ("_" ++ ·))

/-- The root whose turn it is. -/
def root? (a : Area) : Option Path := a.roots[a.asked % a.roots.length]?

/-- Adds to the octets written. -/
def addWritten (a : Area) (n : Nat) : Area := { a with written := (a.written + n) % wrap }

/-- Adds to the octets read. -/
def addConsumed (a : Area) (n : Nat) : Area := { a with consumed := (a.consumed + n) % wrap }

end Area

namespace Site

/-- Makes a directory of the operator, unless it was made before. -/
def ensure (s : Site) (root : Path) : Except Fault Unit × Site :=
  if s.area.created.any (·.same root) then (.ok (), s)
  else match s.files.makeAll root with
    | (.error f, files) => (.error (.io f), { s with files })
    | (.ok _, files) =>
      (.ok (), { files, area := { s.area with created := s.area.created ++ [root] } })

/-- Names a new spill file, making its directory if need be. -/
def nextFile (s : Site) (extra : Option String) : Except Fault Path × Site :=
  match s.area.root? with
  | none => (.error (.internal (.note "spill area without directories")), s)
  | some root =>
    let s := { s with area := { s.area with asked := s.area.asked + 1 } }
    match s.ensure root with
    | (.error f, s) => (.error f, s)
    | (.ok _, s) =>
      (.ok (root.join (Area.fileName s.area.given extra)),
        { s with area := { s.area with given := s.area.given + 1 } })

/-- Removes a directory of the operator; one that is not there is no failure. -/
def removeRoot (files : FileTree) (root : Path) : Except Fault Unit × FileTree :=
  match files.removeAll root with
  | (.error f, files) => (if f.kind = .notFound then .ok () else .error (.io f), files)
  | (.ok _, files) => (.ok (), files)

/-- The step of a cleanup that is recorded for each directory. -/
def removeStep : String := "remove_spill_dir"

/-- Removes every directory of the operator made so far. -/
def cleanup (s : Site) : Except Fault Unit × Site :=
  let (first, files) := s.area.created.foldl (fun (first, files) root =>
    let (r, files) := removeRoot files root
    (first.record removeStep r, files)) (First.empty, s.files)
  (first.result, { files, area := { s.area with created := [] } })

/-- What is left when the area goes: its directories are removed, its private one too. -/
def leave (s : Site) : FileTree :=
  let (_, s) := s.cleanup
  match s.area.personal with
  | none => s.files
  | some p => (s.files.removeAll p).2

/-- Opens a file to be written. -/
def openOutput (p : Path) (s : Site) : Except Fault FileSink × Site :=
  match s.files.create p with
  | (.error f, files) => (.error (.io f), { s with files })
  | (.ok n, files) => (.ok (.start n s.area.config.bufferSize), { s with files })

/-- Opens a file to be read. -/
def openInput (p : Path) (s : Site) : Except Fault FileSource × Site :=
  match s.files.find p with
  | .error f => (.error (.io f), s)
  | .ok (_, .file n) => (.ok (.start (some n) s.area.config.bufferSize), s)
  | .ok (_, .directory) => (.ok (.start none s.area.config.bufferSize), s)

/-- Removes a file; one that is gone already is no failure. -/
def delete (p : Path) (s : Site) : Except Fault Unit × Site :=
  match s.files.remove p with
  | (.error f, files) =>
    (if f.kind = .notFound then .ok () else .error (.io f), { s with files })
  | (.ok _, files) => (.ok (), { s with files })

/-- The channel of a spill area. -/
def channel : Channel Site FileSink FileSource where
  openOutput := openOutput
  openInput := openInput
  delete := delete
  tallyWrite n s := { s with area := s.area.addWritten n }
  tallyRead n s := { s with area := s.area.addConsumed n }
  sink := {
    write := fun bs (k, s) =>
      let (k, files) := k.write bs s.files
      (.ok bs.length, k, { s with files })
    uninterrupted := fun _ _ => .ok }
  written := FileSink.written
  closeSink k s := (.ok (), { s with files := (k.flush s.files).2 })
  source := {
    read := fun n (r, s) =>
      let (got, r) := r.read n s.files
      (got, r, s)
    uninterrupted := fun n (r, s) => r.read_uninterrupted n s.files }
  consumed := FileSource.consumed
  closeSource _ s := (.ok (), s)

end Site
end ExternalSort.Storage
