/-
The configuration of a spill area.

`check` states what every configuration in use satisfies: streams have a buffer, and the
operator's name is a name, not a path that could lead out of a spill directory.
-/
import ExternalSort.Binary.Power
import ExternalSort.Config.Compression
import ExternalSort.Fault.Basic

namespace ExternalSort

/-- Where and how an operator writes its spill files. -/
structure SpillConfig where
  /-- The spill directories, used in turn.  With none a private directory is used. -/
  directories : List Storage.Path
  /-- The directory made for the operator below each spill directory. -/
  operatorId : String
  /-- Octets in the buffer of a stream. -/
  bufferSize : Nat
  compression : Compression
  deriving DecidableEq

namespace SpillConfig

/-- The greatest buffer size. -/
def greatestBuffer : Nat := Binary.twoTo 64 - 1

/-- What holds where nothing is said. -/
def standard : SpillConfig := ⟨[], "xsort", 65536, .none⟩

/-- Whether a text can name the operator's directory. -/
def isOperatorName (id : String) : Bool :=
  !(id.isEmpty || id.toList.contains '/' || id.toList.contains '\\' || id == "..")

/-- Refuses a configuration that cannot be used. -/
def check (c : SpillConfig) : Except Fault Unit :=
  if c.bufferSize = 0 then .error (.arguments .emptyBuffer)
  else if isOperatorName c.operatorId then .ok ()
  else .error (.arguments (.operatorId c.operatorId))

/-- The configuration itself, if it can be used. -/
def checked (c : SpillConfig) : Except Fault SpillConfig := c.check.map fun _ => c

/-- A configuration in which some settings are open. -/
structure Draft where
  directories : Option (List Storage.Path)
  operatorId : Option String
  bufferSize : Option Nat
  compression : Option Compression

/-- Nothing set. -/
def Draft.empty : Draft := ⟨none, none, none, none⟩

/-- The open settings take their standard values. -/
def Draft.complete (d : Draft) : SpillConfig where
  directories := d.directories.getD standard.directories
  operatorId := d.operatorId.getD standard.operatorId
  bufferSize := d.bufferSize.getD standard.bufferSize
  compression := d.compression.getD standard.compression

end SpillConfig
end ExternalSort
