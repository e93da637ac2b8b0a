/-
Spill areas side by side.

Every operator has a spill area of its own, and nothing keeps two areas off the same files
but their paths: they share a file system and know nothing of each other.  A household is an
area with the paths that it has given out and the runs in files under them; a neighbourhood
is any number of households on one tree.  Areas are started at any time, and every household
goes about its chores at any time, between those of the others.
-/
import ExternalSort.Run.Operation

namespace ExternalSort.Run

open Storage

/-- A spill area, the paths that it named and the runs that were made there. -/
structure Household where
  area : Area
  names : List Path
  runs : List (Run FileSink FileSource)

/-- What is done in a household. -/
inductive Chore where
  /-- A file is named, with a text behind its number or without. -/
  | name (extra : Option String)
  /-- A run is made in one of the files that were named. -/
  | make (file : Nat) (codec : Codec)
  /-- Something is asked of a run. -/
  | ask (place : Nat) (op : Operation)
  /-- The operator's directories are removed. -/
  | cleanup

/-- Does a chore.  Nothing is done where there is no such file or no such run. -/
def Household.attend (h : Household) (files : FileTree) : Chore → Household × FileTree
  | .name extra => match (⟨files, h.area⟩ : Site).nextFile extra with
    | (.error _, s) => ({ h with area := s.area }, s.files)
    | (.ok path, s) => ({ h with area := s.area, names := h.names ++ [path] }, s.files)
  | .make file codec => match h.names[file]? with
    | none => (h, files)
    | some path => match create Site.channel path codec ⟨files, h.area⟩ with
      | (.error _, s) => ({ h with area := s.area }, s.files)
      | (.ok r, s) => ({ h with area := s.area, runs := h.runs ++ [r] }, s.files)
  | .ask place op => match h.runs[place]? with
    | none => (h, files)
    | some r =>
      let (_, r, s) := perform Site.channel r ⟨files, h.area⟩ op
      ({ h with area := s.area, runs := h.runs.set place r }, s.files)
  | .cleanup =>
    let (_, s) := (⟨files, h.area⟩ : Site).cleanup
    ({ h with area := s.area }, s.files)

/-- Households on one tree. -/
structure Neighbourhood where
  files : FileTree
  households : List Household

/-- What happens in a neighbourhood: an area is started, with a private directory at
`temporary` if its configuration has none, or a chore is done in the household at a place. -/
inductive Happening where
  | settle (config : SpillConfig) (temporary : Path)
  | chore (place : Nat) (chore : Chore)

namespace Neighbourhood

/-- Lets something happen. -/
def attend (g : Neighbourhood) : Happening → Neighbourhood
  | .settle config temporary => match Area.start config temporary g.files with
    | (.error _, files) => { g with files }
    | (.ok area, files) => ⟨files, g.households ++ [⟨area, [], []⟩]⟩
  | .chore place chore => match g.households[place]? with
    | none => g
    | some h =>
      let (h, files) := h.attend g.files chore
      ⟨files, g.households.set place h⟩

/-- Lets one thing happen after the other. -/
def attendAll (happenings : List Happening) (g : Neighbourhood) : Neighbourhood :=
  happenings.foldl attend g

end Neighbourhood
end ExternalSort.Run
