/-
What can be done with a spill area, and what comes of it.

Whoever has a spill area asks it for names of files and has it cleaned up.  In between others
may do to the files whatever they like, and that is how directories that are needed come to
be in the way or missing.  What was done is told step by step: each step has the site as it
was found, and the rest follows from that.
-/
import ExternalSort.Storage.Area

namespace ExternalSort.Storage.Site

/-- What is done with a spill area, or to its files. -/
inductive Operation where
  | name (extra : Option String)
  | cleanup
  /-- Somebody else changes the files. -/
  | meddle (change : FileTree → FileTree)

/-- What a spill area answers. -/
inductive Answer where
  | named (outcome : Except Fault Path)
  | cleaned (outcome : Except Fault Unit)
  | nothing

/-- Carries out one operation. -/
def perform (s : Site) : Operation → Answer × Site
  | .name extra =>
    let (outcome, s) := s.nextFile extra
    (.named outcome, s)
  | .cleanup =>
    let (outcome, s) := s.cleanup
    (.cleaned outcome, s)
  | .meddle change => (.nothing, { s with files := change s.files })

/-- One operation, with the site as it was found. -/
structure Step where
  before : Site
  operation : Operation

namespace Step

def answer (x : Step) : Answer := (x.before.perform x.operation).1

def after (x : Step) : Site := (x.before.perform x.operation).2

/-- Whether a name was asked for. -/
def isRequest (x : Step) : Bool :=
  match x.operation with
  | .name _ => true
  | _ => false

/-- The name that was given, if one was. -/
def path? (x : Step) : Option Path :=
  match x.answer with
  | .named (.ok p) => some p
  | _ => none

end Step

/-- Operations one after the other, step by step. -/
def history : List Operation → Site → List Step
  | [], _ => []
  | op :: ops, s => ⟨s, op⟩ :: history ops (s.perform op).2

end ExternalSort.Storage.Site
