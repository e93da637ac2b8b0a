/-
Paths.

A path is octets; it need not be text.  `join` puts a name below a path, and an absolute
name replaces it.  Two paths name the same place as far as their spelling tells when
their steps agree: empty steps and single dots do not count, a leading dot of a relative
path apart.
-/
import ExternalSort.Text.Utf8

namespace ExternalSort.Storage

/-- A path. -/
structure Path where
  octets : Bytes
  deriving DecidableEq, Repr

namespace Path

/-- The octet between two steps. -/
def separator : UInt8 := 0x2F

/-- The step that stays. -/
def dot : Bytes := [0x2E]

/-- The step that leads up. -/
def dotDot : Bytes := [0x2E, 0x2E]

/-- The path that a text spells. -/
def ofText (s : String) : Path := ⟨Text.Utf8.encode s⟩

/-- The path as text to show. -/
def display (p : Path) : String := Text.Utf8.display p.octets

/-- The path as text, if it is text. -/
def toText? (p : Path) : Option String := Text.Utf8.decode? p.octets

/-- Whether the path starts at the root. -/
def isAbsolute (p : Path) : Bool := p.octets.head? == some separator

/-- A name below a path. -/
def join (p : Path) (name : Bytes) : Path :=
  if name.head? = some separator ∨ p.octets = [] then ⟨name⟩
  else if p.octets.getLast? = some separator then ⟨p.octets ++ name⟩
  else ⟨p.octets ++ separator :: name⟩

/-- Octets cut at every separator. -/
def pieces : Bytes → List Bytes
  | [] => [[]]
  | b :: r =>
    if b = separator then [] :: pieces r
    else match pieces r with
      | [] => [[b]]
      | p :: ps => (b :: p) :: ps

/-- The steps of a path without the empty ones. -/
def names (p : Path) : List Bytes := (pieces p.octets).filter (· ≠ [])

/-- The steps that count when paths are compared. -/
def steps (p : Path) : List Bytes :=
  let all := p.names
  if p.isAbsolute then all.filter (· ≠ dot)
  else match all with
    | first :: rest => first :: rest.filter (· ≠ dot)
    | [] => []

/-- Whether two paths are spelled the same as far as their steps go. -/
def same (p q : Path) : Bool := p.isAbsolute == q.isAbsolute && p.steps == q.steps

/-- The steps put together again. -/
def ofSteps (absolute : Bool) (steps : List Bytes) : Path :=
  let body := steps.foldr (fun s acc => if acc.isEmpty then s else s ++ separator :: acc) []
  ⟨if absolute then separator :: body else body⟩

/-- The path without its last step; none where there is no step. -/
def parent? (p : Path) : Option Path :=
  match p.steps.reverse with
  | [] => none
  | _ :: r => some (ofSteps p.isAbsolute r.reverse)

/-- Whether the path ends in a separator. -/
def endsOpen (p : Path) : Bool := p.octets.getLast? == some separator

end Path
end ExternalSort.Storage
