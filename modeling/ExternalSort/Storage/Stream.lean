/-
Streams of octets.

A sink takes octets and may take fewer than it is given; a source gives octets and may
give fewer than it is asked for, none only at its end.  Both are described by one call on
a state, and what programs want of them is built on that call: writing everything, filling
a length exactly, reading up to a length.

A call that was interrupted is made again by all of these, as often as it takes.  So the one
call of a sink or a source stands for all that are made until one is not interrupted, and it
never fails for that reason.
-/
import ExternalSort.Bytes.Little
import ExternalSort.Fault.Io

namespace ExternalSort.Storage

open Fault

/-- Something that takes octets, with states of type `σ`. -/
structure ByteSink (σ : Type) where
  /-- One call; gives the number of octets taken. -/
  write : Bytes → σ → Except IoFault Nat × σ
  uninterrupted : ∀ bs s, IoFault.Uninterrupted (write bs s).1

/-- Something that gives octets, with states of type `σ`. -/
structure ByteSource (σ : Type) where
  /-- One call for at most so many octets. -/
  read : Nat → σ → Except IoFault Bytes × σ
  uninterrupted : ∀ n s, IoFault.Uninterrupted (read n s).1

variable {σ : Type}

/-- Writes everything.  A sink that takes nothing fails. -/
def ByteSink.writeAll (sink : ByteSink σ) (bs : Bytes) (s : σ) : Except IoFault Unit × σ :=
  if bs = [] then (.ok (), s)
  else match sink.write bs s with
    | (.error f, s) => (.error f, s)
    | (.ok 0, s) => (.error .shortWrite, s)
    | (.ok (n + 1), s) => sink.writeAll (bs.drop (n + 1)) s
termination_by bs.length
decreasing_by
  have := List.length_pos_iff.2 ‹bs ≠ []›
  rw [List.length_drop]
  omega

/-- Reads octets until there are `n` of them or the source ends.  On a failure what was read
is lost to the caller, though not to the source. -/
def ByteSource.readUpTo (source : ByteSource σ) (n : Nat) (s : σ) : Except IoFault Bytes × σ :=
  if n = 0 then (.ok [], s)
  else match source.read n s with
    | (.error f, s) => (.error f, s)
    | (.ok [], s) => (.ok [], s)
    | (.ok (b :: bs), s) => match source.readUpTo (n - (bs.length + 1)) s with
      | (.ok rest, s) => (.ok (b :: bs ++ rest), s)
      | (.error f, s) => (.error f, s)
termination_by n

/-- Reads exactly `n` octets. -/
def ByteSource.readExact (source : ByteSource σ) (n : Nat) (s : σ) : Except IoFault Bytes × σ :=
  match source.readUpTo n s with
  | (.ok bs, s) => if bs.length < n then (.error .shortRead, s) else (.ok bs, s)
  | (.error f, s) => (.error f, s)

/-- A sink that keeps what it is given. -/
def ByteSink.memory : ByteSink Bytes := ⟨fun bs s => (.ok bs.length, s ++ bs), fun _ _ => .ok⟩

/-- A source that gives the octets of its state. -/
def ByteSource.memory : ByteSource Bytes :=
  ⟨fun n s => (.ok (s.take n), s.drop n), fun _ _ => .ok⟩

end ExternalSort.Storage
