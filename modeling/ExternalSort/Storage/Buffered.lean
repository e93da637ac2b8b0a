/-
Streams on files, with buffers.

A sink holds octets back while they fit its buffer.  What does not fit any more makes it
write out what it holds, and octets that would fill the buffer by themselves pass it by.
A source reads a buffer full at a time, unless it is asked for a buffer full or more when
it holds nothing.

The counts say what passed through a stream, not what reached the file.
-/
import ExternalSort.Storage.FileTree
import ExternalSort.Storage.Stream

namespace ExternalSort.Storage

open Fault

/-- A sink on a file. -/
structure FileSink where
  file : Nat
  /-- Where the next octets go that leave the buffer. -/
  offset : Nat
  held : Bytes
  capacity : Nat
  /-- Octets taken so far. -/
  written : Nat

namespace FileSink

/-- A sink at the start of a file. -/
def start (file capacity : Nat) : FileSink := ⟨file, 0, [], capacity, 0⟩

/-- Writes octets to the file itself. -/
def emit (s : FileSink) (bs : Bytes) (t : FileTree) : FileSink × FileTree :=
  ({ s with offset := s.offset + bs.length }, t.writeAt s.file s.offset bs)

/-- Writes out what is held. -/
def flush (s : FileSink) (t : FileTree) : FileSink × FileTree :=
  if s.held.isEmpty then (s, t)
  else
    let (s, t) := s.emit s.held t
    ({ s with held := [] }, t)

/-- Takes octets, all of them. -/
def write (s : FileSink) (bs : Bytes) (t : FileTree) : FileSink × FileTree :=
  let count (s : FileSink) : FileSink := { s with written := s.written + bs.length }
  let hold (s : FileSink) : FileSink := { s with held := s.held ++ bs }
  let spare := s.capacity - s.held.length
  if bs.length < spare then (count (hold s), t)
  else
    let (s, t) := if spare < bs.length then s.flush t else (s, t)
    if s.capacity ≤ bs.length then
      let (s, t) := s.emit bs t
      (count s, t)
    else (count (hold s), t)

end FileSink

/-- A source on a file, or on a directory, which opens but cannot be read. -/
structure FileSource where
  file : Option Nat
  /-- Where the file goes on behind what is held. -/
  offset : Nat
  held : Bytes
  capacity : Nat
  /-- Octets given so far. -/
  consumed : Nat

namespace FileSource

/-- A source at the start of a file. -/
def start (file : Option Nat) (capacity : Nat) : FileSource := ⟨file, 0, [], capacity, 0⟩

/-- Gives at most `n` octets. -/
def read (s : FileSource) (n : Nat) (t : FileTree) : Except IoFault Bytes × FileSource :=
  if s.held.isEmpty then
    match s.file with
    | none => (.error (.system SystemCode.isDirectory), s)
    | some file =>
      let got := t.readAt file s.offset (max n s.capacity)
      if s.capacity ≤ n then
        (.ok (got.take n),
          { s with offset := s.offset + (got.take n).length,
                   consumed := s.consumed + (got.take n).length })
      else
        (.ok (got.take n),
          { s with offset := s.offset + got.length, held := got.drop n,
                   consumed := s.consumed + (got.take n).length })
  else
    let part := s.held.take n
    (.ok part, { s with held := s.held.drop n, consumed := s.consumed + part.length })

/-- The one failure of a read is that of a directory. -/
theorem read_uninterrupted (s : FileSource) (n : Nat) (t : FileTree) :
    IoFault.Uninterrupted (s.read n t).1 := by
  unfold read
  split
  · split
    · exact .error (by decide)
    · dsimp only
      split <;> exact .ok
  · exact .ok

end FileSource
end ExternalSort.Storage
