/-
Frames.

A spill file is a row of frames and nothing else.  A frame is the length of its payload in
eight octets and the payload, the stream of one batch with its own schema.  A length over
the limit is taken for damage and refused before anything more is read.
-/
import ExternalSort.Binary.Power
import ExternalSort.Codec
import ExternalSort.Storage.Stream

namespace ExternalSort.Frame

open Storage

/-- The octets of the length in front of a payload. -/
def headerLength : Nat := 8

/-- The greatest length of a payload. -/
def greatestPayload : Nat := Binary.twoTo 30

/-- A payload with its length in front. -/
def ofPayload (payload : Bytes) : Bytes :=
  Bytes.Little.ofNat headerLength payload.length ++ payload

variable {σ : Type}

/-- Appends the frame of a batch; gives the number of octets written. -/
def write (codec : Codec) (sink : ByteSink σ) (b : Batch) (s : σ) : Except Fault Nat × σ :=
  match codec.encode b with
  | .error f => (.error f, s)
  | .ok payload =>
    if greatestPayload < payload.length then (.error (.data (.batchTooLong payload.length)), s)
    else match sink.writeAll (Bytes.Little.ofNat headerLength payload.length) s with
      | (.error f, s) => (.error (.io f), s)
      | (.ok _, s) => match sink.writeAll payload s with
        | (.error f, s) => (.error (.io f), s)
        | (.ok _, s) => (.ok (headerLength + payload.length), s)

/-- A source that ended inside a payload. -/
def truncated (present length : Nat) : Fault :=
  .io (.described .unexpectedEnd s!"spill frame truncated: {present} of {length} bytes")

/-- Reads the next frame. -/
def read (codec : Codec) (source : ByteSource σ) (s : σ) : Except Fault Batch × σ :=
  match source.readExact headerLength s with
  | (.error f, s) => (.error (.io f), s)
  | (.ok header, s) =>
    let length := Bytes.Little.toNat header
    if greatestPayload < length then (.error (.data (.frameTooLong length)), s)
    else match source.readUpTo length s with
      | (.error f, s) => (.error (.io f), s)
      | (.ok payload, s) =>
        if payload.length < length then (.error (truncated payload.length length), s)
        else (codec.decode payload, s)

end ExternalSort.Frame
