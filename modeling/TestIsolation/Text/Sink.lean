/-!
# Sinks

A `Sink` takes chunks and may break: `SinkFault` says at which write or flush. What a broken sink accepted before
stays readable, so that runs on a broken and on a working sink can be compared.
-/

namespace TestIsolation

set_option autoImplicit false

/-- A failed call to the system. -/
inductive IoError where
  | brokenPipe
  | notFound
  | invalidData
  | tooManyOpenFiles
  | storageFull
  | notDirectory
  | isDirectory
  | nameTooLong
  | nulInName
  deriving DecidableEq, Repr

namespace IoError

/-- The text of a failed call. Those that the system itself refuses are numbered. -/
def message : IoError → String
  | brokenPipe => "broken pipe"
  | notFound => "No such file or directory (os error 2)"
  | invalidData => "stream did not contain valid UTF-8"
  | tooManyOpenFiles => "Too many open files (os error 24)"
  | storageFull => "No space left on device (os error 28)"
  | notDirectory => "Not a directory (os error 20)"
  | isDirectory => "Is a directory (os error 21)"
  | nameTooLong => "File name too long (os error 36)"
  | nulInName => "file name contained an unexpected NUL byte"

end IoError

/-- When a sink breaks. -/
inductive SinkFault where
  | never
  /-- At the write after the given number of them. -/
  | write (left : Nat)
  /-- At the write after the given number of them, of which some bytes are still taken. -/
  | tear (left taken : Nat)
  /-- At a flush, once the given number of writes is used up. -/
  | flush (left : Nat)
  deriving DecidableEq, Repr

/-- A writer of chunks. -/
structure Sink (α : Type) where
  fault : SinkFault := .never
  /-- What was accepted, newest first. -/
  chunks : List α := []
  /-- What a write or flush answers once the sink is broken. -/
  error : IoError := .brokenPipe

namespace Sink

variable {α : Type}

/-- What was accepted, in order. -/
def accepted (s : Sink α) : List α := s.chunks.reverse

/-- Writes one chunk. -/
def write (s : Sink α) (chunk : α) : Except IoError (Sink α) :=
  match s.fault with
  | .never => .ok { s with chunks := chunk :: s.chunks }
  | .write 0 | .tear 0 _ => .error s.error
  | .write (left + 1) => .ok { s with fault := .write left, chunks := chunk :: s.chunks }
  | .tear (left + 1) taken => .ok { s with fault := .tear left taken, chunks := chunk :: s.chunks }
  | .flush left => .ok { s with fault := .flush (left - 1), chunks := chunk :: s.chunks }

/-- A sink after a write that failed. What was taken of the chunk is never the whole of it. -/
def refuse {β : Type} (s : Sink (List β)) (chunk : List β) : Sink (List β) :=
  match s.fault with
  | .tear _ taken => { s with chunks := chunk.dropLast.take taken :: s.chunks }
  | _ => s

/-- Flushes what was written. -/
def flush (s : Sink α) : Except IoError Unit :=
  match s.fault with
  | .flush 0 => .error s.error
  | _ => .ok ()

end Sink

end TestIsolation
