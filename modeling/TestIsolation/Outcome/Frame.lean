import TestIsolation.Outcome.Record
import TestIsolation.Text.Sink

/-!
# Frames of the outcome channel

A record travels as a frame: a tag byte, the length of the payload in four bytes with the lowest first, and the
payload. `Record.encode` makes a frame, and a `Decoder` takes the bytes of a channel one at a time, so that how they
were cut into reads decides nothing but the point at which an error is noticed.
-/

namespace TestIsolation

set_option autoImplicit false

/-- The first byte of a frame. -/
def frameTag : UInt8 := 0xC7

/-- The largest payload, in bytes. -/
def maxPayload : Nat := 1024 * 1024

/-- Bytes of a frame before its payload. -/
def headerLength : Nat := 5

/-- Why a frame cannot be written or read. -/
inductive ChannelError where
  | io (error : IoError)
  | malformed
  | badTag (byte : UInt8)
  | oversized (length : Nat)
  deriving DecidableEq, Repr

namespace ChannelError

/-- The text of a channel error. -/
def message : ChannelError → String
  | io error => "io: " ++ error.message
  | malformed => "malformed record payload"
  | badTag byte => "bad frame tag 0x" ++ String.ofList (Bytes.hexDigits byte)
  | oversized length => s!"frame length {length} exceeds limit"

end ChannelError

/-! ## Writing -/

/-- A length in four bytes, the lowest first. -/
def lengthBytes (n : Nat) : Bytes :=
  [UInt8.ofNat n, UInt8.ofNat (n >>> 8), UInt8.ofNat (n >>> 16), UInt8.ofNat (n >>> 24)]

/-- The frame around a payload. -/
def frame (payload : Bytes) : Bytes := frameTag :: (lengthBytes payload.length ++ payload)

namespace Record

/-- The frame of a record, unless its payload is too large. -/
def encode (r : Record) : Except ChannelError Bytes :=
  let payload := r.payload
  if payload.utf8ByteSize ≤ maxPayload then .ok (frame (Bytes.ofString payload))
  else .error (.oversized payload.utf8ByteSize)

/-- Bytes of a text that a shortened record keeps. -/
def keptBytes : Nat := 1024

/-- The characters of a text that fit into a number of bytes. -/
def fitting (chars : List Char) (bytes : Nat) : List Char :=
  match chars with
  | [] => []
  | c :: rest => if c.utf8Size ≤ bytes then c :: fitting rest (bytes - c.utf8Size) else []

/-- A text cut to its kept bytes at a character's end, with three dots if anything was cut. -/
def clip (text : String) : String :=
  if text.utf8ByteSize ≤ keptBytes then text else String.ofList (fitting text.toList keptBytes) ++ "..."

/-- A site with its texts cut. -/
def clipSite (site : Site) : Site := ⟨clip site.file, site.line, clip site.function⟩

/-- A text that takes the place of one that made its record too large. The length is a machine word. -/
def clippedNote (length : UInt64) (text : String) : String :=
  "record too large (" ++ toString length.toNat ++ " bytes): " ++ clip text

/-- What stands in for a record whose payload of `length` bytes is too large. Records of fixed size have none. -/
def shortened (length : Nat) : Record → Option Record
  | failure f => some (failure
      ⟨clip f.expression, clipSite f.site, clippedNote (.ofNat length) f.message, f.fatal⟩)
  | skip s => some (skip ⟨s.reason.map (clippedNote (.ofNat length)), clipSite s.site⟩)
  | phase _ | terminal _ => none

/-- Writes the frame of a record in one piece and flushes it. The sink that comes back holds what was accepted, also
when the write or the flush failed. -/
def writeTo (r : Record) (sink : Sink Bytes) : Sink Bytes × Except ChannelError Unit :=
  match r.encode with
  | .error e => (sink, .error e)
  | .ok bytes =>
    match sink.write bytes with
    | .error e => (sink.refuse bytes, .error (.io e))
    | .ok sink =>
      match sink.flush with
      | .error e => (sink, .error (.io e))
      | .ok () => (sink, .ok ())

end Record

/-! ## Reading -/

/-- A reader of frames between two bytes. Bytes are held newest first. -/
inductive Decoder where
  /-- Fewer bytes than a header. -/
  | header (held : Bytes)
  /-- A complete header and a part of the payload, of which `due` bytes are missing. -/
  | payload (opening : Bytes) (held : Bytes) (due : Nat)
  /-- A read held something that is no frame. -/
  | stuck (error : ChannelError) (held : Bytes)
  deriving DecidableEq, Repr

namespace Decoder

/-- A reader before any byte. -/
def new : Decoder := header []

/-- The bytes held back, newest first. -/
def heldNewestFirst : Decoder → Bytes
  | header held => held
  | payload opening held _ => held ++ opening
  | stuck _ held => held

/-- The bytes held back. -/
def held (d : Decoder) : Bytes := d.heldNewestFirst.reverse

/-- How many bytes are held back. -/
def pending : Decoder → Nat
  | header held => held.length
  | payload opening held _ => held.length + opening.length
  | stuck _ held => held.length

/-- A header that is complete, newest byte first. -/
def openFrame (header : Bytes) : Except ChannelError Nat :=
  match header with
  | [b3, b2, b1, b0, tag] =>
    let length := b0.toNat + b1.toNat <<< 8 + b2.toNat <<< 16 + b3.toNat <<< 24
    if tag ≠ frameTag then .error (.badTag tag)
    else if length > maxPayload then .error (.oversized length)
    else .ok length
  | _ => .ok 0

/-- The record of a payload that is complete, newest byte first. -/
def closeFrame (payload : Bytes) : Except ChannelError Record :=
  match Record.ofPayload? payload.reverse with
  | some r => .ok r
  | none => .error .malformed

/-- One byte: the reader after it, and the record it completed. -/
def step (d : Decoder) (b : UInt8) : Except ChannelError (Decoder × Option Record) :=
  match d with
  | .header held =>
    if held.length + 1 < headerLength then .ok (.header (b :: held), none)
    else do
      match ← openFrame (b :: held) with
      | 0 => return (new, some (← closeFrame []))
      | due => return (.payload (b :: held) [] due, none)
  | .payload opening held due =>
    if due ≤ 1 then do return (new, some (← closeFrame (b :: held)))
    else .ok (.payload opening (b :: held) (due - 1), none)
  | .stuck error _ => .error error

/-- Bytes in turn, with the records found so far held newest first. -/
def feedFrom (d : Decoder) (found : List Record) : Bytes → Except ChannelError (Decoder × List Record)
  | [] => .ok (d, found.reverse)
  | b :: rest =>
    match d.step b with
    | .error e => .error e
    | .ok (d, record) => feedFrom d (record.toList ++ found) rest

/-- One read from the channel: the reader after it, and the records that it completed. A read that holds an error
yields that error alone, and every later one yields it again. -/
def feed (d : Decoder) (chunk : Bytes) : Decoder × Except ChannelError (List Record) :=
  match d, d.feedFrom [] chunk with
  | .stuck error held, _ => (.stuck error (chunk.reverse ++ held), .error error)
  | _, .ok (next, records) => (next, .ok records)
  | _, .error error => (.stuck error (chunk.reverse ++ d.heldNewestFirst), .error error)

end Decoder

end TestIsolation
