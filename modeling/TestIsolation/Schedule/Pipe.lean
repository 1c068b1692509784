import TestIsolation.Text.Bytes

/-!
# Pipes

A pipe keeps what was written until it is read, in a limited number of pages. A write first looks whether the bytes
that do not make up whole pages fit on the last page, and then takes new pages. A write that runs out of pages waits
with the rest of its bytes until the pipe was read.
-/

namespace TestIsolation

set_option autoImplicit false

/-- What was written to a pipe and not read yet. -/
structure Pipe where
  /-- Oldest first. -/
  pages : List Bytes := []
  /-- Something may still be written. -/
  writable : Bool := true
  deriving DecidableEq, Repr

namespace Pipe

/-- The bytes that one page holds. -/
def pageSize : Nat := 4096

/-- The pages that a pipe has. -/
def pageCount : Nat := 16

/-- What the pipe holds. -/
def content (p : Pipe) : Bytes := p.pages.flatten

/-- Puts the bytes beyond whole pages on the last page if they fit there, and gives the others. -/
def fillLast (pages : List Bytes) (bytes : Bytes) : List Bytes × Bytes :=
  let odd := bytes.length % pageSize
  match pages.getLast? with
  | some last =>
    if 0 < odd ∧ last.length + odd ≤ pageSize then (pages.dropLast ++ [last ++ bytes.take odd], bytes.drop odd)
    else (pages, bytes)
  | none => (pages, bytes)

/-- Puts bytes on at most the given number of new pages, and gives those that are left over. -/
def addPages (pages : List Bytes) (bytes : Bytes) : Nat → List Bytes × Bytes
  | 0 => (pages, bytes)
  | free + 1 =>
    if bytes = [] then (pages, [])
    else addPages (pages ++ [bytes.take pageSize]) (bytes.drop pageSize) free

/-- Begins a write, or goes on with one that had to wait. The bytes that still find no room are left over. -/
def write (p : Pipe) (begun : Bool) (bytes : Bytes) : Pipe × Bytes :=
  let (pages, rest) := if begun then (p.pages, bytes) else fillLast p.pages bytes
  let (pages, left) := addPages pages rest (pageCount - pages.length)
  ({ p with pages }, left)

/-- The pipe once everything in it was read. -/
def emptied (p : Pipe) : Pipe := { p with pages := [] }

/-- The pipe once nobody can write to it. -/
def closed (p : Pipe) : Pipe := { p with writable := false }

/-- The most that one read takes. -/
def readSize : Nat := 16 * 1024

/-- The reads that empty a pipe. -/
def readsOf (bytes : Bytes) : List Bytes :=
  if _h : bytes = [] then []
  else bytes.take readSize :: readsOf (bytes.drop readSize)
  termination_by bytes.length
  decreasing_by
    have : 0 < bytes.length := List.length_pos_iff.mpr _h
    simp only [List.length_drop, readSize]
    omega

/-- The reads that empty the pipe. -/
def reads (p : Pipe) : List Bytes := readsOf p.content

end Pipe

end TestIsolation
