import JobShell.Job.Table

/-!
# The listing

The table as lines of text, one a job.

* `Sink` is where the listing goes: it may take a limited number of bytes, and the final flush may
  fail.
* `JobTable.list` writes the listing to a sink, part by part, until a part is not taken whole.
* `JobTable.listing` is the whole listing.
-/

namespace JobShell

open Text (bytes)

/-! ## 1. Sinks -/

/-- A stream that takes bytes until it is full. -/
structure Sink where
  /-- What was taken so far. -/
  taken : List UInt8 := []
  /-- How many more bytes are taken; no limit if absent. -/
  room : Option Nat := none
  /-- The flush at the end fails. -/
  flushFails : Bool := false
  deriving DecidableEq

namespace Sink

/-- Writes bytes as far as there is room, and tells whether all were taken. -/
def write (s : Sink) (bs : List UInt8) : Sink × Bool :=
  match s.room with
  | none => ({ s with taken := s.taken ++ bs }, true)
  | some n =>
    ({ s with taken := s.taken ++ bs.take n, room := some (n - bs.length) },
      decide (bs.length ≤ n))

/-- Writes texts one after the other, up to the first that is not taken whole. -/
def writeAll (s : Sink) : List String → Sink × Bool
  | [] => (s, true)
  | part :: rest =>
    match s.write (bytes part) with
    | (s', true) => s'.writeAll rest
    | (s', false) => (s', false)

end Sink

/-! ## 2. Listing a table -/

namespace JobTable

/-- The parts of the listing, in order. -/
def listingParts (t : JobTable) : List String := t.jobs.flatMap Job.listingParts

/-- The whole listing. -/
def listing (t : JobTable) : List UInt8 := t.listingParts.flatMap bytes

/-- Writes the listing to a sink, and tells whether all of it arrived. -/
def list (t : JobTable) (s : Sink) : Sink × Bool :=
  match s.writeAll t.listingParts with
  | (s', true) => (s', !s'.flushFails)
  | (s', false) => (s', false)

end JobTable

end JobShell
