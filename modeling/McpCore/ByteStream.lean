import McpCore.Error

/-!
# Byte streams as a transport sees them

A reader plays a script: chunks of bytes as `fill_buf` hands them out and I/O
failures, in the order they happen.  After the script the peer has either closed
the stream, so that every further read finds its end, or not, so that a read
which needs more is still waiting.  An endless stream is the limit of the open
scripts that are its beginnings.

A writer collects the bytes written to it; each of its operations may be made to
fail.
-/

namespace McpCore

/-- One thing a reader does: hand out a non-empty chunk, or fail. -/
inductive Event where
  | chunk (bytes : List UInt8) (nonempty : bytes ≠ [])
  | fail (err : IoError)
deriving DecidableEq

/-- An `AsyncBufRead`.  `consumed` records the bytes taken from it so far. -/
structure Reader where
  events : List Event
  closed : Bool
  consumed : List UInt8
deriving DecidableEq

/-- What awaiting `fill_buf` gives; `ready []` is the end of the stream. -/
inductive Fill where
  | ready (available : List UInt8)
  | failed (err : IoError)
  | waiting

/-- One byte of a script, or one of its failures. -/
inductive Item where
  | byte (b : UInt8)
  | fail (err : IoError)
deriving DecidableEq

/-- What an event delivers, item by item. -/
def Event.items : Event → List Item
  | .chunk bytes _ => bytes.map .byte
  | .fail err => [.fail err]

namespace Reader

/-- What is left of the script, item by item. -/
def items (r : Reader) : List Item :=
  r.events.flatMap Event.items

/-- A reader at the start of a script. -/
def new (events : List Event) (closed : Bool) : Reader :=
  ⟨events, closed, []⟩

/-- `AsyncBufReadExt::fill_buf`: a failure is reported once. -/
def fillBuf (r : Reader) : Fill × Reader :=
  match r.events with
  | [] => (if r.closed then .ready [] else .waiting, r)
  | .chunk bytes _ :: _ => (.ready bytes, r)
  | .fail err :: events => (.failed err, { r with events := events })

/-- `AsyncBufReadExt::consume`. -/
def consume (n : Nat) (r : Reader) : Reader :=
  match r.events with
  | .chunk bytes _ :: events =>
      { r with
        events :=
          if h : bytes.drop n = [] then events
          else .chunk (bytes.drop n) h :: events
        consumed := r.consumed ++ bytes.take n }
  | _ => r

end Reader

/-- A reader's script without chunk boundaries. -/
structure Stream where
  items : List Item
  closed : Bool
  consumed : List UInt8
deriving DecidableEq

/-- Forget the chunk boundaries of a reader. -/
def Reader.unchunked (r : Reader) : Stream :=
  ⟨r.items, r.closed, r.consumed⟩

@[simp] theorem unchunked_items (r : Reader) :
    r.unchunked.items = r.items := by
  rfl

/-- An `AsyncWrite`.  Each operation takes the next entry of `faults`: `none`
lets it succeed, `some (sent, err)` makes it fail after `sent` bytes; it succeeds
when there is no entry left. -/
structure Writer where
  written : List UInt8
  faults : List (Option (Nat × IoError))
deriving DecidableEq

namespace Writer

/-- A writer on which every operation succeeds. -/
def reliable : Writer :=
  ⟨[], []⟩

/-- `AsyncWriteExt::write_all`. -/
def writeAll (bytes : List UInt8) (w : Writer) : Except Error Unit × Writer :=
  match w.faults with
  | some (sent, err) :: faults =>
      (.error (.io err), ⟨w.written ++ bytes.take sent, faults⟩)
  | none :: faults => (.ok (), ⟨w.written ++ bytes, faults⟩)
  | [] => (.ok (), ⟨w.written ++ bytes, []⟩)

/-- `AsyncWriteExt::flush`. -/
def flush (w : Writer) : Except Error Unit × Writer :=
  writeAll [] w

end Writer

end McpCore
