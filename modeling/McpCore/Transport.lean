import McpCore.ByteStream
import McpCore.Library.Loop

/-!
# The framed transport

`FramedTransport` reads JSON-RPC messages from a byte stream in one of two
framings, newline-delimited or `Content-Length`, detected from the first line,
and writes in the framing it detected.  The functions below follow the source
one by one.  Each of its loops is a `Loop.run` of a body that performs one
iteration.
-/

namespace McpCore
namespace Transport

open Text

inductive Framing where
  | auto
  | newline
  | contentLength
deriving DecidableEq

/-- Upper bound on the header lines one `Content-Length` frame may carry. -/
def maxHeaderLines : Nat := 64

/-- Upper bound on the peer-supplied characters an error message echoes back. -/
def errorEchoLimit : Nat := 64

def trimCrlf (s : String) : String :=
  trimEndMatches s (fun c => c == '\r' || c == '\n')

/-- `s` shortened to `errorEchoLimit` characters, marked when shortened. -/
def forError (s : String) : String :=
  if errorEchoLimit < s.toList.length then
    String.ofList (s.toList.take errorEchoLimit) ++ "..."
  else s

/-- The raw value of `line` if it is a `Content-Length` header. -/
def contentLengthValue (line : String) : Option String :=
  match splitOnce (trim (trimCrlf line)) ':' with
  | some (name, value) =>
      if eqIgnoreAsciiCase (trim name) "content-length" then some (trim value) else none
  | none => none

@[simp] theorem trimCrlf_trimCrlf (s : String) :
    trimCrlf (trimCrlf s) = trimCrlf s := by
  simp only [trimCrlf, trimEndMatches, String.toList_ofList, List.rdropWhile_idempotent]

/-- Trimming the end of a header line does not change what it says. -/
@[simp] theorem contentLengthValue_trimCrlf (s : String) :
    contentLengthValue (trimCrlf s) = contentLengthValue s := by
  simp only [contentLengthValue, trimCrlf_trimCrlf]

@[simp] theorem trim_trimCrlf (s : String) :
    trim (trimCrlf s) = trim s := by
  refine trim_trimEndMatches ?_ s
  intro c hc
  simp only [Bool.or_eq_true, beq_iff_eq] at hc
  rcases hc with rfl | rfl
  · rfl
  · rfl

/-- A line is blank when it is white space, its end included. -/
theorem trim_trimCrlf_eq_empty_iff (s : String) :
    trim (trimCrlf s) = "" ↔ s.toList.all isWhitespace = true := by
  rw [trim_trimCrlf, trim_eq_empty_iff, List.all_eq_true]

/-- A framed transport over a reader of type `R` and a writer. -/
structure FramedTransport (R : Type) where
  reader : R
  writer : Writer
  framing : Framing
  maxLen : Usize
  /-- Why framing was lost, once it has been. -/
  desync : Option String
deriving DecidableEq

/-- How a call on a transport stands: it returned `Ok` or `Err`, or it has not
returned, because it waits for bytes that have not arrived or because one of its
loops goes round for ever. -/
inductive Outcome (α : Type) where
  | ok (a : α)
  | err (e : Error)
  | running
deriving DecidableEq

/-- The `?` operator: go on with the value of a call that returned `Ok`. -/
def andThen {α β T : Type} (call : Outcome α × T) (k : α → T → Outcome β × T) :
    Outcome β × T :=
  match call with
  | (.ok a, t) => k a t
  | (.err e, t) => (.err e, t)
  | (.running, t) => (.running, t)

def invalidMessage (reason : String) : Error :=
  .transport (.invalidMessage reason)

section AnyReader

variable {R : Type}

/-- Wrap a reader and a writer. -/
def FramedTransport.new (reader : R) (writer : Writer) (maxLen : Usize) :
    FramedTransport R :=
  ⟨reader, writer, .auto, maxLen, none⟩

/-- Message for a length that is past the cap. -/
def tooLarge (t : FramedTransport R) (what shown : String) : String :=
  s!"{what} {forError shown} exceeds maximum of {t.maxLen.val} bytes"

/-- Record that framing has been lost; the first reason is kept. -/
def poison (t : FramedTransport R) (reason : String) : FramedTransport R :=
  { t with desync := some (t.desync.getD reason) }

/-- `desync_error`: record that framing has been lost, and the error to return. -/
def desyncError {α : Type} (t : FramedTransport R) (reason : String) :
    Outcome α × FramedTransport R :=
  (.err (invalidMessage (t.desync.getD reason)), poison t reason)

/-- Refuse `len` if it is past the cap. -/
def checkLen (t : FramedTransport R) (len : Nat) (what : String) :
    Outcome Unit × FramedTransport R :=
  if t.maxLen.val < len then desyncError t (tooLarge t what (toString len))
  else (.ok (), t)

/-- Turn a declared `Content-Length` value into a length we are willing to read,
or the reason we are not. -/
def declaredLength (t : FramedTransport R) (value : String) : Except String Nat :=
  if value = "" then .error "Content-Length header has an empty value"
  else if !(asBytes value).all isAsciiDigit then
    .error s!"Content-Length value {forError value} is not a byte count"
  else
    match parseUsize value with
    | some len =>
        if t.maxLen.val < len then .error (tooLarge t "Content-Length" value)
        else .ok len
    | none => .error (tooLarge t "Content-Length" value)

/-- `from_utf8` on bytes that were consumed in full. -/
def decodeText (bytes : List UInt8) : Outcome String :=
  match fromUtf8 bytes with
  | .ok s => .ok s
  | .error e => .err (invalidMessage s!"invalid UTF-8: {e.display}")

end AnyReader

section Primitives

/-- How `take(declared).read_to_end` ended. -/
inductive BodyEnd where
  | done
  | failed (err : IoError)
  | waiting
deriving DecidableEq

/--
The two ways the transport takes bytes from its reader: the loop of `read_line`
up to where it leaves, and `take(n).read_to_end`.  `size` bounds the number of
times either can be called again before the reader has nothing more to give.
-/
class LineReader (R : Type) where
  collectLine : FramedTransport R → Outcome (List UInt8) × FramedTransport R
  collectBody : Nat → R → BodyEnd × List UInt8 × R
  size : R → Nat

/-- Enough iterations for any loop that takes something from the reader each
time it goes round. -/
def fuel {R : Type} [LineReader R] (t : FramedTransport R) : Nat :=
  LineReader.size t.reader + 1

end Primitives

section ChunkedReader

/-- `self.max_len.saturating_sub(buf.len()) + 1`, on `usize`. -/
def remainingBudget (maxLen len : Nat) : Nat :=
  (maxLen - len + 1) % (usizeMax + 1)

/-- One iteration of the loop of `read_line`. -/
def readLineBody :
    List UInt8 × FramedTransport Reader →
    Loop.Step (List UInt8 × FramedTransport Reader)
      (Outcome (List UInt8) × FramedTransport Reader)
  | (buf, t) =>
      match t.reader.fillBuf with
      | (.waiting, reader) => .leave (.running, { t with reader })
      | (.failed err, reader) => .leave (.err (.io err), { t with reader })
      | (.ready available, reader) =>
          if available = [] then
            if buf = [] then
              .leave (.err (.transport .connectionClosed), { t with reader })
            else .leave (.ok buf, { t with reader })
          else
            let take := min available.length (remainingBudget t.maxLen buf.length)
            match (available.take take).findIdx? (· == lineFeed) with
            | some nl =>
                .leave (.ok (buf ++ available.take (nl + 1)),
                  { t with reader := reader.consume (nl + 1) })
            | none =>
                let buf := buf ++ available.take take
                match checkLen { t with reader := reader.consume take }
                    buf.length "line length" with
                | (.ok _, t) => .next (buf, t)
                | (.err e, t) => .leave (.err e, t)
                | (.running, t) => .leave (.running, t)

/-- One read of `take(limit).read_to_end(&mut buf)`. -/
def readToEndBody :
    Nat × List UInt8 × Reader →
    Loop.Step (Nat × List UInt8 × Reader) (BodyEnd × List UInt8 × Reader)
  | (limit, buf, reader) =>
      if limit = 0 then .leave (.done, buf, reader)
      else
        match reader.fillBuf with
        | (.waiting, reader) => .leave (.waiting, buf, reader)
        | (.failed err, reader) => .leave (.failed err, buf, reader)
        | (.ready available, reader) =>
            if available = [] then .leave (.done, buf, reader)
            else
              let n := min available.length limit
              .next (limit - n, buf ++ available.take n, reader.consume n)

instance : LineReader Reader where
  collectLine t :=
    match Loop.run readLineBody (t.reader.items.length + 1) ([], t) with
    | some left => left
    | none => (.running, t)
  collectBody n reader :=
    match Loop.run readToEndBody (reader.items.length + 1) (n, [], reader) with
    | some left => left
    | none => (.waiting, [], reader)
  size reader := reader.items.length

theorem collectLine_eq_getD (t : FramedTransport Reader) :
    LineReader.collectLine t =
      (Loop.run readLineBody (t.reader.items.length + 1) ([], t)).getD (.running, t) := by
  simp only [LineReader.collectLine]
  cases Loop.run readLineBody (t.reader.items.length + 1) ([], t) with
  | none =>
      rfl
  | some left =>
      rfl

end ChunkedReader

section Read

variable {R : Type} [LineReader R]

/-- Read one line, its `'\n'` included. -/
def readLine (t : FramedTransport R) : Outcome String × FramedTransport R :=
  andThen (LineReader.collectLine t) fun buf t =>
    andThen (checkLen t buf.length "line length") fun _ t =>
      (decodeText buf, t)

/-- Read a line that belongs to a `Content-Length` frame. -/
def readFrameLine (t : FramedTransport R) : Outcome String × FramedTransport R :=
  match readLine t with
  | (.err err, t) =>
      if isConnectionClosed err then (.err err, t)
      else
        (.err err,
          poison t s!"frame abandoned before its body was consumed: {err.display}")
  | other => other

def readNewline (t : FramedTransport R) : Outcome String × FramedTransport R :=
  andThen (readLine t) fun line t => (.ok (trimCrlf line), t)

/-- One iteration of the header loop of `read_content_length`. -/
def readHeadersBody :
    Nat × FramedTransport R →
    Loop.Step (Nat × FramedTransport R) (Outcome Unit × FramedTransport R)
  | (lines, t) =>
      match readFrameLine t with
      | (.ok line, t) =>
          if trimCrlf line = "" then .leave (.ok (), t)
          else if maxHeaderLines < lines + 1 then
            .leave (desyncError t
              s!"frame declares more than {maxHeaderLines} header lines")
          else .next (lines + 1, t)
      | (.err err, t) => .leave (.err err, t)
      | (.running, t) => .leave (.running, t)

/-- The headers of a frame after its opening line, up to the blank line. -/
def readHeaders (t : FramedTransport R) : Outcome Unit × FramedTransport R :=
  match Loop.run readHeadersBody (fuel t) (1, t) with
  | some left => left
  | none => (.running, t)

theorem readHeaders_eq_getD (t : FramedTransport R) :
    readHeaders t = (Loop.run readHeadersBody (fuel t) (1, t)).getD (.running, t) := by
  unfold readHeaders
  cases Loop.run readHeadersBody (fuel t) (1, t) with
  | none =>
      rfl
  | some left =>
      rfl

/-- The body of a frame: at most `declared` bytes, all of which must arrive. -/
def readFrameBody (declared : Nat) (t : FramedTransport R) :
    Outcome String × FramedTransport R :=
  match LineReader.collectBody declared t.reader with
  | (.waiting, _, reader) => (.running, { t with reader })
  | (.failed err, buf, reader) =>
      (.err (.io err),
        poison { t with reader }
          s!"frame body read failed after {buf.length} of {declared} declared bytes: {err.message}")
  | (.done, buf, reader) =>
      if buf.length ≠ declared then
        desyncError { t with reader }
          s!"frame body ended after {buf.length} of {declared} declared bytes"
      else (decodeText buf, { t with reader })

/-- Read the rest of a frame whose opening line is `first`. -/
def readContentLength (first : String) (t : FramedTransport R) :
    Outcome String × FramedTransport R :=
  match (contentLengthValue first).map (declaredLength t) with
  | some (.ok declared) => andThen (readHeaders t) fun _ t => readFrameBody declared t
  | some (.error reason) => desyncError t reason
  | none =>
      desyncError t s!"expected a Content-Length header, got: {forError first}"

/-- From a length that is accepted reading goes on to headers and a body of that length. -/
theorem readContentLength_of_declared {first : String} {t : FramedTransport R} {declared : Nat}
    (h : (contentLengthValue first).map (declaredLength t) = some (.ok declared)) :
    readContentLength first t =
      andThen (readHeaders t) fun _ t => readFrameBody declared t := by
  unfold readContentLength
  rw [h]

/-- Without one the stream is given up. -/
theorem readContentLength_of_undeclared {first : String} {t : FramedTransport R}
    (h : ∀ declared, (contentLengthValue first).map (declaredLength t) ≠ some (.ok declared)) :
    ∃ reason, readContentLength first t = desyncError t reason := by
  unfold readContentLength
  rcases hlength : (contentLengthValue first).map (declaredLength t) with _ | ⟨reason | declared⟩
  · exact ⟨_, rfl⟩
  · exact ⟨_, rfl⟩
  · exact absurd hlength (h declared)

theorem readContentLength_cases (first : String) (t : FramedTransport R) :
    (∃ declared, (contentLengthValue first).map (declaredLength t) = some (.ok declared) ∧
      readContentLength first t =
        andThen (readHeaders t) fun _ t => readFrameBody declared t) ∨
    ∃ reason, readContentLength first t = desyncError t reason := by
  by_cases h : ∃ declared, (contentLengthValue first).map (declaredLength t) = some (.ok declared)
  · obtain ⟨declared, h⟩ := h
    exact .inl ⟨declared, h, readContentLength_of_declared h⟩
  · exact .inr (readContentLength_of_undeclared (not_exists.mp h))

/-- Of an opening line that is named like a header only the value matters. -/
theorem readContentLength_of_value {first first' value : String}
    (h : contentLengthValue first = some value) (h' : contentLengthValue first' = some value)
    (t : FramedTransport R) :
    readContentLength first t = readContentLength first' t := by
  unfold readContentLength
  rw [h, h', Option.map_some]
  cases declaredLength t value with
  | error reason =>
      rfl
  | ok declared =>
      rfl

/-- One iteration of the loop of `read_auto`. -/
def readAutoBody (t : FramedTransport R) :
    Loop.Step (FramedTransport R) (Outcome String × FramedTransport R) :=
  match readLine t with
  | (.ok line, t) =>
      let trimmed := trimCrlf line
      if trim trimmed = "" then .next t
      else if (contentLengthValue trimmed).isSome then
        .leave (readContentLength trimmed { t with framing := .contentLength })
      else .leave (.ok trimmed, { t with framing := .newline })
  | (.err err, t) => .leave (.err err, t)
  | (.running, t) => .leave (.running, t)

def readAuto (t : FramedTransport R) : Outcome String × FramedTransport R :=
  match Loop.run readAutoBody (fuel t) t with
  | some left => left
  | none => (.running, t)

theorem readAuto_eq_getD (t : FramedTransport R) :
    readAuto t = (Loop.run readAutoBody (fuel t) t).getD (.running, t) := by
  unfold readAuto
  cases Loop.run readAutoBody (fuel t) t with
  | none =>
      rfl
  | some left =>
      rfl

/-- What a read of a desynchronised transport says. -/
def desyncReason (reason : String) : String :=
  s!"transport desynchronised by an earlier framing violation ({reason}) and cannot be resynchronised"

/-- Read one JSON-RPC message. -/
def readMessage (t : FramedTransport R) : Outcome String × FramedTransport R :=
  match t.desync with
  | some reason => (.err (invalidMessage (desyncReason reason)), t)
  | none =>
      match t.framing with
      | .auto => readAuto t
      | .newline => readNewline t
      | .contentLength =>
          andThen (readFrameLine t) fun first t => readContentLength first t

theorem readMessage_of_desync
    {t : FramedTransport R} {reason : String} (h : t.desync = some reason) :
    readMessage t = (.err (invalidMessage (desyncReason reason)), t) := by
  simp only [readMessage, h]

end Read

section Write

variable {R : Type}

/-- `writer.write_all(..).await?` on the transport's writer. -/
def writeAll (bytes : List UInt8) (t : FramedTransport R) :
    Outcome Unit × FramedTransport R :=
  match t.writer.writeAll bytes with
  | (.ok _, writer) => (.ok (), { t with writer })
  | (.error err, writer) => (.err err, { t with writer })

/-- `writer.flush().await?` on the transport's writer. -/
def flush (t : FramedTransport R) : Outcome Unit × FramedTransport R :=
  match t.writer.flush with
  | (.ok _, writer) => (.ok (), { t with writer })
  | (.error err, writer) => (.err err, { t with writer })

/-- The writer counts a flush as one more operation, on no bytes. -/
theorem flush_eq (t : FramedTransport R) :
    flush t = writeAll [] t := by
  rfl

/-- Write one JSON-RPC message using the detected framing. -/
def writeMessage (message : String) (t : FramedTransport R) :
    Outcome Unit × FramedTransport R :=
  let sent :=
    match t.framing with
    | .contentLength =>
        let header := s!"Content-Length: {(asBytes message).length}\r\n\r\n"
        andThen (writeAll (asBytes header) t) fun _ t => writeAll (asBytes message) t
    | .auto | .newline =>
        andThen (writeAll (asBytes message) t) fun _ t => writeAll [lineFeed] t
  andThen sent fun _ t => flush t

end Write

end Transport
end McpCore
