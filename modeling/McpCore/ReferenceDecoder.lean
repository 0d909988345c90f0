import McpCore.Calls

/-!
# The reference decoder

What a byte sequence means as a sequence of JSON-RPC messages, written without
chunks, budgets, buffers or loops: lines are split off the whole input, frames
are cut out of it, and a decoder is its phase together with the bytes it has not
decoded yet.
-/

namespace McpCore
namespace Transport

open Text

section Decoder

/-- Split off the first line: the bytes up to and including the first `'\n'`, or
everything when there is none. -/
def splitLine : List UInt8 → List UInt8 × List UInt8
  | [] => ([], [])
  | b :: rest =>
      if b = lineFeed then ([b], rest)
      else (b :: (splitLine rest).1, (splitLine rest).2)

/-- Every split but that of no bytes at all leaves less to split. -/
theorem splitLine_snd_length_lt
    {bytes : List UInt8} (h : bytes ≠ []) :
    (splitLine bytes).2.length < bytes.length := by
  induction bytes with
  | nil =>
      exact absurd rfl h
  | cons b rest ih =>
      unfold splitLine
      split
      · simp
      · by_cases hrest : rest = []
        · subst rest
          simp [splitLine]
        · have := ih hrest
          simp only [List.length_cons]
          omega

/-- What one read of the reference decoder gives. -/
inductive Decoded where
  | message (text : String)
  | invalidMessage
  | connectionClosed
deriving DecidableEq

/-- The framing, once it is known, and whether the stream was given up. -/
inductive Phase where
  | undecided
  | newline
  | contentLength
  | refused
deriving DecidableEq

/-- A decoder: its phase and the bytes it has not decoded yet. -/
structure Decoder where
  phase : Phase
  rest : List UInt8
deriving DecidableEq

/-- Give the stream up. -/
def refuse : Decoded × Decoder :=
  (.invalidMessage, ⟨.refused, []⟩)

/-- The message these bytes are, if they are UTF-8. -/
def decodedText (bytes : List UInt8) : Decoded :=
  match decodeUtf8 bytes with
  | some text => .message text
  | none => .invalidMessage

/-- The length a header value declares: a decimal number within the cap. -/
def declaredValue (maxLen : Nat) (value : String) : Option Nat :=
  if value.toList ≠ [] ∧ value.toList.all Char.isDigit ∧
      Nat.ofDigitChars 10 value.toList 0 ≤ maxLen then
    some (Nat.ofDigitChars 10 value.toList 0)
  else none

/-- What follows the opening line of a frame. -/
inductive Headers where
  | body (rest : List UInt8)
  | ended
  | refused
deriving DecidableEq

/-- Skip header lines up to the blank one, at most `more` that are not blank. -/
def skipHeaders (maxLen : Nat) : Nat → List UInt8 → Headers
  | more, rest =>
      let line := (splitLine rest).1
      if line = [] then .ended
      else if maxLen < line.length then .refused
      else
        match decodeUtf8 line with
        | none => .refused
        | some text =>
            if trimCrlf text = "" then .body (splitLine rest).2
            else
              match more with
              | 0 => .refused
              | more + 1 => skipHeaders maxLen more (splitLine rest).2

/-- Decode a frame opened by the line `first`. -/
def decodeFrame (maxLen : Nat) (first : String) (rest : List UInt8) : Decoded × Decoder :=
  match (contentLengthValue first).bind (declaredValue maxLen) with
  | none => refuse
  | some n =>
      match skipHeaders maxLen (maxHeaderLines - 1) rest with
      | .refused => refuse
      | .ended => (.connectionClosed, ⟨.contentLength, []⟩)
      | .body rest =>
          if rest.length < n then refuse
          else (decodedText (rest.take n), ⟨.contentLength, rest.drop n⟩)

/-- Decode while the framing is undecided. -/
def decodeUndecided (maxLen : Nat) (rest : List UInt8) : Decoded × Decoder :=
  if _h : rest = [] then (.connectionClosed, ⟨.undecided, []⟩)
  else if maxLen < (splitLine rest).1.length then refuse
  else
    match decodeUtf8 (splitLine rest).1 with
    | none => (.invalidMessage, ⟨.undecided, (splitLine rest).2⟩)
    | some line =>
        if line.toList.all isWhitespace then decodeUndecided maxLen (splitLine rest).2
        else if (contentLengthValue line).isSome then
          decodeFrame maxLen line (splitLine rest).2
        else (.message (trimCrlf line), ⟨.newline, (splitLine rest).2⟩)
termination_by rest.length
decreasing_by exact splitLine_snd_length_lt _h

/-- Decode a line in newline framing. -/
def decodeNewline (maxLen : Nat) (rest : List UInt8) : Decoded × Decoder :=
  if rest = [] then (.connectionClosed, ⟨.newline, []⟩)
  else if maxLen < (splitLine rest).1.length then refuse
  else
    match decodeUtf8 (splitLine rest).1 with
    | none => (.invalidMessage, ⟨.newline, (splitLine rest).2⟩)
    | some line => (.message (trimCrlf line), ⟨.newline, (splitLine rest).2⟩)

/-- Decode a frame in `Content-Length` framing. -/
def decodeContentLength (maxLen : Nat) (rest : List UInt8) : Decoded × Decoder :=
  if rest = [] then (.connectionClosed, ⟨.contentLength, []⟩)
  else if maxLen < (splitLine rest).1.length then refuse
  else
    match decodeUtf8 (splitLine rest).1 with
    | none => refuse
    | some line => decodeFrame maxLen line (splitLine rest).2

/-- One read of the reference decoder. -/
def decode (maxLen : Nat) (d : Decoder) : Decoded × Decoder :=
  match d.phase with
  | .undecided => decodeUndecided maxLen d.rest
  | .newline => decodeNewline maxLen d.rest
  | .contentLength => decodeContentLength maxLen d.rest
  | .refused => (.invalidMessage, d)

/-- `n` reads of the reference decoder. -/
def decodes (maxLen n : Nat) (d : Decoder) : List Decoded × Decoder :=
  Mealy.run (fun _ => decode maxLen) (List.replicate n ()) d

/-- The ways a frame can be decoded: the stream is given up or has ended, or there are
headers and a body of the length that was declared. -/
theorem decodeFrame_cases (maxLen : Nat) (first : String) (rest : List UInt8) :
    decodeFrame maxLen first rest = refuse ∨
    (skipHeaders maxLen (maxHeaderLines - 1) rest = .ended ∧
      decodeFrame maxLen first rest = (.connectionClosed, ⟨.contentLength, []⟩)) ∨
    ∃ n body, (contentLengthValue first).bind (declaredValue maxLen) = some n ∧
      skipHeaders maxLen (maxHeaderLines - 1) rest = .body body ∧ n ≤ body.length ∧
      decodeFrame maxLen first rest =
        (decodedText (body.take n), ⟨.contentLength, body.drop n⟩) := by
  unfold decodeFrame
  cases hdeclared : (contentLengthValue first).bind (declaredValue maxLen) with
  | none =>
      exact .inl rfl
  | some n =>
      cases hskip : skipHeaders maxLen (maxHeaderLines - 1) rest with
      | refused =>
          exact .inl rfl
      | ended =>
          exact .inr (.inl ⟨rfl, rfl⟩)
      | body body =>
          by_cases hshort : body.length < n
          · exact .inl (if_pos hshort)
          · exact .inr (.inr ⟨n, body, rfl, rfl, Nat.not_lt.mp hshort, if_neg hshort⟩)

theorem decodeFrame_of_undeclared {maxLen : Nat} {first : String} {rest : List UInt8}
    (h : (contentLengthValue first).bind (declaredValue maxLen) = none) :
    decodeFrame maxLen first rest = refuse := by
  unfold decodeFrame
  rw [h]

/-- A frame whose length is declared within the cap. -/
theorem decodeFrame_of_declared {maxLen n : Nat} {first : String} {rest : List UInt8}
    (h : (contentLengthValue first).bind (declaredValue maxLen) = some n) :
    decodeFrame maxLen first rest =
      match skipHeaders maxLen (maxHeaderLines - 1) rest with
      | .refused => refuse
      | .ended => (.connectionClosed, ⟨.contentLength, []⟩)
      | .body rest =>
          if rest.length < n then refuse
          else (decodedText (rest.take n), ⟨.contentLength, rest.drop n⟩) := by
  unfold decodeFrame
  generalize skipHeaders maxLen (maxHeaderLines - 1) rest = headers
  rw [h]

/-- A message is all that was decoded, and nothing else is closed. -/
theorem decodedText_ne_closed (bytes : List UInt8) :
    decodedText bytes ≠ .connectionClosed := by
  unfold decodedText
  split
  · simp
  · simp

theorem decodes_succ (maxLen n : Nat) (d : Decoder) :
    (decodes maxLen (n + 1) d).1 =
      (decode maxLen d).1 :: (decodes maxLen n (decode maxLen d).2).1 := by
  rw [decodes, List.replicate_succ, Mealy.run_cons_fst]
  rfl

end Decoder

section Declared

variable {R : Type}

/-- The lengths the transport is willing to read are the declared values. -/
theorem declaredLength_eq (t : FramedTransport R) (value : String) :
    (declaredLength t value).toOption = declaredValue t.maxLen value := by
  unfold declaredLength declaredValue
  by_cases hempty : value = ""
  · subst value
    rfl
  · have hne : value.toList ≠ [] := by
      simpa using hempty
    have hall := all_isAsciiDigit_asBytes value
    by_cases hdigits : value.toList.all Char.isDigit = true
    · rw [hdigits] at hall
      have hcap : (t.maxLen : Nat) ≤ usizeMax := by
        have := t.maxLen.isLt
        simp only [usizeMax]
        omega
      rw [parseUsize_of_digits hne hdigits, if_neg hempty, if_neg (by simp [hall])]
      generalize Nat.ofDigitChars 10 value.toList 0 = n
      by_cases hfits : n ≤ t.maxLen
      · have hparse : n ≤ usizeMax := by
          omega
        have hlt : ¬ (t.maxLen : Nat) < n := by
          omega
        rw [if_pos hparse, if_pos ⟨hne, hdigits, hfits⟩]
        simp only [if_neg hlt]
        rfl
      · have hlt : (t.maxLen : Nat) < n := by
          omega
        have hnot : ¬ (value.toList ≠ [] ∧ value.toList.all Char.isDigit = true ∧
            n ≤ t.maxLen) :=
          fun h => hfits h.2.2
        rw [if_neg hnot]
        by_cases hparse : n ≤ usizeMax
        · rw [if_pos hparse]
          simp only [if_pos hlt]
          rfl
        · rw [if_neg hparse]
          rfl
    · rw [← hall] at hdigits
      rw [if_neg hempty, if_pos (by simpa using hdigits), if_neg (fun h => hdigits (hall ▸ h.2.1))]
      rfl

theorem declaredValue_of_declaredLength {t : FramedTransport R} {value : String} {n : Nat}
    (h : declaredLength t value = .ok n) :
    declaredValue t.maxLen value = some n := by
  rw [← declaredLength_eq, h]
  rfl

/-- An opening line declares a length to the transport when it does to the decoder. -/
theorem map_declaredLength_iff {t : FramedTransport R} {first : String} {n : Nat} :
    (contentLengthValue first).map (declaredLength t) = some (.ok n) ↔
      (contentLengthValue first).bind (declaredValue t.maxLen) = some n := by
  cases contentLengthValue first with
  | none =>
      simp
  | some value =>
      rw [Option.map_some, Option.bind_some, Option.some.injEq, ← declaredLength_eq]
      cases declaredLength t value with
      | error reason =>
          simp [Except.toOption]
      | ok declared =>
          simp [Except.toOption]

end Declared

end Transport
end McpCore
