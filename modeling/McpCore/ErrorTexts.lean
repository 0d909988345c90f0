import McpCore.Consumption
import Mathlib.Data.Nat.Digits.Defs

/-!
# What error texts carry

The text of an `InvalidMessage` quotes the peer.  A text is composed of `Fragment`s:
words of the transport's own, numbers and echoes; `Composed` bounds how many there
are and how much of a text is echoed.

Whatever a failure-free stream delivers, each text is composed so, a later read of a
stream that was given up included: the first reason is kept, so that quoting it does
not grow (`error_texts_bounded`).
-/

namespace McpCore
namespace Transport

open Text

section Fragments

/-- A piece of an error text: words or a count of the transport's own, or text of the
peer's. -/
inductive Fragment where
  | words (text : String)
  | number (n : Nat)
  | echo (text : String)

namespace Fragment

def text : Fragment → String
  | words text => text
  | number n => toString n
  | echo text => text

/-- How many characters of the peer's a fragment holds. -/
def echoed : Fragment → Nat
  | echo text => text.toList.length
  | _ => 0

end Fragment

def compose : List Fragment → String
  | [] => ""
  | fragment :: fragments => fragment.text ++ compose fragments

/-- The words that error texts are composed of. -/
def wording : List String :=
  ["line length", "Content-Length", " ", "...", " exceeds maximum of ", " bytes",
    "Content-Length header has an empty value", "Content-Length value ",
    " is not a byte count", "expected a Content-Length header, got: ",
    "frame declares more than ", " header lines", "frame body ended after ", " of ",
    " declared bytes", "invalid UTF-8: ", "invalid utf-8 sequence of ", " bytes from index ",
    "incomplete utf-8 byte sequence from index ",
    "frame abandoned before its body was consumed: ", "transport error: ", "invalid message: ",
    "transport desynchronised by an earlier framing violation (",
    ") and cannot be resynchronised"]

/-- The words of a fragment are the transport's, and its counts fit a `usize`. -/
def Fragment.Fine : Fragment → Prop
  | words text => text ∈ wording
  | number n => n ≤ usizeMax
  | echo _ => True

/-- A text of so many fragments at most, in which at most `errorEchoLimit` characters
are the peer's. -/
def Composed (size : Nat) (text : String) : Prop :=
  ∃ fragments : List Fragment, text = compose fragments ∧ fragments.length ≤ size ∧
    (∀ fragment ∈ fragments, fragment.Fine) ∧
    (fragments.map Fragment.echoed).sum ≤ errorEchoLimit

theorem compose_append (xs ys : List Fragment) :
    compose (xs ++ ys) = compose xs ++ compose ys := by
  induction xs with
  | nil =>
      simp [compose]
  | cons x xs ih =>
      simp only [List.cons_append, compose, ih, String.append_assoc]

theorem Composed.mono {size size' : Nat} {text : String} (h : Composed size text)
    (hle : size ≤ size') :
    Composed size' text := by
  obtain ⟨fragments, htext, hsize, hfine, hechoed⟩ := h
  exact ⟨fragments, htext, hsize.trans hle, hfine, hechoed⟩

/-- Words and numbers around a text echo nothing. -/
theorem Composed.between {size : Nat} {text : String} (h : Composed size text)
    (before after : List Fragment) (hbefore : ∀ fragment ∈ before, fragment.Fine)
    (hafter : ∀ fragment ∈ after, fragment.Fine)
    (hown : ∀ fragment ∈ before ++ after, fragment.echoed = 0) :
    Composed (before.length + size + after.length)
      (compose before ++ text ++ compose after) := by
  obtain ⟨fragments, rfl, hsize, hfine, hechoed⟩ := h
  have hnone : ∀ {part : List Fragment}, (∀ fragment ∈ part, fragment.echoed = 0) →
      (part.map Fragment.echoed).sum = 0 := by
    intro part hpart
    rw [List.sum_eq_zero_iff_forall_eq_nat]
    intro n hn
    obtain ⟨fragment, hmem, rfl⟩ := List.mem_map.mp hn
    exact hpart fragment hmem
  refine ⟨before ++ fragments ++ after, ?_, ?_, ?_, ?_⟩
  · rw [compose_append, compose_append]
  · simp only [List.length_append]
    omega
  · intro fragment hmem
    rcases List.mem_append.mp hmem with hmem | hmem
    · rcases List.mem_append.mp hmem with hmem | hmem
      · exact hbefore fragment hmem
      · exact hfine fragment hmem
    · exact hafter fragment hmem
  · have hfirst := hnone fun fragment hmem => hown fragment (List.mem_append_left _ hmem)
    have hlast := hnone fun fragment hmem => hown fragment (List.mem_append_right _ hmem)
    simp only [List.map_append, List.sum_append, hfirst, hlast]
    omega

/-- A text without echoes. -/
theorem composed_of_own (fragments : List Fragment)
    (hfine : ∀ fragment ∈ fragments, fragment.Fine)
    (hown : ∀ fragment ∈ fragments, fragment.echoed = 0) :
    Composed fragments.length (compose fragments) := by
  have hempty : Composed 0 "" := ⟨[], rfl, Nat.le_refl _, by simp, by simp⟩
  have h := hempty.between fragments [] hfine (by simp) (by simpa using hown)
  simpa [compose] using h

end Fragments

section Bytes

/-- A `usize` has twenty digits at most. -/
theorem length_toString_le {n : Nat} (hn : n ≤ usizeMax) :
    (toString n).toList.length ≤ 20 := by
  have hlt : n < 10 ^ 20 := by
    simp only [usizeMax] at hn
    omega
  rw [Nat.toString_eq_ofList_toDigits, String.toList_ofList]
  exact Nat.toDigits_length 10 n 20 (by omega) hlt

theorem length_asBytes_toString_le {n : Nat} (hn : n ≤ usizeMax) :
    (asBytes (toString n)).length ≤ 20 := by
  rw [length_asBytes_of_digits]
  · exact length_toString_le hn
  · intro c hc
    rw [Nat.toString_eq_ofList_toDigits, String.toList_ofList] at hc
    exact Nat.isDigit_of_mem_toDigits (by decide) (by decide) hc

/-- A character has four bytes at most. -/
theorem length_asBytes_le (s : String) :
    (asBytes s).length ≤ 4 * s.toList.length := by
  rw [asBytes_eq_flatMap]
  induction s.toList with
  | nil =>
      simp
  | cons c cs ih =>
      have hc := c.utf8Size_le_four
      simp only [List.flatMap_cons, List.length_append, String.length_utf8EncodeChar,
        List.length_cons]
      omega

/-- The longest fragment there can be, in bytes. -/
def maxFragment : Nat := 4 * errorEchoLimit

theorem length_wording : ∀ text ∈ wording, (asBytes text).length ≤ maxFragment := by
  decide

theorem Fragment.Fine.length_le {fragment : Fragment} (h : fragment.Fine)
    (hechoed : fragment.echoed ≤ errorEchoLimit) :
    (asBytes fragment.text).length ≤ maxFragment := by
  cases fragment with
  | words text =>
      exact length_wording text h
  | number n =>
      have hle := length_asBytes_toString_le h
      simp only [Fragment.text, maxFragment, errorEchoLimit]
      omega
  | echo text =>
      have hle := length_asBytes_le text
      simp only [Fragment.echoed] at hechoed
      simp only [Fragment.text, maxFragment]
      omega

/-- How long a composed text can get. -/
theorem Composed.length_le {size : Nat} {text : String} (h : Composed size text) :
    (asBytes text).length ≤ size * maxFragment := by
  obtain ⟨fragments, rfl, hsize, hfine, hechoed⟩ := h
  refine le_trans ?_ (Nat.mul_le_mul_right _ hsize)
  clear hsize
  induction fragments with
  | nil =>
      exact Nat.zero_le _
  | cons fragment fragments ih =>
      simp only [List.map_cons, List.sum_cons] at hechoed
      have hfirst := (hfine fragment (by simp)).length_le (by omega)
      have hrest := ih (fun f hmem => hfine f (List.mem_cons_of_mem _ hmem)) (by omega)
      simp only [compose, asBytes_append, List.length_append, List.length_cons, Nat.succ_mul]
      omega

end Bytes

section ForError

/-- `for_error` as the source computes it, by byte index; nothing where a slice would
panic. -/
def forErrorSlice (s : String) : Option String :=
  match (charIndices 0 s.toList)[errorEchoLimit]? with
  | some (index, _) => (sliceTo s index).map fun shown => shown ++ "..."
  | none => some s

theorem forError_of_le {s : String} (h : s.toList.length ≤ errorEchoLimit) :
    forError s = s := by
  rw [forError, if_neg (by omega)]

theorem forError_of_lt {s : String} (h : errorEchoLimit < s.toList.length) :
    forError s = String.ofList (s.toList.take errorEchoLimit) ++ "..." := by
  rw [forError, if_pos h]

/-- The cut is at a character boundary, so slicing does not panic, and it leaves the
first characters. -/
theorem forErrorSlice_eq (s : String) :
    forErrorSlice s = some (forError s) := by
  unfold forErrorSlice
  by_cases hlong : errorEchoLimit < s.toList.length
  · obtain ⟨c, rest, hdrop⟩ : ∃ c rest, s.toList.drop errorEchoLimit = c :: rest :=
      ⟨_, _, List.drop_eq_getElem_cons hlong⟩
    have hsplit : s.toList = s.toList.take errorEchoLimit ++ c :: rest := by
      rw [← hdrop, List.take_append_drop]
    have htake : (s.toList.take errorEchoLimit).length = errorEchoLimit := by
      rw [List.length_take]
      omega
    rw [forError_of_lt hlong]
    generalize s.toList.take errorEchoLimit = cs at hsplit htake ⊢
    have hs : s = String.ofList (cs ++ c :: rest) := by
      rw [← hsplit, String.ofList_toList]
    rw [hsplit, charIndices_append, List.getElem?_append_right (by simp [htake])]
    simp only [length_charIndices, htake, Nat.sub_self, charIndices, List.getElem?_cons_zero,
      Nat.zero_add]
    rw [hs, sliceTo_append]
    rfl
  · rw [List.getElem?_eq_none (by simpa using hlong), forError_of_le (by omega)]

/-- What `for_error` leaves as it is: what is short, and what is cut already. -/
theorem forError_eq_self_iff (s : String) :
    forError s = s ↔
      s.toList.length ≤ errorEchoLimit ∨
        ∃ shown, shown.toList.length = errorEchoLimit ∧ s = shown ++ "..." := by
  constructor
  · intro h
    by_cases hlong : errorEchoLimit < s.toList.length
    · rw [forError_of_lt hlong] at h
      refine Or.inr ⟨_, ?_, h.symm⟩
      rw [String.toList_ofList, List.length_take]
      omega
    · exact Or.inl (by omega)
  · rintro (hle | ⟨shown, hlength, rfl⟩)
    · exact forError_of_le hle
    · have hlong : errorEchoLimit < (shown ++ "...").toList.length := by
        rw [String.toList_append, List.length_append, hlength]
        exact Nat.lt_add_of_pos_right (by decide)
      rw [forError_of_lt hlong, String.toList_append, List.take_left' hlength,
        String.ofList_toList]

theorem composed_forError (s : String) :
    Composed 2 (forError s) := by
  by_cases hlong : errorEchoLimit < s.toList.length
  · refine ⟨[.echo (String.ofList (s.toList.take errorEchoLimit)), .words "..."], ?_, ?_, ?_, ?_⟩
    · simp [forError_of_lt hlong, compose, Fragment.text]
    · simp
    · simp [Fragment.Fine, wording]
    · simp [Fragment.echoed]
  · refine ⟨[.echo s], ?_, ?_, ?_, ?_⟩
    · rw [forError_of_le (by omega)]
      simp [compose, Fragment.text]
    · simp
    · simp [Fragment.Fine]
    · simpa [Fragment.echoed] using hlong

theorem composed_forError_toString {n : Nat} (hn : n ≤ usizeMax) :
    Composed 2 (forError (toString n)) := by
  have hdigits := length_toString_le hn
  have hshort : (toString n).toList.length ≤ errorEchoLimit := by
    simp only [errorEchoLimit]
    omega
  rw [forError_of_le hshort]
  have h := composed_of_own [.number n] (by simpa [Fragment.Fine] using hn)
    (by simp [Fragment.echoed])
  simp only [compose, Fragment.text, String.append_empty] at h
  exact h.mono (by simp)

end ForError

section Reasons

variable {R : Type} {t : FramedTransport R}

theorem maxLen_le_usizeMax (maxLen : Usize) : maxLen.val ≤ usizeMax := by
  have := maxLen.isLt
  simp only [usizeMax]
  omega

theorem composed_tooLarge {what shown : String} (hwhat : what ∈ wording)
    (hshown : Composed 2 (forError shown)) :
    Composed 7 (tooLarge t what shown) := by
  have h := hshown.between [.words what, .words " "]
    [.words " exceeds maximum of ", .number t.maxLen.val, .words " bytes"]
    (by simpa [Fragment.Fine, wording] using hwhat)
    (by simp [Fragment.Fine, wording, maxLen_le_usizeMax]) (by simp [Fragment.echoed])
  simp only [compose, Fragment.text, String.append_assoc, String.append_empty] at h
  simp only [tooLarge, String.append_assoc]
  exact h

/-- Whatever is wrong with a declared length is said with one echo. -/
theorem composed_declaredLength {value reason : String}
    (h : declaredLength t value = .error reason) :
    Composed 7 reason := by
  have hlarge : Composed 7 (tooLarge t "Content-Length" value) :=
    composed_tooLarge (by simp [wording]) (composed_forError value)
  unfold declaredLength at h
  split at h
  · cases h
    have hown := composed_of_own [.words "Content-Length header has an empty value"]
      (by simp [Fragment.Fine, wording]) (by simp [Fragment.echoed])
    simp only [compose, Fragment.text, String.append_empty] at hown
    exact hown.mono (by simp)
  · split at h
    · cases h
      have hvalue := (composed_forError value).between
        [.words "Content-Length value "] [.words " is not a byte count"]
        (by simp [Fragment.Fine, wording]) (by simp [Fragment.Fine, wording])
        (by simp [Fragment.echoed])
      simp only [compose, Fragment.text, String.append_assoc, String.append_empty] at hvalue
      simp only [String.append_assoc]
      exact hvalue.mono (by simp)
    · split at h
      · split at h
        · cases h
          exact hlarge
        · cases h
      · cases h
        exact hlarge

theorem composed_expected (first : String) :
    Composed 7 s!"expected a Content-Length header, got: {forError first}" := by
  have h := (composed_forError first).between
    [.words "expected a Content-Length header, got: "] [] (by simp [Fragment.Fine, wording])
    (by simp) (by simp [Fragment.echoed])
  simp only [compose, Fragment.text, String.append_empty] at h
  exact h.mono (by simp)

theorem composed_headerLines :
    Composed 7 s!"frame declares more than {maxHeaderLines} header lines" := by
  have h := composed_of_own
    [.words "frame declares more than ", .number maxHeaderLines, .words " header lines"]
    (by simp [Fragment.Fine, wording, maxHeaderLines, usizeMax]) (by simp [Fragment.echoed])
  simp only [compose, Fragment.text, String.append_empty] at h
  simp only [String.append_assoc]
  exact h.mono (by simp)

/-- The length that the peer declared is an echo of its own. -/
theorem composed_shortBody {received declared : Nat} (hreceived : received ≤ usizeMax)
    (hdeclared : declared ≤ usizeMax) :
    Composed 7 s!"frame body ended after {received} of {declared} declared bytes" := by
  have hdigits := length_toString_le hdeclared
  refine ⟨[.words "frame body ended after ", .number received, .words " of ",
    .echo (toString declared), .words " declared bytes"], ?_, by simp, ?_, ?_⟩
  · simp only [compose, Fragment.text, String.append_empty, String.append_assoc]
    rfl
  · simp [Fragment.Fine, wording, hreceived]
  · simp only [List.map_cons, List.map_nil, List.sum_cons, List.sum_nil, Fragment.echoed,
      errorEchoLimit]
    omega

/-- A sequence that is whole is there in full; of one that is not, three bytes at most
are invalid. -/
theorem sequenceWidth_spec (bytes : List UInt8) :
    (∀ width, sequenceWidth bytes = .ok width → width ≤ bytes.length) ∧
    (∀ n, sequenceWidth bytes = .error (some n) → n ≤ 3) := by
  fun_cases sequenceWidth bytes with
  | case1 => simp
  | _ => simp

/-- Where bytes stop being UTF-8 is within them. -/
theorem utf8Error_spec (fuel index : Nat) (bytes : List UInt8) :
    (utf8Error fuel index bytes).validUpTo ≤ index + bytes.length ∧
    ∀ n, (utf8Error fuel index bytes).errorLen = some n → n ≤ 3 := by
  induction fuel generalizing index bytes with
  | zero =>
      simp [utf8Error]
  | succ fuel ih =>
      obtain ⟨hwidth, hlen⟩ := sequenceWidth_spec bytes
      simp only [utf8Error]
      cases hsequence : sequenceWidth bytes with
      | ok width =>
          obtain ⟨hindex, herror⟩ := ih (index + width) (bytes.drop width)
          have hle := hwidth width hsequence
          refine ⟨?_, herror⟩
          rw [List.length_drop] at hindex
          simp only
          omega
      | error len =>
          refine ⟨Nat.le_add_right _ _, ?_⟩
          rintro n rfl
          exact hlen n hsequence

/-- The reason why bytes are no text. -/
theorem composed_decodeText {bytes : List UInt8} {reason : String}
    (hbytes : bytes.length ≤ usizeMax)
    (h : decodeText bytes = .err (invalidMessage reason)) :
    Composed 7 reason := by
  unfold decodeText at h
  cases hutf8 : fromUtf8 bytes with
  | ok text =>
      simp [hutf8] at h
  | error e =>
      have hspec := utf8Error_spec bytes.length 0 bytes
      have he : e = utf8Error bytes.length 0 bytes := by
        unfold fromUtf8 at hutf8
        split at hutf8
        · cases hutf8
        · cases hutf8
          rfl
      rw [← he] at hspec
      obtain ⟨validUpTo, errorLen⟩ := e
      obtain ⟨hindex, hlen⟩ := hspec
      simp only [hutf8, Outcome.err.injEq, invalidMessage, Error.transport.injEq,
        TransportError.invalidMessage.injEq] at h
      simp only at hindex hlen
      subst h
      have hindex' : validUpTo ≤ usizeMax := by omega
      cases errorLen with
      | none =>
          have hown := composed_of_own
            [.words "invalid UTF-8: ", .words "incomplete utf-8 byte sequence from index ",
              .number validUpTo]
            (by simp [Fragment.Fine, wording, hindex']) (by simp [Fragment.echoed])
          simp only [compose, Fragment.text, String.append_empty] at hown
          simp only [Utf8Error.display]
          exact hown.mono (by simp)
      | some n =>
          have hthree := hlen n rfl
          have hn : n ≤ usizeMax := by
            simp only [usizeMax]
            omega
          have hown := composed_of_own
            [.words "invalid UTF-8: ", .words "invalid utf-8 sequence of ", .number n,
              .words " bytes from index ", .number validUpTo]
            (by simp [Fragment.Fine, wording, hindex', hn]) (by simp [Fragment.echoed])
          simp only [compose, Fragment.text, String.append_empty] at hown
          simp only [Utf8Error.display, String.append_assoc]
          exact hown.mono (by simp)

/-- Why a frame was abandoned. -/
theorem composed_abandoned {reason : String} (h : Composed 7 reason) :
    Composed 10
      s!"frame abandoned before its body was consumed: {(invalidMessage reason).display}" := by
  have habandoned := h.between
    [.words "frame abandoned before its body was consumed: ", .words "transport error: ",
      .words "invalid message: "] [] (by simp [Fragment.Fine, wording]) (by simp)
    (by simp [Fragment.echoed])
  simp only [compose, Fragment.text, String.append_empty, String.append_assoc] at habandoned
  have hdisplay : s!"{(invalidMessage reason).display}" =
      "transport error: " ++ ("invalid message: " ++ reason) := by
    rfl
  rw [hdisplay]
  exact habandoned.mono (by simp)

/-- A later read quotes the first reason once. -/
theorem composed_desyncReason {reason : String} (h : Composed 10 reason) :
    Composed 12 (desyncReason reason) := by
  have hquoted := h.between
    [.words "transport desynchronised by an earlier framing violation ("]
    [.words ") and cannot be resynchronised"] (by simp [Fragment.Fine, wording])
    (by simp [Fragment.Fine, wording]) (by simp [Fragment.echoed])
  simp only [compose, Fragment.text, String.append_empty, String.append_assoc] at hquoted
  have htext : desyncReason reason =
      "transport desynchronised by an earlier framing violation (" ++ reason ++
        ") and cannot be resynchronised" := by
    rfl
  rw [htext, String.append_assoc]
  exact hquoted.mono (by simp)

end Reasons

section Calls

variable {size : Nat} {t : FramedTransport Stream}

/-- Nothing fails on the stream, and its cap is one that reading comes to. -/
structure Flows (t : FramedTransport Stream) : Prop where
  cap : t.maxLen.val < usizeMax
  items : ∃ rest : List UInt8, t.reader.items = rest.map .byte

/-- What a call says and records of a stream that flows: texts that are composed of so
many fragments. -/
structure Reports {α : Type} (size : Nat) (call : Outcome α × FramedTransport Stream) :
    Prop where
  flows : Flows call.2
  sync : ∀ value, call.1 = .ok value → call.2.desync = none
  said : ∀ err, call.1 = .err err →
    err = .transport .connectionClosed ∨ ∃ reason, err = invalidMessage reason ∧
      Composed size reason
  recorded : ∀ reason, call.2.desync = some reason → Composed size reason

theorem Flows.advance (h : Flows t) (taken rest : List UInt8) :
    Flows (advance t taken (rest.map .byte)) :=
  ⟨h.cap, rest, rfl⟩

theorem Reports.mono {α : Type} {size' : Nat} {call : Outcome α × FramedTransport Stream}
    (h : Reports size call) (hle : size ≤ size') :
    Reports size' call where
  flows := h.flows
  sync := h.sync
  said err herr := by
    rcases h.said err herr with hclosed | ⟨reason, hreason, hcomposed⟩
    · exact .inl hclosed
    · exact .inr ⟨reason, hreason, hcomposed.mono hle⟩
  recorded reason hreason := (h.recorded reason hreason).mono hle

theorem reports_running {α : Type} (h : Flows t) (hsync : t.desync = none) :
    Reports (α := α) size (.running, t) :=
  ⟨h, fun _ _ => hsync, by simp, by simp [hsync]⟩

theorem reports_ok {α : Type} (value : α) (h : Flows t) (hsync : t.desync = none) :
    Reports size (.ok value, t) :=
  ⟨h, fun _ _ => hsync, by simp, by simp [hsync]⟩

theorem reports_closed {α : Type} (h : Flows t) (hsync : t.desync = none) :
    Reports (α := α) size (.err (.transport .connectionClosed), t) :=
  ⟨h, by simp, by simp, by simp [hsync]⟩

theorem reports_invalid {α : Type} (h : Flows t) {reason : String}
    (hreason : Composed size reason)
    (hrecorded : ∀ reason, t.desync = some reason → Composed size reason) :
    Reports (α := α) size (.err (invalidMessage reason), t) where
  flows := h
  sync := by simp
  said := by
    rintro _ ⟨⟩
    exact .inr ⟨reason, rfl, hreason⟩
  recorded := hrecorded

theorem reports_desyncError {α : Type} (h : Flows t) (hsync : t.desync = none) {reason : String}
    (hreason : Composed size reason) :
    Reports (α := α) size (desyncError t reason) := by
  have hfirst : t.desync.getD reason = reason := by
    rw [hsync, Option.getD_none]
  have hflows : Flows (poison t reason) := ⟨h.cap, h.items⟩
  have hrecorded : ∀ first, (poison t reason).desync = some first → Composed size first := by
    simp only [poison, hfirst]
    rintro _ ⟨⟩
    exact hreason
  rw [desyncError, hfirst]
  exact reports_invalid hflows hreason hrecorded

theorem Reports.andThen {α β : Type} {call : Outcome α × FramedTransport Stream}
    {k : α → FramedTransport Stream → Outcome β × FramedTransport Stream}
    (h : Reports size call)
    (hk : ∀ value t, call = (.ok value, t) → Flows t → t.desync = none →
      Reports size (k value t)) :
    Reports size (andThen call k) := by
  obtain ⟨outcome, t⟩ := call
  obtain ⟨hflows, hsync, hsaid, hrecorded⟩ := h
  cases outcome with
  | ok value =>
      exact hk value t rfl hflows (hsync value rfl)
  | err err =>
      exact ⟨hflows, by simp [Transport.andThen], by simpa [Transport.andThen] using hsaid,
        hrecorded⟩
  | running =>
      exact ⟨hflows, by simp [Transport.andThen], by simp [Transport.andThen], hrecorded⟩

/-- Bytes that were consumed in full, decoded. -/
theorem reports_decodeText (h : Flows t) (hsync : t.desync = none) {bytes : List UInt8}
    (hle : bytes.length ≤ t.maxLen.val) :
    Reports 7 (decodeText bytes, t) := by
  cases htext : decodeUtf8 bytes with
  | some text =>
      rw [decodeText_of_some htext]
      exact reports_ok text h hsync
  | none =>
      obtain ⟨reason, herr⟩ := decodeText_of_none htext
      have hcomposed := composed_decodeText (hle.trans (Nat.le_of_lt h.cap)) herr
      rw [herr]
      exact reports_invalid h hcomposed (by simp [hsync])

/-- A scan of bytes does not fail, and leaves bytes. -/
theorem scanLine_flows (maxLen : Nat) (closed : Bool) (seen : Nat) (bytes : List UInt8) :
    (∀ err, (scanLine maxLen closed seen (bytes.map .byte)).1 ≠ .failed err) ∧
    ∃ rest : List UInt8,
      (scanLine maxLen closed seen (bytes.map .byte)).2.2 = rest.map .byte := by
  induction bytes generalizing seen with
  | nil =>
      refine ⟨?_, [], rfl⟩
      intro err
      cases closed with
      | true =>
          simp [scanLine]
      | false =>
          simp [scanLine]
  | cons b bytes ih =>
      simp only [List.map_cons, scanLine]
      split
      · exact ⟨by simp, bytes, rfl⟩
      · split
        · exact ⟨by simp, bytes, rfl⟩
        · exact ih (seen + 1)

theorem scanBody_flows (closed : Bool) (n : Nat) (bytes : List UInt8) :
    (∀ err, (scanBody closed n (bytes.map .byte)).1 ≠ .failed err) ∧
    ∃ rest : List UInt8, (scanBody closed n (bytes.map .byte)).2.2 = rest.map .byte := by
  induction n generalizing bytes with
  | zero =>
      exact ⟨by simp [scanBody], bytes, rfl⟩
  | succ n ih =>
      cases bytes with
      | nil =>
          refine ⟨?_, [], rfl⟩
          intro err
          cases closed with
          | true =>
              simp [scanBody]
          | false =>
              simp [scanBody]
      | cons b bytes =>
          exact ih bytes

/-- The check after the loop of `read_line`, and the decoding. -/
theorem reports_checked (h : Flows t) (hsync : t.desync = none) {line : List UInt8}
    (hle : line.length ≤ t.maxLen.val + 1) :
    Reports 7 (Transport.andThen (checkLen t line.length "line length") fun _ t =>
      (decodeText line, t)) := by
  have hsize : line.length ≤ usizeMax := hle.trans h.cap
  unfold checkLen
  split
  · exact (reports_desyncError h hsync (composed_tooLarge (by simp [wording])
      (composed_forError_toString hsize))).andThen (by simp [desyncError])
  · exact reports_decodeText h hsync (by omega)

theorem readLine_reports (h : Flows t) (hsync : t.desync = none) :
    Reports 7 (readLine t) := by
  obtain ⟨bytes, hbytes⟩ := h.items
  have hscan := takes_scanLine t.reader.closed t.reader.items (Nat.zero_le t.maxLen.val)
  obtain ⟨hfailed, rest, hrest⟩ := scanLine_flows t.maxLen.val t.reader.closed 0 bytes
  rw [readLine_eq h.cap]
  simp only [lineOutcome, List.length_nil]
  rw [← hbytes] at hfailed hrest
  generalize scanLine t.maxLen.val t.reader.closed 0 t.reader.items = scan at hscan hfailed hrest ⊢
  obtain ⟨lineEnd, taken, items⟩ := scan
  simp only at hfailed hrest
  subst hrest
  have hlength : taken.length ≤ t.maxLen.val + 1 := by
    simpa using hscan.length
  have hflows := h.advance taken rest
  cases lineEnd with
  | newline =>
      exact reports_checked hflows hsync hlength
  | eof =>
      simp only [lineEndOutcome, List.nil_append]
      split
      · exact reports_closed hflows hsync
      · exact reports_checked hflows hsync hlength
  | overlong =>
      have hsize : taken.length ≤ usizeMax := hlength.trans h.cap
      exact (reports_desyncError hflows hsync (composed_tooLarge (by simp [wording])
        (composed_forError_toString hsize))).andThen (by simp [desyncError])
  | failed err =>
      exact absurd rfl (hfailed err)
  | waiting =>
      exact reports_running hflows hsync

/-- A line of a frame that cannot be read has the frame abandoned, once. -/
theorem readFrameLine_reports (h : Flows t) (hsync : t.desync = none) :
    Reports 10 (readFrameLine t) := by
  have hline := readLine_reports h hsync
  unfold readFrameLine
  generalize readLine t = left at hline
  obtain ⟨outcome, u⟩ := left
  cases outcome with
  | ok line =>
      exact hline.mono (by omega)
  | running =>
      exact hline.mono (by omega)
  | err err =>
      rcases hline.said err rfl with rfl | ⟨reason, rfl, hcomposed⟩
      · exact hline.mono (by omega)
      · -- an overlong line has recorded its reason already, an undecodable one has not
        have hopen : isConnectionClosed (invalidMessage reason) = false := by
          rfl
        have habandoned := composed_abandoned hcomposed
        simp only [hopen, Bool.false_eq_true, if_false]
        generalize
          s!"frame abandoned before its body was consumed: {(invalidMessage reason).display}" =
            abandoned at habandoned ⊢
        have hflows : Flows (poison u abandoned) := ⟨hline.flows.cap, hline.flows.items⟩
        refine reports_invalid hflows (hcomposed.mono (by omega)) ?_
        rintro _ ⟨⟩
        cases hdesync : u.desync with
        | none =>
            exact habandoned
        | some first =>
            exact (hline.recorded first hdesync).mono (by omega)

/-- One iteration of the header loop. -/
theorem readHeadersBody_reports {lines : Nat} (h : Flows t) (hsync : t.desync = none) :
    (∀ left, readHeadersBody (lines, t) = .leave left → Reports 10 left) ∧
    (∀ s', readHeadersBody (lines, t) = .next s' → Flows s'.2 ∧ s'.2.desync = none) := by
  have hline := readFrameLine_reports h hsync
  unfold readHeadersBody
  simp only
  generalize readFrameLine t = left at hline
  obtain ⟨outcome, u⟩ := left
  cases outcome with
  | ok line =>
      have hsync' := hline.sync line rfl
      simp only
      split
      · refine ⟨?_, by simp⟩
        rintro _ ⟨⟩
        exact reports_ok () hline.flows hsync'
      · split
        · refine ⟨?_, by simp⟩
          rintro _ ⟨⟩
          exact reports_desyncError hline.flows hsync' (composed_headerLines.mono (by omega))
        · refine ⟨by simp, ?_⟩
          rintro _ ⟨⟩
          exact ⟨hline.flows, hsync'⟩
  | err err =>
      refine ⟨?_, by simp⟩
      rintro _ ⟨⟩
      exact ⟨hline.flows, by simp, by simpa using hline.said, hline.recorded⟩
  | running =>
      refine ⟨?_, by simp⟩
      rintro _ ⟨⟩
      exact ⟨hline.flows, by simp, by simp, hline.recorded⟩

theorem readHeaders_reports (h : Flows t) (hsync : t.desync = none) :
    Reports 10 (readHeaders t) := by
  rw [readHeaders_eq_getD]
  cases hrun : Loop.run readHeadersBody (fuel t) (1, t) with
  | none =>
      exact reports_running h hsync
  | some left =>
      exact Loop.run_invariant (fun s => Flows s.2 ∧ s.2.desync = none) (Reports 10)
        (fun s s' hs hbody => (readHeadersBody_reports hs.1 hs.2).2 s' hbody)
        (fun s left hs hbody => (readHeadersBody_reports hs.1 hs.2).1 left hbody)
        (s := (1, t)) ⟨h, hsync⟩ hrun

theorem readFrameBody_reports {n : Nat} (h : Flows t) (hsync : t.desync = none)
    (hn : n ≤ t.maxLen.val) :
    Reports 7 (readFrameBody n t) := by
  obtain ⟨bytes, hbytes⟩ := h.items
  have hle := (takes_scanBody t.reader.closed n t.reader.items).1
  obtain ⟨hfailed, rest, hrest⟩ := scanBody_flows t.reader.closed n bytes
  rw [← hbytes] at hfailed hrest
  simp only [readFrameBody, LineReader.collectBody]
  generalize scanBody t.reader.closed n t.reader.items = scan at hle hfailed hrest ⊢
  obtain ⟨bodyEnd, body, items⟩ := scan
  simp only at hle hfailed hrest
  subst hrest
  have hcap := h.cap
  have hflows := h.advance body rest
  cases bodyEnd with
  | done =>
      simp only
      split
      · exact reports_desyncError hflows hsync (composed_shortBody (by omega) (by omega))
      · exact reports_decodeText hflows hsync (hle.trans hn)
  | failed err =>
      exact absurd rfl (hfailed err)
  | waiting =>
      exact reports_running hflows hsync

theorem readContentLength_reports (first : String) (h : Flows t) (hsync : t.desync = none) :
    Reports 10 (readContentLength first t) := by
  unfold readContentLength
  cases contentLengthValue first with
  | none =>
      exact reports_desyncError h hsync ((composed_expected first).mono (by omega))
  | some value =>
      rw [Option.map_some]
      cases hlength : declaredLength t value with
      | error reason =>
          exact reports_desyncError h hsync ((composed_declaredLength hlength).mono (by omega))
      | ok n =>
          have hn := declaredValue_le (declaredValue_of_declaredLength hlength)
          have hkept := kept_readHeaders t
          refine (readHeaders_reports h hsync).andThen ?_
          intro _ u hread hflows hsync'
          rw [hread] at hkept
          have hmax : u.maxLen = t.maxLen := hkept.maxLen
          exact (readFrameBody_reports hflows hsync' (by rw [hmax]; exact hn)).mono (by omega)

/-- One iteration of `read_auto`. -/
theorem readAutoBody_reports (h : Flows t) (hsync : t.desync = none) :
    (∀ left, readAutoBody t = .leave left → Reports 10 left) ∧
    (∀ t', readAutoBody t = .next t' → Flows t' ∧ t'.desync = none) := by
  have hline := (readLine_reports h hsync).mono (show 7 ≤ 10 by omega)
  unfold readAutoBody
  generalize readLine t = left at hline
  obtain ⟨outcome, u⟩ := left
  cases outcome with
  | ok line =>
      have hsync' := hline.sync line rfl
      have hflows : ∀ framing, Flows { u with framing } :=
        fun _ => ⟨hline.flows.cap, hline.flows.items⟩
      simp only
      split
      · refine ⟨by simp, ?_⟩
        rintro _ ⟨⟩
        exact ⟨hline.flows, hsync'⟩
      · split
        · have hframe := readContentLength_reports (trimCrlf line) (hflows .contentLength) hsync'
          generalize readContentLength (trimCrlf line)
            { u with framing := .contentLength } = left at hframe ⊢
          refine ⟨?_, by simp⟩
          rintro _ ⟨⟩
          exact hframe
        · refine ⟨?_, by simp⟩
          rintro _ ⟨⟩
          exact reports_ok _ (hflows _) hsync'
  | err err =>
      refine ⟨?_, by simp⟩
      rintro _ ⟨⟩
      exact hline
  | running =>
      refine ⟨?_, by simp⟩
      rintro _ ⟨⟩
      exact hline

theorem readAuto_reports (h : Flows t) (hsync : t.desync = none) :
    Reports 10 (readAuto t) := by
  rw [readAuto_eq_getD]
  cases hrun : Loop.run readAutoBody (fuel t) t with
  | none =>
      exact reports_running h hsync
  | some left =>
      exact Loop.run_invariant (fun t => Flows t ∧ t.desync = none) (Reports 10)
        (fun t t' hs hbody => (readAutoBody_reports hs.1 hs.2).2 t' hbody)
        (fun t left hs hbody => (readAutoBody_reports hs.1 hs.2).1 left hbody)
        ⟨h, hsync⟩ hrun

/-- A read of a transport that is synchronised. -/
theorem readMessage_reports (h : Flows t) (hsync : t.desync = none) :
    Reports 10 (readMessage t) := by
  simp only [readMessage, hsync]
  cases t.framing with
  | auto =>
      exact readAuto_reports h hsync
  | newline =>
      rw [readNewline]
      refine ((readLine_reports h hsync).mono (by omega)).andThen ?_
      intro line u _ hflows hsync'
      exact reports_ok _ hflows hsync'
  | contentLength =>
      refine (readFrameLine_reports h hsync).andThen ?_
      intro first u _ hflows hsync'
      exact readContentLength_reports first hflows hsync'

end Calls

section Bounded

/-- What a transport keeps on a stream that flows: the reason it was given up for is the
first one, and quotes no other. -/
structure Quotes (t : FramedTransport Stream) : Prop where
  flows : Flows t
  recorded : ∀ reason, t.desync = some reason → Composed 10 reason

/-- A read keeps what a transport quotes, and a read of one that was given up quotes its
reason once. -/
theorem Quotes.readMessage {t : FramedTransport Stream} (h : Quotes t) :
    Quotes (readMessage t).2 ∧
    ∀ reason, (readMessage t).1 = .err (invalidMessage reason) → Composed 12 reason := by
  cases hdesync : t.desync with
  | some first =>
      rw [readMessage_of_desync hdesync]
      refine ⟨h, ?_⟩
      rintro _ ⟨⟩
      exact composed_desyncReason (h.recorded first hdesync)
  | none =>
      have hreports := readMessage_reports h.flows hdesync
      refine ⟨⟨hreports.flows, hreports.recorded⟩, ?_⟩
      intro reason hread
      rcases hreports.said _ hread with hclosed | ⟨reason', hreason, hcomposed⟩
      · cases hclosed
      · cases hreason
        exact hcomposed.mono (by omega)

theorem Quotes.reads {t : FramedTransport Stream} (h : Quotes t) (n : Nat) :
    ∀ outcome ∈ (reads n t).1, ∀ reason, outcome = .err (invalidMessage reason) →
      Composed 12 reason :=
  Mealy.run_outputs (fun _ => Transport.readMessage) Quotes
    (fun outcome => ∀ reason, outcome = .err (invalidMessage reason) → Composed 12 reason)
    (fun _ _ h => h.readMessage) (List.replicate n ()) h

/-- The most bytes an error text has. -/
def maxErrorText : Nat := 12 * maxFragment

/--
Error texts are bounded.  `for_error` never slices within a character; it leaves a text
of at most `errorEchoLimit` characters as it is, and of a longer one its first
characters and the marker, which is the text itself only if it was cut so before.  And
whatever bytes a stream delivers, in whatever chunks and whether or not it ends, in
whatever framing and however often it is read: each `InvalidMessage` echoes at most
`errorEchoLimit` characters of the peer's, and its length has one bound.
-/
theorem error_texts_bounded :
    (∀ s, forErrorSlice s = some (forError s) ∧
      (s.toList.length ≤ errorEchoLimit → forError s = s) ∧
      (errorEchoLimit < s.toList.length →
        forError s = String.ofList (s.toList.take errorEchoLimit) ++ "...") ∧
      (forError s = s ↔ s.toList.length ≤ errorEchoLimit ∨
        ∃ shown, shown.toList.length = errorEchoLimit ∧ s = shown ++ "...")) ∧
    ∀ (reader : Reader) (bytes : List UInt8), reader.items = bytes.map .byte →
      ∀ (writer : Writer) (framing : Framing) (maxLen : Usize), maxLen.val < usizeMax →
      ∀ (n : Nat) (reason : String),
        .err (invalidMessage reason) ∈ (reads n ⟨reader, writer, framing, maxLen, none⟩).1 →
        Composed 12 reason ∧ (asBytes reason).length ≤ maxErrorText := by
  refine ⟨fun s => ⟨forErrorSlice_eq s, forError_of_le, forError_of_lt, forError_eq_self_iff s⟩,
    ?_⟩
  intro reader bytes hitems writer framing maxLen hcap n reason hmem
  have hquotes : Quotes (FramedTransport.mapReader Reader.unchunked
      ⟨reader, writer, framing, maxLen, none⟩) :=
    ⟨⟨hcap, bytes, hitems⟩, by simp [FramedTransport.mapReader]⟩
  have hreads := hquotes.reads n
  rw [reads_unchunked] at hreads
  have hcomposed := hreads _ hmem reason rfl
  exact ⟨hcomposed, hcomposed.length_le⟩

/-- A line that opens no frame, and the second read, which quotes it. -/
theorem error_texts_bounded_of_bad_opening :
    let line := asBytes "é\n"
    let reason := "expected a Content-Length header, got: é\n"
    let t : FramedTransport Reader :=
      ⟨.new [.chunk line (by decide)] false, .reliable, .contentLength, 8, none⟩
    .err (invalidMessage (desyncReason reason)) ∈ (reads 2 t).1 ∧
      Composed 12 (desyncReason reason) ∧
      (asBytes (desyncReason reason)).length ≤ maxErrorText := by
  intro line reason t
  have hmem : .err (invalidMessage (desyncReason reason)) ∈ (reads 2 t).1 := by
    decide +kernel
  exact ⟨hmem, error_texts_bounded.2 _ line rfl .reliable .contentLength 8 (by decide) 2 _ hmem⟩

/-- A text that was cut before is left as it is, though it is longer than the limit. -/
theorem not_forError_eq_self_iff_le :
    ¬ ∀ s, forError s = s ↔ s.toList.length ≤ errorEchoLimit := by
  intro h
  have hcut : forError (String.ofList (List.replicate 64 'a') ++ "...") =
      String.ofList (List.replicate 64 'a') ++ "..." :=
    (forError_eq_self_iff _).mpr (.inr ⟨_, by decide, rfl⟩)
  exact absurd ((h _).mp hcut) (by decide)

end Bounded

end Transport
end McpCore
