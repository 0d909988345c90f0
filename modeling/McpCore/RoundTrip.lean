import McpCore.Decoding
import McpCore.Kept

/-!
# Messages survive being written and read

What `write_message` sends in either framing, the reference decoder decodes back
to the messages, in order and with nothing left over: the header it sends is
recognised, declares the length of the body and fits the cap, and a line it
sends ends where the next one starts.

`reads_of_writes` carries this over to transports, in any chunks.
-/

namespace McpCore
namespace Transport

open Text

section Header

/-- The header line `write_message` sends for a body of `n` bytes. -/
def headerLine (n : Nat) : String :=
  s!"Content-Length: {n}\r\n"

/-- Its text without the end of the line. -/
def headerText (n : Nat) : String :=
  s!"Content-Length: {n}"

theorem toList_headerText (n : Nat) :
    (headerText n).toList = "Content-Length: ".toList ++ Nat.toDigits 10 n := by
  have htext : headerText n = "Content-Length: " ++ n.repr := by
    rfl
  rw [htext, String.toList_append, Nat.toList_repr]

theorem headerLine_eq (n : Nat) :
    headerLine n = headerText n ++ "\r\n" := by
  rfl

theorem isDigit_not_special {c : Char} (h : c.isDigit = true) :
    isWhitespace c = false ∧ (c == '\r' || c == '\n') = false := by
  have hdigit : 48 ≤ c.toNat ∧ c.toNat ≤ 57 := by
    simpa [Char.isDigit, UInt32.le_iff_toNat_le] using h
  constructor
  · simp only [isWhitespace, Bool.or_eq_false_iff, Bool.and_eq_false_iff, decide_eq_false_iff_not,
      beq_eq_false_iff_ne]
    omega
  · simp only [Bool.or_eq_false_iff, beq_eq_false_iff_ne, ne_eq]
    constructor
    · rintro rfl
      simp at hdigit
    · rintro rfl
      simp at hdigit

theorem isDigit_toDigits (n : Nat) :
    ∀ c ∈ Nat.toDigits 10 n, c.isDigit = true :=
  fun _ hc => Nat.isDigit_of_mem_toDigits (by decide) (by decide) hc

/-- Nothing is trimmed from the end of text that ends in the digits of `n`. -/
theorem rdropWhile_append_toDigits
    {p : Char → Bool} (hp : ∀ c : Char, c.isDigit = true → p c = false)
    (before : List Char) (n : Nat) :
    (before ++ Nat.toDigits 10 n).rdropWhile p = before ++ Nat.toDigits 10 n := by
  rw [List.rdropWhile_eq_self_iff]
  intro hne
  rw [List.getLast_append_of_ne_nil _ Nat.toDigits_ne_nil]
  rw [hp _ (isDigit_toDigits n _ (List.getLast_mem _))]
  simp

theorem trimCrlf_headerLine (n : Nat) :
    trimCrlf (headerLine n) = headerText n := by
  have hend : "\r\n".toList = ['\r'] ++ ['\n'] := by
    decide
  rw [← String.toList_inj, headerLine_eq, trimCrlf, toList_trimEndMatches, String.toList_append,
    toList_headerText, hend, ← List.append_assoc, List.rdropWhile_concat_pos _ _ _ (by rfl),
    List.rdropWhile_concat_pos _ _ _ (by rfl)]
  exact rdropWhile_append_toDigits (fun c hc => (isDigit_not_special hc).2) _ n

theorem trim_headerText (n : Nat) :
    trim (headerText n) = headerText n := by
  have hfront : (headerText n).toList.dropWhile isWhitespace = (headerText n).toList := by
    rw [toList_headerText]
    rfl
  rw [trim, hfront, toList_headerText,
    rdropWhile_append_toDigits (fun c hc => (isDigit_not_special hc).1), ← toList_headerText,
    String.ofList_toList]

theorem splitOnce_headerText (n : Nat) :
    splitOnce (headerText n) ':' =
      some ("Content-Length", String.ofList (' ' :: Nat.toDigits 10 n)) := by
  have hmem : ':' ∈ (headerText n).toList := by
    rw [toList_headerText]
    simp
  rw [splitOnce, if_pos hmem, toList_headerText]
  rfl

theorem trim_digits (n : Nat) :
    trim (String.ofList (' ' :: Nat.toDigits 10 n)) = toString n := by
  have hfront : (' ' :: Nat.toDigits 10 n).dropWhile isWhitespace = Nat.toDigits 10 n := by
    obtain ⟨d, ds, hd⟩ := List.exists_cons_of_ne_nil (Nat.toDigits_ne_nil (n := n) (b := 10))
    have hdigit := (isDigit_not_special (isDigit_toDigits n d (by simp [hd]))).1
    rw [List.dropWhile_cons_of_pos (by rfl), hd, List.dropWhile_cons_of_neg (by simp [hdigit])]
  have hback := rdropWhile_append_toDigits
    (fun c hc => (isDigit_not_special hc).1) [] n
  rw [List.nil_append] at hback
  rw [trim, String.toList_ofList, hfront, hback]
  exact Nat.toString_eq_ofList_toDigits.symm

/-- The header is recognised, and says the length. -/
theorem contentLengthValue_headerLine (n : Nat) :
    contentLengthValue (headerLine n) = some (toString n) := by
  have hname : eqIgnoreAsciiCase (trim "Content-Length") "content-length" = true := by
    decide
  simp only [contentLengthValue, trimCrlf_headerLine, trim_headerText, splitOnce_headerText,
    hname, if_true, trim_digits]

theorem declaredValue_toString {maxLen n : Nat} (h : n ≤ maxLen) :
    declaredValue maxLen (toString n) = some n := by
  have hlist : (toString n).toList = Nat.toDigits 10 n :=
    Nat.toList_repr
  have hvalue : Nat.ofDigitChars 10 (Nat.toDigits 10 n) 0 = n :=
    Nat.ofDigitChars_ten_toDigits
  rw [declaredValue, hlist, hvalue,
    if_pos ⟨Nat.toDigits_ne_nil, List.all_eq_true.2 (isDigit_toDigits n), h⟩]

/-- The header fits every cap of at least 20 bytes that its body fits. -/
theorem length_headerLine_le
    {maxLen n : Nat} (hcap : 20 ≤ maxLen) (h : n ≤ maxLen) :
    (asBytes (headerLine n)).length ≤ maxLen := by
  have hdigits : (Nat.toDigits 10 n).length ≤ maxLen - 18 := by
    rw [Nat.length_toDigits_le_iff (by decide) (by omega)]
    by_cases hsmall : n < 10 ^ 2
    · exact Nat.lt_of_lt_of_le hsmall (Nat.pow_le_pow_right (by decide) (by omega))
    · have hexp : maxLen - 18 = maxLen - 19 + 1 := by
        omega
      have hpow : maxLen - 19 < 10 ^ (maxLen - 19) :=
        Nat.lt_pow_self (by decide)
      rw [hexp, Nat.pow_succ]
      omega
  have hbytes : asBytes (headerLine n) =
      asBytes "Content-Length: " ++ asBytes n.repr ++ asBytes "\r\n" := by
    rw [← asBytes_append, ← asBytes_append]
    rfl
  have hrepr : (asBytes n.repr).length = (Nat.toDigits 10 n).length := by
    rw [length_asBytes_of_digits (by rw [Nat.toList_repr]; exact isDigit_toDigits n),
      Nat.toList_repr]
  have hname : (asBytes "Content-Length: ").length = 16 := by
    decide
  have hend : (asBytes "\r\n").length = 2 := by
    decide
  rw [hbytes, List.length_append, List.length_append, hrepr, hname, hend]
  omega

/-- Text that starts with a brace is no header. -/
theorem contentLengthValue_of_brace
    {text : String} (h : text.toList.head? = some '{') :
    contentLengthValue text = none := by
  have htrim : (trim (trimCrlf text)).toList.head? = some '{' := by
    refine head?_trim ?_ (by decide)
    rw [trimCrlf, toList_trimEndMatches]
    exact head?_rdropWhile h (by decide)
  unfold contentLengthValue splitOnce
  generalize trim (trimCrlf text) = line at htrim ⊢
  by_cases hcolon : ':' ∈ line.toList
  · obtain ⟨cs, hcs⟩ := List.head?_eq_some_iff.mp htrim
    have hname : (trim (String.ofList (line.toList.takeWhile (· != ':')))).toList.head? =
        some '{' := by
      refine head?_trim ?_ (by decide)
      rw [String.toList_ofList, hcs, List.takeWhile_cons_of_pos (by decide)]
      rfl
    have hdiffers : eqIgnoreAsciiCase (trim (String.ofList (line.toList.takeWhile (· != ':'))))
        "content-length" = false := by
      obtain ⟨ds, hds⟩ := List.head?_eq_some_iff.mp hname
      rw [eqIgnoreAsciiCase, hds]
      rfl
    simp only [if_pos hcolon, hdiffers, Bool.false_eq_true, if_false]
  · simp only [if_neg hcolon]

end Header

section Decode

variable {maxLen : Nat}

theorem splitLine_append
    {body : List UInt8} (hbody : lineFeed ∉ body) (rest : List UInt8) :
    splitLine (body ++ lineFeed :: rest) = (body ++ [lineFeed], rest) := by
  induction body with
  | nil =>
      simp [splitLine]
  | cons b body ih =>
      have hb : b ≠ lineFeed := fun h => hbody (by simp [h])
      have hrest : lineFeed ∉ body := fun h => hbody (by simp [h])
      simp [splitLine, hb, ih hrest]

/-- A line of text followed by its `'\n'` is split off and decoded. -/
theorem splitLine_text
    {text : String} (htext : '\n' ∉ text.toList) (rest : List UInt8) :
    splitLine (asBytes (text ++ "\n") ++ rest) = (asBytes (text ++ "\n"), rest) := by
  have hbytes : asBytes (text ++ "\n") = asBytes text ++ [lineFeed] := by
    rw [asBytes_append]
    rfl
  rw [hbytes, List.append_assoc, List.singleton_append]
  exact splitLine_append (mt (lineFeed_mem_asBytes text).1 htext) rest

theorem asBytes_concat_ne_nil (text : String) (rest : List UInt8) :
    asBytes (text ++ "\n") ++ rest ≠ [] := by
  have hend : asBytes "\n" = [lineFeed] := by
    rfl
  rw [asBytes_append, hend]
  simp

theorem encode_contentLength (message : String) :
    encode .contentLength message =
      asBytes (headerLine (asBytes message).length) ++
        (asBytes "\r\n" ++ asBytes message) := by
  have hends : "\r\n\r\n" = "\r\n" ++ "\r\n" := by
    decide
  have hheader : encode .contentLength message =
      asBytes (headerText (asBytes message).length ++ "\r\n\r\n") ++ asBytes message := by
    rfl
  rw [hheader, hends, ← String.append_assoc, ← headerLine_eq, asBytes_append, List.append_assoc]

/-- A blank line ends the headers. -/
theorem skipHeaders_blank
    {bytes rest : List UInt8} {text : String} {more : Nat}
    (hsplit : splitLine bytes = (asBytes text, rest)) (hne : bytes ≠ [])
    (hfits : (asBytes text).length ≤ maxLen) (hblank : trimCrlf text = "") :
    skipHeaders maxLen more bytes = .body rest := by
  have hfits' : ¬ maxLen < (splitLine bytes).1.length := by
    rw [hsplit]
    exact Nat.not_lt.mpr hfits
  have hdecoded : decodeUtf8 (splitLine bytes).1 = some text := by
    rw [hsplit]
    exact decodeUtf8_asBytes text
  rw [skipHeaders_of_line hne hfits' hdecoded, if_pos hblank, hsplit]

theorem skipHeaders_crlf
    (hcap : 2 ≤ maxLen) (more : Nat) (rest : List UInt8) :
    skipHeaders maxLen more (asBytes "\r\n" ++ rest) = .body rest := by
  have hsplit := @splitLine_text "\r" (by decide) rest
  exact skipHeaders_blank hsplit (asBytes_concat_ne_nil "\r" rest) hcap (by decide)

/-- What a frame is, when its opening line is a header line within the cap. -/
theorem decodeFrame_of_headerLine
    {n : Nat} (hlen : n ≤ maxLen) (rest : List UInt8) :
    decodeFrame maxLen (headerLine n) rest =
      match skipHeaders maxLen (maxHeaderLines - 1) rest with
      | .refused => refuse
      | .ended => (.connectionClosed, ⟨.contentLength, []⟩)
      | .body rest =>
          if rest.length < n then refuse
          else (decodedText (rest.take n), ⟨.contentLength, rest.drop n⟩) := by
  have hdeclared : (contentLengthValue (headerLine n)).bind (declaredValue maxLen) = some n := by
    rw [contentLengthValue_headerLine, Option.bind_some, declaredValue_toString hlen]
  exact decodeFrame_of_declared hdeclared

theorem decodeFrame_headerLine
    {message : String} (hlen : (asBytes message).length ≤ maxLen) (hcap : 2 ≤ maxLen)
    (rest : List UInt8) :
    decodeFrame maxLen (headerLine (asBytes message).length)
        (asBytes "\r\n" ++ (asBytes message ++ rest)) =
      (.message message, ⟨.contentLength, rest⟩) := by
  have hlong : ¬ (asBytes message ++ rest).length < (asBytes message).length := by
    simp
  rw [decodeFrame_of_headerLine hlen]
  simp only [skipHeaders_crlf hcap, if_neg hlong, List.take_left, List.drop_left, decodedText,
    decodeUtf8_asBytes]

theorem headerLine_not_blank (n : Nat) :
    ¬ (headerLine n).toList.all isWhitespace = true := by
  rw [headerLine_eq, String.toList_append, toList_headerText]
  simp [isWhitespace]

/-- The header line is split off as a line. -/
theorem splitLine_headerLine (n : Nat) (rest : List UInt8) :
    splitLine (asBytes (headerLine n) ++ rest) = (asBytes (headerLine n), rest) := by
  have htext : headerLine n = headerText n ++ "\r" ++ "\n" := by
    rw [headerLine_eq, String.append_assoc]
    rfl
  have hnolf : '\n' ∉ (headerText n ++ "\r").toList := by
    rw [String.toList_append, toList_headerText]
    intro hmem
    simp only [List.mem_append] at hmem
    rcases hmem with (hmem | hmem) | hmem
    · exact absurd hmem (by decide)
    · exact absurd (isDigit_toDigits _ _ hmem) (by decide)
    · exact absurd hmem (by decide)
  rw [htext]
  exact splitLine_text hnolf rest

theorem two_le_length_headerLine (n : Nat) :
    2 ≤ (asBytes (headerLine n)).length := by
  have hend : (asBytes "\r\n").length = 2 := by
    decide
  rw [headerLine_eq, asBytes_append, List.length_append, hend]
  omega

theorem encode_ne_nil (framing : Framing) (message : String) :
    encode framing message ≠ [] := by
  cases framing with
  | contentLength =>
      intro hnil
      rw [encode_contentLength] at hnil
      have hlength := two_le_length_headerLine (asBytes message).length
      rw [(List.append_eq_nil_iff.mp hnil).1] at hlength
      simp at hlength
  | _ =>
      simp [encode]

/-- A header line that fits opens a frame. -/
theorem decode_headerLine
    {n : Nat} (hheader : (asBytes (headerLine n)).length ≤ maxLen)
    {phase : Phase} (hphase : phase = .undecided ∨ phase = .contentLength)
    (rest : List UInt8) :
    decode maxLen ⟨phase, asBytes (headerLine n) ++ rest⟩ =
      decodeFrame maxLen (headerLine n) rest := by
  have hsplit := splitLine_headerLine n rest
  have hne : asBytes (headerLine n) ++ rest ≠ [] := by
    intro hnil
    have hlength := two_le_length_headerLine n
    rw [(List.append_eq_nil_iff.mp hnil).1] at hlength
    simp at hlength
  have hfits : ¬ maxLen < (asBytes (headerLine n)).length := by
    omega
  rcases hphase with rfl | rfl
  · have hblank := headerLine_not_blank n
    have hsome : (contentLengthValue (headerLine n)).isSome = true := by
      rw [contentLengthValue_headerLine]
      rfl
    simp only [decode]
    rw [decodeUndecided, dif_neg hne, hsplit, if_neg hfits]
    simp only [decodeUtf8_asBytes, if_neg hblank, if_pos hsome]
  · simp only [decode, decodeContentLength]
    rw [if_neg hne, hsplit, if_neg hfits]
    simp only [decodeUtf8_asBytes]

/-- A frame as it is written is decoded to its message. -/
theorem decode_frame
    {message : String} (hlen : (asBytes message).length ≤ maxLen)
    (hheader : (asBytes (headerLine (asBytes message).length)).length ≤ maxLen)
    {phase : Phase} (hphase : phase = .undecided ∨ phase = .contentLength)
    (rest : List UInt8) :
    decode maxLen ⟨phase, encode .contentLength message ++ rest⟩ =
      (.message message, ⟨.contentLength, rest⟩) := by
  have hcap : 2 ≤ maxLen :=
    (two_le_length_headerLine _).trans hheader
  rw [encode_contentLength, List.append_assoc, List.append_assoc,
    decode_headerLine hheader hphase]
  exact decodeFrame_headerLine hlen hcap rest

/-- Text that survives as a line: it has no `'\n'` and does not end in `'\r'`. -/
structure IsLineText (text : String) : Prop where
  noLineFeed : '\n' ∉ text.toList
  noCarriageReturn : text.toList.getLast? ≠ some '\r'

instance (text : String) : Decidable (IsLineText text) :=
  decidable_of_iff ('\n' ∉ text.toList ∧ text.toList.getLast? ≠ some '\r')
    ⟨fun h => ⟨h.1, h.2⟩, fun h => ⟨h.noLineFeed, h.noCarriageReturn⟩⟩

theorem IsLineText.trimCrlf
    {text : String} (h : IsLineText text) :
    Transport.trimCrlf (text ++ "\n") = text ∧ Transport.trimCrlf text = text := by
  have hself : text.toList.rdropWhile (fun c => c == '\r' || c == '\n') = text.toList := by
    rw [List.rdropWhile_eq_self_iff]
    intro hne hend
    simp only [Bool.or_eq_true, beq_iff_eq] at hend
    rcases hend with hcr | hlf
    · exact h.noCarriageReturn (by rw [List.getLast?_eq_getLast_of_ne_nil hne, hcr])
    · exact h.noLineFeed (hlf ▸ List.getLast_mem hne)
  have hend : "\n".toList = ['\n'] := by
    decide
  constructor
  · rw [← String.toList_inj, Transport.trimCrlf, toList_trimEndMatches, String.toList_append,
      hend, List.rdropWhile_concat_pos _ _ _ (by rfl), hself]
  · rw [← String.toList_inj, Transport.trimCrlf, toList_trimEndMatches, hself]

/-- A line as it is written is decoded to its message. -/
theorem decode_line
    {message : String} (htext : IsLineText message)
    (hlen : (asBytes message).length + 1 ≤ maxLen)
    {phase : Phase}
    (hphase : phase = .newline ∨ (phase = .undecided ∧
      (∃ c ∈ message.toList, isWhitespace c = false) ∧ contentLengthValue message = none))
    (rest : List UInt8) :
    decode maxLen ⟨phase, encode .newline message ++ rest⟩ =
      (.message message, ⟨.newline, rest⟩) := by
  have hbytes : encode .newline message = asBytes (message ++ "\n") := by
    rw [asBytes_append]
    rfl
  have hsplit := splitLine_text htext.noLineFeed rest
  have hne := asBytes_concat_ne_nil message rest
  have hfits : ¬ maxLen < (asBytes (message ++ "\n")).length := by
    rw [← hbytes]
    simp only [encode, List.length_append, List.length_singleton]
    omega
  obtain ⟨htrim, htrim'⟩ := htext.trimCrlf
  rw [hbytes]
  rcases hphase with rfl | ⟨rfl, ⟨c, hc, hspace⟩, hnone⟩
  · simp only [decode, decodeNewline]
    rw [if_neg hne, hsplit, if_neg hfits]
    simp only [decodeUtf8_asBytes, htrim]
  · have hblank : ¬ (message ++ "\n").toList.all isWhitespace = true := by
      rw [List.all_eq_true]
      intro hall
      have := hall c (by simp [String.toList_append, hc])
      rw [hspace] at this
      cases this
    have hheader : ¬ (contentLengthValue (message ++ "\n")).isSome = true := by
      rw [← contentLengthValue_trimCrlf, htrim, hnone]
      simp
    simp only [decode]
    rw [decodeUndecided, dif_neg hne, hsplit, if_neg hfits]
    simp only [decodeUtf8_asBytes, if_neg hblank, if_neg hheader, htrim]

end Decode

section Runs

/-- Messages that are decoded one by one, up to the end of the stream. -/
theorem decodes_messages
    {maxLen : Nat} {framed : String → List UInt8} {phase : Phase} (messages : List String)
    (hstep : ∀ message ∈ messages, ∀ rest,
      decode maxLen ⟨phase, framed message ++ rest⟩ = (.message message, ⟨phase, rest⟩))
    (hend : decode maxLen ⟨phase, []⟩ = (.connectionClosed, ⟨phase, []⟩)) :
    (decodes maxLen (messages.length + 1) ⟨phase, messages.flatMap framed⟩).1 =
      messages.map .message ++ [.connectionClosed] := by
  induction messages with
  | nil =>
      simp [decodes, hend]
  | cons message messages ih =>
      have hrest := ih fun message hmem => hstep message (by simp [hmem])
      rw [List.length_cons, decodes_succ, List.flatMap_cons, hstep message (by simp), hrest,
        List.map_cons, List.cons_append]

/-- The first message also settles the framing. -/
theorem decodes_detected
    {maxLen : Nat} {framed : String → List UInt8} {phase : Phase} (messages : List String)
    (hfirst : ∀ message ∈ messages.head?, ∀ rest,
      decode maxLen ⟨.undecided, framed message ++ rest⟩ = (.message message, ⟨phase, rest⟩))
    (hstep : ∀ message ∈ messages, ∀ rest,
      decode maxLen ⟨phase, framed message ++ rest⟩ = (.message message, ⟨phase, rest⟩))
    (hend : decode maxLen ⟨phase, []⟩ = (.connectionClosed, ⟨phase, []⟩)) :
    (decodes maxLen (messages.length + 1) ⟨.undecided, messages.flatMap framed⟩).1 =
      messages.map .message ++ [.connectionClosed] := by
  cases messages with
  | nil =>
      have hclosed : decode maxLen ⟨.undecided, []⟩ = (.connectionClosed, ⟨.undecided, []⟩) := by
        simp only [decode]
        rw [decodeUndecided]
        simp
      simp [decodes, hclosed]
  | cons message messages =>
      have hrest := decodes_messages messages
        (fun message hmem => hstep message (by simp [hmem])) hend
      rw [List.length_cons, decodes_succ, List.flatMap_cons, hfirst message (by simp), hrest,
        List.map_cons, List.cons_append]

theorem eq_ok_of_variant {outcome : Outcome String} {text : String}
    (h : variant outcome = some (.message text)) : outcome = .ok text := by
  unfold variant at h
  split at h
  · cases h
    rfl
  · cases h
  · cases h
  · cases h

theorem eq_closed_of_variant {outcome : Outcome String}
    (h : variant outcome = some .connectionClosed) :
    outcome = .err (.transport .connectionClosed) := by
  unfold variant at h
  split at h
  · cases h
  · cases h
  · rfl
  · cases h

/-- Messages and the end of the stream are seen exactly as they are. -/
theorem eq_of_map_variant
    {outcomes : List (Outcome String)} (messages : List String)
    (h : outcomes.map variant =
      (messages.map Decoded.message ++ [Decoded.connectionClosed]).map some) :
    outcomes = messages.map .ok ++ [.err (.transport .connectionClosed)] := by
  induction messages generalizing outcomes with
  | nil =>
      obtain ⟨outcome, rfl, houtcome⟩ := List.map_eq_singleton_iff.mp h
      rw [eq_closed_of_variant houtcome]
      rfl
  | cons message messages ih =>
      obtain ⟨outcome, rest, rfl, houtcome, hrest⟩ := List.map_eq_cons_iff.mp h
      rw [eq_ok_of_variant houtcome, ih hrest]
      rfl

variable {R : Type} [LineReader R]

/-- Writes that succeed send the messages one after another. -/
theorem calls_write_reliable
    (messages : List String) {t : FramedTransport R} (h : t.writer.faults = []) :
    calls (messages.map .write) t =
      (messages.map fun _ => .wrote (.ok ()),
        { t with
          writer := ⟨t.writer.written ++ messages.flatMap (encode t.framing), []⟩ }) := by
  induction messages generalizing t with
  | nil =>
      obtain ⟨reader, ⟨written, faults⟩, framing, maxLen, desync⟩ := t
      simp only at h
      subst h
      simp [calls]
  | cons message messages ih =>
      have hrest := ih (t := { t with
        writer := ⟨t.writer.written ++ encode t.framing message, []⟩ }) rfl
      simp only [calls] at hrest
      simp only [calls, List.map_cons, Mealy.run, call, writeMessage_reliable h, hrest,
        List.flatMap_cons, List.append_assoc]

/-- Frames are read back, in whatever chunks they arrive. -/
theorem reads_frames
    {maxLen : Usize} (hcap : maxLen.val < usizeMax) {messages : List String}
    (writer : Writer) {chunks : List Chunk}
    (hchunks : chunks.flatMap Subtype.val = messages.flatMap (encode .contentLength))
    (hfits : ∀ message ∈ messages, (asBytes message).length ≤ maxLen.val ∧
      (asBytes (headerLine (asBytes message).length)).length ≤ maxLen.val) :
    (reads (messages.length + 1) (overChunks maxLen writer chunks)).1 =
      messages.map .ok ++ [.err (.transport .connectionClosed)] := by
  have hreads := reads_tracks (tracks_overChunks maxLen writer chunks) hcap
    (messages.length + 1)
  rw [reads_unchunked, hchunks] at hreads
  refine eq_of_map_variant messages (hreads.1.trans (congrArg (List.map some) ?_))
  refine @decodes_detected _ _ .contentLength messages ?_ ?_ rfl
  · intro message hmem rest
    obtain ⟨hlen, hheader⟩ := hfits message (List.mem_of_mem_head? hmem)
    exact decode_frame hlen hheader (Or.inl rfl) rest
  · intro message hmem rest
    obtain ⟨hlen, hheader⟩ := hfits message hmem
    exact decode_frame hlen hheader (Or.inr rfl) rest

/-- Lines are read back, in whatever chunks they arrive. -/
theorem reads_lines
    {maxLen : Usize} (hcap : maxLen.val < usizeMax) {messages : List String}
    (writer : Writer) {chunks : List Chunk}
    (hchunks : chunks.flatMap Subtype.val = messages.flatMap (encode .newline))
    (hfits : ∀ message ∈ messages, IsLineText message ∧
      (asBytes message).length + 1 ≤ maxLen.val)
    (hfirst : ∀ message ∈ messages.head?,
      (∃ c ∈ message.toList, isWhitespace c = false) ∧ contentLengthValue message = none) :
    (reads (messages.length + 1) (overChunks maxLen writer chunks)).1 =
      messages.map .ok ++ [.err (.transport .connectionClosed)] := by
  have hreads := reads_tracks (tracks_overChunks maxLen writer chunks) hcap
    (messages.length + 1)
  rw [reads_unchunked, hchunks] at hreads
  refine eq_of_map_variant messages (hreads.1.trans (congrArg (List.map some) ?_))
  refine @decodes_detected _ _ .newline messages ?_ ?_ rfl
  · intro message hmem rest
    obtain ⟨htext, hlen⟩ := hfits message (List.mem_of_mem_head? hmem)
    exact decode_line htext hlen (Or.inr ⟨rfl, hfirst message hmem⟩) rest
  · intro message hmem rest
    obtain ⟨htext, hlen⟩ := hfits message hmem
    exact decode_line htext hlen (Or.inl rfl) rest

/-- What is not framed by its length is sent as lines. -/
theorem encode_of_ne {framing : Framing} (h : framing ≠ .contentLength) :
    encode framing = encode .newline := by
  cases framing with
  | auto =>
      rfl
  | newline =>
      rfl
  | contentLength =>
      exact absurd rfl h

/--
What is written in a framing is read back by a fresh transport, message by
message, in whatever chunks it arrives.

In `Content-Length` framing the messages are arbitrary, as long as they and
their headers fit the cap, which from 20 bytes on the headers do.  In newline
framing the messages must be lines, each with its `'\n'` within the cap, and the
first must settle the framing: it is not white space and no header.
-/
theorem reads_of_writes
    (maxLen : Usize) (hcap : maxLen.val < usizeMax) (messages : List String)
    (t : FramedTransport Reader) (ht : t.writer = .reliable)
    (writer : Writer) (chunks : List Chunk)
    (hchunks : chunks.flatMap Subtype.val =
      (calls (messages.map .write) t).2.writer.written) :
    (t.framing = .contentLength →
      (∀ message ∈ messages, (asBytes message).length ≤ maxLen.val ∧
        (asBytes (headerLine (asBytes message).length)).length ≤ maxLen.val) →
      (reads (messages.length + 1) (overChunks maxLen writer chunks)).1 =
        messages.map .ok ++ [.err (.transport .connectionClosed)]) ∧
    (20 ≤ maxLen.val → ∀ n ≤ maxLen.val, (asBytes (headerLine n)).length ≤ maxLen.val) ∧
    (t.framing ≠ .contentLength →
      (∀ message ∈ messages, IsLineText message ∧
        (asBytes message).length + 1 ≤ maxLen.val) →
      (∀ message ∈ messages.head?, (∃ c ∈ message.toList, isWhitespace c = false) ∧
        contentLengthValue message = none) →
      (reads (messages.length + 1) (overChunks maxLen writer chunks)).1 =
        messages.map .ok ++ [.err (.transport .connectionClosed)]) := by
  have hfaults : t.writer.faults = [] := by
    rw [ht]
    rfl
  have hwritten : chunks.flatMap Subtype.val = messages.flatMap (encode t.framing) := by
    rw [hchunks, calls_write_reliable messages hfaults, ht]
    rfl
  refine ⟨?_, fun h n hn => length_headerLine_le h hn, ?_⟩
  · intro hframing hfits
    rw [hframing] at hwritten
    exact reads_frames hcap writer hwritten hfits
  · intro hframing hfits hfirst
    rw [encode_of_ne hframing] at hwritten
    exact reads_lines hcap writer hwritten hfits hfirst

/-- A body that looks like a frame, and an empty line, both written and read. -/
theorem reads_of_writes_of_nested_frame :
    let nested := "Content-Length: 1\r\n\r\nx"
    (reads 3 (overChunks 22 .reliable
        [⟨asBytes "Content-Length: 22\r\n\r\nContent-Length: 1\r\n\r\nx", by decide⟩,
          ⟨asBytes "Content-Length: 0\r\n\r\n", by decide⟩])).1 =
        [.ok nested, .ok "", .err (.transport .connectionClosed)] ∧
      (reads 3 (overChunks 3 .reliable [⟨asBytes "ab\n\n", by decide⟩])).1 =
        [.ok "ab", .ok "", .err (.transport .connectionClosed)] := by
  intro nested
  have hfirst : ∀ message ∈ ["ab", ""].head?, (∃ c ∈ message.toList, isWhitespace c = false) ∧
      contentLengthValue message = none := by
    rintro message ⟨⟩
    exact ⟨⟨'a', by decide, by decide⟩, by decide⟩
  constructor
  · exact (reads_of_writes 22 (by decide) [nested, ""]
      ⟨.new [] true, .reliable, .contentLength, 8, none⟩ rfl .reliable _
      (by decide)).1 rfl (by decide)
  · exact (reads_of_writes 3 (by decide) ["ab", ""] (.new (.new [] true) .reliable 8)
      rfl .reliable _ (by decide)).2.2 (by decide) (by decide) hfirst

end Runs

end Transport
end McpCore
