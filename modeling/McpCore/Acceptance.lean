import McpCore.Consumption
import Mathlib.Algebra.BigOperators.Group.List.Basic

/-!
# Which lines open a frame

A header is recognised by its name and its value is parsed apart from that, in two
ways into a frame: from the first line while the framing is undetected, and from the
opening line once frames are what is read.  `Declares` says what a line declares
without either; digit strings have any length there and numbers no bound.

`declared_lengths_accepted` compares: from a line that declares a length within the
cap exactly so many bytes are read as a body, and a line that is named like a header
but declares none loses the stream.
-/

namespace McpCore
namespace Transport

open Text

section Meaning

/-- Up to its first colon the trimmed line is named `content-length`, in ASCII letters
of either case; `value` is what is to the right, trimmed. -/
inductive HasValue (line : String) : String → Prop
  | mk {name after : String} (hline : (trim line).toList = name.toList ++ ':' :: after.toList)
      (hfirst : ':' ∉ name.toList)
      (hname : (trim name).toList.map Char.toLower = "content-length".toList) :
      HasValue line (trim after)

/-- A string of ASCII digits, leading zeros included, and the number it is in decimal. -/
structure IsDecimal (value : String) (n : Nat) : Prop where
  nonempty : value ≠ ""
  digits : ∀ c ∈ value.toList, '0' ≤ c ∧ c ≤ '9'
  decimal : value.toList.foldl (fun n c => 10 * n + (c.toNat - '0'.toNat)) 0 = n

/-- The line declares a body of `n` bytes. -/
def Declares (line : String) (n : Nat) : Prop :=
  ∃ value, HasValue line value ∧ IsDecimal value n

theorem contentLengthValue_eq_some_iff {line value : String} :
    contentLengthValue line = some value ↔ HasValue line value := by
  unfold contentLengthValue
  rw [trim_trimCrlf]
  constructor
  · intro h
    split at h
    · rename_i name after hsplit
      obtain ⟨hfirst, hline⟩ := splitOnce_eq_some_iff.mp hsplit
      split at h
      · rename_i hname
        cases h
        exact .mk hline hfirst (by simpa [eqIgnoreAsciiCase] using hname)
      · cases h
    · cases h
  · rintro ⟨hline, hfirst, hname⟩
    rename_i name after
    have hsplit := splitOnce_eq_some_iff.mpr ⟨hfirst, hline⟩
    have hnamed : eqIgnoreAsciiCase (trim name) "content-length" = true := by
      simp only [eqIgnoreAsciiCase, hname, beq_iff_eq]
      decide
    simp only [hsplit, hnamed, if_true]

theorem declaredValue_eq_some_iff {maxLen n : Nat} {value : String} :
    declaredValue maxLen value = some n ↔ IsDecimal value n ∧ n ≤ maxLen := by
  have hdigit : ∀ c : Char, c.isDigit = true ↔ '0' ≤ c ∧ c ≤ '9' := by
    intro c
    simp [Char.isDigit, Char.le_def]
  unfold declaredValue
  constructor
  · intro h
    split at h
    · rename_i hvalue
      obtain ⟨hne, hdigits, hfits⟩ := hvalue
      cases h
      refine ⟨⟨?_, fun c hc => (hdigit c).mp (List.all_eq_true.mp hdigits c hc), rfl⟩, hfits⟩
      rintro rfl
      exact hne rfl
    · cases h
  · rintro ⟨⟨hne, hdigits, hdecimal⟩, hfits⟩
    have hvalue : Nat.ofDigitChars 10 value.toList 0 = n :=
      hdecimal
    have hne' : value.toList ≠ [] := by
      simpa using hne
    have hall : value.toList.all Char.isDigit = true :=
      List.all_eq_true.mpr fun c hc => (hdigit c).mpr (hdigits c hc)
    rw [hvalue, if_pos ⟨hne', hall, hfits⟩]

/-- What the code takes for the length of a frame. -/
theorem declared_eq_some_ok_iff {R : Type} (t : FramedTransport R) {line : String} {n : Nat} :
    (contentLengthValue line).map (declaredLength t) = some (.ok n) ↔
      Declares line n ∧ n ≤ t.maxLen.val := by
  have hlength : ∀ value,
      declaredLength t value = .ok n ↔ IsDecimal value n ∧ n ≤ t.maxLen.val := by
    intro value
    rw [← declaredValue_eq_some_iff, ← declaredLength_eq]
    cases declaredLength t value with
    | error reason =>
        simp [Except.toOption]
    | ok m =>
        simp [Except.toOption]
  simp only [Option.map_eq_some_iff, contentLengthValue_eq_some_iff, hlength, Declares]
  constructor
  · rintro ⟨value, hvalue, hdecimal, hfits⟩
    exact ⟨⟨value, hvalue, hdecimal⟩, hfits⟩
  · rintro ⟨⟨value, hvalue, hdecimal⟩, hfits⟩
    exact ⟨value, hvalue, hdecimal, hfits⟩

end Meaning

section Opening

/-- `line` is the line that opens the next message: the first that is not blank while
the framing is undetected, the next one in `Content-Length` framing. -/
inductive WayIn (maxLen : Nat) (line : String) : Framing → List String → Prop
  | auto {blanks} (hblanks : BlankLines maxLen blanks) (hsolid : trim line ≠ "") :
      WayIn maxLen line .auto blanks
  | contentLength : WayIn maxLen line .contentLength []

/-- How a line ends: with its line feed, or with the stream. -/
def Ends (closed : Bool) (line : List UInt8) (rest : List Item) : Prop :=
  IsLine line ∨ (lineFeed ∉ line ∧ line ≠ [] ∧ rest = [] ∧ closed = true)

/-- A transport that has these lines and then `rest` to read; the end of the stream may
end the opening line. -/
structure OpensWith (maxLen : Usize) (framing : Framing) (blanks : List String) (line : String)
    (rest : List Item) (t : FramedTransport Stream) : Prop where
  cap : t.maxLen = maxLen
  sync : t.desync = none
  framing : t.framing = framing
  items : t.reader.items = (blanks.flatMap asBytes ++ asBytes line).map .byte ++ rest
  ends : Ends t.reader.closed (asBytes line) rest

/-- The transport once the opening line was taken. -/
def opened (blanks : List String) (line : String) (rest : List Item)
    (t : FramedTransport Stream) : FramedTransport Stream :=
  { advance t (blanks.flatMap asBytes ++ asBytes line) rest with framing := .contentLength }

variable {maxLen : Usize} {framing : Framing} {blanks : List String} {line : String}
  {rest : List Item} {t : FramedTransport Stream}

/-- A line within the cap is read as it is. -/
theorem readLine_of_ends
    (hcap : t.maxLen.val < usizeMax) (hends : Ends t.reader.closed (asBytes line) rest)
    (hfits : (asBytes line).length ≤ t.maxLen.val)
    (hitems : t.reader.items = (asBytes line).map .byte ++ rest) :
    readLine t = (.ok line, advance t (asBytes line) rest) := by
  have hread : readLine t = (decodeText (asBytes line), advance t (asBytes line) rest) := by
    generalize asBytes line = bytes at hends hfits hitems
    rcases hends with hline | ⟨hnolf, hne, rfl, hclosed⟩
    · have hne := hline.ne_nil
      obtain ⟨hbody⟩ := hline
      rename_i body
      rw [List.length_append, List.length_singleton] at hfits
      refine readLine_of_scan hcap (.inl rfl) ?_ hne (by simpa using hfits)
      rw [hitems, List.map_append, List.append_assoc]
      exact scanLine_newline hbody 0 rest (by omega)
    · refine readLine_of_scan hcap (.inr rfl) ?_ hne hfits
      rw [hitems, hclosed, scanLine_append hnolf 0 [] (by omega)]
      simp [scanLine]
  rw [hread, decodeText_of_some (decodeUtf8_asBytes line)]

theorem advance_nil (t : FramedTransport Stream) :
    advance t [] t.reader.items = t := by
  simp [advance]

theorem advance_advance (t : FramedTransport Stream) (taken taken' : List UInt8)
    (items items' : List Item) :
    advance (advance t taken items) taken' items' = advance t (taken ++ taken') items' := by
  simp [advance]

/-- `read_auto` goes round on each blank line. -/
theorem run_readAutoBody_blanks
    (hcap : t.maxLen.val < usizeMax) (hblanks : BlankLines t.maxLen.val blanks)
    (hitems : t.reader.items = (blanks.flatMap asBytes).map .byte ++ rest) (n : Nat) :
    Loop.run readAutoBody (blanks.length + n) t =
      Loop.run readAutoBody n (advance t (blanks.flatMap asBytes) rest) := by
  induction blanks generalizing t with
  | nil =>
      have hsame : rest = t.reader.items := hitems.symm
      rw [List.length_nil, Nat.zero_add, List.flatMap_nil, hsame, advance_nil]
  | cons blank blanks ih =>
      rw [List.flatMap_cons, List.map_append, List.append_assoc] at hitems
      have hread := readLine_of_ends hcap (.inl (hblanks.lines blank (by simp)))
        (hblanks.fits blank (by simp)) hitems
      have hbody : readAutoBody t =
          .next (advance t (asBytes blank) ((blanks.flatMap asBytes).map .byte ++ rest)) := by
        simp only [readAutoBody, hread, if_pos (hblanks.blank blank (by simp))]
      have hrest : BlankLines t.maxLen.val blanks :=
        ⟨fun line hmem => hblanks.lines line (by simp [hmem]),
          fun line hmem => hblanks.fits line (by simp [hmem]),
          fun line hmem => hblanks.blank line (by simp [hmem])⟩
      rw [List.length_cons, Nat.add_right_comm, Loop.run_succ_of_next _ hbody,
        ih (t := advance t (asBytes blank) _) hcap hrest rfl, advance_advance, List.flatMap_cons]

/-- A call of `read_auto` is its iteration on the first line that is not blank. -/
theorem readAuto_of_leave
    (hcap : t.maxLen.val < usizeMax) (hblanks : BlankLines t.maxLen.val blanks)
    (hitems : t.reader.items = (blanks.flatMap asBytes).map .byte ++ rest)
    {left : Outcome String × FramedTransport Stream}
    (hleave : readAutoBody (advance t (blanks.flatMap asBytes) rest) = .leave left) :
    readAuto t = left := by
  have hrun : Loop.run readAutoBody (blanks.length + 1) t = some left := by
    rw [run_readAutoBody_blanks hcap hblanks hitems, Loop.run_succ_of_leave _ hleave]
  have hle : blanks.length + 1 ≤ fuel t := by
    have hlength : blanks.length ≤ (blanks.flatMap asBytes).length := by
      rw [List.length_flatMap, ← List.length_map (fun blank => (asBytes blank).length)]
      refine List.length_le_sum_of_one_le _ fun n hn => ?_
      obtain ⟨blank, hmem, rfl⟩ := List.mem_map.mp hn
      exact List.length_pos_of_ne_nil (hblanks.lines blank hmem).ne_nil
    have hfuel : fuel t = t.reader.items.length + 1 := by
      rfl
    rw [hfuel, hitems, List.length_append, List.length_map]
    omega
  rw [readAuto_eq_getD, Loop.run_of_le hrun hle, Option.getD_some]

section Opened

variable (hcap : maxLen.val < usizeMax) (hopens : OpensWith maxLen framing blanks line rest t)
  (hway : WayIn maxLen.val line framing blanks) (hfits : (asBytes line).length ≤ maxLen.val)

include hcap hopens hway hfits

/-- What is made of an opening line, in either way in. -/
theorem readMessage_of_opensWith :
    readMessage t =
      if framing = .contentLength ∨ (contentLengthValue line).isSome then
        readContentLength line (opened blanks line rest t)
      else (.ok (trimCrlf line), { opened blanks line rest t with framing := .newline }) := by
  have hcap' : t.maxLen.val < usizeMax := by
    rw [hopens.cap]
    exact hcap
  have hfits' : (asBytes line).length ≤ t.maxLen.val := by
    rw [hopens.cap]
    exact hfits
  have hitems := hopens.items
  rw [List.map_append, List.append_assoc] at hitems
  simp only [readMessage, hopens.sync, hopens.framing]
  cases hway with
  | auto hblanks hsolid =>
      rw [← hopens.cap] at hblanks
      have hread := readLine_of_ends (t := advance t (blanks.flatMap asBytes) _) hcap' hopens.ends
        hfits' rfl
      have hsolid' : trim (trimCrlf line) ≠ "" := by
        rw [trim_trimCrlf]
        exact hsolid
      refine readAuto_of_leave hcap' hblanks hitems ?_
      simp only [readAutoBody, hread, if_neg hsolid', contentLengthValue_trimCrlf,
        advance_advance, opened]
      cases hvalue : contentLengthValue line with
      | none =>
          simp
      | some value =>
          simp [readContentLength_of_value ((contentLengthValue_trimCrlf line).trans hvalue) hvalue]
  | contentLength =>
      have hread := readLine_of_ends hcap' hopens.ends hfits' hitems
      have hframing : opened [] line rest t = advance t (asBytes line) rest := by
        simp only [opened, List.flatMap_nil, List.nil_append, advance, ← hopens.framing]
      rw [if_pos (.inl rfl)]
      simp only [readFrameLine, hread, andThen, hframing]

/-- From a length within the cap reading goes on to headers and a body of that length. -/
theorem readMessage_of_declares {n : Nat} (hdeclares : Declares line n) (hn : n ≤ maxLen.val) :
    readMessage t =
      andThen (readHeaders (opened blanks line rest t)) fun _ u => readFrameBody n u := by
  have hmax : (opened blanks line rest t).maxLen = maxLen :=
    hopens.cap
  have hlength := (declared_eq_some_ok_iff (opened blanks line rest t)).mpr
    ⟨hdeclares, hmax ▸ hn⟩
  obtain ⟨value, hvalue, -⟩ := hdeclares
  have hnamed : (contentLengthValue line).isSome = true := by
    rw [contentLengthValue_eq_some_iff.mpr hvalue]
    rfl
  rw [readMessage_of_opensWith hcap hopens hway hfits, if_pos (.inr hnamed),
    readContentLength_of_declared hlength]

/-- A header without a length within the cap loses the stream. -/
theorem readMessage_of_bad_value {value : String} (hvalue : HasValue line value)
    (hbad : ∀ n, Declares line n → maxLen.val < n) :
    ∃ reason, readMessage t = desyncError (opened blanks line rest t) reason := by
  have hnamed := contentLengthValue_eq_some_iff.mpr hvalue
  have hmax : (opened blanks line rest t).maxLen = maxLen :=
    hopens.cap
  rw [readMessage_of_opensWith hcap hopens hway hfits, if_pos (.inr (by simp [hnamed]))]
  refine readContentLength_of_undeclared fun n hlength => ?_
  obtain ⟨hdeclares, hle⟩ := (declared_eq_some_ok_iff (opened blanks line rest t)).mp hlength
  have hlt := hbad n hdeclares
  rw [hmax] at hle
  omega

/-- A line that is no header is a message if the framing is undetected, else it loses
the stream. -/
theorem readMessage_of_unnamed (hnone : ∀ value, ¬ HasValue line value) :
    (∃ reason, readMessage t = desyncError (opened blanks line rest t) reason) ∨
    ∃ u, readMessage t = (.ok (trimCrlf line), u) ∧ u.reader.items = rest := by
  have hnone' : contentLengthValue line = none := by
    cases hvalue : contentLengthValue line with
    | none =>
        rfl
    | some value =>
        exact absurd (contentLengthValue_eq_some_iff.mp hvalue) (hnone value)
  rw [readMessage_of_opensWith hcap hopens hway hfits]
  split
  · exact .inl (readContentLength_of_undeclared (by simp [hnone']))
  · exact .inr ⟨_, rfl, rfl⟩

end Opened

/-- A blank line and the declared bytes after it are taken, and make the message. -/
theorem readFrame_body
    (hcap : t.maxLen.val < usizeMax) {blank body : String} (hline : IsLine (asBytes blank))
    (hblank : trimCrlf blank = "") (hfits : (asBytes blank).length ≤ t.maxLen.val)
    (hitems : t.reader.items = (asBytes blank ++ asBytes body).map .byte ++ rest) :
    andThen (readHeaders t) (fun _ u => readFrameBody (asBytes body).length u) =
      (.ok body, advance t (asBytes blank ++ asBytes body) rest) := by
  rw [List.map_append, List.append_assoc] at hitems
  have hread := readLine_of_ends hcap (.inl hline) hfits hitems
  have hbody : readHeadersBody (1, t) =
      .leave (.ok (), advance t (asBytes blank) ((asBytes body).map .byte ++ rest)) := by
    simp only [readHeadersBody, readFrameLine, hread, if_pos hblank]
  have hscan := @scanBody_append t.reader.closed 0 (asBytes body) rest
  rw [Nat.zero_add] at hscan
  rw [readHeaders_eq_getD, fuel, Loop.run_succ_of_leave _ hbody]
  simp only [Option.getD_some, andThen, readFrameBody, LineReader.collectBody, advance, hscan,
    scanBody, List.append_nil, ne_eq, not_true_eq_false, if_false,
    decodeText_of_some (decodeUtf8_asBytes body), List.append_assoc]

end Opening

section Accepted

/-- The length of the frame that `line` opens is taken to be `n`: with a blank line and
any body of `n` bytes after it, in whatever chunks, reading gives that body and leaves
what follows it. -/
def TakenAs (maxLen : Usize) (framing : Framing) (blanks : List String) (line : String)
    (n : Nat) : Prop :=
  ∀ (blank body : String) (rest : List Item) (t : FramedTransport Reader),
    IsLine (asBytes blank) → trimCrlf blank = "" → (asBytes blank).length ≤ maxLen.val →
    (asBytes body).length = n →
    OpensWith maxLen framing blanks line ((asBytes blank ++ asBytes body).map .byte ++ rest)
      (t.mapReader Reader.unchunked) →
    (readMessage t).1 = .ok body ∧ (readMessage t).2.reader.items = rest

variable {maxLen : Usize} {framing : Framing} {blanks : List String} {line : String}

theorem takenAs_of_declares
    (hcap : maxLen.val < usizeMax) (hway : WayIn maxLen.val line framing blanks)
    (hfits : (asBytes line).length ≤ maxLen.val) {n : Nat} (hdeclares : Declares line n)
    (hn : n ≤ maxLen.val) :
    TakenAs maxLen framing blanks line n := by
  rintro blank body rest t hline hblank hblankFits rfl hopens
  have hmax : t.maxLen = maxLen :=
    hopens.cap
  have hread := readMessage_of_declares hcap hopens hway hfits hdeclares hn
  generalize hopened : opened blanks line _ (t.mapReader Reader.unchunked) = u at hread
  have hmax' : u.maxLen = maxLen := by
    rw [← hopened]
    exact hmax
  have hitems : u.reader.items = (asBytes blank ++ asBytes body).map .byte ++ rest := by
    rw [← hopened]
    rfl
  rw [readFrame_body (hmax' ▸ hcap) hline hblank (hmax' ▸ hblankFits) hitems,
    readMessage_unchunked] at hread
  exact ⟨congrArg Prod.fst hread, congrArg (fun left => left.2.reader.items) hread⟩

/-- A body of `n` bytes. -/
def zeros (n : Nat) : String :=
  String.ofList (List.replicate n '0')

theorem length_asBytes_zeros (n : Nat) :
    (asBytes (zeros n)).length = n := by
  rw [zeros, length_asBytes_of_digits]
  · simp
  · intro c hc
    rw [String.toList_ofList] at hc
    rw [List.eq_of_mem_replicate hc]
    decide

theorem asBytes_zeros_append_comm (m n : Nat) :
    asBytes (zeros m) ++ asBytes (zeros n) = asBytes (zeros n) ++ asBytes (zeros m) := by
  simp only [zeros, asBytes_eq_flatMap, String.toList_ofList, ← List.flatMap_append,
    List.replicate_append_replicate, Nat.add_comm]

/-- There is a stream that opens with a whole line and goes on with these bytes. -/
theorem exists_opensWith (maxLen : Usize) (framing : Framing) (blanks : List String)
    (hline : IsLine (asBytes line)) (rest : List UInt8) :
    ∃ t : FramedTransport Reader,
      OpensWith maxLen framing blanks line (rest.map .byte) (t.mapReader Reader.unchunked) := by
  have hne : blanks.flatMap asBytes ++ asBytes line ++ rest ≠ [] := by
    simp [hline.ne_nil]
  refine ⟨⟨.new [.chunk _ hne] true, .reliable, framing, maxLen, none⟩, rfl, rfl, rfl, ?_,
    .inl hline⟩
  simp [FramedTransport.mapReader, Reader.unchunked, Reader.new, Reader.items, Event.items]

/-- What is read of a stream whose length is taken to be `n`. -/
theorem TakenAs.read {n : Nat} (h : TakenAs maxLen framing blanks line n)
    (hline : IsLine (asBytes line)) (hfits : (asBytes line).length ≤ maxLen.val)
    {body : String} (hbody : (asBytes body).length = n) {rest : List UInt8}
    {t : FramedTransport Reader}
    (hopens : OpensWith maxLen framing blanks line
      ((asBytes "\n" ++ (asBytes body ++ rest)).map .byte) (t.mapReader Reader.unchunked)) :
    (readMessage t).1 = .ok body ∧ (readMessage t).2.reader.items = rest.map .byte := by
  have hblankFits : (asBytes "\n").length ≤ maxLen.val :=
    (List.length_pos_of_ne_nil hline.ne_nil).trans_le hfits
  refine h "\n" body (rest.map .byte) t isLine_lineFeed (by decide) hblankFits hbody ?_
  rw [← List.map_append, List.append_assoc]
  exact hopens

/-- A length is taken to be one number only. -/
theorem TakenAs.unique {m n : Nat} (hm : TakenAs maxLen framing blanks line m)
    (hn : TakenAs maxLen framing blanks line n)
    (hline : IsLine (asBytes line)) (hfits : (asBytes line).length ≤ maxLen.val) :
    m = n := by
  obtain ⟨t, hopens⟩ := exists_opensWith maxLen framing blanks hline
    (asBytes "\n" ++ (asBytes (zeros m) ++ asBytes (zeros n)))
  obtain ⟨hreadM, -⟩ := hm.read hline hfits (length_asBytes_zeros m) hopens
  rw [asBytes_zeros_append_comm] at hopens
  obtain ⟨hreadN, -⟩ := hn.read hline hfits (length_asBytes_zeros n) hopens
  have hsame : zeros m = zeros n :=
    Outcome.ok.inj (hreadM.symm.trans hreadN)
  rw [← length_asBytes_zeros m, hsame, length_asBytes_zeros]

/-- The length of a whole opening line is taken to be what it declares within the cap. -/
theorem takenAs_iff
    (hcap : maxLen.val < usizeMax) (hway : WayIn maxLen.val line framing blanks)
    (hfits : (asBytes line).length ≤ maxLen.val) (hline : IsLine (asBytes line)) (n : Nat) :
    TakenAs maxLen framing blanks line n ↔ Declares line n ∧ n ≤ maxLen.val := by
  refine ⟨fun htaken => ?_, fun h => takenAs_of_declares hcap hway hfits h.1 h.2⟩
  by_cases hsome : ∃ m, Declares line m ∧ m ≤ maxLen.val
  · obtain ⟨m, hdeclares, hm⟩ := hsome
    have hmn := (takenAs_of_declares hcap hway hfits hdeclares hm).unique htaken hline hfits
    exact hmn ▸ ⟨hdeclares, hm⟩
  · -- no length is declared, so no body can be read
    exfalso
    obtain ⟨t, hopens⟩ := exists_opensWith maxLen framing blanks hline
      (asBytes "\n" ++ (asBytes (zeros n) ++ []))
    obtain ⟨hread, hitems⟩ := htaken.read hline hfits (length_asBytes_zeros n) hopens
    have hbad : ∀ m, Declares line m → maxLen.val < m := by
      intro m hdeclares
      by_contra hle
      exact hsome ⟨m, hdeclares, Nat.not_lt.mp hle⟩
    by_cases hnamed : ∃ value, HasValue line value
    · obtain ⟨value, hvalue⟩ := hnamed
      obtain ⟨reason, hlost⟩ := readMessage_of_bad_value hcap hopens hway hfits hvalue hbad
      rw [readMessage_unchunked] at hlost
      have herr : (readMessage t).1 = .err _ := congrArg Prod.fst hlost
      rw [hread] at herr
      cases herr
    · have hnone : ∀ value, ¬ HasValue line value :=
        fun value hvalue => hnamed ⟨value, hvalue⟩
      rcases readMessage_of_unnamed hcap hopens hway hfits hnone
        with ⟨reason, hlost⟩ | ⟨u, hu, hrest⟩
      · rw [readMessage_unchunked] at hlost
        have herr : (readMessage t).1 = .err _ := congrArg Prod.fst hlost
        rw [hread] at herr
        cases herr
      · rw [readMessage_unchunked] at hu
        have hleft : (readMessage t).2.reader.items = u.reader.items :=
          congrArg (fun left => left.2.reader.items) hu
        rw [hitems, hrest] at hleft
        cases hleft

/-- Which lines open a frame, and with what length, in one way into a frame. -/
structure AcceptsLengths (maxLen : Usize) (framing : Framing) (blanks : List String)
    (line : String) : Prop where
  /-- The length that is computed is the one declared, if it is within the cap. -/
  computed : ∀ (t : FramedTransport Reader) (n : Nat), t.maxLen = maxLen →
    ((contentLengthValue line).map (declaredLength t) = some (.ok n) ↔
      Declares line n ∧ n ≤ maxLen.val)
  /-- So many bytes are taken as the body. -/
  taken : IsLine (asBytes line) → ∀ n,
    TakenAs maxLen framing blanks line n ↔ Declares line n ∧ n ≤ maxLen.val
  /-- Whatever follows, reading goes on to headers and a body of that length. -/
  accepted : ∀ (t : FramedTransport Reader) (rest : List Item) (n : Nat),
    OpensWith maxLen framing blanks line rest (t.mapReader Reader.unchunked) →
    Declares line n → n ≤ maxLen.val →
    through Reader.unchunked (readMessage t) =
      andThen (readHeaders (opened blanks line rest (t.mapReader Reader.unchunked)))
        fun _ u => readFrameBody n u
  /-- Whatever follows, a header that declares no length within the cap is an invalid
  message, and so is every read after it. -/
  refused : ∀ (t : FramedTransport Reader) (rest : List Item),
    OpensWith maxLen framing blanks line rest (t.mapReader Reader.unchunked) →
    (∃ value, HasValue line value) → (∀ n, Declares line n → maxLen.val < n) →
    ∃ reason, (readMessage t).1 = .err (invalidMessage reason) ∧
      (readMessage t).2.desync = some reason ∧
      readMessage (readMessage t).2 =
        (.err (invalidMessage (desyncReason reason)), (readMessage t).2)

/--
Header acceptance: for every cap below `usize::MAX`, every opening line that fits it and
both ways into a frame, the length of the frame is `n` exactly if the line declares `n`
and `n` is within the cap; and a line that is named like a header and declares no such
length always gives the stream up.
-/
theorem declared_lengths_accepted
    (maxLen : Usize) (hcap : maxLen.val < usizeMax) (framing : Framing) (blanks : List String)
    (line : String) (hway : WayIn maxLen.val line framing blanks)
    (hfits : (asBytes line).length ≤ maxLen.val) :
    AcceptsLengths maxLen framing blanks line where
  computed t n hmax := by
    rw [declared_eq_some_ok_iff, hmax]
  taken hline n := takenAs_iff hcap hway hfits hline n
  accepted t rest n hopens hdeclares hn := by
    rw [← readMessage_unchunked]
    exact readMessage_of_declares hcap hopens hway hfits hdeclares hn
  refused t rest hopens hnamed hbad := by
    obtain ⟨value, hvalue⟩ := hnamed
    obtain ⟨reason, hlost⟩ := readMessage_of_bad_value hcap hopens hway hfits hvalue hbad
    rw [readMessage_unchunked] at hlost
    have hsync : (opened blanks line rest (t.mapReader Reader.unchunked)).desync = none :=
      hopens.sync
    simp only [desyncError, poison, hsync, Option.getD_none] at hlost
    have hdesync : (readMessage t).2.desync = some reason :=
      congrArg (fun left => left.2.desync) hlost
    exact ⟨reason, congrArg Prod.fst hlost, hdesync, readMessage_of_desync hdesync⟩

/-- A padded length after a blank line, and a length that no `usize` holds. -/
theorem declared_lengths_accepted_of_padded :
    let padded := " content-LENGTH : 007\n"
    let huge := "Content-Length: 99999999999999999999999999\r\n"
    (AcceptsLengths 64 .auto ["\r\n"] padded ∧ Declares padded 7) ∧
    AcceptsLengths 64 .contentLength [] huge ∧
    (reads 2 (overChunks 64 .reliable
      [⟨asBytes ("\r\n" ++ padded ++ "\n7 bytes" ++ huge), by decide⟩])).1.map variant =
        [some (.message "7 bytes"), some .invalidMessage] := by
  intro padded huge
  have hblank : IsLine (asBytes "\r\n") :=
    @IsLine.mk [13] (by decide)
  have hblanks : BlankLines 64 ["\r\n"] :=
    ⟨by simpa using hblank, by decide, by decide⟩
  have hvalue : HasValue padded "007" :=
    contentLengthValue_eq_some_iff.mp (by decide)
  have hdecimal : declaredValue 64 "007" = some 7 := by
    decide
  refine ⟨⟨declared_lengths_accepted 64 (by decide) .auto _ padded (.auto hblanks (by decide))
    (by decide), "007", hvalue, (declaredValue_eq_some_iff.mp hdecimal).1⟩, ?_, by decide⟩
  exact declared_lengths_accepted 64 (by decide) .contentLength [] huge .contentLength (by decide)

end Accepted

end Transport
end McpCore
