import McpCore.Termination

/-!
# Frames that are cut off

What `write_message` sends in `Content-Length` framing may stop anywhere: in the
name of a header, among its digits, between the two bytes that end a line, or in a
body.  The end of the stream ends a line too, so each of these has to be told from
a shorter frame.

`decode_cut` decodes one frame that was cut off, `decodes_cut` any number of frames
of which the last is.  `truncated_reads_iff` is the result for transports.
-/

namespace McpCore
namespace Transport

open Text

section Cut

variable {maxLen : Nat}

/-- A decoder that decodes no further message. -/
def Spent (d : Decoder) : Prop :=
  d.phase = .refused ∨ d = ⟨.contentLength, []⟩

/-- What a decoder gives that decodes no message and will decode none. -/
structure Fails (out : Decoded × Decoder) : Prop where
  noMessage : ∀ text, out.1 ≠ .message text
  spent : Spent out.2

theorem fails_refuse :
    Fails refuse :=
  ⟨by simp [refuse], .inl rfl⟩

theorem fails_closed :
    Fails (.connectionClosed, ⟨.contentLength, []⟩) :=
  ⟨by simp, .inr rfl⟩

theorem Spent.fails {d : Decoder} (h : Spent d) :
    Fails (decode maxLen d) := by
  rcases h with hphase | rfl
  · simp only [decode, hphase]
    exact ⟨by simp, .inl hphase⟩
  · exact fails_closed

/-- After its opening line a stream that has ended holds no frame. -/
theorem fails_decodeFrame_nil (first : String) :
    Fails (decodeFrame maxLen first []) := by
  rcases decodeFrame_cases maxLen first [] with hleft | ⟨-, hleft⟩ | ⟨n, body, -, hskip, -, -⟩
  · rw [hleft]
    exact fails_refuse
  · rw [hleft]
    exact fails_closed
  · rw [skipHeaders_nil] at hskip
    cases hskip

/-- A stream that has no more than one line holds no frame. -/
theorem fails_of_last_line {bytes : List UInt8} (h : (splitLine bytes).2 = []) :
    Fails (decode maxLen ⟨.contentLength, bytes⟩) := by
  simp only [decode, decodeContentLength]
  split
  · exact fails_closed
  · split
    · exact fails_refuse
    · split
      · exact fails_refuse
      · rw [h]
        exact fails_decodeFrame_nil _

/-- Where there is one line there is no more than one in what comes first of it. -/
theorem splitLine_take {bytes : List UInt8} (h : (splitLine bytes).2 = []) (k : Nat) :
    (splitLine (bytes.take k)).2 = [] := by
  induction bytes generalizing k with
  | nil =>
      rw [List.take_nil]
      rfl
  | cons b bytes ih =>
      cases k with
      | zero =>
          rfl
      | succ k =>
          rw [List.take_succ_cons]
          unfold splitLine at h ⊢
          split
          · rename_i hb
            rw [if_pos hb] at h
            have hnil : bytes = [] := h
            rw [hnil, List.take_nil]
          · rename_i hb
            rw [if_neg hb] at h
            exact ih h k

/-- A body that is cut off is refused. -/
theorem fails_of_short_body
    {n : Nat} {rest body : List UInt8} (hlen : n ≤ maxLen)
    (hskip : skipHeaders maxLen (maxHeaderLines - 1) rest = .body body) (hshort : body.length < n) :
    Fails (decodeFrame maxLen (headerLine n) rest) := by
  rw [decodeFrame_of_headerLine hlen, hskip]
  simp only [if_pos hshort]
  exact fails_refuse

/--
A frame that is cut off fails, wherever it is cut.  The one exception is a message of
no bytes whose last line feed alone is missing: the end of the stream ends the blank
line in its place.
-/
theorem decode_cut
    {message : String} (hlen : (asBytes message).length ≤ maxLen)
    (hheader : (asBytes (headerLine (asBytes message).length)).length ≤ maxLen)
    {k : Nat} (hk : k < (encode .contentLength message).length) :
    Fails (decode maxLen ⟨.contentLength, (encode .contentLength message).take k⟩) ∨
    decode maxLen ⟨.contentLength, (encode .contentLength message).take k⟩ =
      (.message message, ⟨.contentLength, []⟩) := by
  have hcap : 2 ≤ maxLen :=
    (two_le_length_headerLine _).trans hheader
  rw [encode_contentLength] at hk ⊢
  generalize hline : asBytes (headerLine (asBytes message).length) = line at hk
  have hone : (splitLine line).2 = [] := by
    have hsplit := splitLine_headerLine (asBytes message).length []
    rw [List.append_nil, hline] at hsplit
    rw [hsplit]
  by_cases hopening : k ≤ line.length
  · -- the cut is in the opening line, or right after it
    rw [List.take_append_of_le_length hopening]
    exact .inl (fails_of_last_line (splitLine_take hone k))
  obtain ⟨j, rfl⟩ : ∃ j, k = line.length + (j + 1) :=
    ⟨k - line.length - 1, by omega⟩
  rw [List.take_length_add_append, ← hline, decode_headerLine hheader (.inr rfl)]
  cases j with
  | zero =>
      -- the cut is between the two bytes of the blank line
      have hcr : (asBytes "\r\n" ++ asBytes message).take (0 + 1) = asBytes "\r" := by
        rfl
      have hsplit : splitLine (asBytes "\r") = (asBytes "\r", []) := by
        decide
      have hblank : trimCrlf "\r" = "" := by
        decide
      have hskip : skipHeaders maxLen (maxHeaderLines - 1) (asBytes "\r") = .body [] :=
        skipHeaders_blank hsplit (by decide) (Nat.le_trans (by decide) hcap) hblank
      rw [hcr]
      rcases Nat.eq_zero_or_pos (asBytes message).length with hempty | hpos
      · obtain rfl : message = "" := by
          have hdecoded := decodeUtf8_asBytes message
          rw [List.length_eq_zero_iff.mp hempty] at hdecoded
          exact (Option.some.inj hdecoded).symm
        rw [decodeFrame_of_headerLine hlen, hskip]
        exact .inr rfl
      · exact .inl (fails_of_short_body hlen hskip hpos)
  | succ j =>
      -- the cut is in the body
      have hbody : (asBytes "\r\n" ++ asBytes message).take (j + 1 + 1) =
          asBytes "\r\n" ++ (asBytes message).take j := by
        rfl
      have hcrlf : (asBytes "\r\n").length = 2 := by
        decide
      rw [hbody]
      refine .inl (fails_of_short_body hlen (skipHeaders_crlf hcap _ _) ?_)
      rw [List.length_append, List.length_append, hcrlf] at hk
      rw [List.length_take]
      omega

/-- The decoder decodes these messages and then fails for ever. -/
inductive DecodesJust (maxLen : Nat) : List String → Decoder → Prop
  | stop {d} (hfails : Fails (decode maxLen d)) : DecodesJust maxLen [] d
  | message {text messages d d'} (hdecode : decode maxLen d = (.message text, d'))
      (hrest : DecodesJust maxLen messages d') : DecodesJust maxLen (text :: messages) d

/-- Frames that are cut off are decoded to a prefix of their messages, which holds every
message whose frame is whole. -/
theorem decodes_cut
    (messages : List String)
    (hfits : ∀ message ∈ messages, (asBytes message).length ≤ maxLen ∧
      (asBytes (headerLine (asBytes message).length)).length ≤ maxLen) (k : Nat) :
    ∃ n ≤ messages.length,
      (∀ j ≤ messages.length,
        ((messages.take j).flatMap (encode .contentLength)).length ≤ k → j ≤ n) ∧
      DecodesJust maxLen (messages.take n)
        ⟨.contentLength, (messages.flatMap (encode .contentLength)).take k⟩ := by
  induction messages generalizing k with
  | nil =>
      refine ⟨0, le_rfl, fun j hj _ => hj, .stop ?_⟩
      rw [List.flatMap_nil, List.take_nil]
      exact Spent.fails (.inr rfl)
  | cons message messages ih =>
      obtain ⟨hlen, hheader⟩ := hfits message (by simp)
      rw [List.flatMap_cons]
      by_cases hk : k < (encode .contentLength message).length
      · have hnone : ∀ j ≤ (message :: messages).length,
            (((message :: messages).take j).flatMap (encode .contentLength)).length ≤ k →
            j = 0 := by
          intro j _ hwhole
          cases j with
          | zero =>
              rfl
          | succ j =>
              rw [List.take_succ_cons, List.flatMap_cons, List.length_append] at hwhole
              omega
        rw [List.take_append_of_le_length (Nat.le_of_lt hk)]
        rcases decode_cut hlen hheader hk with hfails | hempty
        · exact ⟨0, Nat.zero_le _, fun j hj hwhole => (hnone j hj hwhole).le, .stop hfails⟩
        · refine ⟨1, by simp, fun j hj hwhole => (hnone j hj hwhole).trans_le (by simp), ?_⟩
          exact .message hempty (.stop (Spent.fails (.inr rfl)))
      · obtain ⟨k, rfl⟩ := Nat.exists_eq_add_of_le (Nat.not_lt.mp hk)
        obtain ⟨n, hn, hwhole, hjust⟩ := ih (fun message hmem => hfits message (by simp [hmem])) k
        rw [List.take_length_add_append]
        refine ⟨n + 1, by simpa using hn, ?_, ?_⟩
        · intro j hj hlength
          cases j with
          | zero =>
              exact Nat.zero_le _
          | succ j =>
              rw [List.take_succ_cons, List.flatMap_cons, List.length_append] at hlength
              have hle := hwhole j (by simpa using hj) (by omega)
              omega
        · exact .message (decode_frame hlen hheader (.inr rfl) _) hjust

end Cut

section Reads

/-- However often the transport is read, it gives these messages and then only errors. -/
def ReadsJust (messages : List String) (t : FramedTransport Reader) : Prop :=
  ∀ later, ∃ failures : List (Outcome String),
    failures.length = later + 1 ∧ (∀ outcome ∈ failures, ∃ err, outcome = .err err) ∧
    (reads (messages.length + (later + 1)) t).1 = messages.map .ok ++ failures

variable {maxLen : Usize} {t : FramedTransport Reader} {d : Decoder}

theorem exists_err_of_variant {outcome : Outcome String} {decoded : Decoded}
    (h : variant outcome = some decoded) (hno : ∀ text, decoded ≠ .message text) :
    ∃ err, outcome = .err err := by
  cases outcome with
  | ok text =>
      exact absurd (Option.some.inj h).symm (hno text)
  | err err =>
      exact ⟨err, rfl⟩
  | running =>
      cases h

/-- Where the decoder fails, every read fails. -/
theorem reads_of_fails
    (hcap : maxLen.val < usizeMax) (htracks : Tracks maxLen (t.mapReader Reader.unchunked) d)
    (hfails : Fails (decode maxLen d)) (n : Nat) :
    ∀ outcome ∈ (reads n t).1, ∃ err, outcome = .err err := by
  refine Mealy.run_outputs (fun _ => readMessage)
    (fun t => ∃ d, Tracks maxLen (t.mapReader Reader.unchunked) d ∧ Fails (decode maxLen d))
    (fun outcome => ∃ err, outcome = .err err) ?_ (List.replicate n ()) ⟨d, htracks, hfails⟩
  rintro _ t ⟨d, htracks, hfails⟩
  have hanswers := readMessage_tracks htracks hcap
  rw [readMessage_unchunked] at hanswers
  exact ⟨⟨_, hanswers.tracks, hfails.spent.fails⟩,
    exists_err_of_variant hanswers.same hfails.noMessage⟩

/-- What a decoder decodes, a transport that tracks it reads. -/
theorem readsJust_of_decodesJust
    (hcap : maxLen.val < usizeMax) {messages : List String}
    (hjust : DecodesJust maxLen messages d)
    (htracks : Tracks maxLen (t.mapReader Reader.unchunked) d) :
    ReadsJust messages t := by
  induction hjust generalizing t with
  | stop hfails =>
      intro later
      exact ⟨_, length_reads (later + 1) t, reads_of_fails hcap htracks hfails (later + 1),
        by simp⟩
  | @message text messages d d' hdecode hrest ih =>
      intro later
      have hanswers := readMessage_tracks htracks hcap
      rw [readMessage_unchunked, hdecode] at hanswers
      obtain ⟨failures, hlength, herr, hreads⟩ := ih hanswers.tracks later
      refine ⟨failures, hlength, herr, ?_⟩
      have hread : (readMessage t).1 = .ok text :=
        eq_ok_of_variant hanswers.same
      rw [List.length_cons, Nat.add_right_comm, reads_succ_fst, hread, hreads, List.map_cons,
        List.cons_append]

/-- Of the first `k` bytes of these messages' frames a prefix of the messages is read,
which holds every message whose frame is among these bytes, and then only errors. -/
def ReadsPrefix (messages : List String) (k : Nat) (t : FramedTransport Reader) : Prop :=
  ∃ n ≤ messages.length,
    (∀ j ≤ messages.length,
      ((messages.take j).flatMap (encode .contentLength)).length ≤ k → j ≤ n) ∧
    ReadsJust (messages.take n) t

theorem frames_eq_nil_iff (messages : List String) :
    messages.flatMap (encode .contentLength) = [] ↔ messages = [] := by
  rw [List.flatMap_eq_nil_iff]
  constructor
  · intro hnil
    exact List.eq_nil_iff_forall_not_mem.mpr fun message hmem =>
      encode_ne_nil _ message (hnil message hmem)
  · rintro rfl
    simp

theorem take_frames_eq_nil_iff (messages : List String) (k : Nat) :
    (messages.flatMap (encode .contentLength)).take k = [] ↔ messages = [] ∨ k = 0 := by
  rw [List.take_eq_nil_iff, frames_eq_nil_iff, or_comm]

/-- A stream that has ended gives nothing but errors, under whatever cap. -/
theorem readsJust_nil_of_ended (hended : Ended t) (hsync : t.desync = none) :
    ReadsJust [] t := by
  have hread := hended.readMessage_of_sync hsync
  have herr : ∀ n, ∀ outcome ∈ (reads n t).1, ∃ err, outcome = .err err := by
    intro n
    refine Mealy.run_outputs (fun _ => readMessage) (· = t) _ ?_ (List.replicate n ()) rfl
    rintro _ _ rfl
    rw [hread]
    exact ⟨rfl, _, rfl⟩
  intro later
  exact ⟨_, length_reads (later + 1) t, herr (later + 1), by simp⟩

/-- A transport that goes round for ever reads no prefix. -/
theorem not_readsPrefix_of_running
    {messages : List String} {k : Nat} (hrunning : (readMessage t).1 = .running) :
    ¬ ReadsPrefix messages k t := by
  rintro ⟨n, -, -, hjust⟩
  obtain ⟨failures, hlength, herr, hreads⟩ := hjust 0
  rw [← Nat.add_assoc, reads_succ_fst, hrunning] at hreads
  cases hmessages : messages.take n with
  | nil =>
      rw [hmessages, List.map_nil, List.nil_append] at hreads
      obtain ⟨err, herr⟩ := herr .running (by simp [← hreads])
      cases herr
  | cons message rest =>
      rw [hmessages] at hreads
      cases hreads

/--
Truncation yields no partial message.  Cut off anywhere, in whatever chunks, what
`write_message` sent in frames is read in `Content-Length` framing as a prefix of the
messages, every message among them whose frame is whole, and then as errors for ever;
exactly if the cap is not `usize::MAX` or there are no bytes.
-/
theorem truncated_reads_iff
    (maxLen : Usize) (messages : List String)
    (hfits : ∀ message ∈ messages, (asBytes message).length ≤ maxLen.val ∧
      (asBytes (headerLine (asBytes message).length)).length ≤ maxLen.val)
    (w : FramedTransport Reader) (hwriter : w.writer = .reliable)
    (hframing : w.framing = .contentLength) (k : Nat) (t : FramedTransport Reader)
    (hat : At maxLen .contentLength ((calls (messages.map .write) w).2.writer.written.take k)
      (t.mapReader Reader.unchunked)) :
    ReadsPrefix messages k t ↔ maxLen.val < usizeMax ∨ messages = [] ∨ k = 0 := by
  have hfaults : w.writer.faults = [] := by
    rw [hwriter]
    rfl
  have hwritten : (calls (messages.map .write) w).2.writer.written =
      messages.flatMap (encode .contentLength) := by
    rw [calls_write_reliable messages hfaults, hwriter, hframing]
    rfl
  rw [hwritten] at hat
  constructor
  · intro hprefix
    by_contra hnot
    obtain ⟨hcap, hne, hk⟩ := not_or.mp hnot |>.imp_right not_or.mp
    have hmax : t.maxLen.val = usizeMax :=
      (congrArg Fin.val hat.cap).trans (eq_usizeMax_of_not_lt hcap)
    have hbyte : startsWithByte t.reader.items = true := by
      have hbytes := mt (take_frames_eq_nil_iff messages k).mp (not_or.mpr ⟨hne, hk⟩)
      obtain ⟨b, rest, hcons⟩ := List.exists_cons_of_ne_nil hbytes
      have hitems : t.reader.items = _ := hat.items
      rw [hitems, hcons]
      rfl
    refine not_readsPrefix_of_running ?_ hprefix
    rw [Runner.readMessage_spins_on_byte hmax hbyte hat.sync]
  · rintro (hcap | hnone)
    · obtain ⟨n, hn, hwhole, hjust⟩ := decodes_cut messages hfits k
      exact ⟨n, hn, hwhole, readsJust_of_decodesJust hcap hjust (.synced rfl hat)⟩
    · have hnil := (take_frames_eq_nil_iff messages k).mpr hnone
      have hended : Ended t := by
        refine ⟨hat.closed, ?_⟩
        have hitems : t.reader.items = _ := hat.items
        rw [hitems, hnil]
        rfl
      refine ⟨0, Nat.zero_le _, ?_, readsJust_nil_of_ended hended hat.sync⟩
      intro j hj hlength
      rcases hnone with rfl | rfl
      · exact hj
      · have hempty := List.length_eq_zero_iff.mp (Nat.le_zero.mp hlength)
        have hframes := (frames_eq_nil_iff _).mp hempty
        rcases List.take_eq_nil_iff.mp hframes with hzero | rfl
        · exact hzero.le
        · exact hj

/-- Two messages, cut off in the name of the second one's header. -/
theorem truncated_reads_iff_of_cut_name :
    let w : FramedTransport Reader := ⟨.new [] true, .reliable, .contentLength, 8, none⟩
    let t : FramedTransport Reader :=
      { overChunks 32 .reliable [⟨asBytes "Content-Length: 2\r\n\r", by decide⟩,
          ⟨asBytes "\nabConte", by decide⟩] with framing := .contentLength }
    At 32 .contentLength ((calls (["ab", ""].map .write) w).2.writer.written.take 28)
      (t.mapReader Reader.unchunked) ∧
    ReadsPrefix ["ab", ""] 28 t ∧
    (reads 1 t).1 = [.ok "ab"] := by
  intro w t
  have hat : At 32 .contentLength ((calls (["ab", ""].map .write) w).2.writer.written.take 28)
      (t.mapReader Reader.unchunked) :=
    ⟨rfl, rfl, rfl, rfl, by decide⟩
  refine ⟨hat, ?_, by decide⟩
  exact (truncated_reads_iff 32 ["ab", ""] (by decide) w rfl rfl 28 t hat).mpr (.inl (by decide))

/-- Under the cap `usize::MAX` a whole frame is never read. -/
theorem truncated_reads_not_at_max :
    let maxLen : Usize := ⟨usizeMax, by decide⟩
    let w : FramedTransport Reader := ⟨.new [] true, .reliable, .contentLength, 8, none⟩
    let t : FramedTransport Reader :=
      { overChunks maxLen .reliable [⟨asBytes "Content-Length: 2\r\n\r\nab", by decide⟩] with
        framing := .contentLength }
    (∀ message ∈ ["ab"], (asBytes message).length ≤ maxLen.val ∧
      (asBytes (headerLine (asBytes message).length)).length ≤ maxLen.val) ∧
    At maxLen .contentLength ((calls (["ab"].map .write) w).2.writer.written.take 23)
      (t.mapReader Reader.unchunked) ∧
    (readMessage t).1 = .running ∧
    ¬ ReadsPrefix ["ab"] 23 t := by
  intro maxLen w t
  have hrunning : (readMessage t).1 = .running := by
    rw [Runner.readMessage_spins_on_byte rfl rfl rfl]
  exact ⟨by decide, ⟨rfl, rfl, rfl, rfl, by decide⟩, hrunning,
    not_readsPrefix_of_running hrunning⟩

end Reads

end Transport
end McpCore
