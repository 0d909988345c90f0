import McpCore.Serving
import McpCore.Websocket

/-!
# Conversations

A client sends texts over one of many connections, all in one framing in which they fit,
and reads what comes back.

`conversation`: whatever has arrived, whatever happens on the other connections and
whenever the tasks take turns, the server handled the first of the texts, each once and
in order, and the client reads the first of their replies; once the texts have arrived,
as many turns as there are texts answer all of them.
-/

namespace McpCore
namespace Runner

open Transport Server

section Frames

variable {maxLen : Nat} {texts : List String} {framing : Framing}

/-- Texts that fit are decoded one by one, whatever follows them. -/
theorem Fits.decodes (h : Fits maxLen texts framing)
    (hblank : ∀ text ∈ texts, Text.trim text ≠ "") :
    ∃ phase, phase.framing = some framing ∧ ∀ k, k ≤ texts.length → ∀ rest,
      Transport.decodes maxLen k ⟨.undecided, texts.flatMap (encode framing) ++ rest⟩ =
        ((texts.take k).map .message,
          ⟨if k = 0 then .undecided else phase,
            (texts.drop k).flatMap (encode framing) ++ rest⟩) := by
  obtain ⟨phase, hphase, hfirst, hstep, -⟩ := h.decode hblank
  refine ⟨phase, hphase, fun k hk rest => ?_⟩
  induction k with
  | zero =>
      rfl
  | succ k ih =>
      have hlt : k < texts.length := hk
      have hdecode : Transport.decode maxLen ⟨if k = 0 then .undecided else phase,
          encode framing texts[k] ++ ((texts.drop (k + 1)).flatMap (encode framing) ++ rest)⟩ =
            (.message texts[k],
              ⟨phase, (texts.drop (k + 1)).flatMap (encode framing) ++ rest⟩) := by
        by_cases hk0 : k = 0
        · subst hk0
          rw [if_pos rfl]
          exact hfirst _ (by rw [List.head?_eq_getElem?, List.getElem?_eq_getElem hlt]; rfl) _
        · rw [if_neg hk0]
          exact hstep _ (List.getElem_mem hlt) _
      rw [decodes_succ_last, ih (Nat.le_of_lt hlt), List.drop_eq_getElem_cons hlt,
        List.flatMap_cons, List.append_assoc, hdecode, List.take_succ_eq_append_getElem hlt,
        List.map_append, if_neg (Nat.succ_ne_zero k)]
      rfl

/-- After some texts the next of them is decoded. -/
theorem Fits.decode_next (h : Fits maxLen texts framing)
    (hblank : ∀ text ∈ texts, Text.trim text ≠ "") {k : Nat} (hk : k < texts.length)
    (rest : List UInt8) :
    (Transport.decode maxLen (Transport.decodes maxLen k
      ⟨.undecided, texts.flatMap (encode framing) ++ rest⟩).2).1 = .message texts[k] := by
  obtain ⟨phase, -, hdecodes⟩ := h.decodes hblank
  have hget := getElem?_decodes maxLen (Nat.lt_succ_self k)
    ⟨.undecided, texts.flatMap (encode framing) ++ rest⟩
  rw [hdecodes (k + 1) hk rest, List.getElem?_map, List.getElem?_take_of_lt (Nat.lt_succ_self k),
    List.getElem?_eq_getElem hk] at hget
  exact (Option.some.inj hget).symm

/-- A text as it is sent holds a line feed. -/
theorem lineFeed_mem_encode (framing : Framing) (text : String) :
    Text.lineFeed ∈ encode framing text := by
  have hcrlf : Text.lineFeed ∈ Text.asBytes "\r\n" := by
    decide
  cases framing with
  | contentLength =>
      rw [encode_contentLength]
      exact List.mem_append_right _ (List.mem_append_left _ hcrlf)
  | _ =>
      simp [encode]

/-- The first line of what is sent is not blank. -/
theorem Fits.solid (h : Fits maxLen texts framing)
    {text : String} (hmem : text ∈ texts) (hblank : Text.trim text ≠ "") (rest : List UInt8) :
    ∀ line, Text.decodeUtf8 (splitLine (encode framing text ++ rest)).1 = some line →
      ¬ line.toList.all Text.isWhitespace = true := by
  cases h with
  | contentLength hfits =>
      intro line hline
      rw [encode_contentLength, List.append_assoc, splitLine_headerLine,
        Text.decodeUtf8_asBytes] at hline
      cases hline
      exact headerLine_not_blank _
  | newline hlines hfirst =>
      have hbytes : encode .newline text = Text.asBytes (text ++ "\n") := by
        rw [Text.asBytes_append]
        rfl
      intro line hline hall
      rw [hbytes, splitLine_text (hlines text hmem).1.noLineFeed, Text.decodeUtf8_asBytes] at hline
      cases hline
      rw [String.toList_append, List.all_append, Bool.and_eq_true] at hall
      refine hblank ((Text.trim_eq_empty_iff text).mpr fun c hc => ?_)
      exact List.all_eq_true.mp hall.1 c hc

/-- After a byte that is no white space a stream has not ended. -/
theorem decode_ne_closed (phase : Phase) :
    (decode maxLen ⟨phase, [120]⟩).1 ≠ .connectionClosed := by
  have hsplit : splitLine [120] = ([120], []) := by
    decide
  have hdecoded : Text.decodeUtf8 [120] = some "x" := by
    decide
  cases phase with
  | undecided =>
      have hspace : ¬ "x".toList.all Text.isWhitespace = true := by
        decide
      have hheader : ¬ (contentLengthValue "x").isSome = true := by
        decide
      rw [decode, decodeUndecided, hsplit]
      simp only [hdecoded, if_neg hspace, if_neg hheader]
      split
      · simp at *
      · split
        · simp [refuse]
        · simp
  | newline =>
      simp only [decode, decodeNewline, hsplit, hdecoded]
      split
      · simp at *
      · split
        · simp [refuse]
        · simp
  | contentLength =>
      have hrefused : decodeFrame maxLen "x" [] = refuse :=
        decodeFrame_of_undeclared (by
          rw [show contentLengthValue "x" = none by decide]
          rfl)
      simp only [decode, decodeContentLength, hsplit, hdecoded, hrefused]
      split
      · simp at *
      · split
        · simp [refuse]
        · simp [refuse]
  | refused =>
      simp [decode]

end Frames

section Sending

/-- A client that sends these texts; `arrived` is what has arrived of them, and whether
the client has hung up. -/
structure Sending (maxLen : Nat) (texts : List String) (framing : Framing)
    (arrived : List UInt8 × Bool) : Prop where
  fits : Fits maxLen texts framing
  solid : ∀ text ∈ texts, Text.trim text ≠ ""
  begins : arrived.1 <+: texts.flatMap (encode framing)
  ended : arrived.2 = true → arrived.1 = texts.flatMap (encode framing)

/-- The first `k` reads need not wait: the texts have arrived whole, and their end after
the last of them. -/
structure Ripe (texts : List String) (framing : Framing) (k : Nat)
    (arrived : List UInt8 × Bool) : Prop where
  le : k ≤ texts.length + 1
  whole : (texts.take k).flatMap (encode framing) <+: arrived.1
  ended : texts.length < k → arrived.2 = true

/-- What these reads come to is what the stream begins with, however it goes on. -/
def ReadSoFar (maxLen : Nat) (arrived : List UInt8 × Bool) (raws : List String)
    (err : Option Error) : Prop :=
  ∀ more, MayFollow arrived.2 more →
    (decodes maxLen (raws.length + err.toList.length) ⟨.undecided, arrived.1 ++ more⟩).1.map some =
      raws.map (fun raw => some (.message raw)) ++ err.toList.map fun err => variant (.err err)

variable {maxLen : Nat} {texts : List String} {framing : Framing} {arrived : List UInt8 × Bool}
  {raws : List String} {err : Option Error}

theorem variant_err_ne_message (err : Error) (text : String) :
    variant (.err err) ≠ some (.message text) := by
  unfold variant
  split
  · rename_i h
    cases h
  · simp
  · simp
  · simp

/-- Reads of what a client sends give the first of its texts, and end with the stream. -/
theorem Sending.readSoFar (h : Sending maxLen texts framing arrived)
    (hread : ReadSoFar maxLen arrived raws err) :
    raws <+: texts ∧
    (err = none ∨
      err = some (.transport .connectionClosed) ∧ raws = texts ∧ arrived.2 = true) := by
  obtain ⟨more, hmore⟩ := h.begins
  have hfollow : MayFollow arrived.2 more := by
    intro hended
    rw [h.ended hended] at hmore
    exact List.append_cancel_left (hmore.trans (List.append_nil _).symm)
  obtain ⟨phase, hphase, hdecodes⟩ := h.fits.decodes h.solid
  have hrefused : (if texts.length = 0 then Phase.undecided else phase) ≠ .refused := by
    split
    · simp
    · rintro rfl
      cases hphase
  have hend : (decode maxLen (decodes maxLen texts.length
      ⟨.undecided, arrived.1 ++ more⟩).2).1 = .connectionClosed := by
    have hall := congrArg Prod.snd (hdecodes _ (Nat.le_refl _) [])
    rw [List.append_nil, List.append_nil] at hall
    rw [hmore, hall, List.drop_length, List.flatMap_nil, decode_nil _ hrefused]
  have hdecoded := hread more hfollow
  have hlength : raws.length ≤ texts.length := by
    by_contra hover
    have hlt : texts.length < raws.length := Nat.not_le.mp hover
    -- after the last text the stream has ended, and no message is decoded
    have hlast := congrArg (·[texts.length]?) hdecoded
    simp only [List.getElem?_map] at hlast
    rw [getElem?_decodes _ (Nat.lt_add_right _ hlt), hend,
      List.getElem?_append_left (by rw [List.length_map]; exact hlt), List.getElem?_map,
      List.getElem?_eq_getElem hlt] at hlast
    cases hlast
  rw [decodes_add, List.map_append] at hdecoded
  obtain ⟨hraws, herr⟩ := List.append_inj hdecoded (by
    rw [List.length_map, List.length_map, length_decodes])
  have htake : raws = texts.take raws.length := by
    have htexts := congrArg Prod.fst (hdecodes _ hlength [])
    rw [List.append_nil, ← hmore] at htexts
    have hinjective : Function.Injective fun raw => some (Decoded.message raw) := by
      intro raw raw' hsame
      cases hsame
      rfl
    refine List.map_injective_iff.mpr hinjective ?_
    rw [htexts, List.map_map] at hraws
    exact hraws.symm
  refine ⟨htake ▸ List.take_prefix _ _, ?_⟩
  cases err with
  | none =>
      exact .inl rfl
  | some err =>
      have hvariant : some (decode maxLen (decodes maxLen raws.length
          ⟨.undecided, arrived.1 ++ more⟩).2).1 = variant (.err err) := by
        simpa [hmore, decodes] using herr
      rcases Nat.lt_or_eq_of_le hlength with hlt | hlast
      · have hnext := h.fits.decode_next h.solid hlt []
        rw [List.append_nil, ← hmore] at hnext
        rw [hnext] at hvariant
        exact absurd hvariant.symm (variant_err_ne_message err _)
      · rw [hlast, hend] at hvariant
        cases eq_closed_of_variant hvariant.symm
        refine .inr ⟨rfl, by rw [htake, hlast, List.take_length], ?_⟩
        by_contra hopen
        -- one more byte could follow, and the stream would not end there
        have hlater := congrArg (·[raws.length]?)
          (hread (more ++ [120]) fun hended => absurd hended hopen)
        simp only [List.getElem?_map] at hlater
        rw [getElem?_decodes _ (by simp), ← List.append_assoc, hmore, hlast,
          hdecodes _ (Nat.le_refl _), List.drop_length, List.flatMap_nil, List.nil_append,
          List.getElem?_append_right (by simp [hlast])] at hlater
        have hclosed : (decode maxLen
            ⟨if texts.length = 0 then .undecided else phase, [120]⟩).1 = .connectionClosed := by
          simpa [hlast, variant] using hlater
        exact decode_ne_closed _ hclosed

/-- Where some texts have been read and the next has arrived, its frame is what is left. -/
theorem Sending.next (h : Sending maxLen texts framing arrived) {k m : Nat}
    (hripe : Ripe texts framing k arrived) (hm : m < k) (hlt : m < texts.length) :
    let d := (decodes maxLen m ⟨.undecided, arrived.1⟩).2
    Text.lineFeed ∈ d.rest ∧
    (∀ line, Text.decodeUtf8 (splitLine d.rest).1 = some line →
      ¬ line.toList.all Text.isWhitespace = true) ∧
    (decode maxLen d).1 = .message texts[m] := by
  intro d
  obtain ⟨rest, hrest⟩ := hripe.whole
  have hlt' : m < (texts.take k).length := by
    rw [List.length_take]
    omega
  have hget : (texts.take k)[m] = texts[m] := List.getElem_take
  have hfits : Fits maxLen (texts.take k) framing := by
    cases h.fits with
    | contentLength hfits =>
        exact .contentLength fun text hmem => hfits text (List.mem_of_mem_take hmem)
    | newline hlines hfirst =>
        refine .newline (fun text hmem => hlines text (List.mem_of_mem_take hmem))
          fun text hmem => hfirst text ?_
        rw [List.head?_take] at hmem
        split at hmem
        · simp at hmem
        · exact hmem
  have hsolid : ∀ text ∈ texts.take k, Text.trim text ≠ "" :=
    fun text hmem => h.solid text (List.mem_of_mem_take hmem)
  obtain ⟨phase, -, hdecodes⟩ := hfits.decodes hsolid
  have hd : d.rest = encode framing texts[m] ++
      (((texts.take k).drop (m + 1)).flatMap (encode framing) ++ rest) := by
    simp only [d]
    rw [← hrest, hdecodes m (Nat.le_of_lt hlt') rest, List.drop_eq_getElem_cons hlt',
      List.flatMap_cons, List.append_assoc, hget]
  refine ⟨?_, ?_, ?_⟩
  · rw [hd]
    exact List.mem_append_left _ (lineFeed_mem_encode _ _)
  · rw [hd]
    exact h.fits.solid (List.getElem_mem hlt) (h.solid _ (List.getElem_mem hlt)) _
  · simp only [d]
    rw [← hrest, hfits.decode_next hsolid hlt' rest, hget]

section Arriving

variable {sofar : List UInt8 × Bool}

theorem noteArrival_of_ended (incoming : Incoming) (hended : sofar.2 = true) :
    noteArrival sofar incoming = sofar := by
  unfold noteArrival
  rw [if_pos hended]

/-- What has arrived stays, and so does the end. -/
theorem prefix_noteArrival (sofar : List UInt8 × Bool) (incoming : Incoming) :
    sofar.1 <+: (noteArrival sofar incoming).1 ∧
    (sofar.2 = true → (noteArrival sofar incoming).2 = true) := by
  cases hended : sofar.2 with
  | true =>
      rw [noteArrival_of_ended incoming hended]
      exact ⟨List.prefix_refl _, fun _ => hended⟩
  | false =>
      refine ⟨?_, fun h => by cases h⟩
      unfold noteArrival
      simp only [hended]
      cases incoming with
      | event event =>
          exact List.prefix_append _ _
      | hangUp =>
          exact List.prefix_refl _

/-- Where the first reads need not wait they need not wait later. -/
theorem Ripe.noteArrival {k : Nat} (h : Ripe texts framing k sofar) (incoming : Incoming) :
    Ripe texts framing k (Runner.noteArrival sofar incoming) where
  le := h.le
  whole := h.whole.trans (prefix_noteArrival sofar incoming).1
  ended hlt := (prefix_noteArrival sofar incoming).2 (h.ended hlt)

theorem foldl_noteArrival (incomings : List Incoming) (sofar : List UInt8 × Bool) :
    sofar.1 <+: (incomings.foldl noteArrival sofar).1 ∧
    (sofar.2 = true → incomings.foldl noteArrival sofar = sofar) := by
  induction incomings generalizing sofar with
  | nil =>
      exact ⟨List.prefix_refl _, fun _ => rfl⟩
  | cons incoming incomings ih =>
      obtain ⟨hbegins, -⟩ := prefix_noteArrival sofar incoming
      obtain ⟨hrest, hsame⟩ := ih (noteArrival sofar incoming)
      refine ⟨hbegins.trans hrest, fun hended => ?_⟩
      rw [List.foldl_cons, noteArrival_of_ended incoming hended] at *
      exact hsame hended

/-- A client that sends these texts was sending them before. -/
theorem Sending.of_foldl {incomings : List Incoming}
    (h : Sending maxLen texts framing (incomings.foldl Runner.noteArrival sofar)) :
    Sending maxLen texts framing sofar where
  fits := h.fits
  solid := h.solid
  begins := (foldl_noteArrival incomings sofar).1.trans h.begins
  ended hended := by
    have hsame := (foldl_noteArrival incomings sofar).2 hended
    have hall := h.ended
    rw [hsame] at hall
    exact hall hended

end Arriving

end Sending

section Client

variable {maxLen : Text.Usize} {texts : List String} {framing : Framing}

/--
Texts on their way: whatever part of what was sent has arrived, and in whatever chunks, a
fresh transport reads the first of the texts, as many as have arrived whole, and waits
for the next.
-/
theorem reads_of_begun (hcap : maxLen.val < Text.usizeMax)
    (hfits : Fits maxLen.val texts framing) (hblank : ∀ text ∈ texts, Text.trim text ≠ "")
    (writer : Writer) {chunks : List Chunk}
    (hchunks : chunks.flatMap Subtype.val <+: texts.flatMap (encode framing)) :
    ∃ raws u, ReadsTo (openOver maxLen writer chunks) raws .running u ∧ raws <+: texts ∧
      ∀ k, k ≤ texts.length →
        (texts.take k).flatMap (encode framing) <+: chunks.flatMap Subtype.val →
        k ≤ raws.length := by
  have htracks : Tracks maxLen (ended (openOver maxLen writer chunks))
      ⟨.undecided, chunks.flatMap Subtype.val⟩ := by
    have h := tracks_openOver maxLen writer chunks []
    rw [onto_nil, List.append_nil] at h
    exact h
  have hsending : Sending maxLen.val texts framing (chunks.flatMap Subtype.val, false) :=
    ⟨hfits, hblank, hchunks, nofun⟩
  obtain ⟨raws, outcome, u, hreads, -⟩ := exists_readsTo htracks hcap
  have hread : ReadSoFar maxLen.val (chunks.flatMap Subtype.val, false) raws (errorOf outcome) :=
    fun more _ => hreads.decoded hcap (tracks_openOver maxLen writer chunks more)
  obtain ⟨hbegins, herr⟩ := hsending.readSoFar hread
  have hrunning : outcome = .running := by
    cases outcome with
    | ok raw =>
        exact absurd rfl (hreads.ne_ok raw)
    | err err =>
        rcases herr with hnone | ⟨-, -, hended⟩
        · cases hnone
        · cases hended
    | running =>
        rfl
  subst hrunning
  refine ⟨raws, u, hreads, hbegins, fun k hk hwhole => ?_⟩
  by_contra hfew
  have hlt : raws.length < texts.length := by
    omega
  obtain ⟨hmem, hsolid, hdecode⟩ := hsending.next
    ⟨Nat.le_succ_of_le hk, hwhole, fun hlt => absurd hk (Nat.not_le.mpr hlt)⟩
    (Nat.not_le.mp hfew) hlt
  have hempty := hreads.waits hcap htracks hmem hsolid hdecode
  refine hblank _ (List.getElem_mem hlt) ?_
  rw [hempty]
  rfl

end Client

section Progress

variable {σ : Type} {serde : SerdeJson} (crates : Externals) (core : ServerCore σ)
variable {texts : List String} {framing : Framing} {sofar : List UInt8 × Bool}
  {messages : List (Handled σ)} {err : Option Error} {task : Task} {calls : List ServiceCall}

theorem Served.readSoFar
    (h : Served serde crates core .reliable sofar.1 sofar.2 messages err task calls) :
    ReadSoFar core.config.maxContentLength.val sofar (messages.map Handled.raw) err := by
  intro more hmore
  rw [List.length_map, h.decoded more hmore, List.map_map]
  rfl

/-- The framing of a task that read a text is the client's. -/
theorem Served.framing_eq
    (h : Served serde crates core .reliable sofar.1 sofar.2 messages err task calls)
    (hsending : Sending core.config.maxContentLength.val texts framing sofar)
    (hne : messages ≠ []) :
    task.transport.framing = framing := by
  obtain ⟨more, hmore⟩ := hsending.begins
  have hfollow : MayFollow sofar.2 more := by
    intro hended
    rw [hsending.ended hended] at hmore
    exact List.append_cancel_left (hmore.trans (List.append_nil _).symm)
  have hlength : messages.length ≤ texts.length := by
    have hbegins := (hsending.readSoFar (Served.readSoFar crates core h)).1.length_le
    rw [List.length_map] at hbegins
    exact hbegins
  obtain ⟨phase, hphase, hdecodes⟩ := hsending.fits.decodes hsending.solid
  have hleft := congrArg Prod.snd (hdecodes _ hlength [])
  have hframing := h.framing hne more hfollow
  rw [List.append_nil] at hleft
  rw [hmore, hleft, if_neg (mt List.length_eq_zero_iff.mp hne), hphase] at hframing
  exact (Option.some.inj hframing).symm

/-- A read that need not wait returns. -/
theorem Progress.returns (hcap : core.config.maxContentLength.val < Text.usizeMax)
    (h : Progress crates core serde .reliable sofar.1 sofar.2 messages none task calls)
    (hsending : Sending core.config.maxContentLength.val texts framing sofar)
    {k : Nat} (hripe : Ripe texts framing k sofar) (hfew : messages.length < k) :
    (readMessage task.transport).1 ≠ .running := by
  have hopen : task.returned = none := Served.returned_eq h.served rfl
  have htracks := h.tracks hopen [] fun _ => rfl
  rw [onto_nil, List.append_nil] at htracks
  by_cases hlt : messages.length < texts.length
  · obtain ⟨hmem, hsolid, hdecode⟩ := hsending.next hripe hfew hlt
    have hne : texts[messages.length] ≠ "" := by
      intro hempty
      refine hsending.solid _ (List.getElem_mem hlt) ?_
      rw [hempty]
      rfl
    have hreturns := readMessage_returns htracks hcap hmem hsolid hdecode hne
    rw [readMessage_unchunked] at hreturns
    exact hreturns
  · have hle := hripe.le
    have hended : sofar.2 = true := hripe.ended (by omega)
    have hclosed : task.transport.reader.closed = true := (h.closed hopen).trans hended
    have hsame : ended task.transport = task.transport.mapReader Reader.unchunked := by
      simp [ended, FramedTransport.mapReader, Reader.unchunked, Stream.closing, hclosed]
    rw [hsame] at htracks
    have hanswers := readMessage_tracks htracks hcap
    rw [readMessage_unchunked] at hanswers
    intro hwait
    have hvariant := hanswers.same
    simp only [through, hwait] at hvariant
    cases hvariant

/-- An error is the end of the stream, after all the texts. -/
theorem Progress.le_of_err
    (h : Progress crates core serde .reliable sofar.1 sofar.2 messages err task calls)
    (hsending : Sending core.config.maxContentLength.val texts framing sofar)
    {k : Nat} (hripe : Ripe texts framing k sofar) (herr : err ≠ none) :
    k ≤ messages.length + err.toList.length := by
  obtain ⟨-, hstopped⟩ := hsending.readSoFar (Served.readSoFar crates core h.served)
  obtain ⟨rfl, hall, -⟩ := hstopped.resolve_left herr
  have hlength := congrArg List.length hall
  have hle := hripe.le
  rw [List.length_map] at hlength
  simp only [Option.toList_some, List.length_singleton]
  omega

/-- In as many turns as its reads need not wait for a connection gets on so far. -/
theorem Progress.answers (hserde : CompactJson serde)
    (hcap : core.config.maxContentLength.val < Text.usizeMax)
    (life : List (Pool.Own Incoming (World σ)))
    (hsound : ∀ incoming ∈ life.filterMap Pool.Own.arrival,
      ∀ failure, incoming ≠ .event (.fail failure))
    (h : Progress crates core serde .reliable sofar.1 sofar.2 messages err task calls)
    (hsending : Sending core.config.maxContentLength.val texts framing
      ((life.filterMap Pool.Own.arrival).foldl noteArrival sofar)) :
    let now := (life.filterMap Pool.Own.arrival).foldl noteArrival sofar
    let run := Mealy.run (Pool.ownStep (tasks serde crates core)) life task
    ∃ more err', Progress crates core serde .reliable now.1 now.2 (messages ++ more) err' run.2
        (calls ++ (run.1.filterMap id).flatten) ∧
      (more.map Handled.found).Sublist
        ((life.filterMap Pool.Own.found).map World.service) ∧
      ∀ k, Ripe texts framing k sofar →
        min k (messages.length + err.toList.length + (life.filterMap Pool.Own.found).length) ≤
          (messages ++ more).length + err'.toList.length := by
  induction life generalizing sofar messages err task calls with
  | nil =>
      refine ⟨[], err, ?_, List.Sublist.refl _, fun k _ => ?_⟩
      · simpa using h
      · simp only [List.filterMap_nil, List.length_nil, List.append_nil]
        omega
  | cons own life ih =>
      cases own with
      | arrive incoming =>
          have hnext := h.receive crates core (hsound incoming (by simp [Pool.Own.arrival]))
          obtain ⟨more, err', hprogress, hfound, hgets⟩ :=
            ih (fun incoming hmem => hsound incoming (List.mem_cons_of_mem _ hmem)) hnext hsending
          exact ⟨more, err', hprogress, hfound, fun k hripe => hgets k (hripe.noteArrival incoming)⟩
      | turn world =>
          obtain ⟨first, err', hturn, hfound, hkept, hforward⟩ :=
            h.turn crates core hserde hcap world
          obtain ⟨rest, err'', hrest, hfounds, hgets⟩ := ih hsound hturn hsending
          refine ⟨first ++ rest, err'', ?_, ?_, fun k hripe => ?_⟩
          · rw [List.append_assoc, List.append_assoc] at hrest
            exact hrest
          · rw [List.map_append]
            exact hfound.append hfounds
          · have hlater := hgets k hripe
            have hstep : k ≤ messages.length + err.toList.length ∨
                messages.length + err.toList.length + 1 ≤
                  (messages ++ first).length + err'.toList.length := by
              rw [List.length_append]
              by_cases herr : err = none
              · by_cases hfew : messages.length < k
                · subst herr
                  have hgot := hforward (Served.returned_eq h.served rfl)
                    (h.returns crates core hcap hsending.of_foldl hripe hfew)
                  right
                  simp only [Option.toList_none, List.length_nil]
                  omega
                · exact .inl (Nat.le_add_right_of_le (Nat.not_lt.mp hfew))
              · exact .inl (h.le_of_err crates core hsending.of_foldl hripe herr)
            have hcount : ((Pool.Own.turn world :: life).filterMap
                (Pool.Own.found (α := Incoming))).length =
                  (life.filterMap (Pool.Own.found (α := Incoming))).length + 1 := rfl
            rw [hcount]
            simp only [List.length_append] at hlater hstep ⊢
            omega

end Progress

section Conversed

variable {σ : Type} {serde : SerdeJson} (crates : Externals) (core : ServerCore σ)

theorem isObject_of_handle (serde : SerdeJson) (message : Handled σ) (session : Session) :
    ∀ value ∈ (handle serde crates core message session).1.1, value.isObject = true := by
  have hvalues := isObject_of_reply serde crates core message.raw
    (session, ⟨message.found, [], []⟩)
  unfold handle
  generalize reply serde crates core message.raw (session, ⟨message.found, [], []⟩) = left
    at hvalues ⊢
  exact hvalues

/-- Everything that messages come to is an object. -/
theorem isObject_of_handleAll (serde : SerdeJson) (messages : List (Handled σ)) :
    ∀ value ∈ (handleAll serde crates core messages).1.flatMap Prod.fst,
      value.isObject = true := by
  have houtputs := Mealy.run_outputs (handle serde crates core) (fun _ => True)
    (fun out => ∀ value ∈ out.1, value.isObject = true)
    (fun message session _ => ⟨trivial, isObject_of_handle crates core serde message session⟩)
    messages (s := Session.new.onTransport .unix) trivial
  intro value hmem
  obtain ⟨out, hout, hvalue⟩ := List.mem_flatMap.mp hmem
  exact houtputs out hout value hvalue

/-- The texts of objects fit whatever framing they are sent in, if the cap is large enough. -/
theorem fits_of_isObject (hserde : CompactJson serde) {values : List Value}
    (hobjects : ∀ value ∈ values, value.isObject = true) {cap : Nat} (h20 : 20 ≤ cap)
    (hfits : ∀ value ∈ values, (Text.asBytes (textOf serde value)).length + 1 ≤ cap)
    {framing : Framing} (hframing : framing ≠ .auto) :
    Fits cap (values.map (textOf serde)) framing ∧
    ∀ text ∈ values.map (textOf serde), Text.trim text ≠ "" := by
  have hlines : ∀ value ∈ values, IsLineText (textOf serde value) ∧
      (∃ c ∈ (textOf serde value).toList, Text.isWhitespace c = false) ∧
      contentLengthValue (textOf serde value) = none :=
    fun value hmem => isLineText_textOf serde hserde (hobjects value hmem)
  refine ⟨?_, fun text hmem htrim => ?_⟩
  · cases framing with
    | auto =>
        exact absurd rfl hframing
    | newline =>
        refine .newline (fun text hmem => ?_) (fun text hmem => ?_)
        · obtain ⟨value, hvalue, rfl⟩ := List.mem_map.mp hmem
          exact ⟨(hlines value hvalue).1, hfits value hvalue⟩
        · obtain ⟨value, hvalue, rfl⟩ := List.mem_map.mp (List.mem_of_mem_head? hmem)
          exact (hlines value hvalue).2.2
    | contentLength =>
        refine .contentLength fun text hmem => ?_
        obtain ⟨value, hvalue, rfl⟩ := List.mem_map.mp hmem
        have hlen : (Text.asBytes (textOf serde value)).length ≤ cap :=
          Nat.le_of_succ_le (hfits value hvalue)
        exact ⟨hlen, length_headerLine_le h20 hlen⟩
  · obtain ⟨value, hvalue, rfl⟩ := List.mem_map.mp hmem
    obtain ⟨-, ⟨c, hc, hspace⟩, -⟩ := hlines value hvalue
    rw [(Text.trim_eq_empty_iff _).mp htrim c hc] at hspace
    cases hspace

/-- A conversation as far as it has come: which of the client's texts were handled, what
the service was asked to do, and what the client reads; `hungUp` says whether the client
has hung up. -/
structure Conversed (serde : SerdeJson) (texts : List String) (framing : Framing)
    (hungUp : Bool) (messages : List (Handled σ)) (task : Task) (calls : List ServiceCall) :
    Prop where
  handled : messages.map Handled.raw <+: texts
  returned : task.returned = none ∨
    task.returned = some (.ok ()) ∧ messages.map Handled.raw = texts ∧ hungUp = true
  calls : calls = (handleAll serde crates core messages).1.flatMap Prod.snd
  written : task.transport.writer.written =
    (((handleAll serde crates core messages).1.flatMap Prod.fst).map (textOf serde)).flatMap
      (encode framing)
  /-- Of what was written any part has reached the client, whose cap is large enough. -/
  read : ∀ (cap : Text.Usize) (writer : Writer) (chunks : List Chunk),
    cap.val < Text.usizeMax → 20 ≤ cap.val →
    (∀ value ∈ (handleAll serde crates core messages).1.flatMap Prod.fst,
      (Text.asBytes (textOf serde value)).length + 1 ≤ cap.val) →
    chunks.flatMap Subtype.val <+: task.transport.writer.written →
    let replies := ((handleAll serde crates core messages).1.flatMap Prod.fst).map (textOf serde)
    ∃ raws u, ReadsTo (openOver cap writer chunks) raws .running u ∧ raws <+: replies ∧
      ∀ k, k ≤ replies.length →
        (replies.take k).flatMap (encode framing) <+: chunks.flatMap Subtype.val →
        k ≤ raws.length

theorem Served.conversed (hserde : CompactJson serde) {texts : List String} {framing : Framing}
    {sofar : List UInt8 × Bool} {messages : List (Handled σ)} {err : Option Error} {task : Task}
    {calls : List ServiceCall}
    (h : Served serde crates core .reliable sofar.1 sofar.2 messages err task calls)
    (hsending : Sending core.config.maxContentLength.val texts framing sofar) :
    Conversed crates core serde texts framing sofar.2 messages task calls := by
  obtain ⟨hbegins, hstopped⟩ := hsending.readSoFar (Served.readSoFar crates core h)
  have hframing : framing ≠ .auto := by
    rintro rfl
    cases hsending.fits
  have hwritten : task.transport.writer.written =
      (((handleAll serde crates core messages).1.flatMap Prod.fst).map (textOf serde)).flatMap
        (encode framing) := by
    have hquiet : err.elim [] farewell = [] := by
      rcases hstopped with rfl | ⟨rfl, -, -⟩
      · rfl
      · rfl
    rw [Served.written_eq h rfl, hquiet, List.append_nil, List.flatMap_map]
    by_cases hne : messages = []
    · subst hne
      rfl
    · rw [Served.framing_eq crates core h hsending hne]
      rfl
  refine ⟨hbegins, ?_, h.calls, hwritten, fun cap writer chunks hcap h20 hfits hchunks => ?_⟩
  · rw [Served.returned_eq h rfl]
    rcases hstopped with rfl | ⟨rfl, hall, hended⟩
    · exact .inl rfl
    · exact .inr ⟨rfl, hall, hended⟩
  · obtain ⟨hfits', hblank⟩ := fits_of_isObject hserde
      (isObject_of_handleAll crates core serde messages) h20 hfits hframing
    rw [hwritten] at hchunks
    exact reads_of_begun hcap hfits' hblank writer hchunks

/-- How many turns a connection takes. -/
def turns (n : Nat) (happenings : List (Happening σ)) : Nat :=
  happenings.countP fun
    | .turn k => k == n
    | _ => false

theorem length_found (serde : SerdeJson) (n : Nat) (before after : List (Happening σ))
    (world : World σ) :
    ((lifeOf crates core serde n before after world).filterMap
      (Pool.Own.found (α := Incoming))).length = turns n after := by
  refine (Pool.length_founds _ _).trans ?_
  rw [List.countP_map, turns]
  refine List.countP_congr fun happening _ => ?_
  cases happening with
  | _ =>
      rfl

theorem lifeOf_append (serde : SerdeJson) (n : Nat) (before soon later : List (Happening σ))
    (world : World σ) :
    lifeOf crates core serde n before (soon ++ later) world =
      lifeOf crates core serde n before soon world ++
        lifeOf crates core serde n (before ++ soon) later world := by
  simp only [lifeOf, serving, List.map_append, Pool.owns_append, Mealy.run_append_snd]

/--
A conversation, among others: whatever was accepted before, whatever arrives when and
whoever takes turns, of a client's texts the first were handled, each once and in order,
and of their replies the client reads the first, as many as have reached it; the task
returns only once the client has hung up and all was answered.  From when the first `k`
texts have arrived, `k` turns answer them.
-/
theorem conversation (hserde : CompactJson serde)
    (hcap : core.config.maxContentLength.val < Text.usizeMax)
    (before soon later : List (Happening σ)) (world : World σ)
    (texts : List String) (framing : Framing) :
    let n := (serving serde crates core before world).2.tasks.length
    let run := serving serde crates core (before ++ .accept .reliable :: (soon ++ later)) world
    (∀ failure, Incoming.event (.fail failure) ∉ arrivals n (soon ++ later)) →
    Sending core.config.maxContentLength.val texts framing
      (received (arrivals n (soon ++ later))) →
    ∃ task messages, run.2.tasks[n]? = some task ∧
      Conversed crates core serde texts framing (received (arrivals n (soon ++ later))).2
        messages task (Pool.putOut n run.1).flatten ∧
      (messages.map Handled.found).Sublist
        (foundBy crates core serde n (before ++ [.accept .reliable]) (soon ++ later) world) ∧
      ∀ k, Ripe texts framing k (received (arrivals n soon)) → k ≤ turns n later →
        k ≤ messages.length ∨ k = texts.length + 1 ∧ task.returned = some (.ok ()) := by
  intro n run hsound hsending
  obtain ⟨htask, hputOut⟩ := serving_accept crates core serde before (soon ++ later) .reliable world
  have hsplit := lifeOf_append crates core serde n (before ++ [.accept .reliable]) soon later world
  have hsoon := arrivals_lifeOf crates core serde n (before ++ [.accept .reliable]) soon world
  have hlater := arrivals_lifeOf crates core serde n (before ++ [.accept .reliable] ++ soon) later
    world
  have hturns := length_found crates core serde n (before ++ [.accept .reliable] ++ soon) later
    world
  have harrivals : arrivals n (soon ++ later) = arrivals n soon ++ arrivals n later :=
    List.filterMap_append
  rw [hsplit] at htask hputOut
  unfold foundBy
  rw [hsplit]
  generalize lifeOf crates core serde n (before ++ [.accept .reliable]) soon world = first
    at htask hputOut hsoon ⊢
  generalize lifeOf crates core serde n (before ++ [.accept .reliable] ++ soon) later world = rest
    at htask hputOut hlater hturns ⊢
  have hreceived : received (arrivals n (soon ++ later)) =
      (arrivals n later).foldl noteArrival (received (arrivals n soon)) := by
    rw [harrivals, received, List.foldl_append]
    rfl
  rw [hreceived] at hsending ⊢
  rw [harrivals] at hsound
  obtain ⟨messages, err, hprogress, hfound⟩ :=
    (show Progress crates core serde .reliable (received []).1 (received []).2 [] none _ [] from
      progress_accepted crates core .reliable).alone crates core hserde hcap first
      (by
        rw [hsoon]
        rintro incoming hmem failure rfl
        exact hsound failure (List.mem_append_left _ hmem))
  rw [hsoon] at hprogress
  obtain ⟨more, err', hanswers, hfounds, hgets⟩ :=
    hprogress.answers crates core hserde hcap rest
      (by
        rw [hlater]
        rintro incoming hmem failure rfl
        exact hsound failure (List.mem_append_right _ hmem))
      (by
        rw [hlater]
        exact hsending)
  rw [hlater] at hanswers
  refine ⟨_, [] ++ messages ++ more, htask, ?_, ?_, fun k hripe hk => ?_⟩
  · have hserved := hanswers.served
    rw [Mealy.run_append_snd, hputOut, Mealy.run_append_fst, List.filterMap_append,
      List.flatten_append]
    exact Served.conversed crates core hserde hserved hsending
  · rw [List.filterMap_append, List.map_append, List.map_append, List.map_append]
    exact hfound.append hfounds
  · have hgot := hgets k hripe
    rw [hturns] at hgot
    obtain ⟨-, hstopped⟩ := hsending.readSoFar (Served.readSoFar crates core hanswers.served)
    have hreturned := Served.returned_eq hanswers.served rfl
    rcases hstopped with rfl | ⟨rfl, hall, -⟩
    · rw [Option.toList_none, List.length_nil] at hgot
      exact .inl (by omega)
    · have hlength := congrArg List.length hall
      have hle := hripe.le
      rw [List.length_map] at hlength
      rw [Option.toList_some, List.length_singleton] at hgot
      by_cases hlast : k ≤ texts.length
      · exact .inl (by omega)
      · refine .inr ⟨by omega, ?_⟩
        rw [Mealy.run_append_snd, hreturned]
        rfl

/-- A ping is answered while another client sends no JSON. -/
theorem conversation_of_ping :
    let ping := "\x7b\"id\":7,\"method\":\"ping\"\x7d"
    let core := saying (.ok (.text ""))
    let soon : List (Happening Unit) :=
      [.arrive 0 (.event (.chunk (Text.asBytes (ping ++ "\n")) (by decide))), .accept .reliable,
        .arrive 1 (.event (.chunk (Text.asBytes "nope\n") (by decide)))]
    let later : List (Happening Unit) :=
      [.turn 1, .turn 0, .turn 0]
    let run := serving pingJson plainCrates core (.accept .reliable :: (soon ++ later))
      ⟨(), [], []⟩
    ∃ task messages, run.2.tasks[0]? = some task ∧
      Conversed plainCrates core pingJson [ping] .newline false messages task
        (Pool.putOut 0 run.1).flatten ∧
      messages.map Handled.raw = [ping] := by
  intro ping core soon later run
  have hserde : CompactJson pingJson :=
    compactJson_plainJson _ _
  have hsoon : received (arrivals 0 soon) = (Text.asBytes (ping ++ "\n"), false) := by
    decide +kernel
  have hreceived : received (arrivals 0 (soon ++ later)) =
      (Text.asBytes (ping ++ "\n"), false) := by
    decide +kernel
  have hfits : Fits core.config.maxContentLength.val [ping] .newline :=
    .newline (by decide) (by decide)
  have hsent : [ping].flatMap (encode .newline) = Text.asBytes (ping ++ "\n") := by
    decide
  have hrun : serving pingJson plainCrates core ([] ++ .accept .reliable :: (soon ++ later))
      ⟨(), [], []⟩ = run :=
    rfl
  have hsound : ∀ failure, Incoming.event (.fail failure) ∉ arrivals 0 (soon ++ later) := by
    intro failure hmem
    simp [soon, later, arrivals] at hmem
  have hconversation := conversation plainCrates core hserde (by decide) [] soon later
    ⟨(), [], []⟩ [ping] .newline
  rw [hrun] at hconversation
  have hsending : Sending core.config.maxContentLength.val [ping] .newline
      (received (arrivals 0 (soon ++ later))) := by
    rw [hreceived]
    exact ⟨hfits, by decide, hsent ▸ List.prefix_refl _, fun h => by cases h⟩
  obtain ⟨task, messages, htask, hconversed, -, hgets⟩ := hconversation hsound hsending
  have hripe : Ripe [ping] .newline 1 (received (arrivals 0 soon)) := by
    rw [hsoon]
    exact ⟨by decide, hsent ▸ List.prefix_refl _, fun h => absurd h (Nat.lt_irrefl 1)⟩
  have hlength : 1 ≤ messages.length :=
    (hgets 1 hripe (by decide)).resolve_right (by simp)
  refine ⟨task, messages, htask, hconversed, ?_⟩
  refine hconversed.handled.eq_of_length_le ?_
  rw [List.length_map]
  exact hlength

end Conversed

end Runner
end McpCore
