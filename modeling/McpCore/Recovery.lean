import McpCore.OpenStreams
import McpCore.Termination

/-!
# When a pump gives up

A transport tells a stream that it lost from a text that was consumed in full and is
not UTF-8: after the latter the next read proceeds normally.  A pump returns on either.

`ReadsOn` lists what reading on comes to, `served` what the iterations of a pump take
up.  `givesUpOnlyWhenLost_iff` says for which streams, ended or not, the pump returns
`Err` only when its transport is desynchronised: those in which no such text comes up.
-/

namespace McpCore
namespace Transport

open Text

section Decoder

def Framing.phase : Framing → Phase
  | .auto => .undecided
  | .newline => .newline
  | .contentLength => .contentLength

/-- Decoding message by message comes to a text that is whole and not UTF-8. -/
inductive ComesToUndecodable (maxLen : Nat) (closed : Bool) : Decoder → Prop
  | here {d} (hbad : Undecodable closed d.rest (decode maxLen d)) :
      ComesToUndecodable maxLen closed d
  | later {d text d'} (hdecode : decode maxLen d = (.message text, d'))
      (hlater : ComesToUndecodable maxLen closed d') : ComesToUndecodable maxLen closed d

variable {maxLen : Nat} {closed : Bool} {d : Decoder}

theorem decode_nil (phase : Phase) (hphase : phase ≠ .refused) :
    decode maxLen ⟨phase, []⟩ = (.connectionClosed, ⟨phase, []⟩) := by
  cases phase with
  | undecided =>
      simp only [decode]
      rw [decodeUndecided, dif_pos rfl]
  | newline =>
      rfl
  | contentLength =>
      rfl
  | refused =>
      exact absurd rfl hphase

/-- Such a text is more than nothing. -/
theorem ComesToUndecodable.rest_ne_nil (h : ComesToUndecodable maxLen closed d) :
    d.rest ≠ [] := by
  obtain ⟨phase, rest⟩ := d
  rintro rfl
  by_cases hphase : phase = .refused
  · subst hphase
    cases h with
    | here hbad =>
        exact hbad.2.1 rfl
    | later hdecode hlater =>
        cases hdecode
  · cases h with
    | here hbad =>
        rw [decode_nil phase hphase] at hbad
        cases hbad.1
    | later hdecode hlater =>
        rw [decode_nil phase hphase] at hdecode
        cases hdecode

theorem comesToUndecodable_of_message {text : String} {d' : Decoder}
    (hdecode : decode maxLen d = (.message text, d')) :
    ComesToUndecodable maxLen closed d ↔ ComesToUndecodable maxLen closed d' := by
  constructor
  · intro h
    cases h with
    | here hbad =>
        rw [hdecode] at hbad
        cases hbad.1
    | later hdecode' hlater =>
        rw [hdecode] at hdecode'
        cases hdecode'
        exact hlater
  · exact .later hdecode

theorem rest_of_decodeFrame {first : String} {rest : List UInt8}
    (h : (decodeFrame maxLen first rest).1 = .connectionClosed) :
    (decodeFrame maxLen first rest).2.rest = [] := by
  rcases decodeFrame_cases maxLen first rest with
    hleft | ⟨-, hleft⟩ | ⟨n, body, -, -, -, hleft⟩
  · rw [hleft]
    rfl
  · rw [hleft]
  · rw [hleft] at h
    exact absurd h (decodedText_ne_closed _)

theorem rest_of_decodeUndecided {rest : List UInt8}
    (h : (decodeUndecided maxLen rest).1 = .connectionClosed) :
    (decodeUndecided maxLen rest).2.rest = [] := by
  induction rest using decodeUndecided.induct maxLen with
  | case1 =>
      rw [decodeUndecided, dif_pos rfl]
  | case2 rest hne hlong =>
      rw [decodeUndecided, dif_neg hne, if_pos hlong]
      rfl
  | case3 rest hne hfits hnone =>
      rw [decodeUndecided, dif_neg hne, if_neg hfits, hnone] at h
      cases h
  | case4 rest hne hfits line hsome hblank ih =>
      rw [decodeUndecided, dif_neg hne, if_neg hfits, hsome] at h ⊢
      simp only [if_pos hblank] at h ⊢
      exact ih h
  | case5 rest hne hfits line hsome hblank hheader =>
      rw [decodeUndecided, dif_neg hne, if_neg hfits, hsome] at h ⊢
      simp only [if_neg hblank, if_pos hheader] at h ⊢
      exact rest_of_decodeFrame h
  | case6 rest hne hfits line hsome hblank hheader =>
      rw [decodeUndecided, dif_neg hne, if_neg hfits, hsome] at h
      simp only [if_neg hblank, if_neg hheader] at h
      cases h

/-- The end of the stream is where nothing is left. -/
theorem rest_of_connectionClosed (h : (decode maxLen d).1 = .connectionClosed) :
    (decode maxLen d).2.rest = [] := by
  obtain ⟨phase, rest⟩ := d
  cases phase with
  | undecided =>
      exact rest_of_decodeUndecided h
  | newline =>
      simp only [decode, decodeNewline] at h ⊢
      split
      · rfl
      · rename_i hne
        rw [if_neg hne] at h
        split
        · rfl
        · rename_i hfits
          rw [if_neg hfits] at h
          split at h
          · cases h
          · cases h
  | contentLength =>
      simp only [decode, decodeContentLength] at h ⊢
      split
      · rfl
      · rename_i hne
        rw [if_neg hne] at h
        split
        · rfl
        · rename_i hfits
          rw [if_neg hfits] at h
          split
          · rfl
          · rename_i line hsome
            simp only [hsome] at h
            exact rest_of_decodeFrame h
  | refused =>
      cases h

end Decoder

section Reading

/-- The transport reads these messages, and then a read comes to `outcome`. -/
inductive ReadsTo : FramedTransport Reader → List String → Outcome String →
    FramedTransport Reader → Prop
  | stop {t outcome u} (hnone : ∀ raw, outcome ≠ .ok raw)
      (hread : readMessage t = (outcome, u)) : ReadsTo t [] outcome u
  | message {t t' u raw messages outcome} (hread : readMessage t = (.ok raw, t'))
      (hrest : ReadsTo t' messages outcome u) : ReadsTo t (raw :: messages) outcome u

/-- Reading goes on, whatever errors the reads return, and comes to these messages. -/
inductive ReadsOn : FramedTransport Reader → List String → Prop
  | stop (t) : ReadsOn t []
  | message {t t' raw messages} (hread : readMessage t = (.ok raw, t'))
      (hrest : ReadsOn t' messages) : ReadsOn t (raw :: messages)
  | failed {t t' err messages} (hread : readMessage t = (.err err, t'))
      (hrest : ReadsOn t' messages) : ReadsOn t messages

/-- The transport, without chunks, on the stream that ends after the same bytes. -/
def ended (t : FramedTransport Reader) : FramedTransport Stream :=
  (t.mapReader Reader.unchunked).mapReader Stream.closing

variable {t u : FramedTransport Reader} {messages : List String} {outcome : Outcome String}

theorem readMessage_ended (t : FramedTransport Reader) :
    (readMessage t).1 = .running ∨
    readMessage (ended t) = ((readMessage t).1, ended (readMessage t).2) := by
  have hclosing := readMessage_closing (t.mapReader Reader.unchunked)
  rw [readMessage_unchunked] at hclosing
  exact hclosing

theorem closed_of_readMessage (t : FramedTransport Reader) :
    (readMessage t).2.reader.closed = t.reader.closed := by
  have hclosed := closed_readMessage (t.mapReader Reader.unchunked)
  rw [readMessage_unchunked] at hclosed
  exact hclosed

theorem eq_invalid_of_variant (h : variant outcome = some .invalidMessage) :
    ∃ reason, outcome = .err (invalidMessage reason) := by
  unfold variant at h
  split at h
  · cases h
  · exact ⟨_, rfl⟩
  · cases h
  · cases h

theorem eq_err_of_variant {err : Error} {decoded : Decoded}
    (h : variant (.err err) = some decoded) :
    (err = .transport .connectionClosed ∧ decoded = .connectionClosed) ∨
    ((∃ reason, err = invalidMessage reason) ∧ decoded = .invalidMessage) := by
  unfold variant at h
  split at h
  · rename_i hsame
    cases hsame
  · rename_i hsame
    cases hsame
    cases h
    exact .inr ⟨⟨_, rfl⟩, rfl⟩
  · rename_i hsame
    cases hsame
    cases h
    exact .inl ⟨rfl, rfl⟩
  · cases h

/-- Where nothing is left a read waits or finds the end of the stream. -/
theorem readMessage_of_items_nil (hitems : t.reader.items = []) (hsync : t.desync = none) :
    (readMessage t).1 = .running ∨
    ((readMessage t).1 = .err (.transport .connectionClosed) ∧
      (readMessage t).2.reader.items = []) := by
  have hclosed : Ended (t.mapReader fun reader => { reader with closed := true }) :=
    ⟨rfl, hitems⟩
  have hunchunked :=
    readMessage_unchunked (t.mapReader fun reader => { reader with closed := true })
  rw [hclosed.readMessage_of_sync hsync] at hunchunked
  rcases readMessage_ended t with hrunning | hended
  · exact .inl hrunning
  · have hsame : ((readMessage t).1, ended (readMessage t).2) =
        (.err (.transport .connectionClosed), ended t) :=
      hended.symm.trans hunchunked
    have hleft := congrArg (fun left => left.2.reader.items) hsame
    exact .inr ⟨congrArg Prod.fst hsame, hleft.trans hitems⟩

/-- Nothing more will be read: the stream was given up, or nothing is left of it. -/
def Done (t : FramedTransport Reader) : Prop :=
  t.desync.isSome ∨ t.reader.items = []

/-- A transport that is done reads no message, and stays done. -/
theorem Done.readMessage (h : Done t) :
    (∀ raw, (readMessage t).1 ≠ .ok raw) ∧
    ((readMessage t).1 ≠ .running → Done (readMessage t).2) := by
  cases hdesync : t.desync with
  | some reason =>
      rw [readMessage_of_desync hdesync]
      exact ⟨by simp, fun _ => h⟩
  | none =>
      have hitems : t.reader.items = [] := by
        simpa [Done, hdesync] using h
      rcases readMessage_of_items_nil hitems hdesync with hrunning | ⟨hclosed, hleft⟩
      · exact ⟨by simp [hrunning], fun hreturns => absurd hrunning hreturns⟩
      · exact ⟨by simp [hclosed], fun _ => .inr hleft⟩

theorem Done.readsOn (h : Done t) (hon : ReadsOn t messages) :
    messages = [] := by
  induction hon with
  | stop =>
      rfl
  | @message t t' raw messages hread hrest ih =>
      exact absurd (congrArg Prod.fst hread) (h.readMessage.1 raw)
  | @failed t t' err messages hread hrest ih =>
      have hnext := h.readMessage.2
      rw [hread] at hnext
      exact ih (hnext (by simp))

section Tracking

variable {maxLen : Usize} {d : Decoder}

theorem done_of_tracks (h : Tracks maxLen (ended u) d) (hdone : d.phase = .refused ∨ d.rest = []) :
    Done u := by
  cases hdesync : u.desync with
  | some reason =>
      exact .inl (by simp [hdesync])
  | none =>
      have hphase : ¬ d.phase = .refused := by
        rw [← h.desync_isSome_iff]
        simp [ended, FramedTransport.mapReader, hdesync]
      generalize hv : ended u = v at h
      cases h with
      | refused hsome =>
          exact absurd rfl hphase
      | @synced phase framing rest _ hat =>
          subst hv
          have hnil : rest = [] := hdone.resolve_left hphase
          have hitems : u.reader.items = rest.map .byte := hat.items
          rw [hnil] at hitems
          exact .inr hitems

theorem ends_of_tracks (h : Tracks maxLen (ended t) d) (hcap : maxLen.val < usizeMax) :
    ReadEnds t.reader.closed d.rest (decode maxLen d) (readMessage t).1 := by
  have hends := readMessage_ends h hcap
  rw [readMessage_unchunked] at hends
  exact hends

/-- A read that returns is the decoder's. -/
theorem answers_of_tracks (h : Tracks maxLen (ended t) d) (hcap : maxLen.val < usizeMax)
    (hreturns : (readMessage t).1 ≠ .running) :
    Answers maxLen ((readMessage t).1, ended (readMessage t).2) (decode maxLen d) := by
  have hanswers := readMessage_tracks h hcap
  rw [(readMessage_ended t).resolve_left hreturns] at hanswers
  exact hanswers

theorem tracks_of_message (h : Tracks maxLen (ended t) d) (hcap : maxLen.val < usizeMax)
    {raw : String} (hread : readMessage t = (.ok raw, u)) :
    decode maxLen d = (.message raw, (decode maxLen d).2) ∧
    Tracks maxLen (ended u) (decode maxLen d).2 := by
  have hanswers := answers_of_tracks h hcap (by simp [hread])
  rw [hread] at hanswers
  exact ⟨Prod.ext (Option.some.inj hanswers.same).symm rfl, hanswers.tracks⟩

/-- Each message takes something, so reading comes to something else. -/
theorem exists_readsTo (h : Tracks maxLen (ended t) d) (hcap : maxLen.val < usizeMax) :
    ∃ messages outcome u, ReadsTo t messages outcome u ∧ messages.length ≤ d.rest.length := by
  generalize hlen : d.rest.length = n
  induction n using Nat.strong_induction_on generalizing t d with
  | _ n ih =>
      rcases hread : readMessage t with ⟨raw | err | _, u⟩
      · obtain ⟨hdecode, htracks⟩ := tracks_of_message h hcap hread
        obtain ⟨-, hlt⟩ := decode_message hdecode
        obtain ⟨messages, outcome, v, hreads, hle⟩ :=
          ih _ (by rw [← hlen]; exact hlt) htracks rfl
        refine ⟨raw :: messages, outcome, v, .message hread hreads, ?_⟩
        rw [List.length_cons]
        omega
      · exact ⟨[], .err err, u, .stop (by simp) hread, Nat.zero_le _⟩
      · exact ⟨[], .running, u, .stop (by simp) hread, Nat.zero_le _⟩

/-- Reading stops, the stream kept, where the decoder comes to a text that is whole and
not UTF-8. -/
theorem ReadsTo.comesToUndecodable_iff (hreads : ReadsTo t messages outcome u)
    (h : Tracks maxLen (ended t) d) (hcap : maxLen.val < usizeMax) :
    (∃ err, outcome = .err err ∧ isConnectionClosed err = false ∧ u.desync = none) ↔
      ComesToUndecodable maxLen t.reader.closed d := by
  induction hreads generalizing d with
  | @stop t outcome u hnone hread =>
      have hends := ends_of_tracks h hcap
      have hanswers := answers_of_tracks h hcap
      rw [hread] at hends hanswers
      simp only at hends hanswers
      constructor
      · rintro ⟨err, rfl, hopen, hsync⟩
        obtain ⟨hsame, htracks⟩ := hanswers (by simp)
        have hinvalid : (decode maxLen d).1 = .invalidMessage := by
          rcases eq_err_of_variant hsame with ⟨rfl, -⟩ | ⟨-, hinvalid⟩
          · cases hopen
          · exact hinvalid
        have hkept : (decode maxLen d).2.phase ≠ .refused := by
          rw [Ne, ← htracks.desync_isSome_iff]
          simp [ended, FramedTransport.mapReader, hsync]
        exact .here (hends.returns (by simp) hinvalid hkept)
      · intro hcomes
        have hreturns : outcome ≠ .running := by
          rintro rfl
          obtain ⟨hrest, hwhole⟩ := hends.waits rfl
          cases hcomes with
          | here hbad =>
              exact hwhole hbad
          | later hdecode hlater =>
              rw [hdecode] at hrest
              exact hlater.rest_ne_nil hrest
        obtain ⟨hsame, htracks⟩ := hanswers hreturns
        cases hcomes with
        | here hbad =>
            rw [hbad.1] at hsame
            obtain ⟨reason, rfl⟩ := eq_invalid_of_variant hsame
            have hsync : ¬ u.desync.isSome := mt htracks.desync_isSome_iff.mp hbad.2.1
            exact ⟨_, rfl, rfl, by simpa using hsync⟩
        | @later _ text d' hdecode hlater =>
            rw [hdecode] at hsame
            exact absurd (eq_ok_of_variant hsame) (hnone text)
  | @message t t' u raw messages outcome hread hrest ih =>
      obtain ⟨hdecode, htracks⟩ := tracks_of_message h hcap hread
      have hclosed := closed_of_readMessage t
      rw [hread] at hclosed
      rw [comesToUndecodable_of_message hdecode, ← hclosed]
      exact ih htracks

/-- Where no such text comes up, an error is the end of reading. -/
theorem ReadsTo.done (hreads : ReadsTo t messages outcome u)
    (h : Tracks maxLen (ended t) d) (hcap : maxLen.val < usizeMax)
    (hno : ¬ ComesToUndecodable maxLen t.reader.closed d) {err : Error}
    (herr : outcome = .err err) :
    Done u := by
  induction hreads generalizing d with
  | @stop t outcome u hnone hread =>
      subst herr
      have hends := ends_of_tracks h hcap
      have hanswers := answers_of_tracks h hcap
      rw [hread] at hends hanswers
      obtain ⟨hsame, htracks⟩ := hanswers (by simp)
      refine done_of_tracks htracks ?_
      rcases eq_err_of_variant hsame with ⟨-, hclosed⟩ | ⟨-, hinvalid⟩
      · exact .inr (rest_of_connectionClosed hclosed)
      · by_contra hnot
        exact hno (.here (hends.returns (by simp) hinvalid (not_or.mp hnot).1))
  | @message t t' u raw messages outcome hread hrest ih =>
      obtain ⟨hdecode, htracks⟩ := tracks_of_message h hcap hread
      have hclosed := closed_of_readMessage t
      rw [hread] at hclosed
      rw [comesToUndecodable_of_message hdecode, ← hclosed] at hno
      exact ih htracks hno herr

end Tracking

/-- What reading on comes to is what was read before, if reading is done then. -/
theorem ReadsOn.isPrefix {on : List String} (hreads : ReadsTo t messages outcome u)
    (hon : ReadsOn t on) (hdone : ∀ err, outcome = .err err → Done u) :
    on <+: messages := by
  induction hreads generalizing on with
  | @stop t outcome u hnone hread =>
      cases hon with
      | stop =>
          exact List.nil_prefix
      | message hread' hrest =>
          rw [hread] at hread'
          cases hread'
          exact absurd rfl (hnone _)
      | failed hread' hrest =>
          rw [hread] at hread'
          cases hread'
          obtain rfl := (hdone _ rfl).readsOn hrest
          exact List.nil_prefix
  | @message t t' u raw messages outcome hread hrest ih =>
      cases hon with
      | stop =>
          exact List.nil_prefix
      | message hread' hrest' =>
          rw [hread] at hread'
          cases hread'
          exact (List.prefix_cons_inj raw).mpr (ih hrest' hdone)
      | failed hread' hrest' =>
          rw [hread] at hread'
          cases hread'

end Reading

end Transport

namespace Runner

open Transport Server

variable {σ : Type} (serde : SerdeJson) (crates : Externals) (core : ServerCore σ)

section Served

/-- The message that an iteration takes up, when it answers it and goes on. -/
def takenUp (c : Connection Reader σ) : List String :=
  match readMessage c.transport, pumpBody serde crates core c with
  | (.ok raw, _), .next _ => [raw]
  | _, _ => []

/-- The messages that a pump serves, in the order of its iterations. -/
def served (c : Connection Reader σ) : List String :=
  Loop.trace (pumpBody serde crates core) (takenUp serde crates core) (fuel c.transport) c

/-- The pump returns `Err` only of a stream that was lost, and serves every message that
reading on comes to. -/
structure GivesUpOnlyWhenLost (c : Connection Reader σ) : Prop where
  lost : ∀ err, (pump serde crates core c).1 = .err err →
    (pump serde crates core c).2.transport.desync.isSome
  serves : ∀ messages, ReadsOn c.transport messages → messages <+: served serde crates core c

/-- What a pump returns when a read comes to `outcome`. -/
def returned : Transport.Outcome String → Transport.Outcome Unit
  | .err err => stopped err
  | _ => .running

variable {serde} {t u : FramedTransport Reader} {messages : List String}
variable {outcome : Transport.Outcome String}

/-- A pump serves what is read before a read that gives no message, and stops there. -/
theorem run_pumpBody_readsTo (hserde : CompactJson serde) (hreads : ReadsTo t messages outcome u)
    (writer : Writer) (hwriter : writer.faults = []) (session : Session) (world : World σ)
    {n : Nat} (hn : messages.length < n) :
    (∃ left, Loop.run (pumpBody serde crates core) n ⟨{ t with writer }, session, world⟩ =
        some left ∧
      left.1 = returned outcome ∧ left.2.transport.desync = u.desync) ∧
    Loop.trace (pumpBody serde crates core) (takenUp serde crates core) n
      ⟨{ t with writer }, session, world⟩ = messages := by
  induction hreads generalizing writer session world n with
  | @stop t outcome u hnone hread =>
      obtain ⟨n, rfl⟩ : ∃ k, n = k + 1 := ⟨n - 1, by omega⟩
      have hread' : readMessage { t with writer } = (outcome, { u with writer }) := by
        rw [readMessage_writer, hread]
      cases outcome with
      | ok raw =>
          exact absurd rfl (hnone raw)
      | err err =>
          have hbody : pumpBody serde crates core ⟨{ t with writer }, session, world⟩ = _ :=
            pumpBody_stop crates core hserde hwriter hread'
          refine ⟨⟨_, Loop.run_succ_of_leave n hbody, rfl, rfl⟩, ?_⟩
          simp only [Loop.trace, takenUp, hread', hbody, List.append_nil]
      | running =>
          have hbody : pumpBody serde crates core ⟨{ t with writer }, session, world⟩ =
              .leave (.running, ⟨{ u with writer }, session, world⟩) := by
            simp only [pumpBody, hread']
          refine ⟨⟨_, Loop.run_succ_of_leave n hbody, rfl, rfl⟩, ?_⟩
          simp only [Loop.trace, takenUp, hread', hbody, List.append_nil]
  | @message t t' u raw messages outcome hread hrest ih =>
      obtain ⟨n, rfl⟩ : ∃ k, n = k + 1 := ⟨n - 1, by omega⟩
      have hread' : readMessage { t with writer } = (.ok raw, { t' with writer }) := by
        rw [readMessage_writer, hread]
      have hbody : pumpBody serde crates core ⟨{ t with writer }, session, world⟩ = _ :=
        pumpBody_message crates core hserde hwriter hread'
      rw [List.length_cons] at hn
      obtain ⟨⟨left, hrun, hleft⟩, htrace⟩ :=
        ih (sent serde (reply serde crates core raw (session, world)).1
          { t' with writer }).writer rfl
          (reply serde crates core raw (session, world)).2.1
          (reply serde crates core raw (session, world)).2.2 (n := n) (by omega)
      refine ⟨⟨left, ?_, hleft⟩, ?_⟩
      · rw [Loop.run_succ_of_next n hbody]
        exact hrun
      · simp only [Loop.trace, takenUp, hread', hbody, List.singleton_append]
        exact congrArg (raw :: ·) htrace

theorem pump_readsTo (hserde : CompactJson serde) (hreads : ReadsTo t messages outcome u)
    (hwriter : t.writer.faults = []) (session : Session) (world : World σ)
    (hn : messages.length < fuel t) :
    (pump serde crates core ⟨t, session, world⟩).1 = returned outcome ∧
    (pump serde crates core ⟨t, session, world⟩).2.transport.desync = u.desync ∧
    served serde crates core ⟨t, session, world⟩ = messages := by
  obtain ⟨⟨left, hrun, houtcome, hdesync⟩, htrace⟩ :=
    run_pumpBody_readsTo crates core hserde hreads t.writer hwriter session world hn
  rw [pump_eq_of_run crates core hrun]
  exact ⟨houtcome, hdesync, htrace⟩

end Served

section GivingUp

variable {serde}

/-- At `usize::MAX` nothing is read but the end of a stream that is empty. -/
theorem readsTo_at_max {t : FramedTransport Reader} (hmax : t.maxLen.val = Text.usizeMax)
    (hsync : t.desync = none) {bytes : List UInt8} (hitems : t.reader.items = bytes.map .byte) :
    ∃ outcome u, ReadsTo t [] outcome u ∧
      ∀ err, outcome = .err err → isConnectionClosed err = true ∧ Done u := by
  cases bytes with
  | nil =>
      rcases hread : readMessage t with ⟨outcome, u⟩
      have hnil := readMessage_of_items_nil hitems hsync
      rw [hread] at hnil
      rcases hnil with hrunning | ⟨hclosed, hleft⟩
      · simp only at hrunning
        subst hrunning
        exact ⟨_, u, .stop (by simp) hread, by simp⟩
      · simp only at hclosed hleft
        subst hclosed
        refine ⟨_, u, .stop (by simp) hread, ?_⟩
        rintro _ ⟨⟩
        exact ⟨rfl, .inr hleft⟩
  | cons b bytes =>
      have hbyte : startsWithByte t.reader.items = true := by
        rw [hitems]
        rfl
      exact ⟨.running, t, .stop (by simp) (readMessage_spins_on_byte hmax hbyte hsync), by simp⟩

/-- What a pump keeps to, by what its transport reads. -/
theorem givesUpOnlyWhenLost_of_readsTo (hserde : CompactJson serde)
    {t u : FramedTransport Reader} {messages : List String} {outcome : Transport.Outcome String}
    (hreads : ReadsTo t messages outcome u) (hwriter : t.writer.faults = [])
    (session : Session) (world : World σ) (hn : messages.length < fuel t)
    (hlost : ∀ err, outcome = .err err → isConnectionClosed err = true ∨ u.desync.isSome)
    (hdone : ∀ err, outcome = .err err → Done u) :
    GivesUpOnlyWhenLost serde crates core ⟨t, session, world⟩ := by
  obtain ⟨houtcome, hdesync, hserved⟩ :=
    pump_readsTo crates core hserde hreads hwriter session world hn
  refine ⟨?_, ?_⟩
  · intro err herr
    rw [houtcome] at herr
    rw [hdesync]
    cases outcome with
    | err err' =>
        refine (hlost err' rfl).resolve_left ?_
        intro hclosed
        simp [returned, stopped, hclosed] at herr
    | _ =>
        cases herr
  · intro messages' hon
    rw [hserved]
    exact ReadsOn.isPrefix hreads hon hdone

/--
The pump gives up only on a lost stream, exactly when it comes to no text that is whole
and not UTF-8, or when nothing is read at all.  This is so for every stream of bytes, in
whatever chunks and whether it ends or not, in each framing, for every service, session
and cap.
-/
theorem givesUpOnlyWhenLost_iff (hserde : CompactJson serde)
    (reader : Reader) (bytes : List UInt8) (hitems : reader.items = bytes.map .byte)
    (framing : Framing) (maxLen : Text.Usize) (session : Session) (world : World σ) :
    GivesUpOnlyWhenLost serde crates core
        ⟨⟨reader, .reliable, framing, maxLen, none⟩, session, world⟩ ↔
      maxLen.val = Text.usizeMax ∨
        ¬ ComesToUndecodable maxLen.val reader.closed ⟨framing.phase, bytes⟩ := by
  by_cases hcap : maxLen.val < Text.usizeMax
  · have hphase : Phase.framing framing.phase = some framing := by
      cases framing with
      | _ =>
          rfl
    have htracks : Tracks maxLen (ended ⟨reader, .reliable, framing, maxLen, none⟩)
        ⟨framing.phase, bytes⟩ :=
      .synced hphase ⟨rfl, rfl, rfl, rfl, hitems⟩
    obtain ⟨messages, outcome, u, hreads, hle⟩ := exists_readsTo htracks hcap
    have hn : messages.length <
        fuel (⟨reader, .reliable, framing, maxLen, none⟩ : FramedTransport Reader) := by
      have hlength := congrArg List.length hitems
      rw [List.length_map] at hlength
      exact Nat.lt_succ_of_le (hle.trans (le_of_eq hlength.symm))
    have hiff := hreads.comesToUndecodable_iff htracks hcap
    constructor
    · intro hgives
      refine .inr fun hcomes => ?_
      obtain ⟨err, rfl, hopen, hsync⟩ := hiff.mpr hcomes
      obtain ⟨houtcome, hdesync, -⟩ :=
        pump_readsTo crates core hserde hreads rfl session world hn
      have hlost := hgives.lost err (by rw [houtcome]; simp [returned, stopped, hopen])
      rw [hdesync, hsync] at hlost
      cases hlost
    · intro hcond
      have hno := hcond.resolve_left (by omega)
      refine givesUpOnlyWhenLost_of_readsTo crates core hserde hreads rfl session world hn ?_
        fun err herr => hreads.done htracks hcap hno herr
      intro err herr
      by_contra hnot
      obtain ⟨hopen, hsync⟩ := not_or.mp hnot
      exact hno (hiff.mp ⟨err, herr, by simpa using hopen, by simpa using hsync⟩)
  · have hmax := Text.eq_usizeMax_of_not_lt hcap
    refine iff_of_true ?_ (.inl hmax)
    obtain ⟨outcome, u, hreads, hend⟩ := @readsTo_at_max
      ⟨reader, .reliable, framing, maxLen, none⟩ hmax rfl bytes hitems
    exact givesUpOnlyWhenLost_of_readsTo crates core hserde hreads rfl session world
      (Nat.succ_pos _) (fun err herr => .inl (hend err herr).1) fun err herr => (hend err herr).2

/-- A ping in a stream that ends: reading comes to no such text, and the ping is served. -/
theorem givesUpOnlyWhenLost_iff_of_ping :
    let ping := "\x7b\"id\":7,\"method\":\"ping\"\x7d"
    let serde := plainJson ping
      (.object [("id", .number (.int 7)), ("method", .string "ping")])
    let crates : Externals :=
      { display := fun _ => "7", safeName := id, safeMessage := id,
        extractTraceparent := fun _ => .error "", setParent := fun _ => none }
    let core : ServerCore Unit :=
      { config := .new "server" "1.0",
        service :=
          { tools := fun s => ([], s), callTool := fun _ _ s => (.ok (.text ""), s),
            shutdown := id } }
    let reader : Reader := .new [.chunk (Text.asBytes (ping ++ "\n")) (by decide)] true
    GivesUpOnlyWhenLost serde crates core
        ⟨⟨reader, .reliable, .auto, 64, none⟩, .new, ⟨(), [], []⟩⟩ ∧
      served serde crates core ⟨⟨reader, .reliable, .auto, 64, none⟩, .new, ⟨(), [], []⟩⟩ =
        [ping] := by
  intro ping serde crates core reader
  have hitems : reader.items = (Text.asBytes (ping ++ "\n")).map .byte :=
    List.append_nil _
  have hreads : ReadsTo ⟨reader, .reliable, .auto, 64, none⟩ [ping]
      (.err (.transport .connectionClosed)) _ :=
    .message (Prod.ext (by decide) rfl) (.stop (by simp) (Prod.ext (by decide) rfl))
  have htracks : Tracks 64 (ended ⟨reader, .reliable, .auto, 64, none⟩)
      ⟨.undecided, Text.asBytes (ping ++ "\n")⟩ :=
    .synced rfl ⟨rfl, rfl, rfl, rfl, hitems⟩
  have hno : ¬ ComesToUndecodable 64 true ⟨.undecided, Text.asBytes (ping ++ "\n")⟩ := by
    intro hcomes
    obtain ⟨err, herr, hopen, -⟩ :=
      (hreads.comesToUndecodable_iff htracks (by decide)).mpr hcomes
    cases herr
    cases hopen
  refine ⟨(givesUpOnlyWhenLost_iff crates core (compactJson_plainJson _ _) reader _ hitems .auto 64
    .new ⟨(), [], []⟩).mpr (.inr hno), ?_⟩
  exact (pump_readsTo crates core (compactJson_plainJson _ _) hreads rfl _ _ (by decide)).2.2

/-- A line that is not UTF-8 is consumed in full and the ping after it is there to be read,
but the pump returns `Err` and serves nothing. -/
theorem not_givesUpOnlyWhenLost_of_bad_line :
    let ping := "\x7b\"id\":7,\"method\":\"ping\"\x7d"
    let serde := plainJson ping
      (.object [("id", .number (.int 7)), ("method", .string "ping")])
    let crates : Externals :=
      { display := fun _ => "7", safeName := id, safeMessage := id,
        extractTraceparent := fun _ => .error "", setParent := fun _ => none }
    let core : ServerCore Unit :=
      { config := .new "server" "1.0",
        service :=
          { tools := fun s => ([], s), callTool := fun _ _ s => (.ok (.text ""), s),
            shutdown := id } }
    let c : Connection Reader Unit :=
      ⟨⟨.new [.chunk [0xff, 0x0a] (by decide),
          .chunk (Text.asBytes (ping ++ "\n")) (by decide)] true,
        .reliable, .auto, 64, none⟩, .new, ⟨(), [], []⟩⟩
    (∃ err, (pump serde crates core c).1 = .err err) ∧
      (pump serde crates core c).2.transport.desync = none ∧
      ReadsOn c.transport [ping] ∧ served serde crates core c = [] ∧
      ¬ GivesUpOnlyWhenLost serde crates core c := by
  intro ping serde crates core c
  have hbad : readMessage c.transport = (.err (invalidMessage
      "invalid UTF-8: invalid utf-8 sequence of 1 bytes from index 0"), _) :=
    Prod.ext (by decide) rfl
  have hon : ReadsOn c.transport [ping] :=
    .failed hbad (.message (Prod.ext (by decide) rfl) (.stop _))
  have hserde := compactJson_plainJson ping
    (.object [("id", .number (.int 7)), ("method", .string "ping")])
  obtain ⟨houtcome, hdesync, hserved⟩ := pump_readsTo crates core hserde
    (.stop (by simp) hbad) rfl Session.new ⟨(), [], []⟩ (by decide)
  refine ⟨⟨_, houtcome⟩, hdesync, hon, hserved, ?_⟩
  intro hgives
  have hprefix := hgives.serves _ hon
  rw [hserved] at hprefix
  simp at hprefix

end GivingUp

end Runner
end McpCore
