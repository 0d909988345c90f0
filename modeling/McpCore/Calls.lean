import McpCore.Library.Mealy
import McpCore.Scan

/-!
# Sequences of calls on a transport

A transport is used through `read_message` and `write_message`, one call after
the other.  `calls` runs a list of calls and collects what each returned; `reads`
is the special case of reading again and again.
-/

namespace McpCore
namespace Transport

/-- A call on a transport. -/
inductive Call where
  | read
  | write (message : String)
deriving DecidableEq

/-- What a call returned. -/
inductive Reply where
  | read (outcome : Outcome String)
  | wrote (outcome : Outcome Unit)
deriving DecidableEq

section Runs

variable {R : Type} [LineReader R]

/-- Make one call. -/
def call : Call → FramedTransport R → Reply × FramedTransport R
  | .read, t => (.read (readMessage t).1, (readMessage t).2)
  | .write message, t => (.wrote (writeMessage message t).1, (writeMessage message t).2)

/-- Make the calls one after another. -/
def calls (cs : List Call) (t : FramedTransport R) : List Reply × FramedTransport R :=
  Mealy.run call cs t

/-- Read `n` times. -/
def reads (n : Nat) (t : FramedTransport R) :
    List (Outcome String) × FramedTransport R :=
  Mealy.run (fun _ => readMessage) (List.replicate n ()) t

theorem reads_succ_fst (n : Nat) (t : FramedTransport R) :
    (reads (n + 1) t).1 = (readMessage t).1 :: (reads n (readMessage t).2).1 := by
  rw [reads, List.replicate_succ, Mealy.run_cons_fst]
  rfl

theorem length_reads (n : Nat) (t : FramedTransport R) :
    (reads n t).1.length = n := by
  rw [reads, Mealy.length_run_fst, List.length_replicate]

theorem reads_succ_snd (n : Nat) (t : FramedTransport R) :
    (reads (n + 1) t).2 = (readMessage (reads n t).2).2 := by
  simp only [reads, List.replicate_succ', Mealy.run_concat]

end Runs

theorem writeMessage_unchunked (message : String) (t : FramedTransport Reader) :
    writeMessage message (t.mapReader Reader.unchunked) =
      through Reader.unchunked (writeMessage message t) :=
  eq_through_of_agree (writeMessage_agree (alike_mapReader t) message)

theorem call_unchunked (c : Call) (t : FramedTransport Reader) :
    call c (t.mapReader Reader.unchunked) = through Reader.unchunked (call c t) := by
  cases c with
  | read =>
      simp only [call, readMessage_unchunked]
      rfl
  | write message =>
      simp only [call, writeMessage_unchunked]
      rfl

/-- What each step leaves seen through a view, a run leaves seen through it. -/
theorem run_through
    {ι ο R R' : Type} {view : R → R'}
    {step : ι → FramedTransport R → ο × FramedTransport R}
    {step' : ι → FramedTransport R' → ο × FramedTransport R'}
    (hstep : ∀ i t, step' i (t.mapReader view) = through view (step i t))
    (is : List ι) (t : FramedTransport R) :
    Mealy.run step' is (t.mapReader view) = through view (Mealy.run step is t) := by
  have h :=
    Mealy.run_simulation step step'
      (fun t t' => t' = t.mapReader view) id id
      (by
        rintro i t _ rfl
        rw [hstep]
        exact ⟨rfl, rfl⟩)
      is (s := t) rfl
  rw [List.map_id, List.map_id] at h
  exact Prod.ext h.1.symm h.2

/-- Calls do not depend on the chunks. -/
theorem calls_unchunked (cs : List Call) (t : FramedTransport Reader) :
    calls cs (t.mapReader Reader.unchunked) = through Reader.unchunked (calls cs t) :=
  run_through call_unchunked cs t

/-- Reading again and again does not depend on the chunks. -/
theorem reads_unchunked (n : Nat) (t : FramedTransport Reader) :
    reads n (t.mapReader Reader.unchunked) = through Reader.unchunked (reads n t) :=
  run_through (fun _ => readMessage_unchunked) (List.replicate n ()) t

end Transport
end McpCore
