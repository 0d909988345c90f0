import McpCore.Startup
import McpCore.Telemetry
import Mathlib.Data.List.Induction
import Mathlib.Logic.Function.Basic

/-!
# The life of a process

`run` owns its process: it parses the arguments, installs the telemetry subscriber, listens
for the stop signals and serves until the server ends or a signal stops it.  Signals arrive
at any time, between any two steps.

`lifecycle` says for every run what ends the process and what became of its telemetry;
`stops` that a signal that does not kill it stops it soon; `result_reported` that no signal
keeps the result of a server that has ended from being reported.
-/

namespace McpCore
namespace Lifecycle

open Startup

section Model

/-- Which signal asked the process to stop. -/
inductive StopSignal where
  | terminate
  | interrupt
deriving DecidableEq

def StopSignal.asStr : StopSignal → String
  | .terminate => "SIGTERM"
  | .interrupt => "SIGINT"

/-- What `get_matches` and `from_arg_matches` make of the command line. -/
inductive CommandLine where
  | exits (status : Nat)
  | invalid (e : String)
  | serve (common : CommonServeArgs)

/-- What a process finds outside itself. -/
structure Outside where
  arguments : CommandLine
  /-- What `telemetry::init` comes to. -/
  telemetry : Except String Unit
  /-- What registering for a signal comes to. -/
  register : StopSignal → Except IoError Unit
  /-- Whether a signal was set to be ignored when the process was started. -/
  ignored : StopSignal → Bool

/-- Where the future `served` waits. -/
inductive Served where
  | building (common : CommonServeArgs)
  | serving (entered : Entered)
deriving DecidableEq

inductive Ending where
  | exit (status : Nat)
  | killed (signal : StopSignal)
  | returned (result : Except Error Unit)

/-- How far `run` has come. -/
inductive Phase where
  | starting
  | parsed (common : CommonServeArgs)
  /-- The telemetry guard is there. -/
  | recording (common : CommonServeArgs)
  /-- The first of the two signals is registered for. -/
  | listening (common : CommonServeArgs)
  /-- In the `select!`. -/
  | selecting (served : Served)
  /-- The telemetry guard is still to be dropped. -/
  | stopping (signal : StopSignal)
  | returning (result : Except Error Unit)
  /-- Only `exit` is still to be called. -/
  | flushed
  | ended (ending : Ending)

/-- What a process does that is seen outside. -/
inductive Deed where
  | installed
  | entered (entered : Entered)
  | logged (signal : Signal)
  | flushed
deriving DecidableEq

/-- A process; of each signal the receiver, once there is one, and whether it has the signal
to give. -/
structure Process where
  phase : Phase
  receivers : StopSignal → Option Bool
  deeds : List Deed

def Process.started : Process :=
  ⟨.starting, fun _ => none, []⟩

/-- The process goes on to another phase. -/
def Process.goTo (process : Process) (phase : Phase) (deeds : List Deed) : Process :=
  { process with phase, deeds := process.deeds ++ deeds }

/-- The event that `flush_and_exit` logs. -/
def stoppingEvent (signal : StopSignal) : Signal :=
  .event .info [("signal", signal.asStr)] "stopping"

/-- `StopSignals::install` registers for one signal after the other. -/
def Process.register (outside : Outside) (signal : StopSignal) (next : Phase)
    (process : Process) : Process :=
  match outside.register signal with
  | .ok _ =>
      { process with
        phase := next
        receivers := Function.update process.receivers signal (some false) }
  | .error err => process.goTo (.returning (.error (.io err))) []

/-- A signal is delivered; without a receiver it has its inherited effect. -/
def Process.deliver (outside : Outside) (signal : StopSignal) (process : Process) : Process :=
  match process.phase with
  | .ended _ => process
  | _ =>
      match process.receivers signal with
      | some _ =>
          { process with receivers := Function.update process.receivers signal (some true) }
      | none =>
          if outside.ignored signal then process
          else process.goTo (.ended (.killed signal)) []

/-- What polling `served` comes to. -/
inductive Polled where
  | pending (served : Served) (deeds : List Deed)
  | ready (result : Except Error Unit) (deeds : List Deed)

def pollTransport (transport : Option (Except Error Unit)) (entered : Entered)
    (deeds : List Deed) : Polled :=
  match transport with
  | none => .pending (.serving entered) deeds
  | some result => .ready result deeds

/-- Poll `served`; `build` and `transport` are what the service under construction and the
transport come to, if they do. -/
def pollServed (features : Features) (config : Startup.ServerConfig)
    (build transport : Option (Except Error Unit)) : Served → Polled
  | .building common =>
      match build with
      | none => .pending (.building common) []
      | some (.error e) => .ready (.error e) []
      | some (.ok _) =>
          match serve features config common with
          | .error e => .ready (.error e) []
          | .ok entered => pollTransport transport entered [.entered entered]
  | .serving entered => pollTransport transport entered []

/-- The signal that `recv` takes; where both have arrived it may be either. -/
def recv (first : StopSignal) (receivers : StopSignal → Option Bool) : Option StopSignal :=
  let second := match first with
    | .terminate => StopSignal.interrupt
    | .interrupt => StopSignal.terminate
  if receivers first = some true then some first
  else if receivers second = some true then some second
  else none

/-- One thing that happens to a process. -/
inductive Occurrence where
  | signal (signal : StopSignal)
  /-- The process goes on to the next point at which a signal makes a difference. -/
  | turn (build transport : Option (Except Error Unit)) (first : StopSignal)

variable (features : Features) (config : Startup.ServerConfig) (outside : Outside)

/-- The process goes on. -/
def Process.turn (build transport : Option (Except Error Unit)) (first : StopSignal)
    (process : Process) : Process :=
  match process.phase with
  | .starting =>
      match outside.arguments with
      | .exits status => process.goTo (.ended (.exit status)) []
      | .invalid e =>
          process.goTo (.ended (.returned (.error (.config s!"argument parsing: {e}")))) []
      | .serve common => process.goTo (.parsed common) []
  | .parsed common =>
      match outside.telemetry with
      | .ok _ => process.goTo (.recording common) [.installed]
      | .error e => process.goTo (.ended (.returned (.error (.telemetry e)))) []
  | .recording common => process.register outside .terminate (.listening common)
  | .listening common => process.register outside .interrupt (.selecting (.building common))
  | .selecting served =>
      -- The branches are polled in order.
      match pollServed features config build transport served with
      | .ready result deeds => process.goTo (.returning result) deeds
      | .pending served deeds =>
          match recv first process.receivers with
          | some signal =>
              { process.goTo (.stopping signal) (deeds ++ [.logged (stoppingEvent signal)]) with
                receivers := Function.update process.receivers signal (some false) }
          | none => process.goTo (.selecting served) deeds
  | .stopping _ => process.goTo .flushed [.flushed]
  | .returning result => process.goTo (.ended (.returned result)) [.flushed]
  | .flushed => process.goTo (.ended (.exit 0)) []
  | .ended _ => process

def Process.step (process : Process) : Occurrence → Process
  | .signal signal => process.deliver outside signal
  | .turn build transport first => process.turn features config outside build transport first

/-- A process after all this. -/
def life (occurrences : List Occurrence) : Process :=
  occurrences.foldl (Process.step features config outside) .started

end Model

section Specification

variable (features : Features) (config : Startup.ServerConfig) (outside : Outside)

/-- Among the occurrences is one that found the process like this. -/
def Happened (occurrences : List Occurrence) (P : Process → Occurrence → Prop) : Prop :=
  ∃ before occurrence after, occurrences = before ++ occurrence :: after ∧
    P (life features config outside before) occurrence

/-- A signal arrived once there was a receiver for it. -/
def Survived (occurrences : List Occurrence) (signal : StopSignal) : Prop :=
  Happened features config outside occurrences fun process occurrence =>
    occurrence = .signal signal ∧ process.receivers signal ≠ none

/-- A signal arrived before there was a receiver for it. -/
def Struck (occurrences : List Occurrence) (signal : StopSignal) : Prop :=
  Happened features config outside occurrences fun process occurrence =>
    occurrence = .signal signal ∧ process.receivers signal = none ∧
      outside.ignored signal = false

/-- The server was found not to have ended. -/
def FoundPending (occurrences : List Occurrence) : Prop :=
  Happened features config outside occurrences fun process occurrence =>
    ∃ build transport first served left deeds, occurrence = .turn build transport first ∧
      process.phase = .selecting served ∧
      pollServed features config build transport served = .pending left deeds

/-- Why the server ended by itself. -/
inductive ServedTo (occurrences : List Occurrence) : Except Error Unit → Prop
  | notBuilt {e : Error}
      (h : Happened features config outside occurrences fun process occurrence =>
        ∃ common transport first, occurrence = .turn (some (.error e)) transport first ∧
          process.phase = .selecting (.building common)) :
      ServedTo occurrences (.error e)
  | refused {e : Error} {common : CommonServeArgs} (hserve : outside.arguments = .serve common)
      (h : serve features config common = .error e) : ServedTo occurrences (.error e)
  | transport {result : Except Error Unit}
      (h : Happened features config outside occurrences fun process occurrence =>
        ∃ build first served, occurrence = .turn build (some result) first ∧
          process.phase = .selecting served) :
      ServedTo occurrences result

/-- Where `served` may wait, and what the process has done until then. -/
inductive Reached : Served → List Deed → Prop
  | building {common : CommonServeArgs} (hserve : outside.arguments = .serve common) :
      Reached (.building common) [.installed]
  | serving {common : CommonServeArgs} {entered : Entered}
      (hserve : outside.arguments = .serve common)
      (h : serve features config common = .ok entered) :
      Reached (.serving entered) [.installed, .entered entered]

/-- How a process ends, and all that it has done until then. -/
inductive Ends (occurrences : List Occurrence) : Ending → List Deed → Prop
  | exited {status : Nat} (h : outside.arguments = .exits status) :
      Ends occurrences (.exit status) []
  | invalid {e : String} (h : outside.arguments = .invalid e) :
      Ends occurrences (.returned (.error (.config s!"argument parsing: {e}"))) []
  | silent {e : String} (h : outside.telemetry = .error e) :
      Ends occurrences (.returned (.error (.telemetry e))) []
  | killed {signal : StopSignal} {deeds : List Deed}
      (h : Struck features config outside occurrences signal)
      (hdeeds : deeds = [] ∨ deeds = [.installed]) : Ends occurrences (.killed signal) deeds
  | unregistered {signal : StopSignal} {err : IoError}
      (h : outside.register signal = .error err) :
      Ends occurrences (.returned (.error (.io err))) [.installed, .flushed]
  | returned {result : Except Error Unit} {served : Served} {deeds : List Deed}
      (h : ServedTo features config outside occurrences result)
      (hdeeds : Reached features config outside served deeds) :
      Ends occurrences (.returned result) (deeds ++ [.flushed])
  | stopped {signal : StopSignal} {served : Served} {deeds : List Deed}
      (h : Survived features config outside occurrences signal)
      (hpending : FoundPending features config outside occurrences)
      (hdeeds : Reached features config outside served deeds) :
      Ends occurrences (.exit 0) (deeds ++ [.logged (stoppingEvent signal), .flushed])

end Specification

section Safety

variable {features : Features} {config : Startup.ServerConfig} {outside : Outside}
  {past : List Occurrence} {P : Process → Occurrence → Prop}

theorem life_append (occurrence : Occurrence) :
    life features config outside (past ++ [occurrence]) =
      (life features config outside past).step features config outside occurrence := by
  rw [life, List.foldl_append]
  rfl

theorem Happened.later (h : Happened features config outside past P) (occurrence : Occurrence) :
    Happened features config outside (past ++ [occurrence]) P := by
  obtain ⟨before, occurrence', after, rfl, hP⟩ := h
  exact ⟨before, occurrence', after ++ [occurrence], by simp, hP⟩

/-- What happens now has happened then. -/
theorem Happened.now {occurrence : Occurrence}
    (h : P (life features config outside past) occurrence) :
    Happened features config outside (past ++ [occurrence]) P :=
  ⟨past, occurrence, [], rfl, h⟩

theorem ServedTo.later {result : Except Error Unit}
    (h : ServedTo features config outside past result) (occurrence : Occurrence) :
    ServedTo features config outside (past ++ [occurrence]) result := by
  cases h with
  | notBuilt h =>
      exact .notBuilt (h.later occurrence)
  | refused hserve h =>
      exact .refused hserve h
  | transport h =>
      exact .transport (h.later occurrence)

theorem Ends.later {ending : Ending} {deeds : List Deed}
    (h : Ends features config outside past ending deeds) (occurrence : Occurrence) :
    Ends features config outside (past ++ [occurrence]) ending deeds := by
  cases h with
  | exited h =>
      exact .exited h
  | invalid h =>
      exact .invalid h
  | silent h =>
      exact .silent h
  | killed h hdeeds =>
      exact .killed (h.later occurrence) hdeeds
  | unregistered h =>
      exact .unregistered h
  | returned h hdeeds =>
      exact .returned (h.later occurrence) hdeeds
  | stopped h hpending hdeeds =>
      exact .stopped (h.later occurrence) (hpending.later occurrence) hdeeds

/-- How far a process has come, and what it has done so far. -/
inductive Course (features : Features) (config : Startup.ServerConfig) (outside : Outside)
    (past : List Occurrence) : Process → Prop
  | starting {receivers} (hnone : ∀ signal, receivers signal = none) :
      Course features config outside past ⟨.starting, receivers, []⟩
  | parsed {receivers common} (hnone : ∀ signal, receivers signal = none)
      (hserve : outside.arguments = .serve common) :
      Course features config outside past ⟨.parsed common, receivers, []⟩
  | recording {receivers common} (hnone : ∀ signal, receivers signal = none)
      (hserve : outside.arguments = .serve common) :
      Course features config outside past ⟨.recording common, receivers, [.installed]⟩
  | listening {receivers common} (hterminate : receivers .terminate ≠ none)
      (hinterrupt : receivers .interrupt = none) (hserve : outside.arguments = .serve common) :
      Course features config outside past ⟨.listening common, receivers, [.installed]⟩
  | selecting {receivers served deeds} (hall : ∀ signal, receivers signal ≠ none)
      (hdeeds : Reached features config outside served deeds) :
      Course features config outside past ⟨.selecting served, receivers, deeds⟩
  | stopping {receivers signal served deeds} (hall : ∀ signal, receivers signal ≠ none)
      (h : Survived features config outside past signal)
      (hpending : FoundPending features config outside past)
      (hdeeds : Reached features config outside served deeds) :
      Course features config outside past
        ⟨.stopping signal, receivers, deeds ++ [.logged (stoppingEvent signal)]⟩
  | flushed {receivers signal served deeds} (hall : ∀ signal, receivers signal ≠ none)
      (h : Survived features config outside past signal)
      (hpending : FoundPending features config outside past)
      (hdeeds : Reached features config outside served deeds) :
      Course features config outside past
        ⟨.flushed, receivers, deeds ++ [.logged (stoppingEvent signal), .flushed]⟩
  | unregistered {receivers signal err} (hnone : receivers signal = none)
      (h : outside.register signal = .error err) :
      Course features config outside past
        ⟨.returning (.error (.io err)), receivers, [.installed]⟩
  | returning {receivers result served deeds} (hall : ∀ signal, receivers signal ≠ none)
      (h : ServedTo features config outside past result)
      (hdeeds : Reached features config outside served deeds) :
      Course features config outside past ⟨.returning result, receivers, deeds⟩
  | ended {receivers ending deeds} (h : Ends features config outside past ending deeds) :
      Course features config outside past ⟨.ended ending, receivers, deeds⟩

/-- A process that goes on with the same receivers is where it was. -/
theorem Course.later {process : Process} (h : Course features config outside past process)
    (occurrence : Occurrence) {receivers : StopSignal → Option Bool}
    (hsame : ∀ signal, receivers signal = none ↔ process.receivers signal = none) :
    Course features config outside (past ++ [occurrence]) { process with receivers } := by
  cases h with
  | starting hnone =>
      exact .starting fun signal => (hsame signal).mpr (hnone signal)
  | parsed hnone hserve =>
      exact .parsed (fun signal => (hsame signal).mpr (hnone signal)) hserve
  | recording hnone hserve =>
      exact .recording (fun signal => (hsame signal).mpr (hnone signal)) hserve
  | listening hterminate hinterrupt hserve =>
      exact .listening (mt (hsame _).mp hterminate) ((hsame _).mpr hinterrupt) hserve
  | selecting hall hdeeds =>
      exact .selecting (fun signal => mt (hsame signal).mp (hall signal)) hdeeds
  | stopping hall h hpending hdeeds =>
      exact .stopping (fun signal => mt (hsame signal).mp (hall signal)) (h.later occurrence)
        (hpending.later occurrence) hdeeds
  | flushed hall h hpending hdeeds =>
      exact .flushed (fun signal => mt (hsame signal).mp (hall signal)) (h.later occurrence)
        (hpending.later occurrence) hdeeds
  | unregistered hnone h =>
      exact .unregistered ((hsame _).mpr hnone) h
  | returning hall h hdeeds =>
      exact .returning (fun signal => mt (hsame signal).mp (hall signal)) (h.later occurrence)
        hdeeds
  | ended h =>
      exact .ended (h.later occurrence)

/-- A process with receivers for all signals is not killed, and otherwise has done little. -/
theorem Course.deeds_of_none {process : Process}
    (h : Course features config outside past process) {signal : StopSignal}
    (hnone : process.receivers signal = none) :
    (∃ ending, process.phase = .ended ending) ∨
      process.deeds = [] ∨ process.deeds = [.installed] := by
  cases h with
  | starting hall =>
      exact .inr (.inl rfl)
  | parsed hall hserve =>
      exact .inr (.inl rfl)
  | recording hall hserve =>
      exact .inr (.inr rfl)
  | listening hterminate hinterrupt hserve =>
      exact .inr (.inr rfl)
  | unregistered hnone' h =>
      exact .inr (.inr rfl)
  | ended h =>
      exact .inl ⟨_, rfl⟩
  | selecting hall =>
      exact absurd hnone (hall signal)
  | stopping hall =>
      exact absurd hnone (hall signal)
  | flushed hall =>
      exact absurd hnone (hall signal)
  | returning hall =>
      exact absurd hnone (hall signal)

/-- A signal is remembered, ignored or kills the process. -/
theorem deliver_cases (outside : Outside) (signal : StopSignal) (process : Process) :
    (process.deliver outside signal = process ∧
      ((∃ ending, process.phase = .ended ending) ∨ process.receivers signal = none)) ∨
    (process.receivers signal ≠ none ∧ process.deliver outside signal =
      { process with receivers := Function.update process.receivers signal (some true) }) ∨
    (process.receivers signal = none ∧ outside.ignored signal = false ∧
      (∀ ending, process.phase ≠ .ended ending) ∧
      process.deliver outside signal = process.goTo (.ended (.killed signal)) []) := by
  obtain ⟨phase, receivers, deeds⟩ := process
  by_cases hended : ∃ ending, phase = .ended ending
  · obtain ⟨ending, rfl⟩ := hended
    exact .inl ⟨rfl, .inl ⟨ending, rfl⟩⟩
  · have hlives : ∀ ending, phase ≠ .ended ending := fun ending h => hended ⟨ending, h⟩
    have hdeliver : Process.deliver outside signal ⟨phase, receivers, deeds⟩ =
        match receivers signal with
        | some _ => ⟨phase, Function.update receivers signal (some true), deeds⟩
        | none =>
            if outside.ignored signal then ⟨phase, receivers, deeds⟩
            else Process.goTo ⟨phase, receivers, deeds⟩ (.ended (.killed signal)) [] := by
      unfold Process.deliver
      cases phase with
      | ended ending =>
          exact absurd rfl (hlives ending)
      | _ =>
          rfl
    rw [hdeliver]
    cases hreceiver : receivers signal with
    | some pending =>
        exact .inr (.inl ⟨by simp [hreceiver], rfl⟩)
    | none =>
        cases hignored : outside.ignored signal with
        | true =>
            exact .inl ⟨rfl, .inr hreceiver⟩
        | false =>
            exact .inr (.inr ⟨hreceiver, rfl, hlives, rfl⟩)

theorem isNone_update {receivers : StopSignal → Option Bool} {signal : StopSignal}
    (h : receivers signal ≠ none) (pending : Bool) (signal' : StopSignal) :
    Function.update receivers signal (some pending) signal' = none ↔
      receivers signal' = none := by
  by_cases hsame : signal' = signal
  · subst hsame
    simp [h]
  · rw [Function.update_of_ne hsame]

/-- A signal is delivered. -/
theorem Course.deliver
    (h : Course features config outside past (life features config outside past))
    (signal : StopSignal) :
    Course features config outside (past ++ [.signal signal])
      ((life features config outside past).deliver outside signal) := by
  rcases deliver_cases outside signal (life features config outside past) with
    ⟨hsame, -⟩ | ⟨hreceiver, hheard⟩ | ⟨hnone, hignored, hlives, hkilled⟩
  · rw [hsame]
    exact h.later _ fun _ => Iff.rfl
  · rw [hheard]
    exact h.later _ (isNone_update hreceiver true)
  · rw [hkilled, Process.goTo, List.append_nil]
    refine .ended (.killed (.now ⟨rfl, hnone, hignored⟩) ?_)
    refine (h.deeds_of_none hnone).resolve_left fun ⟨ending, hended⟩ => ?_
    exact hlives ending hended

/-- Registering for a signal succeeds or fails. -/
theorem register_cases (outside : Outside) (signal : StopSignal) (next : Phase)
    (process : Process) :
    process.register outside signal next =
        { process with
          phase := next
          receivers := Function.update process.receivers signal (some false) } ∨
    ∃ err, outside.register signal = .error err ∧
      process.register outside signal next = process.goTo (.returning (.error (.io err))) [] := by
  unfold Process.register
  cases hregister : outside.register signal with
  | ok _ =>
      exact .inl rfl
  | error err =>
      exact .inr ⟨err, rfl, rfl⟩

/-- What polling `served` comes to, and why. -/
theorem Reached.poll {served : Served} {deeds : List Deed}
    (h : Reached features config outside served deeds)
    (build transport : Option (Except Error Unit)) :
    (∃ left more, pollServed features config build transport served = .pending left more ∧
      Reached features config outside left (deeds ++ more)) ∨
    ∃ result left more, pollServed features config build transport served = .ready result more ∧
      Reached features config outside left (deeds ++ more) ∧
      ((∃ common e, served = .building common ∧ build = some (.error e) ∧ result = .error e) ∨
        (∃ common e, outside.arguments = .serve common ∧
          serve features config common = .error e ∧ result = .error e) ∨
        transport = some result) := by
  cases h with
  | @building common hserve =>
      rcases build with _ | e | built
      · exact .inl ⟨_, [], rfl, .building hserve⟩
      · exact .inr ⟨_, _, [], rfl, .building hserve, .inl ⟨common, e, rfl, rfl, rfl⟩⟩
      · simp only [pollServed]
        cases henter : serve features config common with
        | error e =>
            exact .inr ⟨_, _, [], rfl, .building hserve,
              .inr (.inl ⟨common, e, hserve, henter, rfl⟩)⟩
        | ok entered =>
            cases transport with
            | none =>
                exact .inl ⟨_, _, rfl, .serving hserve henter⟩
            | some result =>
                exact .inr ⟨_, _, _, rfl, .serving hserve henter, .inr (.inr rfl)⟩
  | serving hserve henter =>
      cases transport with
      | none =>
          exact .inl ⟨_, [], rfl, .serving hserve henter⟩
      | some result =>
          exact .inr ⟨_, _, [], rfl, .serving hserve henter, .inr (.inr rfl)⟩

/-- Only a signal that has arrived is taken. -/
theorem recv_eq_some {first signal : StopSignal} {receivers : StopSignal → Option Bool}
    (h : recv first receivers = some signal) :
    receivers signal = some true := by
  cases first with
  | _ =>
      simp only [recv] at h
      split_ifs at h with hfirst hsecond
      · cases h
        exact hfirst
      · cases h
        exact hsecond

/-- A signal that has arrived is taken. -/
theorem recv_ne_none (first : StopSignal) {signal : StopSignal}
    {receivers : StopSignal → Option Bool} (h : receivers signal = some true) :
    recv first receivers ≠ none := by
  intro hnone
  cases first with
  | _ =>
      simp only [recv] at hnone
      split_ifs at hnone with hfirst hsecond
      cases signal with
      | _ =>
          contradiction

/-- A process selects once more. -/
theorem Course.select {receivers : StopSignal → Option Bool} {served : Served}
    {deeds : List Deed}
    (hlife : life features config outside past = ⟨.selecting served, receivers, deeds⟩)
    (hall : ∀ signal, receivers signal ≠ none)
    (hheard : ∀ signal, receivers signal = some true →
      Survived features config outside past signal)
    (hdeeds : Reached features config outside served deeds)
    (build transport : Option (Except Error Unit)) (first : StopSignal) :
    Course features config outside (past ++ [.turn build transport first])
      (Process.turn features config outside build transport first
        ⟨.selecting served, receivers, deeds⟩) := by
  rcases hdeeds.poll build transport with
    ⟨left, more, hpoll, hreached⟩ | ⟨result, left, more, hpoll, hreached, hcause⟩
  · simp only [Process.turn, hpoll]
    cases hrecv : recv first receivers with
    | none =>
        exact .selecting hall hreached
    | some signal =>
        have harrived := recv_eq_some hrecv
        simp only [Process.goTo]
        rw [← List.append_assoc]
        refine .stopping (fun signal' => mt (isNone_update (hall signal) false signal').mp
          (hall signal')) ((hheard signal harrived).later _) (.now ?_) hreached
        rw [hlife]
        exact ⟨build, transport, first, served, left, more, rfl, rfl, hpoll⟩
  · simp only [Process.turn, hpoll]
    refine .returning hall ?_ hreached
    rcases hcause with ⟨common, e, rfl, rfl, rfl⟩ | ⟨common, e, hserve, hrefused, rfl⟩ | rfl
    · refine .notBuilt (.now ?_)
      rw [hlife]
      exact ⟨common, transport, first, rfl, rfl⟩
    · exact .refused hserve hrefused
    · refine .transport (.now ?_)
      rw [hlife]
      exact ⟨build, first, served, rfl, rfl⟩

/-- A process goes on. -/
theorem Course.turn
    (h : Course features config outside past (life features config outside past))
    (hheard : ∀ signal, (life features config outside past).receivers signal = some true →
      Survived features config outside past signal)
    (build transport : Option (Except Error Unit)) (first : StopSignal) :
    Course features config outside (past ++ [.turn build transport first])
      ((life features config outside past).turn features config outside build transport first) := by
  generalize hlife : life features config outside past = process at h hheard ⊢
  cases h with
  | starting hnone =>
      simp only [Process.turn]
      cases harguments : outside.arguments with
      | exits status =>
          exact .ended (.exited harguments)
      | invalid e =>
          exact .ended (.invalid harguments)
      | serve common =>
          exact .parsed hnone harguments
  | parsed hnone hserve =>
      simp only [Process.turn]
      cases htelemetry : outside.telemetry with
      | ok _ =>
          exact .recording hnone hserve
      | error e =>
          exact .ended (.silent htelemetry)
  | @recording receivers common hnone hserve =>
      simp only [Process.turn]
      rcases register_cases outside .terminate (.listening common)
        ⟨.recording common, receivers, [.installed]⟩ with hregister | ⟨err, herr, hregister⟩
      · rw [hregister]
        refine .listening (by simp) ?_ hserve
        rw [Function.update_of_ne (by simp)]
        exact hnone _
      · rw [hregister]
        exact .unregistered (hnone _) herr
  | @listening receivers common hterminate hinterrupt hserve =>
      simp only [Process.turn]
      rcases register_cases outside .interrupt (.selecting (.building common))
        ⟨.listening common, receivers, [.installed]⟩ with hregister | ⟨err, herr, hregister⟩
      · rw [hregister]
        refine .selecting (fun signal => ?_) (.building hserve)
        cases signal with
        | terminate =>
            rw [Function.update_of_ne (by simp)]
            exact hterminate
        | interrupt =>
            simp
      · rw [hregister]
        exact .unregistered hinterrupt herr
  | selecting hall hdeeds =>
      exact .select hlife hall hheard hdeeds build transport first
  | stopping hall h hpending hdeeds =>
      simp only [Process.turn, Process.goTo]
      rw [List.append_assoc]
      exact .flushed hall (h.later _) (hpending.later _) hdeeds
  | flushed hall h hpending hdeeds =>
      simp only [Process.turn, Process.goTo, List.append_nil]
      exact .ended (.stopped (h.later _) (hpending.later _) hdeeds)
  | unregistered hnone h =>
      exact .ended (.unregistered h)
  | returning hall h hdeeds =>
      exact .ended (.returned (h.later _) hdeeds)
  | ended h =>
      exact .ended (h.later _)

/-- A turn makes no signal arrive. -/
theorem receivers_turn (build transport : Option (Except Error Unit)) (first : StopSignal)
    (process : Process) :
    let left := process.turn features config outside build transport first
    (∀ signal, left.receivers signal = some true → process.receivers signal = some true) ∧
      ∀ signal, process.receivers signal ≠ none → left.receivers signal ≠ none := by
  have hupdate : ∀ signal, (∀ signal', Function.update process.receivers signal (some false)
        signal' = some true → process.receivers signal' = some true) ∧
      ∀ signal', process.receivers signal' ≠ none →
        Function.update process.receivers signal (some false) signal' ≠ none := by
    intro signal
    refine ⟨fun signal' h => ?_, fun signal' h => ?_⟩
    · by_cases hsame : signal' = signal
      · subst hsame
        simp at h
      · rwa [Function.update_of_ne hsame] at h
    · by_cases hsame : signal' = signal
      · subst hsame
        simp
      · rwa [Function.update_of_ne hsame]
  intro left
  have hleft : left.receivers = process.receivers ∨
      ∃ signal, left.receivers = Function.update process.receivers signal (some false) := by
    simp only [left, Process.turn]
    cases process.phase with
    | starting =>
        cases outside.arguments with
        | _ =>
            exact .inl rfl
    | parsed common =>
        cases outside.telemetry with
        | _ =>
            exact .inl rfl
    | recording common =>
        rcases register_cases outside .terminate (.listening common) process with
          hregister | ⟨err, -, hregister⟩
        · exact .inr ⟨.terminate, congrArg Process.receivers hregister⟩
        · exact .inl ((congrArg Process.receivers hregister).trans rfl)
    | listening common =>
        rcases register_cases outside .interrupt (.selecting (.building common))
          process with hregister | ⟨err, -, hregister⟩
        · exact .inr ⟨.interrupt, congrArg Process.receivers hregister⟩
        · exact .inl ((congrArg Process.receivers hregister).trans rfl)
    | selecting served =>
        simp only
        cases pollServed features config build transport served with
        | ready result more =>
            exact .inl rfl
        | pending served' more =>
            simp only
            cases recv first process.receivers with
            | none =>
                exact .inl rfl
            | some signal =>
                exact .inr ⟨signal, rfl⟩
    | _ =>
        exact .inl rfl
  rcases hleft with hsame | ⟨signal, hsame⟩
  · rw [hsame]
    exact ⟨fun _ h => h, fun _ h => h⟩
  · rw [hsame]
    exact hupdate signal

/-- A signal that a receiver has to give has arrived. -/
theorem survived_of_receiver (signal : StopSignal)
    (h : (life features config outside past).receivers signal = some true) :
    Survived features config outside past signal := by
  induction past using List.reverseRecOn with
  | nil =>
      cases h
  | append_singleton past occurrence ih =>
      rw [life_append] at h
      cases occurrence with
      | turn build transport first =>
          exact (ih ((receivers_turn build transport first _).1 signal h)).later _
      | signal signal' =>
          simp only [Process.step] at h
          rcases deliver_cases outside signal' (life features config outside past) with
            ⟨hsame, -⟩ | ⟨hreceiver, hheard⟩ | ⟨-, -, -, hkilled⟩
          · rw [hsame] at h
            exact (ih h).later _
          · by_cases hsignal : signal = signal'
            · subst hsignal
              exact .now ⟨rfl, hreceiver⟩
            · rw [hheard] at h
              simp only [Function.update_of_ne hsignal] at h
              exact (ih h).later _
          · rw [hkilled] at h
            exact (ih h).later _

theorem course_life :
    Course features config outside past (life features config outside past) := by
  induction past using List.reverseRecOn with
  | nil =>
      exact .starting fun _ => rfl
  | append_singleton past occurrence ih =>
      rw [life_append]
      cases occurrence with
      | signal signal =>
          exact ih.deliver signal
      | turn build transport first =>
          exact ih.turn survived_of_receiver build transport first

/--
The life of a process: whatever happens to it, and whenever signals arrive, it ends in one
of these ways and has then done exactly this.  Once installed, telemetry is flushed once,
after everything else, by every ending but a kill; a signal kills only before it is
registered for, and only a process that has entered no transport; and the status is that
of a signal only if one arrived and the server was found not to have ended.
-/
theorem lifecycle (features : Features) (config : Startup.ServerConfig) (outside : Outside)
    (occurrences : List Occurrence) :
    let process := life features config outside occurrences
    (∀ ending, process.phase = .ended ending →
      Ends features config outside occurrences ending process.deeds) ∧
    (.flushed ∈ process.deeds →
      process.phase = .flushed ∨ ∃ ending, process.phase = .ended ending) := by
  intro process
  have hcourse : Course features config outside occurrences process := course_life
  have hreached : ∀ served deeds, Reached features config outside served deeds →
      .flushed ∉ deeds := by
    intro served deeds h
    cases h with
    | building hserve =>
        simp
    | serving hserve h =>
        simp
  generalize process = process at hcourse
  cases hcourse with
  | ended h =>
      exact ⟨fun ending hended => by cases hended; exact h, fun _ => .inr ⟨_, rfl⟩⟩
  | flushed hall h hpending hdeeds =>
      exact ⟨nofun, fun _ => .inl rfl⟩
  | selecting hall hdeeds =>
      exact ⟨nofun, fun hmem => absurd hmem (hreached _ _ hdeeds)⟩
  | stopping hall h hpending hdeeds =>
      refine ⟨nofun, fun hmem => ?_⟩
      rcases List.mem_append.mp hmem with hmem | hmem
      · exact absurd hmem (hreached _ _ hdeeds)
      · cases List.mem_singleton.mp hmem
  | returning hall h hdeeds =>
      exact ⟨nofun, fun hmem => absurd hmem (hreached _ _ hdeeds)⟩
  | _ =>
      exact ⟨nofun, fun hmem => absurd hmem (by simp)⟩

end Safety

section Liveness

variable {features : Features} {config : Startup.ServerConfig} {outside : Outside}

/-- How many turns a process takes. -/
def turnsIn (occurrences : List Occurrence) : Nat :=
  occurrences.countP fun
    | .turn _ _ _ => true
    | .signal _ => false

/-- What signals do not put off and each turn brings closer is brought closer by as many
turns as there are. -/
theorem life_turns (P : List Occurrence → Nat → Process → Prop)
    (hsignal : ∀ {past turns}, P past turns (life features config outside past) → ∀ signal,
      P (past ++ [.signal signal]) turns
        ((life features config outside past).deliver outside signal))
    (hturn : ∀ {past turns}, P past turns (life features config outside past) →
      ∀ build transport first, P (past ++ [.turn build transport first]) (turns - 1)
        ((life features config outside past).turn features config outside build transport first))
    {past : List Occurrence} {turns : Nat}
    (h : P past turns (life features config outside past)) (occurrences : List Occurrence) :
    P (past ++ occurrences) (turns - turnsIn occurrences)
      (life features config outside (past ++ occurrences)) := by
  induction occurrences generalizing past turns with
  | nil =>
      rw [List.append_nil]
      exact h
  | cons occurrence occurrences ih =>
      rw [← List.singleton_append, ← List.append_assoc]
      cases occurrence with
      | signal signal =>
          refine ih ?_
          rw [life_append]
          exact hsignal h signal
      | turn build transport first =>
          have hcount : turnsIn ([.turn build transport first] ++ occurrences) =
              turnsIn occurrences + 1 := List.countP_cons_of_pos rfl
          rw [hcount, Nat.add_comm, ← Nat.sub_sub]
          refine ih ?_
          rw [life_append]
          exact hturn h build transport first

/-- A process ended with status 0, or with what its server came to. -/
def OwnEnding (features : Features) (config : Startup.ServerConfig) (outside : Outside)
    (past : List Occurrence) (ending : Ending) : Prop :=
  ending = .exit 0 ∨
    ∃ result, ending = .returned result ∧ ServedTo features config outside past result

variable {past : List Occurrence}

theorem OwnEnding.later {ending : Ending} (h : OwnEnding features config outside past ending)
    (occurrence : Occurrence) :
    OwnEnding features config outside (past ++ [occurrence]) ending :=
  h.imp_right fun ⟨result, hended, hserved⟩ => ⟨result, hended, hserved.later occurrence⟩

/-- A process that listens, and ends by itself within some turns. -/
structure Soon (features : Features) (config : Startup.ServerConfig) (outside : Outside)
    (past : List Occurrence) (turns : Nat) (process : Process) : Prop where
  listens : ∀ signal, process.receivers signal ≠ none
  ends : match process.phase with
    | .selecting _ => 3 ≤ turns ∧ ∃ signal, process.receivers signal = some true
    | .stopping _ => 2 ≤ turns
    | .flushed => 1 ≤ turns
    | .returning _ => 1 ≤ turns
    | .ended ending => OwnEnding features config outside past ending
    | _ => False

/-- A signal does not put that off. -/
theorem Soon.deliver {turns : Nat} {process : Process}
    (h : Soon features config outside past turns process) (signal : StopSignal) :
    Soon features config outside (past ++ [.signal signal]) turns
      (process.deliver outside signal) := by
  have hends := h.ends
  rcases deliver_cases outside signal process with
    ⟨hsame, -⟩ | ⟨hreceiver, hheard⟩ | ⟨hnone, -, -, -⟩
  · rw [hsame]
    refine ⟨h.listens, ?_⟩
    cases hphase : process.phase with
    | ended ending =>
        rw [hphase] at hends
        exact hends.later _
    | _ =>
        rw [hphase] at hends
        exact hends
  · rw [hheard]
    refine ⟨fun signal' => mt (isNone_update hreceiver true signal').mp (h.listens signal'), ?_⟩
    simp only
    cases hphase : process.phase with
    | selecting served =>
        rw [hphase] at hends
        exact ⟨hends.1, signal, Function.update_self _ _ _⟩
    | ended ending =>
        rw [hphase] at hends
        exact hends.later _
    | _ =>
        rw [hphase] at hends
        exact hends
  · exact absurd hnone (h.listens signal)

/-- A process that listens and is about to return returns what it served to. -/
theorem Course.servedTo {process : Process} (h : Course features config outside past process)
    (hlistens : ∀ signal, process.receivers signal ≠ none) {result : Except Error Unit}
    (hphase : process.phase = .returning result) :
    ServedTo features config outside past result := by
  cases h with
  | returning hall h hdeeds =>
      cases hphase
      exact h
  | unregistered hnone h =>
      exact absurd hnone (hlistens _)
  | _ =>
      cases hphase

/-- Each turn brings it closer. -/
theorem Soon.turn {turns : Nat} {process : Process}
    (h : Soon features config outside past turns process)
    (hcourse : Course features config outside past process)
    (build transport : Option (Except Error Unit)) (first : StopSignal) :
    Soon features config outside (past ++ [.turn build transport first]) (turns - 1)
      (process.turn features config outside build transport first) := by
  refine ⟨fun signal => (receivers_turn build transport first process).2 signal
    (h.listens signal), ?_⟩
  have hends := h.ends
  simp only [Process.turn]
  cases hphase : process.phase with
  | selecting served =>
      rw [hphase] at hends
      obtain ⟨hturns, signal, harrived⟩ := hends
      simp only
      cases pollServed features config build transport served with
      | ready result more =>
          exact Nat.le_sub_of_add_le (Nat.le_of_succ_le hturns)
      | pending left more =>
          simp only
          cases hrecv : recv first process.receivers with
          | none =>
              exact absurd hrecv (recv_ne_none first harrived)
          | some signal' =>
              exact Nat.le_sub_of_add_le hturns
  | stopping signal =>
      rw [hphase] at hends
      exact Nat.le_sub_of_add_le hends
  | flushed =>
      exact .inl rfl
  | returning result =>
      exact .inr ⟨result, rfl, (hcourse.servedTo h.listens hphase).later _⟩
  | ended ending =>
      rw [hphase] at hends
      simp only [hphase]
      exact hends.later _
  | _ =>
      rw [hphase] at hends
      exact hends.elim

/-- No turns are left only to a process that has ended. -/
theorem Soon.ended {process : Process} (h : Soon features config outside past 0 process) :
    ∃ ending, process.phase = .ended ending ∧ OwnEnding features config outside past ending := by
  have hends := h.ends
  cases hphase : process.phase with
  | ended ending =>
      rw [hphase] at hends
      exact ⟨ending, rfl, hends⟩
  | _ =>
      rw [hphase] at hends
      simp at hends

/--
A signal stops a process that serves: whatever else happens, more signals included, it ends
in three turns, by itself, with status 0 or what the server itself came to.
-/
theorem stops (before after : List Occurrence) (signal : StopSignal) {served : Served}
    (hserving : (life features config outside before).phase = .selecting served)
    (hturns : 3 ≤ turnsIn after) :
    ∃ ending, (life features config outside (before ++ .signal signal :: after)).phase =
        .ended ending ∧
      (ending = .exit 0 ∨ ∃ result, ending = .returned result ∧
        ServedTo features config outside (before ++ .signal signal :: after) result) := by
  have hcourse : Course features config outside before (life features config outside before) :=
    course_life
  have hsoon : Soon features config outside (before ++ [.signal signal]) 3
      (life features config outside (before ++ [.signal signal])) := by
    rw [life_append]
    generalize life features config outside before = process at hcourse hserving ⊢
    cases hcourse with
    | @selecting receivers served deeds hall hdeeds =>
        simp only [Process.step]
        rcases deliver_cases outside signal
          ⟨.selecting served, receivers, deeds⟩ with
          ⟨-, ⟨ending, hended⟩ | hnone⟩ | ⟨hreceiver, hheard⟩ | ⟨hnone, -⟩
        · cases hended
        · exact absurd hnone (hall signal)
        · rw [hheard]
          exact ⟨fun signal' => mt (isNone_update hreceiver true signal').mp (hall signal'),
            Nat.le_refl _, signal, Function.update_self _ _ _⟩
        · exact absurd hnone (hall signal)
    | _ =>
        cases hserving
  have hover := life_turns (Soon features config outside) (fun h => h.deliver)
    (fun h => h.turn course_life) hsoon after
  rw [Nat.sub_eq_zero_of_le hturns, List.append_assoc] at hover
  exact hover.ended

/-- A server on stdio is stopped by a signal; a second one changes nothing. -/
theorem stops_of_sigterm :
    let config : Startup.ServerConfig := .new "server" "1.0"
    let features : Features := ⟨false, true, false, nofun⟩
    let outside : Outside :=
      { arguments := .serve .default, telemetry := .ok (), register := fun _ => .ok (),
        ignored := fun _ => false }
    let quiet : Occurrence := .turn none none .terminate
    let before := [quiet, quiet, quiet, quiet, .turn (some (.ok ())) none .terminate]
    let after := [quiet, .signal .interrupt, quiet, quiet]
    let process := life features config outside (before ++ .signal .terminate :: after)
    (∃ ending, process.phase = .ended ending ∧
      (ending = .exit 0 ∨ ∃ result, ending = .returned result ∧ ServedTo features config outside
        (before ++ .signal .terminate :: after) result)) ∧
    process.deeds =
      [.installed, .entered .stdio, .logged (stoppingEvent .terminate), .flushed] := by
  intro config features outside quiet before after process
  have hserving : (life features config outside before).phase = .selecting (.serving .stdio) :=
    rfl
  exact ⟨stops before after .terminate hserving (by decide), rfl⟩

/-- A process whose server has ended reports this, within some turns, after these deeds. -/
structure Reports (result : Except Error Unit) (deeds : List Deed) (turns : Nat)
    (process : Process) : Prop where
  listens : ∀ signal, process.receivers signal ≠ none
  reports : 1 ≤ turns ∧ process.phase = .returning result ∧ process.deeds = deeds ∨
    process.phase = .ended (.returned result) ∧ process.deeds = deeds ++ [.flushed]

theorem Reports.deliver {result : Except Error Unit} {deeds : List Deed} {turns : Nat}
    {process : Process} (h : Reports result deeds turns process) (signal : StopSignal) :
    Reports result deeds turns (process.deliver outside signal) := by
  rcases deliver_cases outside signal process with
    ⟨hsame, -⟩ | ⟨hreceiver, hheard⟩ | ⟨hnone, -, -, -⟩
  · rw [hsame]
    exact h
  · rw [hheard]
    exact ⟨fun signal' => mt (isNone_update hreceiver true signal').mp (h.listens signal'),
      h.reports⟩
  · exact absurd hnone (h.listens signal)

theorem Reports.turn {result : Except Error Unit} {deeds : List Deed} {turns : Nat}
    {process : Process} (h : Reports result deeds turns process)
    (build transport : Option (Except Error Unit)) (first : StopSignal) :
    Reports result deeds (turns - 1)
      (process.turn features config outside build transport first) := by
  refine ⟨fun signal => (receivers_turn build transport first process).2 signal
    (h.listens signal), .inr ?_⟩
  rcases h.reports with ⟨-, hphase, hdeeds⟩ | ⟨hphase, hdeeds⟩
  · simp only [Process.turn, hphase, Process.goTo, hdeeds, and_self]
  · simp only [Process.turn, hphase, hdeeds, and_self]

/--
A server's own result is what the process reports: where a poll finds that the server has
ended, the process returns that result after one more turn, whatever signals arrived
before and arrive after, and nothing but the flush is done any more.
-/
theorem result_reported (before after : List Occurrence) {served : Served}
    (hserving : (life features config outside before).phase = .selecting served)
    (build transport : Option (Except Error Unit)) (first : StopSignal)
    {result : Except Error Unit} {deeds : List Deed}
    (hready : pollServed features config build transport served = .ready result deeds)
    (hturns : 1 ≤ turnsIn after) :
    let process := life features config outside
      (before ++ .turn build transport first :: after)
    process.phase = .ended (.returned result) ∧
      process.deeds = (life features config outside before).deeds ++ deeds ++ [.flushed] := by
  intro process
  have hcourse : Course features config outside before (life features config outside before) :=
    course_life
  have hreports : Reports result ((life features config outside before).deeds ++ deeds) 1
      (life features config outside (before ++ [.turn build transport first])) := by
    rw [life_append]
    generalize life features config outside before = process at hcourse hserving ⊢
    cases hcourse with
    | @selecting receivers served' deeds' hall hdeeds =>
        cases hserving
        simp only [Process.step, Process.turn, hready]
        exact ⟨hall, .inl ⟨Nat.le_refl _, rfl, rfl⟩⟩
    | _ =>
        cases hserving
  have hafter := life_turns (fun _ => Reports result
    ((life features config outside before).deeds ++ deeds)) (fun h => h.deliver)
    (fun h => h.turn) hreports after
  rw [Nat.sub_eq_zero_of_le hturns, List.append_assoc] at hafter
  rcases hafter.reports with ⟨hnone, -⟩ | hended
  · cases hnone
  · exact hended

/-- A server that fails in the poll that would find a signal still fails. -/
theorem result_reported_of_failure :
    let config : Startup.ServerConfig := .new "server" "1.0"
    let features : Features := ⟨false, true, false, nofun⟩
    let outside : Outside :=
      { arguments := .serve .default, telemetry := .ok (), register := fun _ => .ok (),
        ignored := fun _ => false }
    let quiet : Occurrence := .turn none none .terminate
    let failure : Except Error Unit := .error (.transport (.invalidMessage "bad header"))
    let before := [quiet, quiet, quiet, quiet, .turn (some (.ok ())) none .terminate,
      .signal .terminate]
    let process := life features config outside
      (before ++ .turn none (some failure) .terminate :: [.signal .interrupt, quiet])
    process.phase = .ended (.returned failure) ∧
      process.deeds = [.installed, .entered .stdio, .flushed] := by
  intro config features outside quiet failure before process
  have hserving : (life features config outside before).phase = .selecting (.serving .stdio) :=
    rfl
  exact result_reported before [.signal .interrupt, quiet] hserving none (some failure)
    .terminate rfl (by decide)

end Liveness

end Lifecycle
end McpCore
