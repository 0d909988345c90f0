import McpCore.UnixSocket

/-!
# Several servers on one path

Servers may be started on the same path, one after another or at once.  Each takes its
system calls one by one: it looks at the path, unlinks a socket it found there, binds,
sets the mode and accepts.  In between others take theirs, users connect, and servers fail
or are killed; a dead server leaves its node behind.

The operating system queues attempts as it does for a single server, at the listener
whose node is at the path.  `handed_alone` says that the machine of a single server is the
case of one.

`path_shared` says what holds however these come after one another, `takes_over` that a
server which starts after the others have started ends up at the path.
-/

namespace McpCore
namespace SharedPath

open UnixSocket

section Model

/-- What is at the path: a socket, and which of the servers bound it, or something else. -/
inductive Entry where
  | socket (server : Option Nat) (mode : Mode)
  | other (mode : Mode)
deriving DecidableEq

/-- Before which system call a server is. -/
inductive Phase where
  | start
  | stale
  | prepared
  | bound
  | serving
  | returned (err : Error)
  | killed
deriving DecidableEq

/-- A server process, and the attempts its listener has queued. -/
structure Process where
  umask : Mode
  phase : Phase
  queue : List User

structure State where
  entry : Option Entry
  servers : List Process

def State.init (entry : Option Entry) : State :=
  ⟨entry, []⟩

/-- Whether a server has bound its listener, and not closed it. -/
def Phase.isListening : Phase → Bool
  | .bound => true
  | .serving => true
  | _ => false

/-- A server ends, and its listener with it. -/
def Process.ends (process : Process) (phase : Phase) : Process :=
  { process with phase, queue := [] }

variable (path : String)

/-- The next system call of the `n`th server: what is at the path after it, the server
after it, and the connection that it hands to a session. -/
def serveUnix (n : Nat) (process : Process) (entry : Option Entry) :
    Option User × Option Entry × Process :=
  match process.phase with
  | .start =>
      match entry with
      | some (.socket _ _) => (none, entry, { process with phase := .stale })
      | some (.other _) =>
          (none, entry, process.ends (.returned (.config
            s!"refusing to bind unix socket: {path} exists and is not a socket")))
      | none => (none, entry, { process with phase := .prepared })
  | .stale =>
      match entry with
      | some _ => (none, none, { process with phase := .prepared })
      | none => (none, entry, process.ends (.returned (.io ⟨"No such file or directory"⟩)))
  | .prepared =>
      match entry with
      | some _ => (none, entry, process.ends (.returned (.io ⟨"Address already in use"⟩)))
      | none =>
          (none, some (.socket (some n) (0o777 &&& ~~~ process.umask)),
            { process with phase := .bound })
  | .bound =>
      -- The mode is set at the path, whatever is there by then.
      match entry with
      | some (.socket server _) =>
          (none, some (.socket server 0o600), { process with phase := .serving })
      | some (.other _) => (none, some (.other 0o600), { process with phase := .serving })
      | none => (none, entry, process.ends (.returned (.io ⟨"No such file or directory"⟩)))
  | .serving =>
      match process.queue with
      | [] => (none, entry, process)
      | user :: queue => (some user, entry, { process with queue })
  | .returned _ => (none, entry, process)
  | .killed => (none, entry, process)

inductive Input where
  /-- A server is started. -/
  | start (umask : Mode)
  /-- The `n`th server takes its next system call. -/
  | server (n : Nat)
  /-- The next system call of the `n`th server fails. -/
  | fault (n : Nat) (err : IoError)
  | kill (n : Nat)
  /-- A user tries to connect. -/
  | connect (user : User)
deriving DecidableEq

/-- The server that an attempt of `user` is queued at. -/
def State.admitting (state : State) (user : User) : Option Nat :=
  match state.entry with
  | some (.socket (some n) mode) =>
      match state.servers[n]? with
      | some process =>
          if process.phase.isListening && mode.canWrite user then some n else none
      | none => none
  | _ => none

/-- A server that has not ended fails or is killed. -/
def Process.stops (phase : Phase) (process : Process) : Process :=
  match process.phase with
  | .returned _ => process
  | .killed => process
  | _ => process.ends phase

/-- What becomes of an attempt: the listener of a server queues it, or its server hands it
to a session. -/
inductive Deed where
  | queued (n : Nat) (user : User)
  | handed (n : Nat) (user : User)
deriving DecidableEq

def step (input : Input) (state : State) : Option Deed × State :=
  match input with
  | .start umask => (none, { state with servers := state.servers ++ [⟨umask, .start, []⟩] })
  | .server n =>
      match state.servers[n]? with
      | some process =>
          let (user, entry, process) := serveUnix path n process state.entry
          (user.map (.handed n), ⟨entry, state.servers.set n process⟩)
      | none => (none, state)
  | .fault n err =>
      (none, { state with servers := state.servers.modify n (Process.stops (.returned (.io err))) })
  | .kill n => (none, { state with servers := state.servers.modify n (Process.stops .killed) })
  | .connect user =>
      match state.admitting user with
      | some n =>
          (some (.queued n user), { state with
            servers := state.servers.modify n fun process =>
              { process with queue := process.queue ++ [user] } })
      | none => (none, state)

/-- The state after these inputs, and what became of the attempts. -/
def run (inputs : List Input) (entry : Option Entry) : List (Option Deed) × State :=
  Mealy.run (step path) inputs (.init entry)

end Model

section Queues

variable {path : String} {n : Nat}

/-- Whose attempts the listener of a server queued, and whose its server handed on. -/
def queuedAt (n : Nat) (deeds : List (Option Deed)) : List User :=
  deeds.filterMap fun
    | some (.queued k user) => if k = n then some user else none
    | _ => none

def handedAt (n : Nat) (deeds : List (Option Deed)) : List User :=
  deeds.filterMap fun
    | some (.handed k user) => if k = n then some user else none
    | _ => none

theorem queuedAt_append (deeds deeds' : List (Option Deed)) :
    queuedAt n (deeds ++ deeds') = queuedAt n deeds ++ queuedAt n deeds' :=
  List.filterMap_append

theorem handedAt_append (deeds deeds' : List (Option Deed)) :
    handedAt n (deeds ++ deeds') = handedAt n deeds ++ handedAt n deeds' :=
  List.filterMap_append

def Phase.isOver : Phase → Bool
  | .returned _ => true
  | .killed => true
  | _ => false

/-- What an input does to a server: attempts pass through its queue in order, or it is
over and nothing does. -/
def Passes (n : Nat) (deed : Option Deed) (process process' : Process) : Prop :=
  process.phase.isOver = false ∧
      process.queue ++ queuedAt n [deed] = handedAt n [deed] ++ process'.queue ∨
    process'.phase.isOver = true ∧ queuedAt n [deed] = [] ∧ handedAt n [deed] = []

theorem passes_refl {deed : Option Deed} (process : Process) (hqueued : queuedAt n [deed] = [])
    (hhanded : handedAt n [deed] = []) :
    Passes n deed process process := by
  cases hover : process.phase.isOver with
  | true =>
      exact .inr ⟨hover, hqueued, hhanded⟩
  | false =>
      refine .inl ⟨hover, ?_⟩
      rw [hqueued, hhanded, List.append_nil, List.nil_append]

/-- A system call takes at most the first attempt out of the queue. -/
theorem passes_serveUnix (path : String) (n : Nat) (process : Process) (entry : Option Entry) :
    Passes n ((serveUnix path n process entry).1.map (.handed n)) process
      (serveUnix path n process entry).2.2 := by
  obtain ⟨umask, phase, queue⟩ := process
  cases phase with
  | start =>
      rcases entry with _ | ⟨server, mode⟩ | mode
      · exact .inl ⟨rfl, List.append_nil _⟩
      · exact .inl ⟨rfl, List.append_nil _⟩
      · exact .inr ⟨rfl, rfl, rfl⟩
  | stale =>
      cases entry with
      | none =>
          exact .inr ⟨rfl, rfl, rfl⟩
      | some entry =>
          exact .inl ⟨rfl, List.append_nil _⟩
  | prepared =>
      cases entry with
      | none =>
          exact .inl ⟨rfl, List.append_nil _⟩
      | some entry =>
          exact .inr ⟨rfl, rfl, rfl⟩
  | bound =>
      rcases entry with _ | ⟨server, mode⟩ | mode
      · exact .inr ⟨rfl, rfl, rfl⟩
      · exact .inl ⟨rfl, List.append_nil _⟩
      · exact .inl ⟨rfl, List.append_nil _⟩
  | serving =>
      cases queue with
      | nil =>
          exact .inl ⟨rfl, rfl⟩
      | cons user queue =>
          refine .inl ⟨rfl, ?_⟩
          simp [serveUnix, queuedAt, handedAt]
  | returned err =>
      exact .inr ⟨rfl, rfl, rfl⟩
  | killed =>
      exact .inr ⟨rfl, rfl, rfl⟩

/-- A server that is stopped is over. -/
theorem isOver_stops {phase : Phase} (hphase : phase.isOver = true) (process : Process) :
    (process.stops phase).phase.isOver = true := by
  unfold Process.stops
  cases hover : process.phase with
  | returned err =>
      simp [hover, Phase.isOver]
  | killed =>
      simp [hover, Phase.isOver]
  | _ =>
      exact hphase

/-- The server at which an attempt is queued listens. -/
theorem admitting_eq_some {state : State} {user : User}
    (h : state.admitting user = some n) :
    ∃ process mode, state.servers[n]? = some process ∧
      state.entry = some (.socket (some n) mode) ∧
      process.phase.isListening = true ∧ mode.canWrite user = true := by
  obtain ⟨entry, servers⟩ := state
  unfold State.admitting at h
  rcases entry with _ | ⟨_ | k, mode⟩ | mode
  · cases h
  · cases h
  · simp only at h
    cases hserver : servers[k]? with
    | none =>
        rw [hserver] at h
        cases h
    | some process =>
        rw [hserver] at h
        simp only at h
        split at h
        · rename_i hadmits
          cases h
          obtain ⟨hlistening, hwrite⟩ := Bool.and_eq_true_iff.mp hadmits
          exact ⟨process, mode, hserver, rfl, hlistening, hwrite⟩
        · cases h
  · cases h

theorem step_process (input : Input) {state : State} {process : Process}
    (h : state.servers[n]? = some process) :
    ∃ process', (step path input state).2.servers[n]? = some process' ∧
      Passes n (step path input state).1 process process' := by
  have hlt : n < state.servers.length := (List.getElem?_eq_some_iff.mp h).1
  cases input with
  | start umask =>
      refine ⟨process, ?_, passes_refl process rfl rfl⟩
      simp only [step]
      rw [List.getElem?_append_left hlt, h]
  | server k =>
      simp only [step]
      by_cases hk : k = n
      · subst hk
        rw [h]
        exact ⟨_, List.getElem?_set_self hlt, passes_serveUnix path k process state.entry⟩
      · cases hother : state.servers[k]? with
        | none =>
            exact ⟨process, h, passes_refl process rfl rfl⟩
        | some other =>
            refine ⟨process, ?_, passes_refl process ?_ ?_⟩
            · simp only
              rw [List.getElem?_set_ne hk, h]
            · simp only
              cases (serveUnix path k other state.entry).1 with
              | _ =>
                  rfl
            · simp only
              cases (serveUnix path k other state.entry).1 with
              | none =>
                  rfl
              | some user =>
                  simp [handedAt, hk]
  | fault k err =>
      by_cases hk : k = n
      · subst hk
        refine ⟨process.stops (.returned (.io err)), ?_, .inr ⟨isOver_stops rfl process, rfl, rfl⟩⟩
        simp [step, h]
      · refine ⟨process, ?_, passes_refl process rfl rfl⟩
        simp [step, hk, h]
  | kill k =>
      by_cases hk : k = n
      · subst hk
        refine ⟨process.stops .killed, ?_, .inr ⟨isOver_stops rfl process, rfl, rfl⟩⟩
        simp [step, h]
      · refine ⟨process, ?_, passes_refl process rfl rfl⟩
        simp [step, hk, h]
  | connect user =>
      simp only [step]
      cases hadmitting : state.admitting user with
      | none =>
          exact ⟨process, h, passes_refl process rfl rfl⟩
      | some k =>
          by_cases hk : k = n
          · subst hk
            obtain ⟨process', mode, hserver, -, hlistening, -⟩ := admitting_eq_some hadmitting
            obtain rfl : process = process' := Option.some.inj (h.symm.trans hserver)
            have hgoes : process.phase.isOver = false := by
              cases hphase : process.phase with
              | bound =>
                  rfl
              | serving =>
                  rfl
              | _ =>
                  rw [hphase] at hlistening
                  cases hlistening
            refine ⟨{ process with queue := process.queue ++ [user] }, ?_, .inl ⟨hgoes, ?_⟩⟩
            · simp [h]
            · simp [queuedAt, handedAt]
          · refine ⟨process, ?_, passes_refl process ?_ rfl⟩
            · simp [hk, h]
            · simp [queuedAt, hk]

/-- Nothing passes through a server that is not there, and it comes with nothing queued. -/
theorem step_absent (input : Input) {state : State} (hn : state.servers.length ≤ n) :
    queuedAt n [(step path input state).1] = [] ∧
    handedAt n [(step path input state).1] = [] ∧
    ∀ process, (step path input state).2.servers[n]? = some process → process.queue = [] := by
  have hgone : ∀ {servers : List Process} {process : Process} {P : Prop},
      servers.length = state.servers.length → servers[n]? = some process → P := by
    intro servers process P hlength hserver
    have hlt := (List.getElem?_eq_some_iff.mp hserver).1
    omega
  cases input with
  | start umask =>
      refine ⟨rfl, rfl, fun process hserver => ?_⟩
      simp only [step] at hserver
      rw [List.getElem?_append_right hn] at hserver
      obtain rfl := List.mem_singleton.mp (List.mem_of_getElem? hserver)
      rfl
  | server k =>
      simp only [step]
      cases hserver : state.servers[k]? with
      | none =>
          exact ⟨rfl, rfl, fun process => hgone rfl⟩
      | some process =>
          have hk : k ≠ n := by
            have hlt := (List.getElem?_eq_some_iff.mp hserver).1
            omega
          refine ⟨?_, ?_, fun process => hgone List.length_set⟩
          · simp only
            cases (serveUnix path k process state.entry).1 with
            | _ =>
                rfl
          · simp only
            cases (serveUnix path k process state.entry).1 with
            | none =>
                rfl
            | some user =>
                simp [handedAt, hk]
  | fault k err =>
      exact ⟨rfl, rfl, fun process => hgone (List.length_modify _ _ _)⟩
  | kill k =>
      exact ⟨rfl, rfl, fun process => hgone (List.length_modify _ _ _)⟩
  | connect user =>
      simp only [step]
      cases hadmitting : state.admitting user with
      | none =>
          exact ⟨rfl, rfl, fun process => hgone rfl⟩
      | some k =>
          obtain ⟨process, mode, hserver, -⟩ := admitting_eq_some hadmitting
          have hk : k ≠ n := by
            have hlt := (List.getElem?_eq_some_iff.mp hserver).1
            omega
          refine ⟨?_, rfl, fun process => hgone (List.length_modify _ _ _)⟩
          simp [queuedAt, hk]

/-- What became so far of the attempts queued at a server. -/
structure Accounts (n : Nat) (deeds : List (Option Deed)) (state : State) : Prop where
  absent : state.servers.length ≤ n → queuedAt n deeds = [] ∧ handedAt n deeds = []
  queued : ∀ process, state.servers[n]? = some process → process.phase.isOver = false →
    queuedAt n deeds = handedAt n deeds ++ process.queue
  prefixed : handedAt n deeds <+: queuedAt n deeds

theorem accounts_step (input : Input) (deeds : List (Option Deed)) (state : State)
    (h : Accounts n deeds state) :
    Accounts n (deeds ++ [(step path input state).1]) (step path input state).2 := by
  cases hserver : state.servers[n]? with
  | none =>
      have hn := List.getElem?_eq_none_iff.mp hserver
      obtain ⟨hqueued, hhanded⟩ := h.absent hn
      obtain ⟨hqueued', hhanded', hqueue⟩ := step_absent input hn
      have hall : queuedAt n (deeds ++ [(step path input state).1]) = [] ∧
          handedAt n (deeds ++ [(step path input state).1]) = [] := by
        rw [queuedAt_append, handedAt_append, hqueued, hhanded, hqueued', hhanded']
        exact ⟨rfl, rfl⟩
      refine ⟨fun _ => hall, fun process' hserver' _ => ?_, ?_⟩
      · rw [hall.1, hall.2, hqueue process' hserver']
        rfl
      · rw [hall.2]
        exact List.nil_prefix
  | some process =>
      obtain ⟨process', hserver', hpasses⟩ := step_process input hserver
      have hlt := (List.getElem?_eq_some_iff.mp hserver').1
      rcases hpasses with ⟨hover, heq⟩ | ⟨hover, hqueued, hhanded⟩
      · have hall : queuedAt n (deeds ++ [(step path input state).1]) =
            handedAt n (deeds ++ [(step path input state).1]) ++ process'.queue := by
          rw [queuedAt_append, handedAt_append, h.queued process hserver hover,
            List.append_assoc, heq, List.append_assoc]
        refine ⟨fun hn => absurd hlt (Nat.not_lt.mpr hn), ?_, ?_⟩
        · intro process'' hserver'' _
          obtain rfl : process' = process'' := Option.some.inj (hserver'.symm.trans hserver'')
          exact hall
        · rw [hall]
          exact List.prefix_append _ _
      · refine ⟨fun hn => absurd hlt (Nat.not_lt.mpr hn), ?_, ?_⟩
        · intro process'' hserver'' hgoes
          obtain rfl : process' = process'' := Option.some.inj (hserver'.symm.trans hserver'')
          rw [hover] at hgoes
          cases hgoes
        · rw [queuedAt_append, handedAt_append, hqueued, hhanded, List.append_nil,
            List.append_nil]
          exact h.prefixed

end Queues

section Places

variable {path : String} {n : Nat} {state : State}

/-- What an input makes of a server: it has just been started, it took its system call, it
was stopped, or it waited. -/
inductive Moves (path : String) (n : Nat) (input : Input) (state : State) (process' : Process) :
    Prop where
  | started (umask : Mode) (hinput : input = .start umask)
      (hprocess : process' = ⟨umask, .start, []⟩)
  | called (process : Process) (hserver : state.servers[n]? = some process)
      (hinput : input = .server n)
      (hprocess : process' = (serveUnix path n process state.entry).2.2)
  | stopped (process : Process) (hserver : state.servers[n]? = some process)
      (hinput : input = .kill n ∨ ∃ err, input = .fault n err)
      (humask : process'.umask = process.umask) (hover : process'.phase.isOver = true)
  | waited (process : Process) (hserver : state.servers[n]? = some process)
      (hinput : input ≠ .server n)
      (humask : process'.umask = process.umask) (hphase : process'.phase = process.phase)

theorem umask_stops (phase : Phase) (process : Process) :
    (process.stops phase).umask = process.umask := by
  unfold Process.stops
  cases process.phase with
  | _ =>
      rfl

/-- Stopping one of the servers. -/
theorem moves_modify {input : Input} {k : Nat} {process' : Process} (phase : Phase)
    (hphase : phase.isOver = true) (hinput : input = .kill k ∨ ∃ err, input = .fault k err)
    (h : (state.servers.modify k (Process.stops phase))[n]? = some process') :
    Moves path n input state process' := by
  rw [List.getElem?_modify] at h
  obtain ⟨process, hserver, hprocess⟩ := Option.map_eq_some_iff.mp h
  by_cases hk : k = n
  · subst hk
    rw [if_pos rfl] at hprocess
    subst hprocess
    exact .stopped process hserver hinput (umask_stops phase process) (isOver_stops hphase process)
  · rw [if_neg hk] at hprocess
    subst hprocess
    refine .waited _ hserver ?_ rfl rfl
    rcases hinput with rfl | ⟨err, rfl⟩
    · nofun
    · nofun

theorem step_moves (input : Input) {process' : Process}
    (h : (step path input state).2.servers[n]? = some process') :
    Moves path n input state process' := by
  cases input with
  | start umask =>
      simp only [step] at h
      rcases Nat.lt_or_ge n state.servers.length with hlt | hge
      · rw [List.getElem?_append_left hlt] at h
        exact .waited process' h nofun rfl rfl
      · rw [List.getElem?_append_right hge] at h
        exact .started umask rfl (List.mem_singleton.mp (List.mem_of_getElem? h))
  | server k =>
      simp only [step] at h
      cases hserver : state.servers[k]? with
      | none =>
          rw [hserver] at h
          have hk : k ≠ n := by
            rintro rfl
            rw [hserver] at h
            cases h
          exact .waited process' h (fun hinput => hk (Input.server.inj hinput)) rfl rfl
      | some process =>
          rw [hserver] at h
          simp only at h
          by_cases hk : k = n
          · subst hk
            rw [List.getElem?_set_self (List.getElem?_eq_some_iff.mp hserver).1] at h
            exact .called process hserver rfl (Option.some.inj h).symm
          · rw [List.getElem?_set_ne hk] at h
            exact .waited process' h (fun hinput => hk (Input.server.inj hinput)) rfl rfl
  | fault k err =>
      exact moves_modify (.returned (.io err)) rfl (.inr ⟨err, rfl⟩) h
  | kill k =>
      exact moves_modify .killed rfl (.inl rfl) h
  | connect user =>
      simp only [step] at h
      cases hadmitting : state.admitting user with
      | none =>
          rw [hadmitting] at h
          exact .waited process' h nofun rfl rfl
      | some k =>
          rw [hadmitting] at h
          simp only [List.getElem?_modify] at h
          obtain ⟨process, hserver, hprocess⟩ := Option.map_eq_some_iff.mp h
          refine .waited process hserver nofun ?_ ?_
          · subst hprocess
            split
            · rfl
            · rfl
          · subst hprocess
            split
            · rfl
            · rfl

/-- Only a system call changes what is at the path. -/
theorem step_entry (path : String) (input : Input) (state : State) :
    (step path input state).2.entry = state.entry ∨
    ∃ k process, input = .server k ∧ state.servers[k]? = some process ∧
      (step path input state).2.entry = (serveUnix path k process state.entry).2.1 := by
  cases input with
  | server k =>
      simp only [step]
      cases hserver : state.servers[k]? with
      | none =>
          exact .inl rfl
      | some process =>
          exact .inr ⟨k, process, rfl, hserver, rfl⟩
  | connect user =>
      simp only [step]
      cases state.admitting user with
      | _ =>
          exact .inl rfl
  | _ =>
      exact .inl rfl

/-- Something other than a socket is at the path, and no server gets past it. -/
structure Refused (mode : Mode) (state : State) : Prop where
  entry : state.entry = some (.other mode)
  idle : ∀ (n : Nat) (process : Process), state.servers[n]? = some process →
    process.phase = .start ∨ process.phase.isOver = true

theorem serveUnix_refused (path : String) (n : Nat) {process : Process} (mode : Mode)
    (h : process.phase = .start ∨ process.phase.isOver = true) :
    (serveUnix path n process (some (.other mode))).1 = none ∧
    (serveUnix path n process (some (.other mode))).2.1 = some (.other mode) ∧
    (serveUnix path n process (some (.other mode))).2.2.phase.isOver = true := by
  obtain ⟨umask, phase, queue⟩ := process
  cases phase with
  | start =>
      exact ⟨rfl, rfl, rfl⟩
  | returned err =>
      exact ⟨rfl, rfl, rfl⟩
  | killed =>
      exact ⟨rfl, rfl, rfl⟩
  | _ =>
      rcases h with h | h
      · cases h
      · cases h

theorem refused_step {mode : Mode} (input : Input) (h : Refused mode state) :
    (step path input state).1 = none ∧ Refused mode (step path input state).2 := by
  refine ⟨?_, ?_, fun n process' hserver' => ?_⟩
  · cases input with
    | server k =>
        simp only [step]
        cases hserver : state.servers[k]? with
        | none =>
            rfl
        | some process =>
            simp only
            rw [h.entry, (serveUnix_refused path k mode (h.idle k process hserver)).1]
            rfl
    | connect user =>
        have hadmitting : state.admitting user = none := by
          simp only [State.admitting, h.entry]
        simp only [step, hadmitting]
    | _ =>
        rfl
  · rcases step_entry path input state with hentry | ⟨k, process, -, hserver, hentry⟩
    · rw [hentry, h.entry]
    · rw [hentry, h.entry, (serveUnix_refused path k mode (h.idle k process hserver)).2.1]
  · cases step_moves input hserver' with
    | started umask hinput hprocess =>
        rw [hprocess]
        exact .inl rfl
    | called process hserver hinput hprocess =>
        rw [hprocess, h.entry]
        exact .inr (serveUnix_refused path n mode (h.idle n process hserver)).2.2
    | stopped process hserver hinput humask hover =>
        exact .inr hover
    | waited process hserver hinput humask hphase =>
        rw [hphase]
        exact h.idle n process hserver

theorem eq_owner_of_masks {umask : Mode} (hmasks : masksWrite umask) {user : User}
    (h : Mode.canWrite (0o777 &&& ~~~ umask) user = true) :
    user = .owner := by
  obtain ⟨hgroup, hother⟩ := (masksWrite_iff umask).mp hmasks
  rw [canWrite_bound] at h
  cases user with
  | owner =>
      rfl
  | group uid =>
      rw [hgroup] at h
      cases h
  | other uid =>
      rw [hother] at h
      cases h

/-- A socket found at the path was there before, has just been bound, or has just been
restricted. -/
theorem serveUnix_socket {k : Nat} {process : Process} {entry : Option Entry}
    {server : Option Nat} {mode : Mode}
    (h : (serveUnix path k process entry).2.1 = some (.socket server mode)) :
    entry = some (.socket server mode) ∨
    server = some k ∧ mode = 0o777 &&& ~~~ process.umask ∨ mode = 0o600 := by
  obtain ⟨umask, phase, queue⟩ := process
  cases phase with
  | start =>
      rcases entry with _ | ⟨server', mode'⟩ | mode'
      · cases h
      · exact .inl h
      · cases h
  | stale =>
      cases entry with
      | none =>
          cases h
      | some entry =>
          cases h
  | prepared =>
      cases entry with
      | none =>
          cases h
          exact .inr (.inl ⟨rfl, rfl⟩)
      | some entry =>
          exact .inl h
  | bound =>
      rcases entry with _ | ⟨server', mode'⟩ | mode'
      · cases h
      · cases h
        exact .inr (.inr rfl)
      · cases h
  | serving =>
      cases queue with
      | nil =>
          exact .inl h
      | cons user queue =>
          exact .inl h
  | returned err =>
      exact .inl h
  | killed =>
      exact .inl h

/-- A server does not come to listen by a call that found something at the path. -/
theorem listening_of_serveUnix {process : Process} {entry : Entry}
    (h : (serveUnix path n process (some entry)).2.2.phase.isListening = true) :
    process.phase.isListening = true := by
  obtain ⟨umask, phase, queue⟩ := process
  cases phase with
  | start =>
      rcases entry with ⟨server, mode⟩ | mode
      · cases h
      · cases h
  | bound =>
      rfl
  | serving =>
      rfl
  | _ =>
      cases h

/-- A socket at which a server listens lets nobody but the owner write. -/
structure OwnerOnly (state : State) : Prop where
  umask : ∀ (n : Nat) (process : Process), state.servers[n]? = some process →
    masksWrite process.umask
  writers : ∀ (n : Nat) (process : Process) (mode : Mode), state.servers[n]? = some process →
    process.phase.isListening = true → state.entry = some (.socket (some n) mode) →
      ∀ user, mode.canWrite user = true → user = .owner

theorem umask_serveUnix (path : String) (n : Nat) (process : Process) (entry : Option Entry) :
    (serveUnix path n process entry).2.2.umask = process.umask := by
  obtain ⟨umask, phase, queue⟩ := process
  cases phase with
  | start =>
      rcases entry with _ | ⟨server, mode⟩ | mode
      · rfl
      · rfl
      · rfl
  | bound =>
      rcases entry with _ | ⟨server, mode⟩ | mode
      · rfl
      · rfl
      · rfl
  | serving =>
      cases queue with
      | _ =>
          rfl
  | _ =>
      cases entry with
      | _ =>
          rfl

theorem ownerOnly_step (input : Input) (hmasks : ∀ umask, input = .start umask → masksWrite umask)
    (h : OwnerOnly state) :
    OwnerOnly (step path input state).2 := by
  refine ⟨fun n process' hserver' => ?_, ?_⟩
  · cases step_moves input hserver' with
    | started umask hinput hprocess =>
        rw [hprocess]
        exact hmasks umask hinput
    | called process hserver hinput hprocess =>
        rw [hprocess, umask_serveUnix]
        exact h.umask n process hserver
    | stopped process hserver hinput humask hover =>
        rw [humask]
        exact h.umask n process hserver
    | waited process hserver hinput humask hphase =>
        rw [humask]
        exact h.umask n process hserver
  · intro n process' mode hserver' hlistening hentry user hwrite
    have hbefore : state.entry = some (.socket (some n) mode) → user = .owner := by
      intro hentry
      cases step_moves input hserver' with
      | started umask hinput hprocess =>
          rw [hprocess] at hlistening
          cases hlistening
      | called process hserver hinput hprocess =>
          rw [hprocess, hentry] at hlistening
          exact h.writers n process mode hserver (listening_of_serveUnix hlistening) hentry user
            hwrite
      | stopped process hserver hinput humask hover =>
          cases hphase : process'.phase with
          | returned err =>
              rw [hphase] at hlistening
              cases hlistening
          | killed =>
              rw [hphase] at hlistening
              cases hlistening
          | _ =>
              rw [hphase] at hover
              cases hover
      | waited process hserver hinput humask hphase =>
          rw [hphase] at hlistening
          exact h.writers n process mode hserver hlistening hentry user hwrite
    rcases step_entry path input state with hsame | ⟨k, process, -, hserver, hcall⟩
    · exact hbefore (hsame.symm.trans hentry)
    · rcases serveUnix_socket (hcall.symm.trans hentry) with hentry | ⟨-, rfl⟩ | rfl
      · exact hbefore hentry
      · exact eq_owner_of_masks (h.umask k process hserver) hwrite
      · exact (canWrite_restricted user).mp hwrite

end Places

section Shared

variable {path : String} {n : Nat} {state : State}

theorem accounts_run (path : String) (inputs : List Input) (entry : Option Entry) (n : Nat) :
    Accounts n (run path inputs entry).1 (run path inputs entry).2 := by
  have hinit : Accounts n [] (.init entry) :=
    ⟨fun _ => ⟨rfl, rfl⟩, fun process hserver => (by cases hserver), List.prefix_rfl⟩
  exact Mealy.run_history (step path) (Accounts n)
    (fun input _ deeds state h => accounts_step input deeds state h) hinit

/-- What an attempt is queued at listens, and lets its user write. -/
theorem of_queued {input : Input} {user : User}
    (h : (step path input state).1 = some (.queued n user)) :
    state.admitting user = some n := by
  cases input with
  | server k =>
      simp only [step] at h
      cases hserver : state.servers[k]? with
      | none =>
          rw [hserver] at h
          cases h
      | some process =>
          rw [hserver] at h
          simp only at h
          obtain ⟨user', -, huser⟩ := Option.map_eq_some_iff.mp h
          cases huser
  | connect user' =>
      simp only [step] at h
      cases hadmitting : state.admitting user' with
      | none =>
          rw [hadmitting] at h
          cases h
      | some k =>
          rw [hadmitting] at h
          cases h
          exact hadmitting
  | _ =>
      cases h

theorem mem_queuedAt {deeds : List (Option Deed)} {user : User} :
    user ∈ queuedAt n deeds ↔ some (.queued n user) ∈ deeds := by
  simp only [queuedAt, List.mem_filterMap]
  constructor
  · rintro ⟨deed, hdeed, huser⟩
    rcases deed with _ | ⟨k, user'⟩ | ⟨k, user'⟩
    · cases huser
    · simp only at huser
      split at huser
      · rename_i hk
        cases huser
        rw [← hk]
        exact hdeed
      · cases huser
    · cases huser
  · exact fun h => ⟨_, h, by simp⟩

/-- Nobody but the owner is queued anywhere under umasks that mask the others' writing. -/
theorem ownerOnly_run (path : String) {inputs : List Input} (entry : Option Entry)
    (hmasks : ∀ umask, .start umask ∈ inputs → masksWrite umask) :
    ∀ n, ∀ user ∈ queuedAt n (run path inputs entry).1, user = .owner := by
  let J (deeds : List (Option Deed)) (state : State) : Prop :=
    OwnerOnly state ∧ ∀ n user, some (.queued n user) ∈ deeds → user = .owner
  have hinit : J [] (.init entry) := by
    refine ⟨⟨fun n process hserver => ?_, fun n process mode hserver => ?_⟩, nofun⟩
    · cases hserver
    · cases hserver
  have hrun : J ([] ++ (run path inputs entry).1) (run path inputs entry).2 := by
    refine Mealy.run_history (step path) J ?_ hinit
    rintro input hinput deeds state ⟨howner, hqueued⟩
    refine ⟨ownerOnly_step input (fun umask h => hmasks umask (h ▸ hinput)) howner, ?_⟩
    intro n user hmem
    rcases List.mem_append.mp hmem with hmem | hmem
    · exact hqueued n user hmem
    · obtain ⟨process, mode, hserver, hentry, hlistening, hwrite⟩ :=
        admitting_eq_some (of_queued (List.mem_singleton.mp hmem).symm)
      exact howner.writers n process mode hserver hlistening hentry user hwrite
  intro n user huser
  exact hrun.2 n user (mem_queuedAt.mp huser)

/--
However servers on one path are started, take their system calls, fail and are killed,
and whoever connects meanwhile: each server hands on the attempts its listener queued,
each once and in their order, and while it runs those not yet handed on are still
queued; something other than a socket stays at the path as it is, and nobody is queued;
and only the owner is ever queued if each server's umask masks the others' writing.
-/
theorem path_shared (path : String) (inputs : List Input) (entry : Option Entry) :
    let (deeds, state) := run path inputs entry
    (∀ n, handedAt n deeds <+: queuedAt n deeds) ∧
    (∀ (n : Nat) (process : Process), state.servers[n]? = some process →
      process.phase.isOver = false →
        queuedAt n deeds = handedAt n deeds ++ process.queue) ∧
    (∀ mode, entry = some (.other mode) →
      state.entry = some (.other mode) ∧ ∀ deed ∈ deeds, deed = none) ∧
    ((∀ umask, .start umask ∈ inputs → masksWrite umask) →
      ∀ n, ∀ user ∈ queuedAt n deeds, user = .owner) := by
  refine ⟨fun n => (accounts_run path inputs entry n).prefixed,
    fun n => (accounts_run path inputs entry n).queued, ?_, ownerOnly_run path entry⟩
  rintro mode rfl
  have hinit : Refused mode (.init (some (.other mode))) :=
    ⟨rfl, fun n process hserver => by cases hserver⟩
  refine ⟨(Mealy.run_invariant (step path) (Refused mode)
    (fun input state h => (refused_step input h).2) inputs hinit).entry, ?_⟩
  exact Mealy.run_outputs (step path) (Refused mode) (· = none)
    (fun input state h => (refused_step input h).symm) inputs hinit

/-- A second server takes the path from the first, and both hand on what they queued. -/
def relay : List Input :=
  [.start 0o022, .server 0, .server 0, .connect (.other 7), .server 0, .connect .owner,
    .start 0o022, .server 1, .server 1, .server 1, .server 1, .connect .owner, .server 0, .server 1]

theorem path_shared_of_relay :
    handedAt 0 (run "/run/mcp.sock" relay none).1 = [.owner] ∧
    handedAt 1 (run "/run/mcp.sock" relay none).1 = [.owner] ∧
    ∀ n, ∀ user ∈ queuedAt n (run "/run/mcp.sock" relay none).1, user = .owner := by
  refine ⟨by decide, by decide, (path_shared "/run/mcp.sock" relay none).2.2.2 ?_⟩
  intro umask hmem
  have humask : umask = 0o022 := by
    simpa [relay] using hmem
  rw [humask]
  unfold masksWrite
  decide

end Shared

section Succession

variable {path : String} {n : Nat} {state : State}

/-- What is at the path when the newest server is about to take its next call. -/
def Phase.At (n : Nat) (entry : Option Entry) : Phase → Prop
  | .start => ∀ mode, entry ≠ some (.other mode)
  | .stale => ∃ server mode, entry = some (.socket server mode)
  | .prepared => entry = none
  | .bound => ∃ mode, entry = some (.socket (some n) mode)
  | .serving => entry = some (.socket (some n) 0o600)
  | .returned _ => False
  | .killed => False

/-- How many calls a server is from serving. -/
def Phase.left : Phase → Nat
  | .start => 4
  | .stale => 3
  | .prepared => 2
  | .bound => 1
  | _ => 0

/-- A server that no longer changes what is at the path. -/
def Phase.isSettled : Phase → Bool
  | .serving => true
  | phase => phase.isOver

theorem isSettled_of_isOver {phase : Phase} (h : phase.isOver = true) :
    phase.isSettled = true := by
  cases phase with
  | returned err =>
      rfl
  | killed =>
      rfl
  | _ =>
      cases h

theorem serveUnix_settled (path : String) (k : Nat) {process : Process} (entry : Option Entry)
    (h : process.phase.isSettled = true) :
    (serveUnix path k process entry).2.1 = entry ∧
    (serveUnix path k process entry).2.2.phase = process.phase := by
  obtain ⟨umask, phase, queue⟩ := process
  cases phase with
  | serving =>
      cases queue with
      | _ =>
          exact ⟨rfl, rfl⟩
  | returned err =>
      exact ⟨rfl, rfl⟩
  | killed =>
      exact ⟨rfl, rfl⟩
  | _ =>
      cases h

/-- A call of the newest server finds what it needs, and is one fewer to serving. -/
theorem serveUnix_at (path : String) {process : Process} {entry : Option Entry}
    (h : process.phase.At n entry) :
    (serveUnix path n process entry).2.2.phase.At n (serveUnix path n process entry).2.1 ∧
    (serveUnix path n process entry).2.2.phase.left ≤ process.phase.left - 1 := by
  obtain ⟨umask, phase, queue⟩ := process
  cases phase with
  | start =>
      rcases entry with _ | ⟨server, mode⟩ | mode
      · exact ⟨rfl, Nat.le_succ 2⟩
      · exact ⟨⟨server, mode, rfl⟩, Nat.le_refl _⟩
      · exact absurd rfl (h mode)
  | stale =>
      obtain ⟨server, mode, rfl⟩ := h
      exact ⟨rfl, Nat.le_refl _⟩
  | prepared =>
      obtain rfl : entry = none := h
      exact ⟨⟨_, rfl⟩, Nat.le_refl _⟩
  | bound =>
      obtain ⟨mode, rfl⟩ := h
      exact ⟨rfl, Nat.le_refl _⟩
  | serving =>
      cases queue with
      | _ =>
          exact ⟨h, Nat.le_refl _⟩
  | returned err =>
      exact h.elim
  | killed =>
      exact h.elim

/-- The newest server is on its way, and the others leave the path alone. -/
structure Taking (n left : Nat) (state : State) : Prop where
  others : ∀ (k : Nat) (process : Process), k ≠ n → state.servers[k]? = some process →
    process.phase.isSettled = true
  newest : ∃ process, state.servers[n]? = some process ∧ process.phase.At n state.entry ∧
    process.phase.left ≤ left

theorem taking_step (path : String) {left : Nat} {input : Input}
    (hstart : ∀ umask, input ≠ .start umask)
    (hfault : ∀ err, input ≠ .fault n err) (hkill : input ≠ .kill n)
    (h : Taking n left state) :
    Taking n (left - [input].count (.server n)) (step path input state).2 := by
  obtain ⟨process, hserver, hat, hleft⟩ := h.newest
  refine ⟨fun k process' hk hserver' => ?_, ?_⟩
  · cases step_moves input hserver' with
    | started umask hinput hprocess =>
        exact absurd hinput (hstart umask)
    | called other hother hinput hprocess =>
        have hsettled := h.others k other hk hother
        rw [hprocess, (serveUnix_settled path k state.entry hsettled).2]
        exact hsettled
    | stopped other hother hinput humask hover =>
        exact isSettled_of_isOver hover
    | waited other hother hinput humask hphase =>
        rw [hphase]
        exact h.others k other hk hother
  · obtain ⟨process', hserver', -⟩ := step_process input hserver
    refine ⟨process', hserver', ?_⟩
    cases step_moves input hserver' with
    | started umask hinput hprocess =>
        exact absurd hinput (hstart umask)
    | called other hother hinput hprocess =>
        obtain rfl : process = other := Option.some.inj (hserver.symm.trans hother)
        subst hinput
        obtain ⟨hat', hleft'⟩ := serveUnix_at path hat
        have hentry : (step path (.server n) state).2.entry =
            (serveUnix path n process state.entry).2.1 := by
          simp only [step, hserver]
        rw [hprocess, hentry]
        refine ⟨hat', ?_⟩
        simp only [List.count_singleton_self]
        omega
    | stopped other hother hinput humask hover =>
        rcases hinput with hinput | ⟨err, hinput⟩
        · exact absurd hinput hkill
        · exact absurd hinput (hfault err)
    | waited other hother hinput humask hphase =>
        obtain rfl : process = other := Option.some.inj (hserver.symm.trans hother)
        have hentry : (step path input state).2.entry = state.entry := by
          rcases step_entry path input state with hsame | ⟨k, other, hcall, hother, hentry⟩
          · exact hsame
          · have hk : k ≠ n := by
              rintro rfl
              exact hinput hcall
            rw [hentry, (serveUnix_settled path k state.entry (h.others k other hk hother)).1]
        rw [hphase, hentry, List.count_singleton]
        refine ⟨hat, ?_⟩
        simp [hinput, hleft]

theorem taking_run (path : String) {inputs : List Input} (hstart : ∀ umask, .start umask ∉ inputs)
    (hfault : ∀ err, .fault n err ∉ inputs) (hkill : .kill n ∉ inputs) {left : Nat}
    (h : Taking n left state) :
    Taking n (left - inputs.count (.server n)) (Mealy.run (step path) inputs state).2 := by
  induction inputs generalizing left state with
  | nil =>
      exact h
  | cons input inputs ih =>
      have hnext := taking_step path (fun umask hinput => hstart umask (hinput ▸ .head _))
        (fun err hinput => hfault err (hinput ▸ .head _))
        (fun hinput => hkill (hinput ▸ .head _)) h
      have hrest := ih (fun umask hmem => hstart umask (.tail _ hmem))
        (fun err hmem => hfault err (.tail _ hmem)) (fun hmem => hkill (.tail _ hmem)) hnext
      rw [Nat.sub_sub, ← List.count_append] at hrest
      exact hrest

/-- Only what is not a socket already makes something else be at the path. -/
theorem serveUnix_other {k : Nat} {process : Process} {entry : Option Entry}
    (h : ∀ mode, entry ≠ some (.other mode)) :
    ∀ mode, (serveUnix path k process entry).2.1 ≠ some (.other mode) := by
  obtain ⟨umask, phase, queue⟩ := process
  cases phase with
  | start =>
      rcases entry with _ | ⟨server, mode⟩ | mode
      · exact h
      · exact h
      · exact absurd rfl (h mode)
  | stale =>
      cases entry with
      | _ =>
          nofun
  | prepared =>
      cases entry with
      | none =>
          nofun
      | some entry =>
          exact h
  | bound =>
      rcases entry with _ | ⟨server, mode⟩ | mode
      · nofun
      · nofun
      · exact absurd rfl (h mode)
  | serving =>
      cases queue with
      | _ =>
          exact h
  | returned err =>
      exact h
  | killed =>
      exact h

theorem other_run (path : String) (inputs : List Input) {entry : Option Entry}
    (h : ∀ mode, entry ≠ some (.other mode)) :
    ∀ mode, (run path inputs entry).2.entry ≠ some (.other mode) := by
  refine Mealy.run_invariant (step path) (fun state => ∀ mode, state.entry ≠ some (.other mode))
    (fun input state h => ?_) inputs h
  rcases step_entry path input state with hsame | ⟨k, process, -, -, hcall⟩
  · rw [hsame]
    exact h
  · rw [hcall]
    exact serveUnix_other h

/--
A server started once the others serve or are over, on a path at which there is a socket
or nothing, and that is neither stopped nor followed by another, has the path after its
first four calls, whatever else happens in between: its socket is there for the owner
only, and every attempt of the owner from then on is queued at it.
-/
theorem takes_over (path : String) (entry : Option Entry) (before after : List Input)
    (umask : Mode) (n : Nat)
    (hn : (run path before entry).2.servers.length = n)
    (hentry : ∀ mode, entry ≠ some (.other mode))
    (hothers : ∀ process ∈ (run path before entry).2.servers, process.phase.isSettled = true)
    (hstart : ∀ umask, .start umask ∉ after)
    (hfault : ∀ err, .fault n err ∉ after) (hkill : .kill n ∉ after)
    (hcalls : 4 ≤ after.count (.server n)) :
    (run path (before ++ .start umask :: after) entry).2.entry =
        some (.socket (some n) 0o600) ∧
    ∀ user, (run path (before ++ .start umask :: after) entry).2.admitting user =
      if user = .owner then some n else none := by
  have hrun : (run path (before ++ .start umask :: after) entry).2 =
      (Mealy.run (step path) after (step path (.start umask) (run path before entry).2).2).2 := by
    unfold run
    rw [Mealy.run_append_snd, Mealy.run_cons_snd]
  have hinit : Taking n 4 (step path (.start umask) (run path before entry).2).2 := by
    refine ⟨fun k process hk hserver => ?_, ⟨umask, .start, []⟩, ?_, ?_, Nat.le_refl _⟩
    · simp only [step] at hserver
      have hlt := (List.getElem?_eq_some_iff.mp hserver).1
      simp only [List.length_append, List.length_singleton] at hlt
      rw [List.getElem?_append_left (by omega)] at hserver
      exact hothers process (List.mem_of_getElem? hserver)
    · simp [step, hn]
    · exact other_run path before hentry
  have htaken := taking_run path hstart hfault hkill hinit
  rw [Nat.sub_eq_zero_of_le hcalls, ← hrun] at htaken
  obtain ⟨process, hserver, hat, hleft⟩ := htaken.newest
  have hserving : process.phase = .serving := by
    cases hphase : process.phase with
    | serving =>
        rfl
    | returned err =>
        rw [hphase] at hat
        exact hat.elim
    | killed =>
        rw [hphase] at hat
        exact hat.elim
    | _ =>
        rw [hphase] at hleft
        cases hleft
  rw [hserving] at hat
  have htaken : (run path (before ++ .start umask :: after) entry).2.entry =
      some (.socket (some n) 0o600) :=
    hat
  refine ⟨htaken, fun user => ?_⟩
  simp only [State.admitting, htaken, hserver, hserving, Phase.isListening, Bool.true_and,
    canWrite_restricted]

theorem takes_over_of_restart :
    (run "/run/mcp.sock" [.start 0o022, .server 0, .server 0, .server 0, .start 0o022, .server 1,
      .kill 0, .server 1, .connect .owner, .server 1, .server 0, .server 1] none).2.entry =
        some (.socket (some 1) 0o600) := by
  refine (takes_over "/run/mcp.sock" none [.start 0o022, .server 0, .server 0, .server 0]
    [.server 1, .kill 0, .server 1, .connect .owner, .server 1, .server 0, .server 1] 0o022 1
    rfl nofun ?_ ?_ ?_ ?_ ?_).1
  · decide
  · simp
  · simp
  · decide
  · decide

end Succession

section Alone

variable {umask : Mode}

def Entry.node : Entry → Node
  | .socket _ mode => .socket mode
  | .other _ => .other

/-- Where the machine of a single server is. -/
def Phase.ofAlone : UnixSocket.Phase → Phase
  | .start => .start
  | .prepared => .prepared
  | .bound => .bound
  | .serving => .serving
  | .returned err => .returned err

/-- The machine of a single server, and these servers when there is only the one. -/
structure Alone (umask : Mode) (alone : UnixSocket.State) (state : State) : Prop where
  servers : ∃ queue, state.servers = [⟨umask, .ofAlone alone.phase, queue⟩] ∧
    ((Phase.ofAlone alone.phase).isOver = false → queue = alone.queue)
  entry : alone.node = state.entry.map Entry.node
  listening : alone.phase.isListening = true → ∃ mode, state.entry = some (.socket (some 0) mode)

theorem isListening_ofAlone (phase : UnixSocket.Phase) :
    (Phase.ofAlone phase).isListening = phase.isListening := by
  cases phase with
  | _ =>
      rfl

/-- The two let in the same users. -/
theorem Alone.admitting {alone : UnixSocket.State} {state : State} (h : Alone umask alone state)
    (user : User) :
    state.admitting user = if alone.admits user then some 0 else none := by
  obtain ⟨entry, servers⟩ := state
  obtain ⟨⟨queue, rfl, -⟩, hentry, hlistening⟩ := h
  simp only at hentry hlistening
  unfold State.admitting UnixSocket.State.admits
  cases hphase : alone.phase.isListening with
  | true =>
      obtain ⟨mode, rfl⟩ := hlistening hphase
      rw [hentry]
      simp only [List.getElem?_cons_zero, isListening_ofAlone, hphase]
      rfl
  | false =>
      rcases entry with _ | ⟨_ | _ | k, mode⟩ | mode
      · rfl
      · rfl
      · simp [isListening_ofAlone, hphase]
      · rfl
      · rfl

/-- A step of the single server is a call, or two where it finds a socket. -/
theorem alone_step (path : String) (input : UnixSocket.Input) {alone : UnixSocket.State}
    {state : State} (h : Alone umask alone state) :
    ∃ inputs, Alone umask (UnixSocket.step umask path input alone).2
        (Mealy.run (step path) inputs state).2 ∧
      handedAt 0 (Mealy.run (step path) inputs state).1 =
        (UnixSocket.step umask path input alone).1.toList := by
  have hadmitting := h.admitting
  obtain ⟨phase, node, queue⟩ := alone
  obtain ⟨entry, servers⟩ := state
  obtain ⟨⟨queue', rfl, hqueue⟩, hentry, hlistening⟩ := h
  simp only at hentry hlistening hqueue hadmitting
  cases input with
  | server =>
      cases phase with
      | start =>
          obtain rfl : queue' = queue := hqueue rfl
          rcases entry with _ | ⟨server, mode⟩ | mode
          · subst hentry
            exact ⟨[.server 0], ⟨⟨_, rfl, fun _ => rfl⟩, rfl, nofun⟩, rfl⟩
          · subst hentry
            exact ⟨[.server 0, .server 0], ⟨⟨_, rfl, fun _ => rfl⟩, rfl, nofun⟩, rfl⟩
          · subst hentry
            exact ⟨[.server 0], ⟨⟨_, rfl, nofun⟩, rfl, nofun⟩, rfl⟩
      | prepared =>
          obtain rfl : queue' = queue := hqueue rfl
          cases entry with
          | none =>
              subst hentry
              exact ⟨[.server 0], ⟨⟨_, rfl, fun _ => rfl⟩, rfl, fun _ => ⟨_, rfl⟩⟩, rfl⟩
          | some entry =>
              subst hentry
              exact ⟨[.server 0], ⟨⟨_, rfl, nofun⟩, rfl, nofun⟩, rfl⟩
      | bound =>
          obtain rfl : queue' = queue := hqueue rfl
          obtain ⟨mode, rfl⟩ := hlistening rfl
          subst hentry
          exact ⟨[.server 0], ⟨⟨_, rfl, fun _ => rfl⟩, rfl, fun _ => ⟨_, rfl⟩⟩, rfl⟩
      | serving =>
          obtain rfl : queue' = queue := hqueue rfl
          cases queue' with
          | nil =>
              exact ⟨[.server 0], ⟨⟨_, rfl, fun _ => rfl⟩, hentry, hlistening⟩, rfl⟩
          | cons user queue =>
              exact ⟨[.server 0], ⟨⟨_, rfl, fun _ => rfl⟩, hentry, hlistening⟩, rfl⟩
      | returned err =>
          exact ⟨[], ⟨⟨_, rfl, nofun⟩, hentry, nofun⟩, rfl⟩
  | fault err =>
      cases phase with
      | returned err =>
          exact ⟨[], ⟨⟨_, rfl, nofun⟩, hentry, nofun⟩, rfl⟩
      | _ =>
          exact ⟨[.fault 0 err], ⟨⟨_, rfl, nofun⟩, hentry, nofun⟩, rfl⟩
  | connect user =>
      refine ⟨[.connect user], ?_⟩
      simp only [UnixSocket.step, Mealy.run_cons_fst, Mealy.run_cons_snd, Mealy.run_nil, step,
        hadmitting]
      split
      · exact ⟨⟨⟨queue' ++ [user], rfl, fun hover => by rw [hqueue hover]⟩, hentry, hlistening⟩,
          rfl⟩
      · exact ⟨⟨⟨queue', rfl, hqueue⟩, hentry, hlistening⟩, rfl⟩

theorem alone_run (path : String) (inputs : List UnixSocket.Input) {alone : UnixSocket.State}
    {state : State} (h : Alone umask alone state) :
    ∃ inputs', handedAt 0 (Mealy.run (step path) inputs' state).1 =
      (Mealy.run (UnixSocket.step umask path) inputs alone).1.filterMap id := by
  induction inputs generalizing alone state with
  | nil =>
      exact ⟨[], rfl⟩
  | cons input inputs ih =>
      obtain ⟨first, halone, hfirst⟩ := alone_step path input h
      obtain ⟨rest, hrest⟩ := ih halone
      refine ⟨first ++ rest, ?_⟩
      rw [Mealy.run_append_fst, handedAt_append, hfirst, hrest, Mealy.run_cons_fst]
      cases (UnixSocket.step umask path input alone).1 with
      | _ =>
          rfl

/-- What the machine of a single server hands over, one of these servers hands over when it
is alone. -/
theorem handed_alone (umask : Mode) (path : String) (inputs : List UnixSocket.Input)
    (entry : Option Entry) :
    ∃ inputs', handedAt 0 (run path (.start umask :: inputs') entry).1 =
      UnixSocket.handed umask path inputs (entry.map Entry.node) := by
  have hstarted : Alone umask (.init (entry.map Entry.node)) ⟨entry, [⟨umask, .start, []⟩]⟩ :=
    ⟨⟨[], rfl, fun _ => rfl⟩, rfl, nofun⟩
  obtain ⟨inputs', h⟩ := alone_run path inputs hstarted
  exact ⟨inputs', h⟩

end Alone

end SharedPath
end McpCore
