import McpCore.Error
import McpCore.Library.Mealy

/-!
# Serving over a unix socket

`serve_unix` up to the point where a connection is handed to a session, as a machine
whose inputs are the steps of the server, its I/O failures, and the connection
attempts of the machine's users, in any order.

The operating system is assumed to queue an attempt exactly when the listener's node
is there and its mode lets that user write, and to keep it queued until it is
accepted, whatever the mode becomes.

`serves_owner_only_iff` says under which umasks nobody but the owner is served.
-/

namespace McpCore
namespace UnixSocket

section Permissions

/-- Permission bits. -/
abbrev Mode := BitVec 9

/-- An unprivileged user, as the permissions of the socket see it. -/
inductive User where
  | owner
  | group (uid : Nat)
  | other (uid : Nat)
deriving DecidableEq

/-- Whether a mode lets a user write. -/
def Mode.canWrite (mode : Mode) : User → Bool
  | .owner => mode.getLsbD 7
  | .group _ => mode.getLsbD 4
  | .other _ => mode.getLsbD 1

/-- What a path leads to. -/
inductive Node where
  | socket (mode : Mode)
  | other
deriving DecidableEq

end Permissions

section Server

/-- Where `serve_unix` is. -/
inductive Phase where
  | start
  | prepared
  | bound
  | serving
  | returned (err : Error)
deriving DecidableEq

/-- The server, the node at its path, and the attempts its listener has queued. -/
structure State where
  phase : Phase
  node : Option Node
  queue : List User

/-- Nothing is listening yet, whatever there is at the path. -/
def State.init (node : Option Node) : State :=
  ⟨.start, node, []⟩

inductive Input where
  /-- The server takes its next step. -/
  | server
  /-- The server's next step fails. -/
  | fault (err : IoError)
  /-- A user tries to connect. -/
  | connect (user : User)

variable (umask : Mode) (path : String)

/-- Remove a stale socket; leave anything else alone and refuse. -/
def prepareUnixSocketPath : Option Node → Except Error (Option Node)
  | some (.socket _) => .ok none
  | some .other =>
      .error (.config s!"refusing to bind unix socket: {path} exists and is not a socket")
  | none => .ok none

/-- Listen on a new node, with all permissions the umask does not mask. -/
def bind (state : State) : State :=
  match state.node with
  | some _ => { state with phase := .returned (.io ⟨"Address already in use"⟩) }
  | none => { state with phase := .bound, node := some (.socket (0o777 &&& ~~~ umask)) }

/-- Owner only. -/
def restrictSocketPerms (state : State) : State :=
  { state with phase := .serving, node := state.node.map fun _ => .socket 0o600 }

/-- The server's next step, and the connection it hands to a session, if any. -/
def serveUnix (state : State) : Option User × State :=
  match state.phase with
  | .start =>
      match prepareUnixSocketPath path state.node with
      | .ok node => (none, { state with phase := .prepared, node })
      | .error err => (none, { state with phase := .returned err })
  | .prepared => (none, bind umask state)
  | .bound => (none, restrictSocketPerms state)
  | .serving =>
      match state.queue with
      | [] => (none, state)
      | user :: queue => (some user, { state with queue })
  | .returned _ => (none, state)

/-- Whether something is listening on the node. -/
def Phase.isListening : Phase → Bool
  | .bound => true
  | .serving => true
  | _ => false

/-- Whether an attempt of `user` is queued. -/
def State.admits (state : State) (user : User) : Bool :=
  state.phase.isListening &&
    match state.node with
    | some (.socket mode) => mode.canWrite user
    | _ => false

def step (input : Input) (state : State) : Option User × State :=
  match input with
  | .server => serveUnix umask path state
  | .fault err =>
      match state.phase with
      | .returned _ => (none, state)
      | _ => (none, { state with phase := .returned (.io err) })
  | .connect user =>
      if state.admits user then (none, { state with queue := state.queue ++ [user] })
      else (none, state)

/-- The connections that a run hands to sessions. -/
def handed (inputs : List Input) (node : Option Node) : List User :=
  (Mealy.run (step umask path) inputs (.init node)).1.filterMap id

end Server

section Owner

variable {umask : Mode} {path : String}

/-- The umask takes the write permission from group and others. -/
def masksWrite (umask : Mode) : Prop :=
  umask &&& 0o022 = 0o022

theorem masksWrite_iff (umask : Mode) :
    masksWrite umask ↔ umask.getLsbD 4 = true ∧ umask.getLsbD 1 = true := by
  constructor
  · intro h
    have hgroup := congrArg (BitVec.getLsbD · 4) h
    have hother := congrArg (BitVec.getLsbD · 1) h
    simp only [BitVec.getLsbD_and] at hgroup hother
    simpa using And.intro hgroup hother
  · rintro ⟨hgroup, hother⟩
    refine BitVec.eq_of_getLsbD_eq fun i hi => ?_
    rw [BitVec.getLsbD_and]
    by_cases h4 : i = 4
    · simp [h4, hgroup]
    · by_cases h1 : i = 1
      · simp [h1, hother]
      · have hclear : ∀ i < 9, i ≠ 4 → i ≠ 1 → (0o022#9).getLsbD i = false := by
          decide
        simp [hclear i hi h4 h1]

/-- The mode that `bind` gives lets in whom the umask does not mask. -/
theorem canWrite_bound (user : User) :
    Mode.canWrite (0o777 &&& ~~~ umask) user =
      match user with
      | .owner => !umask.getLsbD 7
      | .group _ => !umask.getLsbD 4
      | .other _ => !umask.getLsbD 1 := by
  cases user with
  | owner => simp [Mode.canWrite]
  | group uid => simp [Mode.canWrite]
  | other uid => simp [Mode.canWrite]

theorem canWrite_restricted (user : User) :
    Mode.canWrite 0o600 user = true ↔ user = .owner := by
  cases user with
  | owner => simp [Mode.canWrite]
  | group uid => simp [Mode.canWrite]
  | other uid => simp [Mode.canWrite]

/-- While something listens, its node is there with the mode of its phase. -/
structure Placed (umask : Mode) (state : State) : Prop where
  bound : state.phase = .bound → state.node = some (.socket (0o777 &&& ~~~ umask))
  serving : state.phase = .serving → state.node = some (.socket 0o600)

/-- Nothing is said of a node at which nothing listens. -/
theorem Placed.of_not_listening {state : State} (h : state.phase.isListening = false) :
    Placed umask state := by
  constructor
  · intro hphase
    rw [hphase] at h
    cases h
  · intro hphase
    rw [hphase] at h
    cases h

/-- Each step leaves the node as its phase has it. -/
theorem placed_step (input : Input) (state : State) (h : Placed umask state) :
    Placed umask (step umask path input state).2 := by
  obtain ⟨phase, node, queue⟩ := state
  cases input with
  | server =>
      cases phase with
      | start =>
          simp only [step, serveUnix]
          cases prepareUnixSocketPath path node with
          | ok node => exact .of_not_listening rfl
          | error err => exact .of_not_listening rfl
      | prepared =>
          simp only [step, serveUnix, bind]
          cases node with
          | none => exact ⟨fun _ => rfl, nofun⟩
          | some node => exact .of_not_listening rfl
      | bound =>
          refine ⟨nofun, fun _ => ?_⟩
          obtain rfl : node = some _ := h.bound rfl
          rfl
      | serving =>
          simp only [step, serveUnix]
          cases queue with
          | nil => exact h
          | cons user queue => exact ⟨nofun, h.serving⟩
      | returned err =>
          exact h
  | fault err =>
      cases phase with
      | returned err => exact h
      | _ => exact .of_not_listening rfl
  | connect user =>
      simp only [step]
      split
      · exact ⟨h.bound, h.serving⟩
      · exact h

/-- Under such a umask only the owner is ever let in. -/
theorem eq_owner_of_admits (hmasks : masksWrite umask) {state : State}
    (hplaced : Placed umask state) {user : User} (h : state.admits user = true) :
    user = .owner := by
  obtain ⟨hgroup, hother⟩ := (masksWrite_iff umask).mp hmasks
  obtain ⟨hlistening, hmode⟩ := Bool.and_eq_true_iff.mp h
  cases hphase : state.phase with
  | bound =>
      rw [hplaced.bound hphase] at hmode
      have hwrite : Mode.canWrite (0o777 &&& ~~~ umask) user = true := hmode
      rw [canWrite_bound] at hwrite
      cases user with
      | owner => rfl
      | group uid =>
          rw [hgroup] at hwrite
          cases hwrite
      | other uid =>
          rw [hother] at hwrite
          cases hwrite
  | serving =>
      rw [hplaced.serving hphase] at hmode
      exact (canWrite_restricted user).mp hmode
  | start => simp [hphase, Phase.isListening] at hlistening
  | prepared => simp [hphase, Phase.isListening] at hlistening
  | returned err => simp [hphase, Phase.isListening] at hlistening

/-- What is handed over was queued, and what is queued was let in. -/
theorem step_cases (umask : Mode) (path : String) (input : Input) (state : State) :
    (∀ user ∈ (step umask path input state).1, user ∈ state.queue) ∧
    ∀ user ∈ (step umask path input state).2.queue,
      user ∈ state.queue ∨ state.admits user = true := by
  obtain ⟨phase, node, queue⟩ := state
  cases input with
  | server =>
      cases phase with
      | start =>
          simp only [step, serveUnix]
          cases prepareUnixSocketPath path node with
          | ok node => exact ⟨nofun, fun user h => .inl h⟩
          | error err => exact ⟨nofun, fun user h => .inl h⟩
      | prepared =>
          simp only [step, serveUnix, bind]
          cases node with
          | none => exact ⟨nofun, fun user h => .inl h⟩
          | some node => exact ⟨nofun, fun user h => .inl h⟩
      | bound => exact ⟨nofun, fun user h => .inl h⟩
      | serving =>
          simp only [step, serveUnix]
          cases queue with
          | nil => exact ⟨nofun, nofun⟩
          | cons head queue =>
              refine ⟨fun user h => ?_, fun user h => .inl (.tail _ h)⟩
              cases h
              exact .head _
      | returned err => exact ⟨nofun, fun user h => .inl h⟩
  | fault err =>
      cases phase with
      | _ => exact ⟨nofun, fun user h => .inl h⟩
  | connect user =>
      simp only [step]
      split
      · rename_i hadmits
        refine ⟨nofun, fun user' h => ?_⟩
        rcases List.mem_append.mp h with h | h
        · exact .inl h
        · rw [List.mem_singleton.mp h]
          exact .inr hadmits
      · exact ⟨nofun, fun user h => .inl h⟩

/-- Under such a umask every run hands over the owner's connections only. -/
theorem handed_owner (hmasks : masksWrite umask) (inputs : List Input) (node : Option Node) :
    ∀ user ∈ handed umask path inputs node, user = .owner := by
  intro user huser
  obtain ⟨output, houtput, rfl⟩ := List.mem_filterMap.mp huser
  have houtputs := Mealy.run_outputs (step umask path)
    (fun state => Placed umask state ∧ ∀ user ∈ state.queue, user = .owner)
    (fun output => ∀ user ∈ output, user = .owner) ?_ inputs
    (s := .init node) ⟨.of_not_listening rfl, nofun⟩
  · exact houtputs _ houtput user rfl
  · intro input state ⟨hplaced, hqueue⟩
    obtain ⟨hhanded, hqueued⟩ := step_cases umask path input state
    refine ⟨⟨placed_step input state hplaced, fun user h => ?_⟩,
      fun user h => hqueue user (hhanded user h)⟩
    rcases hqueued user h with h | h
    · exact hqueue user h
    · exact eq_owner_of_admits hmasks hplaced h

/-- An attempt made between `bind` and `restrict_socket_perms`, then accepted. -/
def race (user : User) : List Input :=
  [.server, .server, .connect user, .server, .server]

/-- Whoever the node's first mode lets in is served. -/
theorem handed_race (umask : Mode) (path : String) (user : User)
    (hwrite : Mode.canWrite (0o777 &&& ~~~ umask) user = true) :
    handed umask path (race user) none = [user] := by
  let bound : State := ⟨.bound, some (.socket (0o777 &&& ~~~ umask)), []⟩
  have hqueued : step umask path (.connect user) bound =
      (none, { bound with queue := [user] }) := by
    have hadmits : bound.admits user = true := hwrite
    simp only [step, hadmits, if_true]
    rfl
  change (Mealy.run (step umask path) [.connect user, .server, .server] bound).1.filterMap id = _
  rw [Mealy.run_cons_fst, hqueued]
  rfl

/--
Nobody but the owner is ever served, in any order of steps, exactly under the umasks
that take the write permission from group and others.
-/
theorem serves_owner_only_iff (umask : Mode) (path : String) :
    (∀ (node : Option Node) (inputs : List Input),
      ∀ user ∈ handed umask path inputs node, user = .owner) ↔
    umask &&& 0o022 = 0o022 := by
  constructor
  · intro h
    refine (masksWrite_iff umask).mpr ⟨?_, ?_⟩
    · by_contra hclear
      have hrace := handed_race umask path (.group 0) (by
        rw [canWrite_bound]
        simpa using hclear)
      exact absurd (h none (race (.group 0)) (.group 0) (by simp [hrace])) (by decide)
    · by_contra hclear
      have hrace := handed_race umask path (.other 0) (by
        rw [canWrite_bound]
        simpa using hclear)
      exact absurd (h none (race (.other 0)) (.other 0) (by simp [hrace])) (by decide)
  · exact fun hmasks node inputs => handed_owner hmasks inputs node

/-- With no umask another user gets in before the mode is set, and is served. -/
theorem serves_other_user :
    handed 0 "/run/mcp.sock"
      [.server, .server, .connect (.other 1000), .server, .server] none = [.other 1000] ∧
    User.other 1000 ≠ .owner := by
  refine ⟨handed_race 0 "/run/mcp.sock" (.other 1000) ?_, by decide⟩
  rw [canWrite_bound]
  rfl

end Owner

end UnixSocket
end McpCore
