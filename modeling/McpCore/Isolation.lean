import McpCore.FrontDoor

/-!
# Connections kept apart

What connections share is the service.  If its answers do not depend on its state, then
nothing that happens on other connections is seen on one: it is left the same, and makes
the same calls, in any two runs in which the same happens to it.
-/

namespace McpCore
namespace Runner

open Transport Server Auth

section Answers

variable {σ : Type}

/-- A service whose answers do not depend on its state. -/
def AnswersAlike (service : Service σ) : Prop :=
  ∀ s s', (service.tools s).1 = (service.tools s').1 ∧
    ∀ name arguments, (service.callTool name arguments s).1 = (service.callTool name arguments s').1

variable {core : ServerCore σ}

/-- A request is then answered alike, however it finds the service. -/
theorem dispatch_alike (h : AnswersAlike core.service) (request : Request) (flag : Bool)
    (found found' : σ) (id : Option Value) :
    request.dispatch core flag found id = request.dispatch core flag found' id := by
  obtain ⟨htools, hcalls⟩ := h found found'
  have houtcome : request.outcome core flag found = request.outcome core flag found' := by
    cases request with
    | listTools =>
        simp only [Request.outcome, htools]
    | callTool name arguments =>
        simp only [Request.outcome, hcalls]
    | _ =>
        rfl
  simp only [Request.dispatch, houtcome]

/-- So is a message: with the same dispatch, the same session and the same calls. -/
theorem handleMessage_alike (crates : Externals) (h : AnswersAlike core.service)
    (message : Value) (session : Session) (world world' : World σ) :
    let left := handleMessage crates core message session world
    let left' := handleMessage crates core message session world'
    left.1 = left'.1 ∧ left.2.1 = left'.2.1 ∧
      callsSince world left.2.2 = callsSince world' left'.2.2 := by
  intro left left'
  obtain ⟨hdispatch, hsession, hserves⟩ := handleMessage_spec crates core message session world
  obtain ⟨hdispatch', hsession', hserves'⟩ :=
    handleMessage_spec crates core message session world'
  refine ⟨?_, hsession.trans hsession'.symm, ?_⟩
  · rw [hdispatch, hdispatch']
    exact dispatch_alike h _ _ _ _ _
  · rw [callsSince_append hserves.calls, callsSince_append hserves'.calls]

end Answers

section Connections

variable {σ : Type} {core : ServerCore σ}

/-- The turns of a connection then do not depend on the service. -/
theorem isolates_tasks (serde : SerdeJson) (crates : Externals) (h : AnswersAlike core.service) :
    (tasks serde crates core).Isolates := by
  intro task world world'
  simp only [tasks, Task.turn]
  cases task.returned with
  | some returned =>
      exact ⟨rfl, rfl⟩
  | none =>
      have hquiet : callsSince world world = callsSince world' world' := by
        rw [callsSince, callsSince, List.drop_length, List.drop_length]
      simp only [pumpBody]
      rcases readMessage task.transport with ⟨raw | err | _, t⟩
      · by_cases hblank : Text.trim raw = ""
        · simp only [if_pos hblank]
          exact ⟨hquiet, trivial⟩
        · simp only [if_neg hblank, answer]
          cases serde.fromStr raw with
          | error e =>
              simp only
              rcases send serde (parseErrorResponse e) t with ⟨_ | _ | _, t'⟩
              · exact ⟨hquiet, rfl⟩
              · exact ⟨hquiet, rfl⟩
              · exact ⟨rfl, rfl⟩
          | ok message =>
              obtain ⟨hdispatch, hsession, hcalls⟩ :=
                handleMessage_alike crates h message task.session world world'
              simp only [hdispatch, hsession]
              rcases sendDispatch serde _ t with ⟨_ | _ | _, t'⟩
              · exact ⟨hcalls, rfl⟩
              · exact ⟨hcalls, rfl⟩
              · exact ⟨rfl, rfl⟩
      · by_cases hclosed : isConnectionClosed err = true
        · simp only [if_pos hclosed]
          exact ⟨hquiet, trivial⟩
        · simp only [if_neg hclosed]
          exact ⟨hquiet, trivial⟩
      · exact ⟨rfl, rfl⟩

/-- What happens to a connection: what arrives on it, and the turns its task takes. -/
def happeningsTo (n : Nat) (happenings : List (Happening σ)) : List (Option Incoming) :=
  happenings.filterMap fun
    | .arrive k incoming => if k = n then some (some incoming) else none
    | .turn k => if k = n then some none else none
    | _ => none

theorem happensTo_move (maxLen : Text.Usize) (n : Nat) (happenings : List (Happening σ)) :
    (happenings.map (Happening.move maxLen)).filterMap (Pool.Move.happensTo n) =
      happeningsTo n happenings := by
  rw [List.filterMap_map, happeningsTo]
  refine List.filterMap_congr fun happening _ => ?_
  cases happening with
  | _ =>
      rfl

/--
Connections are isolated: if the answers of the service do not depend on its state, then
two connections to which the same happens, in any two runs and next to whatever others,
are left the same (what they read, their sessions, all that was written to them, what
their tasks returned) and make the same calls.
-/
theorem connections_isolated (serde : SerdeJson) (crates : Externals)
    (halike : AnswersAlike core.service) (before after before' after' : List (Happening σ))
    (writer : Writer) (world world' : World σ) :
    let n := (serving serde crates core before world).2.tasks.length
    let n' := (serving serde crates core before' world').2.tasks.length
    let run := serving serde crates core (before ++ .accept writer :: after) world
    let run' := serving serde crates core (before' ++ .accept writer :: after') world'
    happeningsTo n after = happeningsTo n' after' →
      run.2.tasks[n]? = run'.2.tasks[n']? ∧ Pool.putOut n run.1 = Pool.putOut n' run'.1 := by
  intro n n' run run' hsame
  have hspawn := (isolates_tasks serde crates halike).run_spawn
    (before.map (Happening.move core.config.maxContentLength))
    (after.map (Happening.move core.config.maxContentLength))
    (before'.map (Happening.move core.config.maxContentLength))
    (after'.map (Happening.move core.config.maxContentLength))
    (.accepted core.config.maxContentLength writer) (.init world) (.init world')
  simp only [happensTo_move] at hspawn
  simp only [run, run', serving, List.map_append, List.map_cons]
  exact hspawn hsame

/-- A service that counts its calls, and answers alike. -/
def counting : ServerCore Nat where
  config := .new "server" "1.0"
  service :=
    { tools := fun s => ([], s + 1), callTool := fun _ _ s => (.ok (.text ""), s + 1),
      shutdown := (· + 1) }

def shutdownText : String :=
  "\x7b\"method\":\"shutdown\"\x7d"

/-- A shutdown is answered alike next to a client whose own shutdown came first. -/
theorem connections_isolated_of_shutdown :
    let serde := plainJson shutdownText (.object [("method", .string "shutdown")])
    let shuts (n : Nat) : Happening Nat :=
      .arrive n (.event (.chunk (Text.asBytes (shutdownText ++ "\n")) (by decide)))
    let run := serving serde plainCrates counting [.accept .reliable, shuts 0, .turn 0] ⟨0, [], []⟩
    let run' := serving serde plainCrates counting
      [.accept .reliable, shuts 0, .accept .reliable, .turn 0, shuts 1, .service 7, .turn 1]
      ⟨5, [], []⟩
    run.2.tasks[0]? = run'.2.tasks[1]? ∧ Pool.putOut 0 run.1 = Pool.putOut 1 run'.1 ∧
      run.2.shared.service = 1 ∧ run'.2.shared.service = 8 := by
  intro serde shuts run run'
  have halike : AnswersAlike counting.service :=
    fun s s' => ⟨rfl, fun name arguments => rfl⟩
  have hbefore : (serving serde plainCrates counting [.accept .reliable, shuts 0]
      ⟨5, [], []⟩).2.tasks.length = 1 := by
    rfl
  have hisolated := connections_isolated serde plainCrates halike [] [shuts 0, .turn 0]
    [.accept .reliable, shuts 0] [.turn 0, shuts 1, .service 7, .turn 1] .reliable ⟨0, [], []⟩
    ⟨5, [], []⟩
  rw [hbefore] at hisolated
  obtain ⟨htask, hcalls⟩ := hisolated rfl
  have hservice : run.2.shared.service = 1 ∧ run'.2.shared.service = 8 := by
    decide +kernel
  exact ⟨htask, hcalls, hservice⟩

end Connections

section Sockets

variable {φ σ : Type} (sockets : Sockets φ)

theorem isolates_wsTasks (serde : SerdeJson) (crates : Externals) {core : ServerCore σ}
    (h : AnswersAlike core.service) :
    (wsTasks serde crates sockets core).Isolates := by
  intro task world world'
  have hquiet : callsSince world world = callsSince world' world' := by
    rw [callsSince, callsSince, List.drop_length, List.drop_length]
  simp only [wsTasks, WsTask.turn]
  by_cases hfinished : task.finished = true
  · simp only [if_pos hfinished]
    exact ⟨trivial, trivial⟩
  · simp only [if_neg hfinished]
    rcases task.inbox with _ | ⟨_ | e | message, inbox⟩
    · exact ⟨rfl, rfl⟩
    · exact ⟨rfl, rfl⟩
    · exact ⟨hquiet, rfl⟩
    · cases message with
      | text text =>
          simp only [wsBody, wsText]
          cases serde.fromStr text with
          | error e =>
              exact ⟨hquiet, rfl⟩
          | ok value =>
              obtain ⟨hdispatch, hsession, hcalls⟩ :=
                handleMessage_alike crates h value task.session world world'
              simp only [hdispatch, hsession]
              cases (handleMessage crates core value task.session world').1.response with
              | none =>
                  exact ⟨hcalls, rfl⟩
              | some response =>
                  simp only
                  by_cases hfailed : (sendValue serde response task.sink).1 = true
                  · simp only [if_pos hfailed]
                    exact ⟨hcalls, trivial⟩
                  · simp only [if_neg hfailed]
                    exact ⟨hcalls, trivial⟩
      | _ =>
          exact ⟨hquiet, rfl⟩

/-- What happens to a socket: what it receives, and the turns its task takes. -/
def wsHappeningsTo (n : Nat) (happenings : List (WsHappening φ σ)) :
    List (Option (Option φ)) :=
  happenings.filterMap fun
    | .arrive k frame => if k = n then some (some frame) else none
    | .turn k => if k = n then some none else none
    | _ => none

theorem happensTo_wsMove (state : WsState σ) (n : Nat) (happenings : List (WsHappening φ σ)) :
    (happenings.filterMap (WsHappening.move state)).filterMap (Pool.Move.happensTo n) =
      wsHappeningsTo n happenings := by
  rw [List.filterMap_filterMap, wsHappeningsTo]
  refine List.filterMap_congr fun happening _ => ?_
  cases happening with
  | request libraries headers faults =>
      simp only [WsHappening.move]
      cases wsHandler state libraries headers with
      | _ =>
          rfl
  | _ =>
      rfl

/--
Sockets are isolated: if the answers of the service do not depend on its state, then two
connections that were upgraded alike and to which the same happens, in any two runs and
next to whatever other requests and sockets, are left the same and make the same calls.
-/
theorem sockets_isolated (serde : SerdeJson) (crates : Externals) {state : WsState σ}
    (halike : AnswersAlike state.core.service)
    (before after before' after' : List (WsHappening φ σ))
    {libraries libraries' : Auth.Crates} {headers headers' : HeaderMap}
    (faults : List (Option String)) (maxMessageSize : Text.Usize)
    (hupgrade : wsHandler state libraries headers = .upgrade maxMessageSize)
    (hupgrade' : wsHandler state libraries' headers' = .upgrade maxMessageSize)
    (world world' : World σ) :
    let n := (wsServing serde crates sockets state before world).2.tasks.length
    let n' := (wsServing serde crates sockets state before' world').2.tasks.length
    let run := wsServing serde crates sockets state
      (before ++ .request libraries headers faults :: after) world
    let run' := wsServing serde crates sockets state
      (before' ++ .request libraries' headers' faults :: after') world'
    wsHappeningsTo n after = wsHappeningsTo n' after' →
      run.2.tasks[n]? = run'.2.tasks[n']? ∧ Pool.putOut n run.1 = Pool.putOut n' run'.1 := by
  intro n n' run run' hsame
  have hspawn := (isolates_wsTasks sockets serde crates halike).run_spawn
    (before.filterMap (WsHappening.move state)) (after.filterMap (WsHappening.move state))
    (before'.filterMap (WsHappening.move state)) (after'.filterMap (WsHappening.move state))
    (.upgraded maxMessageSize faults) (.init world) (.init world')
  simp only [happensTo_wsMove] at hspawn
  simp only [run, run', wsServing, List.filterMap_append,
    List.filterMap_cons_some (move_request state faults hupgrade),
    List.filterMap_cons_some (move_request state faults hupgrade')]
  exact hspawn hsame

/-- A socket of which the turns find other states of the service, and a client that was
there before. -/
theorem sockets_isolated_of_shutdown :
    let serde := plainJson shutdownText (.object [("method", .string "shutdown")])
    let libraries := cratesFor ⟨none, none, none⟩
    let shuts (n : Nat) : WsHappening Message Nat := .arrive n (some (.text shutdownText))
    let run := wsServing serde plainCrates unfragmented ⟨counting, none⟩
      [.request libraries [] [], shuts 0, .turn 0] ⟨0, [], []⟩
    let run' := wsServing serde plainCrates unfragmented ⟨counting, none⟩
      [.request libraries [] [], shuts 0, .request libraries [("x", [])] [], .turn 0, shuts 1,
        .service 7, .turn 1] ⟨5, [], []⟩
    run.2.tasks[0]? = run'.2.tasks[1]? ∧ Pool.putOut 0 run.1 = Pool.putOut 1 run'.1 ∧
      run.2.shared.service = 1 ∧ run'.2.shared.service = 8 := by
  intro serde libraries shuts run run'
  let state : WsState Nat := ⟨counting, none⟩
  have halike : AnswersAlike state.core.service :=
    fun s s' => ⟨rfl, fun name arguments => rfl⟩
  have hbefore : (wsServing serde plainCrates unfragmented state
      [.request libraries [] [], shuts 0] ⟨5, [], []⟩).2.tasks.length = 1 := by
    rfl
  have hisolated := sockets_isolated unfragmented serde plainCrates halike []
    [shuts 0, .turn 0] [.request libraries [] [], shuts 0]
    [.turn 0, shuts 1, .service 7, .turn 1] []
    counting.config.maxContentLength (show wsHandler state libraries [] = _ from rfl)
    (show wsHandler state libraries [("x", [])] = _ from rfl) ⟨0, [], []⟩ ⟨5, [], []⟩
  rw [hbefore] at hisolated
  obtain ⟨htask, hcalls⟩ := hisolated rfl
  have hservice : run.2.shared.service = 1 ∧ run'.2.shared.service = 8 := by
    decide +kernel
  exact ⟨htask, hcalls, hservice⟩

end Sockets

end Runner
end McpCore
