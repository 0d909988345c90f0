import McpCore.Protocol
import Mathlib.Logic.Function.Basic

/-!
# The handshake gate

Sessions share one core and one world.  A `Hub` is their states and that world,
and `arrive` lets one session handle one message.  A service may change by
itself, and by calls of other sessions that are still under way; an `Arrival`
therefore says in what state its message finds the service.

`handshake_gate`: after every history a session is initialized iff among its own
messages an accepted opening one has no accepted `shutdown` after it, and the
service is reached exactly by what is accepted while the session is initialized.
-/

namespace McpCore
namespace Server

open Value

section Messages

/-- A JSON object whose `jsonrpc` member is absent, not a string, or "2.0". -/
def Accepted (message : Value) : Prop :=
  message.isObject = true ∧
    ∀ version, message.get "jsonrpc" = some (.string version) → version = "2.0"

/-- An accepted message for this method. -/
def AcceptedFor (method : String) (message : Value) : Prop :=
  Accepted message ∧ message.get "method" = some (.string method)

def Opens (message : Value) : Prop :=
  AcceptedFor "initialize" message ∨
    AcceptedFor "notifications/initialized" message ∨ AcceptedFor "initialized" message

def Closes (message : Value) : Prop :=
  AcceptedFor "shutdown" message

/-- One of the messages opens, and none after it closes. -/
def Opened (messages : List Value) : Prop :=
  ∃ before message after, messages = before ++ message :: after ∧
    Opens message ∧ ∀ later ∈ after, ¬ Closes later

/-- An accepted `tools/call` with this string `params.name` and these arguments. -/
def CallsTool (name : String) (arguments : Value) (message : Value) : Prop :=
  AcceptedFor "tools/call" message ∧
    ∃ params, message.get "params" = some params ∧
      params.get "name" = some (.string name) ∧
      arguments = (params.get "arguments").getD .null

theorem bind_asStr {value : Option Value} {s : String} :
    value.bind asStr = some s ↔ value = some (.string s) := by
  cases value with
  | none => simp
  | some v => cases v <;> simp [asStr]

theorem acceptedFor_iff {method : String} {message : Value} (haccepted : Accepted message) :
    AcceptedFor method message ↔ (message.get "method").bind asStr = some method := by
  rw [bind_asStr]
  exact ⟨fun h => h.2, fun h => ⟨haccepted, h⟩⟩

/-- What an accepted message asks for is its method's. -/
theorem of_accepted {message : Value} (haccepted : Accepted message) :
    Request.of message =
      Request.ofMethod ((message.get "method").bind asStr)
        ((message.get "params").getD .null) := by
  obtain ⟨hobject, hversion⟩ := haccepted
  simp only [Request.of, hobject, Bool.not_true, Bool.false_eq_true, if_false]
  cases hjsonrpc : (message.get "jsonrpc").bind asStr with
  | none => rfl
  | some version => simp [hversion version (bind_asStr.mp hjsonrpc)]

/-- What is not accepted is refused. -/
theorem of_not_accepted {message : Value} (haccepted : ¬ Accepted message) :
    (∃ isArray, message.isObject = false ∧ Request.of message = .notObject isArray) ∨
    (∃ version, message.isObject = true ∧ Request.of message = .badVersion version) := by
  cases hobject : message.isObject with
  | false =>
      exact Or.inl ⟨message.isArray, rfl, by simp [Request.of, hobject]⟩
  | true =>
      obtain ⟨version, hversion, hne⟩ : ∃ version,
          message.get "jsonrpc" = some (.string version) ∧ version ≠ "2.0" := by
        simpa [Accepted, hobject] using haccepted
      refine Or.inr ⟨version, rfl, ?_⟩
      simp [Request.of, hobject, hversion, asStr, hne]

/-- The flag is set by what opens, cleared by what closes and else kept. -/
theorem flag_of (before : Bool) (message : Value) :
    (Request.of message).flag before = true ↔
      Opens message ∨ (¬ Closes message ∧ before = true) := by
  by_cases haccepted : Accepted message
  · simp only [Opens, Closes, acceptedFor_iff haccepted, of_accepted haccepted]
    generalize (message.get "method").bind asStr = method
    unfold Request.ofMethod
    split <;> simp_all [Request.flag]
  · have hnone : ∀ method, ¬ AcceptedFor method message := fun _ h => haccepted h.1
    rcases of_not_accepted haccepted with ⟨_, _, hof⟩ | ⟨_, _, hof⟩
    · simp [hof, Request.flag, Opens, Closes, hnone]
    · simp [hof, Request.flag, Opens, Closes, hnone]

/-- One message more: it opens, or it leaves open what was. -/
theorem opened_append (messages : List Value) (message : Value) :
    Opened (messages ++ [message]) ↔
      Opens message ∨ (¬ Closes message ∧ Opened messages) := by
  constructor
  · rintro ⟨before, opening, after, heq, hopens, hlater⟩
    rcases List.eq_nil_or_concat after with rfl | ⟨after', last, rfl⟩
    · obtain ⟨-, hlast⟩ := List.append_inj' heq rfl
      cases hlast
      exact Or.inl hopens
    · rw [List.concat_eq_append, ← List.cons_append, ← List.append_assoc] at heq
      obtain ⟨hinit, hlast⟩ := List.append_inj' heq rfl
      cases hlast
      refine Or.inr ⟨hlater _ (by simp), before, opening, after', hinit, hopens, ?_⟩
      exact fun later h => hlater later (by simp [h])
  · rintro (hopens | ⟨hkeeps, before, opening, after, rfl, hopens, hlater⟩)
    · exact ⟨messages, message, [], rfl, hopens, by simp⟩
    · refine ⟨before, opening, after ++ [message], by simp, hopens, ?_⟩
      intro later h
      rcases List.mem_append.mp h with h | h
      · exact hlater later h
      · cases List.mem_singleton.mp h
        exact hkeeps

end Messages

section Reach

theorem callsTool_iff {name : String} {arguments message : Value}
    (haccepted : Accepted message) :
    CallsTool name arguments message ↔
      (message.get "method").bind asStr = some "tools/call" ∧
        (((message.get "params").getD .null).get "name").bind asStr = some name ∧
        arguments = (((message.get "params").getD .null).get "arguments").getD .null := by
  rw [CallsTool, acceptedFor_iff haccepted, bind_asStr (s := name)]
  cases message.get "params" with
  | none => simp [Value.get]
  | some params => simp

/-- Only what is accepted reaches the service. -/
theorem calls_of_not_accepted {message : Value} (haccepted : ¬ Accepted message) (flag : Bool) :
    (Request.of message).calls flag = [] := by
  rcases of_not_accepted haccepted with ⟨_, _, hof⟩ | ⟨_, _, hof⟩
  · simp [hof, Request.calls]
  · simp [hof, Request.calls]

theorem callTool_mem_calls {flag : Bool} {name : String} {arguments message : Value} :
    .callTool name arguments ∈ (Request.of message).calls flag ↔
      flag = true ∧ CallsTool name arguments message := by
  by_cases haccepted : Accepted message
  · rw [callsTool_iff haccepted, of_accepted haccepted]
    generalize (message.get "method").bind asStr = method
    generalize (message.get "params").getD .null = params
    unfold Request.ofMethod
    split
    case h_6 =>
      cases (params.get "name").bind asStr with
      | none => simp [Request.calls]
      | some tool =>
          cases flag with
          | false => simp [Request.calls]
          | true => simp [Request.calls, eq_comm]
    all_goals simp_all [Request.calls]
  · have hnone : ¬ CallsTool name arguments message := fun h => haccepted h.1.1
    simp [calls_of_not_accepted haccepted, hnone]

theorem tools_mem_calls {flag : Bool} {message : Value} :
    .tools ∈ (Request.of message).calls flag ↔
      flag = true ∧ AcceptedFor "tools/list" message := by
  by_cases haccepted : Accepted message
  · rw [acceptedFor_iff haccepted, of_accepted haccepted]
    generalize (message.get "method").bind asStr = method
    generalize (message.get "params").getD .null = params
    unfold Request.ofMethod
    split
    case h_6 =>
      cases (params.get "name").bind asStr with
      | none => simp [Request.calls]
      | some tool => cases flag <;> simp [Request.calls]
    all_goals simp_all [Request.calls]
  · have hnone : ¬ AcceptedFor "tools/list" message := fun h => haccepted h.1
    simp [calls_of_not_accepted haccepted, hnone]

theorem length_calls_le_one (flag : Bool) (request : Request) :
    (request.calls flag).length ≤ 1 := by
  unfold Request.calls
  split
  · split <;> simp
  · split <;> simp
  · simp
  · simp

end Reach

section Refusal

variable {σ : Type} (core : ServerCore σ)

theorem get_error_successResponse (id : Option Value) (result : Value) :
    (successResponse id result).get "error" = none := by
  rw [successResponse, get_obj]
  simp [List.lookup_cons]

theorem get_result_successResponse (id : Option Value) (result : Value) :
    (successResponse id result).get "result" = some result := by
  rw [successResponse, get_obj]
  simp

/-- A response with an error, or without a result, comes of an error outcome. -/
theorem outcome_of_error {isRequest : Bool} {id : Option Value} {outcome : Outcome}
    {notifications : List Value} {response : Value}
    (hresponse : (finish isRequest id outcome notifications).response = some response)
    (herror : (response.get "error").isSome = true ∨ response.get "result" = none) :
    ∃ code message, outcome = .error code message := by
  cases outcome with
  | result result =>
      simp only [finish] at hresponse
      split at hresponse
      · cases hresponse
        simp [get_error_successResponse, get_result_successResponse] at herror
      · cases hresponse
  | error code message =>
      exact ⟨code, message, rfl⟩
  | none =>
      simp [finish] at hresponse

/-- What comes to an error leaves the flag as it was. -/
theorem flag_of_outcome_error {flag : Bool} {before : σ} {request : Request}
    {code : Int} {message : String}
    (herror : (request.outcome core flag before).1 = .error code message) :
    request.flag flag = flag := by
  cases request with
  | init params => simp [Request.outcome] at herror
  | initialized => simp [Request.outcome] at herror
  | shutdown => simp [Request.outcome] at herror
  | _ => rfl

/-- Before the handshake tool calls and listings are refused. -/
theorem refused_of_closed {before : σ} {message : Value}
    (hmethod : AcceptedFor "tools/call" message ∨ AcceptedFor "tools/list" message) :
    (Request.of message).calls false = [] ∧
    ((Request.of message).dispatch core false before (message.get "id")).response =
      (message.get "id").map (refused (-32002) "server not initialized") := by
  have haccepted : Accepted message := by
    rcases hmethod with h | h
    · exact h.1
    · exact h.1
  rw [acceptedFor_iff haccepted, acceptedFor_iff haccepted] at hmethod
  rw [of_accepted haccepted]
  rcases hmethod with hmethod | hmethod
  · rw [hmethod]
    refine ⟨?_, response_finish_error _ _ _ _⟩
    cases h : (((message.get "params").getD .null).get "name").bind asStr with
    | none => simp [Request.ofMethod, Request.calls, h]
    | some name => simp [Request.ofMethod, Request.calls, h]
  · rw [hmethod]
    exact ⟨rfl, response_finish_error _ _ _ _⟩

end Refusal

section Hub

variable {σ ι : Type}

/-- Sessions that share a world. -/
structure Hub (ι σ : Type) where
  sessions : ι → Session
  world : World σ

/-- A message for a session, and the state of the service it finds. -/
structure Arrival (ι σ : Type) where
  session : ι
  message : Value
  found : σ

/-- All sessions are fresh, each on its transport. -/
def Hub.fresh (transports : ι → TransportKind) (service : σ) : Hub ι σ where
  sessions i := Session.new.onTransport (transports i)
  world := ⟨service, [], []⟩

variable [DecidableEq ι]

/-- A session handles a message. -/
def arrive (crates : Externals) (core : ServerCore σ) (arrival : Arrival ι σ) (hub : Hub ι σ) :
    Dispatch × Hub ι σ :=
  let (dispatch, session, world) :=
    handleMessage crates core arrival.message (hub.sessions arrival.session)
      { hub.world with service := arrival.found }
  (dispatch, ⟨Function.update hub.sessions arrival.session session, world⟩)

/-- The messages a session has handled. -/
def handledBy (i : ι) (history : List (Arrival ι σ)) : List Value :=
  (history.filter fun arrival => arrival.session = i).map Arrival.message

variable (crates : Externals) (core : ServerCore σ)

/-- The hub after a history. -/
def hubAfter (history : List (Arrival ι σ)) (hub : Hub ι σ) : Hub ι σ :=
  (Mealy.run (arrive crates core) history hub).2

/-- What one arrival does to the flags, the calls and the answer. -/
theorem arrive_spec (arrival : Arrival ι σ) (hub : Hub ι σ) :
    let request := Request.of arrival.message
    let flag := (hub.sessions arrival.session).initialized
    let left := arrive crates core arrival hub
    left.1 = request.dispatch core flag arrival.found (arrival.message.get "id") ∧
    (∀ i, (left.2.sessions i).initialized =
      if i = arrival.session then request.flag flag else (hub.sessions i).initialized) ∧
    left.2.world.calls = hub.world.calls ++ request.calls flag := by
  intro request flag left
  obtain ⟨hdispatch, hsession, hserves⟩ := handleMessage_spec crates core arrival.message
    (hub.sessions arrival.session) { hub.world with service := arrival.found }
  refine ⟨hdispatch, fun i => ?_, hserves.calls⟩
  by_cases hi : i = arrival.session
  · subst hi
    simp only [left, arrive, Function.update_self, if_true]
    rw [hsession]
  · simp only [left, arrive, Function.update_of_ne hi, if_neg hi]

theorem handledBy_append (i : ι) (history : List (Arrival ι σ)) (arrival : Arrival ι σ) :
    handledBy i (history ++ [arrival]) =
      if i = arrival.session then handledBy i history ++ [arrival.message]
      else handledBy i history := by
  by_cases hi : i = arrival.session
  · simp [handledBy, hi]
  · simp [handledBy, hi, Ne.symm hi]

/-- At every point a session is initialized iff its own messages leave it open. -/
theorem initialized_iff_opened
    (transports : ι → TransportKind) (service : σ) (history : List (Arrival ι σ)) (i : ι) :
    ((hubAfter crates core history (.fresh transports service)).sessions i).initialized = true ↔
      Opened (handledBy i history) := by
  induction history using List.reverseRecOn with
  | nil =>
      simp [hubAfter, Hub.fresh, Session.new, Session.onTransport, Opened, handledBy]
  | append_singleton history arrival ih =>
      obtain ⟨-, hflag, -⟩ := arrive_spec crates core arrival
        (hubAfter crates core history (.fresh transports service))
      rw [hubAfter, Mealy.run_concat, handledBy_append]
      rw [show (Mealy.run (arrive crates core) history (.fresh transports service)).2 =
        hubAfter crates core history (.fresh transports service) from rfl, hflag i]
      by_cases hi : i = arrival.session
      · subst hi
        rw [if_pos rfl, if_pos rfl, flag_of, opened_append, ih]
      · rw [if_neg hi, if_neg hi, ih]

/--
The handshake gates the service: after every history a session is initialized iff
its own messages leave it open; the next message reaches `call_tool` and `tools`
exactly when it is accepted for them and its session is open, and once; before
that it is refused with -32002 and its id; and what is answered with an error, or with
no result, leaves every flag alone.
-/
theorem handshake_gate
    (transports : ι → TransportKind) (service : σ) (history : List (Arrival ι σ)) :
    let hub := hubAfter crates core history (.fresh transports service)
    (∀ i, (hub.sessions i).initialized = true ↔ Opened (handledBy i history)) ∧
    ∀ arrival : Arrival ι σ,
      let left := arrive crates core arrival hub
      let opened := Opened (handledBy arrival.session history)
      (∃ made, left.2.world.calls = hub.world.calls ++ made ∧ made.length ≤ 1 ∧
        (∀ name arguments, .callTool name arguments ∈ made ↔
          opened ∧ CallsTool name arguments arrival.message) ∧
        (.tools ∈ made ↔ opened ∧ AcceptedFor "tools/list" arrival.message)) ∧
      (¬ opened →
        AcceptedFor "tools/call" arrival.message ∨
          AcceptedFor "tools/list" arrival.message →
        left.2.world.calls = hub.world.calls ∧
          left.1.response =
            (arrival.message.get "id").map (refused (-32002) "server not initialized")) ∧
      (∀ response, left.1.response = some response →
        (response.get "error").isSome = true ∨ response.get "result" = none →
        ∀ i, (left.2.sessions i).initialized = (hub.sessions i).initialized) := by
  intro hub
  have hflags := initialized_iff_opened crates core transports service history
  refine ⟨hflags, ?_⟩
  intro arrival left opened
  obtain ⟨hdispatch, hflag, hcalls⟩ := arrive_spec crates core arrival hub
  have hopen : (hub.sessions arrival.session).initialized = true ↔ opened :=
    hflags arrival.session
  refine ⟨⟨_, hcalls, length_calls_le_one _ _, fun name arguments => ?_, ?_⟩, ?_, ?_⟩
  · rw [callTool_mem_calls, hopen]
  · rw [tools_mem_calls, hopen]
  · intro hclosed hmethod
    have hfalse : (hub.sessions arrival.session).initialized = false := by
      simpa [← hopen] using hclosed
    rw [hfalse] at hcalls hdispatch
    obtain ⟨hnone, hresponse⟩ := refused_of_closed core hmethod
    exact ⟨by simpa [hnone] using hcalls, by rw [hdispatch]; exact hresponse⟩
  · intro response hresponse herror i
    rw [hdispatch] at hresponse
    obtain ⟨code, message, houtcome⟩ := outcome_of_error hresponse herror
    rw [hflag i]
    by_cases hi : i = arrival.session
    · rw [if_pos hi, flag_of_outcome_error core houtcome, hi]
    · rw [if_neg hi]

/-- A client calls a tool before its handshake, after another client's: it is refused, and
the other one's call is made. -/
theorem handshake_gate_of_premature_call :
    let opening := Value.object [("method", .string "initialized")]
    let call := Value.object [("id", .number (.int 7)), ("method", .string "tools/call"),
      ("params", .object [("name", .string "read")])]
    let crates : Externals :=
      { display := fun _ => "7", safeName := id, safeMessage := id,
        extractTraceparent := fun _ => .error "", setParent := fun _ => none }
    let core : ServerCore Unit :=
      { config := .new "server" "1.0",
        service :=
          { tools := fun s => ([], s), callTool := fun _ _ s => (.ok (.text ""), s),
            shutdown := id } }
    let hub := hubAfter crates core [⟨1, opening, ()⟩] (.fresh (fun _ : Nat => .unix) ())
    let premature := arrive crates core ⟨0, call, ()⟩ hub
    let allowed := arrive crates core ⟨1, call, ()⟩ hub
    premature.2.world.calls = [] ∧
    premature.1.response = some (.object
      [("error", .object [("code", .number (.int (-32002))),
          ("message", .string "server not initialized")]),
        ("id", .number (.int 7)), ("jsonrpc", .string "2.0")]) ∧
    .callTool "read" .null ∈ allowed.2.world.calls := by
  intro opening call crates core hub premature allowed
  obtain ⟨-, hgate⟩ := handshake_gate crates core (fun _ : Nat => .unix) () [⟨1, opening, ()⟩]
  have hcalls : CallsTool "read" .null call :=
    ⟨⟨⟨rfl, nofun⟩, rfl⟩, _, rfl, rfl, rfl⟩
  have hopens : Opens opening :=
    .inr (.inr ⟨⟨rfl, nofun⟩, rfl⟩)
  obtain ⟨-, hrefused, -⟩ := hgate ⟨0, call, ()⟩
  obtain ⟨⟨made, hmade, -, htools, -⟩, -, -⟩ := hgate ⟨1, call, ()⟩
  have hclosed : ¬ Opened (handledBy 0 [⟨1, opening, ()⟩]) := by
    rintro ⟨before, message, after, hsplit, -⟩
    simp [handledBy] at hsplit
  obtain ⟨hquiet, hresponse⟩ := hrefused hclosed (.inl hcalls.1)
  refine ⟨hquiet, hresponse, ?_⟩
  rw [hmade]
  refine List.mem_append_right _ ((htools "read" .null).mpr ⟨?_, hcalls⟩)
  exact ⟨[], opening, [], rfl, hopens, nofun⟩

end Hub

end Server
end McpCore
