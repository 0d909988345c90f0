import McpCore.Library.Mealy
import McpCore.Server

/-!
# What a message asks for, and what it gets

`answered` and `refused` are the two responses, member by member.  `Request` is what
a message asks of a session, and its functions say what it gets: the
`initialized` flag after it, the calls to the service it makes and the state these leave,
and its outcome.  They know nothing of telemetry and labels.

`handleMessage_spec` says that this is what `handleMessage` does.
-/

namespace McpCore
namespace Server

open Value

section Responses

/-- A response with a result. -/
def answered (result id : Value) : Value :=
  .object [("id", id), ("jsonrpc", .string "2.0"), ("result", result)]

/-- A response with an error. -/
def refused (code : Int) (message : String) (id : Value) : Value :=
  .object
    [("error", .object [("code", .number (.int code)), ("message", .string message)]),
      ("id", id), ("jsonrpc", .string "2.0")]

theorem successResponse_eq_answered (id : Option Value) (result : Value) :
    successResponse id result = answered result (id.getD .null) := by
  simp only [successResponse, answered, obj, Value.insert, List.foldl_cons, List.foldl_nil,
    String.reduceLT, String.reduceEq, if_true, if_false]

/-- An error response is a refusal with this code, for its id or none. -/
theorem errorResponse_eq_refused (id : Option Value) (code : Int) (message : String) :
    errorResponse id code message = refused code message (id.getD .null) := by
  simp only [errorResponse, refused, obj, Value.insert, List.foldl_cons, List.foldl_nil,
    String.reduceLT, String.reduceEq, if_true, if_false]

variable (id : Option Value) (notifications : List Value)

theorem response_finish_result (result : Value) :
    (finish id.isSome id (.result result) notifications).response = id.map (answered result) := by
  cases id with
  | none =>
      rfl
  | some id =>
      exact congrArg some (successResponse_eq_answered (some id) result)

theorem response_finish_error (code : Int) (message : String) :
    (finish id.isSome id (.error code message) notifications).response =
      id.map (refused code message) := by
  cases id with
  | none =>
      rfl
  | some id =>
      exact congrArg some (errorResponse_eq_refused (some id) code message)

end Responses

inductive Request where
  | notObject (isArray : Bool)
  | badVersion (version : String)
  | init (params : Value)
  | initialized
  | ping
  | listTools
  | callTool (name : Option String) (arguments : Value)
  | shutdown
  | unknown (method : String)
  | noMethod

namespace Request

/-- What a method asks for. -/
def ofMethod (method : Option String) (params : Value) : Request :=
  match method with
  | some "initialize" => .init params
  | some "notifications/initialized" | some "initialized" => .initialized
  | some "ping" => .ping
  | some "tools/list" => .listTools
  | some "tools/call" =>
      .callTool ((params.get "name").bind asStr) ((params.get "arguments").getD .null)
  | some "shutdown" => .shutdown
  | some other => .unknown other
  | none => .noMethod

/-- What a message asks for. -/
def of (message : Value) : Request :=
  if !message.isObject then .notObject message.isArray
  else
    match (message.get "jsonrpc").bind asStr with
    | some version =>
        if version = "2.0" then
          ofMethod ((message.get "method").bind asStr) ((message.get "params").getD .null)
        else .badVersion version
    | none =>
        ofMethod ((message.get "method").bind asStr) ((message.get "params").getD .null)

/-- The `initialized` flag after a request. -/
def flag (before : Bool) : Request → Bool
  | init _ => true
  | initialized => true
  | shutdown => false
  | _ => before

/-- The calls a request makes to the service. -/
def calls (flag : Bool) : Request → List ServiceCall
  | listTools => if flag then [.tools] else []
  | callTool (some name) arguments => if flag then [.callTool name arguments] else []
  | shutdown => [.shutdown]
  | _ => []

variable {σ : Type}

/-- The state of the service after a request. -/
def service (core : ServerCore σ) (flag : Bool) (before : σ) : Request → σ
  | listTools => if flag then (core.service.tools before).2 else before
  | callTool (some name) arguments =>
      if flag then (core.service.callTool name arguments before).2 else before
  | shutdown => core.service.shutdown before
  | _ => before

/-- The outcome of a request and the notifications it causes. -/
def outcome (core : ServerCore σ) (flag : Bool) (before : σ) : Request → Outcome × List Value
  | notObject isArray =>
      (.error Code.invalidRequest
        (if isArray then "batch requests (JSON arrays) are not supported"
          else "request must be a JSON object"), [])
  | badVersion version =>
      (.error Code.invalidRequest s!"invalid jsonrpc version: {version}", [])
  | init params => (.result (handleInitialize core params .new).1, [])
  | initialized => (.none, [])
  | ping => (.result (obj []), [])
  | listTools =>
      if flag then
        (.result (obj [("tools",
          .array ((core.service.tools before).1.map ToolDef.toJson))]), [])
      else (.error Code.notInitialized "server not initialized", [])
  | callTool name arguments =>
      if flag then
        match name with
        | some name => callOutcome (core.service.callTool name arguments before).1
        | none => (.error Code.invalidParams "missing tool name", [])
      else (.error Code.notInitialized "server not initialized", [])
  | shutdown => (.result .null, [])
  | unknown method => (.error Code.methodNotFound s!"method not found: {method}", [])
  | noMethod => (.error Code.invalidRequest "missing method", [])

/-- Whether the request is a JSON object. -/
def isObject : Request → Bool
  | notObject _ => false
  | _ => true

/-- What is sent for a request with this id: anything but an object is answered
with a null id. -/
def dispatch (core : ServerCore σ) (flag : Bool) (before : σ) (id : Option Value)
    (request : Request) : Dispatch :=
  let id := if request.isObject then id else some .null
  finish id.isSome id (request.outcome core flag before).1 (request.outcome core flag before).2

end Request

section Spec

variable {σ : Type}

/-- `world'` is `world` after these calls left the service in `service`, whatever
was emitted. -/
structure Serves (calls : List ServiceCall) (service : σ) (world world' : World σ) : Prop where
  calls : world'.calls = world.calls ++ calls
  service : world'.service = service

/-- Nothing but telemetry happened. -/
abbrev Quiet (world world' : World σ) : Prop :=
  Serves [] world.service world world'

theorem Quiet.refl (world : World σ) :
    Quiet world world :=
  ⟨by simp, rfl⟩

theorem Quiet.emit {world world' : World σ} (signal : Signal) (h : Quiet world world') :
    Quiet world (world'.emit signal) :=
  ⟨h.calls, h.service⟩

/-- What is emitted before and after does not count. -/
theorem Serves.between {calls : List ServiceCall} {service : σ}
    {world₀ world₁ world₂ world₃ : World σ}
    (hbefore : Quiet world₀ world₁) (h : Serves calls service world₁ world₂)
    (hafter : Quiet world₂ world₃) :
    Serves calls service world₀ world₃ := by
  constructor
  · rw [hafter.calls, h.calls, hbefore.calls]
    simp
  · rw [hafter.service, h.service]

@[simp] theorem emit_calls (signal : Signal) (world : World σ) :
    (world.emit signal).calls = world.calls := by
  rfl

@[simp] theorem emit_service (signal : Signal) (world : World σ) :
    (world.emit signal).service = world.service := by
  rfl

theorem foldl_emit (signals : List Signal) (world : World σ) :
    (signals.foldl (fun world signal => world.emit signal) world).calls = world.calls ∧
    (signals.foldl (fun world signal => world.emit signal) world).service =
      world.service := by
  induction signals generalizing world with
  | nil =>
      exact ⟨rfl, rfl⟩
  | cons signal signals ih =>
      exact ih (world.emit signal)

variable (crates : Externals) (core : ServerCore σ)

theorem handleToolsCall_spec (params : Value) (session : Session) (world : World σ) :
    let request := Request.callTool ((params.get "name").bind asStr)
      ((params.get "arguments").getD .null)
    (handleToolsCall crates core params session world).1 =
      request.outcome core session.initialized world.service ∧
    Serves (request.calls session.initialized)
      (request.service core session.initialized world.service) world
      (handleToolsCall crates core params session world).2 := by
  intro request
  unfold handleToolsCall
  cases hflag : session.initialized with
  | false =>
      cases hname : (params.get "name").bind asStr with
      | none =>
          exact ⟨by simp [request, Request.outcome],
            by simp [request, Request.calls, hname], by simp [request, Request.service, hname]⟩
      | some name =>
          exact ⟨by simp [request, Request.outcome],
            by simp [request, Request.calls, hname], by simp [request, Request.service, hname]⟩
  | true =>
      cases hname : (params.get "name").bind asStr with
      | none =>
          exact ⟨by simp [request, Request.outcome, hname],
            by simp [request, Request.calls, hname], by simp [request, Request.service, hname]⟩
      | some name =>
          refine ⟨by simp [request, Request.outcome, hname, callTool], ?_, ?_⟩
          · simp [request, Request.calls, hname, foldl_emit, callTool]
          · simp [request, Request.service, hname, foldl_emit, callTool]

theorem handleInitialize_session (params : Value) (session : Session) :
    (handleInitialize core params session).2 = { session with initialized := true } := by
  rfl

/-- Each arm of the dispatch does what its method asks for. -/
theorem routeMethod_spec
    (method : Option String) (params : Value) (session : Session) (world : World σ) :
    let request := Request.ofMethod method params
    let left := routeMethod crates core method params session world
    left.1 = request.outcome core session.initialized world.service ∧
    left.2.2.1 = { session with initialized := request.flag session.initialized } ∧
    Serves (request.calls session.initialized)
      (request.service core session.initialized world.service) world left.2.2.2 := by
  intro request left
  have hnothing := Quiet.refl world
  simp only [left, request, routeMethod]
  split
  · exact ⟨rfl, handleInitialize_session core params session, hnothing⟩
  · exact ⟨rfl, rfl, hnothing⟩
  · exact ⟨rfl, rfl, hnothing⟩
  · exact ⟨rfl, rfl, hnothing⟩
  · obtain ⟨flag, transport⟩ := session
    cases flag with
    | false => exact ⟨rfl, rfl, hnothing⟩
    | true => exact ⟨rfl, rfl, ⟨rfl, rfl⟩⟩
  · obtain ⟨houtcome, hserves⟩ := handleToolsCall_spec crates core params session world
    exact ⟨houtcome, rfl, hserves⟩
  · exact ⟨rfl, rfl, ⟨rfl, rfl⟩⟩
  · rename_i other hinit hinitialized' hinitialized hping hlist hcall hshutdown
    have hother : Request.ofMethod (some other) params = .unknown other := by
      unfold Request.ofMethod
      split <;> simp_all
    rw [hother]
    exact ⟨rfl, rfl, hnothing⟩
  · exact ⟨rfl, rfl, hnothing⟩

theorem route_spec (message : Value) (session : Session) (world : World σ) :
    let request := Request.of message
    let left := route crates core message session world
    left.1.1 =
      request.dispatch core session.initialized world.service (message.get "id") ∧
    left.2.1 = { session with initialized := request.flag session.initialized } ∧
    Serves (request.calls session.initialized)
      (request.service core session.initialized world.service) world left.2.2 := by
  intro request left
  have hnothing := Quiet.refl world
  simp only [left, request, route, Request.of]
  cases hobject : message.isObject with
  | false =>
      exact ⟨rfl, rfl, hnothing⟩
  | true =>
      have hmethod := routeMethod_spec crates core ((message.get "method").bind asStr)
        ((message.get "params").getD .null) session world
      have hasObject : ∀ method params, (Request.ofMethod method params).isObject = true := by
        intro method params
        unfold Request.ofMethod
        split <;> rfl
      obtain ⟨houtcome, hsession, hserves⟩ := hmethod
      cases hversion : (message.get "jsonrpc").bind asStr with
      | none =>
          refine ⟨?_, hsession, hserves⟩
          simp [Request.dispatch, hasObject, houtcome]
      | some version =>
          by_cases h2 : version = "2.0"
          · have haccepted : (some version).filter (fun version => version != "2.0") = none := by
              simp [h2]
            simp only [Bool.not_true, Bool.false_eq_true, if_false, haccepted, if_pos h2]
            refine ⟨?_, hsession, hserves⟩
            simp [Request.dispatch, hasObject, houtcome]
          · have hrefused : (some version).filter (fun version => version != "2.0") =
                some version := by
              simp [h2]
            simp only [Bool.not_true, Bool.false_eq_true, if_false, hrefused, if_neg h2]
            exact ⟨rfl, rfl, hnothing⟩

theorem dispatch_spec (message : Value) (session : Session) (world : World σ) :
    let request := Request.of message
    let left := dispatch crates core message session world
    left.1 =
      request.dispatch core session.initialized world.service (message.get "id") ∧
    left.2.1 = { session with initialized := request.flag session.initialized } ∧
    Serves (request.calls session.initialized)
      (request.service core session.initialized world.service) world left.2.2 := by
  intro request left
  obtain ⟨hdispatch, hsession, hserves⟩ := route_spec crates core message session world
  exact ⟨hdispatch, hsession,
    Serves.between (Quiet.refl world) hserves (((Quiet.refl _).emit _).emit _)⟩

theorem quiet_callerTraceParent (message : Value) (world : World σ) :
    Quiet world (callerTraceParent crates message world).2 := by
  unfold callerTraceParent
  split
  · exact Quiet.refl world
  · split
    · exact Quiet.refl world
    · exact (Quiet.refl world).emit _

theorem Quiet.joinCallerTrace {world world' : World σ} (parent : TraceParent)
    (h : Quiet world world') :
    Quiet world (joinCallerTrace crates parent world') := by
  unfold Server.joinCallerTrace
  split
  · exact h
  · exact h.emit _

/-- Handling a message does what it asks for. -/
theorem handleMessage_spec (message : Value) (session : Session) (world : World σ) :
    let request := Request.of message
    let left := handleMessage crates core message session world
    left.1 =
      request.dispatch core session.initialized world.service (message.get "id") ∧
    left.2.1 = { session with initialized := request.flag session.initialized } ∧
    Serves (request.calls session.initialized)
      (request.service core session.initialized world.service) world left.2.2 := by
  intro request left
  simp only [left, request, handleMessage]
  have hcaller := quiet_callerTraceParent crates message world
  generalize callerTraceParent crates message world = caller at hcaller ⊢
  obtain ⟨callerTrace, world'⟩ := caller
  -- up to the dispatch only telemetry happens, so it finds the service as it was
  have hspec : ∀ world'', Quiet world world'' →
      (dispatch crates core message session world'').1 =
        (Request.of message).dispatch core session.initialized world.service
          (message.get "id") ∧
      (dispatch crates core message session world'').2.1 =
        { session with initialized := (Request.of message).flag session.initialized } ∧
      Serves ((Request.of message).calls session.initialized)
        ((Request.of message).service core session.initialized world.service) world
        (dispatch crates core message session world'').2.2 := by
    intro world'' hquiet
    obtain ⟨hdispatch, hsession, hserves⟩ := dispatch_spec crates core message session world''
    rw [hquiet.service] at hdispatch hserves
    exact ⟨hdispatch, hsession, Serves.between hquiet hserves (Quiet.refl _)⟩
  cases callerTrace with
  | none =>
      exact hspec _ (hcaller.emit _)
  | some parent =>
      exact hspec _ (((hcaller.emit _).emit _).joinCallerTrace crates parent)

end Spec

end Server
end McpCore
