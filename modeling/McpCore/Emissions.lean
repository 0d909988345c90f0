import McpCore.Handshake

/-!
# What handling a message emits

`emitted` lists the telemetry of one message in order: a rejected trace context,
the request span and what joins it to the caller's trace, what a tool call emits,
and the counters of the request.

`handleMessage_signals` says that this is what `handleMessage` emits, no more and
no less.
-/

namespace McpCore
namespace Server

open Value

variable {σ : Type}

section Emitted

variable (crates : Externals)

/-- The `method` label of a request with this method. -/
def Request.label (method : Option String) : Request → String
  | notObject _ => methodInvalid
  | badVersion _ => methodInvalid
  | noMethod => methodInvalid
  | unknown _ => methodOther
  | _ => method.getD methodInvalid

/-- The `method` label of a message. -/
def methodLabel (message : Value) : String :=
  (Request.of message).label ((message.get "method").bind asStr)

/-- The log line for a `traceparent` that cannot be used. -/
def rejectedTrace (message : Value) : List Signal :=
  match traceparentHeader message with
  | none => []
  | some header =>
      match crates.extractTraceparent header with
      | .ok _ => []
      | .error error =>
          [.event .debug [("error", crates.safeMessage error)]
            "ignoring an unusable traceparent and starting a new trace"]

/-- The span of a request. -/
def requestSpan (message : Value) (session : Session) : Signal :=
  .span .info "mcp.request"
    [("method", crates.safeName (((message.get "method").bind asStr).getD methodInvalid)),
      ("request_id", requestId crates (message.get "id")),
      ("transport", session.transport.display)]

/-- What joins the span to the caller's trace. -/
def joinedTrace (message : Value) : List Signal :=
  match traceparentHeader message with
  | none => []
  | some header =>
      match crates.extractTraceparent header with
      | .error _ => []
      | .ok parent =>
          .record "trace_id" parent.traceId ::
            match crates.setParent parent with
            | none => []
            | some error =>
                [.event .debug [("error", error)]
                  "the request span could not join the caller's trace"]

/-- What a tool call emits. -/
def callSignals (name : String) (arguments : Value)
    (result : Except CallError ToolReply) : List Signal :=
  [.span .info "mcp.tools.call" [("tool", crates.safeName name)],
    .event .debug [("arguments", crates.safeMessage (crates.display arguments))]
      "tool call arguments",
    .increment "mcp.tools.call" [("tool", name), ("outcome", outcomeLabel result)],
    .duration "mcp.tools.call.duration" [("tool", name)]] ++ callEvents crates result

/-- What a request emits of its own: nothing but a tool call does. -/
def Request.signals (core : ServerCore σ) (flag : Bool) (before : σ) : Request → List Signal
  | callTool (some name) arguments =>
      if flag then
        callSignals crates name arguments (core.service.callTool name arguments before).1
      else []
  | _ => []

/-- The counters of a request. -/
def requestCounters (message : Value) : List Signal :=
  [.increment "mcp.requests" [("method", methodLabel message)],
    .duration "mcp.request.duration" [("method", methodLabel message)]]

/-- Everything that handling a message emits. -/
def emitted (core : ServerCore σ) (message : Value) (session : Session) (before : σ) :
    List Signal :=
  rejectedTrace crates message ++ requestSpan crates message session ::
    (joinedTrace crates message ++
      ((Request.of message).signals crates core session.initialized before ++
        requestCounters message))

end Emitted

section Spec

variable (crates : Externals) (core : ServerCore σ)

@[simp] theorem emit_signals (signal : Signal) (world : World σ) :
    (world.emit signal).signals = world.signals ++ [signal] := by
  rfl

theorem foldl_emit_signals (signals : List Signal) (world : World σ) :
    (signals.foldl (fun world signal => world.emit signal) world).signals =
      world.signals ++ signals := by
  induction signals generalizing world with
  | nil =>
      simp
  | cons signal signals ih =>
      simp [ih]

theorem handleToolsCall_signals (params : Value) (session : Session) (world : World σ) :
    (handleToolsCall crates core params session world).2.signals =
      world.signals ++
        (Request.callTool ((params.get "name").bind asStr)
          ((params.get "arguments").getD .null)).signals crates core session.initialized
            world.service := by
  unfold handleToolsCall
  cases session.initialized with
  | false =>
      cases (params.get "name").bind asStr with
      | none =>
          simp [Request.signals]
      | some name =>
          simp [Request.signals]
  | true =>
      cases (params.get "name").bind asStr with
      | none =>
          simp [Request.signals]
      | some name =>
          simp [Request.signals, foldl_emit_signals, callTool, callSignals]

/-- Each arm of the dispatch emits what its request does, under its method's
label. -/
theorem routeMethod_signals
    (method : Option String) (params : Value) (session : Session) (world : World σ) :
    let request := Request.ofMethod method params
    let left := routeMethod crates core method params session world
    left.2.1 = request.label method ∧
    left.2.2.2.signals =
      world.signals ++ request.signals crates core session.initialized world.service := by
  intro request left
  have hnothing : world.signals = world.signals ++ [] := by
    rw [List.append_nil]
  simp only [left, request, routeMethod]
  split
  · exact ⟨rfl, hnothing⟩
  · exact ⟨rfl, hnothing⟩
  · exact ⟨rfl, hnothing⟩
  · exact ⟨rfl, hnothing⟩
  · obtain ⟨flag, transport⟩ := session
    cases flag with
    | false => exact ⟨rfl, hnothing⟩
    | true => exact ⟨rfl, hnothing⟩
  · exact ⟨rfl, handleToolsCall_signals crates core params session world⟩
  · exact ⟨rfl, hnothing⟩
  · rename_i other hinit hinitialized' hinitialized hping hlist hcall hshutdown
    have hother : Request.ofMethod (some other) params = .unknown other := by
      unfold Request.ofMethod
      split <;> simp_all
    rw [hother]
    exact ⟨rfl, hnothing⟩
  · exact ⟨rfl, hnothing⟩

theorem route_signals (message : Value) (session : Session) (world : World σ) :
    let left := route crates core message session world
    left.1.2 = methodLabel message ∧
    left.2.2.signals =
      world.signals ++
        (Request.of message).signals crates core session.initialized world.service := by
  intro left
  have hnothing : world.signals = world.signals ++ [] := by
    rw [List.append_nil]
  simp only [left, route, methodLabel, Request.of]
  cases hobject : message.isObject with
  | false =>
      exact ⟨rfl, hnothing⟩
  | true =>
      have hmethod := routeMethod_signals crates core ((message.get "method").bind asStr)
        ((message.get "params").getD .null) session world
      cases hversion : (message.get "jsonrpc").bind asStr with
      | none =>
          exact hmethod
      | some version =>
          by_cases h2 : version = "2.0"
          · have haccepted : (some version).filter (fun version => version != "2.0") = none := by
              simp [h2]
            simp only [Bool.not_true, Bool.false_eq_true, if_false, haccepted, if_pos h2]
            exact hmethod
          · have hrefused : (some version).filter (fun version => version != "2.0") =
                some version := by
              simp [h2]
            simp only [Bool.not_true, Bool.false_eq_true, if_false, hrefused, if_neg h2]
            exact ⟨rfl, hnothing⟩

theorem dispatch_signals (message : Value) (session : Session) (world : World σ) :
    (dispatch crates core message session world).2.2.signals =
      world.signals ++
        ((Request.of message).signals crates core session.initialized world.service ++
          requestCounters message) := by
  obtain ⟨hlabel, hsignals⟩ := route_signals crates core message session world
  simp only [dispatch, emit_signals, hlabel, hsignals, requestCounters]
  simp

/-- Handling a message emits what `emitted` lists. -/
theorem handleMessage_signals (message : Value) (session : Session) (world : World σ) :
    (handleMessage crates core message session world).2.2.signals =
      world.signals ++ emitted crates core message session world.service := by
  simp only [handleMessage, callerTraceParent, emitted, rejectedTrace, joinedTrace, requestSpan]
  cases traceparentHeader message with
  | none =>
      simp [dispatch_signals]
  | some header =>
      simp only
      cases crates.extractTraceparent header with
      | error error =>
          simp [dispatch_signals]
      | ok parent =>
          simp only [joinCallerTrace]
          cases crates.setParent parent with
          | none =>
              simp [dispatch_signals]
          | some error =>
              simp [dispatch_signals]

end Spec

end Server
end McpCore
