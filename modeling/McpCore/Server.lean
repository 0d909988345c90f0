import McpCore.Config
import McpCore.Error
import McpCore.Service
import McpCore.Telemetry

/-!
# Sessions and dispatch

`handleMessage` answers one JSON-RPC message for one session.  A session is its
`initialized` flag and the transport it arrived on; the configuration and the
service are shared by all sessions.

What handling a message changes outside the session is a `World`: the state of
the service, the calls made to it so far, and the telemetry emitted so far.
-/

namespace McpCore
namespace Server

open Value

/-- The `method` label of a payload that never named a method. -/
def methodInvalid : String := "invalid"

/-- The `method` label of a method this server does not implement. -/
def methodOther : String := "other"

/-- The `request_id` span field of a notification. -/
def noRequestId : String := "-"

/-- Shared by all sessions. -/
structure ServerCore (σ : Type) where
  config : ServerConfig
  service : Service σ

/-- The response to one message, if any, and the notifications to send after. -/
structure Dispatch where
  response : Option Value
  notifications : List Value

structure Session where
  initialized : Bool
  transport : TransportKind
deriving DecidableEq

/-- A fresh session, served over stdio. -/
def Session.new : Session :=
  ⟨false, .stdio⟩

def Session.onTransport (session : Session) (transport : TransportKind) : Session :=
  { session with transport }

/-- What an arm of the dispatch produces. -/
inductive Outcome where
  | result (value : Value)
  | error (code : Int) (message : String)
  | none

/-- What sessions share: the service's state and the calls made to it, and the
telemetry. -/
structure World (σ : Type) where
  service : σ
  calls : List ServiceCall
  signals : List Signal

section World

variable {σ : Type}

def World.emit (signal : Signal) (world : World σ) : World σ :=
  { world with signals := world.signals ++ [signal] }

/-- `self.core.service.tools()`. -/
def callTools (core : ServerCore σ) (world : World σ) : List ToolDef × World σ :=
  let (tools, service) := core.service.tools world.service
  (tools, { world with service, calls := world.calls ++ [.tools] })

/-- `self.core.service.call_tool(name, arguments)`. -/
def callTool (core : ServerCore σ) (name : String) (arguments : Value) (world : World σ) :
    Except CallError ToolReply × World σ :=
  let (result, service) := core.service.callTool name arguments world.service
  (result, { world with service, calls := world.calls ++ [.callTool name arguments] })

/-- `self.core.service.shutdown()`. -/
def callShutdown (core : ServerCore σ) (world : World σ) : World σ :=
  { world with
    service := core.service.shutdown world.service
    calls := world.calls ++ [.shutdown] }

end World

section Responses

def successResponse (id : Option Value) (result : Value) : Value :=
  obj [("jsonrpc", .string "2.0"), ("id", id.getD .null), ("result", result)]

def errorResponse (id : Option Value) (code : Int) (message : String) : Value :=
  obj
    [("jsonrpc", .string "2.0"), ("id", id.getD .null),
      ("error", obj [("code", .number (.int code)), ("message", .string message)])]

/-- A `tools/call` result that reports a failure. -/
def toolErrorResult (message : String) : Value :=
  obj
    [("isError", .bool true),
      ("content", .array [obj [("type", .string "text"), ("text", .string message)]])]

/-- The notification after a call that changed the tools. -/
def toolsListChangedNotification : Value :=
  obj [("jsonrpc", .string "2.0"), ("method", .string "notifications/tools/list_changed")]

def finish (isRequest : Bool) (id : Option Value) (outcome : Outcome)
    (notifications : List Value) : Dispatch :=
  let response :=
    match outcome with
    | .result result => if isRequest then some (successResponse id result) else none
    | .error code msg => if isRequest then some (errorResponse id code msg) else none
    | .none => none
  ⟨response, notifications⟩

end Responses

section Handlers

variable {σ : Type}

/-- Echo the requested revision when it is supported, else the newest one. -/
def negotiateVersion (config : ServerConfig) (requested : String) : String :=
  if config.protocolVersions.any (fun v => v == requested) then requested
  else config.latestProtocolVersion

def serverInfo (config : ServerConfig) (negotiated : String) : Value :=
  let info := obj [("name", .string config.name), ("version", .string config.version)]
  if "2025-11-25" ≤ negotiated then
    [("title", config.title), ("description", config.description),
        ("websiteUrl", config.websiteUrl)].foldl
      (fun info entry =>
        match entry.2 with
        | some value => info.set entry.1 (.string value)
        | none => info) info
  else info

def handleInitialize (core : ServerCore σ) (params : Value) (session : Session) :
    Value × Session :=
  let requested :=
    ((params.get "protocolVersion").bind asStr).getD core.config.latestProtocolVersion
  let negotiated := negotiateVersion core.config requested
  let result := obj
    [("protocolVersion", .string negotiated),
      ("serverInfo", serverInfo core.config negotiated),
      ("capabilities",
        obj [("tools", obj [("listChanged", .bool core.config.toolsListChanged)])])]
  let result :=
    match core.config.instructions with
    | some instructions => result.set "instructions" (.string instructions)
    | none => result
  (result, { session with initialized := true })

def toolsJson (core : ServerCore σ) (world : World σ) : Value × World σ :=
  let (tools, world) := callTools core world
  (.array (tools.map ToolDef.toJson), world)

/-- The `outcome` label of a tool call. -/
def outcomeLabel : Except CallError ToolReply → String
  | .ok _ => "ok"
  | .error (.internal _) => "error"
  | .error (.tool _) => "tool_error"
  | .error (.invalidParams _) => "tool_error"

/-- What a tool call comes to: the outcome and the notifications to send. -/
def callOutcome : Except CallError ToolReply → Outcome × List Value
  | .ok reply =>
      (.result reply.toResultJson,
        if reply.toolsListChanged then [toolsListChangedNotification] else [])
  | .error (.tool msg) => (.result (toolErrorResult msg), [])
  | .error (.invalidParams msg) => (.result (toolErrorResult msg), [])
  | .error (.internal msg) => (.error Code.internalError msg, [])

/-- The log lines that report how a tool call failed. -/
def callEvents (crates : Externals) : Except CallError ToolReply → List Signal
  | .ok _ => []
  | .error (.tool msg) =>
      [.event .debug [("reason", crates.safeMessage msg)] "tool returned an error result"]
  | .error (.invalidParams msg) =>
      [.event .debug [("reason", crates.safeMessage msg)] "tool returned an error result"]
  | .error (.internal msg) =>
      [.event .error [] "tool call failed",
        .event .debug [("error", crates.safeMessage msg)] "tool call failure detail"]

def handleToolsCall (crates : Externals) (core : ServerCore σ) (params : Value)
    (session : Session) (world : World σ) : (Outcome × List Value) × World σ :=
  if !session.initialized then
    ((.error Code.notInitialized "server not initialized", []), world)
  else
    match (params.get "name").bind asStr with
    | none => ((.error Code.invalidParams "missing tool name", []), world)
    | some name =>
        let arguments := (params.get "arguments").getD .null
        let world := world.emit (.span .info "mcp.tools.call" [("tool", crates.safeName name)])
        let world := world.emit
          (.event .debug [("arguments", crates.safeMessage (crates.display arguments))]
            "tool call arguments")
        let (result, world) := callTool core name arguments world
        let world := world.emit
          (.increment "mcp.tools.call" [("tool", name), ("outcome", outcomeLabel result)])
        let world := world.emit (.duration "mcp.tools.call.duration" [("tool", name)])
        (callOutcome result, (callEvents crates result).foldl (fun world s => world.emit s) world)

/-- The arm of the dispatch for one method: the outcome and notifications, the
`method` label, and the session and world after. -/
def routeMethod (crates : Externals) (core : ServerCore σ) (method : Option String)
    (params : Value) (session : Session) (world : World σ) :
    (Outcome × List Value) × String × Session × World σ :=
  let label := method.getD methodInvalid
  match method with
  | some "initialize" =>
      let (result, session) := handleInitialize core params session
      ((.result result, []), label, session, world)
  | some "notifications/initialized" | some "initialized" =>
      ((.none, []), label, { session with initialized := true }, world)
  | some "ping" => ((.result (obj []), []), label, session, world)
  | some "tools/list" =>
      if !session.initialized then
        ((.error Code.notInitialized "server not initialized", []), label, session, world)
      else
        let (tools, world) := toolsJson core world
        ((.result (obj [("tools", tools)]), []), label, session, world)
  | some "tools/call" =>
      let (outcome, world) := handleToolsCall crates core params session world
      (outcome, label, session, world)
  | some "shutdown" =>
      ((.result .null, []), label, { session with initialized := false },
        callShutdown core world)
  | some other =>
      ((.error Code.methodNotFound s!"method not found: {other}", []), methodOther,
        session, world)
  | none =>
      ((.error Code.invalidRequest "missing method", []), methodInvalid, session, world)

/-- Handle one parsed message, and report its `method` label. -/
def route (crates : Externals) (core : ServerCore σ) (message : Value)
    (session : Session) (world : World σ) : (Dispatch × String) × Session × World σ :=
  if !message.isObject then
    let msg :=
      if message.isArray then "batch requests (JSON arrays) are not supported"
      else "request must be a JSON object"
    ((⟨some (errorResponse (some .null) Code.invalidRequest msg), []⟩, methodInvalid),
      session, world)
  else
    let id := message.get "id"
    let isRequest := (message.get "id").isSome
    let version := (message.get "jsonrpc").bind asStr
    match version.filter (fun version => version != "2.0") with
    | some version =>
        ((finish isRequest id
            (.error Code.invalidRequest s!"invalid jsonrpc version: {version}") [],
          methodInvalid), session, world)
    | none =>
        let method := (message.get "method").bind asStr
        let params := (message.get "params").getD .null
        let ((outcome, notifications), label, session, world) :=
          routeMethod crates core method params session world
        ((finish isRequest id outcome notifications, label), session, world)

/-- Route one message and record what it cost. -/
def dispatch (crates : Externals) (core : ServerCore σ) (message : Value)
    (session : Session) (world : World σ) : Dispatch × Session × World σ :=
  let ((dispatch, method), session, world) := route crates core message session world
  let labels := [("method", method)]
  let world := world.emit (.increment "mcp.requests" labels)
  let world := world.emit (.duration "mcp.request.duration" labels)
  (dispatch, session, world)

/-- A JSON-RPC id as a span field. -/
def requestId (crates : Externals) : Option Value → String
  | some id => crates.safeName (crates.display id)
  | none => noRequestId

/-- The `traceparent` a message carries, if it carries one that is a string. -/
def traceparentHeader (message : Value) : Option String :=
  (message.get "params").bind fun params =>
    (params.get "_meta").bind fun metadata =>
      (metadata.get "traceparent").bind asStr

/-- The trace context a message carries, if it carries a usable one. -/
def callerTraceParent (crates : Externals) (message : Value) (world : World σ) :
    Option TraceParent × World σ :=
  match traceparentHeader message with
  | none => (none, world)
  | some header =>
      match crates.extractTraceparent header with
      | .ok parent => (some parent, world)
      | .error error =>
          (none, world.emit (.event .debug [("error", crates.safeMessage error)]
            "ignoring an unusable traceparent and starting a new trace"))

/-- Make the caller's span the parent of the request's. -/
def joinCallerTrace (crates : Externals) (parent : TraceParent) (world : World σ) : World σ :=
  match crates.setParent parent with
  | none => world
  | some error =>
      world.emit (.event .debug [("error", error)]
        "the request span could not join the caller's trace")

/-- Handle one parsed JSON-RPC message. -/
def handleMessage (crates : Externals) (core : ServerCore σ) (message : Value)
    (session : Session) (world : World σ) : Dispatch × Session × World σ :=
  let (callerTrace, world) := callerTraceParent crates message world
  let method := ((message.get "method").bind asStr).getD methodInvalid
  let world := world.emit (.span .info "mcp.request"
    [("method", crates.safeName method), ("request_id", requestId crates (message.get "id")),
      ("transport", session.transport.display)])
  let world :=
    match callerTrace with
    | some parent => joinCallerTrace crates parent (world.emit (.record "trace_id" parent.traceId))
    | none => world
  dispatch crates core message session world

end Handlers

end Server
end McpCore
