import McpCore.Server
import McpCore.Transport

/-!
# The runner

`pump` drives one transport with one session: it reads a message, lets the
session handle it and writes the response and the notifications, until reading
fails.  JSON is read and written by another crate, which is a parameter.
-/

namespace McpCore
namespace Runner

open Transport Server

/-- What `serde_json` does for the runner, its errors displayed. -/
structure SerdeJson where
  fromStr : String → Except String Value
  toString : Value → Except String String

/-- What a pump works on: a transport, a session, and what sessions share. -/
structure Connection (R σ : Type) where
  transport : FramedTransport R
  session : Session
  world : World σ

variable {R σ : Type} (serde : SerdeJson)

section Write

/-- `transport.write_message(&serde_json::to_string(&value)?)`. -/
def send (value : Value) (t : FramedTransport R) :
    Transport.Outcome Unit × FramedTransport R :=
  match serde.toString value with
  | .ok text => writeMessage text t
  | .error msg => (.err (.json msg), t)

def sendAll : List Value → FramedTransport R → Transport.Outcome Unit × FramedTransport R
  | [], t => (.ok (), t)
  | value :: values, t => andThen (send serde value t) fun _ t => sendAll values t

/-- Write the response, if there is one, and the notifications after it. -/
def sendDispatch (dispatch : Dispatch) (t : FramedTransport R) :
    Transport.Outcome Unit × FramedTransport R :=
  let responded :=
    match dispatch.response with
    | some resp => send serde resp t
    | none => (.ok (), t)
  andThen responded fun _ t => sendAll serde dispatch.notifications t

/-- The answer to a message that is no JSON. -/
def parseErrorResponse (e : String) : Value :=
  errorResponse none Code.parseError s!"parse error: {e}"

/-- The answer to a framing violation. -/
def framingErrorResponse (reason : String) : Value :=
  errorResponse none Code.parseError s!"framing error: {reason}"

/-- Tell the peer of a framing violation, as far as that is possible. -/
def tellPeer (err : Error) (t : FramedTransport R) : FramedTransport R :=
  match err with
  | .transport (.invalidMessage reason) =>
      match serde.toString (framingErrorResponse reason) with
      | .ok text => (writeMessage text t).2
      | .error _ => t
  | _ => t

end Write

section Pump

variable (crates : Externals) (core : ServerCore σ)

/-- Handle a message that is not blank and write what it comes to. -/
def answer (raw : String) (t : FramedTransport R) (session : Session) (world : World σ) :
    (Transport.Outcome Unit × FramedTransport R) × Session × World σ :=
  match serde.fromStr raw with
  | .error e => (send serde (parseErrorResponse e) t, session, world)
  | .ok value =>
      let (dispatch, session, world) := handleMessage crates core value session world
      (sendDispatch serde dispatch t, session, world)

variable [LineReader R]

/-- One iteration of the loop of `pump`. -/
def pumpBody (c : Connection R σ) :
    Loop.Step (Connection R σ) (Transport.Outcome Unit × Connection R σ) :=
  match readMessage c.transport with
  | (.running, t) => .leave (.running, { c with transport := t })
  | (.err err, t) =>
      if isConnectionClosed err then .leave (.ok (), { c with transport := t })
      else .leave (.err err, { c with transport := tellPeer serde err t })
  | (.ok raw, t) =>
      if Text.trim raw = "" then .next { c with transport := t }
      else
        match answer serde crates core raw t c.session c.world with
        | ((.ok _, t), session, world) => .next ⟨t, session, world⟩
        | ((.err err, t), session, world) => .leave (.err err, ⟨t, session, world⟩)
        | ((.running, t), session, world) => .leave (.running, ⟨t, session, world⟩)

/-- Drive one transport with one session until the stream ends. -/
def pump (c : Connection R σ) : Transport.Outcome Unit × Connection R σ :=
  match Loop.run (pumpBody serde crates core) (fuel c.transport) c with
  | some left => left
  | none => (.running, c)

/-- Serve a single client over stdio. -/
def serveStdio (reader : R) (writer : Writer) (world : World σ) :
    Transport.Outcome Unit × Connection R σ :=
  pump serde crates core
    ⟨.new reader writer core.config.maxContentLength,
      Session.new.onTransport .stdio, world⟩

end Pump

end Runner
end McpCore
