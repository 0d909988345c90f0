import McpCore.Text

/-!
# Errors

The error types of the crate with their `Display` texts, which reach the peer
and the reason a transport was given up for, and the JSON-RPC error codes.
-/

namespace McpCore

/-- `std::io::Error`, by the text it displays as. -/
structure IoError where
  message : String
deriving DecidableEq

/-- Transport-level framing and connection errors. -/
inductive TransportError where
  | invalidMessage (reason : String)
  | connectionClosed
  | io (err : IoError)
deriving DecidableEq

/-- Top-level error returned by the server runners. -/
inductive Error where
  | transport (err : TransportError)
  | io (err : IoError)
  | json (message : String)
  | config (message : String)
  | telemetry (message : String)
deriving DecidableEq

def TransportError.display : TransportError → String
  | .invalidMessage reason => s!"invalid message: {reason}"
  | .connectionClosed => "connection closed"
  | .io err => s!"io error: {err.message}"

def Error.display : Error → String
  | .transport err => s!"transport error: {err.display}"
  | .io err => s!"io error: {err.message}"
  | .json message => s!"json error: {message}"
  | .config message => s!"configuration error: {message}"
  | .telemetry message => s!"telemetry error: {message}"

/-- Whether `err` is the peer closing the stream cleanly. -/
def isConnectionClosed : Error → Bool
  | .transport .connectionClosed => true
  | _ => false

namespace Code

def parseError : Int := -32700
def invalidRequest : Int := -32600
def methodNotFound : Int := -32601
def invalidParams : Int := -32602
def internalError : Int := -32603
def notInitialized : Int := -32002

end Code

end McpCore
