import McpCore.Text

/-!
# Startup configuration

The part of `ServerConfig` that protocol handling and the transports read.
-/

namespace McpCore

open Text

/-- A transport the server may be run over. -/
inductive TransportKind where
  | stdio
  | websocket
  | unix
deriving DecidableEq

def TransportKind.display : TransportKind → String
  | .stdio => "stdio"
  | .websocket => "websocket"
  | .unix => "unix"

/-- Protocol revisions this server negotiates by default, oldest first. -/
def defaultProtocolVersions : List String :=
  ["2025-06-18", "2025-11-25"]

/-- Default cap on one message: 64 MiB. -/
def defaultMaxContentLength : Usize :=
  64 * 1024 * 1024

structure ServerConfig where
  name : String
  version : String
  instructions : Option String
  title : Option String
  description : Option String
  websiteUrl : Option String
  protocolVersions : List String
  toolsListChanged : Bool
  maxContentLength : Usize
deriving DecidableEq

namespace ServerConfig

def new (name version : String) : ServerConfig where
  name := name
  version := version
  instructions := none
  title := none
  description := none
  websiteUrl := none
  protocolVersions := defaultProtocolVersions
  toolsListChanged := false
  maxContentLength := defaultMaxContentLength

/-- The builder `max_content_length`; it takes any `usize`. -/
def withMaxContentLength (config : ServerConfig) (bytes : Usize) : ServerConfig :=
  { config with maxContentLength := bytes }

/-- The newest revision supported, listed last. -/
def latestProtocolVersion (config : ServerConfig) : String :=
  config.protocolVersions.getLast?.getD "2025-11-25"

end ServerConfig

end McpCore
