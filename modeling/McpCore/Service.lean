import McpCore.Json

/-!
# The service a server is built around

What an implementor provides: tools, a way to call them, and a shutdown hook.
Its methods take `&self` and may still change what they share, so a service is a
machine with states `σ` of its own; nothing else is assumed about it.
-/

namespace McpCore

open Value

/-- A tool as advertised in `tools/list`. -/
structure ToolDef where
  name : String
  description : String
  inputSchema : Value
  annotations : Option Value

def ToolDef.toJson (tool : ToolDef) : Value :=
  let v := obj
    [("name", .string tool.name),
      ("description", .string tool.description),
      ("inputSchema", tool.inputSchema)]
  match tool.annotations with
  | some ann => v.set "annotations" ann
  | none => v

/-- One content block of a tool result. -/
inductive Content where
  | text (text : String)
  | raw (value : Value)

def Content.toJson : Content → Value
  | .text t => obj [("type", .string "text"), ("text", .string t)]
  | .raw v => v

/-- The successful result of a tool call. -/
structure ToolReply where
  content : List Content
  isError : Bool
  structuredContent : Option Value
  toolsListChanged : Bool

def ToolReply.text (s : String) : ToolReply :=
  ⟨[.text s], false, none, false⟩

/-- A tool-level error reply. -/
def ToolReply.error (message : String) : ToolReply :=
  ⟨[.text message], true, none, false⟩

def ToolReply.toResultJson (reply : ToolReply) : Value :=
  let v := obj
    [("content", .array (reply.content.map Content.toJson)),
      ("isError", .bool reply.isError)]
  match reply.structuredContent with
  | some sc => v.set "structuredContent" sc
  | none => v

/-- Why a tool call failed. -/
inductive CallError where
  | tool (message : String)
  | invalidParams (message : String)
  | internal (message : String)

/-- An `McpService` whose shared state is a `σ`. -/
structure Service (σ : Type) where
  tools : σ → List ToolDef × σ
  callTool : String → Value → σ → Except CallError ToolReply × σ
  shutdown : σ → σ

/-- A call the core made to its service. -/
inductive ServiceCall where
  | tools
  | callTool (name : String) (arguments : Value)
  | shutdown

end McpCore
