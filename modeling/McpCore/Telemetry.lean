import McpCore.Json

/-!
# Telemetry

What handling a message emits: the spans it opens with their fields, the fields
it records later, its log events and its metrics.  A duration is emitted without
its value.

Rendering values, shortening and escaping them, and parsing a trace context are
done by other crates, which are parameters here.
-/

namespace McpCore

inductive Level where
  | error
  | warn
  | info
  | debug
  | trace
deriving DecidableEq

/-- One thing emitted. -/
inductive Signal where
  | span (level : Level) (name : String) (fields : List (String × String))
  | record (field value : String)
  | event (level : Level) (fields : List (String × String)) (message : String)
  | increment (name : String) (labels : List (String × String))
  | duration (name : String) (labels : List (String × String))
deriving DecidableEq

/-- A parsed W3C trace context. -/
structure TraceParent where
  traceId : String
  spanId : String
  sampled : Bool
deriving DecidableEq

/-- What other crates do for the dispatcher. -/
structure Externals where
  /-- `Display` of a JSON value. -/
  display : Value → String
  /-- `Safe::name`, on the displayed value. -/
  safeName : String → String
  /-- `Safe::message`, on the displayed value. -/
  safeMessage : String → String
  /-- `trace_context::extract_traceparent`, its error displayed. -/
  extractTraceparent : String → Except String TraceParent
  /-- Why `set_parent` failed, displayed; `none` also without the `otel` feature. -/
  setParent : TraceParent → Option String

end McpCore
