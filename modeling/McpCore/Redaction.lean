import McpCore.Emissions

/-!
# What a caller cannot put on the log

The arguments of a tool call, the rest of `params` and the texts of failures show
at DEBUG only.  `Signal.shown` is everything else that is emitted: spans with
their fields, metrics with their labels, and events at INFO and above.

`shown_of_sameButParams` compares two runs: messages that differ in `params` only,
agreeing in the tool's name and the caller's trace, show the same.
-/

namespace McpCore

/-- INFO and above. -/
def Level.isShown : Level → Bool
  | .error => true
  | .warn => true
  | .info => true
  | .debug => false
  | .trace => false

/-- A span, a metric, or an event at INFO or above. -/
def Signal.isShown : Signal → Bool
  | .event level _ _ => level.isShown
  | _ => true

namespace Server

open Value

section Shown

/-- What an operator sees of these without turning DEBUG on. -/
def shown (signals : List Signal) : List Signal :=
  signals.filter Signal.isShown

@[simp] theorem shown_append (signals signals' : List Signal) :
    shown (signals ++ signals') = shown signals ++ shown signals' := by
  simp [shown]

@[simp] theorem shown_nil :
    shown [] = [] := by
  rfl

/-- How a tool call ended, its contents aside. -/
inductive ResultClass where
  | ok
  | declined
  | internal
deriving DecidableEq

def resultClass : Except CallError ToolReply → ResultClass
  | .ok _ => .ok
  | .error (.tool _) => .declined
  | .error (.invalidParams _) => .declined
  | .error (.internal _) => .internal

variable (crates : Externals)

@[simp] theorem shown_rejectedTrace (message : Value) :
    shown (rejectedTrace crates message) = [] := by
  unfold rejectedTrace
  split
  · rfl
  · split
    · rfl
    · rfl

@[simp] theorem shown_requestSpan_cons
    (message : Value) (session : Session) (signals : List Signal) :
    shown (requestSpan crates message session :: signals) =
      requestSpan crates message session :: shown signals := by
  rfl

/-- A tool call shows its tool and how it ended. -/
theorem shown_callSignals
    {result result' : Except CallError ToolReply}
    (hclass : resultClass result = resultClass result')
    (name : String) (arguments arguments' : Value) :
    shown (callSignals crates name arguments result) =
      shown (callSignals crates name arguments' result') := by
  have hevents : ∀ result : Except CallError ToolReply,
      outcomeLabel result = (match resultClass result with
        | .ok => "ok"
        | .declined => "tool_error"
        | .internal => "error") ∧
      shown (callEvents crates result) = (match resultClass result with
        | .internal => [.event .error [] "tool call failed"]
        | _ => []) := by
    intro result
    cases result with
    | ok reply =>
        exact ⟨rfl, rfl⟩
    | error error =>
        cases error with
        | tool message =>
            exact ⟨rfl, rfl⟩
        | invalidParams message =>
            exact ⟨rfl, rfl⟩
        | internal message =>
            exact ⟨rfl, rfl⟩
  obtain ⟨hlabel, hshown⟩ := hevents result
  obtain ⟨hlabel', hshown'⟩ := hevents result'
  rw [callSignals, callSignals, shown_append, shown_append, hshown, hshown', hlabel, hlabel',
    hclass]
  rfl

end Shown

section TwoRuns

/-- Two messages that differ in `params` only, and there neither in `name` nor in
`_meta.traceparent`. -/
structure SameButParams (message message' : Value) : Prop where
  isObject : message.isObject = true
  isObject' : message'.isObject = true
  members : ∀ key, key ≠ "params" → message.get key = message'.get key
  name : (message.get "params").bind (Value.get "name") =
    (message'.get "params").bind (Value.get "name")
  traceparent :
    ((message.get "params").bind (Value.get "_meta")).bind (Value.get "traceparent") =
      ((message'.get "params").bind (Value.get "_meta")).bind (Value.get "traceparent")

variable {message message' : Value}

theorem SameButParams.traceparentHeader
    (h : SameButParams message message') :
    Server.traceparentHeader message = Server.traceparentHeader message' := by
  have hbind : ∀ m, Server.traceparentHeader m =
      (((m.get "params").bind (Value.get "_meta")).bind (Value.get "traceparent")).bind asStr := by
    intro m
    simp only [Server.traceparentHeader, Option.bind_assoc]
  rw [hbind, hbind, h.traceparent]

theorem get_getD_null (params : Option Value) (key : String) :
    (params.getD .null).get key = params.bind (Value.get key) := by
  cases params with
  | none =>
      rfl
  | some params =>
      rfl

/-- Only the method decides under which label a request counts. -/
theorem label_ofMethod (method : Option String) (params params' : Value) :
    (Request.ofMethod method params).label method =
      (Request.ofMethod method params').label method := by
  unfold Request.ofMethod
  split <;> rfl

/-- Only tool calls emit anything of their own. -/
theorem signals_ofMethod_of_ne
    {σ : Type} (crates : Externals) (core : ServerCore σ) (flag : Bool) (before : σ)
    {method : Option String} (hmethod : method ≠ some "tools/call") (params : Value) :
    (Request.ofMethod method params).signals crates core flag before = [] := by
  unfold Request.ofMethod
  split <;> first | rfl | exact absurd rfl hmethod

/-- Messages of one method emit the same of their own, as far as it shows. -/
theorem shown_signals_ofMethod
    {σ σ' : Type} (crates : Externals) {core : ServerCore σ} {core' : ServerCore σ'}
    (flag : Bool) {before : σ} {before' : σ'} (method : Option String)
    {params params' : Value} (hname : params.get "name" = params'.get "name")
    (hclass : flag = true → method = some "tools/call" →
      ∀ name, params.get "name" = some (.string name) →
        resultClass (core.service.callTool name ((params.get "arguments").getD .null) before).1 =
          resultClass
            (core'.service.callTool name ((params'.get "arguments").getD .null) before').1) :
    shown ((Request.ofMethod method params).signals crates core flag before) =
      shown ((Request.ofMethod method params').signals crates core' flag before') := by
  by_cases hmethod : method = some "tools/call"
  · subst hmethod
    simp only [Request.ofMethod, ← hname]
    cases hsome : (params.get "name").bind asStr with
    | none =>
        rfl
    | some name =>
        cases flag with
        | false =>
            rfl
        | true =>
            simp only [Request.signals, if_true]
            exact shown_callSignals crates (hclass rfl rfl name (bind_asStr.mp hsome)) name _ _
  · rw [signals_ofMethod_of_ne crates core flag before hmethod,
      signals_ofMethod_of_ne crates core' flag before' hmethod]

theorem SameButParams.accepted
    (h : SameButParams message message') (haccepted : Accepted message) :
    Accepted message' := by
  refine ⟨h.isObject', fun version hversion => haccepted.2 version ?_⟩
  rw [h.members "jsonrpc" (by decide)]
  exact hversion

theorem SameButParams.symm (h : SameButParams message message') :
    SameButParams message' message where
  isObject := h.isObject'
  isObject' := h.isObject
  members key hkey := (h.members key hkey).symm
  name := h.name.symm
  traceparent := h.traceparent.symm

theorem label_of_not_accepted (haccepted : ¬ Accepted message) (method : Option String) :
    (Request.of message).label method = methodInvalid := by
  rcases of_not_accepted haccepted with ⟨_, _, hof⟩ | ⟨_, _, hof⟩
  · rw [hof]
    rfl
  · rw [hof]
    rfl

theorem signals_of_not_accepted
    {σ : Type} (crates : Externals) (core : ServerCore σ) (flag : Bool) (before : σ)
    (haccepted : ¬ Accepted message) :
    (Request.of message).signals crates core flag before = [] := by
  rcases of_not_accepted haccepted with ⟨_, _, hof⟩ | ⟨_, _, hof⟩
  · rw [hof]
    rfl
  · rw [hof]
    rfl

theorem SameButParams.methodLabel (h : SameButParams message message') :
    Server.methodLabel message = Server.methodLabel message' := by
  simp only [Server.methodLabel, h.members "method" (by decide)]
  by_cases haccepted : Accepted message
  · rw [of_accepted haccepted, of_accepted (h.accepted haccepted), h.members "method" (by decide)]
    exact label_ofMethod _ _ _
  · have haccepted' : ¬ Accepted message' := fun h' => haccepted (h.symm.accepted h')
    rw [label_of_not_accepted haccepted, label_of_not_accepted haccepted']

/--
What a caller sends in `params` beside a tool's name and a trace does not show:
two messages that agree otherwise, handled by sessions in one state, emit the same
spans and metrics and the same events at INFO and above, as long as the calls they
make, if any, end in the same way.
-/
theorem shown_of_sameButParams
    {σ σ' : Type} (crates : Externals) (core : ServerCore σ) (core' : ServerCore σ')
    (session : Session) (world : World σ) (world' : World σ') (message message' : Value)
    (h : SameButParams message message')
    (hclass : ∀ name arguments arguments', session.initialized = true →
      CallsTool name arguments message → CallsTool name arguments' message' →
        resultClass (core.service.callTool name arguments world.service).1 =
          resultClass (core'.service.callTool name arguments' world'.service).1) :
    ∃ signals signals',
      (handleMessage crates core message session world).2.2.signals =
        world.signals ++ signals ∧
      (handleMessage crates core' message' session world').2.2.signals =
        world'.signals ++ signals' ∧
      shown signals = shown signals' := by
  refine ⟨_, _, handleMessage_signals crates core message session world,
    handleMessage_signals crates core' message' session world', ?_⟩
  have hspan : requestSpan crates message session = requestSpan crates message' session := by
    simp only [requestSpan, h.members "method" (by decide), h.members "id" (by decide)]
  have hjoined : joinedTrace crates message = joinedTrace crates message' := by
    simp only [joinedTrace, h.traceparentHeader]
  have hcounters : requestCounters message = requestCounters message' := by
    simp only [requestCounters, h.methodLabel]
  have hsignals :
      shown ((Request.of message).signals crates core session.initialized world.service) =
        shown ((Request.of message').signals crates core' session.initialized
          world'.service) := by
    by_cases haccepted : Accepted message
    · have haccepted' := h.accepted haccepted
      have hname : ((message.get "params").getD .null).get "name" =
          ((message'.get "params").getD .null).get "name" := by
        rw [get_getD_null, get_getD_null]
        exact h.name
      have hmethod : message.get "method" = message'.get "method" :=
        h.members "method" (by decide)
      rw [of_accepted haccepted, of_accepted haccepted', ← hmethod]
      refine shown_signals_ofMethod crates session.initialized _ hname ?_
      intro hflag hcall name hsome
      refine hclass name _ _ hflag ((callsTool_iff haccepted).mpr ⟨hcall, ?_, rfl⟩)
        ((callsTool_iff haccepted').mpr ⟨hmethod ▸ hcall, ?_, rfl⟩)
      · exact bind_asStr.mpr hsome
      · exact bind_asStr.mpr (hname ▸ hsome)
    · have haccepted' : ¬ Accepted message' := fun h' => haccepted (h.symm.accepted h')
      rw [signals_of_not_accepted crates core _ _ haccepted,
        signals_of_not_accepted crates core' _ _ haccepted']
  simp only [emitted, shown_append, shown_rejectedTrace, List.nil_append, shown_requestSpan_cons,
    hspan, hjoined, hcounters, hsignals]

/-- Calls with different arguments of a tool that breaks, quoting them. -/
theorem shown_of_sameButParams_of_quoted_arguments :
    let crates : Externals :=
      { display := fun _ => "shown", safeName := id, safeMessage := id,
        extractTraceparent := fun _ => .error "", setParent := fun _ => none }
    let core : ServerCore Unit :=
      { config := .new "server" "1.0",
        service :=
          { tools := fun s => ([], s),
            callTool := fun _ arguments s => (.error (.internal ((asStr arguments).getD "")), s),
            shutdown := id } }
    let message := fun path => Value.object [("id", .number (.int 1)),
      ("method", .string "tools/call"),
      ("params", .object [("arguments", .string path), ("name", .string "read")])]
    let world : World Unit := ⟨(), [], []⟩
    (handleMessage crates core (message "/a") ⟨true, .stdio⟩ world).2.2.signals ≠
      (handleMessage crates core (message "/b") ⟨true, .stdio⟩ world).2.2.signals ∧
    ∃ signals signals',
      (handleMessage crates core (message "/a") ⟨true, .stdio⟩ world).2.2.signals =
        [] ++ signals ∧
      (handleMessage crates core (message "/b") ⟨true, .stdio⟩ world).2.2.signals =
        [] ++ signals' ∧
      shown signals = shown signals' := by
  intro crates core message world
  refine ⟨by decide, ?_⟩
  refine shown_of_sameButParams crates core core ⟨true, .stdio⟩ world world (message "/a")
    (message "/b") ⟨rfl, rfl, ?_, rfl, rfl⟩ fun _ _ _ _ _ _ => rfl
  intro key hkey
  simp only [message, Value.get, List.lookup_cons, beq_false_of_ne hkey]

end TwoRuns

end Server
end McpCore
