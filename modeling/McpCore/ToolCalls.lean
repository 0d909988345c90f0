import McpCore.Emissions

/-!
# Tool calls on the wire

The objects that answer `tools/call` and `tools/list`, member by member: what a
service is asked, what it said, and nothing else, crosses the dispatcher.

`domain_values_verbatim` says so for every request.  `counted_as_answered_iff`
compares the `outcome` label of a call with what was answered: they agree except
on an `Ok` reply that is an error.
-/

namespace McpCore

open Value (asStr obj)

section Shapes

/-- One content block as it is sent. -/
def Content.block : Content → Value
  | .text t => .object [("text", .string t), ("type", .string "text")]
  | .raw v => v

theorem Content.toJson_eq_block (content : Content) :
    content.toJson = content.block := by
  cases content with
  | text t =>
      simp only [Content.toJson, Content.block, obj, Value.insert, List.foldl_cons, List.foldl_nil,
        String.reduceLT, String.reduceEq, if_true, if_false]
  | raw v =>
      rfl

/-- The members of a reply: two, and `structuredContent` if it is set. -/
def ToolReply.members (reply : ToolReply) : List (String × Value) :=
  [("content", .array (reply.content.map Content.block)), ("isError", .bool reply.isError)] ++
    (reply.structuredContent.map fun value => ("structuredContent", value)).toList

theorem ToolReply.toResultJson_eq_members (reply : ToolReply) :
    reply.toResultJson = .object reply.members := by
  have hblocks : reply.content.map Content.toJson = reply.content.map Content.block :=
    List.map_congr_left fun content _ => content.toJson_eq_block
  unfold ToolReply.toResultJson ToolReply.members
  rw [hblocks]
  cases reply.structuredContent with
  | none =>
      simp only [obj, Value.insert, List.foldl_cons, List.foldl_nil,
        String.reduceLT, String.reduceEq, if_false]
      rfl
  | some value =>
      simp only [obj, Value.set, Value.insert, List.foldl_cons, List.foldl_nil,
        String.reduceLT, String.reduceEq, if_false]
      rfl

/-- The members of a tool's entry: `annotations` if they are set, and three. -/
def ToolDef.members (tool : ToolDef) : List (String × Value) :=
  (tool.annotations.map fun value => ("annotations", value)).toList ++
    [("description", .string tool.description), ("inputSchema", tool.inputSchema),
      ("name", .string tool.name)]

theorem ToolDef.toJson_eq_members (tool : ToolDef) :
    tool.toJson = .object tool.members := by
  unfold ToolDef.toJson ToolDef.members
  cases tool.annotations with
  | none =>
      simp only [obj, Value.insert, List.foldl_cons, List.foldl_nil,
        String.reduceLT, String.reduceEq, if_true, if_false]
      rfl
  | some value =>
      simp only [obj, Value.set, Value.insert, List.foldl_cons, List.foldl_nil,
        String.reduceLT, String.reduceEq, if_true, if_false]
      rfl

/-- Read a tool back from its entry. -/
def readTool (entry : Value) : Option ToolDef := do
  let name ← (entry.get "name").bind asStr
  let description ← (entry.get "description").bind asStr
  let inputSchema ← entry.get "inputSchema"
  return ⟨name, description, inputSchema, entry.get "annotations"⟩

theorem readTool_members (tool : ToolDef) :
    readTool (.object tool.members) = some tool := by
  obtain ⟨name, description, inputSchema, annotations⟩ := tool
  cases annotations with
  | none =>
      simp [readTool, ToolDef.members, Value.get, asStr, List.lookup_cons]
  | some value =>
      simp [readTool, ToolDef.members, Value.get, asStr, List.lookup_cons]

/-- The entries of a listing give the tools back. -/
theorem mapM_readTool (tools : List ToolDef) :
    (tools.map fun tool => Value.object tool.members).mapM readTool = some tools := by
  induction tools with
  | nil =>
      rfl
  | cons tool tools ih =>
      simp [List.mapM_cons, readTool_members, ih]

end Shapes

namespace Server

section Answers

/-- A result that is one text block saying what failed. -/
def declined (message : String) : Value :=
  .object [("content", .array [(Content.text message).block]), ("isError", .bool true)]

theorem toolErrorResult_eq_declined (message : String) :
    toolErrorResult message = declined message := by
  simp only [toolErrorResult, declined, Content.block, obj, Value.insert, List.foldl_cons,
    List.foldl_nil, String.reduceLT, String.reduceEq, if_true, if_false]

end Answers

section Calls

theorem of_callsTool {name : String} {arguments message : Value}
    (h : CallsTool name arguments message) :
    Request.of message = .callTool (some name) arguments := by
  have haccepted : Accepted message := h.1.1
  obtain ⟨hmethod, hname, harguments⟩ := (callsTool_iff haccepted).mp h
  rw [of_accepted haccepted, hmethod, Request.ofMethod, hname, harguments]

theorem of_acceptedFor_list {message : Value} (h : AcceptedFor "tools/list" message) :
    Request.of message = .listTools := by
  rw [of_accepted h.1, (acceptedFor_iff h.1).mp h, Request.ofMethod]

variable {σ : Type} (crates : Externals) (core : ServerCore σ)
  (session : Session) (hinitialized : session.initialized = true)

include hinitialized

/-- A tool call asks the service once, with what the message says, and answers
what came of it. -/
theorem handleMessage_callsTool {name : String} {arguments message : Value}
    (h : CallsTool name arguments message) (world : World σ) :
    let left := handleMessage crates core message session world
    let result := (core.service.callTool name arguments world.service).1
    left.2.2.calls = world.calls ++ [.callTool name arguments] ∧
    left.1 = finish (message.get "id").isSome (message.get "id") (callOutcome result).1
      (callOutcome result).2 := by
  obtain ⟨hdispatch, -, hserves⟩ := handleMessage_spec crates core message session world
  rw [of_callsTool h, hinitialized] at hdispatch hserves
  exact ⟨hserves.calls, hdispatch⟩

/-- A listing asks the service once and answers the entries of its tools. -/
theorem handleMessage_listsTools {message : Value} (h : AcceptedFor "tools/list" message)
    (world : World σ) :
    let left := handleMessage crates core message session world
    let tools := (core.service.tools world.service).1
    left.2.2.calls = world.calls ++ [.tools] ∧
    left.1.response = (message.get "id").map (answered
      (.object [("tools", .array (tools.map fun tool => .object tool.members))])) := by
  obtain ⟨hdispatch, -, hserves⟩ := handleMessage_spec crates core message session world
  rw [of_acceptedFor_list h, hinitialized] at hdispatch hserves
  refine ⟨hserves.calls, ?_⟩
  have hentries : ∀ tools : List ToolDef,
      tools.map ToolDef.toJson = tools.map fun tool => .object tool.members :=
    fun tools => List.map_congr_left fun tool _ => tool.toJson_eq_members
  simp only [hdispatch, Request.dispatch, Request.isObject, Request.outcome, if_true]
  rw [response_finish_result, hentries]
  rfl

/--
Domain values cross the dispatcher verbatim.  In an initialized session a tool call
hands `call_tool` the message's name and arguments, and the answer has exactly the
members of what came of it; a listing has exactly the members of each tool, in
order, so the tools are read back from it.
-/
theorem domain_values_verbatim (message : Value) (world : World σ) :
    let left := handleMessage crates core message session world
    let response := left.1.response
    let id := message.get "id"
    (∀ name arguments, CallsTool name arguments message →
      let result := (core.service.callTool name arguments world.service).1
      left.2.2.calls = world.calls ++ [.callTool name arguments] ∧
      (∀ reply, result = .ok reply →
        response = id.map (answered (.object
          ([("content", .array (reply.content.map Content.block)),
            ("isError", .bool reply.isError)] ++
            (reply.structuredContent.map fun value => ("structuredContent", value)).toList)))) ∧
      (∀ m, result = .error (.tool m) ∨ result = .error (.invalidParams m) →
        response = id.map (answered (.object
          [("content", .array [.object [("text", .string m), ("type", .string "text")]]),
            ("isError", .bool true)]))) ∧
      (∀ m, result = .error (.internal m) → response = id.map (refused (-32603) m))) ∧
    (AcceptedFor "tools/list" message →
      let tools := (core.service.tools world.service).1
      left.2.2.calls = world.calls ++ [.tools] ∧
      ∃ entries,
        response = id.map (answered (.object [("tools", .array entries)])) ∧
        entries = (tools.map fun tool => .object
          ((tool.annotations.map fun value => ("annotations", value)).toList ++
            [("description", .string tool.description), ("inputSchema", tool.inputSchema),
              ("name", .string tool.name)])) ∧
        entries.mapM readTool = some tools) := by
  intro left response id
  refine ⟨fun name arguments hcalls => ?_, fun hlists => ?_⟩
  · obtain ⟨hmade, hanswer⟩ := handleMessage_callsTool crates core session hinitialized hcalls world
    refine ⟨hmade, fun reply hresult => ?_, fun m hresult => ?_, fun m hresult => ?_⟩
    · simp only [response, left, hanswer, hresult, callOutcome]
      rw [response_finish_result, reply.toResultJson_eq_members]
      rfl
    · have houtcome : callOutcome (core.service.callTool name arguments world.service).1 =
          (.result (declined m), []) := by
        rcases hresult with hresult | hresult
        · rw [hresult, callOutcome, toolErrorResult_eq_declined]
        · rw [hresult, callOutcome, toolErrorResult_eq_declined]
      simp only [response, left, hanswer, houtcome]
      rw [response_finish_result]
      rfl
    · simp only [response, left, hanswer, hresult, callOutcome]
      exact response_finish_error _ _ _ _
  · obtain ⟨hmade, hanswer⟩ :=
      handleMessage_listsTools crates core session hinitialized hlists world
    exact ⟨hmade, _, hanswer, rfl, mapM_readTool _⟩

end Calls

/-- Crates that show texts as they are and take no trace. -/
def plainCrates : Externals where
  display _ := ""
  safeName := id
  safeMessage := id
  extractTraceparent _ := .error ""
  setParent _ := none

/-- A listing of one tool whose annotations are null, and a call without arguments. -/
theorem domain_values_verbatim_of_null_annotations :
    let tool : ToolDef := ⟨"read", "", .object [("type", .string "object")], some .null⟩
    let core : ServerCore Unit :=
      { config := .new "server" "1.0",
        service :=
          { tools := fun s => ([tool], s),
            callTool := fun _ arguments s => (.ok ⟨[.raw arguments], false, some .null, false⟩, s),
            shutdown := id } }
    let call := Value.object [("id", .null), ("method", .string "tools/call"),
      ("params", .object [("name", .string "read")])]
    let list := Value.object [("id", .number (.int 1)), ("method", .string "tools/list")]
    let world : World Unit := ⟨(), [], []⟩
    (handleMessage plainCrates core call ⟨true, .stdio⟩ world).1.response =
      some (answered (.object [("content", .array [.null]), ("isError", .bool false),
        ("structuredContent", .null)]) .null) ∧
    ∃ entries,
      (handleMessage plainCrates core list ⟨true, .stdio⟩ world).1.response =
        some (answered (.object [("tools", .array entries)]) (.number (.int 1))) ∧
      entries.mapM readTool = some [tool] := by
  intro tool core call list world
  have hcall : CallsTool "read" .null call :=
    ⟨⟨⟨rfl, nofun⟩, rfl⟩, _, rfl, rfl, rfl⟩
  have hlist : AcceptedFor "tools/list" list :=
    ⟨⟨rfl, nofun⟩, rfl⟩
  obtain ⟨-, hreply, -⟩ :=
    (domain_values_verbatim plainCrates core ⟨true, .stdio⟩ rfl call world).1 _ _ hcall
  obtain ⟨-, entries, hanswer, -, hread⟩ :=
    (domain_values_verbatim plainCrates core ⟨true, .stdio⟩ rfl list world).2 hlist
  exact ⟨hreply _ rfl, entries, hanswer, hread⟩

section Counted

/-- The labels under which these count tool calls. -/
def toolIncrements (signals : List Signal) : List (List (String × String)) :=
  signals.filterMap fun
    | .increment name labels => if name = "mcp.tools.call" then some labels else none
    | _ => none

/-- A response with an error. -/
def AnsweredError (response : Option Value) : Prop :=
  ∃ object, response = some object ∧ (object.get "error").isSome = true

/-- A response with a result that has this `isError`. -/
def AnsweredResult (isError : Bool) (response : Option Value) : Prop :=
  ∃ object result, response = some object ∧ object.get "result" = some result ∧
    result.get "isError" = some (.bool isError)

/-- One call of this tool is counted, under the outcome that was answered. -/
def CountedAsAnswered (name : String) (response : Option Value)
    (increments : List (List (String × String))) : Prop :=
  ∃ outcome, increments = [[("tool", name), ("outcome", outcome)]] ∧
    (outcome = "error" ↔ AnsweredError response) ∧
    (outcome = "tool_error" ↔ AnsweredResult true response) ∧
    (outcome = "ok" ↔ AnsweredResult false response)

theorem toolIncrements_append (signals signals' : List Signal) :
    toolIncrements (signals ++ signals') = toolIncrements signals ++ toolIncrements signals' :=
  List.filterMap_append

theorem toolIncrements_callEvents
    (crates : Externals) (result : Except CallError ToolReply) :
    toolIncrements (callEvents crates result) = [] := by
  cases result with
  | ok reply =>
      rfl
  | error error =>
      cases error <;> rfl

/-- The outcome of a call is counted once, and nothing else is. -/
theorem toolIncrements_emitted
    {σ : Type} (crates : Externals) (core : ServerCore σ) {session : Session}
    (hinitialized : session.initialized = true) {name : String} {arguments message : Value}
    (h : CallsTool name arguments message) (before : σ) :
    toolIncrements (emitted crates core message session before) =
      [[("tool", name),
        ("outcome", outcomeLabel (core.service.callTool name arguments before).1)]] := by
  have hrejected : toolIncrements (rejectedTrace crates message) = [] := by
    unfold rejectedTrace
    split
    · rfl
    · split <;> rfl
  have hjoined : toolIncrements (joinedTrace crates message) = [] := by
    unfold joinedTrace
    split
    · rfl
    · split
      · rfl
      · split <;> rfl
  have hcall : ∀ result, toolIncrements (callSignals crates name arguments result) =
      [[("tool", name), ("outcome", outcomeLabel result)]] := by
    intro result
    rw [callSignals, toolIncrements_append, toolIncrements_callEvents]
    rfl
  rw [emitted, of_callsTool h, hinitialized, Request.signals, if_pos rfl, toolIncrements_append,
    hrejected, List.nil_append, requestSpan]
  have hspan : ∀ level name fields signals,
      toolIncrements (.span level name fields :: signals) = toolIncrements signals :=
    fun _ _ _ _ => rfl
  rw [hspan, toolIncrements_append, hjoined, toolIncrements_append, hcall]
  rfl

theorem answeredError_answered (id : Option Value) (result : Value) :
    ¬ AnsweredError (id.map (answered result)) := by
  rintro ⟨object, hobject, herror⟩
  obtain ⟨id, -, rfl⟩ := Option.map_eq_some_iff.mp hobject
  simp [answered, Value.get, List.lookup_cons] at herror

theorem answeredError_refused (id : Value) (code : Int) (message : String) :
    AnsweredError (some (refused code message id)) :=
  ⟨_, rfl, rfl⟩

theorem answeredResult_answered (id result : Value) (isError : Bool) :
    AnsweredResult isError (some (answered result id)) ↔
      result.get "isError" = some (.bool isError) := by
  constructor
  · rintro ⟨object, result', hobject, hresult, hflag⟩
    cases hobject
    have heq : result = result' := by
      simpa [answered, Value.get, List.lookup_cons] using hresult
    rw [heq]
    exact hflag
  · intro hflag
    exact ⟨_, result, rfl, rfl, hflag⟩

theorem answeredResult_refused (id : Value) (code : Int) (message : String) (isError : Bool) :
    ¬ AnsweredResult isError (some (refused code message id)) := by
  rintro ⟨object, result, hobject, hresult, -⟩
  cases hobject
  simp [refused, Value.get, List.lookup_cons] at hresult

theorem get_isError_members (reply : ToolReply) :
    (Value.object reply.members).get "isError" = some (.bool reply.isError) := by
  rfl

/-- An outcome label says what was answered, but for `Ok` replies that are errors. -/
theorem label_as_answered_iff (result : Except CallError ToolReply) (id : Value) :
    let response := (finish true (some id) (callOutcome result).1 (callOutcome result).2).response
    ((outcomeLabel result = "error" ↔ AnsweredError response) ∧
      (outcomeLabel result = "tool_error" ↔ AnsweredResult true response) ∧
      (outcomeLabel result = "ok" ↔ AnsweredResult false response)) ↔
    ∀ reply, result = .ok reply → reply.isError = false := by
  intro response
  have hdeclined : ∀ m, response = some (answered (declined m) id) →
      ¬ AnsweredError response ∧ AnsweredResult true response ∧
        ¬ AnsweredResult false response := by
    intro m hresponse
    rw [hresponse]
    refine ⟨answeredError_answered (some id) (declined m), ?_, ?_⟩
    · rw [answeredResult_answered]
      rfl
    · rw [answeredResult_answered]
      simp [declined, Value.get, List.lookup_cons]
  cases result with
  | ok reply =>
      have hresponse : response = some (answered (.object reply.members) id) := by
        rw [← reply.toResultJson_eq_members]
        exact response_finish_result (some id) _ _
      have herror : ¬ AnsweredError response := by
        rw [hresponse]
        exact answeredError_answered (some id) _
      have hflag : ∀ isError, AnsweredResult isError response ↔ reply.isError = isError := by
        intro isError
        rw [hresponse, answeredResult_answered, get_isError_members]
        simp
      rw [hflag true, hflag false]
      simp [outcomeLabel, herror]
  | error error =>
      cases error with
      | tool m =>
          obtain ⟨herror, htrue, hfalse⟩ := hdeclined m (by
            rw [← toolErrorResult_eq_declined]
            exact response_finish_result (some id) _ _)
          simp [outcomeLabel, herror, htrue, hfalse]
      | invalidParams m =>
          obtain ⟨herror, htrue, hfalse⟩ := hdeclined m (by
            rw [← toolErrorResult_eq_declined]
            exact response_finish_result (some id) _ _)
          simp [outcomeLabel, herror, htrue, hfalse]
      | internal m =>
          have hresponse : response = some (refused Code.internalError m id) :=
            response_finish_error (some id) _ _ _
          have herror : AnsweredError response := hresponse ▸ answeredError_refused id _ m
          have hresult : ∀ isError, ¬ AnsweredResult isError response :=
            fun isError => hresponse ▸ answeredResult_refused id _ m isError
          simp [outcomeLabel, herror, hresult]

theorem outcomeLabel_cases (result : Except CallError ToolReply) :
    outcomeLabel result = "error" ∨ outcomeLabel result = "tool_error" ∨
      outcomeLabel result = "ok" := by
  cases result with
  | ok reply =>
      exact .inr (.inr rfl)
  | error error =>
      cases error with
      | tool m => exact .inr (.inl rfl)
      | invalidParams m => exact .inr (.inl rfl)
      | internal m => exact .inl rfl

/-- The outcome counted is the label of what the service said. -/
theorem countedAsAnswered_label
    {name : String} {response : Option Value} {result : Except CallError ToolReply} :
    CountedAsAnswered name response [[("tool", name), ("outcome", outcomeLabel result)]] ↔
      (outcomeLabel result = "error" ↔ AnsweredError response) ∧
      (outcomeLabel result = "tool_error" ↔ AnsweredResult true response) ∧
      (outcomeLabel result = "ok" ↔ AnsweredResult false response) := by
  constructor
  · rintro ⟨outcome, houtcome, hcounted⟩
    obtain rfl : outcomeLabel result = outcome := by
      simpa using houtcome
    exact hcounted
  · intro hcounted
    exact ⟨_, rfl, hcounted⟩

/-- What is counted as answered is counted alike when it is answered alike. -/
theorem label_eq_of_countedAsAnswered
    {name : String} {response : Option Value} {result result' : Except CallError ToolReply}
    (h : CountedAsAnswered name response [[("tool", name), ("outcome", outcomeLabel result)]])
    (h' : CountedAsAnswered name response
      [[("tool", name), ("outcome", outcomeLabel result')]]) :
    outcomeLabel result = outcomeLabel result' := by
  rw [countedAsAnswered_label] at h h'
  obtain ⟨herror, htoolError, hok⟩ := h
  obtain ⟨herror', htoolError', hok'⟩ := h'
  rcases outcomeLabel_cases result with hlabel | hlabel | hlabel
  · rw [hlabel, herror'.mpr (herror.mp hlabel)]
  · rw [hlabel, htoolError'.mpr (htoolError.mp hlabel)]
  · rw [hlabel, hok'.mpr (hok.mp hlabel)]

/--
The `outcome` a tool call is counted under is what was answered, exactly when the
service did not answer with an `Ok` reply whose `isError` is set.  Calls that are
counted so and answered alike are counted alike.
-/
theorem counted_as_answered_iff
    {σ : Type} (crates : Externals) (core : ServerCore σ) (session : Session)
    (hinitialized : session.initialized = true) (name : String) (arguments message id : Value)
    (hcalls : CallsTool name arguments message) (hid : message.get "id" = some id)
    (world : World σ) :
    let left := handleMessage crates core message session world
    ∃ signals, left.2.2.signals = world.signals ++ signals ∧
      (CountedAsAnswered name left.1.response (toolIncrements signals) ↔
        ∀ reply, (core.service.callTool name arguments world.service).1 = .ok reply →
          reply.isError = false) ∧
      ∀ (core' : ServerCore σ) (world' : World σ) (signals' : List Signal),
        let left' := handleMessage crates core' message session world'
        left'.2.2.signals = world'.signals ++ signals' →
        left'.1.response = left.1.response →
        CountedAsAnswered name left.1.response (toolIncrements signals) →
        CountedAsAnswered name left'.1.response (toolIncrements signals') →
        toolIncrements signals' = toolIncrements signals := by
  intro left
  have hcounts := fun core : ServerCore σ =>
    toolIncrements_emitted crates core hinitialized hcalls
  refine ⟨_, handleMessage_signals crates core message session world, ?_, ?_⟩
  · obtain ⟨-, hanswer⟩ := handleMessage_callsTool crates core session hinitialized hcalls world
    rw [hcounts, countedAsAnswered_label]
    simp only [left, hanswer, hid, Option.isSome_some]
    exact label_as_answered_iff _ id
  · intro core' world' signals' left' hsignals hresponse hcounted hcounted'
    obtain rfl : signals' = emitted crates core' message session world'.service := by
      rw [handleMessage_signals] at hsignals
      exact (List.append_cancel_left hsignals).symm
    rw [hresponse] at hcounted'
    rw [hcounts] at hcounted hcounted' ⊢
    rw [hcounts, label_eq_of_countedAsAnswered hcounted hcounted']

/-- A service of one tool that says `result` whatever it is asked. -/
def saying (result : Except CallError ToolReply) : ServerCore Unit where
  config := .new "server" "1.0"
  service :=
    { tools := fun s => ([], s), callTool := fun _ _ s => (result, s), shutdown := id }

/-- A call of the tool `read`. -/
def readCall : Value :=
  .object [("id", .number (.int 1)), ("method", .string "tools/call"),
    ("params", .object [("name", .string "read")])]

theorem callsTool_readCall :
    CallsTool "read" .null readCall :=
  ⟨⟨⟨rfl, nofun⟩, rfl⟩, _, rfl, rfl, rfl⟩

/-- A tool that breaks is counted as the error it is answered with. -/
theorem counted_as_answered_iff_of_internal :
    ∃ signals,
      (handleMessage plainCrates (saying (.error (.internal "broken"))) readCall ⟨true, .stdio⟩
        ⟨(), [], []⟩).2.2.signals = [] ++ signals ∧
      CountedAsAnswered "read"
        (handleMessage plainCrates (saying (.error (.internal "broken"))) readCall ⟨true, .stdio⟩
          ⟨(), [], []⟩).1.response (toolIncrements signals) := by
  obtain ⟨signals, hsignals, hcounted, -⟩ := counted_as_answered_iff plainCrates
    (saying (.error (.internal "broken"))) ⟨true, .stdio⟩ rfl "read" .null readCall
    (.number (.int 1)) callsTool_readCall rfl ⟨(), [], []⟩
  exact ⟨signals, hsignals, hcounted.mpr nofun⟩

/-- What a call of `read` is answered and how it is counted. -/
theorem handleMessage_saying (result : Except CallError ToolReply) :
    let left := handleMessage plainCrates (saying result) readCall ⟨true, .stdio⟩ ⟨(), [], []⟩
    left.1.response =
      (finish true (some (.number (.int 1))) (callOutcome result).1
        (callOutcome result).2).response ∧
    toolIncrements left.2.2.signals =
      [[("tool", "read"), ("outcome", outcomeLabel result)]] := by
  intro left
  obtain ⟨-, hanswer⟩ := handleMessage_callsTool plainCrates (saying result)
    ⟨true, .stdio⟩ rfl callsTool_readCall ⟨(), [], []⟩
  refine ⟨congrArg Dispatch.response hanswer, ?_⟩
  rw [show left.2.2.signals = _ from handleMessage_signals plainCrates _ _ _ _,
    List.nil_append, toolIncrements_emitted plainCrates _ rfl callsTool_readCall]
  rfl

/--
An `Ok` reply that is an error and a tool's failure with the same text are the same
on the wire; the first is counted under `ok`, the second under `tool_error`.
-/
theorem not_counted_as_answered :
    let reply := handleMessage plainCrates (saying (.ok (.error "no such file"))) readCall
      ⟨true, .stdio⟩ ⟨(), [], []⟩
    let failure := handleMessage plainCrates (saying (.error (.tool "no such file"))) readCall
      ⟨true, .stdio⟩ ⟨(), [], []⟩
    reply.1.response = failure.1.response ∧
    toolIncrements reply.2.2.signals = [[("tool", "read"), ("outcome", "ok")]] ∧
    toolIncrements failure.2.2.signals = [[("tool", "read"), ("outcome", "tool_error")]] ∧
    ¬ CountedAsAnswered "read" reply.1.response (toolIncrements reply.2.2.signals) := by
  intro reply failure
  obtain ⟨hreply, hok⟩ := handleMessage_saying (.ok (.error "no such file"))
  obtain ⟨hfailure, htoolError⟩ := handleMessage_saying (.error (.tool "no such file"))
  have hwire : ToolReply.toResultJson (.error "no such file") =
      toolErrorResult "no such file" := by
    rw [ToolReply.toResultJson_eq_members, toolErrorResult_eq_declined]
    rfl
  refine ⟨?_, hok, htoolError, ?_⟩
  · rw [hreply, hfailure, callOutcome, hwire]
    rfl
  · intro hcounted
    rw [hok, hreply] at hcounted
    have hnotError := (label_as_answered_iff (.ok (.error "no such file")) (.number (.int 1))).mp
      (countedAsAnswered_label.mp hcounted)
    exact absurd (hnotError _ rfl) (by decide)

end Counted

end Server
end McpCore
