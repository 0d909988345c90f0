import McpCore.Redaction

/-!
# The caller's trace does not reach the answer

A caller may put a trace context in `params._meta`.  Two runs over messages that
differ there only are answered alike and leave the session and the service alike
(`answers_of_sameButMeta`); what differs is the telemetry, and there a trace that
is no string leaves nothing at all.
-/

namespace McpCore
namespace Server

open Value

section SameButMeta

/-- Two messages that differ in `params._meta` only.  `params` that are not there
count as `params` without members. -/
structure SameButMeta (message message' : Value) : Prop where
  isObject : message.isObject = message'.isObject
  isArray : message.isArray = message'.isArray
  members : ∀ key, key ≠ "params" → message.get key = message'.get key
  params : ∀ key, key ≠ "_meta" →
    (message.get "params").bind (Value.get key) = (message'.get "params").bind (Value.get key)

variable {message message' : Value}

/-- The same members but `_meta`. -/
abbrev SameParams (params params' : Value) : Prop :=
  ∀ key, key ≠ "_meta" → params.get key = params'.get key

theorem SameButMeta.sameParams (h : SameButMeta message message') :
    SameParams ((message.get "params").getD .null) ((message'.get "params").getD .null) := by
  intro key hkey
  rw [get_getD_null, get_getD_null]
  exact h.params key hkey

/-- Requests of one method are one, or they open the session. -/
theorem ofMethod_of_sameParams
    {params params' : Value} (hparams : SameParams params params') (method : Option String) :
    Request.ofMethod method params = Request.ofMethod method params' ∨
    (Request.ofMethod method params = .init params ∧
      Request.ofMethod method params' = .init params') := by
  unfold Request.ofMethod
  split
  · exact Or.inr ⟨rfl, rfl⟩
  · exact Or.inl rfl
  · exact Or.inl rfl
  · exact Or.inl rfl
  · exact Or.inl rfl
  · left
    rw [hparams "name" (by simp), hparams "arguments" (by simp)]
  · exact Or.inl rfl
  · exact Or.inl rfl
  · exact Or.inl rfl

/-- Requests that ask for the same but for the `_meta` of what opens the session. -/
inductive SameRequest : Request → Request → Prop
  | same (request : Request) : SameRequest request request
  | init {params params' : Value} (h : SameParams params params') :
      SameRequest (.init params) (.init params')

theorem SameButMeta.sameRequest (h : SameButMeta message message') :
    SameRequest (Request.of message) (Request.of message') := by
  have hmethod : ∀ method, SameRequest
      (Request.ofMethod method ((message.get "params").getD .null))
      (Request.ofMethod method ((message'.get "params").getD .null)) := by
    intro method
    rcases ofMethod_of_sameParams h.sameParams method with heq | ⟨hinit, hinit'⟩
    · rw [heq]
      exact .same _
    · rw [hinit, hinit']
      exact .init h.sameParams
  simp only [Request.of, h.isObject, h.isArray, h.members "jsonrpc" (by simp),
    h.members "method" (by simp)]
  cases message'.isObject with
  | false =>
      exact .same _
  | true =>
      cases (message'.get "jsonrpc").bind asStr with
      | none =>
          exact hmethod _
      | some version =>
          by_cases htwo : version = "2.0"
          · simp only [Bool.not_true, Bool.false_eq_true, if_false, if_pos htwo]
            exact hmethod _
          · simp only [Bool.not_true, Bool.false_eq_true, if_false, if_neg htwo]
            exact .same _

end SameButMeta

section Answers

variable {σ : Type} (core : ServerCore σ) {request request' : Request}

/-- What such requests get is the same. -/
theorem SameRequest.spec
    (h : SameRequest request request') (flag : Bool) (before : σ) (id : Option Value) :
    request.dispatch core flag before id = request'.dispatch core flag before id ∧
    request.flag flag = request'.flag flag ∧
    request.calls flag = request'.calls flag ∧
    request.service core flag before = request'.service core flag before := by
  cases h with
  | same => exact ⟨rfl, rfl, rfl, rfl⟩
  | init hparams =>
      refine ⟨?_, rfl, rfl, rfl⟩
      simp only [Request.dispatch, Request.outcome, handleInitialize,
        hparams "protocolVersion" (by simp)]
      rfl

variable (crates : Externals)

/-- A session handles a message; its answer and the session after it are put out. -/
def handleNext (message : Value) (state : Session × World σ) :
    (Dispatch × Session) × (Session × World σ) :=
  let (dispatch, session, world) := handleMessage crates core message state.1 state.2
  ((dispatch, session), (session, world))

/-- Alike but for the telemetry. -/
structure SameState (state state' : Session × World σ) : Prop where
  session : state.1 = state'.1
  service : state.2.service = state'.2.service
  calls : state.2.calls = state'.2.calls

/-- Messages that differ in `_meta` only are handled alike. -/
theorem handleNext_of_sameButMeta
    {message message' : Value} (h : SameButMeta message message')
    {state state' : Session × World σ} (hstate : SameState state state') :
    (handleNext core crates message state).1 = (handleNext core crates message' state').1 ∧
    SameState (handleNext core crates message state).2
      (handleNext core crates message' state').2 := by
  obtain ⟨session, world⟩ := state
  obtain ⟨session', world'⟩ := state'
  obtain rfl : session = session' := hstate.session
  obtain ⟨hdispatch, hsession, hserves⟩ := handleMessage_spec crates core message session world
  obtain ⟨hdispatch', hsession', hserves'⟩ :=
    handleMessage_spec crates core message' session world'
  obtain ⟨hsame, hflag, hcalls, hservice⟩ :=
    h.sameRequest.spec core session.initialized world.service (message.get "id")
  have hid : message.get "id" = message'.get "id" := h.members "id" (by simp)
  have hworld : world.service = world'.service := hstate.service
  have hleft : (handleMessage crates core message session world).1 =
      (handleMessage crates core message' session world').1 := by
    rw [hdispatch, hdispatch', hsame, hid, hworld]
  have hafter : (handleMessage crates core message session world).2.1 =
      (handleMessage crates core message' session world').2.1 := by
    rw [hsession, hsession', hflag]
  refine ⟨Prod.ext hleft hafter, hafter, ?_, ?_⟩
  · exact hserves.service.trans (hservice.trans (hworld ▸ hserves'.service.symm))
  · have hmade : world.calls ++ (Request.of message).calls session.initialized =
        world'.calls ++ (Request.of message').calls session.initialized := by
      rw [hcalls, show world.calls = world'.calls from hstate.calls]
    exact hserves.calls.trans (hmade.trans hserves'.calls.symm)

end Answers

section Span

/-- The message carries this text as its `traceparent`. -/
def CarriesTraceparent (header : String) (message : Value) : Prop :=
  ∃ params metadata, message.get "params" = some params ∧
    params.get "_meta" = some metadata ∧ metadata.get "traceparent" = some (.string header)

theorem traceparentHeader_eq_some {header : String} {message : Value} :
    traceparentHeader message = some header ↔ CarriesTraceparent header message := by
  rw [traceparentHeader, Option.bind_eq_some_iff]
  constructor
  · rintro ⟨params, hparams, hbind⟩
    obtain ⟨metadata, hmetadata, hheader⟩ := Option.bind_eq_some_iff.mp hbind
    exact ⟨params, metadata, hparams, hmetadata, bind_asStr.mp hheader⟩
  · rintro ⟨params, metadata, hparams, hmetadata, hheader⟩
    exact ⟨params, hparams,
      Option.bind_eq_some_iff.mpr ⟨metadata, hmetadata, bind_asStr.mpr hheader⟩⟩

/-- The fields that the request span comes to carry: those it opens with and those
recorded on it. -/
def requestSpanFields (made : List Signal) : List (String × String) :=
  made.flatMap fun signal =>
    match signal with
    | .span _ name fields => if name = "mcp.request" then fields else []
    | .record field value => [(field, value)]
    | _ => []

@[simp] theorem requestSpanFields_append (made made' : List Signal) :
    requestSpanFields (made ++ made') = requestSpanFields made ++ requestSpanFields made' := by
  simp [requestSpanFields]

theorem requestSpanFields_cons (signal : Signal) (made : List Signal) :
    requestSpanFields (signal :: made) = requestSpanFields [signal] ++ requestSpanFields made := by
  simp [requestSpanFields]

variable {σ : Type} (crates : Externals) (core : ServerCore σ)

@[simp] theorem requestSpanFields_rejectedTrace (message : Value) :
    requestSpanFields (rejectedTrace crates message) = [] := by
  unfold rejectedTrace
  split
  · rfl
  · split
    · rfl
    · rfl

@[simp] theorem requestSpanFields_counters (message : Value) :
    requestSpanFields (requestCounters message) = [] := by
  rfl

@[simp] theorem requestSpanFields_signals (flag : Bool) (before : σ) (request : Request) :
    requestSpanFields (request.signals crates core flag before) = [] := by
  have hevents : ∀ result, requestSpanFields (callEvents crates result) = [] := by
    intro result
    cases result with
    | ok reply =>
        rfl
    | error error =>
        cases error with
        | _ message => rfl
  cases request with
  | callTool name arguments =>
      cases name with
      | none =>
          rfl
      | some name =>
          cases flag with
          | false =>
              rfl
          | true =>
              simp only [Request.signals, if_true, callSignals, requestSpanFields_append, hevents]
              rfl
  | _ =>
      rfl

/-- The trace id on the request span is that of the caller's trace. -/
theorem trace_id_mem_requestSpanFields
    (message : Value) (session : Session) (before : σ) (id : String) :
    ("trace_id", id) ∈ requestSpanFields (emitted crates core message session before) ↔
      ∃ header parent, CarriesTraceparent header message ∧
        crates.extractTraceparent header = .ok parent ∧ id = parent.traceId := by
  have hspan : requestSpanFields (emitted crates core message session before) =
      requestSpanFields [requestSpan crates message session] ++
        requestSpanFields (joinedTrace crates message) := by
    rw [emitted, requestSpanFields_append, requestSpanFields_cons]
    simp
  have hopened : ("trace_id", id) ∉ requestSpanFields [requestSpan crates message session] := by
    simp [requestSpanFields, requestSpan]
  rw [hspan, List.mem_append, or_iff_right hopened]
  simp only [← traceparentHeader_eq_some]
  unfold joinedTrace
  cases traceparentHeader message with
  | none =>
      simp [requestSpanFields]
  | some header =>
      cases hparent : crates.extractTraceparent header with
      | error error =>
          simp [requestSpanFields, hparent]
      | ok parent =>
          simp only [hparent]
          constructor
          · intro hmem
            refine ⟨header, parent, rfl, hparent, ?_⟩
            cases hset : crates.setParent parent with
            | none =>
                simpa [requestSpanFields, hset] using hmem
            | some error =>
                simpa [requestSpanFields, hset] using hmem
          · rintro ⟨_, parent', hheader, hparent', hid⟩
            cases hheader
            obtain rfl : parent = parent' := by
              simpa [hparent] using hparent'
            rw [requestSpanFields_cons, hid]
            exact List.mem_append_left _ (by simp [requestSpanFields])

/-- Without a `traceparent` that is a string the telemetry is that of the request
alone. -/
theorem emitted_of_sameButMeta
    {message message' : Value} (h : SameButMeta message message')
    (hheader : traceparentHeader message = none) (hheader' : traceparentHeader message' = none)
    (session : Session) (before : σ) :
    emitted crates core message session before = emitted crates core message' session before := by
  have hrequest : ∀ method,
      (Request.of message).label method = (Request.of message').label method ∧
      (Request.of message).signals crates core session.initialized before =
        (Request.of message').signals crates core session.initialized before := by
    intro method
    have hsame := h.sameRequest
    generalize Request.of message = request at hsame ⊢
    generalize Request.of message' = request' at hsame ⊢
    cases hsame with
    | same => exact ⟨rfl, rfl⟩
    | init => exact ⟨rfl, rfl⟩
  have hmethod : message.get "method" = message'.get "method" := h.members "method" (by simp)
  have hid : message.get "id" = message'.get "id" := h.members "id" (by simp)
  simp only [emitted, rejectedTrace, joinedTrace, requestSpan, requestCounters, methodLabel,
    hheader, hheader', hmethod, hid, (hrequest none).2, (hrequest _).1]

/--
A caller's trace never reaches the answer: runs over messages that differ in
`params._meta` only are answered alike with alike notifications, call the service
alike and go through the same session states.  A request span carries a `trace_id`
exactly when `params`, `_meta` and `traceparent` are there in turn and the last is a
string that parses, and then the parsed one; a `traceparent` that is absent or no
string leaves the telemetry as it is without `_meta`.
-/
theorem trace_context_inert
    (session : Session) (world : World σ) {messages messages' : List Value}
    (hmeta : List.Forall₂ SameButMeta messages messages') :
    let left := Mealy.run (handleNext core crates) messages (session, world)
    let left' := Mealy.run (handleNext core crates) messages' (session, world)
    (left.1 = left'.1 ∧ left.2.1 = left'.2.1 ∧
      left.2.2.calls = left'.2.2.calls ∧ left.2.2.service = left'.2.2.service) ∧
    ∀ (message : Value) (session : Session) (world : World σ), ∃ made,
      (handleMessage crates core message session world).2.2.signals = world.signals ++ made ∧
      (∀ id, ("trace_id", id) ∈ requestSpanFields made ↔
        ∃ header parent, CarriesTraceparent header message ∧
          crates.extractTraceparent header = .ok parent ∧ id = parent.traceId) ∧
      ((∀ header, ¬ CarriesTraceparent header message) →
        ∀ message', SameButMeta message message' →
          (message'.get "params").bind (Value.get "_meta") = none →
          (handleMessage crates core message' session world).2.2.signals =
            world.signals ++ made) := by
  intro left left'
  constructor
  · obtain ⟨houtputs, hfinal⟩ := Mealy.run_forall₂ (handleNext core crates)
      (handleNext core crates) SameButMeta SameState Eq
      (fun _ _ _ _ h hstate => handleNext_of_sameButMeta core crates h hstate) hmeta
      (⟨rfl, rfl, rfl⟩ : SameState (session, world) (session, world))
    exact ⟨List.forall₂_eq_eq_eq ▸ houtputs, hfinal.session, hfinal.calls, hfinal.service⟩
  · intro message session world
    refine ⟨_, handleMessage_signals crates core message session world,
      trace_id_mem_requestSpanFields crates core message session world.service, ?_⟩
    intro hheader message' h hwithout
    have hnone : traceparentHeader message = none := by
      cases hsome : traceparentHeader message with
      | none =>
          rfl
      | some header =>
          exact absurd (traceparentHeader_eq_some.mp hsome) (hheader header)
    have hnone' : traceparentHeader message' = none := by
      rw [traceparentHeader, ← Option.bind_assoc, hwithout]
      rfl
    rw [handleMessage_signals,
      emitted_of_sameButMeta crates core h hnone hnone' session world.service]

/-- A tool call without `_meta`, and the same with a trace that is accepted: only the
telemetry differs. -/
theorem trace_context_inert_of_joined :
    let crates : Externals :=
      { display := fun _ => "shown", safeName := id, safeMessage := id,
        extractTraceparent := fun header => .ok ⟨header, "", true⟩, setParent := fun _ => none }
    let core : ServerCore Nat :=
      { config := .new "server" "1.0",
        service :=
          { tools := fun s => ([], s), callTool := fun _ _ s => (.ok (.text ""), s + 1),
            shutdown := id } }
    let message := fun params => Value.object [("id", .number (.int 1)),
      ("method", .string "tools/call"), ("params", .object params)]
    let metadata := Value.object [("traceparent", .string "00-1-1-01")]
    let world : World Nat := ⟨0, [], []⟩
    let left := Mealy.run (handleNext core crates) [message [("name", .string "read")]]
      (⟨true, .stdio⟩, world)
    let left' := Mealy.run (handleNext core crates)
      [message [("_meta", metadata), ("name", .string "read")]] (⟨true, .stdio⟩, world)
    left.2.2.signals ≠ left'.2.2.signals ∧ left.1 = left'.1 ∧ left'.2.2.service = 1 := by
  intro crates core message metadata world left left'
  have hmeta : SameButMeta (message [("name", .string "read")])
      (message [("_meta", metadata), ("name", .string "read")]) := by
    refine ⟨rfl, rfl, ?_, ?_⟩
    · intro key hkey
      simp only [message, Value.get, List.lookup_cons, beq_false_of_ne hkey]
    · intro key hkey
      simp [message, Value.get, List.lookup_cons, beq_false_of_ne hkey]
  obtain ⟨⟨houtputs, -, -, -⟩, -⟩ := trace_context_inert crates core ⟨true, .stdio⟩ world
    (.cons hmeta .nil)
  exact ⟨by decide, houtputs, rfl⟩

end Span

end Server
end McpCore
