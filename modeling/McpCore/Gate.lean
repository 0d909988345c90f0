import McpCore.FrontDoor

/-!
# Who may call the service

Whatever else happens on a server, what one client sends alone decides what the service is
called for on its behalf.  `Gated` says which calls a sequence of messages leads to: at
most one each, the tools only while the client has opened its own session.

`connections_gated` says so of the bytes that arrive on a connection, `calls_vetted` of the
frames of a socket, back to the request that it was admitted for.
-/

namespace McpCore
namespace Runner

open Transport Server Auth

section Specification

/-- A message leads to a call, after these messages on the same connection. -/
def LeadsTo (earlier : List Value) (message : Value) : ServiceCall → Prop
  | .callTool name arguments => Opened earlier ∧ CallsTool name arguments message
  | .tools => Opened earlier ∧ AcceptedFor "tools/list" message
  | .shutdown => Closes message

/-- The calls that messages lead to, at most one each, in the order of the messages. -/
inductive Gated : List Value → List ServiceCall → Prop
  | nil : Gated [] []
  | append {messages : List Value} {calls : List ServiceCall} (h : Gated messages calls)
      {message : Value} {made : List ServiceCall} (hone : made.length ≤ 1)
      (hmade : ∀ call, call ∈ made ↔ LeadsTo messages message call) :
      Gated (messages ++ [message]) (calls ++ made)

/-- The message in a text, if there is one; the pump passes over blank texts. -/
def framedMessage (serde : SerdeJson) (text : String) : Option Value :=
  if Text.trim text = "" then none else (serde.fromStr text).toOption

def socketMessage (serde : SerdeJson) (text : String) : Option Value :=
  (serde.fromStr text).toOption

end Specification

section Gate

/-- What closes is what calls `shutdown`. -/
theorem shutdown_mem_calls {flag : Bool} {message : Value} :
    .shutdown ∈ (Request.of message).calls flag ↔ Closes message := by
  by_cases haccepted : Accepted message
  · rw [Closes, acceptedFor_iff haccepted, of_accepted haccepted]
    generalize (message.get "method").bind Value.asStr = method
    generalize (message.get "params").getD .null = params
    unfold Request.ofMethod
    split
    case h_6 =>
      cases (params.get "name").bind Value.asStr with
      | none => simp [Request.calls]
      | some tool => cases flag <;> simp [Request.calls]
    all_goals simp_all [Request.calls]
  · have hnone : ¬ Closes message := fun h => haccepted h.1
    simp [calls_of_not_accepted haccepted, hnone]

/-- A request makes the call that its message leads to. -/
theorem mem_calls_iff {earlier : List Value} {flag : Bool}
    (hflag : flag = true ↔ Opened earlier) (message : Value) (call : ServiceCall) :
    call ∈ (Request.of message).calls flag ↔ LeadsTo earlier message call := by
  cases call with
  | callTool name arguments =>
      rw [callTool_mem_calls, hflag]
      exact Iff.rfl
  | tools =>
      rw [tools_mem_calls, hflag]
      exact Iff.rfl
  | shutdown =>
      rw [shutdown_mem_calls]
      exact Iff.rfl

variable {σ : Type}

/-- A way to handle texts that takes the messages out of them, and lets a session handle
these. -/
structure Dispatches (step : Handled σ → Session → (List Value × List ServiceCall) × Session)
    (message : String → Option Value) : Prop where
  passes : ∀ handled session, message handled.raw = none →
    (step handled session).1.2 = [] ∧ (step handled session).2 = session
  handles : ∀ handled session value, message handled.raw = some value →
    (step handled session).1.2 = (Request.of value).calls session.initialized ∧
      (step handled session).2.initialized = (Request.of value).flag session.initialized

/-- However texts are handled, the calls are those that the messages in them lead to. -/
theorem Dispatches.gated {step : Handled σ → Session → (List Value × List ServiceCall) × Session}
    {message : String → Option Value} (h : Dispatches step message) {session : Session}
    (hfresh : session.initialized = false) (texts : List (Handled σ)) :
    let values := (texts.map Handled.raw).filterMap message
    Gated values ((Mealy.run step texts session).1.flatMap Prod.snd) ∧
      ((Mealy.run step texts session).2.initialized = true ↔ Opened values) := by
  induction texts using List.reverseRecOn with
  | nil =>
      refine ⟨.nil, ?_⟩
      simp [hfresh, Opened]
  | append_singleton texts handled ih =>
      obtain ⟨hgated, hflag⟩ := ih
      simp only [List.map_append, List.filterMap_append, Mealy.run_append_fst,
        Mealy.run_append_snd, List.flatMap_append, Mealy.run_cons_fst, Mealy.run_cons_snd,
        Mealy.run_nil, List.map_cons, List.map_nil, List.flatMap_singleton]
      generalize (texts.map Handled.raw).filterMap message = values at hgated hflag ⊢
      generalize (Mealy.run step texts session).2 = left at hflag ⊢
      cases hmessage : message handled.raw with
      | none =>
          obtain ⟨hcalls, hsame⟩ := h.passes handled left hmessage
          rw [hcalls, hsame, List.filterMap_cons_none hmessage, List.filterMap_nil,
            List.append_nil, List.append_nil]
          exact ⟨hgated, hflag⟩
      | some value =>
          obtain ⟨hcalls, hnext⟩ := h.handles handled left value hmessage
          rw [hcalls, hnext, List.filterMap_cons_some hmessage, List.filterMap_nil]
          refine ⟨.append hgated (length_calls_le_one _ _) (mem_calls_iff hflag value), ?_⟩
          rw [flag_of, opened_append, hflag]

variable (crates : Externals) (core : ServerCore σ)

/-- The pump takes the messages out of texts. -/
theorem dispatches_handle (serde : SerdeJson) :
    Dispatches (handle serde crates core) (framedMessage serde) := by
  unfold framedMessage handle reply
  refine ⟨fun handled session hnone => ?_, fun handled session value hsome => ?_⟩
  · by_cases hblank : Text.trim handled.raw = ""
    · simp only [if_pos hblank, and_self]
    · rw [if_neg hblank] at hnone
      cases hparsed : serde.fromStr handled.raw with
      | error e =>
          simp only [if_neg hblank, and_self]
      | ok message =>
          rw [hparsed] at hnone
          cases hnone
  · by_cases hblank : Text.trim handled.raw = ""
    · rw [if_pos hblank] at hsome
      cases hsome
    · rw [if_neg hblank] at hsome
      cases hparsed : serde.fromStr handled.raw with
      | error e =>
          rw [hparsed] at hsome
          cases hsome
      | ok message =>
          rw [hparsed] at hsome
          cases hsome
          obtain ⟨-, hsession, hserves⟩ :=
            handleMessage_spec crates core value session ⟨handled.found, [], []⟩
          simp only [if_neg hblank]
          exact ⟨hserves.calls.trans (List.nil_append _),
            congrArg Session.initialized hsession⟩

/-- The websocket loop takes the messages out of texts. -/
theorem dispatches_wsHandle (serde : SerdeJson) :
    Dispatches (wsHandle serde crates core) (socketMessage serde) := by
  unfold socketMessage wsHandle
  refine ⟨fun handled session hnone => ?_, fun handled session value hsome => ?_⟩
  · cases hparsed : serde.fromStr handled.raw with
    | error e =>
        exact ⟨rfl, rfl⟩
    | ok message =>
        rw [hparsed] at hnone
        cases hnone
  · cases hparsed : serde.fromStr handled.raw with
    | error e =>
        rw [hparsed] at hsome
        cases hsome
    | ok message =>
        rw [hparsed] at hsome
        cases hsome
        obtain ⟨-, hsession, hserves⟩ :=
          handleMessage_spec crates core value session ⟨handled.found, [], []⟩
        exact ⟨hserves.calls.trans (List.nil_append _), congrArg Session.initialized hsession⟩

end Gate

section Connections

variable {σ : Type} {serde : SerdeJson} (crates : Externals) (core : ServerCore σ)

/-- The texts of the messages that were handled begin the stream. -/
theorem Served.decodes_texts {writer : Writer} {bytes : List UInt8} {ended : Bool}
    {messages : List (Handled σ)} {err : Option Error} {task : Task} {calls : List ServiceCall}
    (h : Served serde crates core writer bytes ended messages err task calls)
    (more : List UInt8) (hmore : MayFollow ended more) :
    (decodes core.config.maxContentLength.val messages.length ⟨.undecided, bytes ++ more⟩).1 =
      (messages.map Handled.raw).map .message := by
  have hdecoded := h.decoded more hmore
  rw [decodes_add, List.map_append] at hdecoded
  have hfirst := (List.append_inj hdecoded (by simp [length_decodes])).1
  refine (List.map_inj_right fun _ _ => Option.some.inj).mp (hfirst.trans ?_)
  rw [List.map_map, List.map_map]
  rfl

/--
The gate at the wire: whatever happens on other connections, the calls that are made for a
connection are those that the messages lead to in the texts that its own bytes begin with,
at most one for each and in their order; so a tool is called only for a client that has
opened its own session.
-/
theorem connections_gated (hserde : CompactJson serde)
    (hcap : core.config.maxContentLength.val < Text.usizeMax)
    (before after : List (Happening σ)) (writer : Writer) (world : World σ) :
    let n := (serving serde crates core before world).2.tasks.length
    let run := serving serde crates core (before ++ .accept writer :: after) world
    let arrived := received (arrivals n after)
    (∀ failure, Incoming.event (.fail failure) ∉ arrivals n after) →
    ∃ texts : List String, (∀ more, MayFollow arrived.2 more →
        (decodes core.config.maxContentLength.val texts.length
          ⟨.undecided, arrived.1 ++ more⟩).1 = texts.map .message) ∧
      Gated (texts.filterMap (framedMessage serde)) (Pool.putOut n run.1).flatten := by
  intro n run arrived hsound
  obtain ⟨task, messages, err, -, hserved, -⟩ :=
    served_of_accept crates core hserde hcap before after writer world hsound
  refine ⟨messages.map Handled.raw, fun more hmore => ?_, ?_⟩
  · rw [List.length_map]
    exact hserved.decodes_texts crates core more hmore
  · rw [hserved.calls]
    exact ((dispatches_handle crates core serde).gated rfl messages).1

/-- A client that opens its session and calls a tool, in two texts. -/
def openingText : String :=
  "\x7b\"method\":\"initialized\"\x7d"

def callingText : String :=
  "\x7b\"id\":1,\"method\":\"tools/call\",\"params\":\x7b\"name\":\"read\"\x7d\x7d"

/-- A serializer that parses these two texts. -/
def callingJson : SerdeJson :=
  { plainJson openingText .null with
    fromStr := fun raw =>
      if raw = openingText then .ok (.object [("method", .string "initialized")])
      else if raw = callingText then .ok readCall
      else .error "expected value at line 1 column 1" }

theorem compactJson_callingJson : CompactJson callingJson :=
  have h := compactJson_plainJson openingText .null
  ⟨h.succeeds, h.oneLine, h.braced⟩

/-- A client calls a tool after another has opened its session: it is not called. -/
theorem connections_gated_of_stranger :
    let core := saying (.ok (.text ""))
    let before : List (Happening Unit) :=
      [.accept .reliable,
        .arrive 0 (.event (.chunk (Text.asBytes (openingText ++ "\n")) (by decide))), .turn 0]
    let after : List (Happening Unit) :=
      [.arrive 1 (.event (.chunk (Text.asBytes (callingText ++ "\n")) (by decide))), .turn 1,
        .arrive 0 (.event (.chunk (Text.asBytes (callingText ++ "\n")) (by decide))), .turn 0]
    let run := serving callingJson plainCrates core (before ++ .accept .reliable :: after)
      ⟨(), [], []⟩
    (∃ texts : List String, Gated (texts.filterMap (framedMessage callingJson))
      (Pool.putOut 1 run.1).flatten) ∧
    (Pool.putOut 1 run.1).flatten = [] ∧
    run.2.shared.calls.length = 1 := by
  intro core before after run
  have hsound : ∀ failure, Incoming.event (.fail failure) ∉ arrivals 1 after := by
    intro failure hmem
    simp [after, arrivals] at hmem
  have hfirst : (serving callingJson plainCrates core before ⟨(), [], []⟩).2.tasks.length = 1 := by
    decide +kernel
  have hrun : serving callingJson plainCrates core (before ++ .accept .reliable :: after)
      ⟨(), [], []⟩ = run := rfl
  have hgated := connections_gated plainCrates core compactJson_callingJson (by decide) before
    after .reliable ⟨(), [], []⟩
  rw [hfirst, hrun] at hgated
  obtain ⟨texts, -, hcalls⟩ := hgated hsound
  have hquiet : (Pool.putOut 1 run.1).flatten = [] := by
    decide +kernel
  have hmade : run.2.shared.calls.length = 1 := by
    decide +kernel
  exact ⟨⟨texts, hcalls⟩, hquiet, hmade⟩

end Connections

section Sockets

variable {φ σ : Type} {serde : SerdeJson} (crates : Externals) (sockets : Sockets φ)
  {state : WsState σ}

/--
Calls are vetted: a websocket server that a chain of builder calls configures calls the
service only for a request that was upgraded, one that carried an accepted token if a
strategy is set, and only as the messages lead to in the texts, none larger than the cap,
that this connection heard before it ended.
-/
theorem calls_vetted (hserde : CompactJson serde) {features : Startup.Features}
    {fetch : String → Discovery} {name version : String} {builders : List Startup.Builder}
    {service : Service σ}
    (hstate : wsState features fetch (Startup.built name version builders) service = .ok state)
    (happenings : List (WsHappening φ σ)) (world : World σ) :
    let run := wsServing serde crates sockets state happenings world
    let maxMessageSize := Startup.lastMaxContentLength builders
    ∀ n calls, some (n, calls) ∈ run.1 →
    ∃ before libraries headers faults after,
      happenings = before ++ .request libraries headers faults :: after ∧
      (wsServing serde crates sockets state before world).2.tasks.length = n ∧
      wsHandler state libraries headers = .upgrade maxMessageSize ∧
      (Startup.lastAuth builders ≠ .none → ∀ signed, libraries.Documented signed →
        Admits fetch builders signed headers) ∧
      ∃ texts : List String, texts <+: heard sockets maxMessageSize (wsFrames n after) ∧
        (sockets.Documented → ∀ text ∈ texts,
          (Text.asBytes text).length ≤ maxMessageSize.val) ∧
        Gated (texts.filterMap (socketMessage serde)) (Pool.putOut n run.1).flatten := by
  intro run maxMessageSize n calls hmem
  obtain ⟨before, libraries, headers, faults, after, cap, rfl, rfl, hupgrade⟩ :=
    exists_request crates (lt_of_mem_outs crates hmem)
  have hcap : cap = maxMessageSize := by
    rw [wsHandler_upgrade state hupgrade, maxContentLength_wsState hstate]
  subst hcap
  refine ⟨before, libraries, headers, faults, after, rfl, rfl, hupgrade,
    fun hauth signed hlibraries => (upgrade_iff hstate hauth hlibraries headers).mp hupgrade, ?_⟩
  obtain ⟨task, messages, -, hserved, -, -⟩ := served_of_upgrade crates sockets state hserde
    before after [] libraries headers faults maxMessageSize hupgrade world
  rw [List.append_nil] at hserved
  refine ⟨messages.map Handled.raw, hserved.heard,
    fun hsockets text hmem => fits_of_heard hsockets (hserved.heard.subset hmem), ?_⟩
  rw [hserved.calls]
  exact ((dispatches_wsHandle crates state.core serde).gated rfl messages).1

/-- Whether a turn of the first connection made a call. -/
def calledForFirst : Option (Nat × List ServiceCall) → Bool
  | some (0, [_]) => true
  | _ => false

/-- A client with a token opens its session and calls a tool. -/
theorem calls_vetted_of_token :
    let payload : Payload := ⟨some 4102444800, none, some ["mcp"]⟩
    let builders : List Startup.Builder :=
      [.withWebsocket, .websocketAuth (.secret "s3cr3t"), .maxContentLength 80]
    let features : Startup.Features := ⟨true, true, true, fun _ => rfl⟩
    let service := (saying (.ok (.text ""))).service
    let state : WsState Unit :=
      ⟨⟨(Startup.built "server" "1.0" builders).toServerConfig, service⟩,
        some ⟨.secret "s3cr3t" (secretValidation ⟨none, none⟩)⟩⟩
    let headers : HeaderMap := [("authorization", Text.asBytes "bearer token")]
    let happenings : List (WsHappening Message Unit) :=
      [.request (cratesFor payload) [] [], .request (cratesFor payload) headers [],
        .arrive 0 (some (.text openingText)), .arrive 0 (some (.text callingText)), .turn 0,
        .turn 0]
    let run := wsServing callingJson plainCrates unfragmented state happenings ⟨(), [], []⟩
    wsState features (fun _ => .failed "404") (Startup.built "server" "1.0" builders) service =
        .ok state ∧
      run.1.any calledForFirst = true ∧
      ∃ before libraries headers faults after,
        happenings = before ++ .request libraries headers faults :: after ∧
        wsHandler state libraries headers = .upgrade 80 ∧
        ∃ texts : List String, texts <+: heard unfragmented 80 (wsFrames 0 after) ∧
          (∀ text ∈ texts, (Text.asBytes text).length ≤ 80) ∧
          Gated (texts.filterMap (socketMessage callingJson)) (Pool.putOut 0 run.1).flatten := by
  intro payload builders features service state headers happenings run
  have hstate : wsState features (fun _ => .failed "404")
      (Startup.built "server" "1.0" builders) service = .ok state := rfl
  have hany : run.1.any calledForFirst = true := by
    decide +kernel
  obtain ⟨calls, hmem⟩ : ∃ calls, some (0, calls) ∈ run.1 := by
    obtain ⟨out, hmem, hcalled⟩ := List.any_eq_true.mp hany
    unfold calledForFirst at hcalled
    split at hcalled
    · exact ⟨_, hmem⟩
    · cases hcalled
  obtain ⟨before, libraries, headers, faults, after, hsplit, -, hupgrade, -, texts, hheard, hfits,
    hgated⟩ := calls_vetted plainCrates unfragmented compactJson_callingJson hstate happenings
      ⟨(), [], []⟩ 0 calls hmem
  exact ⟨hstate, hany, before, libraries, headers, faults, after, hsplit, hupgrade, texts, hheard,
    hfits documented_unfragmented, hgated⟩

end Sockets

end Runner
end McpCore
