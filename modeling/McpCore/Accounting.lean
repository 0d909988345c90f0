import McpCore.Emissions
import Mathlib.Data.List.Dedup
import Mathlib.Data.List.Forall2
import Mathlib.Data.List.Perm.Subperm

/-!
# Request accounting

Every message that is handled counts once in `mcp.requests` and once in
`mcp.request.duration`, under one `method` label.  A caller chooses the names of
methods, but not which labels there are: a method the server does not implement
counts under `other`, and what names no method under `invalid`.

A `Turn` is one message that is handled, the session that handles it and the state
in which it finds the service, so that a run may come from any number of sessions.
-/

namespace McpCore
namespace Server

open Value

section Methods

/-- The methods the dispatch has an arm for. -/
def implementedMethods : List String :=
  ["initialize", "notifications/initialized", "initialized", "ping", "tools/list",
    "tools/call", "shutdown"]

/-- The `method` labels there are. -/
def methodLabels : List String :=
  implementedMethods ++ [methodInvalid, methodOther]

variable {σ : Type} (crates : Externals) (core : ServerCore σ)

/-- Whatever an accepted message for this method is answered with, it is not
`METHOD_NOT_FOUND`. -/
def Implements (method : String) : Prop :=
  ∀ (message : Value) (session : Session) (world : World σ) (response : Value),
    AcceptedFor method message →
    (handleMessage crates core message session world).1.response = some response →
    (response.get "error").bind (Value.get "code") ≠ some (.number (.int Code.methodNotFound))

theorem ofMethod_of_not_implemented
    {method : String} (hmethod : method ∉ implementedMethods) (params : Value) :
    Request.ofMethod (some method) params = .unknown method := by
  unfold Request.ofMethod
  split
  all_goals simp_all [implementedMethods]

theorem ofMethod_of_implemented
    {method : String} (hmethod : method ∈ implementedMethods) (params : Value) (unknown : String) :
    Request.ofMethod (some method) params ≠ .unknown unknown := by
  simp only [implementedMethods, List.mem_cons, List.not_mem_nil, or_false] at hmethod
  rcases hmethod with rfl | rfl | rfl | rfl | rfl | rfl | rfl
  all_goals simp [Request.ofMethod]

theorem get_code_errorResponse (id : Option Value) (code : Int) (message : String) :
    ((errorResponse id code message).get "error").bind (Value.get "code") =
      some (.number (.int code)) := by
  simp [errorResponse, get_obj, List.lookup_cons]

theorem get_code_of_finish
    {isRequest : Bool} {id : Option Value} {code : Int} {message : String}
    {notifications : List Value} {response : Value}
    (hresponse :
      (finish isRequest id (.error code message) notifications).response = some response) :
    (response.get "error").bind (Value.get "code") = some (.number (.int code)) := by
  cases isRequest with
  | false =>
      cases hresponse
  | true =>
      cases hresponse
      exact get_code_errorResponse id code message

/-- Only an unknown method comes to `METHOD_NOT_FOUND`. -/
theorem code_ne_methodNotFound
    {flag : Bool} {before : σ} {request : Request} {code : Int} {message : String}
    (hknown : ∀ method, request ≠ .unknown method)
    (houtcome : (request.outcome core flag before).1 = .error code message) :
    code ≠ Code.methodNotFound := by
  cases request with
  | unknown method =>
      exact absurd rfl (hknown method)
  | callTool name arguments =>
      cases flag with
      | false =>
          cases houtcome
          decide
      | true =>
          cases name with
          | none =>
              cases houtcome
              decide
          | some name =>
              simp only [Request.outcome, if_true] at houtcome
              cases hresult : (core.service.callTool name arguments before).1 with
              | ok reply =>
                  simp [hresult, callOutcome] at houtcome
              | error error =>
                  cases error with
                  | internal text =>
                      simp only [hresult, callOutcome, Outcome.error.injEq] at houtcome
                      rw [← houtcome.1]
                      decide
                  | _ =>
                      simp [hresult, callOutcome] at houtcome
  | listTools =>
      cases flag with
      | false =>
          cases houtcome
          decide
      | true =>
          simp [Request.outcome] at houtcome
  | notObject isArray =>
      cases houtcome
      decide
  | badVersion version =>
      cases houtcome
      decide
  | noMethod =>
      cases houtcome
      decide
  | _ =>
      simp [Request.outcome] at houtcome

/-- The methods that are implemented are those with an arm. -/
theorem implements_iff (service : σ) (method : String) :
    Implements crates core method ↔ method ∈ implementedMethods := by
  constructor
  · intro himplements
    by_contra hmethod
    -- a request for the method is answered, and with the code
    let message := obj [("id", .null), ("method", .string method)]
    have haccepted : AcceptedFor method message := by
      refine ⟨⟨rfl, ?_⟩, ?_⟩
      · simp [message, get_obj, List.lookup_cons]
      · simp [message, get_obj]
    have hid : message.get "id" = some .null := by
      simp [message, get_obj, List.lookup_cons]
    have hof : Request.of message = .unknown method := by
      rw [of_accepted haccepted.1, (acceptedFor_iff haccepted.1).mp haccepted,
        ofMethod_of_not_implemented hmethod]
    obtain ⟨hdispatch, -, -⟩ :=
      handleMessage_spec crates core message .new ⟨service, [], []⟩
    rw [hof, hid] at hdispatch
    refine himplements message .new ⟨service, [], []⟩
      (errorResponse (some .null) Code.methodNotFound s!"method not found: {method}") haccepted ?_
      (get_code_errorResponse _ _ _)
    rw [hdispatch]
    rfl
  · intro hmethod message session world response haccepted hresponse hcode
    obtain ⟨hdispatch, -, -⟩ := handleMessage_spec crates core message session world
    rw [hdispatch, Request.dispatch] at hresponse
    have herror : (response.get "error").isSome = true := by
      cases h : response.get "error" with
      | none =>
          simp [h] at hcode
      | some error =>
          rfl
    obtain ⟨code, text, houtcome⟩ := outcome_of_error hresponse (.inl herror)
    have hknown : ∀ unknown, Request.of message ≠ .unknown unknown := by
      intro unknown
      rw [of_accepted haccepted.1, (acceptedFor_iff haccepted.1).mp haccepted]
      exact ofMethod_of_implemented hmethod _ unknown
    refine code_ne_methodNotFound core hknown houtcome ?_
    rw [houtcome] at hresponse
    rw [get_code_of_finish hresponse] at hcode
    simpa using hcode

end Methods

section Label

variable {σ : Type} (crates : Externals) (core : ServerCore σ)

/-- The label a message counts under. -/
structure CountsAs (message : Value) (label : String) : Prop where
  implemented : ∀ method, AcceptedFor method message → Implements crates core method →
    label = method
  unimplemented : ∀ method, AcceptedFor method message → ¬ Implements crates core method →
    label = methodOther
  invalid : (∀ method, ¬ AcceptedFor method message) → label = methodInvalid

theorem label_ofMethod_of_implemented
    {method : String} (hmethod : method ∈ implementedMethods) (params : Value) :
    (Request.ofMethod (some method) params).label (some method) = method := by
  simp only [implementedMethods, List.mem_cons, List.not_mem_nil, or_false] at hmethod
  rcases hmethod with rfl | rfl | rfl | rfl | rfl | rfl | rfl
  all_goals rfl

theorem methodLabel_of_acceptedFor
    {method : String} {message : Value} (haccepted : AcceptedFor method message) :
    methodLabel message = if method ∈ implementedMethods then method else methodOther := by
  rw [methodLabel, of_accepted haccepted.1, (acceptedFor_iff haccepted.1).mp haccepted]
  by_cases hmethod : method ∈ implementedMethods
  · rw [if_pos hmethod, label_ofMethod_of_implemented hmethod]
  · rw [if_neg hmethod, ofMethod_of_not_implemented hmethod]
    rfl

theorem methodLabel_of_not_acceptedFor
    {message : Value} (haccepted : ∀ method, ¬ AcceptedFor method message) :
    methodLabel message = methodInvalid := by
  by_cases h : Accepted message
  · have hnone : (message.get "method").bind asStr = none := by
      cases hmethod : (message.get "method").bind asStr with
      | none =>
          rfl
      | some method =>
          exact absurd ((acceptedFor_iff h).mpr hmethod) (haccepted method)
    rw [methodLabel, of_accepted h, hnone]
    rfl
  · rcases of_not_accepted h with ⟨_, _, hof⟩ | ⟨_, _, hof⟩
    · rw [methodLabel, hof]
      rfl
    · rw [methodLabel, hof]
      rfl

theorem countsAs_methodLabel (service : σ) (message : Value) :
    CountsAs crates core message (methodLabel message) where
  implemented method haccepted himplements := by
    rw [methodLabel_of_acceptedFor haccepted,
      if_pos ((implements_iff crates core service method).mp himplements)]
  unimplemented method haccepted himplements := by
    rw [methodLabel_of_acceptedFor haccepted,
      if_neg fun h => himplements ((implements_iff crates core service method).mpr h)]
  invalid := methodLabel_of_not_acceptedFor

/-- Whatever a caller sends, its label is one of the fixed ones. -/
theorem methodLabel_mem (message : Value) :
    methodLabel message ∈ methodLabels := by
  by_cases haccepted : ∃ method, AcceptedFor method message
  · obtain ⟨method, haccepted⟩ := haccepted
    rw [methodLabel_of_acceptedFor haccepted]
    split
    · exact List.mem_append_left _ ‹_›
    · exact List.mem_append_right _ (by simp)
  · rw [methodLabel_of_not_acceptedFor fun method h => haccepted ⟨method, h⟩]
    exact List.mem_append_right _ (by simp)

end Label

section Counted

/-- The labels of a metric of requests. -/
def requestLabels : Signal → Option (List (String × String))
  | .increment name labels => if name = "mcp.requests" then some labels else none
  | .duration name labels => if name = "mcp.request.duration" then some labels else none
  | _ => none

/-- One increment and one duration under this label, and no others. -/
def CountedUnder (label : String) (made : List Signal) : Prop :=
  (made.filter fun signal => (requestLabels signal).isSome) =
    [.increment "mcp.requests" [("method", label)],
      .duration "mcp.request.duration" [("method", label)]]

variable {σ : Type} (crates : Externals) (core : ServerCore σ)

/-- No signal of these is a metric of requests. -/
abbrev Uncounted (made : List Signal) : Prop :=
  ∀ signal ∈ made, requestLabels signal = none

theorem uncounted_rejectedTrace (message : Value) :
    Uncounted (rejectedTrace crates message) := by
  unfold rejectedTrace
  split
  · simp [Uncounted]
  · split
    · simp [Uncounted]
    · simp [Uncounted, requestLabels]

theorem uncounted_joinedTrace (message : Value) :
    Uncounted (joinedTrace crates message) := by
  unfold joinedTrace
  split
  · simp [Uncounted]
  · split
    · simp [Uncounted]
    · split
      · simp [Uncounted, requestLabels]
      · simp [Uncounted, requestLabels]

theorem uncounted_callEvents (result : Except CallError ToolReply) :
    Uncounted (callEvents crates result) := by
  cases result with
  | ok reply =>
      simp [Uncounted, callEvents]
  | error error =>
      cases error with
      | _ message =>
          simp [Uncounted, callEvents, requestLabels]

/-- The metrics of tool calls are others. -/
theorem uncounted_signals (flag : Bool) (before : σ) (request : Request) :
    Uncounted (request.signals crates core flag before) := by
  unfold Request.signals
  split
  · split
    · intro signal hmem
      rcases List.mem_append.mp hmem with hmem | hmem
      · simp only [List.mem_cons, List.not_mem_nil, or_false] at hmem
        rcases hmem with rfl | rfl | rfl | rfl
        all_goals simp [requestLabels]
      · exact uncounted_callEvents crates _ signal hmem
    · simp [Uncounted]
  · simp [Uncounted]

/-- Handling a message counts it once, under its label. -/
theorem countedUnder_emitted (message : Value) (session : Session) (before : σ) :
    CountedUnder (methodLabel message) (emitted crates core message session before) := by
  have hnone : ∀ made, Uncounted made →
      (made.filter fun signal => (requestLabels signal).isSome) = [] := by
    intro made hmade
    rw [List.filter_eq_nil_iff]
    intro signal hmem
    rw [hmade signal hmem]
    simp
  simp only [CountedUnder, emitted, List.filter_append, List.filter_cons,
    hnone _ (uncounted_rejectedTrace crates message),
    hnone _ (uncounted_joinedTrace crates message),
    hnone _ (uncounted_signals crates core _ _ _)]
  simp [requestSpan, requestCounters, requestLabels]

end Counted

section Run

variable {σ : Type}

/-- One message that is handled: by which session, and in what state it finds the
service. -/
structure Turn (σ : Type) where
  session : Session
  message : Value
  found : σ

variable (crates : Externals) (core : ServerCore σ)

/-- A message is handled; what it adds to the telemetry is put out. -/
def takeTurn (turn : Turn σ) (world : World σ) : List Signal × World σ :=
  let world := { world with service := turn.found }
  let (_, _, left) := handleMessage crates core turn.message turn.session world
  (left.signals.drop world.signals.length, left)

/-- A turn puts out what handling its message emits. -/
theorem takeTurn_spec (turn : Turn σ) (world : World σ) :
    (takeTurn crates core turn world).1 =
      emitted crates core turn.message turn.session turn.found ∧
    (takeTurn crates core turn world).2.signals =
      world.signals ++ (takeTurn crates core turn world).1 := by
  have hsignals := handleMessage_signals crates core turn.message turn.session
    { world with service := turn.found }
  simp only [takeTurn, hsignals, List.drop_left, and_self]

/-- Nothing is emitted but in turns. -/
theorem run_takeTurn_signals (turns : List (Turn σ)) (world : World σ) :
    (Mealy.run (takeTurn crates core) turns world).2.signals =
      world.signals ++ (Mealy.run (takeTurn crates core) turns world).1.flatten := by
  induction turns generalizing world with
  | nil =>
      simp
  | cons turn turns ih =>
      obtain ⟨-, hsignals⟩ := takeTurn_spec crates core turn world
      rw [Mealy.run_cons_snd, Mealy.run_cons_fst, ih, hsignals, List.flatten_cons,
        List.append_assoc]

/-- What every turn puts out, seen by itself. -/
theorem run_takeTurn (turns : List (Turn σ)) (world : World σ) :
    (Mealy.run (takeTurn crates core) turns world).1 =
      turns.map fun turn => emitted crates core turn.message turn.session turn.found := by
  have houtputs := Mealy.run_map_fst (takeTurn crates core) id
    (fun turn => emitted crates core turn.message turn.session turn.found)
    (fun turn world => (takeTurn_spec crates core turn world).1) turns world
  simpa using houtputs

/-- The label sets of the metrics of requests among these. -/
def requestSeries (made : List Signal) : List (List (String × String)) :=
  made.filterMap requestLabels

theorem requestSeries_of_countedUnder {label : String} {made : List Signal}
    (hcounted : CountedUnder label made) :
    requestSeries made = [[("method", label)], [("method", label)]] := by
  have hfilter : requestSeries made =
      (made.filter fun signal => (requestLabels signal).isSome).filterMap requestLabels := by
    rw [requestSeries, List.filterMap_filter]
    refine List.filterMap_congr fun signal _ => ?_
    cases requestLabels signal with
    | none => rfl
    | some labels => rfl
  rw [hfilter, hcounted]
  simp [requestLabels]

/-- A run of turns records no labels but the fixed ones. -/
theorem mem_requestSeries (turns : List (Turn σ)) :
    ∀ labels ∈ requestSeries
        (turns.map fun turn => emitted crates core turn.message turn.session turn.found).flatten,
      labels ∈ methodLabels.map fun label => [("method", label)] := by
  induction turns with
  | nil =>
      simp [requestSeries]
  | cons turn turns ih =>
      intro labels hmem
      rw [List.map_cons, List.flatten_cons, requestSeries, List.filterMap_append,
        List.mem_append] at hmem
      rcases hmem with hmem | hmem
      · have hcounted := countedUnder_emitted crates core turn.message turn.session turn.found
        rw [← requestSeries, requestSeries_of_countedUnder hcounted] at hmem
        have hlabels : labels = [("method", methodLabel turn.message)] := by
          simpa using hmem
        rw [hlabels]
        exact List.mem_map_of_mem (methodLabel_mem turn.message)
      · exact ih labels hmem

/--
Requests are accounted for: in every run each message counts exactly once in
`mcp.requests` and once in `mcp.request.duration`, under one label, which is its
method where the server implements that, `other` for any other method it names and
`invalid` where it names none; whatever the messages, the labels recorded are among
the implemented methods and these two, so there are no more of them than that.
-/
theorem requests_accounted (turns : List (Turn σ)) (world : World σ) :
    let made := (Mealy.run (takeTurn crates core) turns world).1
    let left := (Mealy.run (takeTurn crates core) turns world).2
    left.signals = world.signals ++ made.flatten ∧
    List.Forall₂ (fun turn made => ∃ label,
      CountsAs crates core turn.message label ∧ CountedUnder label made) turns made ∧
    (∀ method, method ∈ implementedMethods ↔ Implements crates core method) ∧
    (∀ labels ∈ requestSeries made.flatten, ∃ label,
      labels = [("method", label)] ∧ label ∈ implementedMethods ++ ["invalid", "other"]) ∧
    (requestSeries made.flatten).dedup.length ≤ implementedMethods.length + 2 := by
  intro made left
  have hmade : made =
      turns.map fun turn => emitted crates core turn.message turn.session turn.found :=
    run_takeTurn crates core turns world
  have hmem := mem_requestSeries crates core turns
  rw [← hmade] at hmem
  refine ⟨run_takeTurn_signals crates core turns world, ?_, fun method => ?_, ?_, ?_⟩
  · rw [hmade, List.forall₂_map_right_iff, List.forall₂_same]
    intro turn _
    exact ⟨methodLabel turn.message, countsAs_methodLabel crates core turn.found turn.message,
      countedUnder_emitted crates core turn.message turn.session turn.found⟩
  · exact (implements_iff crates core world.service method).symm
  · intro labels hlabels
    obtain ⟨label, hlabel, rfl⟩ := List.mem_map.mp (hmem labels hlabels)
    exact ⟨label, rfl, hlabel⟩
  · have hsubperm : (requestSeries made.flatten).dedup.Subperm
        (methodLabels.map fun label => [("method", label)]) :=
      (List.nodup_dedup _).subperm fun labels hlabels =>
        hmem labels (List.mem_dedup.mp hlabels)
    have hlength := hsubperm.length_le
    rwa [List.length_map] at hlength

end Run

end Server
end McpCore
