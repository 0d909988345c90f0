import McpCore.Handshake

/-!
# Replies

Which messages are answered, and with what.

* `replies_correlated`: a response carries its message's id and exactly one of
  `result` and `error`; a notification gets none; and what is sent without being
  asked for is one `tools/list_changed` after a tool call that wants it.
* `requests_answered`: what is answered are the payloads that are no objects, and
  the objects with an id but the accepted `initialized` ones, which are never
  answered.
-/

namespace McpCore
namespace Server

open Value

variable {σ ι : Type}

section Correlated

/-- The answer to a message, given the calls made for it, is as JSON-RPC asks. -/
structure WellAnswered (core : ServerCore σ) (arrival : Arrival ι σ)
    (made : List ServiceCall) (dispatch : Dispatch) : Prop where
  silent : arrival.message.isObject = true → arrival.message.get "id" = none →
    dispatch.response = none
  correlated : ∀ response, dispatch.response = some response →
    response.isObject = true ∧ response.get "jsonrpc" = some (.string "2.0") ∧
    response.get "id" =
      (if arrival.message.isObject then arrival.message.get "id" else some .null) ∧
    ((response.get "result").isSome = true ∧ response.get "error" = none ∨
      response.get "result" = none ∧ (response.get "error").isSome = true)
  notified : ∀ notification ∈ dispatch.notifications,
    notification.isObject = true ∧ notification.get "id" = none ∧
    ∃ name arguments reply, CallsTool name arguments arrival.message ∧
      .callTool name arguments ∈ made ∧
      (core.service.callTool name arguments arrival.found).1 = .ok reply ∧
      reply.toolsListChanged = true
  atMostOne : dispatch.notifications.length ≤ 1

/-- A response to this id. -/
structure RespondsTo (id : Option Value) (response : Value) : Prop where
  isObject : response.isObject = true
  jsonrpc : response.get "jsonrpc" = some (.string "2.0")
  id : response.get "id" = some (id.getD .null)
  exactlyOne : (response.get "result").isSome = true ∧ response.get "error" = none ∨
    response.get "result" = none ∧ (response.get "error").isSome = true

theorem respondsTo_successResponse (id : Option Value) (result : Value) :
    RespondsTo id (successResponse id result) := by
  constructor
  · rfl
  · simp [successResponse, get_obj, List.lookup_cons]
  · simp [successResponse, get_obj, List.lookup_cons]
  · refine Or.inl ⟨?_, get_error_successResponse id result⟩
    simp [successResponse, get_obj]

theorem respondsTo_errorResponse (id : Option Value) (code : Int) (message : String) :
    RespondsTo id (errorResponse id code message) := by
  constructor
  · rfl
  · simp [errorResponse, get_obj, List.lookup_cons]
  · simp [errorResponse, get_obj, List.lookup_cons]
  · refine Or.inr ⟨?_, ?_⟩
    · simp [errorResponse, get_obj, List.lookup_cons]
    · simp [errorResponse, get_obj]

/-- Whatever the outcome, a response goes to the id of its request. -/
theorem respondsTo_finish {id : Option Value} {outcome : Outcome}
    {notifications : List Value} {response : Value}
    (hresponse : (finish id.isSome id outcome notifications).response = some response) :
    id.isSome = true ∧ RespondsTo id response := by
  cases outcome with
  | result result =>
      simp only [finish] at hresponse
      split at hresponse
      · cases hresponse
        exact ⟨‹_›, respondsTo_successResponse id result⟩
      · cases hresponse
  | error code message =>
      simp only [finish] at hresponse
      split at hresponse
      · cases hresponse
        exact ⟨‹_›, respondsTo_errorResponse id code message⟩
      · cases hresponse
  | none =>
      simp [finish] at hresponse

/-- Notifications come of a tool call whose reply wants one. -/
theorem notifications_outcome {core : ServerCore σ} {flag : Bool} {before : σ}
    {request : Request} (hsome : (request.outcome core flag before).2 ≠ []) :
    (request.outcome core flag before).2 = [toolsListChangedNotification] ∧
    ∃ name arguments reply, .callTool name arguments ∈ request.calls flag ∧
      (core.service.callTool name arguments before).1 = .ok reply ∧
      reply.toolsListChanged = true := by
  cases request with
  | callTool name arguments =>
      cases flag with
      | false => simp [Request.outcome] at hsome
      | true =>
          cases name with
          | none => simp [Request.outcome] at hsome
          | some name =>
              simp only [Request.outcome, if_true] at hsome ⊢
              cases hresult : (core.service.callTool name arguments before).1 with
              | error error => cases error <;> simp [hresult, callOutcome] at hsome
              | ok reply =>
                  have hchanged : reply.toolsListChanged = true := by
                    by_contra hnot
                    simp [hresult, callOutcome, hnot] at hsome
                  refine ⟨by simp [callOutcome, hchanged], name, arguments, reply, ?_, hresult,
                    hchanged⟩
                  simp [Request.calls]
  | listTools => cases flag <;> simp [Request.outcome] at hsome
  | _ => simp [Request.outcome] at hsome

theorem isObject_of (message : Value) :
    (Request.of message).isObject = message.isObject := by
  by_cases haccepted : Accepted message
  · rw [of_accepted haccepted, haccepted.1]
    unfold Request.ofMethod
    split <;> rfl
  · rcases of_not_accepted haccepted with ⟨_, hobject, hof⟩ | ⟨_, hobject, hof⟩
    · rw [hof, hobject]
      rfl
    · rw [hof, hobject]
      rfl

variable [DecidableEq ι] (crates : Externals) (core : ServerCore σ)

/--
Replies are correlated and well formed, and notifications are never answered,
whatever was handled before and by whichever session.
-/
theorem replies_correlated
    (start : Hub ι σ) (history : List (Arrival ι σ)) (arrival : Arrival ι σ) :
    let hub := hubAfter crates core history start
    let left := arrive crates core arrival hub
    ∃ made, left.2.world.calls = hub.world.calls ++ made ∧
      WellAnswered core arrival made left.1 := by
  intro hub left
  obtain ⟨hdispatch, -, hcalls⟩ := arrive_spec crates core arrival hub
  refine ⟨_, hcalls, ?_⟩
  rw [show left.1 = _ from hdispatch]
  generalize (hub.sessions arrival.session).initialized = flag
  have hobject := isObject_of arrival.message
  constructor
  · intro hisObject hid
    simp only [Request.dispatch, hobject, hisObject, if_true, hid, finish]
    split <;> rfl
  · intro response hresponse
    obtain ⟨hid, hresponds⟩ := respondsTo_finish hresponse
    refine ⟨hresponds.isObject, hresponds.jsonrpc, ?_, hresponds.exactlyOne⟩
    rw [hresponds.id]
    rw [hobject] at hid ⊢
    cases hisObject : arrival.message.isObject with
    | false => rfl
    | true =>
        simp only [hisObject, if_true] at hid ⊢
        obtain ⟨id, hsome⟩ := Option.isSome_iff_exists.mp hid
        simp [hsome]
  · intro notification hmem
    obtain ⟨hone, name, arguments, reply, hcall, hreply⟩ :=
      notifications_outcome (List.ne_nil_of_mem hmem)
    rw [show ((Request.of arrival.message).dispatch core flag arrival.found
      (arrival.message.get "id")).notifications = _ from hone] at hmem
    cases List.mem_singleton.mp hmem
    refine ⟨rfl, by simp [toolsListChangedNotification, get_obj, List.lookup_cons], name,
      arguments, reply, (callTool_mem_calls.mp hcall).2, hcall, hreply⟩
  · by_cases hsome : ((Request.of arrival.message).outcome core flag arrival.found).2 = []
    · simp [Request.dispatch, finish, hsome]
    · simp [Request.dispatch, finish, (notifications_outcome hsome).1]

end Correlated

section Answered

/-- An accepted `initialized` message: nothing is to be said to it. -/
def IsNoOp (message : Value) : Prop :=
  AcceptedFor "notifications/initialized" message ∨ AcceptedFor "initialized" message

/-- An object with an `id` member. -/
def IsRequest (message : Value) : Prop :=
  message.isObject = true ∧ (message.get "id").isSome = true

instance (message : Value) : Decidable (Accepted message) :=
  decidable_of_iff
    (message.isObject = true ∧ ((message.get "jsonrpc").bind asStr).all (· == "2.0") = true)
    (by simp [Accepted, Option.all_eq_true, bind_asStr])

instance (method : String) (message : Value) : Decidable (AcceptedFor method message) :=
  decidable_of_iff (Accepted message ∧ (message.get "method").bind asStr = some method)
    (by rw [AcceptedFor, bind_asStr])

instance (message : Value) : Decidable (IsNoOp message) :=
  inferInstanceAs (Decidable (_ ∨ _))

instance (message : Value) : Decidable (IsRequest message) :=
  inferInstanceAs (Decidable (_ ∧ _))

theorem callOutcome_ne_none (result : Except CallError ToolReply) :
    (callOutcome result).1 ≠ .none := by
  cases result with
  | ok reply => simp [callOutcome]
  | error error => cases error <;> simp [callOutcome]

/-- No outcome but the no-op's is nothing. -/
theorem outcome_eq_none_iff {core : ServerCore σ} {flag : Bool} {before : σ}
    {request : Request} :
    (request.outcome core flag before).1 = .none ↔ request = .initialized := by
  cases request with
  | callTool name arguments =>
      cases flag with
      | false => simp [Request.outcome]
      | true => cases name <;> simp [Request.outcome, callOutcome_ne_none]
  | listTools => cases flag <;> simp [Request.outcome]
  | _ => simp [Request.outcome]

theorem of_eq_initialized_iff (message : Value) :
    Request.of message = .initialized ↔ IsNoOp message := by
  by_cases haccepted : Accepted message
  · rw [IsNoOp, acceptedFor_iff haccepted, acceptedFor_iff haccepted, of_accepted haccepted]
    generalize (message.get "method").bind asStr = method
    unfold Request.ofMethod
    split <;> simp_all
  · have hnone : ∀ method, ¬ AcceptedFor method message := fun _ h => haccepted h.1
    rcases of_not_accepted haccepted with ⟨_, _, hof⟩ | ⟨_, _, hof⟩
    · simp [hof, IsNoOp, hnone]
    · simp [hof, IsNoOp, hnone]

theorem isSome_response_finish {id : Option Value} {outcome : Outcome}
    {notifications : List Value} :
    (finish id.isSome id outcome notifications).response.isSome = true ↔
      id.isSome = true ∧ outcome ≠ .none := by
  cases outcome <;> cases id <;> simp [finish]

theorem countP_or_of_disjoint {α : Type} {p q : α → Bool}
    (hdisjoint : ∀ a, p a = true → q a = false) (as : List α) :
    as.countP (fun a => p a || q a) = as.countP p + as.countP q := by
  induction as with
  | nil =>
      rfl
  | cons a as ih =>
      cases hp : p a with
      | false =>
          simp only [List.countP_cons, hp, Bool.false_or, ih]
          simp only [Bool.false_eq_true, if_false]
          omega
      | true =>
          simp only [List.countP_cons, hp, hdisjoint a hp, ih]
          simp only [Bool.true_or, Bool.false_eq_true, if_true, if_false]
          omega

variable [DecidableEq ι] (crates : Externals) (core : ServerCore σ)

/-- Answered are what is no object, and requests but for the no-op. -/
theorem isSome_response_iff (arrival : Arrival ι σ) (hub : Hub ι σ) :
    (arrive crates core arrival hub).1.response.isSome = true ↔
      arrival.message.isObject = false ∨
        IsRequest arrival.message ∧ ¬ IsNoOp arrival.message := by
  obtain ⟨hdispatch, -, -⟩ := arrive_spec crates core arrival hub
  rw [hdispatch, Request.dispatch, isSome_response_finish, Ne, outcome_eq_none_iff,
    of_eq_initialized_iff, isObject_of, IsRequest]
  cases hobject : arrival.message.isObject with
  | false =>
      have hnoop : ¬ IsNoOp arrival.message := by
        rintro (h | h)
        · simp [h.1.1] at hobject
        · simp [h.1.1] at hobject
      simp [hnoop]
  | true =>
      simp

/--
Every request but an accepted `initialized` message is answered, whatever else it
holds; and in every run as many responses are given as payloads that are no
objects and such requests were handled.
-/
theorem requests_answered (start : Hub ι σ) (history : List (Arrival ι σ)) :
    (∀ arrival : Arrival ι σ, IsRequest arrival.message → ¬ IsNoOp arrival.message →
      (arrive crates core arrival
        (hubAfter crates core history start)).1.response.isSome = true) ∧
    ((Mealy.run (arrive crates core) history start).1.filterMap Dispatch.response).length =
      history.countP (fun arrival => !arrival.message.isObject) +
      history.countP (fun arrival =>
        IsRequest arrival.message ∧ ¬ IsNoOp arrival.message) := by
  refine ⟨?_, ?_⟩
  · intro arrival hrequest hnoop
    exact (isSome_response_iff crates core arrival _).mpr (Or.inr ⟨hrequest, hnoop⟩)
  · have hseen := Mealy.run_map_fst (arrive crates core)
      (fun dispatch => dispatch.response.isSome)
      (fun arrival => !arrival.message.isObject ||
        decide (IsRequest arrival.message ∧ ¬ IsNoOp arrival.message))
      (fun arrival hub => by
        rw [Bool.eq_iff_iff, isSome_response_iff]
        simp) history start
    have hdisjoint : ∀ arrival : Arrival ι σ, (!arrival.message.isObject) = true →
        decide (IsRequest arrival.message ∧ ¬ IsNoOp arrival.message) = false := by
      intro arrival hobject
      simp only [Bool.not_eq_true'] at hobject
      simp [IsRequest, hobject]
    calc ((Mealy.run (arrive crates core) history start).1.filterMap Dispatch.response).length
        = ((Mealy.run (arrive crates core) history start).1.map
            fun dispatch => dispatch.response.isSome).countP id := by
          rw [List.length_filterMap_eq_countP, List.countP_map]
          rfl
      _ = history.countP fun arrival => !arrival.message.isObject ||
            decide (IsRequest arrival.message ∧ ¬ IsNoOp arrival.message) := by
          rw [hseen, List.countP_map]
          rfl
      _ = _ := countP_or_of_disjoint hdisjoint history

/-- A request of the method `initialized` is not answered. -/
theorem requests_not_all_answered :
    ¬ ∀ (σ : Type) (crates : Externals) (core : ServerCore σ) (message : Value)
        (session : Session) (world : World σ),
        message.isObject = true → (message.get "id").isSome = true →
        (handleMessage crates core message session world).1.response.isSome = true := by
  intro h
  have hanswered := h Unit
    { display := fun _ => "", safeName := id, safeMessage := id,
      extractTraceparent := fun _ => .error "", setParent := fun _ => none }
    { config := .new "" "",
      service :=
        { tools := fun s => ([], s), callTool := fun _ _ s => (.ok (.text ""), s),
          shutdown := id } }
    (obj [("id", .number (.int 1)), ("jsonrpc", .string "2.0"),
      ("method", .string "initialized")])
    .new { service := (), calls := [], signals := [] } rfl (by decide)
  revert hanswered
  decide

end Answered

end Server
end McpCore
