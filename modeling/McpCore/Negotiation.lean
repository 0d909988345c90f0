import McpCore.Library.Calendar
import McpCore.ToolCalls

/-!
# Version negotiation

What `initialize` answers: the revision the session will speak, and the members of
`serverInfo` that depend on it.  Revisions are compared as strings; for dates written
`YYYY-MM-DD` that is the order of the calendar.

`negotiation` says what is answered for any list of revisions and any `params`.
-/

namespace McpCore
namespace Server

open Value (asStr obj)
open Library (Date)

section Version

variable (config : ServerConfig)

theorem negotiateVersion_of_mem {requested : String}
    (h : requested ∈ config.protocolVersions) :
    negotiateVersion config requested = requested := by
  unfold negotiateVersion
  rw [if_pos]
  simpa using h

theorem negotiateVersion_of_not_mem {requested : String}
    (h : requested ∉ config.protocolVersions) :
    negotiateVersion config requested = config.latestProtocolVersion := by
  unfold negotiateVersion
  rw [if_neg]
  simpa using h

theorem latestProtocolVersion_mem (hne : config.protocolVersions ≠ []) :
    config.latestProtocolVersion ∈ config.protocolVersions := by
  rw [ServerConfig.latestProtocolVersion, List.getLast?_eq_some_getLast hne, Option.getD_some]
  exact List.getLast_mem hne

theorem negotiateVersion_latest :
    negotiateVersion config config.latestProtocolVersion = config.latestProtocolVersion := by
  by_cases h : config.latestProtocolVersion ∈ config.protocolVersions
  · exact negotiateVersion_of_mem config h
  · exact negotiateVersion_of_not_mem config h

/-- The revision answered to these `params`. -/
def negotiated (params : Value) : String :=
  negotiateVersion config
    (((params.get "protocolVersion").bind asStr).getD config.latestProtocolVersion)

variable {config} {params : Value}

theorem negotiated_of_string {requested : String}
    (h : params.get "protocolVersion" = some (.string requested)) :
    negotiated config params = negotiateVersion config requested := by
  rw [negotiated, bind_asStr.mpr h, Option.getD_some]

/-- Unless a supported revision is asked for, the newest is answered. -/
theorem negotiated_of_not_listed
    (h : ¬ ∃ requested ∈ config.protocolVersions,
      params.get "protocolVersion" = some (.string requested)) :
    negotiated config params = config.latestProtocolVersion := by
  cases hrequested : (params.get "protocolVersion").bind asStr with
  | none =>
      rw [negotiated, hrequested]
      exact negotiateVersion_latest config
  | some requested =>
      have hstring := bind_asStr.mp hrequested
      rw [negotiated_of_string hstring]
      exact negotiateVersion_of_not_mem config fun hmem => h ⟨requested, hmem, hstring⟩

theorem negotiated_eq_requested_iff {requested : String}
    (h : params.get "protocolVersion" = some (.string requested)) :
    negotiated config params = requested ↔
      requested ∈ config.protocolVersions ∨
        config.protocolVersions = [] ∧ requested = "2025-11-25" := by
  rw [negotiated_of_string h]
  by_cases hmem : requested ∈ config.protocolVersions
  · simp [negotiateVersion_of_mem config hmem, hmem]
  · rw [negotiateVersion_of_not_mem config hmem]
    simp only [hmem, false_or]
    constructor
    · intro hlatest
      have hnil : config.protocolVersions = [] := by
        by_contra hne
        exact hmem (hlatest ▸ latestProtocolVersion_mem config hne)
      refine ⟨hnil, ?_⟩
      rw [← hlatest, ServerConfig.latestProtocolVersion, hnil]
      rfl
    · rintro ⟨hnil, rfl⟩
      rw [ServerConfig.latestProtocolVersion, hnil]
      rfl

theorem negotiated_mem (hne : config.protocolVersions ≠ []) :
    negotiated config params ∈ config.protocolVersions := by
  by_cases h : ∃ requested ∈ config.protocolVersions,
      params.get "protocolVersion" = some (.string requested)
  · obtain ⟨requested, hmem, hstring⟩ := h
    rw [negotiated_of_string hstring, negotiateVersion_of_mem config hmem]
    exact hmem
  · rw [negotiated_of_not_listed h]
    exact latestProtocolVersion_mem config hne

/-- Asking for the revision that was answered gets it answered again. -/
theorem negotiated_again {params' : Value}
    (h : params'.get "protocolVersion" = some (.string (negotiated config params))) :
    negotiated config params' = negotiated config params := by
  rw [negotiated_eq_requested_iff h]
  by_cases hnil : config.protocolVersions = []
  · refine .inr ⟨hnil, ?_⟩
    rw [negotiated_of_not_listed (by simp [hnil]), ServerConfig.latestProtocolVersion, hnil]
    rfl
  · exact .inl (negotiated_mem hnil)

end Version

section Metadata

/-- The revision that added metadata to `serverInfo`. -/
def metadataRevision : Date where
  year := 2025
  month := 11
  day := 25
  year_lt := by decide
  month_lt := by decide
  day_lt := by decide

theorem text_metadataRevision :
    metadataRevision.text = "2025-11-25" := by
  decide

/-- All supported revisions are dates. -/
def Dated (config : ServerConfig) : Prop :=
  ∀ version ∈ config.protocolVersions, ∃ date : Date, version = date.text

/-- The optional members of `serverInfo`. -/
def metadata (config : ServerConfig) : List (String × Option String) :=
  [("title", config.title), ("description", config.description),
    ("websiteUrl", config.websiteUrl)]

variable {config : ServerConfig}

theorem negotiated_dated (hdated : Dated config) (params : Value) :
    ∃ date : Date, negotiated config params = date.text := by
  by_cases hnil : config.protocolVersions = []
  · refine ⟨metadataRevision, ?_⟩
    rw [negotiated_of_not_listed (by simp [hnil]), ServerConfig.latestProtocolVersion, hnil,
      text_metadataRevision]
    rfl
  · exact hdated _ (negotiated_mem hnil)

/-- Setting an optional member, if there is one. -/
theorem get_foldl_set (fields : List (String × Option String)) {object : Value}
    (hobject : object.isObject = true) (hkeys : (fields.map Prod.fst).Nodup) (key : String) :
    (fields.foldl
      (fun info entry =>
        match entry.2 with
        | some value => info.set entry.1 (.string value)
        | none => info) object).get key =
      (((fields.lookup key).join.map Value.string).or (object.get key)) := by
  induction fields generalizing object with
  | nil =>
      simp
  | cons field fields ih =>
      obtain ⟨name, value⟩ := field
      obtain ⟨hname, hnodup⟩ := List.nodup_cons.mp hkeys
      have hnone : fields.lookup name = none := by
        rw [List.lookup_eq_none_iff]
        intro entry hentry
        have hne : name ≠ entry.1 := fun heq => hname (List.mem_map.mpr ⟨entry, hentry, heq.symm⟩)
        simpa using hne
      rw [List.foldl_cons]
      cases value with
      | none =>
          rw [ih hobject hnodup]
          by_cases hkey : key = name
          · simp [hkey, hnone]
          · simp [List.lookup_cons, beq_false_of_ne hkey]
      | some value =>
          rw [ih (Value.isObject_set hobject) hnodup, Value.get_set hobject]
          by_cases hkey : key = name
          · simp [hkey, hnone]
          · simp [List.lookup_cons, beq_false_of_ne hkey, hkey]

/-- `serverInfo` has the metadata from the revision on that added it. -/
theorem get_serverInfo {date : Date} {version : String} (hversion : version = date.text)
    (key : String) :
    (serverInfo config version).get key =
      (if metadataRevision ≤ date then ((metadata config).lookup key).join.map Value.string
        else none).or
      ((obj [("name", .string config.name), ("version", .string config.version)]).get key) := by
  have hgate : "2025-11-25" ≤ version ↔ metadataRevision ≤ date := by
    rw [hversion, ← text_metadataRevision, Date.text_le_iff]
  unfold serverInfo
  by_cases h : metadataRevision ≤ date
  · rw [if_pos (hgate.mpr h), if_pos h]
    exact get_foldl_set (metadata config) rfl (by simp [metadata]) key
  · rw [if_neg (mt hgate.mp h), if_neg h, Option.none_or]

end Metadata

section Initialize

variable {σ : Type} (crates : Externals) (core : ServerCore σ)

/-- The result of `initialize`, by its members. -/
theorem get_handleInitialize (params : Value) (session : Session) (key : String) :
    (handleInitialize core params session).1.get key =
      (if key = "instructions" then core.config.instructions.map Value.string else none).or
      ((obj
        [("protocolVersion", .string (negotiated core.config params)),
          ("serverInfo", serverInfo core.config (negotiated core.config params)),
          ("capabilities",
            obj [("tools", obj [("listChanged", .bool core.config.toolsListChanged)])])]).get
        key) := by
  simp only [handleInitialize, negotiated]
  cases core.config.instructions with
  | none =>
      simp
  | some instructions =>
      simp only [Value.get_set (Value.isObject_obj _)]
      by_cases hkey : key = "instructions"
      · simp [hkey]
      · simp [hkey]

theorem handleMessage_initialize {message : Value} (h : AcceptedFor "initialize" message)
    (session : Session) (world : World σ) :
    (handleMessage crates core message session world).1.response =
      (message.get "id").map (answered
        (handleInitialize core ((message.get "params").getD .null) .new).1) := by
  obtain ⟨hdispatch, -, -⟩ := handleMessage_spec crates core message session world
  rw [of_accepted h.1, (acceptedFor_iff h.1).mp h, Request.ofMethod] at hdispatch
  rw [hdispatch]
  exact response_finish_result _ _ _

/--
Version negotiation and the metadata gate.  When all supported revisions are dates,
any accepted `initialize` is answered with a revision and a `serverInfo`: the
revision asked for if it is supported, else the one listed last; and the metadata
that is configured if that revision's date is not before the one that added it.
-/
theorem negotiation
    (hdated : Dated core.config) (message : Value) (h : AcceptedFor "initialize" message)
    (session : Session) (world : World σ) :
    let config := core.config
    let requests := fun (message : Value) requested =>
      ((message.get "params").getD .null).get "protocolVersion" = some (.string requested)
    ∃ result version info,
      (handleMessage crates core message session world).1.response =
        (message.get "id").map (answered result) ∧
      result.get "protocolVersion" = some (.string version) ∧
      result.get "serverInfo" = some info ∧
      result.get "tools" = none ∧
      (∀ requested, requests message requested →
        (version = requested ↔ requested ∈ config.protocolVersions ∨
          config.protocolVersions = [] ∧ requested = "2025-11-25")) ∧
      ((¬ ∃ requested ∈ config.protocolVersions, requests message requested) →
        version = config.protocolVersions.getLast?.getD "2025-11-25") ∧
      (config.protocolVersions ≠ [] → version ∈ config.protocolVersions) ∧
      (∀ message' session' world', AcceptedFor "initialize" message' →
        requests message' version →
        ∃ result',
          (handleMessage crates core message' session' world').1.response =
            (message'.get "id").map (answered result') ∧
          result'.get "protocolVersion" = some (.string version)) ∧
      info.get "name" = some (.string config.name) ∧
      info.get "version" = some (.string config.version) ∧
      ∃ date : Date, version = date.text ∧
        ∀ field ∈ [("title", config.title), ("description", config.description),
            ("websiteUrl", config.websiteUrl)],
          info.get field.1 =
            if metadataRevision ≤ date then field.2.map Value.string else none := by
  intro config requests
  have hresult : ∀ (message : Value) key,
      (handleInitialize core ((message.get "params").getD .null) .new).1.get key = _ :=
    fun message key => get_handleInitialize core _ .new key
  have hversion : ∀ message : Value,
      (handleInitialize core ((message.get "params").getD .null) .new).1.get "protocolVersion" =
        some (.string (negotiated config ((message.get "params").getD .null))) := by
    intro message
    rw [hresult, Value.get_obj]
    simp [List.lookup_cons, config]
  obtain ⟨date, hdate⟩ := negotiated_dated hdated ((message.get "params").getD .null)
  refine ⟨_, negotiated config ((message.get "params").getD .null),
    serverInfo config (negotiated config ((message.get "params").getD .null)),
    handleMessage_initialize crates core h session world, hversion message, ?_, ?_, ?_, ?_, ?_,
    ?_, ?_, ?_, date, hdate, ?_⟩
  · rw [hresult, Value.get_obj]
    simp [List.lookup_cons, config]
  · rw [hresult, Value.get_obj]
    simp [List.lookup_cons]
  · intro requested hrequested
    exact negotiated_eq_requested_iff hrequested
  · intro hlisted
    exact negotiated_of_not_listed hlisted
  · exact negotiated_mem
  · intro message' session' world' h' hagain
    refine ⟨_, handleMessage_initialize crates core h' session' world', ?_⟩
    rw [hversion, negotiated_again hagain]
  · rw [get_serverInfo hdate, Value.get_obj]
    simp [metadata, List.lookup_cons]
  · rw [get_serverInfo hdate, Value.get_obj]
    simp [metadata, List.lookup_cons]
  · intro field hfield
    rw [get_serverInfo hdate, Value.get_obj]
    simp only [List.mem_cons, List.not_mem_nil, or_false] at hfield
    rcases hfield with rfl | rfl | rfl
    · simp [metadata, List.lookup_cons]
    · simp [metadata, List.lookup_cons]
    · simp [metadata, List.lookup_cons]

end Initialize

section Sessions

/-- An older revision that is supported is kept, and its `serverInfo` has no title. -/
theorem negotiation_of_older_revision :
    let core : ServerCore Unit :=
      { saying (.ok (.text "")) with
        config := { ServerConfig.new "server" "1.0" with title := some "Server" } }
    let message := Value.object [("id", .number (.int 1)), ("method", .string "initialize"),
      ("params", .object [("protocolVersion", .string "2025-06-18")])]
    ∃ result info,
      (handleMessage plainCrates core message .new ⟨(), [], []⟩).1.response =
        some (answered result (.number (.int 1))) ∧
      result.get "protocolVersion" = some (.string "2025-06-18") ∧
      result.get "serverInfo" = some info ∧
      info.get "title" = none := by
  intro core message
  have hdated : Dated core.config := by
    intro version hversion
    have hcases : version = "2025-06-18" ∨ version = "2025-11-25" := by
      simpa [core, saying, ServerConfig.new, defaultProtocolVersions] using hversion
    rcases hcases with rfl | rfl
    · exact ⟨⟨2025, 6, 18, by decide, by decide, by decide⟩, by decide⟩
    · exact ⟨metadataRevision, text_metadataRevision.symm⟩
  obtain ⟨result, version, info, hresponse, hversion, hinfo, -, hrequested, -, -, -, -, -,
      date, hdate, hmetadata⟩ :=
    negotiation plainCrates core hdated message ⟨⟨rfl, nofun⟩, rfl⟩ .new ⟨(), [], []⟩
  obtain rfl : version = "2025-06-18" :=
    (hrequested "2025-06-18" rfl).mpr (.inl (.head _))
  have hearlier : ¬ metadataRevision ≤ date := by
    rw [← Date.text_le_iff, ← hdate, text_metadataRevision]
    decide
  refine ⟨result, info, hresponse, hversion, hinfo, ?_⟩
  rw [hmetadata ("title", core.config.title) (.head _), if_neg hearlier]

/--
Without any supported revision the built-in one is answered, also to a client that
asks for it: what is answered is the revision asked for, which is not in the list.
-/
theorem negotiation_not_iff_listed :
    let core : ServerCore Unit :=
      { saying (.ok (.text "")) with
        config := { ServerConfig.new "server" "1.0" with protocolVersions := [] } }
    let message := Value.object [("id", .number (.int 1)), ("method", .string "initialize"),
      ("params", .object [("protocolVersion", .string "2025-11-25")])]
    ∃ result,
      (handleMessage plainCrates core message .new ⟨(), [], []⟩).1.response =
        some (answered result (.number (.int 1))) ∧
      ¬ (result.get "protocolVersion" = some (.string "2025-11-25") ↔
        "2025-11-25" ∈ core.config.protocolVersions) := by
  intro core message
  have haccepted : AcceptedFor "initialize" message := ⟨⟨rfl, nofun⟩, rfl⟩
  refine ⟨_, handleMessage_initialize plainCrates core haccepted .new ⟨(), [], []⟩, ?_⟩
  have hversion : (handleInitialize core ((message.get "params").getD .null) .new).1.get
      "protocolVersion" = some (.string "2025-11-25") := by
    rw [get_handleInitialize, Value.get_obj]
    rfl
  intro h
  exact absurd (h.mp hversion) (by simp [core])

end Sessions

end Server
end McpCore
