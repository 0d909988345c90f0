import McpCore.Authenticator
import McpCore.Config

/-!
# Starting up

A server is configured by a chain of builder calls, and started with the arguments that
all servers share.  `serve` picks a transport and enters it, if the configuration offers
it and the binary was built with it.

`serve_iff` says for every chain of builder calls which transport is entered.
-/

namespace McpCore
namespace Startup

open Auth Text

section Model

/-- Which transports a server is willing to serve. -/
structure EnabledTransports where
  stdio : Bool
  websocket : Bool
  unix : Bool
deriving DecidableEq

def EnabledTransports.default : EnabledTransports :=
  ⟨true, false, false⟩

def EnabledTransports.allows (transports : EnabledTransports) : TransportKind → Bool
  | .stdio => transports.stdio
  | .websocket => transports.websocket
  | .unix => transports.unix

/-- The whole startup configuration. -/
structure ServerConfig extends McpCore.ServerConfig where
  transports : EnabledTransports
  defaultTransport : TransportKind
  wsAuth : WsAuth
  wsClaimBindings : WsClaimBindings
deriving DecidableEq

namespace ServerConfig

def new (name version : String) : ServerConfig where
  toServerConfig := .new name version
  transports := .default
  defaultTransport := .stdio
  wsAuth := .none
  wsClaimBindings := ⟨none, none⟩

def withInstructions (config : ServerConfig) (instructions : String) : ServerConfig :=
  { config with instructions := some instructions }

def withTitle (config : ServerConfig) (title : String) : ServerConfig :=
  { config with title := some title }

def withDescription (config : ServerConfig) (description : String) : ServerConfig :=
  { config with description := some description }

def withWebsiteUrl (config : ServerConfig) (websiteUrl : String) : ServerConfig :=
  { config with websiteUrl := some websiteUrl }

def withWebsocket (config : ServerConfig) : ServerConfig :=
  { config with transports := { config.transports with websocket := true } }

/-- Where the websocket was the default transport, the default is stdio then. -/
def withoutWebsocket (config : ServerConfig) : ServerConfig :=
  { config with
    transports := { config.transports with websocket := false }
    defaultTransport :=
      if config.defaultTransport = .websocket then .stdio else config.defaultTransport }

def withUnix (config : ServerConfig) : ServerConfig :=
  { config with transports := { config.transports with unix := true } }

def withDefaultTransport (config : ServerConfig) (kind : TransportKind) : ServerConfig :=
  { config with defaultTransport := kind }

def withToolsListChanged (config : ServerConfig) (yes : Bool) : ServerConfig :=
  { config with toolsListChanged := yes }

def withMaxContentLength (config : ServerConfig) (bytes : Usize) : ServerConfig :=
  { config with toServerConfig := config.toServerConfig.withMaxContentLength bytes }

def websocketAuth (config : ServerConfig) (auth : WsAuth) : ServerConfig :=
  { config with wsAuth := auth }

def websocketExpectedIssuer (config : ServerConfig) (issuer : String) : ServerConfig :=
  { config with wsClaimBindings := { config.wsClaimBindings with issuer := some issuer } }

def websocketExpectedAudience (config : ServerConfig) (audience : String) : ServerConfig :=
  { config with wsClaimBindings := { config.wsClaimBindings with audience := some audience } }

end ServerConfig

/-- A call of a builder method. -/
inductive Builder where
  | instructions (instructions : String)
  | title (title : String)
  | description (description : String)
  | websiteUrl (websiteUrl : String)
  | withWebsocket
  | withoutWebsocket
  | withUnix
  | defaultTransport (kind : TransportKind)
  | toolsListChanged (yes : Bool)
  | maxContentLength (bytes : Usize)
  | websocketAuth (auth : WsAuth)
  | websocketExpectedIssuer (issuer : String)
  | websocketExpectedAudience (audience : String)
deriving DecidableEq

def Builder.apply (config : ServerConfig) : Builder → ServerConfig
  | .instructions text => config.withInstructions text
  | .title text => config.withTitle text
  | .description text => config.withDescription text
  | .websiteUrl url => config.withWebsiteUrl url
  | .withWebsocket => config.withWebsocket
  | .withoutWebsocket => config.withoutWebsocket
  | .withUnix => config.withUnix
  | .defaultTransport kind => config.withDefaultTransport kind
  | .toolsListChanged yes => config.withToolsListChanged yes
  | .maxContentLength bytes => config.withMaxContentLength bytes
  | .websocketAuth auth => config.websocketAuth auth
  | .websocketExpectedIssuer issuer => config.websocketExpectedIssuer issuer
  | .websocketExpectedAudience audience => config.websocketExpectedAudience audience

/-- A configuration after these calls. -/
def built (name version : String) (builders : List Builder) : ServerConfig :=
  builders.foldl Builder.apply (.new name version)

/-- The arguments that select a transport. -/
structure CommonServeArgs where
  transport : Option TransportKind
  host : String
  port : UInt16
  socketPath : Option String
deriving DecidableEq

def CommonServeArgs.default : CommonServeArgs :=
  ⟨none, "127.0.0.1", 8080, none⟩

/-- The features a binary was built with, as far as they concern transports. -/
structure Features where
  websocket : Bool
  unix : Bool
  auth : Bool
  implied : auth = true → websocket = true

/-- The transport that `serve` enters, with what it hands to it. -/
inductive Entered where
  | stdio
  | websocket (host : String) (port : UInt16)
  | unix (path : String)
deriving DecidableEq

/-- Enter the transport that was selected, if the configuration offers it. -/
def serve (features : Features) (config : ServerConfig) (common : CommonServeArgs) :
    Except Error Entered :=
  let kind := common.transport.getD config.defaultTransport
  if !config.transports.allows kind then
    .error (.config s!"{kind.display} transport is not supported by this server")
  else
    match kind with
    | .stdio => .ok .stdio
    | .websocket =>
        if features.websocket then .ok (.websocket common.host common.port)
        else .error (.config "this binary was built without the `websocket` feature")
    | .unix =>
        if features.unix then
          match common.socketPath with
          | some path => .ok (.unix path)
          | none => .error (.config "--socket-path is required for the unix transport")
        else .error (.config "this binary was built without the `unix` feature")

end Model

section Fields

universe u v w

variable {σ : Type u} {α : Type v} {β : Type w}

/-- A field that some steps set, whatever it was, and the others leave alone is what the
last of them set it to. -/
theorem field_foldl {step : σ → β → σ} (field : σ → α) (write : β → Option α)
    (h : ∀ s b, field (step s b) = (write b).getD (field s)) (bs : List β) (s : σ) :
    field (bs.foldl step s) = (bs.filterMap write).getLast?.getD (field s) := by
  induction bs generalizing s with
  | nil =>
      rfl
  | cons b bs ih =>
      rw [List.foldl_cons, ih, h, List.filterMap_cons]
      cases write b with
      | none =>
          rfl
      | some a =>
          rw [Option.getD_some]
          cases bs.filterMap write with
          | nil =>
              rfl
          | cons a' as =>
              rw [List.getLast?_cons_cons]
              simp [List.getLast?_eq_some_getLast]

variable (name version : String) (builders : List Builder)

/-- The call of `with_websocket` or `without_websocket` that was made last decides. -/
def Builder.websocketOn : Builder → Option Bool
  | .withWebsocket => some true
  | .withoutWebsocket => some false
  | _ => none

def Builder.auth? : Builder → Option WsAuth
  | .websocketAuth auth => some auth
  | _ => none

def Builder.issuer? : Builder → Option (Option String)
  | .websocketExpectedIssuer issuer => some (some issuer)
  | _ => none

def Builder.audience? : Builder → Option (Option String)
  | .websocketExpectedAudience audience => some (some audience)
  | _ => none

def Builder.maxContentLength? : Builder → Option Usize
  | .maxContentLength bytes => some bytes
  | _ => none

/-- The strategy, the bindings and the cap that were set last. -/
def lastAuth : WsAuth :=
  (builders.filterMap Builder.auth?).getLast?.getD .none

def lastBindings : WsClaimBindings :=
  ⟨(builders.filterMap Builder.issuer?).getLast?.getD none,
    (builders.filterMap Builder.audience?).getLast?.getD none⟩

def lastMaxContentLength : Usize :=
  (builders.filterMap Builder.maxContentLength?).getLast?.getD defaultMaxContentLength

/-- `with_unix` cannot be taken back. -/
def Builder.unixOn : Builder → Option Bool
  | .withUnix => some true
  | _ => none

theorem field_built (field : ServerConfig → α) (write : Builder → Option α)
    (h : ∀ config builder, field (Builder.apply config builder) =
      (write builder).getD (field config)) :
    field (built name version builders) =
      (builders.filterMap write).getLast?.getD (field (.new name version)) :=
  field_foldl field write h builders (.new name version)

/-- Stdio is always offered, the others as they were turned on and off. -/
theorem transports_built :
    (built name version builders).transports =
      ⟨true, (builders.filterMap Builder.websocketOn).getLast?.getD false,
        (builders.filterMap Builder.unixOn).getLast?.getD false⟩ := by
  have hstdio : (built name version builders).transports.stdio = true := by
    refine (field_built name version builders (fun config => config.transports.stdio)
      (fun _ => none) fun config builder => ?_).trans (by simp [ServerConfig.new,
        EnabledTransports.default])
    cases builder with
    | _ =>
        rfl
  have hwebsocket := field_built name version builders (fun config => config.transports.websocket)
    Builder.websocketOn fun config builder => by
      cases builder with
      | _ =>
          rfl
  have hunix := field_built name version builders (fun config => config.transports.unix)
    Builder.unixOn fun config builder => by
      cases builder with
      | _ =>
          rfl
  generalize built name version builders = config at *
  obtain ⟨config, ⟨stdio, websocket, unix⟩, kind, auth, bindings⟩ := config
  simp only at hstdio hwebsocket hunix
  rw [hstdio, hwebsocket, hunix]
  rfl

/-- The websocket is guarded as it was said last, with the cap that was set last. -/
theorem guard_built :
    (built name version builders).wsAuth = lastAuth builders ∧
    (built name version builders).wsClaimBindings = lastBindings builders ∧
    (built name version builders).maxContentLength = lastMaxContentLength builders := by
  have hauth := field_built name version builders (fun config => config.wsAuth)
    Builder.auth? fun config builder => by
      cases builder with
      | _ =>
          rfl
  have hissuer := field_built name version builders (fun config => config.wsClaimBindings.issuer)
    Builder.issuer? fun config builder => by
      cases builder with
      | _ =>
          rfl
  have haudience := field_built name version builders
    (fun config => config.wsClaimBindings.audience) Builder.audience? fun config builder => by
      cases builder with
      | _ =>
          rfl
  have hcap := field_built name version builders (fun config => config.maxContentLength)
    Builder.maxContentLength? fun config builder => by
      cases builder with
      | _ =>
          rfl
  refine ⟨hauth, ?_, hcap⟩
  generalize (built name version builders).wsClaimBindings = bindings at *
  obtain ⟨issuer, audience⟩ := bindings
  simp only at hissuer haudience
  rw [lastBindings, hissuer, haudience]
  rfl

end Fields

section DefaultTransport

variable {name version : String} {builders : List Builder} {kind : TransportKind}

/-- The default transport after these calls: the one that was chosen last, unless that
was the websocket and the websocket was turned off since. -/
inductive Chosen (builders : List Builder) : TransportKind → Prop
  | unchosen (hnone : ∀ kind, .defaultTransport kind ∉ builders) : Chosen builders .stdio
  | kept {before after : List Builder} {kind : TransportKind}
      (hsplit : builders = before ++ .defaultTransport kind :: after)
      (hlast : ∀ kind', .defaultTransport kind' ∉ after)
      (hkept : kind = .websocket → .withoutWebsocket ∉ after) : Chosen builders kind
  | turnedOff {before after : List Builder}
      (hsplit : builders = before ++ .defaultTransport .websocket :: after)
      (hlast : ∀ kind', .defaultTransport kind' ∉ after)
      (hoff : .withoutWebsocket ∈ after) : Chosen builders .stdio

/-- Where no transport is chosen any more the default only changes if it is the
websocket. -/
theorem defaultTransport_foldl {after : List Builder}
    (hnone : ∀ kind, .defaultTransport kind ∉ after) (config : ServerConfig) :
    (config.defaultTransport = .websocket ∧ .withoutWebsocket ∈ after →
      (after.foldl Builder.apply config).defaultTransport = .stdio) ∧
    ((config.defaultTransport = .websocket → .withoutWebsocket ∉ after) →
      (after.foldl Builder.apply config).defaultTransport = config.defaultTransport) := by
  induction after generalizing config with
  | nil =>
      exact ⟨fun h => absurd h.2 List.not_mem_nil, fun _ => rfl⟩
  | cons builder after ih =>
      have hrest : ∀ kind, .defaultTransport kind ∉ after :=
        fun kind hmem => hnone kind (List.mem_cons_of_mem _ hmem)
      obtain ⟨hturned, hkept⟩ := ih hrest (Builder.apply config builder)
      rw [List.foldl_cons]
      by_cases hoff : builder = .withoutWebsocket
      · subst hoff
        by_cases hkind : config.defaultTransport = .websocket
        · have hstdio : (Builder.apply config .withoutWebsocket).defaultTransport = .stdio := by
            simp [Builder.apply, ServerConfig.withoutWebsocket, hkind]
          rw [hstdio] at hkept
          exact ⟨fun _ => hkept nofun, fun h => absurd List.mem_cons_self (h hkind)⟩
        · have hsame : (Builder.apply config .withoutWebsocket).defaultTransport =
              config.defaultTransport := by
            simp [Builder.apply, ServerConfig.withoutWebsocket, hkind]
          rw [hsame] at hkept
          exact ⟨fun h => absurd h.1 hkind, fun _ => hkept fun h => absurd h hkind⟩
      · have hsame : (Builder.apply config builder).defaultTransport = config.defaultTransport := by
          cases builder with
          | defaultTransport kind =>
              exact absurd List.mem_cons_self (hnone kind)
          | withoutWebsocket =>
              exact absurd rfl hoff
          | _ =>
              rfl
        rw [hsame] at hturned hkept
        refine ⟨fun h => hturned ⟨h.1, ?_⟩, fun h => hkept fun hkind hmem => ?_⟩
        · exact (List.mem_cons.mp h.2).resolve_left (Ne.symm hoff)
        · exact h hkind (List.mem_cons_of_mem _ hmem)

theorem exists_chosen (builders : List Builder) :
    ∃ kind, Chosen builders kind := by
  induction builders with
  | nil =>
      exact ⟨_, .unchosen fun _ => List.not_mem_nil⟩
  | cons builder builders ih =>
      obtain ⟨kind, hchosen⟩ := ih
      cases hchosen with
      | kept hsplit hlast hkept =>
          subst hsplit
          exact ⟨kind, .kept (List.cons_append ..).symm hlast hkept⟩
      | turnedOff hsplit hlast hoff =>
          subst hsplit
          exact ⟨_, .turnedOff (List.cons_append ..).symm hlast hoff⟩
      | unchosen hnone =>
          by_cases hbuilder : ∃ kind, builder = .defaultTransport kind
          · obtain ⟨kind, rfl⟩ := hbuilder
            by_cases hoff : kind = .websocket ∧ .withoutWebsocket ∈ builders
            · obtain ⟨rfl, hoff⟩ := hoff
              exact ⟨_, .turnedOff (List.nil_append _).symm hnone hoff⟩
            · exact ⟨kind, .kept (List.nil_append _).symm hnone fun hkind hmem =>
                hoff ⟨hkind, hmem⟩⟩
          · refine ⟨_, .unchosen fun kind hmem => ?_⟩
            rcases List.mem_cons.mp hmem with hsame | hmem
            · exact hbuilder ⟨kind, hsame.symm⟩
            · exact hnone kind hmem

theorem defaultTransport_of_chosen (h : Chosen builders kind) :
    (built name version builders).defaultTransport = kind := by
  cases h with
  | unchosen hnone =>
      exact (defaultTransport_foldl hnone (.new name version)).2 nofun
  | kept hsplit hlast hkept =>
      rw [built, hsplit, List.foldl_append, List.foldl_cons]
      exact (defaultTransport_foldl hlast _).2 hkept
  | turnedOff hsplit hlast hoff =>
      rw [built, hsplit, List.foldl_append, List.foldl_cons]
      exact (defaultTransport_foldl hlast _).1 ⟨rfl, hoff⟩

/-- The default transport is the one that was chosen. -/
theorem defaultTransport_iff :
    (built name version builders).defaultTransport = kind ↔ Chosen builders kind := by
  constructor
  · rintro rfl
    obtain ⟨kind, hchosen⟩ := exists_chosen builders
    rw [defaultTransport_of_chosen hchosen]
    exact hchosen
  · exact defaultTransport_of_chosen

end DefaultTransport

section Serve

variable {features : Features} {builders : List Builder} {common : CommonServeArgs}

/-- The transport that is asked for: by the arguments, else by the configuration. -/
inductive Asked (builders : List Builder) (common : CommonServeArgs) : TransportKind → Prop
  | argument {kind} (h : common.transport = some kind) : Asked builders common kind
  | configured {kind} (hnone : common.transport = none) (h : Chosen builders kind) :
      Asked builders common kind

/-- A transport that may be entered: stdio always; the others if they were turned on, not
turned off again, and built in, and a unix socket if it was given a path. -/
inductive Enters (features : Features) (builders : List Builder) (common : CommonServeArgs) :
    TransportKind → Entered → Prop
  | stdio : Enters features builders common .stdio .stdio
  | websocket (hon : (builders.filterMap Builder.websocketOn).getLast? = some true)
      (hbuilt : features.websocket = true) :
      Enters features builders common .websocket (.websocket common.host common.port)
  | unix {path : String} (hon : .withUnix ∈ builders) (hbuilt : features.unix = true)
      (hpath : common.socketPath = some path) :
      Enters features builders common .unix (.unix path)

theorem asked_iff (name version : String) {kind : TransportKind} :
    Asked builders common kind ↔
      common.transport.getD (built name version builders).defaultTransport = kind := by
  constructor
  · rintro (h | ⟨hnone, h⟩)
    · rw [h]
      rfl
    · rw [hnone]
      exact defaultTransport_of_chosen h
  · intro h
    cases htransport : common.transport with
    | some kind' =>
        rw [htransport] at h
        obtain rfl : kind' = kind := h
        exact .argument htransport
    | none =>
        rw [htransport] at h
        exact .configured htransport (defaultTransport_iff.mp h)

/-- What was turned on once and cannot be turned off is on. -/
theorem unixOn_iff :
    (builders.filterMap Builder.unixOn).getLast?.getD false = true ↔ .withUnix ∈ builders := by
  have hon : ∀ on ∈ builders.filterMap Builder.unixOn, on = true ∧ .withUnix ∈ builders := by
    intro on hmem
    obtain ⟨builder, hbuilder, hsome⟩ := List.mem_filterMap.mp hmem
    cases builder with
    | withUnix =>
        cases hsome
        exact ⟨rfl, hbuilder⟩
    | _ =>
        cases hsome
  constructor
  · intro h
    cases hlast : (builders.filterMap Builder.unixOn).getLast? with
    | none =>
        rw [hlast] at h
        cases h
    | some on =>
        exact (hon on (List.mem_of_getLast? hlast)).2
  · intro hmem
    have hne : builders.filterMap Builder.unixOn ≠ [] :=
      List.ne_nil_of_mem (List.mem_filterMap.mpr ⟨_, hmem, rfl⟩)
    rw [List.getLast?_eq_some_getLast hne, Option.getD_some]
    exact (hon _ (List.getLast_mem hne)).1

theorem websocketOn_iff :
    (builders.filterMap Builder.websocketOn).getLast?.getD false = true ↔
      (builders.filterMap Builder.websocketOn).getLast? = some true := by
  cases (builders.filterMap Builder.websocketOn).getLast? with
  | none =>
      simp
  | some on =>
      simp

/--
What a server enters when it is started, whatever chain of builder calls configured it
and whatever it was built with: the transport that is asked for, if it may be entered, and
nothing else; otherwise there is a configuration error.
-/
theorem serve_iff (name version : String) (features : Features) (builders : List Builder)
    (common : CommonServeArgs) :
    (∀ entered, serve features (built name version builders) common = .ok entered ↔
      ∃ kind, Asked builders common kind ∧ Enters features builders common kind entered) ∧
    ∀ err, serve features (built name version builders) common = .error err →
      ∃ message, err = .config message := by
  simp only [asked_iff name version, exists_eq_left']
  unfold serve
  generalize common.transport.getD (built name version builders).defaultTransport = kind
  rw [transports_built]
  cases kind with
  | stdio =>
      refine ⟨fun entered => ⟨?_, ?_⟩, nofun⟩
      · rintro ⟨⟩
        exact .stdio
      · rintro ⟨⟩
        rfl
  | websocket =>
      have hon := @websocketOn_iff builders
      simp only [EnabledTransports.allows]
      cases hallows : (builders.filterMap Builder.websocketOn).getLast?.getD false with
      | false =>
          rw [hallows] at hon
          refine ⟨fun entered => ⟨nofun, ?_⟩, fun err h => ⟨_, (Except.error.inj h).symm⟩⟩
          rintro (_ | ⟨hlast, -⟩ | _)
          exact absurd (hon.mpr hlast) Bool.false_ne_true
      | true =>
          have hlast := hon.mp hallows
          cases hbuilt : features.websocket with
          | false =>
              refine ⟨fun entered => ⟨nofun, ?_⟩, fun err h => ⟨_, (Except.error.inj h).symm⟩⟩
              rintro (_ | ⟨-, hfeature⟩ | _)
              rw [hbuilt] at hfeature
              cases hfeature
          | true =>
              refine ⟨fun entered => ⟨?_, ?_⟩, nofun⟩
              · rintro ⟨⟩
                exact .websocket hlast hbuilt
              · rintro ⟨⟩
                rfl
  | unix =>
      have hon := @unixOn_iff builders
      simp only [EnabledTransports.allows]
      cases hallows : (builders.filterMap Builder.unixOn).getLast?.getD false with
      | false =>
          rw [hallows] at hon
          refine ⟨fun entered => ⟨nofun, ?_⟩, fun err h => ⟨_, (Except.error.inj h).symm⟩⟩
          rintro (_ | _ | ⟨hmem, -, -⟩)
          exact absurd (hon.mpr hmem) Bool.false_ne_true
      | true =>
          have hmem := hon.mp hallows
          cases hbuilt : features.unix with
          | false =>
              refine ⟨fun entered => ⟨nofun, ?_⟩, fun err h => ⟨_, (Except.error.inj h).symm⟩⟩
              rintro (_ | _ | ⟨-, hfeature, -⟩)
              rw [hbuilt] at hfeature
              cases hfeature
          | true =>
              cases hpath : common.socketPath with
              | none =>
                  refine ⟨fun entered => ⟨nofun, ?_⟩, fun err h => ⟨_, (Except.error.inj h).symm⟩⟩
                  rintro (_ | _ | ⟨-, -, hsome⟩)
                  rw [hpath] at hsome
                  cases hsome
              | some path =>
                  refine ⟨fun entered => ⟨?_, ?_⟩, nofun⟩
                  · rintro ⟨⟩
                    exact .unix hmem hbuilt hpath
                  · rintro (_ | _ | ⟨-, -, hsome⟩)
                    rw [hpath] at hsome
                    cases hsome
                    rfl

end Serve

end Startup
end McpCore
