import McpCore.Error

/-!
# Websocket authentication against an identity provider

How a verifier is set up from an OIDC issuer, and what it checks of the claims of
a token.  The HTTP client and the check of a token's signature are other crates,
which are parameters.
-/

namespace McpCore
namespace Auth

open Text

/-- Issuer and audience bindings on top of an authentication strategy. -/
structure WsClaimBindings where
  issuer : Option String
  audience : Option String
deriving DecidableEq

/-- An OIDC discovery document. -/
structure OidcConfig where
  jwksUri : String
  issuer : String
deriving DecidableEq

/-- What fetching a discovery document comes to. -/
inductive Discovery where
  | noClient (e : String)
  | failed (e : String)
  | unparsable (e : String)
  | config (config : OidcConfig)

/-- The claims of a token whose signature verified, as far as they are checked. -/
structure Claims where
  exp : Option Nat
  iss : Option String
  aud : List String
deriving DecidableEq

/-- Verifies tokens against the keys at `jwksUrl`. -/
structure JwksVerifier where
  jwksUrl : String
  bindings : WsClaimBindings
deriving DecidableEq

def trimSlashes (s : String) : String :=
  trimEndMatches s (fun c => c == '/')

namespace JwksVerifier

def fromJwksUrl (jwksUrl : String) (bindings : WsClaimBindings) : JwksVerifier :=
  ⟨jwksUrl, bindings⟩

/-- Where an issuer publishes its discovery document. -/
def wellKnown (issuerUrl : String) : String :=
  s!"{issuerUrl}/.well-known/openid-configuration"

/-- Set a verifier up from what `fetch` finds for the issuer. -/
def fromOidcIssuer (fetch : String → Discovery) (issuerUrl : String)
    (bindings : WsClaimBindings) : Except Error JwksVerifier :=
  let issuerUrl := trimSlashes issuerUrl
  match fetch (wellKnown issuerUrl) with
  | .noClient e => .error (.config s!"auth: building http client: {e}")
  | .failed e => .error (.config s!"auth: OIDC discovery failed: {e}")
  | .unparsable e => .error (.config s!"auth: parsing OIDC config: {e}")
  | .config config =>
      let configIssuer := trimSlashes config.issuer
      if configIssuer ≠ issuerUrl then
        .error (.config
          s!"auth: OIDC issuer mismatch: expected {issuerUrl}, got {configIssuer}")
      else
        let bound : JwksVerifier :=
          .fromJwksUrl config.jwksUri { bindings with issuer := some configIssuer }
        match bindings.issuer with
        | some explicit =>
            if trimSlashes explicit ≠ configIssuer then
              .error (.config
                s!"auth: configured expected issuer {explicit} disagrees with OIDC issuer {configIssuer}")
            else .ok bound
        | none => .ok bound

end JwksVerifier

/-- The check of the issuer, when one is bound. -/
def checkIssuer (iss : Option String) : Option String → Except String Unit
  | none => .ok ()
  | some expected =>
      match iss with
      | some iss =>
          if iss = expected then .ok ()
          else .error s!"issuer mismatch: expected {expected}, got {iss}"
      | none => .error s!"token is missing the required `iss` claim ({expected})"

/-- The check of the audience, when one is bound. -/
def checkAudience (auds : List String) : Option String → Except String Unit
  | none => .ok ()
  | some expected =>
      if auds.any (fun a => a == expected) then .ok ()
      else .error s!"token `aud` does not contain the required audience {expected}"

/-- Enforce the claim policy: a present `exp`, and the bindings. -/
def checkClaimBindings (hasExp : Bool) (iss : Option String) (auds : List String)
    (bindings : WsClaimBindings) : Except String Unit :=
  if !hasExp then .error "token is missing the required `exp` claim"
  else
    match checkIssuer iss bindings.issuer with
    | .error e => .error e
    | .ok _ => checkAudience auds bindings.audience

/-- Verify a token; `jwtk` checks its signature against the keys at a URL. -/
def JwksVerifier.verify (jwtk : String → String → Except String Claims)
    (verifier : JwksVerifier) (token : String) : Except String Unit :=
  match jwtk verifier.jwksUrl token with
  | .error e => .error e
  | .ok claims =>
      checkClaimBindings claims.exp.isSome claims.iss claims.aud verifier.bindings

section Spec

theorem checkIssuer_eq_ok_iff {iss issuer : Option String} :
    checkIssuer iss issuer = .ok () ↔
      ∀ expected, issuer = some expected → iss = some expected := by
  cases issuer with
  | none =>
      simp [checkIssuer]
  | some expected =>
      cases iss with
      | none =>
          simp [checkIssuer]
      | some iss =>
          by_cases hsame : iss = expected
          · simp [checkIssuer, hsame]
          · simp [checkIssuer, hsame]

theorem checkAudience_eq_ok_iff {auds : List String} {audience : Option String} :
    checkAudience auds audience = .ok () ↔
      ∀ expected, audience = some expected → expected ∈ auds := by
  cases audience with
  | none =>
      simp [checkAudience]
  | some expected =>
      by_cases hmem : expected ∈ auds
      · simp [checkAudience, hmem]
      · simp [checkAudience, hmem]

/-- What the claim policy lets pass. -/
theorem checkClaimBindings_eq_ok_iff
    {hasExp : Bool} {iss : Option String} {auds : List String} {bindings : WsClaimBindings} :
    checkClaimBindings hasExp iss auds bindings = .ok () ↔
      hasExp = true ∧
      (∀ expected, bindings.issuer = some expected → iss = some expected) ∧
      (∀ expected, bindings.audience = some expected → expected ∈ auds) := by
  rw [← checkIssuer_eq_ok_iff, ← checkAudience_eq_ok_iff]
  unfold checkClaimBindings
  cases hasExp with
  | false =>
      simp
  | true =>
      rcases checkIssuer iss bindings.issuer with e | _
      · simp
      · simp

/-- An issuer that is accepted is bound without its trailing slashes. -/
theorem fromOidcIssuer_eq_ok
    {fetch : String → Discovery} {issuerUrl : String} {bindings : WsClaimBindings}
    {verifier : JwksVerifier}
    (h : JwksVerifier.fromOidcIssuer fetch issuerUrl bindings = .ok verifier) :
    ∃ config, fetch (JwksVerifier.wellKnown (trimSlashes issuerUrl)) = .config config ∧
      trimSlashes config.issuer = trimSlashes issuerUrl ∧
      verifier = ⟨config.jwksUri,
        { bindings with issuer := some (trimSlashes config.issuer) }⟩ := by
  unfold JwksVerifier.fromOidcIssuer at h
  simp only at h
  split at h
  · cases h
  · cases h
  · cases h
  · rename_i config hfetch
    split at h
    · cases h
    · rename_i hsame
      refine ⟨config, hfetch, not_not.mp hsame, ?_⟩
      split at h
      · split at h
        · cases h
        · cases h
          rfl
      · cases h
        rfl

end Spec

end Auth
end McpCore
