import McpCore.IssuerBinding

/-!
# Who may connect

The authenticator of the websocket transport: how it is built from a strategy and
the bindings, how it takes a token out of the headers of a connection, and what it
asks of the token.  A shared secret is checked by configuring a library's
`Validation`, key sets by hand after the library has verified the token.

`authentication_uniform` says that both ask the same.
-/

namespace McpCore
namespace Auth

open Text

section Libraries

/-- A claim that a validation may require. -/
inductive SpecClaim where
  | exp
  | iss
  | aud
deriving DecidableEq

/-- The claims in a token's payload; `aud` may be absent, one or many. -/
structure Payload where
  exp : Option Nat
  iss : Option String
  aud : Option (List String)
deriving DecidableEq

/-- The claims as `jwtk` hands them over, without a difference between no audience
and an empty one. -/
def Payload.claims (payload : Payload) : Claims :=
  ⟨payload.exp, payload.iss, payload.aud.getD []⟩

def Payload.has (payload : Payload) : SpecClaim → Bool
  | .exp => payload.exp.isSome
  | .iss => payload.iss.isSome
  | .aud => payload.aud.isSome

/-- `jsonwebtoken::Validation`, as far as it is configured. -/
structure Validation where
  requiredSpecClaims : List SpecClaim
  iss : Option (List String)
  aud : Option (List String)
  validateAud : Bool
deriving DecidableEq

namespace Validation

/-- `Validation::default()`. -/
def default : Validation :=
  ⟨[.exp], none, none, true⟩

def setIssuer (validation : Validation) (items : List String) : Validation :=
  { validation with iss := some items }

def setAudience (validation : Validation) (items : List String) : Validation :=
  { validation with aud := some items }

def require (validation : Validation) (claim : SpecClaim) : Validation :=
  { validation with requiredSpecClaims := claim :: validation.requiredSpecClaims }

/-- A present issuer is one of those that are set. -/
def admitsIssuer (validation : Validation) (iss : Option String) : Bool :=
  match iss, validation.iss with
  | some iss, some expected => expected.contains iss
  | _, _ => true

/-- A present audience meets one that is set; without one set it is refused. -/
def admitsAudience (validation : Validation) (aud : Option (List String)) : Bool :=
  match aud, validation.aud with
  | none, _ => true
  | some _, none => false
  | some aud, some expected => aud.any fun a => expected.contains a

/-- What `jsonwebtoken` checks of a payload beside signature and time. -/
def admits (validation : Validation) (payload : Payload) : Bool :=
  validation.requiredSpecClaims.all payload.has &&
    validation.admitsIssuer payload.iss &&
    (!validation.validateAud || validation.admitsAudience payload.aud)

end Validation

/-- A header's value, not necessarily text. -/
abbrev HeaderValue := List UInt8

/-- The headers of a connection, by name in lower case. -/
abbrev HeaderMap := List (String × HeaderValue)

/-- What other crates do for the authenticator. -/
structure Crates where
  /-- `HeaderValue::to_str`. -/
  toStr : HeaderValue → Option String
  /-- `jsonwebtoken::decode` with an HS256 secret, its error displayed. -/
  decode : String → String → Validation → Except String Payload
  /-- `RemoteJwksVerifier::verify` with the keys at a URL, its error displayed. -/
  verify : String → String → Except String Claims

/-- Where the keys of a strategy come from. -/
inductive KeySource where
  | secret (secret : String)
  | jwks (url : String)
deriving DecidableEq

def isVisibleAscii (b : UInt8) : Bool :=
  (32 ≤ b && b < 127) || b == 9

/-- How the crates are documented, where `signed keys token` is the payload of a
token whose signature and times pass.  A token whose `iss` is an array has no such payload
and lies outside of this: `jsonwebtoken` accepts one that contains an expected issuer. -/
structure Crates.Documented (crates : Crates)
    (signed : KeySource → String → Option Payload) : Prop where
  toStr : ∀ value text, crates.toStr value = some text ↔
    value.all isVisibleAscii = true ∧ value = asBytes text
  decode : ∀ secret token validation, (∃ payload,
    crates.decode secret token validation = .ok payload) ↔
      ∃ payload, signed (.secret secret) token = some payload ∧
        validation.admits payload = true
  verify : ∀ url token claims, crates.verify url token = .ok claims ↔
    ∃ payload, signed (.jwks url) token = some payload ∧ claims = payload.claims

end Libraries

section Model

/-- Why a connection was refused. -/
structure AuthError where
  reason : String
deriving DecidableEq

/-- How websocket connections are authenticated. -/
inductive WsAuth where
  | none
  | secret (secret : String)
  | jwks (url : String)
  | oidcIssuer (issuer : String)
deriving DecidableEq

inductive Kind where
  | none
  | secret (key : String) (validation : Validation)
  | jwks (verifier : JwksVerifier)
deriving DecidableEq

structure Authenticator where
  kind : Kind
deriving DecidableEq

/-- The bindings layered on the library's default, which already requires `exp`. -/
def secretValidation (bindings : WsClaimBindings) : Validation :=
  let validation := Validation.default
  let validation :=
    match bindings.issuer with
    | some iss => (validation.setIssuer [iss]).require .iss
    | none => validation
  match bindings.audience with
  | some aud => (validation.setAudience [aud]).require .aud
  | none => { validation with validateAud := false }

/-- `Authenticator::from`. -/
def Authenticator.fromWsAuth (fetch : String → Discovery) (auth : WsAuth)
    (bindings : WsClaimBindings) : Except Error Authenticator :=
  match auth with
  | .none => .ok ⟨.none⟩
  | .secret secret => .ok ⟨.secret secret (secretValidation bindings)⟩
  | .jwks url => .ok ⟨.jwks (.fromJwksUrl url bindings)⟩
  | .oidcIssuer issuer =>
      match JwksVerifier.fromOidcIssuer fetch issuer bindings with
      | .ok verifier => .ok ⟨.jwks verifier⟩
      | .error err => .error err

/-- Pull the token out of an `Authorization: Bearer <token>` header. -/
def extractBearer (crates : Crates) (headers : HeaderMap) : Except AuthError String :=
  match headers.lookup "authorization" with
  | none => .error ⟨"missing Authorization header"⟩
  | some value =>
      match crates.toStr value with
      | none => .error ⟨"invalid Authorization header"⟩
      | some value =>
          match splitOnce value ' ' with
          | none => .error ⟨"expected `Authorization: Bearer <token>`"⟩
          | some (scheme, rest) =>
              if !eqIgnoreAsciiCase scheme "Bearer" then
                .error ⟨"expected `Authorization: Bearer <token>`"⟩
              else
                let token := trim rest
                if token = "" then .error ⟨"empty Bearer token"⟩
                else .ok token

/-- Whether a connection with these headers may proceed. -/
def Authenticator.check (crates : Crates) (authenticator : Authenticator)
    (headers : HeaderMap) : Except AuthError Unit :=
  match authenticator.kind with
  | .none => .ok ()
  | .secret key validation =>
      match extractBearer crates headers with
      | .error err => .error err
      | .ok token =>
          match crates.decode key token validation with
          | .ok _ => .ok ()
          | .error e => .error ⟨s!"JWT validation failed: {e}"⟩
  | .jwks verifier =>
      match extractBearer crates headers with
      | .error err => .error err
      | .ok token =>
          match verifier.verify crates.verify token with
          | .ok _ => .ok ()
          | .error e => .error ⟨s!"JWT verification failed: {e}"⟩

end Model

section Spec

/-- The first `Authorization` value is visible ASCII: the scheme `Bearer`, one space,
and the token, white space around it aside. -/
def CarriesBearer (headers : HeaderMap) (token : String) : Prop :=
  ∃ scheme rest, headers.lookup "authorization" = some (asBytes (scheme ++ " " ++ rest)) ∧
    (asBytes (scheme ++ " " ++ rest)).all isVisibleAscii = true ∧
    eqIgnoreAsciiCase scheme "Bearer" = true ∧
    trim rest = token ∧ token ≠ ""

/-- What the policy asks of the claims in a payload. -/
structure Meets (bindings : WsClaimBindings) (payload : Payload) : Prop where
  exp : payload.exp.isSome = true
  issuer : ∀ expected, bindings.issuer = some expected → payload.iss = some expected
  audience : ∀ expected, bindings.audience = some expected →
    ∃ aud, payload.aud = some aud ∧ expected ∈ aud

theorem space_not_mem_scheme {scheme : String}
    (h : eqIgnoreAsciiCase scheme "Bearer" = true) :
    ' ' ∉ scheme.toList := by
  intro hspace
  have hlower : scheme.toList.map Char.toLower = "Bearer".toList.map Char.toLower := by
    simpa [eqIgnoreAsciiCase] using h
  have hmem : Char.toLower ' ' ∈ scheme.toList.map Char.toLower := List.mem_map_of_mem hspace
  rw [hlower] at hmem
  exact absurd hmem (by decide)

theorem splitOnce_space_iff {text scheme rest : String}
    (hscheme : eqIgnoreAsciiCase scheme "Bearer" = true) :
    splitOnce text ' ' = some (scheme, rest) ↔ text = scheme ++ " " ++ rest := by
  rw [splitOnce_eq_some_iff, ← String.toList_inj]
  simp [space_not_mem_scheme hscheme]

variable {crates : Crates} {signed : KeySource → String → Option Payload}

theorem extractBearer_eq_ok_iff (hcrates : crates.Documented signed)
    {headers : HeaderMap} {token : String} :
    extractBearer crates headers = .ok token ↔ CarriesBearer headers token := by
  unfold extractBearer
  constructor
  · intro h
    split at h
    · cases h
    · rename_i value hvalue
      split at h
      · cases h
      · rename_i text htext
        split at h
        · cases h
        · rename_i scheme rest hsplit
          split at h
          · cases h
          · rename_i hscheme
            have hbearer : eqIgnoreAsciiCase scheme "Bearer" = true := by
              simpa using hscheme
            simp only at h
            split at h
            · cases h
            · rename_i hne
              cases h
              obtain ⟨hascii, rfl⟩ := (hcrates.toStr _ _).mp htext
              obtain rfl := (splitOnce_space_iff hbearer).mp hsplit
              exact ⟨scheme, rest, hvalue, hascii, hbearer, rfl, hne⟩
  · rintro ⟨scheme, rest, hvalue, hascii, hbearer, rfl, hne⟩
    have htext : crates.toStr (asBytes (scheme ++ " " ++ rest)) = some (scheme ++ " " ++ rest) :=
      (hcrates.toStr _ _).mpr ⟨hascii, rfl⟩
    simp only [hvalue, htext, (splitOnce_space_iff hbearer).mpr rfl, hbearer, Bool.not_true,
      Bool.false_eq_true, if_false, if_neg hne]

/-- How the bindings configure the library: presence and value are separate
switches. -/
theorem secretValidation_eq (bindings : WsClaimBindings) :
    (secretValidation bindings).iss = bindings.issuer.map (fun iss => [iss]) ∧
    (secretValidation bindings).aud = bindings.audience.map (fun aud => [aud]) ∧
    (secretValidation bindings).validateAud = bindings.audience.isSome ∧
    ∀ claim, claim ∈ (secretValidation bindings).requiredSpecClaims ↔
      claim = .exp ∨ (claim = .iss ∧ bindings.issuer.isSome = true) ∨
        (claim = .aud ∧ bindings.audience.isSome = true) := by
  obtain ⟨issuer, audience⟩ := bindings
  cases issuer with
  | none =>
      cases audience with
      | none =>
          simp [secretValidation, Validation.default]
      | some aud =>
          simp [secretValidation, Validation.default, Validation.setAudience, Validation.require,
            or_comm]
  | some iss =>
      cases audience with
      | none =>
          simp [secretValidation, Validation.default, Validation.setIssuer, Validation.require,
            or_comm]
      | some aud =>
          refine ⟨rfl, rfl, rfl, fun claim => ?_⟩
          cases claim with
          | exp =>
              simp [secretValidation, Validation.default, Validation.setIssuer,
                Validation.setAudience, Validation.require]
          | iss =>
              simp [secretValidation, Validation.setAudience, Validation.require]
          | aud =>
              simp [secretValidation, Validation.require]

theorem admits_iff {validation : Validation} {payload : Payload} :
    validation.admits payload = true ↔
      (∀ claim ∈ validation.requiredSpecClaims, payload.has claim = true) ∧
      validation.admitsIssuer payload.iss = true ∧
      (validation.validateAud = true → validation.admitsAudience payload.aud = true) := by
  rw [Validation.admits, Bool.and_eq_true, Bool.and_eq_true, List.all_eq_true, Bool.or_eq_true,
    Bool.not_eq_true', and_assoc]
  cases validation.validateAud with
  | false => simp
  | true => simp

/-- The configured `Validation` asks what the policy asks. -/
theorem secretValidation_admits_iff {bindings : WsClaimBindings} {payload : Payload} :
    (secretValidation bindings).admits payload = true ↔ Meets bindings payload := by
  obtain ⟨hiss, haud, hvalidate, hrequired⟩ := secretValidation_eq bindings
  rw [admits_iff]
  simp only [hrequired, hvalidate, Validation.admitsIssuer, Validation.admitsAudience, hiss, haud]
  constructor
  · rintro ⟨hpresent, hissuer, haudience⟩
    refine ⟨hpresent .exp (.inl rfl), fun expected hexpected => ?_, fun expected hexpected => ?_⟩
    · have hsome : payload.iss.isSome = true :=
        hpresent .iss (.inr (.inl ⟨rfl, by simp [hexpected]⟩))
      obtain ⟨iss, hiss⟩ := Option.isSome_iff_exists.mp hsome
      rw [hiss, hexpected] at hissuer
      have hsame : iss = expected := by
        simpa using hissuer
      rw [hiss, hsame]
    · have hsome : payload.aud.isSome = true :=
        hpresent .aud (.inr (.inr ⟨rfl, by simp [hexpected]⟩))
      obtain ⟨aud, haud⟩ := Option.isSome_iff_exists.mp hsome
      rw [haud, hexpected] at haudience
      have hmem : expected ∈ aud := by
        simpa using haudience rfl
      exact ⟨aud, haud, hmem⟩
  · rintro ⟨hexp, hissuer, haudience⟩
    refine ⟨?_, ?_, ?_⟩
    · rintro claim (rfl | ⟨rfl, hsome⟩ | ⟨rfl, hsome⟩)
      · exact hexp
      · obtain ⟨expected, hexpected⟩ := Option.isSome_iff_exists.mp hsome
        simp [Payload.has, hissuer expected hexpected]
      · obtain ⟨expected, hexpected⟩ := Option.isSome_iff_exists.mp hsome
        obtain ⟨aud, haud, -⟩ := haudience expected hexpected
        simp [Payload.has, haud]
    · cases hbound : bindings.issuer with
      | none =>
          cases payload.iss <;> rfl
      | some expected =>
          simp [hissuer expected hbound]
    · intro hsome
      obtain ⟨expected, hexpected⟩ := Option.isSome_iff_exists.mp hsome
      obtain ⟨aud, haud, hmem⟩ := haudience expected hexpected
      simpa [haud, hexpected] using hmem

/-- So does the check by hand. -/
theorem checkClaimBindings_claims_iff {bindings : WsClaimBindings} {payload : Payload} :
    checkClaimBindings payload.claims.exp.isSome payload.claims.iss payload.claims.aud bindings =
      .ok () ↔ Meets bindings payload := by
  rw [checkClaimBindings_eq_ok_iff]
  have haudience : ∀ expected, expected ∈ payload.claims.aud ↔
      ∃ aud, payload.aud = some aud ∧ expected ∈ aud := by
    intro expected
    cases haud : payload.aud with
    | none => simp [Payload.claims, haud]
    | some aud => simp [Payload.claims, haud]
  constructor
  · rintro ⟨hexp, hissuer, haud⟩
    exact ⟨hexp, hissuer, fun expected h => (haudience expected).mp (haud expected h)⟩
  · rintro ⟨hexp, hissuer, haud⟩
    exact ⟨hexp, hissuer, fun expected h => (haudience expected).mpr (haud expected h)⟩

/-- The keys and the bindings that an accepted strategy comes to: an OIDC issuer also
binds the issuer it publishes, without trailing slashes. -/
inductive Bound (fetch : String → Discovery) (bindings : WsClaimBindings) :
    WsAuth → KeySource → WsClaimBindings → Prop
  | secret (secret : String) : Bound fetch bindings (.secret secret) (.secret secret) bindings
  | jwks (url : String) : Bound fetch bindings (.jwks url) (.jwks url) bindings
  | oidcIssuer (issuer : String) (config : OidcConfig)
      (hfetch : fetch (JwksVerifier.wellKnown (trimSlashes issuer)) = .config config)
      (hsame : trimSlashes config.issuer = trimSlashes issuer) :
      Bound fetch bindings (.oidcIssuer issuer) (.jwks config.jwksUri)
        { bindings with issuer := some (trimSlashes config.issuer) }

/-- A connection is accepted for a token that is signed and meets the bindings. -/
def Accepts (signed : KeySource → String → Option Payload) (keys : KeySource)
    (bindings : WsClaimBindings) (headers : HeaderMap) : Prop :=
  ∃ token payload, CarriesBearer headers token ∧ signed keys token = some payload ∧
    Meets bindings payload

/-- With a bearer token it is the token that decides. -/
theorem accepts_iff_of_bearer (hcrates : crates.Documented signed)
    {keys : KeySource} {bindings : WsClaimBindings} {headers : HeaderMap} {token : String}
    (hcarries : CarriesBearer headers token) :
    Accepts signed keys bindings headers ↔
      ∃ payload, signed keys token = some payload ∧ Meets bindings payload := by
  constructor
  · rintro ⟨token', payload, hcarries', hsigned, hmeets⟩
    rw [← extractBearer_eq_ok_iff hcrates] at hcarries hcarries'
    obtain rfl : token = token' := by
      rw [hcarries] at hcarries'
      exact Except.ok.inj hcarries'
    exact ⟨payload, hsigned, hmeets⟩
  · rintro ⟨payload, hsigned, hmeets⟩
    exact ⟨token, payload, hcarries, hsigned, hmeets⟩

/-- Without one nothing is accepted. -/
theorem not_accepts_of_extractBearer (hcrates : crates.Documented signed)
    {keys : KeySource} {bindings : WsClaimBindings} {headers : HeaderMap} {err : AuthError}
    (h : extractBearer crates headers = .error err) :
    ¬ Accepts signed keys bindings headers := by
  rintro ⟨token, payload, hcarries, -, -⟩
  rw [← extractBearer_eq_ok_iff hcrates, h] at hcarries
  cases hcarries

theorem check_secret_iff (hcrates : crates.Documented signed)
    (secret : String) (bindings : WsClaimBindings) (headers : HeaderMap) :
    Authenticator.check crates ⟨.secret secret (secretValidation bindings)⟩ headers = .ok () ↔
      Accepts signed (.secret secret) bindings headers := by
  cases hbearer : extractBearer crates headers with
  | error err =>
      simp [Authenticator.check, hbearer, not_accepts_of_extractBearer hcrates hbearer]
  | ok token =>
      have hdecode := hcrates.decode secret token (secretValidation bindings)
      simp only [secretValidation_admits_iff] at hdecode
      rw [accepts_iff_of_bearer hcrates ((extractBearer_eq_ok_iff hcrates).mp hbearer), ← hdecode]
      cases hpayload : crates.decode secret token (secretValidation bindings) with
      | error e => simp [Authenticator.check, hbearer, hpayload]
      | ok payload => simp [Authenticator.check, hbearer, hpayload]

/-- What verification by a key set asks of a token. -/
theorem verify_iff (hcrates : crates.Documented signed)
    (url : String) (bindings : WsClaimBindings) (token : String) :
    JwksVerifier.verify crates.verify ⟨url, bindings⟩ token = .ok () ↔
      ∃ payload, signed (.jwks url) token = some payload ∧ Meets bindings payload := by
  cases hclaims : crates.verify url token with
  | error e =>
      have hnone : ∀ payload, signed (.jwks url) token ≠ some payload := by
        intro payload hsigned
        have hok := (hcrates.verify url token payload.claims).mpr ⟨payload, hsigned, rfl⟩
        rw [hclaims] at hok
        cases hok
      simp [JwksVerifier.verify, hclaims, hnone]
  | ok claims =>
      obtain ⟨payload, hsigned, rfl⟩ := (hcrates.verify _ _ _).mp hclaims
      simp [JwksVerifier.verify, hclaims, hsigned, checkClaimBindings_claims_iff]

theorem check_jwks_iff (hcrates : crates.Documented signed)
    (url : String) (bindings : WsClaimBindings) (headers : HeaderMap) :
    Authenticator.check crates ⟨.jwks (.fromJwksUrl url bindings)⟩ headers = .ok () ↔
      Accepts signed (.jwks url) bindings headers := by
  cases hbearer : extractBearer crates headers with
  | error err =>
      simp [Authenticator.check, hbearer, not_accepts_of_extractBearer hcrates hbearer]
  | ok token =>
      rw [accepts_iff_of_bearer hcrates ((extractBearer_eq_ok_iff hcrates).mp hbearer),
        ← verify_iff hcrates]
      have hverifier : JwksVerifier.fromJwksUrl url bindings = ⟨url, bindings⟩ := rfl
      cases hverify : JwksVerifier.verify crates.verify ⟨url, bindings⟩ token with
      | error e => simp [Authenticator.check, hbearer, hverifier, hverify]
      | ok _ => simp [Authenticator.check, hbearer, hverifier, hverify]

/-- Every accepted strategy but `none` comes to keys and bindings that its
authenticator enforces. -/
theorem check_iff_of_fromWsAuth (hcrates : crates.Documented signed)
    {fetch : String → Discovery} {auth : WsAuth} {bindings : WsClaimBindings}
    {authenticator : Authenticator} (hauth : auth ≠ .none)
    (hfrom : Authenticator.fromWsAuth fetch auth bindings = .ok authenticator) :
    ∃ keys bound, Bound fetch bindings auth keys bound ∧
      ∀ headers, authenticator.check crates headers = .ok () ↔
        Accepts signed keys bound headers := by
  cases auth with
  | none =>
      exact absurd rfl hauth
  | secret secret =>
      cases hfrom
      exact ⟨_, _, .secret secret, check_secret_iff hcrates secret bindings⟩
  | jwks url =>
      cases hfrom
      exact ⟨_, _, .jwks url, check_jwks_iff hcrates url bindings⟩
  | oidcIssuer issuer =>
      cases hverifier : JwksVerifier.fromOidcIssuer fetch issuer bindings with
      | error err =>
          simp [Authenticator.fromWsAuth, hverifier] at hfrom
      | ok verifier =>
          simp only [Authenticator.fromWsAuth, hverifier, Except.ok.injEq] at hfrom
          obtain ⟨config, hfetch, hsame, rfl⟩ := fromOidcIssuer_eq_ok hverifier
          subst hfrom
          exact ⟨_, _, .oidcIssuer issuer config hfetch hsame, check_jwks_iff hcrates _ _⟩

/--
Authentication is fail-closed and asks the same under every strategy: a connection
is accepted exactly for a bearer token that is signed and whose claims meet the
bindings of the strategy; so tokens with the same claims, signed under a shared secret
and under a key set with the same bindings, are accepted alike.
-/
theorem authentication_uniform
    (crates : Crates) (signed : KeySource → String → Option Payload)
    (hcrates : crates.Documented signed) (fetch : String → Discovery) :
    (∀ auth bindings authenticator, auth ≠ .none →
      Authenticator.fromWsAuth fetch auth bindings = .ok authenticator →
      ∃ keys bound, Bound fetch bindings auth keys bound ∧
        ∀ headers, authenticator.check crates headers = .ok () ↔
          ∃ token payload, CarriesBearer headers token ∧
            signed keys token = some payload ∧ Meets bound payload) ∧
    ∀ bindings secret url bySecret byKeySet,
      Authenticator.fromWsAuth fetch (.secret secret) bindings = .ok bySecret →
      Authenticator.fromWsAuth fetch (.jwks url) bindings = .ok byKeySet →
      ∀ headers token headers' token' payload,
        CarriesBearer headers token → signed (.secret secret) token = some payload →
        CarriesBearer headers' token' → signed (.jwks url) token' = some payload →
        (bySecret.check crates headers = .ok () ↔ byKeySet.check crates headers' = .ok ()) := by
  refine ⟨fun auth bindings authenticator hauth hfrom =>
    check_iff_of_fromWsAuth hcrates hauth hfrom, ?_⟩
  intro bindings secret url bySecret byKeySet hsecret hjwks headers token headers' token' payload
    hcarries hsigned hcarries' hsigned'
  cases hsecret
  cases hjwks
  rw [check_secret_iff hcrates, check_jwks_iff hcrates, accepts_iff_of_bearer hcrates hcarries,
    accepts_iff_of_bearer hcrates hcarries', hsigned, hsigned']

/-- Crates that take the token `token` for signed, with this payload, whatever the
keys. -/
def cratesFor (payload : Payload) : Crates where
  toStr value := if value.all isVisibleAscii then decodeUtf8 value else none
  decode _ token validation :=
    if token = "token" && validation.admits payload then .ok payload else .error "refused"
  verify _ token := if token = "token" then .ok payload.claims else .error "refused"

theorem documented_cratesFor (payload : Payload) :
    (cratesFor payload).Documented
      fun _ token => if token = "token" then some payload else none where
  toStr value text := by
    by_cases hascii : value.all isVisibleAscii = true
    · simp only [cratesFor, hascii, if_true, true_and, decodeUtf8_eq_some_iff]
    · simp only [cratesFor, hascii, Bool.false_eq_true, if_false, false_and, reduceCtorEq]
  decode secret token validation := by
    by_cases htoken : token = "token"
    · by_cases hadmits : validation.admits payload = true
      · simp [cratesFor, htoken, hadmits]
      · simp [cratesFor, htoken, hadmits]
    · simp [cratesFor, htoken]
  verify url token claims := by
    by_cases htoken : token = "token"
    · simp only [cratesFor, htoken, if_true, Except.ok.injEq, Option.some.injEq,
        exists_eq_left']
      exact eq_comm
    · simp [cratesFor, htoken]

/-- A token for several audiences, under a scheme in odd case with a blank more: it is
accepted under the secret, and so it is under the key set and under one that was
discovered. -/
theorem authentication_uniform_of_audiences :
    let payload : Payload :=
      ⟨some 4102444800, some "https://idp.example", some ["other", "mcp"]⟩
    let bindings : WsClaimBindings := ⟨some "https://idp.example", some "mcp"⟩
    let headers : HeaderMap := [("authorization", asBytes ("bEARER" ++ " " ++ " token "))]
    let fetch (url : String) : Discovery :=
      if url = "https://idp.example/.well-known/openid-configuration" then
        .config ⟨"https://idp.example/keys", "https://idp.example"⟩
      else .failed "404"
    Authenticator.check (cratesFor payload)
        ⟨.secret "s3cr3t" (secretValidation bindings)⟩ headers = .ok () ∧
      Authenticator.check (cratesFor payload)
        ⟨.jwks (.fromJwksUrl "https://idp.example/keys" bindings)⟩ headers = .ok () ∧
      ∃ discovered, Authenticator.fromWsAuth fetch (.oidcIssuer "https://idp.example/")
          ⟨none, some "mcp"⟩ = .ok discovered ∧
        discovered.check (cratesFor payload) headers = .ok () := by
  intro payload bindings headers fetch
  obtain ⟨hstrategy, hsame⟩ := authentication_uniform (cratesFor payload) _
    (documented_cratesFor payload) fetch
  have hcarries : CarriesBearer headers "token" :=
    ⟨"bEARER", " token ", rfl, by decide, by decide, by decide, by decide⟩
  have hmeets : Meets bindings payload :=
    ⟨rfl, fun _ h => h, fun _ h => ⟨_, rfl, by cases h; simp⟩⟩
  obtain ⟨keys, bound, hbound, hcheck⟩ := hstrategy (.secret "s3cr3t") bindings _ nofun rfl
  cases hbound
  have haccepted := (hcheck headers).mpr ⟨"token", payload, hcarries, by simp, hmeets⟩
  refine ⟨haccepted, (hsame bindings "s3cr3t" "https://idp.example/keys" _ _ rfl rfl headers
    "token" headers "token" payload hcarries (by simp) hcarries (by simp)).mp haccepted, ?_⟩
  obtain ⟨discovered, hdiscovered⟩ : ∃ discovered, Authenticator.fromWsAuth fetch
      (.oidcIssuer "https://idp.example/") ⟨none, some "mcp"⟩ = .ok discovered := ⟨_, rfl⟩
  obtain ⟨keys, bound, hbound, hcheck⟩ :=
    hstrategy (.oidcIssuer "https://idp.example/") _ discovered nofun hdiscovered
  refine ⟨discovered, hdiscovered, (hcheck headers).mpr
    ⟨"token", payload, hcarries, by simp, ?_⟩⟩
  cases hbound with
  | oidcIssuer _ config hfetch hsame =>
      cases hfetch
      exact hmeets

end Spec

end Auth
end McpCore
