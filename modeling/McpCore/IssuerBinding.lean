import McpCore.Auth

/-!
# What an OIDC issuer is bound to

Setting up trims trailing slashes off the configured issuer, the published one
and the expected one, so that these may differ in them; the check of a token
compares its `iss` with the trimmed issuer exactly.  A provider puts the issuer
it publishes into its tokens, so its own tokens pass exactly if it publishes its
issuer without a trailing slash.
-/

namespace McpCore
namespace Auth

open Text

/-- The verifier accepts the issuer as it is published and no other, trailing
slashes aside. -/
structure BindsIssuer (published : String) (audience : Option String)
    (verifier : JwksVerifier) : Prop where
  /-- A token of the issuer, with an expiry and the audience, is accepted. -/
  accepts : ∀ jwtk token claims, jwtk verifier.jwksUrl token = .ok claims →
    claims.exp.isSome = true →
    (∀ expected, audience = some expected → expected ∈ claims.aud) →
    claims.iss = some published →
    verifier.verify jwtk token = .ok ()
  /-- A token of another issuer is refused. -/
  refuses : ∀ jwtk token claims iss, jwtk verifier.jwksUrl token = .ok claims →
    claims.iss = some iss → trimSlashes iss ≠ trimSlashes published →
    verifier.verify jwtk token ≠ .ok ()

theorem verify_eq_ok_iff
    {jwtk : String → String → Except String Claims} {verifier : JwksVerifier} {token : String}
    {claims : Claims} (hsigned : jwtk verifier.jwksUrl token = .ok claims) :
    verifier.verify jwtk token = .ok () ↔
      claims.exp.isSome = true ∧
      (∀ expected, verifier.bindings.issuer = some expected → claims.iss = some expected) ∧
      (∀ expected, verifier.bindings.audience = some expected → expected ∈ claims.aud) := by
  simp only [JwksVerifier.verify, hsigned, checkClaimBindings_eq_ok_iff]

/-- Nothing is trimmed off an issuer exactly if it does not end in a slash. -/
theorem trimSlashes_eq_self_iff (s : String) :
    trimSlashes s = s ↔ s.toList.getLast? ≠ some '/' := by
  rw [← String.toList_inj, trimSlashes, toList_trimEndMatches, List.rdropWhile_eq_self_iff]
  constructor
  · intro h hlast
    obtain ⟨before, hbefore⟩ := List.getLast?_eq_some_iff.mp hlast
    have hne : s.toList ≠ [] := by
      simp [hbefore]
    have hslash : s.toList.getLast hne = '/' := by
      simp [hbefore]
    exact h hne (by simp [hslash])
  · intro h hne hslash
    refine h ?_
    rw [List.getLast?_eq_getLast_of_ne_nil hne]
    simpa using hslash

@[simp] theorem trimSlashes_trimSlashes (s : String) :
    trimSlashes (trimSlashes s) = trimSlashes s := by
  simp only [trimSlashes, trimEndMatches, String.toList_ofList, List.rdropWhile_idempotent]

/--
Of an issuer that setting up accepts, whatever is configured: the tokens that
carry it as it is published are accepted, and those of other issuers refused,
exactly if it is published without a trailing slash.
-/
theorem issuer_bound_iff
    (fetch : String → Discovery) (issuerUrl : String) (bindings : WsClaimBindings)
    (verifier : JwksVerifier)
    (haccepted : JwksVerifier.fromOidcIssuer fetch issuerUrl bindings = .ok verifier) :
    ∃ config, fetch (JwksVerifier.wellKnown (trimSlashes issuerUrl)) = .config config ∧
      (BindsIssuer config.issuer bindings.audience verifier ↔
        config.issuer.toList.getLast? ≠ some '/') := by
  obtain ⟨config, hfetch, -, rfl⟩ := fromOidcIssuer_eq_ok haccepted
  refine ⟨config, hfetch, ?_⟩
  rw [← trimSlashes_eq_self_iff]
  constructor
  · intro h
    -- a token of the issuer, as its provider would make it
    have hverify := h.accepts
      (fun _ _ => .ok ⟨some 0, some config.issuer, bindings.audience.toList⟩) ""
      _ rfl rfl (by simp) rfl
    obtain ⟨-, hissuer, -⟩ := (verify_eq_ok_iff rfl).mp hverify
    exact (Option.some.inj (hissuer _ rfl)).symm
  · intro hsame
    constructor
    · intro jwtk token claims hsigned hexp haud hiss
      refine (verify_eq_ok_iff hsigned).mpr ⟨hexp, ?_, haud⟩
      intro expected hexpected
      cases hexpected
      rw [hiss, hsame]
    · intro jwtk token claims iss hsigned hiss hdiffers hverify
      obtain ⟨-, hissuer, -⟩ := (verify_eq_ok_iff hsigned).mp hverify
      have hbound := hissuer _ rfl
      rw [hiss] at hbound
      exact hdiffers (by rw [Option.some.inj hbound, trimSlashes_trimSlashes])

/-- A provider that publishes its issuer with a trailing slash: set up for it, the
verifier refuses its tokens. -/
theorem issuer_not_bound_with_slash :
    let config : OidcConfig := ⟨"https://idp.example/keys", "https://idp.example/"⟩
    let verifier : JwksVerifier :=
      ⟨"https://idp.example/keys", ⟨some "https://idp.example", none⟩⟩
    JwksVerifier.fromOidcIssuer (fun _ => .config config) "https://idp.example/"
        ⟨none, none⟩ = .ok verifier ∧
      verifier.verify (fun _ _ => .ok ⟨some 4102444800, some "https://idp.example/", []⟩) "token" =
        .error "issuer mismatch: expected https://idp.example, got https://idp.example/" ∧
      ¬ BindsIssuer config.issuer none verifier := by
  intro config verifier
  have hrefused : verifier.verify
      (fun _ _ => .ok ⟨some 4102444800, some "https://idp.example/", []⟩) "token" =
        .error "issuer mismatch: expected https://idp.example, got https://idp.example/" := by
    decide
  refine ⟨by decide, hrefused, fun h => ?_⟩
  have haccepted := h.accepts
    (fun _ _ => .ok ⟨some 4102444800, some "https://idp.example/", []⟩) "token" _ rfl rfl
    (by simp) rfl
  rw [hrefused] at haccepted
  cases haccepted

/-- Configured with slashes and published without: the issuer is bound. -/
theorem issuer_bound_iff_without_slash :
    let config : OidcConfig := ⟨"https://idp.example/keys", "https://idp.example"⟩
    let fetch := fun url =>
      if url = "https://idp.example/.well-known/openid-configuration" then
        Discovery.config config
      else .failed "404"
    ∃ verifier,
      JwksVerifier.fromOidcIssuer fetch "https://idp.example//"
          ⟨some "https://idp.example/", some "mcp"⟩ = .ok verifier ∧
      BindsIssuer "https://idp.example" (some "mcp") verifier := by
  intro config fetch
  have hset : JwksVerifier.fromOidcIssuer fetch "https://idp.example//"
      ⟨some "https://idp.example/", some "mcp"⟩ =
        .ok ⟨"https://idp.example/keys", ⟨some "https://idp.example", some "mcp"⟩⟩ := by
    decide
  obtain ⟨config', hconfig, hiff⟩ := issuer_bound_iff fetch "https://idp.example//"
    ⟨some "https://idp.example/", some "mcp"⟩ _ hset
  have hfound : fetch (JwksVerifier.wellKnown (trimSlashes "https://idp.example//")) =
      .config config := by
    rfl
  rw [hfound] at hconfig
  cases hconfig
  exact ⟨_, hset, hiff.mpr (by decide)⟩

end Auth
end McpCore
