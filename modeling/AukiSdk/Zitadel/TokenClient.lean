import AukiSdk.Foundation.Checks
import AukiSdk.Net.Clock

/-!
# The ZITADEL refresh request

A refresh discovers the token endpoint and then submits the refresh token there.
-/

namespace AukiSdk.Zitadel

open AukiSdk.Net

inductive ZitadelOAuthError where
  | invalidGrant
  | invalidClient
  | unauthorizedClient
  | invalidRequest
  | invalidScope
  | temporarilyUnavailable
  | serverError
  | other
deriving DecidableEq

/-- `transport` stands for the failures of the HTTP request itself. -/
inductive Error where
  | authenticationRequired
  | sessionClosed
  | sessionOperationPending
  | authorizationDenied
  | zitadelOAuth (error : ZitadelOAuthError)
  | refreshOutcomeUnknown
  | persistence
  | invalidConfiguration (reason : String)
  | invalidInput (field reason : String)
  | cancelled (endpoint : String)
  | httpStatus (endpoint : String) (status : ℕ)
  | invalidResponse (endpoint reason : String)
  | domainNotAccessible
  | transport (endpoint : String)
deriving DecidableEq

inductive AuthFailureKind where
  | authenticationRequired
  | configuration
  | authorizationDenied
  | persistence
  | transient
  | cancelled
  | closed
deriving DecidableEq

def Error.kind : Error → AuthFailureKind
  | .authenticationRequired => .authenticationRequired
  | .refreshOutcomeUnknown => .authenticationRequired
  | .zitadelOAuth .invalidGrant => .authenticationRequired
  | .zitadelOAuth .other => .authenticationRequired
  | .httpStatus _ 401 => .authenticationRequired
  | .invalidConfiguration _ => .configuration
  | .invalidInput _ _ => .configuration
  | .zitadelOAuth .invalidClient => .configuration
  | .zitadelOAuth .unauthorizedClient => .configuration
  | .zitadelOAuth .invalidRequest => .configuration
  | .zitadelOAuth .invalidScope => .configuration
  | .authorizationDenied => .authorizationDenied
  | .domainNotAccessible => .authorizationDenied
  | .httpStatus _ 403 => .authorizationDenied
  | .persistence => .persistence
  | .cancelled _ => .cancelled
  | .sessionClosed => .closed
  | _ => .transient

def DISCOVERY : String := "ZITADEL discovery"

/-- What the URL crate and the checks of tokens and clients decide. -/
structure Library (Url : Type) where
  parse : String → Option Url
  origin : Url → String
  validUrl : Url → Bool
  validClientId : String → Bool
  validToken : String → Bool

structure Credentials (Url : Type) where
  accessToken : String
  refreshToken : String
  clientId : String
  issuer : Url
  accessTokenExpiresAt : Option DateTime
deriving DecidableEq

structure TokenClient (Url : Type) where
  issuer : Url
  clientId : String

variable {Url : Type} [DecidableEq Url]

/-- `ZitadelSessionCredentials::new`. -/
def Credentials.new (library : Library Url) (accessToken refreshToken clientId : String)
    (issuer : Url) (expiresAt : Option DateTime) : Option (Credentials Url) :=
  if library.validUrl issuer ∧ library.validClientId clientId ∧ library.validToken accessToken ∧
      library.validToken refreshToken then
    some ⟨accessToken, refreshToken, clientId, issuer, expiresAt⟩
  else none

structure Discovery where
  issuer : String
  tokenEndpoint : String
  tokenEndpointAuthMethodsSupported : Option (List String)
  grantTypesSupported : Option (List String)

/-- An answer to the discovery request. -/
inductive DiscoveryAnswer where
  | failed (error : Error)
  | response (status : ℕ) (document : Option Discovery)

structure TokenResponse where
  accessToken : String
  refreshToken : Option String
  tokenType : String
  expiresIn : ℕ

/-- An answer to the token request. -/
inductive TokenAnswer where
  | failed
  | response (status : ℕ) (token : Option TokenResponse) (failure : Option String)

variable (client : TokenClient Url)

/-- The part of `refresh` before the token request. -/
def TokenClient.discover (library : Library Url) :
    DiscoveryAnswer → Except Error Url
  | .failed error => .error error
  | .response status document =>
    if status ≠ 200 then .error (.httpStatus DISCOVERY status)
    else
      match document with
      | none => .error (.invalidResponse DISCOVERY "invalid discovery document")
      | some discovery =>
        match library.parse discovery.issuer with
        | none => .error (.invalidConfiguration "invalid discovered issuer")
        | some advertised =>
          if advertised ≠ client.issuer then
            .error (.invalidConfiguration
              "discovered issuer does not match expected ZITADEL issuer")
          else
            match library.parse discovery.tokenEndpoint with
            | none => .error (.invalidConfiguration "invalid discovered token endpoint")
            | some endpoint => checkEndpoint discovery endpoint
where
  checkEndpoint (discovery : Discovery) (endpoint : Url) : Except Error Url :=
    if ¬ library.validUrl endpoint then
      .error (.invalidConfiguration ("ZITADEL URLs require HTTPS (or explicit loopback HTTP), " ++
        "without userinfo, query or fragment"))
    else if library.origin endpoint ≠ library.origin client.issuer then
      .error (.invalidConfiguration "ZITADEL token endpoint must share the expected issuer origin")
    else if discovery.tokenEndpointAuthMethodsSupported.any fun methods => "none" ∉ methods then
      .error (.invalidConfiguration "ZITADEL public-client authentication none is unsupported")
    else if discovery.grantTypesSupported.any fun grants => "refresh_token" ∉ grants then
      .error (.invalidConfiguration "ZITADEL refresh grant is unsupported")
    else .ok endpoint

def oauthError : String → ZitadelOAuthError
  | "invalid_grant" => .invalidGrant
  | "invalid_client" => .invalidClient
  | "unauthorized_client" => .unauthorizedClient
  | "invalid_request" => .invalidRequest
  | "invalid_scope" => .invalidScope
  | "temporarily_unavailable" => .temporarilyUnavailable
  | "server_error" => .serverError
  | _ => .other

/-- The expiry of a token that lives for some seconds; `none` where the times of
`chrono` end. -/
def expiryAfter (issuedAt : DateTime) (seconds : ℕ) : Option DateTime :=
  if seconds ≤ 9223372036854775 ∧
      issuedAt + (Duration.fromSecs seconds : ℕ) ≤ 8210266876799 * (nanosPerSecond : ℤ) then
    some (issuedAt + (Duration.fromSecs seconds : ℕ))
  else none

def eqIgnoreAsciiCase (text other : String) : Bool :=
  text.toList.map Char.toLower == other.toList.map Char.toLower

/-- What `refresh` makes of the answer to the token request. -/
def TokenClient.receive (library : Library Url) (credentials : Credentials Url)
    (issuedAt : DateTime) :
    TokenAnswer → Except Error (Credentials Url)
  | .failed => .error .refreshOutcomeUnknown
  | .response status token failure =>
    if status ≠ 200 then
      match failure with
      | none => .error .refreshOutcomeUnknown
      | some error => .error (.zitadelOAuth (oauthError error))
    else
      match token with
      | none => .error .refreshOutcomeUnknown
      | some token =>
        if ¬ eqIgnoreAsciiCase token.tokenType "Bearer" ∨ token.expiresIn = 0 then
          .error .refreshOutcomeUnknown
        else
          match expiryAfter issuedAt token.expiresIn with
          | none => .error .refreshOutcomeUnknown
          | some expiry =>
            match Credentials.new library token.accessToken
                (token.refreshToken.getD credentials.refreshToken) client.clientId
                client.issuer (some expiry) with
            | none => .error .refreshOutcomeUnknown
            | some replacement => .ok replacement

/-- `ZITADEL session issuer/client do not match` is found before any request. -/
def TokenClient.accepts (credentials : Credentials Url) :
    Except Error Unit :=
  if credentials.issuer ≠ client.issuer ∨ credentials.clientId ≠ client.clientId then
    .error (.invalidConfiguration
      "ZITADEL session issuer/client do not match expected configuration")
  else .ok ()

end AukiSdk.Zitadel
