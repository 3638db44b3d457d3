import Mathlib.Algebra.Order.Ring.Rat
import Awen.Library.Json
import Awen.Library.Runs
import Awen.Library.Table

/-!
# The store of sessions

`issue` creates a session and returns a token for it, a signed text with claims; `verify` accepts
the token. A websocket token is signed with the same key, and its claims say that it is one. The
sessions themselves are rows of a table, where they are revoked.

A date-time is the number of its milliseconds. The texts of tokens are lists of characters. What is
not this program's is a parameter: the JSON text of claims in base64url, the signature, and the
bytes that a base64url text stands for.
-/

namespace Awen.Auth

abbrev AuthSessionId := String

/-- A date-time, in milliseconds of the epoch. -/
abbrev EpochMillis := ℕ

/-! ## Scopes, methods and clients -/

inductive AuthEnvironmentScope
  | orchestrationRead
  | orchestrationOperate
  | terminalOperate
  | reviewWrite
  | accessRead
  | accessWrite
  deriving DecidableEq

def AuthEnvironmentScope.text : AuthEnvironmentScope → String
  | orchestrationRead => "orchestration:read"
  | orchestrationOperate => "orchestration:operate"
  | terminalOperate => "terminal:operate"
  | reviewWrite => "review:write"
  | accessRead => "access:read"
  | accessWrite => "access:write"

def AuthEnvironmentScope.all : List AuthEnvironmentScope :=
  [.orchestrationRead, .orchestrationOperate, .terminalOperate, .reviewWrite, .accessRead,
    .accessWrite]

def AuthEnvironmentScope.ofText? (text : String) : Option AuthEnvironmentScope :=
  all.find? (·.text = text)

@[simp] theorem AuthEnvironmentScope.ofText?_text (scope : AuthEnvironmentScope) :
    ofText? scope.text = some scope := by
  cases scope <;> decide

def authStandardClientScopes : List AuthEnvironmentScope :=
  [.orchestrationRead, .orchestrationOperate, .terminalOperate, .reviewWrite]

def authAdministrativeScopes : List AuthEnvironmentScope :=
  authStandardClientScopes ++ [.accessRead, .accessWrite]

inductive ServerAuthSessionMethod
  | browserSessionCookie
  | bearerAccessToken
  deriving DecidableEq

def ServerAuthSessionMethod.text : ServerAuthSessionMethod → String
  | browserSessionCookie => "browser-session-cookie"
  | bearerAccessToken => "bearer-access-token"

def ServerAuthSessionMethod.ofText? (text : String) : Option ServerAuthSessionMethod :=
  [browserSessionCookie, bearerAccessToken].find? (·.text = text)

@[simp] theorem ServerAuthSessionMethod.ofText?_text (method : ServerAuthSessionMethod) :
    ofText? method.text = some method := by
  cases method <;> decide

inductive AuthClientDeviceType
  | desktop
  | mobile
  | tablet
  | bot
  | unknown
  deriving DecidableEq

structure AuthClientMetadata where
  label : Option String := none
  ipAddress : Option String := none
  userAgent : Option String := none
  deviceType : AuthClientDeviceType
  os : Option String := none
  browser : Option String := none
  deriving DecidableEq

def createDefaultClientMetadata : AuthClientMetadata where
  deviceType := .unknown

/-- What a row says of its client; an empty text is left out. -/
def toClientMetadata (record : AuthClientMetadata) : AuthClientMetadata where
  label := record.label.filter (· ≠ "")
  ipAddress := record.ipAddress.filter (· ≠ "")
  userAgent := record.userAgent.filter (· ≠ "")
  deviceType := record.deviceType
  os := record.os.filter (· ≠ "")
  browser := record.browser.filter (· ≠ "")

/-! ## Claims -/

structure SessionClaims where
  sid : AuthSessionId
  sub : String
  scopes : List AuthEnvironmentScope
  method : ServerAuthSessionMethod
  iat : ℚ
  exp : ℚ
  deriving DecidableEq

structure WebSocketClaims where
  sid : AuthSessionId
  iat : ℚ
  exp : ℚ
  deriving DecidableEq

def SessionClaims.fields (claims : SessionClaims) : List (String × Option Json) :=
  [("v", some (.num 1)), ("kind", some (.str "session")), ("sid", some (.str claims.sid)),
    ("sub", some (.str claims.sub)),
    ("scopes", some (.arr (claims.scopes.map fun scope ↦ .str scope.text))),
    ("method", some (.str claims.method.text)), ("iat", some (.num claims.iat)),
    ("exp", some (.num claims.exp))]

def SessionClaims.json (claims : SessionClaims) : Json := .object claims.fields

def WebSocketClaims.fields (claims : WebSocketClaims) : List (String × Option Json) :=
  [("v", some (.num 1)), ("kind", some (.str "websocket")), ("sid", some (.str claims.sid)),
    ("iat", some (.num claims.iat)), ("exp", some (.num claims.exp))]

def WebSocketClaims.json (claims : WebSocketClaims) : Json := .object claims.fields

def decodeScopes (value : Json) : Option (List AuthEnvironmentScope) :=
  value.array?.bind (List.mapM fun item ↦ item.string?.bind AuthEnvironmentScope.ofText?)

/-- Whether claims have version 1 and are of a kind. -/
def isClaims (kind : String) (value : Json) : Bool :=
  decide ((value.field "v").bind Json.number? = some 1) &&
    decide ((value.field "kind").bind Json.string? = some kind)

def decodeSessionClaims (value : Json) : Option SessionClaims :=
  if isClaims "session" value then do
    let sid ← (← value.field "sid").string?
    let sub ← (← value.field "sub").string?
    let scopes ← decodeScopes (← value.field "scopes")
    let method ← (← (← value.field "method").string?) |> ServerAuthSessionMethod.ofText?
    let iat ← (← value.field "iat").number?
    let exp ← (← value.field "exp").number?
    some { sid, sub, scopes, method, iat, exp }
  else none

def decodeWebSocketClaims (value : Json) : Option WebSocketClaims :=
  if isClaims "websocket" value then do
    let sid ← (← value.field "sid").string?
    let iat ← (← value.field "iat").number?
    let exp ← (← value.field "exp").number?
    some { sid, iat, exp }
  else none

/-! ## Tokens -/

/-- **What tokens rest on**: the texts of claims, and cryptography. -/
structure TokenCodec where
  /-- `base64UrlEncode` of a value's JSON text. -/
  encodeText : Json → List Char
  /-- The value whose JSON text `base64UrlDecodeUtf8` yields, if it yields one. -/
  decodeText : List Char → Option Json
  /-- `signPayload` with the server's secret. -/
  signPayload : List Char → List Char
  /-- The bytes that a base64url text stands for. -/
  signatureBytes : List Char → List UInt8
  sha256 : List Char → List UInt8

variable (codec : TokenCodec)

def TokenCodec.timingSafeEqualBase64Url (left right : List Char) : Bool :=
  codec.signatureBytes left == codec.signatureBytes right

/-- `${encodedPayload}.${signature}`. -/
def tokenText (payload signature : List Char) : List Char := payload ++ '.' :: signature

/-- The first two parts of a token between its dots, where neither is empty. -/
def splitToken (token : List Char) : Option (List Char × List Char) :=
  match token.splitOn '.' with
  | payload :: signature :: _ =>
    if payload = [] ∨ signature = [] then none else some (payload, signature)
  | _ => none

/-- The errors of a credential that is not valid. -/
inductive SessionCredentialInvalidError
  | malformedSessionToken
  | invalidSessionTokenSignature
  | invalidSessionTokenPayload
  | sessionTokenExpired (sessionId : AuthSessionId) (expiresAt : ℚ) (observedAt : EpochMillis)
  | unknownSessionToken (sessionId : AuthSessionId)
  | sessionTokenRevoked (sessionId : AuthSessionId) (revokedAt : EpochMillis)
  | invalidSessionExpirationClaim (sessionId : AuthSessionId) (expirationClaim : ℚ)
  | malformedWebSocketToken
  | invalidWebSocketTokenSignature
  | invalidWebSocketTokenPayload
  | webSocketTokenExpired (sessionId : AuthSessionId) (expiresAt : ℚ) (observedAt : EpochMillis)
  | unknownWebSocketSession (sessionId : AuthSessionId)
  | webSocketSessionExpired (sessionId : AuthSessionId) (expiresAt observedAt : EpochMillis)
  | webSocketSessionRevoked (sessionId : AuthSessionId) (revokedAt : EpochMillis)
  deriving DecidableEq

/-- The errors of a token of one kind. -/
structure TokenErrors where
  malformed : SessionCredentialInvalidError
  signature : SessionCredentialInvalidError
  payload : SessionCredentialInvalidError

def sessionTokenErrors : TokenErrors where
  malformed := .malformedSessionToken
  signature := .invalidSessionTokenSignature
  payload := .invalidSessionTokenPayload

def webSocketTokenErrors : TokenErrors where
  malformed := .malformedWebSocketToken
  signature := .invalidWebSocketTokenSignature
  payload := .invalidWebSocketTokenPayload

/-- The claims of a token whose signature is right. -/
def openToken {α : Type} (errors : TokenErrors) (decode : Json → Option α) (token : List Char) :
    Except SessionCredentialInvalidError α :=
  match splitToken token with
  | none => .error errors.malformed
  | some (payload, signature) =>
    if codec.timingSafeEqualBase64Url signature (codec.signPayload payload) then
      match (codec.decodeText payload).bind decode with
      | none => .error errors.payload
      | some claims => .ok claims
    else .error errors.signature

/-- `DateTime.make`: no number beyond the range of dates is a date-time. -/
def dateTimeMake (millis : ℚ) : Option ℚ :=
  if |millis| ≤ 8640000000000000 then some millis else none

/-! ## The reusable token of a development server -/

inductive ServerMode
  | web
  | desktop
  deriving DecidableEq

structure ServerConfig where
  mode : ServerMode
  devUrl : Option String
  devAuthToken : Option (List Char)

def reusableDevSessionPrefix : List Char := "dev-auth-".toList

/-- `9999-12-31T23:59:59.999Z`. -/
def reusableDevSessionExpiresAt : EpochMillis := 253402300799999

structure ReusableDevAuth where
  credential : List Char
  sessionId : AuthSessionId
  hash : List UInt8

def hexDigit (n : ℕ) : Char := "0123456789abcdef".toList.getD n '0'

def hexText (bytes : List UInt8) : List Char :=
  bytes.flatMap fun byte ↦ [hexDigit (byte.toNat / 16), hexDigit (byte.toNat % 16)]

def resolveReusableDevAuth (config : ServerConfig) : Option ReusableDevAuth :=
  match config.mode, config.devUrl, config.devAuthToken with
  | .web, some _, some token =>
    if token = [] then none
    else
      let hash := codec.sha256 token
      some ⟨token, String.ofList (reusableDevSessionPrefix ++ hexText hash), hash⟩
  | _, _, _ => none

def ReusableDevAuth.matches (devAuth : ReusableDevAuth) (credential : List Char) : Bool :=
  devAuth.hash == codec.sha256 credential

/-! ## The table of sessions -/

structure AuthSessionRow where
  sessionId : AuthSessionId
  subject : String
  scopes : List AuthEnvironmentScope
  method : ServerAuthSessionMethod
  client : AuthClientMetadata
  issuedAt : EpochMillis
  expiresAt : EpochMillis
  lastConnectedAt : Option EpochMillis := none
  revokedAt : Option EpochMillis := none
  clientSurface : Option String := none
  clientAppVersion : Option String := none

abbrev AuthSessions := Table AuthSessionRow.sessionId

/-- `10000-01-01T00:00:00.000Z`. -/
def year10000 : EpochMillis := 253402300800000

/-- Whether the ISO text of a date-time sorts before that of another. From the year 10000 on the
text starts with `+`, which sorts before digits. -/
def isoTextLt (left right : EpochMillis) : Bool :=
  if left < year10000 ↔ right < year10000 then decide (left < right) else decide (right < left)

/-- `revoked_at` is set where it is `NULL`. -/
def AuthSessionRow.revokeIf (condition : Bool) (revokedAt : EpochMillis) (row : AuthSessionRow) :
    AuthSessionRow :=
  if row.revokedAt.isNone && condition then { row with revokedAt := some revokedAt } else row

@[simp] theorem AuthSessionRow.sessionId_revokeIf (condition : Bool) (revokedAt : EpochMillis)
    (row : AuthSessionRow) : (row.revokeIf condition revokedAt).sessionId = row.sessionId := by
  unfold revokeIf
  split <;> rfl

/-- An update of the row of a session that is not revoked. -/
def AuthSessionRow.updateIf (sessionId : AuthSessionId) (f : AuthSessionRow → AuthSessionRow)
    (row : AuthSessionRow) : AuthSessionRow :=
  if row.sessionId = sessionId ∧ row.revokedAt.isNone then f row else row

namespace AuthSessions

/-- No row with the key of another can be inserted. -/
def create (rows : AuthSessions) (row : AuthSessionRow) : Option AuthSessions :=
  if (rows.get row.sessionId).isSome then none else some (rows.upsert row)

def createIfAbsent (rows : AuthSessions) (row : AuthSessionRow) : AuthSessions :=
  (create rows row).getD rows

def revokeWhere (rows : AuthSessions) (condition : AuthSessionRow → Bool)
    (revokedAt : EpochMillis) :
    AuthSessions :=
  rows.mapRows (fun row ↦ row.revokeIf (condition row) revokedAt) fun row ↦
    row.sessionId_revokeIf _ _

/-- Whether a row is active, and of the subject and the method of a new session. -/
def isReplacedBy (session : AuthSessionRow) (revokedAt : EpochMillis) (row : AuthSessionRow) :
    Bool :=
  row.subject = session.subject && row.method = session.method && isoTextLt revokedAt row.expiresAt

def createReplacingActive (rows : AuthSessions) (session : AuthSessionRow)
    (revokedAt : EpochMillis) : Option AuthSessions :=
  create (revokeWhere rows (isReplacedBy session revokedAt) revokedAt) session

/-- The sessions that an update revokes. -/
def revokedIds (rows : AuthSessions) (condition : AuthSessionRow → Bool) : List AuthSessionId :=
  (rows.rows.filter fun row ↦ row.revokedAt.isNone && condition row).map (·.sessionId)

def setLastConnectedAt (rows : AuthSessions) (sessionId : AuthSessionId)
    (lastConnectedAt : EpochMillis) : AuthSessions :=
  rows.mapRows
    (AuthSessionRow.updateIf sessionId ({ · with lastConnectedAt := some lastConnectedAt }))
    fun row ↦ by unfold AuthSessionRow.updateIf; split <;> rfl

/-- A field that a client does not report keeps its value. -/
def setClientConnection (rows : AuthSessions) (sessionId : AuthSessionId)
    (surface appVersion : Option String) : AuthSessions :=
  rows.mapRows
    (AuthSessionRow.updateIf sessionId fun row ↦
      { row with
        clientSurface := surface.or row.clientSurface
        clientAppVersion := appVersion.or row.clientAppVersion })
    fun row ↦ by unfold AuthSessionRow.updateIf; split <;> rfl

end AuthSessions

/-! ## The store -/

/-- **The store.** -/
structure SessionStore where
  devAuth : Option ReusableDevAuth
  sessions : AuthSessions
  connectedSessions : AuthSessionId → Option ℕ := fun _ ↦ none
  now : EpochMillis

structure IssueInput where
  ttl : ℕ := 30 * 24 * 60 * 60 * 1000
  subject : String := "browser"
  method : ServerAuthSessionMethod := .browserSessionCookie
  scopes : List AuthEnvironmentScope := authStandardClientScopes
  client : AuthClientMetadata := createDefaultClientMetadata
  replaceActiveForSubjectAndMethod : Bool := false

structure IssuedSession where
  sessionId : AuthSessionId
  token : List Char
  method : ServerAuthSessionMethod
  client : AuthClientMetadata
  expiresAt : EpochMillis
  scopes : List AuthEnvironmentScope

structure VerifiedSession where
  sessionId : AuthSessionId
  token : List Char
  method : ServerAuthSessionMethod
  client : AuthClientMetadata
  expiresAt : ℚ
  subject : String
  scopes : List AuthEnvironmentScope
  deriving DecidableEq

def IssueInput.claims (input : IssueInput) (sessionId : AuthSessionId) (issuedAt : EpochMillis) :
    SessionClaims where
  sid := sessionId
  sub := input.subject
  scopes := input.scopes
  method := input.method
  iat := issuedAt
  exp := (issuedAt + input.ttl : ℕ)

def IssueInput.row (input : IssueInput) (sessionId : AuthSessionId) (issuedAt : EpochMillis) :
    AuthSessionRow where
  sessionId
  subject := input.subject
  scopes := input.scopes
  method := input.method
  client := input.client
  issuedAt
  expiresAt := issuedAt + input.ttl

def IssueInput.payload (input : IssueInput) (sessionId : AuthSessionId) (issuedAt : EpochMillis) :
    List Char :=
  codec.encodeText (input.claims sessionId issuedAt).json

def webSocketClaims (sessionId : AuthSessionId) (issuedAt : EpochMillis) (ttl : ℕ) :
    WebSocketClaims where
  sid := sessionId
  iat := issuedAt
  exp := (issuedAt + ttl : ℕ)

namespace SessionStore

/-- `make` on an empty table. -/
def init (config : ServerConfig) (now : EpochMillis) : SessionStore :=
  let devAuth := resolveReusableDevAuth codec config
  { devAuth
    now
    sessions := devAuth.elim Table.empty fun devAuth ↦
      AuthSessions.createIfAbsent Table.empty
        { sessionId := devAuth.sessionId
          subject := "reusable-dev-token"
          scopes := authAdministrativeScopes
          method := .browserSessionCookie
          client := { label := some "Reusable dev token", deviceType := .unknown }
          issuedAt := now
          expiresAt := reusableDevSessionExpiresAt } }

/-- Sessions that are revoked are no longer connected. -/
def disconnect (s : SessionStore) (sessionIds : List AuthSessionId) : AuthSessionId → Option ℕ :=
  fun sessionId ↦ if sessionId ∈ sessionIds then none else s.connectedSessions sessionId

/-- `issue` with the id that the crypto service has made; `none` where the session is not stored. -/
def issue (s : SessionStore) (sessionId : AuthSessionId) (input : IssueInput) :
    Option (IssuedSession × SessionStore) :=
  let row := input.row sessionId s.now
  let payload := input.payload codec sessionId s.now
  let signature := codec.signPayload payload
  let stored :=
    if input.replaceActiveForSubjectAndMethod then
      AuthSessions.createReplacingActive s.sessions row s.now
    else AuthSessions.create s.sessions row
  let replaced :=
    if input.replaceActiveForSubjectAndMethod then
      AuthSessions.revokedIds s.sessions (AuthSessions.isReplacedBy row s.now)
    else []
  stored.map fun sessions ↦
    (⟨sessionId, tokenText payload signature, input.method, input.client, row.expiresAt,
        input.scopes⟩,
      { s with
        sessions
        connectedSessions := s.disconnect replaced })

/-- The reusable token of a development server. -/
def verifyReusableDevToken (s : SessionStore) (devAuth : ReusableDevAuth) (token : List Char) :
    Except SessionCredentialInvalidError VerifiedSession :=
  match s.sessions.get devAuth.sessionId with
  | none => .error (.unknownSessionToken devAuth.sessionId)
  | some row =>
    match row.revokedAt with
    | some revokedAt => .error (.sessionTokenRevoked devAuth.sessionId revokedAt)
    | none =>
      if row.expiresAt ≤ s.now then
        .error (.sessionTokenExpired devAuth.sessionId row.expiresAt s.now)
      else
        .ok ⟨row.sessionId, token, row.method, toClientMetadata row.client, row.expiresAt,
          row.subject, row.scopes⟩

/-- The claims of a session token against the clock and the table. -/
def verifySessionClaims (s : SessionStore) (token : List Char) (claims : SessionClaims) :
    Except SessionCredentialInvalidError VerifiedSession :=
  match dateTimeMake claims.exp with
  | none => .error (.invalidSessionExpirationClaim claims.sid claims.exp)
  | some expiresAt =>
    if claims.exp ≤ s.now then .error (.sessionTokenExpired claims.sid expiresAt s.now)
    else
      match s.sessions.get claims.sid with
      | none => .error (.unknownSessionToken claims.sid)
      | some row =>
        match row.revokedAt with
        | some revokedAt => .error (.sessionTokenRevoked claims.sid revokedAt)
        | none =>
          .ok ⟨claims.sid, token, claims.method, toClientMetadata row.client, expiresAt, claims.sub,
            claims.scopes⟩

def verify (s : SessionStore) (token : List Char) :
    Except SessionCredentialInvalidError VerifiedSession :=
  match s.devAuth.filter (·.matches codec token) with
  | some devAuth => s.verifyReusableDevToken devAuth token
  | none => do
    let claims ← openToken codec sessionTokenErrors decodeSessionClaims token
    s.verifySessionClaims token claims

/-- The token and its expiry. -/
def issueWebSocketToken (s : SessionStore) (sessionId : AuthSessionId) (ttl : ℕ) :
    List Char × EpochMillis :=
  let payload := codec.encodeText (webSocketClaims sessionId s.now ttl).json
  (tokenText payload (codec.signPayload payload), s.now + ttl)

/-- The claims of a websocket token against the clock and the table. -/
def verifyWebSocketClaims (s : SessionStore) (token : List Char) (claims : WebSocketClaims) :
    Except SessionCredentialInvalidError VerifiedSession :=
  if reusableDevSessionPrefix <+: claims.sid.toList ∧
      s.devAuth.map (·.sessionId) ≠ some claims.sid then
    .error (.unknownWebSocketSession claims.sid)
  else
    match dateTimeMake claims.exp with
    | none => .error (.invalidSessionExpirationClaim claims.sid claims.exp)
    | some expiresAt =>
      if claims.exp ≤ s.now then .error (.webSocketTokenExpired claims.sid expiresAt s.now)
      else
        match s.sessions.get claims.sid with
        | none => .error (.unknownWebSocketSession claims.sid)
        | some row =>
          if row.expiresAt ≤ s.now then
            .error (.webSocketSessionExpired claims.sid row.expiresAt s.now)
          else
            match row.revokedAt with
            | some revokedAt => .error (.webSocketSessionRevoked claims.sid revokedAt)
            | none =>
              .ok ⟨row.sessionId, token, row.method, toClientMetadata row.client, row.expiresAt,
                row.subject, row.scopes⟩

def verifyWebSocketToken (s : SessionStore) (token : List Char) :
    Except SessionCredentialInvalidError VerifiedSession := do
  let claims ← openToken codec webSocketTokenErrors decodeWebSocketClaims token
  s.verifyWebSocketClaims token claims

/-- An update of the table that revokes sessions, and how many. -/
def revokeWhere (s : SessionStore) (condition : AuthSessionRow → Bool) : ℕ × SessionStore :=
  let revoked := AuthSessions.revokedIds s.sessions condition
  (revoked.length,
    { s with
      sessions := AuthSessions.revokeWhere s.sessions condition s.now
      connectedSessions := s.disconnect revoked })

def revoke (s : SessionStore) (sessionId : AuthSessionId) : Bool × SessionStore :=
  let (revoked, s') := s.revokeWhere (·.sessionId = sessionId)
  (revoked ≠ 0, s')

def revokeAllExcept (s : SessionStore) (sessionId : AuthSessionId) : ℕ × SessionStore :=
  s.revokeWhere (·.sessionId ≠ sessionId)

def markConnected (s : SessionStore) (sessionId : AuthSessionId) : SessionStore :=
  let wasDisconnected := (s.connectedSessions sessionId).isNone
  { s with
    connectedSessions := Function.update s.connectedSessions sessionId
      (some ((s.connectedSessions sessionId).getD 0 + 1))
    sessions :=
      if wasDisconnected then AuthSessions.setLastConnectedAt s.sessions sessionId s.now
      else s.sessions }

def markDisconnected (s : SessionStore) (sessionId : AuthSessionId) : SessionStore :=
  let remaining := (s.connectedSessions sessionId).getD 0 - 1
  { s with
    connectedSessions := Function.update s.connectedSessions sessionId
      (if 0 < remaining then some remaining else none) }

def recordClientConnection (s : SessionStore) (sessionId : AuthSessionId)
    (surface appVersion : Option String) : SessionStore :=
  if surface.isNone && appVersion.isNone then s
  else
    { s with
      sessions := AuthSessions.setClientConnection s.sessions sessionId surface appVersion }

end SessionStore

/-- An operation on the store, or time that passes. -/
inductive SessionOp
  | issue (sessionId : AuthSessionId) (input : IssueInput)
  | issueWebSocketToken (sessionId : AuthSessionId) (ttl : ℕ := 5 * 60 * 1000)
  | revoke (sessionId : AuthSessionId)
  | revokeAllExcept (sessionId : AuthSessionId)
  | markConnected (sessionId : AuthSessionId)
  | markDisconnected (sessionId : AuthSessionId)
  | recordClientConnection (sessionId : AuthSessionId) (surface appVersion : Option String)
  | clockAdvanced (millis : ℕ)

/-- **One step.** A websocket token leaves nothing in the store. -/
def SessionStore.step (s : SessionStore) : SessionOp → SessionStore
  | .issue sessionId input => ((s.issue codec sessionId input).map (·.2)).getD s
  | .issueWebSocketToken _ _ => s
  | .revoke sessionId => (s.revoke sessionId).2
  | .revokeAllExcept sessionId => (s.revokeAllExcept sessionId).2
  | .markConnected sessionId => s.markConnected sessionId
  | .markDisconnected sessionId => s.markDisconnected sessionId
  | .recordClientConnection sessionId surface appVersion =>
    s.recordClientConnection sessionId surface appVersion
  | .clockAdvanced millis => { s with now := s.now + millis }

end Awen.Auth
