import Mathlib
import Awen.Auth.SessionTokens

/-!
# A token admits exactly a live session

Of a history of the store, `IssuedToken` and `IssuedWebSocketToken` say what was returned to
callers. `verify` accepts a token that was issued, as long as its session has neither expired nor
been ended since, and `verifyWebSocketToken` one that was issued for such a session and has not
expired itself. Signatures are compared by their bytes, and a development server has one more token,
which its configuration names.
-/

namespace Awen.Auth

namespace SessionStore

variable (codec : TokenCodec) (config : ServerConfig) (start : EpochMillis)

/-- The store after a history. -/
def run (ops : List SessionOp) : SessionStore := ops.foldl (step codec) (init codec config start)

/-- In a history, `issue` has returned a session with a token of this payload and this signature;
what has happened since is `later`. -/
structure IssuedToken (ops : List SessionOp) (payload signature : List Char)
    (sessionId : AuthSessionId) (input : IssueInput) (issued : IssuedSession)
    (later : List SessionOp) : Prop where
  history : ∃ before s', ops = before ++ .issue sessionId input :: later ∧
    (run codec config start before).issue codec sessionId input = some (issued, s')
  token : splitToken issued.token = some (payload, signature)

/-- In a history, `issueWebSocketToken` has returned a token of this payload and this signature. -/
structure IssuedWebSocketToken (ops : List SessionOp) (payload signature : List Char)
    (sessionId : AuthSessionId) (expiresAt : EpochMillis) : Prop where
  history : ∃ before ttl later token, ops = before ++ .issueWebSocketToken sessionId ttl :: later ∧
    (run codec config start before).issueWebSocketToken codec sessionId ttl = (token, expiresAt) ∧
    splitToken token = some (payload, signature)

/-- Nobody but the store has signed a payload. -/
def Unforged (ops : List SessionOp) (payload signature : List Char) : Prop :=
  codec.timingSafeEqualBase64Url signature (codec.signPayload payload) = true →
    (∃ signature' sessionId input issued later,
      IssuedToken codec config start ops payload signature' sessionId input issued later) ∨
    ∃ signature' sessionId expiresAt,
      IssuedWebSocketToken codec config start ops payload signature' sessionId expiresAt

/-- Whether a token is the reusable one of a development server. -/
def IsReusableDevToken (token : List Char) : Prop :=
  ∃ devAuth ∈ resolveReusableDevAuth codec config, devAuth.matches codec token = true

/-- What `verify` returns for a session as it was issued. -/
def verifiedSession (issued : IssuedSession) (input : IssueInput) (token : List Char) :
    VerifiedSession where
  sessionId := issued.sessionId
  token
  method := issued.method
  client := toClientMetadata issued.client
  expiresAt := (issued.expiresAt : ℚ)
  subject := input.subject
  scopes := issued.scopes

/-- `verify` still accepts the token that `issue` has returned for a session, or the reusable token
of a development server for its session. -/
def StillAccepted (ops : List SessionOp) (sessionId : AuthSessionId) (verified : VerifiedSession) :
    Prop :=
  verified.sessionId = sessionId ∧ ∃ token, (run codec config start ops).verify codec token =
    .ok verified ∧ (IsReusableDevToken codec config token ∨
      ∃ payload signature input issued later, issued.token = token ∧
        IssuedToken codec config start ops payload signature sessionId input issued later)

/-- **A token admits exactly a live session.** -/
structure TokensAdmitLiveSessions (ops : List SessionOp) : Prop where
  /-- `verify` accepts what was issued for a session that has not expired and that nothing has
  ended. -/
  session : ∀ token payload signature verified, splitToken token = some (payload, signature) →
    ¬IsReusableDevToken codec config token → Unforged codec config start ops payload signature →
    ((run codec config start ops).verify codec token = .ok verified ↔
      ∃ signature' sessionId input issued later,
        IssuedToken codec config start ops payload signature' sessionId input issued later ∧
        codec.signatureBytes signature = codec.signatureBytes signature' ∧
        (run codec config start ops).now < issued.expiresAt ∧
        (∀ op ∈ later, ¬op.Ends sessionId input.subject input.method) ∧
        verified = verifiedSession issued input token)
  /-- `verifyWebSocketToken` accepts what was issued for a session that `verify` still accepts. -/
  webSocket : ∀ token payload signature verified, splitToken token = some (payload, signature) →
    Unforged codec config start ops payload signature →
    ((run codec config start ops).verifyWebSocketToken codec token = .ok verified ↔
      ∃ signature' sessionId expiresAt accepted,
        IssuedWebSocketToken codec config start ops payload signature' sessionId expiresAt ∧
        codec.signatureBytes signature = codec.signatureBytes signature' ∧
        (run codec config start ops).now < expiresAt ∧
        StillAccepted codec config start ops sessionId accepted ∧
        verified = { accepted with token })
  /-- No session token is accepted as a websocket token. -/
  sessionOnly : ∀ payload signature sessionId input issued later,
    IssuedToken codec config start ops payload signature sessionId input issued later →
    ∀ token signature', splitToken token = some (payload, signature') → ∀ verified,
      (run codec config start ops).verifyWebSocketToken codec token ≠ .ok verified
  /-- No websocket token is accepted as a session token. -/
  webSocketOnly : ∀ payload signature sessionId expiresAt,
    IssuedWebSocketToken codec config start ops payload signature sessionId expiresAt →
    ∀ token signature', splitToken token = some (payload, signature') →
      ¬IsReusableDevToken codec config token → ∀ verified,
      (run codec config start ops).verify codec token ≠ .ok verified

variable {codec config start} {ops : List SessionOp}

/-! ## What the history of an issued token says -/

theorem dateTimeMake_of_lt {millis : EpochMillis} (h : millis < year10000) :
    dateTimeMake (millis : ℚ) = some (millis : ℚ) := by
  have hle : ((millis : ℕ) : ℚ) ≤ 8640000000000000 := by
    have hnat : millis ≤ 8640000000000000 := h.le.trans (by decide)
    exact_mod_cast hnat
  rw [dateTimeMake, if_pos]
  rwa [abs_of_nonneg (Nat.cast_nonneg millis)]

variable (codec config start ops) in
/-- The claims of an issued token, and the row that is left of its session. -/
structure IssuedTokenSpec (payload signature : List Char) (sessionId : AuthSessionId)
    (input : IssueInput) (issued : IssuedSession) (later : List SessionOp)
    (issuedAt : EpochMillis) (row : AuthSessionRow) : Prop where
  decode : codec.decodeText payload = some (input.claims sessionId issuedAt).json
  signature : signature = codec.signPayload payload
  expiresAt : issued.expiresAt = issuedAt + input.ttl
  verified : ∀ token, verifiedSession issued input token = ⟨sessionId, token, input.method,
    toClientMetadata input.client, ((issuedAt + input.ttl : ℕ) : ℚ), input.subject, input.scopes⟩
  notDev : ¬IsReusableDevToken codec config issued.token
  notPrefix : ¬ reusableDevSessionPrefix <+: sessionId.toList
  inTime : issuedAt + input.ttl < year10000
  stored : (run codec config start ops).sessions.get sessionId = some row
  same : (input.row sessionId issuedAt).SameSession row
  revoked : (run codec config start ops).now < issuedAt + input.ttl → (row.revokedAt = none ↔
    ∀ op ∈ later, ¬op.Ends sessionId input.subject input.method)

theorem IssuedToken.spec {payload signature : List Char} {sessionId : AuthSessionId}
    {input : IssueInput} {issued : IssuedSession} {later : List SessionOp}
    (h : IssuedToken codec config start ops payload signature sessionId input issued later)
    (hops : EveryStep (step codec) (Possible codec) (init codec config start) ops) :
    ∃ issuedAt row, IssuedTokenSpec codec config start ops payload signature sessionId input issued
      later issuedAt row := by
  obtain ⟨⟨before, s', rfl, hissue⟩, htoken⟩ := h
  obtain ⟨hfresh, hstarts, hexpires, hcarries, hdev⟩ := hops.append_cons
  obtain ⟨s'', hissue', hsessions, hnow, -⟩ := issue_of_fresh codec input hfresh
  have heq := Option.some.inj (hissue.symm.trans hissue')
  obtain ⟨rfl, rfl⟩ := Prod.mk.inj heq
  have hsplit := splitToken_tokenText hcarries.payload_dot hcarries.payload_ne
    hcarries.signature_dot hcarries.signature_ne
  obtain ⟨rfl, rfl⟩ := Prod.mk.inj (Option.some.inj (hsplit.symm.trans htoken))
  -- the history after the issue starts with the row of the new session
  have hlater : EveryStep (step codec) (Possible codec)
      ((run codec config start before).step codec (.issue sessionId input)) later :=
    hops.append_right.2
  have hstart : ((run codec config start before).step codec (.issue sessionId input)).sessions.get
      sessionId = some (input.row sessionId (run codec config start before).now) := by
    simp only [step, run, hissue', Option.map_some, Option.getD_some, hsessions, Table.get_upsert]
    exact if_pos rfl
  obtain ⟨row, hrow, hsame, hrevoked⟩ := get_foldl hlater hstart hexpires
  have hrun : later.foldl (step codec)
      ((run codec config start before).step codec (.issue sessionId input)) =
      run codec config start (before ++ .issue sessionId input :: later) := by
    rw [run, run, List.foldl_append, List.foldl_cons]
  rw [hrun] at hrow hrevoked
  refine ⟨_, row, hcarries.decode, rfl, rfl, fun _ ↦ rfl, ?_, hstarts, hexpires, hrow, hsame,
    fun hactive ↦ ?_⟩
  · rintro ⟨devAuth, hmem, hmatches⟩
    have hbefore : (run codec config start before).devAuth = resolveReusableDevAuth codec config :=
      devAuth_foldl hops.append_left
    have hno := hdev devAuth (hbefore.symm ▸ hmem)
    exact Bool.false_ne_true (hno.symm.trans hmatches)
  · rw [hrevoked hactive]
    exact and_iff_right rfl

/-- The claims of an issued websocket token. -/
theorem IssuedWebSocketToken.spec {payload signature : List Char} {sessionId : AuthSessionId}
    {expiresAt : EpochMillis}
    (h : IssuedWebSocketToken codec config start ops payload signature sessionId expiresAt)
    (hops : EveryStep (step codec) (Possible codec) (init codec config start) ops) :
    ∃ claims : WebSocketClaims, claims.sid = sessionId ∧ claims.exp = (expiresAt : ℚ) ∧
      codec.decodeText payload = some claims.json ∧ signature = codec.signPayload payload ∧
      expiresAt < year10000 := by
  obtain ⟨before, ttl, later, token, rfl, hissue, htoken⟩ := h.history
  obtain ⟨hexpires, hcarries⟩ := hops.append_cons
  obtain ⟨rfl, rfl⟩ := Prod.mk.inj hissue
  have hsplit := splitToken_tokenText hcarries.payload_dot hcarries.payload_ne
    hcarries.signature_dot hcarries.signature_ne
  obtain ⟨rfl, rfl⟩ := Prod.mk.inj (Option.some.inj (hsplit.symm.trans htoken))
  exact ⟨_, rfl, rfl, hcarries.decode, rfl, hexpires⟩

/-! ## Session tokens -/

theorem devAuth_run (hops : EveryStep (step codec) (Possible codec) (init codec config start) ops) :
    (run codec config start ops).devAuth = resolveReusableDevAuth codec config :=
  devAuth_foldl hops

theorem verify_eq_ok {token : List Char} {verified : VerifiedSession}
    (hops : EveryStep (step codec) (Possible codec) (init codec config start) ops)
    (hdev : ¬IsReusableDevToken codec config token) :
    (run codec config start ops).verify codec token = .ok verified ↔
      ∃ claims, openToken codec sessionTokenErrors decodeSessionClaims token = .ok claims ∧
        (run codec config start ops).verifySessionClaims token claims = .ok verified := by
  have hnone : (run codec config start ops).devAuth.filter (·.matches codec token) = none := by
    rw [devAuth_run hops, Option.filter_eq_none_iff]
    exact fun devAuth hmem hmatches ↦ hdev ⟨devAuth, hmem, hmatches⟩
  rw [verify, hnone]
  cases openToken codec sessionTokenErrors decodeSessionClaims token with
  | error e => exact ⟨nofun, fun ⟨_, h, _⟩ ↦ absurd h nofun⟩
  | ok claims => exact ⟨fun h ↦ ⟨claims, rfl, h⟩, fun ⟨_, h, h'⟩ ↦ Except.ok.inj h ▸ h'⟩

/-- The claims of a token pass if they have not expired and the session's row is not revoked. -/
theorem verifySessionClaims_eq_ok {s : SessionStore} {token : List Char} {claims : SessionClaims}
    {row : AuthSessionRow} {verified : VerifiedSession}
    (hexp : dateTimeMake claims.exp = some claims.exp)
    (hrow : s.sessions.get claims.sid = some row) :
    s.verifySessionClaims token claims = .ok verified ↔
      (s.now : ℚ) < claims.exp ∧ row.revokedAt = none ∧
        verified = ⟨claims.sid, token, claims.method, toClientMetadata row.client, claims.exp,
          claims.sub, claims.scopes⟩ := by
  rw [verifySessionClaims, hexp, hrow]
  dsimp only
  split
  · rename_i hle
    exact ⟨nofun, fun h ↦ absurd h.1 (not_lt.mpr hle)⟩
  · rename_i hlt
    obtain hnone | ⟨revokedAt, hsome⟩ := row.revokedAt.eq_none_or_eq_some
    · rw [hnone]
      exact ⟨fun h ↦ ⟨not_le.mp hlt, rfl, (Except.ok.inj h).symm⟩, fun h ↦ congrArg _ h.2.2.symm⟩
    · rw [hsome]
      exact ⟨nofun, fun h ↦ absurd h.2.1 nofun⟩

/-- An issued token's claims pass exactly while its session lives. -/
theorem IssuedTokenSpec.verify {payload signature : List Char} {sessionId : AuthSessionId}
    {input : IssueInput} {issued : IssuedSession} {later : List SessionOp} {issuedAt : EpochMillis}
    {row : AuthSessionRow}
    (h : IssuedTokenSpec codec config start ops payload signature sessionId input issued later
      issuedAt row) (token : List Char) (verified : VerifiedSession) :
    (run codec config start ops).verifySessionClaims token (input.claims sessionId issuedAt) =
        .ok verified ↔
      (run codec config start ops).now < issued.expiresAt ∧
        (∀ op ∈ later, ¬op.Ends sessionId input.subject input.method) ∧
        verified = verifiedSession issued input token := by
  have hclient : row.client = input.client := h.same.client
  have hexp : dateTimeMake (input.claims sessionId issuedAt).exp =
      some (input.claims sessionId issuedAt).exp := by
    rw [show (input.claims sessionId issuedAt).exp = ((issuedAt + input.ttl : ℕ) : ℚ) from rfl,
      dateTimeMake_of_lt h.inTime]
  rw [verifySessionClaims_eq_ok hexp h.stored, h.verified, h.expiresAt, hclient]
  constructor
  · rintro ⟨hnow, hrevoked, rfl⟩
    have hnow' := Nat.cast_lt.mp hnow
    exact ⟨hnow', (h.revoked hnow').mp hrevoked, rfl⟩
  · rintro ⟨hnow, hends, rfl⟩
    exact ⟨Nat.cast_lt.mpr hnow, (h.revoked hnow).mpr hends, rfl⟩

theorem verify_iff (hops : EveryStep (step codec) (Possible codec) (init codec config start) ops)
    {token payload signature : List Char} {verified : VerifiedSession}
    (htoken : splitToken token = some (payload, signature))
    (hdev : ¬IsReusableDevToken codec config token)
    (hunforged : Unforged codec config start ops payload signature) :
    (run codec config start ops).verify codec token = .ok verified ↔
      ∃ signature' sessionId input issued later,
        IssuedToken codec config start ops payload signature' sessionId input issued later ∧
        codec.signatureBytes signature = codec.signatureBytes signature' ∧
        (run codec config start ops).now < issued.expiresAt ∧
        (∀ op ∈ later, ¬op.Ends sessionId input.subject input.method) ∧
        verified = verifiedSession issued input token := by
  rw [verify_eq_ok hops hdev]
  constructor
  · rintro ⟨claims, hopen, hverified⟩
    obtain ⟨hsignature, hdecode⟩ := (openToken_eq_ok htoken).mp hopen
    rcases hunforged hsignature with
      ⟨signature', sessionId, input, issued, later, hissued⟩ | ⟨signature', sessionId, _, hissued⟩
    · obtain ⟨issuedAt, row, hspec⟩ := hissued.spec hops
      rw [hspec.decode, Option.bind_some, decodeSessionClaims_json] at hdecode
      obtain rfl := Option.some.inj hdecode
      refine ⟨signature', sessionId, input, issued, later, hissued, ?_,
        (hspec.verify token verified).mp hverified⟩
      rw [hspec.signature]
      exact eq_of_beq hsignature
    · obtain ⟨wsClaims, -, -, hdecode', -⟩ := hissued.spec hops
      rw [hdecode', Option.bind_some, decodeSessionClaims_webSocket] at hdecode
      exact absurd hdecode nofun
  · rintro ⟨signature', sessionId, input, issued, later, hissued, hbytes, hlive⟩
    obtain ⟨issuedAt, row, hspec⟩ := hissued.spec hops
    refine ⟨input.claims sessionId issuedAt, (openToken_eq_ok htoken).mpr ⟨?_, ?_⟩,
      (hspec.verify token verified).mpr hlive⟩
    · rw [TokenCodec.timingSafeEqualBase64Url, beq_iff_eq, hbytes, hspec.signature]
    · rw [hspec.decode, Option.bind_some, decodeSessionClaims_json]

/-! ## Sessions that are still accepted -/

/-- What is verified of a row. -/
def rowSession (row : AuthSessionRow) (token : List Char) : VerifiedSession where
  sessionId := row.sessionId
  token
  method := row.method
  client := toClientMetadata row.client
  expiresAt := (row.expiresAt : ℚ)
  subject := row.subject
  scopes := row.scopes

/-- A session that has a row, neither expired nor revoked, and that is not of another development
server. -/
structure AcceptedRow (s : SessionStore) (sessionId : AuthSessionId) (row : AuthSessionRow) :
    Prop where
  stored : s.sessions.get sessionId = some row
  active : s.now < row.expiresAt
  notRevoked : row.revokedAt = none
  notOther : ¬(reusableDevSessionPrefix <+: sessionId.toList ∧
    s.devAuth.map (·.sessionId) ≠ some sessionId)

theorem verifyWebSocketClaims_eq_ok {s : SessionStore} {token : List Char}
    {claims : WebSocketClaims}
    {verified : VerifiedSession} (hexp : dateTimeMake claims.exp = some claims.exp) :
    s.verifyWebSocketClaims token claims = .ok verified ↔
      (s.now : ℚ) < claims.exp ∧
        ∃ row, AcceptedRow s claims.sid row ∧ verified = rowSession row token := by
  rw [verifyWebSocketClaims, hexp]
  dsimp only
  split
  · rename_i hother
    constructor
    · rintro ⟨⟩
    · rintro ⟨_, _, hrow, _⟩
      exact absurd hother hrow.notOther
  · rename_i hother
    split
    · rename_i hle
      constructor
      · rintro ⟨⟩
      · exact fun h ↦ absurd h.1 (not_lt.mpr hle)
    · rename_i hlt
      rw [and_iff_right (not_le.mp hlt)]
      obtain hnone | ⟨row, hrow⟩ := (s.sessions.get claims.sid).eq_none_or_eq_some
      · rw [hnone]
        constructor
        · rintro ⟨⟩
        · rintro ⟨_, hrow, _⟩
          cases hnone.symm.trans hrow.stored
      · rw [hrow]
        have hunique : ∀ row', AcceptedRow s claims.sid row' → row' = row :=
          fun row' h ↦ Option.some.inj (h.stored.symm.trans hrow)
        dsimp only
        split
        · rename_i hexpired
          constructor
          · rintro ⟨⟩
          · rintro ⟨row', h, _⟩
            exact absurd (hunique row' h ▸ h.active) (not_lt.mpr hexpired)
        · rename_i hactive
          obtain hnone | ⟨revokedAt, hsome⟩ := row.revokedAt.eq_none_or_eq_some
          · rw [hnone]
            constructor
            · intro h
              exact ⟨row, ⟨hrow, not_le.mp hactive, hnone, hother⟩, (Except.ok.inj h).symm⟩
            · rintro ⟨row', h, rfl⟩
              rw [hunique row' h]
              rfl
          · rw [hsome]
            constructor
            · rintro ⟨⟩
            · rintro ⟨row', h, _⟩
              obtain rfl := hunique row' h
              cases hsome.symm.trans h.notRevoked

theorem verify_of_dev {token : List Char} {devAuth : ReusableDevAuth}
    (hops : EveryStep (step codec) (Possible codec) (init codec config start) ops)
    (hmem : devAuth ∈ resolveReusableDevAuth codec config)
    (hmatches : devAuth.matches codec token = true) :
    (run codec config start ops).verify codec token =
      (run codec config start ops).verifyReusableDevToken devAuth token := by
  have hsome :
      (run codec config start ops).devAuth.filter (·.matches codec token) = some devAuth := by
    rw [devAuth_run hops, Option.filter_eq_some_iff]
    exact ⟨hmem, hmatches⟩
  rw [verify, hsome]

theorem verifyReusableDevToken_eq_ok {s : SessionStore} {devAuth : ReusableDevAuth}
    {token : List Char} {verified : VerifiedSession} (hdev : s.devAuth = some devAuth) :
    s.verifyReusableDevToken devAuth token = .ok verified ↔
      ∃ row, AcceptedRow s devAuth.sessionId row ∧ verified = rowSession row token := by
  have hother : ¬(reusableDevSessionPrefix <+: devAuth.sessionId.toList ∧
      s.devAuth.map (·.sessionId) ≠ some devAuth.sessionId) := by
    rw [hdev]
    exact fun h ↦ h.2 rfl
  rw [verifyReusableDevToken]
  obtain hnone | ⟨row, hrow⟩ := (s.sessions.get devAuth.sessionId).eq_none_or_eq_some
  · rw [hnone]
    exact ⟨nofun, fun ⟨_, hrow, _⟩ ↦ absurd (hnone.symm.trans hrow.stored) nofun⟩
  have hunique : ∀ row', AcceptedRow s devAuth.sessionId row' → row' = row :=
    fun row' h ↦ Option.some.inj (h.stored.symm.trans hrow)
  rw [hrow]
  dsimp only
  obtain hnone | ⟨revokedAt, hsome⟩ := row.revokedAt.eq_none_or_eq_some
  · rw [hnone]
    dsimp only
    split
    · rename_i hexpired
      refine ⟨nofun, fun ⟨row', h, _⟩ ↦ ?_⟩
      exact absurd (hunique row' h ▸ h.active) (not_lt.mpr hexpired)
    · rename_i hactive
      constructor
      · intro h
        exact ⟨row, ⟨hrow, not_le.mp hactive, hnone, hother⟩, (Except.ok.inj h).symm⟩
      · rintro ⟨row', h, rfl⟩
        rw [hunique row' h]
        rfl
  · rw [hsome]
    refine ⟨nofun, fun ⟨row', h, _⟩ ↦ ?_⟩
    obtain rfl := hunique row' h
    exact absurd (hsome.symm.trans h.notRevoked) nofun

/-- What is accepted of an issued session is what its row says. -/
theorem IssuedTokenSpec.rowSession {payload signature : List Char} {sessionId : AuthSessionId}
    {input : IssueInput} {issued : IssuedSession} {later : List SessionOp} {issuedAt : EpochMillis}
    {row : AuthSessionRow}
    (h : IssuedTokenSpec codec config start ops payload signature sessionId input issued later
      issuedAt row) (token : List Char) :
    verifiedSession issued input token = SessionStore.rowSession row token := by
  have hsame := h.same
  rw [h.verified, SessionStore.rowSession, hsame.sessionId, hsame.method, hsame.client,
    hsame.expiresAt, hsame.subject, hsame.scopes]
  rfl

/-- A session that is still accepted has a row that says so. -/
theorem StillAccepted.row {sessionId : AuthSessionId} {accepted : VerifiedSession}
    (h : StillAccepted codec config start ops sessionId accepted)
    (hops : EveryStep (step codec) (Possible codec) (init codec config start) ops) :
    ∃ row, AcceptedRow (run codec config start ops) sessionId row ∧
      ∀ token, { accepted with token } = SessionStore.rowSession row token := by
  obtain ⟨rfl, token, hverify,
    ⟨devAuth, hmem, hmatches⟩ | ⟨payload, signature, input, issued, later,
    rfl, hissued⟩⟩ := h
  · rw [verify_of_dev hops hmem hmatches,
      verifyReusableDevToken_eq_ok ((devAuth_run hops).trans hmem)] at hverify
    obtain ⟨row, hrow, rfl⟩ := hverify
    have hid : row.sessionId = devAuth.sessionId := (Table.get_eq_some.mp hrow.stored).2
    refine ⟨row, ?_, fun _ ↦ rfl⟩
    rwa [show (SessionStore.rowSession row token).sessionId = devAuth.sessionId from hid]
  · obtain ⟨issuedAt, row, hspec⟩ := hissued.spec hops
    obtain ⟨claims, hopen, hclaims⟩ := (verify_eq_ok hops hspec.notDev).mp hverify
    have hdecode := ((openToken_eq_ok hissued.token).mp hopen).2
    rw [hspec.decode, Option.bind_some, decodeSessionClaims_json] at hdecode
    obtain rfl := Option.some.inj hdecode
    obtain ⟨hnow, hends, haccepted⟩ := (hspec.verify _ _).mp hclaims
    have hexpires : row.expiresAt = issuedAt + input.ttl := hspec.same.expiresAt
    rw [hspec.expiresAt] at hnow
    refine ⟨row, ⟨hspec.stored, hexpires ▸ hnow, (hspec.revoked hnow).mpr hends,
      fun h ↦ hspec.notPrefix h.1⟩, fun token ↦ ?_⟩
    rw [haccepted]
    exact hspec.rowSession token

/-- Every row is that of an issued session, or of the reusable token. -/
theorem issued_of_get {sessionId : AuthSessionId} {row : AuthSessionRow}
    (hops : EveryStep (step codec) (Possible codec) (init codec config start) ops)
    (hrow : (run codec config start ops).sessions.get sessionId = some row) :
    (∃ devAuth ∈ resolveReusableDevAuth codec config, devAuth.sessionId = sessionId) ∨
      ∃ payload signature input issued later,
        IssuedToken codec config start ops payload signature sessionId input issued later := by
  by_cases hinit : ((init codec config start).sessions.get sessionId).isSome
  · left
    rw [init] at hinit
    dsimp only at hinit
    obtain hnone | ⟨devAuth, hdev⟩ := (resolveReusableDevAuth codec config).eq_none_or_eq_some
    · rw [hnone] at hinit
      cases hinit
    · rw [hdev, Option.elim_some, AuthSessions.createIfAbsent, AuthSessions.create] at hinit
      refine ⟨devAuth, hdev, ?_⟩
      by_contra hne
      simp [Table.get, Table.empty, Table.upsert, Table.upsertRows, hne] at hinit
  · right
    have hend : ((run codec config start ops).sessions.get sessionId).isSome := by rw [hrow]; rfl
    obtain ⟨before, op, later, rfl, hbefore, hafter⟩ :=
      exists_step_of_foldl (P := fun s : SessionStore ↦ (s.sessions.get sessionId).isSome)
        hinit hend
    have hop := hops.append_cons
    have hnone : (run codec config start before).sessions.get sessionId = none :=
      Option.not_isSome_iff_eq_none.mp hbefore
    obtain ⟨input, rfl⟩ : ∃ input, op = .issue sessionId input := by
      by_contra hno
      rw [get_step_of_none hop hnone fun input heq ↦ hno ⟨input, heq⟩] at hafter
      cases hafter
    obtain ⟨s', hissue, -⟩ := issue_of_fresh codec input hop.1
    have hcarries := hop.2.2.2.1
    exact ⟨_, _, input, _, later, ⟨before, s', rfl, hissue⟩,
      splitToken_tokenText hcarries.payload_dot hcarries.payload_ne hcarries.signature_dot
        hcarries.signature_ne⟩

/-- A session whose row is accepted is still accepted by its token. -/
theorem stillAccepted_of_row {sessionId : AuthSessionId} {row : AuthSessionRow}
    (hops : EveryStep (step codec) (Possible codec) (init codec config start) ops)
    (hrow : AcceptedRow (run codec config start ops) sessionId row) :
    ∃ accepted, StillAccepted codec config start ops sessionId accepted ∧
      ∀ token, { accepted with token } = SessionStore.rowSession row token := by
  have hid : row.sessionId = sessionId := (Table.get_eq_some.mp hrow.stored).2
  rcases issued_of_get hops hrow.stored with
    ⟨devAuth, hmem, rfl⟩ | ⟨payload, signature, input, issued, later, hissued⟩
  · have hmatches : devAuth.matches codec devAuth.credential = true := by
      rw [resolveReusableDevAuth] at hmem
      split at hmem
      · split at hmem
        · exact absurd hmem nofun
        · obtain rfl := Option.some.inj hmem
          exact beq_self_eq_true _
      · exact absurd hmem nofun
    refine ⟨SessionStore.rowSession row devAuth.credential, ⟨hid, devAuth.credential, ?_,
      .inl ⟨devAuth, hmem, hmatches⟩⟩, fun _ ↦ rfl⟩
    rw [verify_of_dev hops hmem hmatches,
      verifyReusableDevToken_eq_ok ((devAuth_run hops).trans hmem)]
    exact ⟨row, hrow, rfl⟩
  · obtain ⟨issuedAt, row', hspec⟩ := hissued.spec hops
    obtain rfl := Option.some.inj (hrow.stored.symm.trans hspec.stored)
    have hexpires : row.expiresAt = issuedAt + input.ttl := hspec.same.expiresAt
    have hactive := hrow.active
    rw [hexpires] at hactive
    refine ⟨verifiedSession issued input issued.token, ⟨?_, issued.token, ?_,
      .inr ⟨payload, signature, input, issued, later, rfl, hissued⟩⟩, hspec.rowSession⟩
    · rw [hspec.verified]
    · refine (verify_eq_ok hops hspec.notDev).mpr ⟨_, (openToken_eq_ok hissued.token).mpr ⟨?_, ?_⟩,
        (hspec.verify _ _).mpr ⟨hspec.expiresAt ▸ hactive, (hspec.revoked hactive).mp
          hrow.notRevoked, rfl⟩⟩
      · rw [TokenCodec.timingSafeEqualBase64Url, hspec.signature]
        exact beq_self_eq_true _
      · rw [hspec.decode, Option.bind_some, decodeSessionClaims_json]

/-! ## Websocket tokens -/

theorem verifyWebSocketToken_eq_ok {s : SessionStore} {token : List Char}
    {verified : VerifiedSession} : s.verifyWebSocketToken codec token = .ok verified ↔
      ∃ claims, openToken codec webSocketTokenErrors decodeWebSocketClaims token = .ok claims ∧
        s.verifyWebSocketClaims token claims = .ok verified := by
  rw [verifyWebSocketToken]
  cases openToken codec webSocketTokenErrors decodeWebSocketClaims token with
  | error e => exact ⟨nofun, fun ⟨_, h, _⟩ ↦ absurd h nofun⟩
  | ok claims => exact ⟨fun h ↦ ⟨claims, rfl, h⟩, fun ⟨_, h, h'⟩ ↦ Except.ok.inj h ▸ h'⟩

theorem verifyWebSocketToken_iff
    (hops : EveryStep (step codec) (Possible codec) (init codec config start) ops)
    {token payload signature : List Char} {verified : VerifiedSession}
    (htoken : splitToken token = some (payload, signature))
    (hunforged : Unforged codec config start ops payload signature) :
    (run codec config start ops).verifyWebSocketToken codec token = .ok verified ↔
      ∃ signature' sessionId expiresAt accepted,
        IssuedWebSocketToken codec config start ops payload signature' sessionId expiresAt ∧
        codec.signatureBytes signature = codec.signatureBytes signature' ∧
        (run codec config start ops).now < expiresAt ∧
        StillAccepted codec config start ops sessionId accepted ∧
        verified = { accepted with token } := by
  rw [verifyWebSocketToken_eq_ok]
  constructor
  · rintro ⟨claims, hopen, hverified⟩
    obtain ⟨hsignature, hdecode⟩ := (openToken_eq_ok htoken).mp hopen
    rcases hunforged hsignature with
      ⟨_, sessionId, input, issued, later, hissued⟩ | ⟨signature', sessionId, expiresAt, hissued⟩
    · obtain ⟨issuedAt, row, hspec⟩ := hissued.spec hops
      rw [hspec.decode, Option.bind_some, decodeWebSocketClaims_session] at hdecode
      exact absurd hdecode nofun
    · obtain ⟨claims', rfl, hexp, hdecode', hsign, hlt⟩ := hissued.spec hops
      rw [hdecode', Option.bind_some, decodeWebSocketClaims_json] at hdecode
      obtain rfl := Option.some.inj hdecode
      have hmake : dateTimeMake claims'.exp = some claims'.exp := by
        rw [hexp, dateTimeMake_of_lt hlt]
      obtain ⟨hnow, row, hrow, rfl⟩ := (verifyWebSocketClaims_eq_ok hmake).mp hverified
      obtain ⟨accepted, haccepted, hview⟩ := stillAccepted_of_row hops hrow
      rw [hexp] at hnow
      refine ⟨signature', claims'.sid, expiresAt, accepted, hissued, ?_, Nat.cast_lt.mp hnow,
        haccepted, (hview token).symm⟩
      rw [hsign]
      exact eq_of_beq hsignature
  · rintro ⟨signature', sessionId, expiresAt, accepted, hissued, hbytes, hnow, haccepted, rfl⟩
    obtain ⟨claims, rfl, hexp, hdecode, hsign, hlt⟩ := hissued.spec hops
    obtain ⟨row, hrow, hview⟩ := haccepted.row hops
    have hmake : dateTimeMake claims.exp = some claims.exp := by
      rw [hexp, dateTimeMake_of_lt hlt]
    refine ⟨claims, (openToken_eq_ok htoken).mpr ⟨?_, ?_⟩,
      (verifyWebSocketClaims_eq_ok hmake).mpr ⟨?_, row, hrow, hview token⟩⟩
    · rw [TokenCodec.timingSafeEqualBase64Url, beq_iff_eq, hbytes, hsign]
    · rw [hdecode, Option.bind_some, decodeWebSocketClaims_json]
    · rw [hexp]
      exact Nat.cast_lt.mpr hnow

/-- **A token admits exactly a live session**, after every possible history. -/
theorem tokensAdmitLiveSessions
    (hops : EveryStep (step codec) (Possible codec) (init codec config start) ops) :
    TokensAdmitLiveSessions codec config start ops where
  session _ _ _ _ htoken hdev hunforged := verify_iff hops htoken hdev hunforged
  webSocket _ _ _ _ htoken hunforged := verifyWebSocketToken_iff hops htoken hunforged
  sessionOnly payload signature sessionId input issued later hissued token signature' htoken
      verified hverify := by
    obtain ⟨issuedAt, row, hspec⟩ := hissued.spec hops
    obtain ⟨claims, hopen, -⟩ := verifyWebSocketToken_eq_ok.mp hverify
    have hdecode := ((openToken_eq_ok htoken).mp hopen).2
    rw [hspec.decode, Option.bind_some, decodeWebSocketClaims_session] at hdecode
    exact absurd hdecode nofun
  webSocketOnly payload signature sessionId expiresAt hissued token signature' htoken hdev verified
      hverify := by
    obtain ⟨claims', -, -, hdecode', -⟩ := hissued.spec hops
    obtain ⟨claims, hopen, -⟩ := (verify_eq_ok hops hdev).mp hverify
    have hdecode := ((openToken_eq_ok htoken).mp hopen).2
    rw [hdecode', Option.bind_some, decodeSessionClaims_webSocket] at hdecode
    exact absurd hdecode nofun

/-! ## A history -/

/-- The value of a base64url digit. -/
def base64UrlDigit? (c : Char) : Option ℕ :=
  "ABCDEFGHIJKLMNOPQRSTUVWXYZabcdefghijklmnopqrstuvwxyz0123456789-_".toList.findIdx? (· = c)

/-- The bytes of a base64url text; other characters do not count, nor do bits at its end. -/
def base64UrlBytes : List ℕ → List UInt8
  | a :: b :: c :: d :: rest =>
    let n := ((a * 64 + b) * 64 + c) * 64 + d
    UInt8.ofNat (n / 65536) :: UInt8.ofNat (n / 256) :: UInt8.ofNat n :: base64UrlBytes rest
  | [a, b, c] =>
    let n := (a * 64 + b) * 64 + c
    [UInt8.ofNat (n / 1024), UInt8.ofNat (n / 4)]
  | [a, b] => [UInt8.ofNat ((a * 64 + b) / 16)]
  | _ => []

def sampleStart : EpochMillis := 1767225600000

def sampleId : AuthSessionId := "5d0c7c1e-8f0a-4b7e-9a55-0c1d2e3f4a5b"

def sampleInput : IssueInput where
  scopes := [.orchestrationRead]

def samplePayload : List Char :=
  ['e', 'y', 'J', '2', 'I', 'j', 'o', 'x', 'L', 'C', 'J', 'r', 'a', 'W', '5', 'k', 'I', 'j', 'o',
    'i', 'c', '2', 'V', 'z', 'c', '2', 'l', 'v', 'b', 'i', 'I', 's', 'I', 'n', 'N', 'p', 'Z', 'C',
    'I', '6', 'I', 'j', 'V', 'k', 'M', 'G', 'M', '3', 'Y', 'z', 'F', 'l', 'L', 'T', 'h', 'm', 'M',
    'G', 'E', 't', 'N', 'G', 'I', '3', 'Z', 'S', '0', '5', 'Y', 'T', 'U', '1', 'L', 'T', 'B', 'j',
    'M', 'W', 'Q', 'y', 'Z', 'T', 'N', 'm', 'N', 'G', 'E', '1', 'Y', 'i', 'I', 's', 'I', 'n', 'N',
    '1', 'Y', 'i', 'I', '6', 'I', 'm', 'J', 'y', 'b', '3', 'd', 'z', 'Z', 'X', 'I', 'i', 'L', 'C',
    'J', 'z', 'Y', '2', '9', 'w', 'Z', 'X', 'M', 'i', 'O', 'l', 's', 'i', 'b', '3', 'J', 'j', 'a',
    'G', 'V', 'z', 'd', 'H', 'J', 'h', 'd', 'G', 'l', 'v', 'b', 'j', 'p', 'y', 'Z', 'W', 'F', 'k',
    'I', 'l', '0', 's', 'I', 'm', '1', 'l', 'd', 'G', 'h', 'v', 'Z', 'C', 'I', '6', 'I', 'm', 'J',
    'y', 'b', '3', 'd', 'z', 'Z', 'X', 'I', 't', 'c', '2', 'V', 'z', 'c', '2', 'l', 'v', 'b', 'i',
    '1', 'j', 'b', '2', '9', 'r', 'a', 'W', 'U', 'i', 'L', 'C', 'J', 'p', 'Y', 'X', 'Q', 'i', 'O',
    'j', 'E', '3', 'N', 'j', 'c', 'y', 'M', 'j', 'U', '2', 'M', 'D', 'A', 'w', 'M', 'D', 'A', 's',
    'I', 'm', 'V', '4', 'c', 'C', 'I', '6', 'M', 'T', 'c', '2', 'O', 'T', 'g', 'x', 'N', 'z', 'Y',
    'w', 'M', 'D', 'A', 'w', 'M', 'H', '0']

def sampleSignature : List Char :=
  ['H', 'v', 'I', 'l', 'f', 'O', 'f', 'w', 'O', '_', '0', 'B', 'J', 'k', 'r', 'x', 'n', '9', 'u',
    'H', 'k', '9', 'S', 'x', '8', 's', 'g', 'E', 'M', 'U', 's', 'o', 'p', 'l', 'm', '2', 'H', 'L',
    'h', 'j', '1', 'Q', 'Y']

def sampleWebSocketPayload : List Char :=
  ['e', 'y', 'J', '2', 'I', 'j', 'o', 'x', 'L', 'C', 'J', 'r', 'a', 'W', '5', 'k', 'I', 'j', 'o',
    'i', 'd', '2', 'V', 'i', 'c', '2', '9', 'j', 'a', '2', 'V', '0', 'I', 'i', 'w', 'i', 'c', '2',
    'l', 'k', 'I', 'j', 'o', 'i', 'N', 'W', 'Q', 'w', 'Y', 'z', 'd', 'j', 'M', 'W', 'U', 't', 'O',
    'G', 'Y', 'w', 'Y', 'S', '0', '0', 'Y', 'j', 'd', 'l', 'L', 'T', 'l', 'h', 'N', 'T', 'U', 't',
    'M', 'G', 'M', 'x', 'Z', 'D', 'J', 'l', 'M', '2', 'Y', '0', 'Y', 'T', 'V', 'i', 'I', 'i', 'w',
    'i', 'a', 'W', 'F', '0', 'I', 'j', 'o', 'x', 'N', 'z', 'Y', '3', 'M', 'j', 'I', '1', 'N', 'j',
    'A', 'w', 'M', 'D', 'A', 'w', 'L', 'C', 'J', 'l', 'e', 'H', 'A', 'i', 'O', 'j', 'E', '3', 'N',
    'j', 'c', 'y', 'M', 'j', 'U', '5', 'M', 'D', 'A', 'w', 'M', 'D', 'B', '9']

def sampleWebSocketSignature : List Char :=
  ['r', '-', '5', 'Q', 'e', 'm', '2', '2', 'm', 'Y', 'c', 'P', 'L', 'i', 'm', 'y', '8', 'C', 'C',
    'l', '1', '4', 'M', 'p', 'r', 'P', 'e', 'Z', '6', 'H', 'C', 'z', 'C', 'b', 'b', '7', 'b', '7',
    'c', 'y', 'y', 'y', 'I']

/-- The texts and signatures of one session's tokens. -/
def sampleCodec : TokenCodec where
  encodeText value := if isClaims "session" value then samplePayload else sampleWebSocketPayload
  decodeText text :=
    if text = samplePayload then some (sampleInput.claims sampleId sampleStart).json
    else if text = sampleWebSocketPayload then
      some (webSocketClaims sampleId sampleStart 300000).json
    else none
  signPayload text :=
    if text = samplePayload then sampleSignature else sampleWebSocketSignature
  signatureBytes text := base64UrlBytes (text.filterMap base64UrlDigit?)
  sha256 text :=
    if text = "dev.token".toList then
      [139, 27, 65, 161, 142, 172, 4, 159, 231, 237, 149, 71, 232, 36, 242, 24, 152, 108, 13, 116,
        238, 112, 108, 239, 53, 103, 225, 33, 79, 203, 217, 239]
    else []

/-- A development server with a reusable token. -/
def sampleConfig : ServerConfig where
  mode := .web
  devUrl := some "http://localhost:5733"
  devAuthToken := some "dev.token".toList

def sampleHistory : List SessionOp :=
  [.issue sampleId sampleInput, .issueWebSocketToken sampleId, .clockAdvanced 1000]

theorem encodeText_sample : sampleCodec.encodeText (sampleInput.claims sampleId sampleStart).json =
    samplePayload := rfl

theorem encodeText_sampleWebSocket :
    sampleCodec.encodeText (webSocketClaims sampleId sampleStart 300000).json =
      sampleWebSocketPayload := rfl

set_option maxRecDepth 4000 in
theorem carries_sample : sampleCodec.Carries (sampleInput.claims sampleId sampleStart).json where
  decode := by
    rw [encodeText_sample]
    simp only [sampleCodec, if_true]
  payload_dot := by decide
  payload_ne := by decide
  signature_dot := by decide
  signature_ne := by decide

theorem carries_sampleWebSocket :
    sampleCodec.Carries (webSocketClaims sampleId sampleStart 300000).json where
  decode := by
    have hne : sampleWebSocketPayload ≠ samplePayload := by decide
    rw [encodeText_sampleWebSocket]
    simp only [sampleCodec, if_neg hne, if_true]
  payload_dot := by decide
  payload_ne := by decide
  signature_dot := by decide
  signature_ne := by decide

/-- A second later both tokens are accepted. -/
theorem tokensAdmitLiveSessions_sample :
    TokensAdmitLiveSessions sampleCodec sampleConfig sampleStart sampleHistory ∧
      ((run sampleCodec sampleConfig sampleStart sampleHistory).verify sampleCodec
        (tokenText samplePayload sampleSignature)).isOk = true ∧
      ((run sampleCodec sampleConfig sampleStart sampleHistory).verifyWebSocketToken sampleCodec
        (tokenText sampleWebSocketPayload sampleWebSocketSignature)).isOk = true := by
  refine ⟨tokensAdmitLiveSessions ⟨⟨by decide +kernel, by decide +kernel, by decide +kernel,
    carries_sample, ?_⟩, ⟨by decide +kernel, carries_sampleWebSocket⟩, trivial, trivial⟩,
    by decide +kernel, by decide +kernel⟩
  intro devAuth hmem
  obtain rfl := Option.some.inj hmem
  decide +kernel

/-- A development server accepts the token of its configuration, which nobody was issued. -/
theorem not_tokensAdmitIssuedSessions :
    ¬ ∀ (codec : TokenCodec) (config : ServerConfig) (start : EpochMillis) (ops : List SessionOp),
      EveryStep (step codec) (Possible codec) (init codec config start) ops →
      ∀ token payload signature verified, splitToken token = some (payload, signature) →
        Unforged codec config start ops payload signature →
        ((run codec config start ops).verify codec token = .ok verified ↔
          ∃ sessionId input issued later,
            IssuedToken codec config start ops payload signature sessionId input issued later ∧
            (run codec config start ops).now < issued.expiresAt ∧
            (∀ op ∈ later, ¬op.Ends sessionId input.subject input.method) ∧
            verified = verifiedSession issued input token) := by
  intro h
  obtain ⟨_, _, _, _, ⟨⟨before, _, hops, _⟩, _⟩, _⟩ :=
    (h sampleCodec sampleConfig sampleStart [] trivial "dev.token".toList "dev".toList
      "token".toList ⟨"dev-auth-8b1b41a18eac049fe7ed9547e824f218986c0d74ee706cef3567e1214fcbd9ef",
        "dev.token".toList, .browserSessionCookie,
        { label := some "Reusable dev token", deviceType := .unknown }, 253402300799999,
        "reusable-dev-token", authAdministrativeScopes⟩ (by decide +kernel)
      (fun hsign ↦ absurd hsign (by decide +kernel))).mp (by decide +kernel)
  exact absurd hops (by simp)

end SessionStore

end Awen.Auth
