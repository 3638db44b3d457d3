import Awen.Auth.SessionStore

/-!
# Tokens and their sessions
-/

namespace Awen.Auth

/-! ## Claims are read back, and not as claims of the other kind -/

theorem decodeScopes_text (scopes : List AuthEnvironmentScope) :
    decodeScopes (.arr (scopes.map fun scope ↦ .str scope.text)) = some scopes := by
  have hread : ∀ scope : AuthEnvironmentScope,
      (Json.str scope.text).string?.bind AuthEnvironmentScope.ofText? = some scope := by simp
  rw [decodeScopes, Json.array?_arr, Option.bind_some, List.mapM_map]
  induction scopes with
  | nil => rfl
  | cons scope scopes ih =>
    rw [List.mapM_cons, ih, Function.comp_apply, hread]
    rfl

theorem SessionClaims.field_json (claims : SessionClaims) (key : String) :
    claims.json.field key = (claims.fields.lookup key).join :=
  Json.field_object (by simp [fields]) key

theorem WebSocketClaims.field_json (claims : WebSocketClaims) (key : String) :
    claims.json.field key = (claims.fields.lookup key).join :=
  Json.field_object (by simp [fields]) key

theorem decodeSessionClaims_json (claims : SessionClaims) :
    decodeSessionClaims claims.json = some claims := by
  simp [decodeSessionClaims, isClaims, SessionClaims.field_json, SessionClaims.fields,
    List.lookup_cons, decodeScopes_text]

theorem decodeWebSocketClaims_json (claims : WebSocketClaims) :
    decodeWebSocketClaims claims.json = some claims := by
  simp [decodeWebSocketClaims, isClaims, WebSocketClaims.field_json, WebSocketClaims.fields,
    List.lookup_cons]

theorem decodeSessionClaims_webSocket (claims : WebSocketClaims) :
    decodeSessionClaims claims.json = none := by
  simp [decodeSessionClaims, isClaims, WebSocketClaims.field_json, WebSocketClaims.fields,
    List.lookup_cons]

theorem decodeWebSocketClaims_session (claims : SessionClaims) :
    decodeWebSocketClaims claims.json = none := by
  simp [decodeWebSocketClaims, isClaims, SessionClaims.field_json, SessionClaims.fields,
    List.lookup_cons]

/-! ## Opening a token -/

variable {codec : TokenCodec}

theorem openToken_eq_ok {α : Type} {errors : TokenErrors} {decode : Json → Option α}
    {token payload signature : List Char} {claims : α}
    (htoken : splitToken token = some (payload, signature)) :
    openToken codec errors decode token = .ok claims ↔
      codec.timingSafeEqualBase64Url signature (codec.signPayload payload) ∧
        (codec.decodeText payload).bind decode = some claims := by
  rw [openToken, htoken]
  dsimp only
  split
  · rename_i hsignature
    split
    · rename_i hnone
      simp [hnone]
    · rename_i found hfound
      simp [hsignature, hfound]
  · rename_i hsignature
    simp [hsignature]

theorem splitToken_tokenText {payload signature : List Char} (hpayload : '.' ∉ payload)
    (hne : payload ≠ []) (hsignature : '.' ∉ signature) (hne' : signature ≠ []) :
    splitToken (tokenText payload signature) = some (payload, signature) := by
  rw [splitToken, tokenText, List.splitOn_append_cons_self, List.splitOn_eq_singleton hpayload,
    List.splitOn_eq_singleton hsignature]
  simp [hne, hne']

/-! ## What an operation does to a session -/

/-- An operation that ends a session: it is revoked, or replaced by a new one of its subject and its
method. -/
def SessionOp.Ends (sessionId : AuthSessionId) (subject : String)
    (method : ServerAuthSessionMethod) :
    SessionOp → Prop
  | issue _ input =>
    input.replaceActiveForSubjectAndMethod = true ∧ input.subject = subject ∧ input.method = method
  | revoke other => other = sessionId
  | revokeAllExcept other => other ≠ sessionId
  | _ => False

/-- A row of the same session, perhaps later. -/
structure AuthSessionRow.SameSession (row later : AuthSessionRow) : Prop where
  sessionId : later.sessionId = row.sessionId
  subject : later.subject = row.subject
  scopes : later.scopes = row.scopes
  method : later.method = row.method
  client : later.client = row.client
  issuedAt : later.issuedAt = row.issuedAt
  expiresAt : later.expiresAt = row.expiresAt

theorem AuthSessionRow.SameSession.refl (row : AuthSessionRow) : row.SameSession row :=
  ⟨rfl, rfl, rfl, rfl, rfl, rfl, rfl⟩

theorem AuthSessionRow.SameSession.trans {row later latest : AuthSessionRow}
    (h : row.SameSession later) (h' : later.SameSession latest) : row.SameSession latest :=
  ⟨h'.sessionId.trans h.sessionId, h'.subject.trans h.subject, h'.scopes.trans h.scopes,
    h'.method.trans h.method, h'.client.trans h.client, h'.issuedAt.trans h.issuedAt,
    h'.expiresAt.trans h.expiresAt⟩

theorem AuthSessionRow.sameSession_revokeIf (row : AuthSessionRow) (condition : Bool)
    (revokedAt : EpochMillis) : row.SameSession (row.revokeIf condition revokedAt) := by
  unfold revokeIf
  split <;> exact ⟨rfl, rfl, rfl, rfl, rfl, rfl, rfl⟩

theorem AuthSessionRow.revokedAt_revokeIf (row : AuthSessionRow) (condition : Bool)
    (revokedAt : EpochMillis) : (row.revokeIf condition revokedAt).revokedAt = none ↔
      row.revokedAt = none ∧ condition = false := by
  unfold revokeIf
  split
  · rename_i h
    rw [Bool.and_eq_true, Option.isNone_iff_eq_none] at h
    simp [h.1, h.2]
  · rename_i h
    rw [Bool.and_eq_true, Option.isNone_iff_eq_none, not_and, Bool.not_eq_true] at h
    exact ⟨fun hnone ↦ ⟨hnone, h hnone⟩, And.left⟩

/-- A session that has not expired is replaced, if it is to expire before the year 10000. -/
theorem isReplacedBy_iff {row session : AuthSessionRow} {revokedAt : EpochMillis}
    (hexpires : row.expiresAt < year10000) (hactive : revokedAt < row.expiresAt) :
    AuthSessions.isReplacedBy session revokedAt row = true ↔
      session.subject = row.subject ∧ session.method = row.method := by
  have hlt : isoTextLt revokedAt row.expiresAt = true := by
    rw [isoTextLt, if_pos (iff_of_true (hactive.trans hexpires) hexpires)]
    exact decide_eq_true hactive
  rw [AuthSessions.isReplacedBy, hlt, Bool.and_true, Bool.and_eq_true, decide_eq_true_eq,
    decide_eq_true_eq, eq_comm, eq_comm (a := row.method)]

/-- How the row of a session goes on: it stays that of the session, and while the session has not
expired, it is revoked by the operations that end it and by no others. -/
structure GoesOn (op : SessionOp) (row later : AuthSessionRow) (now : EpochMillis) : Prop where
  same : row.SameSession later
  revoked : now < row.expiresAt → (later.revokedAt = none ↔
    row.revokedAt = none ∧ ¬op.Ends row.sessionId row.subject row.method)

theorem goesOn_self {op : SessionOp} {row : AuthSessionRow} {now : EpochMillis}
    (h : ¬op.Ends row.sessionId row.subject row.method) : GoesOn op row row now :=
  ⟨.refl row, fun _ ↦ (and_iff_left h).symm⟩

theorem goesOn_revokeIf {op : SessionOp} {row : AuthSessionRow} {now : EpochMillis}
    {condition : Bool} (revokedAt : EpochMillis)
    (h : now < row.expiresAt →
      (condition = true ↔ op.Ends row.sessionId row.subject row.method)) :
    GoesOn op row (row.revokeIf condition revokedAt) now where
  same := row.sameSession_revokeIf condition revokedAt
  revoked hnow := by rw [row.revokedAt_revokeIf, ← Bool.not_eq_true, h hnow]

theorem goesOn_updateIf {op : SessionOp} {row : AuthSessionRow} {now : EpochMillis}
    (sessionId : AuthSessionId) {f : AuthSessionRow → AuthSessionRow} (hf : row.SameSession (f row))
    (hrevoked : (f row).revokedAt = row.revokedAt)
    (h : ¬op.Ends row.sessionId row.subject row.method) :
    GoesOn op row (row.updateIf sessionId f) now := by
  unfold AuthSessionRow.updateIf
  split
  · exact ⟨hf, fun _ ↦ by rw [hrevoked, and_iff_left h]⟩
  · exact goesOn_self h

/-! ## Possible operations -/

/-- A value that the codec carries: its text is read back, and neither the text nor its signature is
empty or has a dot. -/
structure TokenCodec.Carries (codec : TokenCodec) (value : Json) : Prop where
  decode : codec.decodeText (codec.encodeText value) = some value
  payload_dot : '.' ∉ codec.encodeText value
  payload_ne : codec.encodeText value ≠ []
  signature_dot : '.' ∉ codec.signPayload (codec.encodeText value)
  signature_ne : codec.signPayload (codec.encodeText value) ≠ []

namespace SessionStore

variable (codec) in
/-- **What can be asked of the store.** Session ids are fresh and none of them looks like that of a
development server, whose token is none that the store returns; and all sessions and tokens expire
before the year 10000. -/
def Possible (s : SessionStore) : SessionOp → Prop
  | .issue sessionId input =>
    s.sessions.get sessionId = none ∧ ¬ reusableDevSessionPrefix <+: sessionId.toList ∧
      s.now + input.ttl < year10000 ∧ codec.Carries (input.claims sessionId s.now).json ∧
      ∀ devAuth ∈ s.devAuth, devAuth.matches codec (tokenText (input.payload codec sessionId s.now)
        (codec.signPayload (input.payload codec sessionId s.now))) = false
  | .issueWebSocketToken sessionId ttl =>
    s.now + ttl < year10000 ∧ codec.Carries (webSocketClaims sessionId s.now ttl).json
  | _ => True

variable {s : SessionStore}

variable (codec) in
/-- A session with a fresh id is stored. -/
theorem issue_of_fresh {sessionId : AuthSessionId} (input : IssueInput)
    (h : s.sessions.get sessionId = none) :
    ∃ s', s.issue codec sessionId input = some
        (⟨sessionId, tokenText (input.payload codec sessionId s.now)
          (codec.signPayload (input.payload codec sessionId s.now)), input.method, input.client,
          s.now + input.ttl, input.scopes⟩, s') ∧
      s'.sessions = (if input.replaceActiveForSubjectAndMethod then
          AuthSessions.revokeWhere s.sessions
            (AuthSessions.isReplacedBy (input.row sessionId s.now) s.now) s.now
        else s.sessions).upsert (input.row sessionId s.now) ∧
      s'.now = s.now ∧ s'.devAuth = s.devAuth := by
  have hrow : (input.row sessionId s.now).sessionId = sessionId := rfl
  unfold issue
  split
  · have hnone : (AuthSessions.revokeWhere s.sessions
        (AuthSessions.isReplacedBy (input.row sessionId s.now) s.now) s.now).get sessionId =
          none := by
      rw [AuthSessions.revokeWhere, Table.get_mapRows, h]
      rfl
    simp only [AuthSessions.createReplacingActive, AuthSessions.create, hrow, hnone]
    exact ⟨_, rfl, rfl, rfl, rfl⟩
  · simp only [AuthSessions.create, hrow, h]
    exact ⟨_, rfl, rfl, rfl, rfl⟩

theorem get_revokeWhere {condition : AuthSessionRow → Bool} {sessionId : AuthSessionId}
    {row : AuthSessionRow} (h : s.sessions.get sessionId = some row) :
    (s.revokeWhere condition).2.sessions.get sessionId =
      some (row.revokeIf (condition row) s.now) := by
  rw [revokeWhere, AuthSessions.revokeWhere, Table.get_mapRows, h]
  rfl

variable {sessionId : AuthSessionId} {row : AuthSessionRow} {op : SessionOp}

/-- **What a step does to the row of a session.** -/
theorem get_step (hop : s.Possible codec op) (hrow : s.sessions.get sessionId = some row)
    (hexpires : row.expiresAt < year10000) :
    ∃ later, (s.step codec op).sessions.get sessionId = some later ∧
      GoesOn op row later (s.step codec op).now := by
  have hid : row.sessionId = sessionId := (Table.get_eq_some.mp hrow).2
  cases op with
  | issue newId input =>
    obtain ⟨hfresh, -⟩ := hop
    obtain ⟨s', hissue, hsessions, hnow, -⟩ := issue_of_fresh codec input hfresh
    have hne : sessionId ≠ (input.row newId s.now).sessionId := by
      rintro rfl
      exact absurd (hrow.symm.trans hfresh) nofun
    simp only [step, hissue, Option.map_some, Option.getD_some, hsessions, hnow, Table.get_upsert,
      if_neg hne]
    split
    · rename_i hreplace
      rw [AuthSessions.revokeWhere, Table.get_mapRows, hrow]
      refine ⟨_, rfl, goesOn_revokeIf s.now fun hactive ↦ ?_⟩
      rw [isReplacedBy_iff hexpires hactive]
      exact ⟨fun h ↦ ⟨hreplace, h⟩, And.right⟩
    · rename_i hkeep
      exact ⟨row, hrow, goesOn_self fun h ↦ hkeep h.1⟩
  | issueWebSocketToken _ _ => exact ⟨row, hrow, goesOn_self not_false⟩
  | revoke other =>
    refine ⟨_, get_revokeWhere hrow, goesOn_revokeIf s.now fun _ ↦ ?_⟩
    rw [decide_eq_true_eq, eq_comm]
    rfl
  | revokeAllExcept other =>
    refine ⟨_, get_revokeWhere hrow, goesOn_revokeIf s.now fun _ ↦ ?_⟩
    rw [decide_eq_true_eq, ne_comm]
    rfl
  | markConnected other =>
    simp only [step, markConnected]
    split
    · rw [AuthSessions.setLastConnectedAt, Table.get_mapRows, hrow]
      exact ⟨_, rfl, goesOn_updateIf other ⟨rfl, rfl, rfl, rfl, rfl, rfl, rfl⟩ rfl not_false⟩
    · exact ⟨row, hrow, goesOn_self not_false⟩
  | markDisconnected _ => exact ⟨row, hrow, goesOn_self not_false⟩
  | recordClientConnection other surface appVersion =>
    simp only [step, recordClientConnection]
    split
    · exact ⟨row, hrow, goesOn_self not_false⟩
    · simp only [AuthSessions.setClientConnection, Table.get_mapRows, hrow]
      exact ⟨_, rfl, goesOn_updateIf other ⟨rfl, rfl, rfl, rfl, rfl, rfl, rfl⟩ rfl not_false⟩
  | clockAdvanced _ => exact ⟨row, hrow, goesOn_self not_false⟩

/-! ## What a history leaves of a session -/

theorem now_le_step (hop : s.Possible codec op) : s.now ≤ (s.step codec op).now := by
  cases op with
  | issue sessionId input =>
    obtain ⟨s', hissue, -, hnow, -⟩ := issue_of_fresh codec input hop.1
    simp only [step, hissue, Option.map_some, Option.getD_some, hnow, le_refl]
  | recordClientConnection =>
    simp only [step, recordClientConnection]
    split <;> exact le_rfl
  | clockAdvanced millis => exact Nat.le_add_right _ _
  | _ => exact le_rfl

theorem devAuth_step (hop : s.Possible codec op) : (s.step codec op).devAuth = s.devAuth := by
  cases op with
  | issue sessionId input =>
    obtain ⟨s', hissue, -, -, hdev⟩ := issue_of_fresh codec input hop.1
    simp only [step, hissue, Option.map_some, Option.getD_some, hdev]
  | recordClientConnection =>
    simp only [step, recordClientConnection]
    split <;> rfl
  | _ => rfl

theorem now_le_foldl {ops : List SessionOp} (h : EveryStep (step codec) (Possible codec) s ops) :
    s.now ≤ (ops.foldl (step codec) s).now := by
  induction ops generalizing s with
  | nil => exact le_rfl
  | cons op ops ih => exact (now_le_step h.1).trans (ih h.2)

/-- **What a history leaves of a session**: its row, which is revoked exactly when an operation has
ended the session, as long as it has not expired. -/
theorem get_foldl {ops : List SessionOp} (h : EveryStep (step codec) (Possible codec) s ops)
    (hrow : s.sessions.get sessionId = some row) (hexpires : row.expiresAt < year10000) :
    ∃ later, (ops.foldl (step codec) s).sessions.get sessionId = some later ∧
      row.SameSession later ∧
      ((ops.foldl (step codec) s).now < row.expiresAt → (later.revokedAt = none ↔
        row.revokedAt = none ∧ ∀ op ∈ ops, ¬op.Ends row.sessionId row.subject row.method)) := by
  induction ops generalizing s row with
  | nil => exact ⟨row, hrow, .refl row, fun _ ↦ by simp⟩
  | cons op ops ih =>
    obtain ⟨next, hnext, hgoesOn⟩ := get_step h.1 hrow hexpires
    have hsame := hgoesOn.same
    obtain ⟨later, hlater, hsame', hrevoked⟩ := ih h.2 hnext (hsame.expiresAt ▸ hexpires)
    refine ⟨later, hlater, hsame.trans hsame', fun hnow ↦ ?_⟩
    have hactive : (s.step codec op).now < row.expiresAt := (now_le_foldl h.2).trans_lt hnow
    rw [hrevoked (hsame.expiresAt ▸ hnow), hgoesOn.revoked hactive, hsame.sessionId, hsame.subject,
      hsame.method, List.forall_mem_cons, and_assoc]

theorem devAuth_foldl {ops : List SessionOp} (h : EveryStep (step codec) (Possible codec) s ops) :
    (ops.foldl (step codec) s).devAuth = s.devAuth := by
  induction ops generalizing s with
  | nil => rfl
  | cons op ops ih => exact (ih h.2).trans (devAuth_step h.1)

/-- Only `issue` stores a session. -/
theorem get_step_of_none (hop : s.Possible codec op) (hnone : s.sessions.get sessionId = none)
    (hissue : ∀ input, op ≠ .issue sessionId input) :
    (s.step codec op).sessions.get sessionId = none := by
  have hmap : ∀ (f : AuthSessionRow → AuthSessionRow)
      (hf : ∀ row, (f row).sessionId = row.sessionId),
      (s.sessions.mapRows f hf).get sessionId = none := by
    intro f hf
    rw [Table.get_mapRows, hnone]
    rfl
  cases op with
  | issue newId input =>
    obtain ⟨s', heq, hsessions, -⟩ := issue_of_fresh codec input hop.1
    have hne : sessionId ≠ (input.row newId s.now).sessionId := by
      rintro rfl
      exact hissue input rfl
    simp only [step, heq, Option.map_some, Option.getD_some, hsessions,
      Table.get_upsert, if_neg hne]
    split
    · exact hmap _ _
    · exact hnone
  | revoke other => exact hmap _ fun row ↦ row.sessionId_revokeIf _ _
  | revokeAllExcept other => exact hmap _ fun row ↦ row.sessionId_revokeIf _ _
  | markConnected other =>
    simp only [step, markConnected]
    split
    · exact hmap _ _
    · exact hnone
  | recordClientConnection other surface appVersion =>
    simp only [step, recordClientConnection]
    split
    · exact hnone
    · simp only [AuthSessions.setClientConnection, Table.get_mapRows, hnone]
      rfl
  | issueWebSocketToken | markDisconnected | clockAdvanced => exact hnone

end SessionStore

end Awen.Auth
