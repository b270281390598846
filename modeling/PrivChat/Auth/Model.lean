import PrivChat.Channels.Model
import PrivChat.Tasks.Prog

/-!
The data that authentication works on: the devices of the users with the version and the state of
their session, the tokens that were signed, and the records of the refresh tokens.

The text of a token stands for what was signed, so a token is given by its claims, and a token is
genuine if the server has signed it. The server keeps nothing of an access token. Beside what the
server holds, the model keeps the device tables so far, and with each token from which of them its
session version was read.
-/

namespace PrivChat.Auth

open Db
open Channels (UserId Millis)

/-- A device, by the value of its uuid. -/
abbrev DeviceId := ℕ
abbrev Jti := String
abbrev TokenHash := String
abbrev Seconds := ℤ

inductive ErrorCode
  | invalidParams | authRequired | permissionDenied | internalError
  | invalidToken | refreshTokenExpired | refreshTokenRevoked
  deriving DecidableEq

structure RpcError where
  code : ErrorCode
  message : String
  deriving DecidableEq

namespace RpcError

def validation (message : String) : RpcError := ⟨.invalidParams, message⟩
def unauthorized (message : String) : RpcError := ⟨.authRequired, message⟩
def forbidden (message : String) : RpcError := ⟨.permissionDenied, message⟩
def internal (message : String) : RpcError := ⟨.internalError, message⟩

end RpcError

inductive ServerError
  | coded (code : ErrorCode) (status : ℕ) (message : String)
  | internal (text : String)
  | validation (text : String)
  | database (text : String)
  | invalidToken
  | tokenExpired
  | unauthorized (text : String)
  | tokenRevoked
  | badRequest (text : String)
  | notFound (text : String)
  deriving DecidableEq

def ServerError.display : ServerError → String
  | .coded _ _ message => message
  | .internal text => s!"Internal error: {text}"
  | .validation text => s!"Validation error: {text}"
  | .database text => s!"Database error: {text}"
  | .invalidToken => "Invalid token"
  | .tokenExpired => "Token expired"
  | .unauthorized text => s!"Unauthorized: {text}"
  | .tokenRevoked => "Token revoked"
  | .badRequest text => s!"Bad request: {text}"
  | .notFound text => s!"Not found: {text}"

/-- A service ends with an error of the server, the handler of an RPC with one of its own. -/
inductive AuthError
  | server (e : ServerError)
  | rpc (e : RpcError)
  deriving DecidableEq

/-- What a handler shows of an error. -/
def AuthError.display : AuthError → String
  | .server e => e.display
  | .rpc e => e.message

/-! ### Sessions -/

inductive SessionState
  | active | kicked | frozen | revoked | pendingVerify
  deriving DecidableEq

namespace SessionState

def isUsable : SessionState → Bool
  | .active => true
  | .kicked | .frozen | .revoked | .pendingVerify => false

def toErrorMessage : SessionState → String
  | .active => "设备正常"
  | .kicked => "您的账号已在其他设备登录"
  | .frozen => "设备已被冻结，请联系客服"
  | .revoked => "设备已被撤销，请重新登录"
  | .pendingVerify => "需要进行安全验证"

/-- The state a stored number stands for. -/
def tryFrom : ℤ → Option SessionState
  | 0 => some .active
  | 1 => some .kicked
  | 2 => some .frozen
  | 3 => some .revoked
  | 4 => some .pendingVerify
  | _ => none

end SessionState

structure DeviceRow where
  sessionVersion : ℤ
  sessionState : ℤ
  deriving DecidableEq

inductive SessionVerifyResult
  | valid (sessionVersion : ℤ)
  | deviceNotFound
  | sessionInactive (state : SessionState) (message : String)
  | versionMismatch (tokenVersion currentVersion : ℤ)
  deriving DecidableEq

def SessionVerifyResult.isValid : SessionVerifyResult → Bool
  | .valid _ => true
  | .deviceNotFound | .sessionInactive _ _ | .versionMismatch _ _ => false

/-- What `verify_device_session` makes of the row it has found. -/
def verifySession (row : Option DeviceRow) (tokenSessionVersion : ℤ) : SessionVerifyResult :=
  match row with
  | none => .deviceNotFound
  | some device =>
    match SessionState.tryFrom device.sessionState with
    | none => .sessionInactive .revoked "设备会话状态异常，请重新登录"
    | some state =>
      if !state.isUsable then .sessionInactive state state.toErrorMessage
      else if tokenSessionVersion < device.sessionVersion then
        .versionMismatch tokenSessionVersion device.sessionVersion
      else .valid device.sessionVersion

lemma SessionState.isUsable_tryFrom (z : ℤ) :
    ((SessionState.tryFrom z).any isUsable) = true ↔ z = 0 := by
  constructor
  · intro h
    unfold tryFrom at h
    split at h
    · rfl
    all_goals cases h
  · rintro rfl
    rfl

variable {row : Option DeviceRow}

/-- Only an active device with a version that is not above that of the token lets it pass. -/
lemma verifySession_eq_valid {v c : ℤ} : verifySession row v = .valid c ↔
      ∃ device, row = some device ∧ device.sessionState = 0 ∧ device.sessionVersion = c ∧ c ≤ v :=
        by
  cases row with
  | none => simp [verifySession]
  | some device =>
    have husable := SessionState.isUsable_tryFrom device.sessionState
    unfold verifySession
    cases hstate : SessionState.tryFrom device.sessionState with
    | none =>
      rw [hstate] at husable
      simp only [Option.any_none, Bool.false_eq_true, false_iff] at husable
      simp [husable, hstate]
    | some state =>
      rw [hstate, Option.any_some] at husable
      cases hu : state.isUsable with
      | false =>
        rw [hu] at husable
        simp only [Bool.false_eq_true, false_iff] at husable
        simp [hstate, hu, husable]
      | true =>
        have h0 : device.sessionState = 0 := husable.mp hu
        by_cases hv : v < device.sessionVersion
        · simp only [hstate, hu, Bool.not_true, Bool.false_eq_true, if_false, hv, if_true,
            reduceCtorEq, false_iff]
          rintro ⟨_, ⟨⟩, -, rfl, hle⟩
          omega
        · simp only [hstate, hu, Bool.not_true, Bool.false_eq_true, if_false, hv,
            SessionVerifyResult.valid.injEq]
          constructor
          · rintro rfl
            exact ⟨device, rfl, h0, rfl, by omega⟩
          · rintro ⟨_, ⟨⟩, -, rfl, -⟩
            rfl

lemma isValid_verifySession {v : ℤ} : (verifySession row v).isValid = true ↔
      ∃ device, row = some device ∧ device.sessionState = 0 ∧ device.sessionVersion ≤ v := by
  constructor
  · intro h
    cases hr : verifySession row v with
    | valid c =>
      obtain ⟨device, hrow, hstate, rfl, hle⟩ := verifySession_eq_valid.mp hr
      exact ⟨device, hrow, hstate, hle⟩
    | deviceNotFound | sessionInactive _ _ | versionMismatch _ _ =>
      rw [hr] at h
      cases h
  · rintro ⟨device, hrow, hstate, hle⟩
    rw [verifySession_eq_valid.mpr ⟨device, hrow, hstate, rfl, hle⟩]
    rfl

abbrev Devices := Table (UserId × DeviceId) DeviceRow

namespace Devices

/-- The row after `register_or_update_device`: the version counts on, and only a device that was
kicked or revoked comes back. -/
def registered : Option DeviceRow → DeviceRow
  | none => ⟨1, 0⟩
  | some row =>
    ⟨row.sessionVersion + 1, if row.sessionState = 1 ∨ row.sessionState = 3 then 0
      else row.sessionState⟩

variable (t : Devices) (u : UserId) (d : DeviceId)

def registerOrUpdate : Devices :=
  t.put (u, d) (registered (t.get (u, d)))

/-- The next version for the rows of a user that satisfy the condition. -/
def bumpWhere (p : DeviceId → DeviceRow → Bool) (state : ℤ → ℤ) : Devices :=
  t.updateWhere (fun k row => k.1 = u ∧ p k.2 row)
    fun row => ⟨row.sessionVersion + 1, state row.sessionState⟩

def kick (ds : List DeviceId) : Devices :=
  t.bumpWhere u (fun d row => d ∈ ds ∧ row.sessionState = 0) fun _ => 1

def incrementSessionVersion : Devices :=
  t.bumpWhere u (fun d' _ => d' = d) id

def bumpUserSessions : Devices :=
  t.bumpWhere u (fun _ row => row.sessionState = 0) id

def revokeAll : Devices :=
  t.bumpWhere u (fun _ row => row.sessionState = 0) fun _ => 3

def activeOthers : List (DeviceId × ℤ) :=
  (t.select fun k row => k.1 = u ∧ k.2 ≠ d ∧ row.sessionState = 0).map
    fun x => (x.1.2, x.2.sessionVersion)

def activeCount (p : DeviceId → Bool) : ℕ :=
  (t.select fun k row => k.1 = u ∧ p k.2 ∧ row.sessionState = 0).length

end Devices

/-! ### Tokens -/

inductive TokenType
  | access | refresh
  deriving DecidableEq

structure UnifiedTokenClaims where
  iss : String
  sub : UserId
  aud : List String
  iat : Seconds
  exp : Seconds
  jti : Jti
  tokenType : TokenType
  deviceId : String
  sessionVersion : ℤ
  scope : List String
  businessSystemId : String
  appId : String
  deriving DecidableEq

structure IssueClaims where
  userId : UserId
  deviceId : String
  sessionVersion : ℤ
  scope : List String
  audience : List String
  businessSystemId : String
  appId : String
  deriving DecidableEq

inductive VerifyError
  | invalid | expired

/-- A signed token, and the number of the device table its session version was read from. A token
that was minted from a refresh token has the number of that one. There is none if the version was
not read at all. -/
structure Signed where
  claims : UnifiedTokenClaims
  readAt : Option ℕ

/-- The set-up of the server. The uuid of a text, the text of a new uuid and the hash of a token are
functions of libraries. -/
structure Config where
  issuer : String
  defaultAudience : List String
  accessTtlSecs : Seconds
  refreshTtlSecs : Seconds
  isBuiltin : Bool
  parseUuid : String → Option DeviceId
  uuidText : ℕ → String
  parse_uuidText : ∀ n, (parseUuid (uuidText n)).isSome
  hashRefreshToken : UnifiedTokenClaims → TokenHash

namespace Config

variable (cfg : Config)

def ttl : TokenType → Seconds
  | .access => cfg.accessTtlSecs
  | .refresh => cfg.refreshTtlSecs

/-- The claims `issue_inner` signs. -/
def claimsOf (typ : TokenType) (params : IssueClaims) (now : Seconds) (jti : Jti) :
    UnifiedTokenClaims where
  iss := cfg.issuer
  sub := params.userId
  aud := params.audience
  iat := now
  exp := now + cfg.ttl typ
  jti := jti
  tokenType := typ
  deviceId := params.deviceId
  sessionVersion := params.sessionVersion
  scope := params.scope
  businessSystemId := params.businessSystemId
  appId := params.appId

/-- The template for callers that say nothing of scope and audience. -/
def defaultIssueClaims (u : UserId) (deviceId businessSystemId appId : String)
    (sessionVersion : ℤ) : IssueClaims where
  userId := u
  deviceId := deviceId
  sessionVersion := sessionVersion
  scope := ["user"]
  audience := cfg.defaultAudience
  businessSystemId := businessSystemId
  appId := appId

/-- Signature, expiry (with five seconds to spare), issuer, audience and kind, in this order. -/
def verify (tokens : List Signed) (token : UnifiedTokenClaims) (typ : TokenType) (now : Seconds) :
    Except VerifyError Signed :=
  match tokens.find? (·.claims = token) with
  | none => .error .invalid
  | some signed =>
    if token.exp < now - 5 then .error .expired
    else if token.iss ≠ cfg.issuer then .error .invalid
    else if token.aud.all (· ∉ cfg.defaultAudience) then .error .invalid
    else if token.tokenType ≠ typ then .error .invalid
    else .ok signed

end Config

structure RefreshTokenRecord where
  userId : UserId
  deviceId : String
  tokenHash : TokenHash
  sessionVersion : ℤ
  expiresAt : Millis
  revokedAt : Option Millis
  revokeReason : Option String
  createdAt : Millis
  lastUsedAt : Option Millis

namespace RefreshTokenRecord

def isRevoked (r : RefreshTokenRecord) : Bool := r.revokedAt.isSome

def isExpired (r : RefreshTokenRecord) (now : Millis) : Bool := r.expiresAt ≤ now

/-- A record that is revoked already keeps its time and its reason. -/
def revoke (now : Millis) (reason : String) (r : RefreshTokenRecord) : RefreshTokenRecord :=
  { r with revokedAt := some now, revokeReason := some reason }

end RefreshTokenRecord

inductive RevokeRequest
  | byJti (jti : Jti)
  | byRefreshToken (token : UnifiedTokenClaims)
  deriving DecidableEq

def RevokeRequest.concerns (cfg : Config) : RevokeRequest → Jti → RefreshTokenRecord → Bool
  | .byJti jti, jti', _ => jti' = jti
  | .byRefreshToken token, _, r => r.tokenHash = cfg.hashRefreshToken token

def RevokeRequest.reason : RevokeRequest → String
  | .byJti _ => "revoked_by_jti"
  | .byRefreshToken _ => "revoked_by_token"

structure Server where
  devices : Devices
  records : Table Jti RefreshTokenRecord
  tokens : List Signed
  past : List Devices

namespace Server

/-- The device tables so far, the one that stands last. -/
def trail (s : Server) : List Devices := s.past ++ [s.devices]

def start (devices : Devices) (records : Table Jti RefreshTokenRecord) (tokens : List Signed) :
    Server :=
  ⟨devices, records, tokens, []⟩

/-- `verify_device_session` lets the token pass if it looks at the table now. -/
def passes (cfg : Config) (s : Server) (token : UnifiedTokenClaims) : Bool :=
  match cfg.parseUuid token.deviceId with
  | none => false
  | some d => (verifySession (s.devices.get (token.sub, d)) token.sessionVersion).isValid

end Server

/-! ### Operations -/

/-- The record of a refresh token is filed under the id in the token. -/
inductive Op
  | now
  | newUuid
  | sign (typ : TokenType) (params : IssueClaims) (readAt : Option ℕ)
  | verify (token : UnifiedTokenClaims) (typ : TokenType)
  | selectDevice (u : UserId) (d : DeviceId)
  | upsertDevice (u : UserId) (d : DeviceId)
  | selectActiveOthers (u : UserId) (d : DeviceId)
  | kickOthers (u : UserId) (ds : List DeviceId)
  | kick (u : UserId) (d : DeviceId)
  | incrementVersion (u : UserId) (d : DeviceId)
  | bumpActive (u : UserId)
  | revokeActive (u : UserId)
  | insertRecord (u : UserId) (deviceId : String) (token : UnifiedTokenClaims)
      (sessionVersion : ℤ) (expiresAt createdAt : Millis)
  | findRecord (jti : Jti)
  | touchLastUsed (jti : Jti) (at_ : Millis)
  | revokeRecords (req : RevokeRequest) (at_ : Millis)
  deriving DecidableEq

/-- What a statement answers: what it is asked for, or the error of the driver. -/
abbrev Answer (β : Type) := Except String β

/-- A row that was looked for, and the number of the table that was searched. -/
structure Found where
  row : Option DeviceRow
  readAt : ℕ

/-- What `register_or_update_device` answers, and the number of the table it has left. -/
structure Registered where
  created : Bool
  sessionVersion : ℤ
  readAt : ℕ

def Op.Res : Op → Type
  | .now => Millis
  | .newUuid => String
  | .sign _ _ _ => Signed
  | .verify _ _ => Except VerifyError Signed
  | .selectDevice _ _ => Answer Found
  | .upsertDevice _ _ => Answer Registered
  | .selectActiveOthers _ _ => Answer (List (DeviceId × ℤ))
  | .kickOthers _ _ => Answer Unit
  | .kick _ _ => Answer Bool
  | .incrementVersion _ _ => Answer ℤ
  | .bumpActive _ => Answer ℕ
  | .revokeActive _ => Answer ℕ
  | .insertRecord _ _ _ _ _ _ => Answer Unit
  | .findRecord _ => Answer (Option RefreshTokenRecord)
  | .touchLastUsed _ _ => Answer Unit
  | .revokeRecords _ _ => Answer ℕ

/-- The time, the uuid that is drawn, and the error a statement ends with. The answer of one that
was carried out may be lost. -/
structure Moment where
  now : Millis
  uuid : ℕ
  fault : Option String
  applied : Bool

def Moment.takesEffect (o : Moment) : Bool := o.fault.isNone || o.applied

def Moment.answer {β : Type} (o : Moment) (b : β) : Answer β :=
  match o.fault with
  | none => .ok b
  | some e => .error e

lemma Moment.answer_ok {β : Type} {o : Moment} {b : β} (h : o.fault = none) :
    o.answer b = .ok b := by
  rw [answer, h]

lemma Moment.answer_error {β : Type} {o : Moment} {b : β} {e : String} (h : o.fault = some e) :
    o.answer b = .error e := by
  rw [answer, h]

def Moment.signed (cfg : Config) (o : Moment) (typ : TokenType) (params : IssueClaims)
    (readAt : Option ℕ) : Signed :=
  ⟨cfg.claimsOf typ params (o.now / 1000) (cfg.uuidText o.uuid), readAt⟩

namespace Server

variable (cfg : Config) (s : Server)

/-- It is an error if there is no row where one is to be fetched. -/
def fetchOne {β : Type} (o : Moment) : Option β → Answer β
  | some b => o.answer b
  | none =>
    .error (o.fault.getD "no rows returned by a query that expected to return at least one row")

def revocable (req : RevokeRequest) : ℕ :=
  (s.records.select fun jti r => req.concerns cfg jti r && !r.isRevoked).length

def respond (o : Moment) : (op : Op) → op.Res
  | .now => o.now
  | .newUuid => cfg.uuidText o.uuid
  | .sign typ params readAt => o.signed cfg typ params readAt
  | .verify token typ => cfg.verify s.tokens token typ (o.now / 1000)
  | .selectDevice u d => o.answer ⟨s.devices.get (u, d), s.past.length⟩
  | .upsertDevice u d =>
    o.answer ⟨(s.devices.get (u, d)).isNone,
      (Devices.registered (s.devices.get (u, d))).sessionVersion, s.past.length + 1⟩
  | .selectActiveOthers u d => o.answer (s.devices.activeOthers u d)
  | .kickOthers _ _ => o.answer ()
  | .kick u d => o.answer (0 < s.devices.activeCount u (· = d))
  | .incrementVersion u d => fetchOne o ((s.devices.get (u, d)).map (·.sessionVersion + 1))
  | .bumpActive u => o.answer (s.devices.activeCount u fun _ => true)
  | .revokeActive u => o.answer (s.devices.activeCount u fun _ => true)
  | .insertRecord _ _ token _ _ _ =>
    if (s.records.get token.jti).isSome then
      .error (o.fault.getD "duplicate key value violates unique constraint")
    else o.answer ()
  | .findRecord jti => o.answer (s.records.get jti)
  | .touchLastUsed _ _ => o.answer ()
  | .revokeRecords req _ => o.answer (s.revocable cfg req)

def devicesAfter : Op → Devices
  | .upsertDevice u d => s.devices.registerOrUpdate u d
  | .kickOthers u ds => s.devices.kick u ds
  | .kick u d => s.devices.kick u [d]
  | .incrementVersion u d => s.devices.incrementSessionVersion u d
  | .bumpActive u => s.devices.bumpUserSessions u
  | .revokeActive u => s.devices.revokeAll u
  | _ => s.devices

def recordsAfter : Op → Table Jti RefreshTokenRecord
  | .insertRecord u deviceId token sessionVersion expiresAt createdAt =>
    match s.records.get token.jti with
    | some _ => s.records
    | none => s.records.put token.jti
        ⟨u, deviceId, cfg.hashRefreshToken token, sessionVersion, expiresAt, none, none, createdAt,
          none⟩
  | .touchLastUsed jti at_ => s.records.modify jti fun r => { r with lastUsedAt := some at_ }
  | .revokeRecords req at_ =>
    s.records.updateWhere (fun jti r => req.concerns cfg jti r && !r.isRevoked)
      (RefreshTokenRecord.revoke at_ req.reason)
  | _ => s.records

def tokensAfter (o : Moment) : Op → List Signed
  | .sign typ params readAt => s.tokens ++ [o.signed cfg typ params readAt]
  | _ => s.tokens

def after (o : Moment) (op : Op) : Server where
  devices := if o.takesEffect then s.devicesAfter op else s.devices
  records := if o.takesEffect then s.recordsAfter cfg op else s.records
  tokens := s.tokensAfter cfg o op
  past := s.past ++ [s.devices]

/-- An operation takes effect at once. -/
def exec (op : Op) (o : Moment) (s : Server) : op.Res × Server :=
  (s.respond cfg o op, s.after cfg o op)

end Server

end PrivChat.Auth
