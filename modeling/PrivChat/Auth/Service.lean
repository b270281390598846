import PrivChat.Auth.Model

/-!
What hands out tokens, renews them and takes them back: `DeviceManagerDb`, `UnifiedTokenService`,
`TokenIssueService` and the handlers of the login, registration, refresh and logout RPCs.
-/

namespace PrivChat.Auth

open Tasks
open Channels (UserId Millis)

abbrev AuthProg := Prog Op Op.Res AuthError

/-- The error of the driver becomes one of the caller. -/
def orFail {β : Type} (error : String → ServerError) : Answer β → AuthProg β
  | .ok b => .ret b
  | .error e => .fail (.server (error e))

def now : AuthProg Millis := .call .now .ret

def newUuid : AuthProg String := .call .newUuid .ret

/-- `issue_access` and `issue_refresh`. -/
def sign (typ : TokenType) (params : IssueClaims) (readAt : Option ℕ) : AuthProg Signed :=
  .call (.sign typ params readAt) .ret

/-- A refusal becomes an error of the caller. -/
def orRefuse (error : VerifyError → AuthError) : Except VerifyError Signed → AuthProg Signed
  | .ok signed => .ret signed
  | .error e => .fail (error e)

/-- `verify`, with what the caller makes of a refusal. -/
def verify (token : UnifiedTokenClaims) (typ : TokenType) (error : VerifyError → AuthError) :
    AuthProg Signed :=
  .call (.verify token typ) (orRefuse error)

/-- An error the handler of an RPC reports as its own. -/
def reported (text : String) (e : AuthError) : AuthError :=
  .rpc (.internal s!"{text}: {e.display}")

variable (cfg : Config) (r : IssueTokenRequest) (p : IssueParams) (token : UnifiedTokenClaims)
  (u : UserId) (deviceId : String)

def deviceUuid : AuthProg DeviceId :=
  match cfg.parseUuid deviceId with
  | some d => .ret d
  | none => .fail (.server (.badRequest "无效的设备ID"))

def selectDevice : AuthProg Found := do
  let d ← deviceUuid cfg deviceId
  .call (.selectDevice u d) (orFail fun e => .database s!"查询设备失败: {e}")

/-- The result of `verify_device_session`, and the number of the table it has looked at. -/
def verifyDeviceSession (tokenSessionVersion : ℤ) : AuthProg (SessionVerifyResult × ℕ) := do
  let device ← selectDevice cfg u deviceId
  return (verifySession device.row tokenSessionVersion, device.readAt)

def getDeviceWithVersion : AuthProg Found :=
  selectDevice cfg u deviceId

def registerOrUpdateDevice : AuthProg Registered := do
  let d ← deviceUuid cfg deviceId
  .call (.upsertDevice u d) (orFail fun e => .database s!"注册设备失败: {e}")

structure KickedDevice where
  deviceId : DeviceId
  oldVersion : ℤ
  newVersion : ℤ
  deriving DecidableEq

/-- The answer is what was selected, also where the update then has found less. -/
def kickSelected : List (DeviceId × ℤ) → AuthProg (List KickedDevice)
  | [] => .ret []
  | devices@(_ :: _) =>
    .call (.kickOthers u (devices.map (·.1))) fun r => do
      orFail (fun e => .database s!"更新设备状态失败: {e}") r
      return devices.map fun x => ⟨x.1, x.2, x.2 + 1⟩

def kickOtherDevices (currentDeviceId : String) : AuthProg (List KickedDevice) := do
  let d ← deviceUuid cfg currentDeviceId
  .call (.selectActiveOthers u d) fun r => do
    let devices ← orFail (fun e => .database s!"查询设备失败: {e}") r
    kickSelected u devices

/-- The id of the device that has asked for the kick has to be one, too. -/
def checkKicker : Option String → AuthProg Unit
  | none => .ret ()
  | some deviceId => do
    let _ ← deviceUuid cfg deviceId
    return ()

def kickDevice (targetDeviceId : String) (kickedBy : Option String) : AuthProg Unit := do
  let d ← deviceUuid cfg targetDeviceId
  checkKicker cfg kickedBy
  .call (.kick u d) fun r => do
    let found ← orFail (fun e => .database s!"踢出设备失败: {e}") r
    if found then return ()
    else .fail (.server (.notFound "设备不存在或已被踢出"))

def incrementSessionVersion : AuthProg ℤ := do
  let d ← deviceUuid cfg deviceId
  .call (.incrementVersion u d) (orFail fun e => .database s!"递增版本失败: {e}")

def bumpUserSessions : AuthProg ℕ :=
  .call (.bumpActive u) (orFail fun e => .database s!"bump session 失败: {e}")

def revokeAllDevices : AuthProg ℕ :=
  .call (.revokeActive u) (orFail fun e => .database s!"撤销设备失败: {e}")

/-! ### `UnifiedTokenService` -/

/-- The id of the device is none if it is left out or blank. -/
structure IssueParams where
  userId : UserId
  deviceId : Option String
  appId : String
  scope : Option (List String)
  audience : Option (List String)
  businessSystemId : Option String
  deriving DecidableEq

structure IssueResult where
  userId : UserId
  accessToken : UnifiedTokenClaims
  refreshToken : UnifiedTokenClaims
  expiresIn : Seconds
  refreshExpiresIn : Seconds
  deviceId : String
  sessionVersion : ℤ
  deviceCreated : Bool
  scope : List String
  issuer : String
  audience : List String
  deriving DecidableEq

/-- The id that was given, which has to be a uuid, or a new one. -/
def chooseDeviceId : Option String → AuthProg String
  | none => newUuid
  | some deviceId =>
    match cfg.parseUuid deviceId with
    | some _ => .ret deviceId
    | none => .fail (.server (.validation "device_id 必须是有效的 UUID 格式"))

def IssueParams.claims (sessionVersion : ℤ) : IssueClaims where
  userId := p.userId
  deviceId := deviceId
  sessionVersion := sessionVersion
  scope := p.scope.getD ["user"]
  audience := (p.audience.filter fun v => !v.isEmpty).getD cfg.defaultAudience
  businessSystemId := p.businessSystemId.getD "privchat-application"
  appId := p.appId

/-- Both tokens, and the record of the second. -/
def issueFor (device : Registered) : AuthProg IssueResult := do
  let claims := p.claims cfg deviceId device.sessionVersion
  let access ← sign .access claims (some device.readAt)
  let refresh ← sign .refresh claims (some device.readAt)
  let nowMs ← now
  .call (.insertRecord p.userId deviceId refresh.claims device.sessionVersion
      (refresh.claims.exp * 1000) nowMs) fun r => do
    orFail (fun e => .internal s!"插入 privchat_refresh_tokens 失败: {e}") r
    return {
      userId := p.userId
      accessToken := access.claims
      refreshToken := refresh.claims
      expiresIn := cfg.accessTtlSecs
      refreshExpiresIn := cfg.refreshTtlSecs
      deviceId := deviceId
      sessionVersion := device.sessionVersion
      deviceCreated := device.created
      scope := claims.scope
      issuer := cfg.issuer
      audience := claims.audience }

def issue : AuthProg IssueResult :=
  if p.userId = 0 then .fail (.server (.validation "user_id 不能为 0"))
  else do
    let deviceId ← chooseDeviceId cfg p.deviceId
    let device ← registerOrUpdateDevice cfg p.userId deviceId
    issueFor cfg p deviceId device

def refreshTokenExpired : AuthError :=
  .server (.coded .refreshTokenExpired 401 "refresh token 已过期")

def findByJti (jti : Jti) : AuthProg (Option RefreshTokenRecord) :=
  .call (.findRecord jti) (orFail fun e => .internal s!"查询 refresh token 失败: {e}")

/-- The record of the token, if it is there and neither revoked nor expired, and the time it was
looked at. -/
def liveRecord : AuthProg (RefreshTokenRecord × Millis) := do
  match ← findByJti token.jti with
  | none => .fail (.server .tokenRevoked)
  | some record =>
    if cfg.hashRefreshToken token ≠ record.tokenHash then .fail (.server .invalidToken)
    else if record.isRevoked then .fail (.server .tokenRevoked)
    else do
      let nowMs ← now
      if record.isExpired nowMs then .fail refreshTokenExpired
      else return (record, nowMs)

/-- A new access token with the version that stands, and the refresh token as it was. -/
def renew (token : Signed) (live : RefreshTokenRecord × Millis) (currentVersion : ℤ)
    (readAt : ℕ) : AuthProg IssueResult := do
  let claims := token.claims
  let access ← sign .access
    ⟨claims.sub, claims.deviceId, currentVersion, claims.scope, claims.aud,
      claims.businessSystemId, claims.appId⟩ (some (token.readAt.getD readAt))
  .call (.touchLastUsed claims.jti live.2) fun r => do
    orFail (fun e => .internal s!"更新 last_used_at 失败: {e}") r
    return {
      userId := claims.sub
      accessToken := access.claims
      refreshToken := claims
      expiresIn := cfg.accessTtlSecs
      refreshExpiresIn := max (live.1.expiresAt - live.2) 0 / 1000
      deviceId := claims.deviceId
      sessionVersion := currentVersion
      deviceCreated := false
      scope := claims.scope
      issuer := cfg.issuer
      audience := claims.aud }

def renewIfValid (token : Signed) (live : RefreshTokenRecord × Millis) :
    SessionVerifyResult × ℕ → AuthProg IssueResult
  | (.valid currentVersion, readAt) => renew cfg token live currentVersion readAt
  | (.deviceNotFound, _) =>
    .fail (.server (.unauthorized "REFRESH_SESSION_INVALID: 设备不存在"))
  | (.sessionInactive _ message, _) =>
    .fail (.server (.unauthorized s!"REFRESH_SESSION_INVALID: 设备会话已失效: {message}"))
  | (.versionMismatch _ _, _) =>
    .fail (.server (.unauthorized
      "REFRESH_SESSION_INVALID: session_version 已 bump，refresh 已失效"))

def refresh : AuthProg IssueResult := do
  let signed ← verify token .refresh fun
    | .expired => refreshTokenExpired
    | .invalid => .server .invalidToken
  if signed.claims.deviceId ≠ deviceId then .fail (.server .invalidToken)
  else do
    let live ← liveRecord cfg signed.claims
    let check ← verifyDeviceSession cfg signed.claims.sub signed.claims.deviceId
      signed.claims.sessionVersion
    renewIfValid cfg signed live check

abbrev IntrospectResult := Except String UnifiedTokenClaims

/-- The token is tried as an access token first, then as a refresh token. -/
def introspectVerify : AuthProg (Except String Signed) :=
  .call (.verify token .access) fun r =>
    match (r : Except VerifyError Signed) with
    | .ok signed => .ret (.ok signed)
    | .error .expired => .ret (.error "expired")
    | .error .invalid =>
      .call (.verify token .refresh) fun r =>
        match (r : Except VerifyError Signed) with
        | .ok signed => .ret (.ok signed)
        | .error .expired => .ret (.error "expired")
        | .error .invalid => .ret (.error "signature_invalid")

def introspectSession (claims : UnifiedTokenClaims) : AuthProg (Except String Unit) := do
  match ← (verifyDeviceSession cfg claims.sub claims.deviceId claims.sessionVersion).attempt with
  | .ok (.valid _, _) => return .ok ()
  | .ok (.deviceNotFound, _) => return .error "not_found"
  | .ok (.sessionInactive _ _, _) => return .error "revoked"
  | .ok (.versionMismatch _ _, _) => return .error "version_mismatch"
  | .error _ => return .error "not_found"

def introspectRecord (jti : Jti) : AuthProg (Except String Unit) := do
  match ← (findByJti jti).attempt with
  | .ok (some record) =>
    if record.isRevoked then return .error "revoked"
    else do
      let nowMs ← now
      if record.isExpired nowMs then return .error "expired" else return .ok ()
  | .ok none => return .error "revoked"
  | .error _ => return .error "not_found"

/-- An access token has no record. -/
def introspectKind (claims : UnifiedTokenClaims) : AuthProg IntrospectResult :=
  match claims.tokenType with
  | .access => .ret (.ok claims)
  | .refresh => do
    match ← introspectRecord claims.jti with
    | .ok _ => return .ok claims
    | .error reason => return .error reason

def introspect : AuthProg IntrospectResult := do
  match ← introspectVerify token with
  | .error reason => return .error reason
  | .ok signed => do
    match ← introspectSession cfg signed.claims with
    | .error reason => return .error reason
    | .ok _ => introspectKind signed.claims

def RevokeRequest.failure : RevokeRequest → String → ServerError
  | .byJti _, e => .internal s!"revoke by jti 失败: {e}"
  | .byRefreshToken _, e => .internal s!"revoke by refresh_token 失败: {e}"

/-- How many records were revoked. -/
def revoke (req : RevokeRequest) : AuthProg ℕ := do
  let nowMs ← now
  .call (.revokeRecords req nowMs) (orFail req.failure)

/-- The request, and whether the service key that came with it is valid. -/
structure IssueTokenRequest where
  keyIsValid : Bool
  userId : UserId
  businessSystemId : String
  deviceId : Option String
  appId : String
  deviceName : String
  ttl : Option Seconds
  deriving DecidableEq

structure IssueTokenResponse where
  imToken : UnifiedTokenClaims
  deviceId : String
  expiresIn : Seconds
  expiresAt : Millis
  sessionVersion : ℤ
  deviceCreated : Bool
  imRefreshToken : UnifiedTokenClaims
  imRefreshExpiresIn : Seconds
  deriving DecidableEq

def validateTtl : Option Seconds → Except ServerError Unit
  | none => .ok ()
  | some ttl =>
    if ttl < 60 then .error (.validation "ttl 不能小于 60 秒")
    else if 30 * 24 * 3600 < ttl then .error (.validation "ttl 不能超过 30 天")
    else .ok ()

def IssueTokenRequest.validate : Except ServerError Unit :=
  if r.userId = 0 then .error (.validation "user_id 不能为 0")
  else if 255 < r.businessSystemId.utf8ByteSize then
    .error (.validation "business_system_id 长度不能超过 255")
  else if r.appId = "" then .error (.validation "app_id 不能为空")
  else if r.deviceName = "" then .error (.validation "device_name 不能为空")
  else validateTtl r.ttl

/-- The version a token is to carry, whether the device is new, and where the version is from. -/
structure Standing where
  sessionVersion : ℤ
  deviceCreated : Bool
  readAt : Option ℕ

/-- If the device could not be written, the service goes on with a first version. -/
def registerOrAssume : AuthProg Standing := do
  match ← (registerOrUpdateDevice cfg u deviceId).attempt with
  | .ok device => return ⟨device.sessionVersion, device.created, some device.readAt⟩
  | .error _ => return ⟨1, true, none⟩

def tokenError : VerifyError → AuthError
  | .expired => .server .tokenExpired
  | .invalid => .server .invalidToken

/-- The life the request asks for is answered, but the tokens have their usual one. -/
def issueTokenFor (standing : Standing) : AuthProg IssueTokenResponse := do
  let claims := cfg.defaultIssueClaims r.userId deviceId r.businessSystemId r.appId
    standing.sessionVersion
  let imToken ← sign .access claims standing.readAt
  let imRefreshToken ← sign .refresh claims standing.readAt
  let _ ← verify imToken.claims .access tokenError
  let nowMs ← now
  let ttl := r.ttl.getD cfg.accessTtlSecs
  return {
    imToken := imToken.claims
    deviceId := deviceId
    expiresIn := ttl
    expiresAt := nowMs + ttl * 1000
    sessionVersion := standing.sessionVersion
    deviceCreated := standing.deviceCreated
    imRefreshToken := imRefreshToken.claims
    imRefreshExpiresIn := cfg.refreshTtlSecs }

def issueToken : AuthProg IssueTokenResponse :=
  if !r.keyIsValid then .fail (.server (.unauthorized "无效的 service key"))
  else
    match r.validate with
    | .error e => .fail (.server e)
    | .ok _ => do
      let deviceId ← chooseDeviceId cfg r.deviceId
      let standing ← registerOrAssume cfg r.userId deviceId
      issueTokenFor cfg r deviceId standing

/-! ### The RPCs -/

/-- What the user and the password come to, and what the tokens are to be about. -/
structure LoginRequest where
  user : Except RpcError UserId
  deviceId : String
  appId : String
  deriving DecidableEq

structure AuthResponse where
  userId : UserId
  token : UnifiedTokenClaims
  refreshToken : UnifiedTokenClaims
  expiresAt : Millis
  deviceId : String
  deriving DecidableEq

/-- Goes on with the user, or refuses. -/
def withUser {β : Type} (user : Except RpcError UserId) (k : UserId → AuthProg β) : AuthProg β :=
  match user with
  | .error e => .fail (.rpc e)
  | .ok u => k u

def requireUuid {β : Type} (k : AuthProg β) : AuthProg β :=
  match cfg.parseUuid deviceId with
  | none => .fail (.rpc (.validation "device_id 必须是有效的 UUID 格式"))
  | some _ => k

/-- Both tokens, signed for the built-in system. -/
def openSession (r : LoginRequest) (u : UserId) (sessionVersion : ℤ) (readAt : Option ℕ) :
    AuthProg AuthResponse := do
  let claims := cfg.defaultIssueClaims u r.deviceId "privchat-internal" r.appId sessionVersion
  let token ← sign .access claims readAt
  let nowMs ← now
  let refreshToken ← sign .refresh claims readAt
  return ⟨u, token.claims, refreshToken.claims, nowMs + cfg.accessTtlSecs * 1000, r.deviceId⟩

/-- The device is registered, and taken to have the first version then. -/
def registerNew : AuthProg ℕ := do
  let device ← (registerOrUpdateDevice cfg u deviceId).mapErr (reported "注册设备失败")
  return device.readAt

def login (r : LoginRequest) : AuthProg AuthResponse :=
  if !cfg.isBuiltin then
    .fail (.rpc (.forbidden ("account.mode=PLATFORM：server 内置登录已禁用，" ++
      "请向 platform 申请 token，再通过 AuthorizationRequest 建立连接。")))
  else withUser r.user fun u => requireUuid cfg r.deviceId do
    let device ← (getDeviceWithVersion cfg u r.deviceId).mapErr (reported "查询设备失败")
    match device.row with
    | some row => openSession cfg r u row.sessionVersion (some device.readAt)
    | none => do
      let readAt ← registerNew cfg u r.deviceId
      openSession cfg r u 1 (some readAt)

/-- The user is what creating one has come to. -/
def register (r : LoginRequest) : AuthProg AuthResponse :=
  if !cfg.isBuiltin then
    .fail (.rpc (.forbidden
      "account.mode=PLATFORM：server 内置注册已禁用，请通过 platform 完成注册。"))
  else requireUuid cfg r.deviceId <| withUser r.user fun u => do
    let readAt ← registerNew cfg u r.deviceId
    openSession cfg r u 1 (some readAt)

structure RefreshResponse where
  accessToken : UnifiedTokenClaims
  expiresAt : Millis
  deriving DecidableEq

def refreshRefusal (message : String) : AuthError := .rpc ⟨.refreshTokenRevoked, message⟩

/-- A new access token with the version of the refresh token. -/
def refreshRpcIfValid (token : Signed) : SessionVerifyResult → AuthProg RefreshResponse
  | .valid _ => do
    let claims := token.claims
    let access ← sign .access
      (cfg.defaultIssueClaims claims.sub claims.deviceId claims.businessSystemId claims.appId
        claims.sessionVersion) token.readAt
    let nowMs ← now
    return ⟨access.claims, max (nowMs + cfg.accessTtlSecs * 1000) 0⟩
  | .deviceNotFound => .fail (refreshRefusal "设备不存在或已移除，请重新登录")
  | .sessionInactive _ message => .fail (refreshRefusal message)
  | .versionMismatch _ _ =>
    .fail (refreshRefusal "Refresh token 已被撤销（会话版本升级），请重新登录")

/-- The handler of `account/auth/refresh`. -/
def refreshRpc : AuthProg RefreshResponse :=
  if !cfg.isBuiltin then
    .fail (.rpc (.forbidden
      "account.mode=PLATFORM：server 内置 refresh 已禁用，请向 platform 申请新 token。"))
  else requireUuid cfg deviceId do
    let signed ← verify token .refresh fun
      | .expired => .rpc ⟨.refreshTokenExpired, "Refresh token 已过期，请重新登录"⟩
      | .invalid => .rpc ⟨.invalidToken, "Refresh token 无效"⟩
    if signed.claims.deviceId ≠ deviceId then
      .fail (refreshRefusal "Refresh token 与当前设备不匹配")
    else do
      let check ← (verifyDeviceSession cfg signed.claims.sub signed.claims.deviceId
        signed.claims.sessionVersion).mapErr (reported "设备会话校验失败")
      refreshRpcIfValid cfg signed check.1

/-- What a logout does to the device, if it is known. That it fails is only logged. -/
def logout : Option String → AuthProg Unit
  | none => .ret ()
  | some deviceId => do
    let _ ← (incrementSessionVersion cfg u deviceId).attempt
    return ()

inductive Job
  | issue (p : IssueParams)
  | issueToken (r : IssueTokenRequest)
  | login (r : LoginRequest)
  | register (r : LoginRequest)
  | refresh (token : UnifiedTokenClaims) (deviceId : String)
  | refreshRpc (token : UnifiedTokenClaims) (deviceId : String)
  | introspect (token : UnifiedTokenClaims)
  | revoke (req : RevokeRequest)
  | registerOrUpdateDevice (u : UserId) (deviceId : String)
  | verifyDeviceSession (u : UserId) (deviceId : String) (tokenSessionVersion : ℤ)
  | kickOtherDevices (u : UserId) (currentDeviceId : String)
  | kickDevice (u : UserId) (targetDeviceId : String) (kickedBy : Option String)
  | bumpUserSessions (u : UserId)
  | revokeAllDevices (u : UserId)
  | logout (u : UserId) (deviceId : Option String)
  deriving DecidableEq

inductive Reply
  | issued (r : IssueResult)
  | imToken (r : IssueTokenResponse)
  | session (r : AuthResponse)
  | refreshed (r : RefreshResponse)
  | introspected (r : IntrospectResult)
  | verified (r : SessionVerifyResult)
  | registered (created : Bool) (sessionVersion : ℤ)
  | kicked (devices : List KickedDevice)
  | affected (rows : ℕ)
  | done
  deriving DecidableEq

def progOf : Job → AuthProg Reply
  | .issue p => do return .issued (← issue cfg p)
  | .issueToken r => do return .imToken (← issueToken cfg r)
  | .login r => do return .session (← login cfg r)
  | .register r => do return .session (← register cfg r)
  | .refresh token deviceId => do return .issued (← refresh cfg token deviceId)
  | .refreshRpc token deviceId => do return .refreshed (← refreshRpc cfg token deviceId)
  | .introspect token => do return .introspected (← introspect cfg token)
  | .revoke req => do return .affected (← revoke req)
  | .registerOrUpdateDevice u deviceId => do
    let device ← registerOrUpdateDevice cfg u deviceId
    return .registered device.created device.sessionVersion
  | .verifyDeviceSession u deviceId v => do
    return .verified (← verifyDeviceSession cfg u deviceId v).1
  | .kickOtherDevices u deviceId => do return .kicked (← kickOtherDevices cfg u deviceId)
  | .kickDevice u deviceId kickedBy => do
    kickDevice cfg u deviceId kickedBy
    return .done
  | .bumpUserSessions u => do return .affected (← bumpUserSessions u)
  | .revokeAllDevices u => do return .affected (← revokeAllDevices u)
  | .logout u deviceId => do
    logout cfg u deviceId
    return .done

/-- A user that was created just now has no device yet. -/
def Job.admits : Job → Server → Bool
  | .register r, s =>
    match r.user with
    | .ok u => !s.devices.any fun k _ => k.1 = u
    | .error _ => true
  | _, _ => true

abbrev AuthTasks := State Server Op Op.Res Job AuthError Reply
abbrev AuthEvent := Event Moment Empty Job

def machine : Machine Server Op Op.Res Moment Empty Job AuthError Reply where
  prog := progOf cfg
  exec op o s := Server.exec cfg op o s
  env x _ := nomatch x
  admits := Job.admits

end PrivChat.Auth
