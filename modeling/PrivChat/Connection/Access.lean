import PrivChat.Connection.Consistency
import PrivChat.Auth.Service
import PrivChat.Tasks.Places

/-!
How a device gets in, and how it is thrown out.

The handler of a connect request checks the token and the session of the device, binds the session
and registers its route. The handlers of the kicks raise the version of the devices in the database
and then take the routes away. A session is unbound when the transport reports that it is closed.
Each of these takes several steps, and between two of them others may run.

Beside what the server holds, the model keeps which sessions have passed the check of the device
and with what token, which of them have got their route, and which the transport has reported as
closed.
-/

namespace PrivChat.Connection

open Db Tasks

/-! ### The steps of the connection manager -/

namespace Manager

variable (m : Manager)

/-- `authenticate`, step 1: only index B. -/
def bindStep (now : Millis) (s : SessionId) (u : UserId) (d : DeviceId) : Manager :=
  { m with indexB := m.indexB.put s (m.bindEntry now s u d) }

/-- `authenticate`, steps 2 and 3: one step, for the user's part of index A is locked. -/
def switchStep (s : SessionId) (u : UserId) (d : DeviceId) : AuthenticateOutcome × Manager :=
  let map := (m.indexA.get u).getD .empty
  let old := map.get d
  let replaced := old.filter fun o => decide (o ≠ s)
  (⟨replaced⟩,
    { m with
      indexB := match replaced with
        | some o => m.indexB.modify o (·.supersede s)
        | none => m.indexB
      indexA := m.indexA.put u (map.put d s)
      totalAuthenticated := m.countAfter m.indexB s old })

lemma authenticate_eq_steps (now : Millis) (s : SessionId) (u : UserId) (d : DeviceId) :
    m.authenticate now s u d = (m.bindStep now s u d).switchStep s u d := rfl

def markClosing (s : SessionId) : Manager :=
  { m with indexB := m.indexB.modify s SessionEntry.closing }

/-- The last step of `disconnect_device`: the route goes, if it still leads to the session. -/
def releaseRoute (u : UserId) (d : DeviceId) (s : SessionId) : Manager :=
  if m.route u d = some s then
    { m with indexA := m.dropRoute u d, totalAuthenticated := m.totalAuthenticated - 1 }
  else m

lemma disconnectDevice_eq_steps {u : UserId} {d : DeviceId} {s : SessionId}
    (h : m.route u d = some s) : m.disconnectDevice u d = (m.markClosing s).releaseRoute u d s := by
  have hsame : (m.markClosing s).route u d = some s := h
  simp only [disconnectDevice, h, releaseRoute, hsame, if_true]
  rfl

/-- The first step of `unregister_connection`. -/
def removeEntry (s : SessionId) : Manager := { m with indexB := m.indexB.erase s }

/-- The last step of `unregister_connection`, for a session whose entry was in that state. -/
def clearRoute (u : UserId) (d : DeviceId) (s : SessionId) (state : SessionState) : Manager :=
  if m.route u d = some s then
    { m with
      indexA := m.dropRoute u d
      totalAuthenticated :=
        if state = .authenticated then m.totalAuthenticated - 1 else m.totalAuthenticated }
  else m

lemma unregisterConnection_eq_steps {s : SessionId} {e : SessionEntry} {u : UserId} {d : DeviceId}
    (h : m.indexB.get s = some e) (hu : e.userId = some u) (hd : e.deviceId = some d) :
    m.unregisterConnection s = (some (u, d), (m.removeEntry s).clearRoute u d s e.state) := by
  have hsame : (m.removeEntry s).route u d = m.route u d := rfl
  simp only [unregisterConnection, h, hu, hd, clearRoute, hsame]
  rfl

variable {m : Manager} {u u' : UserId} {d d' : DeviceId} {s : SessionId}

lemma route_switchStep : (m.switchStep s u d).2.route u' d' =
    if u' = u ∧ d' = d then some s else m.route u' d' := by
  have hA : (m.switchStep s u d).2.indexA = (m.authenticate 0 s u d).2.indexA := rfl
  rw [route_of_indexA hA, route_authenticate]

lemma route_clearRoute {state : SessionState} : (m.clearRoute u d s state).route u' d' =
    if u' = u ∧ d' = d ∧ m.route u d = some s then none else m.route u' d' := by
  unfold clearRoute
  split
  · next hr =>
    rw [route_dropRoute rfl]
    simp [hr]
  · next hr => simp [hr]

/-- But for the counter `disconnect_device` ends as `unregister_connection` does. -/
lemma releaseRoute_eq : m.releaseRoute u d s = m.clearRoute u d s .authenticated := rfl

end Manager

/-- What the handlers of later requests find of a session. -/
structure SessionInfo where
  userId : UserId
  deviceId : DeviceId
  jwtClaims : Auth.UnifiedTokenClaims

structure Admission where
  session : SessionId
  claims : Auth.UnifiedTokenClaims
  deriving DecidableEq

namespace Admission

def user (a : Admission) : UserId := a.claims.sub
def device (a : Admission) : DeviceId := a.claims.deviceId
def version (a : Admission) : ℤ := a.claims.sessionVersion

end Admission

structure Hub where
  server : Auth.Server
  blacklist : List Auth.Jti
  bound : Table SessionId SessionInfo
  manager : Manager
  admitted : List Admission
  opened : List SessionId
  gone : List SessionId

namespace Hub

/-- A server that has just started. -/
def start (devices : Auth.Devices) (tokens : List Auth.Signed) (blacklist : List Auth.Jti)
    (node : String) : Hub where
  server := .start devices .empty tokens
  blacklist := blacklist
  bound := .empty
  manager := .newWithNodeId node
  admitted := []
  opened := []
  gone := []

variable (cfg : Auth.Config) (h : Hub)

/-- The device of the token. -/
def row (a : Admission) : Option Auth.DeviceRow :=
  (cfg.parseUuid a.device).bind fun d => h.server.devices.get (a.user, d)

/-- The version of the device is above that of the token. -/
def stale (a : Admission) : Bool := (h.row cfg a).any fun row => a.version < row.sessionVersion

/-- A route leads to the session, or it is bound. -/
def live (s : SessionId) : Bool :=
  h.manager.routes.any (fun x => x.2.2 = s) || (h.bound.get s).isSome

lemma live_eq_false {s : SessionId} :
    h.live s = false ↔ (∀ u d, h.manager.route u d ≠ some s) ∧ h.bound.get s = none := by
  simp only [live, Bool.or_eq_false_iff, List.any_eq_false, decide_eq_true_eq, Prod.forall,
    Manager.mem_routes, Option.isSome_eq_false_iff, Option.isNone_iff_eq_none]
  constructor
  · rintro ⟨hr, hb⟩
    exact ⟨fun u d h => hr u d s h rfl, hb⟩
  · rintro ⟨hr, hb⟩
    refine ⟨fun u d s' h hs => ?_, hb⟩
    subst hs
    exact hr u d h

end Hub

/-! ### Operations -/

inductive Op
  | auth (op : Auth.Op)
  | isRevoked (jti : Auth.Jti)
  /-- The query of `verify_device_session`, for the token of a session. -/
  | selectDevice (a : Admission) (d : Auth.DeviceId)
  | bindSession (a : Admission)
  | registerConnecting (s : SessionId)
  | bindEntry (a : Admission)
  | switchRoute (a : Admission)
  | route (u : UserId) (d : DeviceId)
  | otherDevices (u : UserId) (current : DeviceId)
  | markClosing (s : SessionId)
  | releaseRoute (u : UserId) (d : DeviceId) (s : SessionId)
  | closeSession (s : SessionId)
  | unbindSession (s : SessionId)
  | removeEntry (s : SessionId)
  | clearRoute (u : UserId) (d : DeviceId) (s : SessionId) (state : SessionState)

def Op.Res : Op → Type
  | .auth op => op.Res
  | .isRevoked _ => Bool
  | .selectDevice _ _ => Auth.Answer (Option Auth.DeviceRow)
  | .bindSession _ => Unit
  | .registerConnecting _ => Unit
  | .bindEntry _ => Unit
  | .switchRoute _ => Manager.AuthenticateOutcome
  | .route _ _ => Option SessionId
  | .otherDevices _ _ => List DeviceId
  | .markClosing _ => Unit
  | .releaseRoute _ _ _ => Unit
  | .closeSession _ => Auth.Answer Unit
  | .unbindSession _ => Unit
  | .removeEntry _ => Option SessionEntry
  | .clearRoute _ _ _ _ => Unit

namespace Hub

variable (cfg : Auth.Config)

/-- The session is admitted if the device that was found lets its token pass. -/
def letIn (h : Hub) (a : Admission) (row : Option Auth.DeviceRow) : Hub :=
  if (Auth.verifySession row a.version).isValid then { h with admitted := h.admitted ++ [a] }
  else h

def bind (h : Hub) (a : Admission) : Hub :=
  { h with bound := h.bound.put a.session ⟨a.user, a.device, a.claims⟩ }

/-- The session has got its route. -/
def switch (h : Hub) (a : Admission) : Hub :=
  { h with
    manager := (h.manager.switchStep a.session a.user a.device).2
    opened := h.opened ++ [a.session] }

def unbind (h : Hub) (s : SessionId) : Hub :=
  { h with bound := h.bound.erase s, gone := h.gone ++ [s] }

/-- What the server answers. The transport does as it likes. -/
def respond (o : Auth.Moment) (h : Hub) : (op : Op) → op.Res
  | .auth op => h.server.respond cfg o op
  | .isRevoked jti => decide (jti ∈ h.blacklist)
  | .selectDevice a d => o.answer (h.server.devices.get (a.user, d))
  | .switchRoute a => (h.manager.switchStep a.session a.user a.device).1
  | .route u d => h.manager.route u d
  | .otherDevices u current =>
    (((h.manager.indexA.get u).getD .empty).select fun d _ => decide (d ≠ current)).map (·.1)
  | .closeSession _ => o.answer ()
  | .removeEntry s => h.manager.indexB.get s
  | .bindSession _ | .registerConnecting _ | .bindEntry _ | .markClosing _ | .releaseRoute _ _ _
  | .unbindSession _ | .clearRoute _ _ _ _ => ()

def after (o : Auth.Moment) (h : Hub) : Op → Hub
  | .auth op => { h with server := (h.server.exec cfg op o).2 }
  | .selectDevice a d =>
    if o.fault.isNone then h.letIn a (h.server.devices.get (a.user, d)) else h
  | .bindSession a => h.bind a
  | .registerConnecting s => { h with manager := h.manager.registerConnecting o.now s }
  | .bindEntry a => { h with manager := h.manager.bindStep o.now a.session a.user a.device }
  | .switchRoute a => h.switch a
  | .markClosing s => { h with manager := h.manager.markClosing s }
  | .releaseRoute u d s => { h with manager := h.manager.releaseRoute u d s }
  | .unbindSession s => h.unbind s
  | .removeEntry s => { h with manager := h.manager.removeEntry s }
  | .clearRoute u d s state => { h with manager := h.manager.clearRoute u d s state }
  | .isRevoked _ | .route _ _ | .otherDevices _ _ | .closeSession _ => h

def exec (op : Op) (o : Auth.Moment) (h : Hub) : op.Res × Hub :=
  (h.respond cfg o op, h.after cfg o op)

end Hub

abbrev HubProg := Prog Op Op.Res Auth.AuthError

inductive ConnectCode
  | tokenExpired | invalidToken | tokenRevoked | deviceNotFound | sessionExpired | internalError
  deriving DecidableEq

inductive Reply
  | connected
  | refused (code : ConnectCode) (message : String)
  | kicked
  | kickedOthers (devices : List Auth.KickedDevice)
  | left
  deriving DecidableEq

/-- `create_error_response`. -/
def refuse (code : ConnectCode) (message : String) : HubProg Reply := .ret (.refused code message)

/-- The session is bound and registered, and nothing is looked at again. That the registry of
owners fails is only logged. -/
def openSession (a : Admission) : HubProg Reply :=
  .call (.bindSession a) fun _ =>
    .call (.registerConnecting a.session) fun _ =>
      .call (.bindEntry a) fun _ => .call (.switchRoute a) fun _ => .ret .connected

def openIfValid (a : Admission) : Auth.SessionVerifyResult → HubProg Reply
  | .valid _ => openSession a
  | .deviceNotFound => refuse .deviceNotFound "设备不存在，请重新登录"
  | .sessionInactive _ message => refuse .sessionExpired message
  | .versionMismatch tokenVersion currentVersion =>
    refuse .sessionExpired
      s!"Token 已失效（版本：{tokenVersion} < {currentVersion}），请重新登录"

def afterDevice (a : Admission) : Auth.Answer (Option Auth.DeviceRow) → HubProg Reply
  | .ok row => openIfValid a (Auth.verifySession row a.version)
  | .error _ => refuse .internalError "设备会话验证失败"

variable (cfg : Auth.Config)

def verifyDevice (a : Admission) : HubProg Reply :=
  match cfg.parseUuid a.device with
  | some d => .call (.selectDevice a d) (afterDevice a)
  | none => refuse .internalError "设备会话验证失败"

def afterRevocation (requestDeviceId : DeviceId) (a : Admission) (revoked : Bool) : HubProg Reply :=
  if revoked then refuse .tokenRevoked "Token 已被撤销，请重新登录"
  else if requestDeviceId ≠ a.device then
    refuse .invalidToken "请求的设备ID与 token 绑定的设备ID不匹配，请使用注册/登录时的设备ID"
  else verifyDevice cfg a

def afterToken (s : SessionId) (requestDeviceId : DeviceId) :
    Except Auth.VerifyError Auth.Signed → HubProg Reply
  | .ok signed =>
    .call (.isRevoked signed.claims.jti) (afterRevocation cfg requestDeviceId ⟨s, signed.claims⟩)
  | .error .expired => refuse .tokenExpired "Token 已过期"
  | .error .invalid => refuse .invalidToken "Token 验证失败"

/-- The handler of an `AuthorizationRequest`. There is no token if its text is empty. -/
def connect (s : SessionId) (token : Option Auth.UnifiedTokenClaims) (requestDeviceId : DeviceId) :
    HubProg Reply :=
  match token with
  | none => .fail (.server (.unauthorized "缺少认证 token"))
  | some token => .call (.auth (.verify token .access)) (afterToken cfg s requestDeviceId)

/-- Code of the authentication, run here. -/
def fromAuth {β : Type} (t : Auth.AuthProg β) : HubProg β :=
  t.translate fun op => .call (.auth op) .ret

/-- `disconnect_device`, once it has found the session. How the close went is only logged. -/
def closeRoute (u : UserId) (d : DeviceId) (s : SessionId) : HubProg Unit :=
  .call (.markClosing s) fun _ =>
    .call (.releaseRoute u d s) fun _ => .call (.closeSession s) fun _ => .ret ()

def disconnectFound (u : UserId) (d : DeviceId) : Option SessionId → HubProg Unit
  | none => .ret ()
  | some s => closeRoute u d s

def disconnectDevice (u : UserId) (d : DeviceId) : HubProg Unit :=
  .call (.route u d) (disconnectFound u d)

def disconnectAll (u : UserId) : List DeviceId → HubProg Unit
  | [] => .ret ()
  | d :: ds => disconnectDevice u d >>= fun _ => disconnectAll u ds

def disconnectOtherDevices (u : UserId) (current : DeviceId) : HubProg Unit :=
  .call (.otherDevices u current) (disconnectAll u)

/-- The device the request comes from. -/
def requireDevice (current : Option DeviceId) (k : DeviceId → HubProg Reply) : HubProg Reply :=
  match current with
  | none => .fail (.rpc (.validation "缺少设备ID"))
  | some current => k current

/-- The handler of `device/kick_device`. -/
def kickDevice (u : UserId) (current : Option DeviceId) (target : DeviceId) : HubProg Reply :=
  requireDevice current fun current =>
    if target = current then .fail (.rpc (.validation "不能踢出当前设备"))
    else do
      (fromAuth (Auth.kickDevice cfg u target (some current))).mapErr
        (Auth.reported "踢出设备失败")
      disconnectDevice u target
      return .kicked

/-- The handler of `device/kick_other_devices`. -/
def kickOtherDevices (u : UserId) (current : Option DeviceId) : HubProg Reply :=
  requireDevice current fun current => do
    let kicked ← (fromAuth (Auth.kickOtherDevices cfg u current)).mapErr
      (Auth.reported "踢出设备失败")
    disconnectOtherDevices u current
    return .kickedOthers kicked

/-- A session that never authenticated has no route. -/
def clearEntry (s : SessionId) : Option SessionEntry → HubProg Reply
  | none => .ret .left
  | some e =>
    match e.userId, e.deviceId with
    | some u, some d => .call (.clearRoute u d s e.state) fun _ => .ret .left
    | some _, none | none, _ => .ret .left

def onDisconnected (s : SessionId) : HubProg Reply :=
  .call (.unbindSession s) fun _ => .call (.removeEntry s) (clearEntry s)

inductive Job
  | connect (s : SessionId) (token : Option Auth.UnifiedTokenClaims) (requestDeviceId : DeviceId)
  | kickDevice (u : UserId) (current : Option DeviceId) (target : DeviceId)
  | kickOtherDevices (u : UserId) (current : Option DeviceId)
  | onDisconnected (s : SessionId)

def Job.isKick : Job → Bool
  | .kickDevice _ _ _ | .kickOtherDevices _ _ => true
  | .connect _ _ _ | .onDisconnected _ => false

def progOf : Job → HubProg Reply
  | .connect s token requestDeviceId => connect cfg s token requestDeviceId
  | .kickDevice u current target => kickDevice cfg u current target
  | .kickOtherDevices u current => kickOtherDevices cfg u current
  | .onDisconnected s => onDisconnected s

/-- From outside, tokens are put on the blacklist. -/
def machine : Machine Hub Op Op.Res Auth.Moment Auth.Jti Job Auth.AuthError Reply where
  prog := progOf cfg
  exec := Hub.exec cfg
  env jti h := { h with blacklist := h.blacklist ++ [jti] }
  admits _ _ := true

abbrev HubState := State Hub Op Op.Res Job Auth.AuthError Reply
abbrev HubEvent := Tasks.Event Auth.Moment Auth.Jti Job

end PrivChat.Connection
