import PrivChat.Db.Table

/-!
The connection manager.

Two indexes say who is online. Index A leads from a user and a device to a session, and is what
a push follows; index B holds the life of every session. The operations here are complete calls,
one after the other.
-/

namespace PrivChat.Connection

open Db

abbrev UserId := ℕ
abbrev SessionId := ℕ
abbrev DeviceId := String
abbrev Millis := ℤ

inductive SessionState
  | connecting | authenticated | replaced | closing | closed
  deriving DecidableEq

structure SessionEntry where
  sessionId : SessionId
  state : SessionState
  userId : Option UserId
  deviceId : Option DeviceId
  ownerNodeId : String
  supersededBy : Option SessionId
  connectedAt : Millis
  authenticatedAt : Option Millis

/-- What becomes of an entry that another session takes over from. -/
def SessionEntry.supersede (b : SessionEntry) (s : SessionId) : SessionEntry :=
  if b.state = .authenticated then { b with state := .replaced, supersededBy := some s }
  else { b with supersededBy := some s }

/-- An authenticated session is on its way out. -/
def SessionEntry.closing (b : SessionEntry) : SessionEntry :=
  if b.state = .authenticated then { b with state := .closing } else b

structure Manager where
  indexA : Table UserId (Table DeviceId SessionId)
  indexB : Table SessionId SessionEntry
  totalAuthenticated : UInt64
  localNodeId : String

def Manager.newWithNodeId (node : String) : Manager := ⟨.empty, .empty, 0, node⟩

namespace Manager

variable (m : Manager) (now : Millis) (s : SessionId) (u : UserId) (d : DeviceId)

def route : Option SessionId := (m.indexA.get u).bind (·.get d)

def routes : List (UserId × DeviceId × SessionId) :=
  (m.indexA.select fun _ _ => true).flatMap fun x =>
    (x.2.select fun _ _ => true).map fun y => (x.1, y.1, y.2)

lemma mem_routes {u : UserId} {d : DeviceId} {s : SessionId} :
    (u, d, s) ∈ m.routes ↔ m.route u d = some s := by
  simp only [routes, List.mem_flatMap, List.mem_map, Prod.exists, Prod.mk.injEq, Table.mem_select,
    and_true, route, Option.bind_eq_some_iff]
  constructor
  · rintro ⟨u', t, ht, d', s', hs, rfl, rfl, rfl⟩
    exact ⟨t, ht, hs⟩
  · rintro ⟨t, ht, hs⟩
    exact ⟨u, t, ht, d, s, hs, rfl, rfl, rfl⟩

def connecting : SessionEntry :=
  ⟨s, .connecting, none, none, m.localNodeId, none, now, none⟩

def registerConnecting : Manager :=
  match m.indexB.get s with
  | some _ => m
  | none => { m with indexB := m.indexB.put s (m.connecting now s) }

/-- Step 1 of authentication: the entry in index B is bound to the user and the device. -/
def bindEntry : SessionEntry :=
  { (m.indexB.get s).getD (m.connecting now s) with
    userId := some u
    deviceId := some d
    ownerNodeId := m.localNodeId
    state := .authenticated
    authenticatedAt := some now }

structure AuthenticateOutcome where
  replacedSessionId : Option SessionId

/-- The number of authenticated sessions, after the session `s` has taken the place of `old`. -/
def countAfter (b : Table SessionId SessionEntry) (s : SessionId) (old : Option SessionId) :
    UInt64 :=
  let lost := old.any fun o =>
    decide (o ≠ s) && (b.get o).any fun e => decide (e.state = .authenticated)
  let n := if lost then m.totalAuthenticated - 1 else m.totalAuthenticated
  if old = some s then n else n + 1

def authenticate : AuthenticateOutcome × Manager :=
  let indexB := m.indexB.put s (m.bindEntry now s u d)
  let map := (m.indexA.get u).getD .empty
  let old := map.get d
  let replaced := old.filter fun o => decide (o ≠ s)
  (⟨replaced⟩,
    { m with
      -- the old session loses its place before index A is switched
      indexB := match replaced with
        | some o => indexB.modify o (·.supersede s)
        | none => indexB
      indexA := m.indexA.put u (map.put d s)
      totalAuthenticated := m.countAfter indexB s old })

/-- `registry` is the answer of the ownership registry, where one is configured. -/
def registerConnection (s : SessionId)
    (registry : Option (Except String Unit)) : Except String Unit × Manager :=
  (registry.getD (.ok ()), ((m.registerConnecting now s).authenticate now s u d).2)

/-- Take a device out of index A, and the user with the last device. -/
def dropRoute : Table UserId (Table DeviceId SessionId) :=
  match m.indexA.get u with
  | some map =>
    if ((map.erase d).select fun _ _ => true).isEmpty then m.indexA.erase u
    else m.indexA.put u (map.erase d)
  | none => m.indexA

def unregisterConnection : Option (UserId × DeviceId) × Manager :=
  match m.indexB.get s with
  | none => (none, m)
  | some e =>
    let m' := { m with indexB := m.indexB.erase s }
    match e.userId, e.deviceId with
    | some u, some d =>
      (some (u, d),
        -- index A is cleared only if it still leads to this session
        if m.route u d = some s then
          { m' with
            indexA := m.dropRoute u d
            totalAuthenticated :=
              if e.state = .authenticated then m.totalAuthenticated - 1
              else m.totalAuthenticated }
        else m')
    | some _, none | none, _ => (none, m')

def disconnectDevice : Manager :=
  match m.route u d with
  | none => m
  | some s =>
    { m with
      indexB := m.indexB.modify s SessionEntry.closing
      indexA := m.dropRoute u d
      totalAuthenticated := m.totalAuthenticated - 1 }

/-- The devices of the user, other than the current one, go one after the other. -/
def disconnectOtherDevices (current : DeviceId) : List DeviceId × Manager :=
  let devices := ((m.indexA.get u).getD .empty).select fun d _ => decide (d ≠ current)
  (devices.map (·.1), devices.foldl (fun m x => m.disconnectDevice u x.1) m)

/-- One session that took too long to authenticate. -/
def closeStale (closes : SessionId → Bool) (x : ℕ × Manager) (s : SessionId) : ℕ × Manager :=
  match x.2.indexB.get s with
  | some e =>
    if e.state = .connecting then
      (if closes s then x.1 + 1 else x.1,
        { x.2 with indexB := x.2.indexB.put s { e with state := .closing } })
    else x
  | none => x

/-- `closes` says for which sessions the transport is there and closes them. -/
def cleanupStaleConnecting (timeoutSecs : ℕ) (closes : SessionId → Bool) : ℕ × Manager :=
  if timeoutSecs = 0 then (0, m)
  else
    let cutoff := now - (timeoutSecs * 1000 : ℕ)
    let candidates := (m.indexB.select fun _ e =>
      decide (e.state = .connecting) && decide (e.connectedAt < cutoff)).map (·.2.sessionId)
    candidates.foldl (closeStale closes) (0, m)

def forceCloseSession : Manager :=
  { m with indexB := m.indexB.modify s SessionEntry.closing }

/-! ### Deliveries -/

end Manager

inductive DeliveryFailureClassification
  | routeTimeout | deadConnection | slowConsumer | retryableTransport | permanentTransport
  | transportUnavailable | remoteOwnerUnsupported | protocolAckRejected | protocolAckMalformed
  deriving DecidableEq

structure FailedSessionDelivery where
  sessionId : SessionId
  ownerNodeId : String
  classification : DeliveryFailureClassification
  detail : String
  cleanedUp : Bool

structure DeliveryReport where
  attempted : ℕ := 0
  successfulSessions : List SessionId := []
  acknowledgedSessions : List SessionId := []
  failedSessions : List FailedSessionDelivery := []
  failureClassification : DeliveryFailureClassification → ℕ := fun _ => 0

def DeliveryReport.pushFailure (r : DeliveryReport) (f : FailedSessionDelivery) : DeliveryReport :=
  { r with
    failureClassification := fun c =>
      if c = f.classification then r.failureClassification c + 1 else r.failureClassification c
    failedSessions := r.failedSessions ++ [f] }

inductive SessionAttemptOutcome
  | success (acknowledged : Bool)
  | failure (classification : DeliveryFailureClassification) (detail : String)

/-- A failure after which the connection is given up. -/
def DeliveryFailureClassification.givesUp : DeliveryFailureClassification → Bool
  | .deadConnection | .slowConsumer | .routeTimeout => true
  | .retryableTransport | .permanentTransport | .transportUnavailable | .remoteOwnerUnsupported
  | .protocolAckRejected | .protocolAckMalformed => false

namespace Manager

/-- What one attempt to deliver leaves of the manager and adds to the report. -/
def applyAttempt (owners : List (SessionId × String)) (x : DeliveryReport × Manager)
    (a : SessionId × SessionAttemptOutcome) : DeliveryReport × Manager :=
  match a.2 with
  | .success acknowledged =>
    ({ x.1 with
        successfulSessions := x.1.successfulSessions ++ [a.1]
        acknowledgedSessions :=
          if acknowledged then x.1.acknowledgedSessions ++ [a.1]
          else x.1.acknowledgedSessions }, x.2)
  | .failure classification detail =>
    let left := (x.2.forceCloseSession a.1).unregisterConnection a.1
    let owner := (owners.lookup a.1).getD x.2.localNodeId
    if classification.givesUp then
      (x.1.pushFailure ⟨a.1, owner, classification, detail, left.1.isSome⟩, left.2)
    else (x.1.pushFailure ⟨a.1, owner, classification, detail, false⟩, x.2)

def applyDeliveryAttempts (m : Manager) (owners : List (SessionId × String))
    (attempts : List (SessionId × SessionAttemptOutcome)) (report : DeliveryReport) :
    DeliveryReport × Manager :=
  attempts.foldl (applyAttempt owners) (report, m)

variable (m : Manager)

/-- The session may be handed a frame: its entry in index B is authenticated and no other
session has taken over. -/
def deliverable (s : SessionId) : Option SessionEntry :=
  (m.indexB.get s).filter fun b =>
    decide (b.state = .authenticated) && decide (b.supersededBy = none)

/-- The transport, and what it does with a message: whether the message can be encoded, and what
comes of handing the frame to a session. -/
structure Wire where
  encodes : Except String Unit
  attempt : SessionId → SessionAttemptOutcome

/-- A push: its answer, the sessions that were handed the frame, and the manager afterwards. -/
structure Pushed (α : Type) where
  answer : Except String α
  handed : List SessionId
  manager : Manager

/-- The sessions of the user that may be handed a frame, with the nodes that own them. -/
def liveSessions (u : UserId) : List (SessionId × String) :=
  (((m.indexA.get u).getD .empty).select fun _ _ => true).filterMap fun x =>
    (m.deliverable x.2).map fun b => (x.2, b.ownerNodeId)

def sendPushToUser (u : UserId) (transport : Option Wire) : Pushed DeliveryReport :=
  let live := m.liveSessions u
  if live.isEmpty then ⟨.ok {}, [], m⟩
  else
    let near := live.filter fun x => decide (x.2 = m.localNodeId)
    let far := live.filter fun x => decide (x.2 ≠ m.localNodeId)
    let report := far.foldl (fun r x =>
      r.pushFailure ⟨x.1, x.2, .remoteOwnerUnsupported,
        "cross-node dispatch is reserved for CODEX-11", false⟩)
      { attempted := live.length }
    match transport with
    | none =>
      ⟨.ok (near.foldl (fun r x =>
        r.pushFailure ⟨x.1, x.2, .transportUnavailable, "TransportServer is not configured",
          false⟩) report), [], m⟩
    | some w =>
      match w.encodes with
      | .error e => ⟨.error s!"encode PushMessageRequest failed: {e}", [], m⟩
      | .ok () =>
        let attempts := near.map fun x => (x.1, w.attempt x.1)
        let done := m.applyDeliveryAttempts near attempts report
        ⟨.ok done.1, near.map (·.1), done.2⟩

def sendPushOnSession (s : SessionId) (transport : Option Wire) : Pushed ℕ :=
  match transport with
  | none => ⟨.ok 0, [], m⟩
  | some w =>
    match w.encodes with
    | .error e => ⟨.error s!"encode PushMessageRequest failed: {e}", [], m⟩
    | .ok () =>
      match w.attempt s with
      | .success _ => ⟨.ok 1, [s], m⟩
      | .failure _ _ => ⟨.ok 0, [s], m⟩

def sendPushToDevice (u : UserId) (d : DeviceId) (transport : Option Wire) : Pushed ℕ :=
  match m.route u d with
  | none => ⟨.ok 0, [], m⟩
  | some s =>
    match m.deliverable s with
    | none => ⟨.ok 0, [], m⟩
    | some _ => m.sendPushOnSession s transport

end Manager

/-- A call of the manager, with what its surroundings answer. -/
inductive Call
  | registerConnecting (now : Millis) (s : SessionId)
  | authenticate (now : Millis) (s : SessionId) (u : UserId) (d : DeviceId)
  | registerConnection (now : Millis) (u : UserId) (d : DeviceId) (s : SessionId)
      (registry : Option (Except String Unit))
  | unregisterConnection (s : SessionId)
  | disconnectDevice (u : UserId) (d : DeviceId)
  | disconnectOtherDevices (u : UserId) (current : DeviceId)
  | cleanupStaleConnecting (now : Millis) (timeoutSecs : ℕ) (closes : SessionId → Bool)
  | forceCloseSession (s : SessionId)
  | applyDeliveryAttempts (owners : List (SessionId × String))
      (attempts : List (SessionId × SessionAttemptOutcome)) (report : DeliveryReport)
  | sendPushToUser (u : UserId) (transport : Option Manager.Wire)
  | sendPushToDevice (u : UserId) (d : DeviceId) (transport : Option Manager.Wire)

def Manager.after (m : Manager) : Call → Manager
  | .registerConnecting now s => m.registerConnecting now s
  | .authenticate now s u d => (m.authenticate now s u d).2
  | .registerConnection now u d s registry => (m.registerConnection now u d s registry).2
  | .unregisterConnection s => (m.unregisterConnection s).2
  | .disconnectDevice u d => m.disconnectDevice u d
  | .disconnectOtherDevices u current => (m.disconnectOtherDevices u current).2
  | .cleanupStaleConnecting now timeoutSecs closes =>
    (m.cleanupStaleConnecting now timeoutSecs closes).2
  | .forceCloseSession s => m.forceCloseSession s
  | .applyDeliveryAttempts owners attempts report =>
    (m.applyDeliveryAttempts owners attempts report).2
  | .sendPushToUser u transport => (m.sendPushToUser u transport).manager
  | .sendPushToDevice u d transport => (m.sendPushToDevice u d transport).manager

def Manager.run (m : Manager) (calls : List Call) : Manager := calls.foldl Manager.after m

/-- Each call meets the condition, which looks at the manager as the call finds it. -/
def Manager.Each (fits : Manager → Call → Prop) : Manager → List Call → Prop
  | _, [] => True
  | m, c :: calls => fits m c ∧ Each fits (m.after c) calls

instance Manager.Each.decidable {fits : Manager → Call → Prop} [∀ m c, Decidable (fits m c)] :
    (m : Manager) → (calls : List Call) → Decidable (Manager.Each fits m calls)
  | _, [] => inferInstanceAs (Decidable True)
  | m, c :: calls =>
    have : Decidable (Manager.Each fits (m.after c) calls) := Each.decidable (m.after c) calls
    inferInstanceAs (Decidable (fits m c ∧ Manager.Each fits (m.after c) calls))

end PrivChat.Connection
