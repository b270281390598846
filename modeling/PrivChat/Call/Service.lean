import PrivChat.Db.Table
import Mathlib.Data.List.Sort
import PrivChat.Db.Tx

/-!
The call service: its data and its control plane.

The data are calls and the rows they are stored in, commands, effects, the peer journal, what is
read from the tables of other services, and the configuration with its defaults and its checks. The
control plane has invitations, mutations, expiry and the sweep, each as the transaction it runs.
-/

namespace PrivChat.Call

open PrivChat.Db Tx

abbrev UserId := ℕ
abbrev CallId := ℕ
abbrev ChannelId := ℕ
abbrev Millis := ℤ

inductive ErrorCode
  | invalidParams | permissionDenied | resourceNotFound | internalError | serviceUnavailable

structure RpcError where
  code : ErrorCode
  message : String

namespace RpcError

def validation (m : String) : RpcError := ⟨.invalidParams, m⟩
def forbidden (m : String) : RpcError := ⟨.permissionDenied, m⟩
def notFound (m : String) : RpcError := ⟨.resourceNotFound, m⟩
def internal (m : String) : RpcError := ⟨.internalError, m⟩
def unavailable (m : String) : RpcError := ⟨.serviceUnavailable, m⟩

end RpcError

inductive CallState
  | ringing | active | ended
  deriving DecidableEq

inductive CallParticipantState
  | invited | joined | rejected | left
  deriving DecidableEq

inductive CallEndReason
  | timeout | rejected | cancelled | normal
  deriving DecidableEq

inductive CallTransport
  | webrtc | livekit
  deriving DecidableEq

inductive CallMediaKind
  | audio | video
  deriving DecidableEq

structure CallParticipant where
  userId : UserId
  state : CallParticipantState
  deriving DecidableEq

structure CallSnapshot where
  transport : CallTransport
  callId : CallId
  channelId : ChannelId
  initiatorId : UserId
  mediaKind : CallMediaKind
  state : CallState
  endReason : Option CallEndReason
  version : ℕ
  createdAtMs : Millis
  answeredAtMs : Option Millis
  endedAtMs : Option Millis
  expiresAtMs : Millis
  participants : List CallParticipant
  deriving DecidableEq

structure DeviceClaim where
  device : String
  leaseUntil : Millis
  deriving DecidableEq

/-- A call as it is stored. `channelType` is `0` for a direct channel and `1` for a
group. -/
structure StoredCall where
  peerRevision : ℕ
  peerAnswered : Bool
  peerSeq : ℕ
  call : CallSnapshot
  channelType : ℤ
  claims : Table UserId DeviceClaim

/-- Occupied by the call: invited to it or joined. -/
def CallParticipantState.live : CallParticipantState → Bool
  | .invited | .joined => true
  | .rejected | .left => false

def participantOf (u : UserId) (ps : List CallParticipant) : Option CallParticipant :=
  ps.find? fun p => p.userId == u

def setState (u : UserId) (st : CallParticipantState) : List CallParticipant → List CallParticipant
  | [] => []
  | p :: ps => if p.userId = u then { p with state := st } :: ps else p :: setState u st ps

/-- A change that is notified makes a new version. -/
def StoredCall.bump (stored : StoredCall) (notify : Bool) : StoredCall :=
  if notify then { stored with call := { stored.call with version := stored.call.version + 1 } }
  else stored

structure CallInviteRequest where
  supportsPeer : Bool
  commandId : String
  channelId : ChannelId
  mediaKind : CallMediaKind
  inviteeIds : List UserId

structure CallMutationRequest where
  supportsPeer : Bool
  commandId : String
  callId : CallId

inductive CallPeerSignalKind
  | offer | answer | ice
  deriving DecidableEq

structure CallPeerSignalRequest where
  commandId : String
  callId : CallId
  revision : ℕ
  kind : CallPeerSignalKind
  payload : String

structure CallPeerEventsRequest where
  callId : CallId
  afterSeq : ℕ

/-- The operation of a mutation: the last part of its route. -/
inductive Route
  | join | heartbeat | reject | cancel | leave | «end»
  | other (name : String)
  deriving DecidableEq

structure CallIceServer where
  urls : List String
  username : Option String
  credential : Option String
  deriving DecidableEq

structure CallPeerConfig where
  selfUserId : UserId
  peerUserId : UserId
  offerer : Bool
  iceServers : List CallIceServer
  credentialExpiresAtMs : Millis
  deriving DecidableEq

structure CallJoinResponse where
  call : CallSnapshot
  url : String
  token : String
  expiresAtMs : Millis
  peer : Option CallPeerConfig
  deriving DecidableEq

/-- The value a control command returns and records. -/
inductive Response
  | call (c : CallSnapshot)
  | join (r : CallJoinResponse)
  deriving DecidableEq

structure CallPeerEvent where
  seq : ℕ
  revision : ℕ
  kind : CallPeerSignalKind
  payload : String
  fromUserId : UserId
  deriving DecidableEq

structure CallPeerEventsResponse where
  events : List CallPeerEvent
  nextSeq : ℕ
  deriving DecidableEq

structure CallRow where
  state : CallState
  document : StoredCall
  updatedAt : Millis

/-- The primary key of both command tables. -/
structure CommandKey where
  user : UserId
  device : String
  command : String
  deriving DecidableEq

structure CommandRow where
  fingerprint : String
  response : Response
  createdAt : Millis

inductive EffectKind
  | state | history | deleteRoom
  | removeParticipant (identity : String)
  deriving DecidableEq

/-- The unique key of a row of `privchat_call_effects`. -/
structure Effect where
  call : CallId
  version : ℕ
  kind : EffectKind
  deriving DecidableEq

structure PeerEventRow where
  revision : ℕ
  kind : CallPeerSignalKind
  payload : String
  fromUserId : UserId
  expiresAt : Millis
  deriving DecidableEq

structure PeerCommandRow where
  call : CallId
  fingerprint : String
  seq : ℕ
  expiresAt : Millis

inductive PeerOperation
  | signal | events
  deriving DecidableEq

structure PeerRateKey where
  call : CallId
  user : UserId
  operation : PeerOperation
  deriving DecidableEq

structure PeerRateRow where
  bucket : ℤ
  count : ℕ

structure Db where
  calls : Table CallId CallRow
  commands : Table CommandKey CommandRow
  effects : List Effect
  peerEvents : Table (CallId × ℕ) PeerEventRow
  peerCommands : Table CommandKey PeerCommandRow
  peerRates : Table PeerRateKey PeerRateRow

namespace Db

def empty : Db := ⟨.empty, .empty, [], .empty, .empty, .empty⟩

variable (s : Db)

@[simps] def putCall (c : CallId) (r : CallRow) : Db := { s with calls := s.calls.put c r }

@[simps] def putCommand (k : CommandKey) (r : CommandRow) : Db :=
  { s with commands := s.commands.put k r }

/-- An effect that is already there is left alone. -/
@[simps] def addEffect (e : Effect) : Db :=
  { s with effects := if e ∈ s.effects then s.effects else s.effects ++ [e] }

@[simps] def putPeerEvent (k : CallId × ℕ) (r : PeerEventRow) : Db :=
  { s with peerEvents := s.peerEvents.put k r }

@[simps] def putPeerCommand (k : CommandKey) (r : PeerCommandRow) : Db :=
  { s with peerCommands := s.peerCommands.put k r }

@[simps] def putPeerRate (k : PeerRateKey) (r : PeerRateRow) : Db :=
  { s with peerRates := s.peerRates.put k r }

@[simps] def deletePeerEvents (p : CallId × ℕ → PeerEventRow → Bool) : Db :=
  { s with peerEvents := s.peerEvents.deleteWhere p }

@[simps] def deletePeerCommands (p : CommandKey → PeerCommandRow → Bool) : Db :=
  { s with peerCommands := s.peerCommands.deleteWhere p }

@[simps] def deletePeerRates (p : PeerRateKey → PeerRateRow → Bool) : Db :=
  { s with peerRates := s.peerRates.deleteWhere p }

end Db

/-- What a transaction locks: the advisory keys `call-command:…` and `call-user:…`, and the
row of a call. -/
inductive LockKey
  | command (k : CommandKey)
  | user (u : UserId)
  | row (c : CallId)
  deriving DecidableEq

structure ChannelRow where
  channelType : ℤ
  directUser1Id : Option UserId
  directUser2Id : Option UserId
  groupId : Option ℕ

/-- An active member of an active group, with the group's own switches. `canSendMessage`
is that entry of the permissions, if it is there and a truth value. -/
structure GroupMemberRow where
  userId : UserId
  role : Option ℤ
  muteUntil : Option Millis
  canSendMessage : Option Bool
  allMuted : Bool
  allowMemberPost : Bool

/-- What a statement may find outside the call tables: the clock, the channel, member and
blacklist tables of the other services, and the next id of the generator. Two statements
of one transaction need not find the same. -/
structure World where
  now : Millis
  channels : ChannelId → Option ChannelRow
  groupMembers : ℕ → List GroupMemberRow
  blacklist : UserId → UserId → Bool
  nextId : ℕ

/-- A set of numbers in ascending order. -/
def btreeSet (l : List ℕ) : List ℕ := l.dedup.insertionSort (· ≤ ·)

@[simp] lemma mem_btreeSet {l : List ℕ} {n : ℕ} : n ∈ btreeSet l ↔ n ∈ l := by
  simp [btreeSet]

lemma nodup_btreeSet {l : List ℕ} : (btreeSet l).Nodup :=
  (List.perm_insertionSort _ _).nodup_iff.mpr l.nodup_dedup

/-! ### The configuration -/

structure CallPeerSettings where
  enabled : Bool := false
  allowTurn : Bool := false
  stunUrls : List String := []
  turnUrls : List String := []
  credentialTtlSeconds : ℕ := 600
  journalTtlSeconds : ℕ := 300

structure CallConfig where
  peer : CallPeerSettings := {}
  enabled : Bool := false
  livekitUrl : String := ""
  tokenTtlSeconds : ℕ := 60
  ringingTimeoutSeconds : ℕ := 45
  heartbeatLeaseSeconds : ℕ := 60
  audioParticipantLimit : ℕ := 16
  videoParticipantLimit : ℕ := 9

structure Url where
  scheme : String
  host : Option String
  username : String
  password : Option String
  query : Option String
  fragment : Option String

def check (b : Bool) (m : String) : Except String Unit :=
  if b then .ok () else .error m

/-- White space as Unicode has it. -/
def isWhitespace (c : Char) : Bool :=
  let n := c.toNat
  (9 ≤ n && n ≤ 13) || n == 0x20 || n == 0x85 || n == 0xa0 || n == 0x1680 ||
    (0x2000 ≤ n && n ≤ 0x200a) || n == 0x2028 || n == 0x2029 || n == 0x202f ||
    n == 0x205f || n == 0x3000

/-- Nothing is left of the text when it is trimmed. -/
def blank (s : String) : Bool := s.toList.all isWhitespace

def splitOnce (c : Char) : List Char → Option (List Char × List Char)
  | [] => none
  | a :: l => if a = c then some ([], l) else (splitOnce c l).map fun (x, y) => (a :: x, y)

/-- The check of one ICE URL against the schemes of its slot. -/
def CallPeerSettings.validateUrl (schemes : List String) (raw : String) : Except String Unit :=
  match splitOnce ':' raw.toList with
  | none => .error "Invalid ICE URL"
  | some (scheme, rest) => do
    check (schemes.contains (String.ofList scheme) && !rest.isEmpty && raw.utf8ByteSize ≤ 512 &&
      !rest.contains '@' && !rest.contains '#' && !rest.contains '/' &&
      !raw.toList.any isWhitespace) "Invalid ICE URL"
    match splitOnce '?' rest with
    | none => .ok ()
    | some (_, query) =>
      check (schemes.contains "turn" && (query == "transport=udp".toList ||
        query == "transport=tcp".toList)) "Invalid ICE transport"

def CallPeerSettings.validate (p : CallPeerSettings) : Except String Unit :=
  if !p.enabled then .ok () else do
    check (!p.allowTurn || !p.turnUrls.isEmpty) "Enabled TURN requires fallback URLs"
    let turnUrls := if p.allowTurn then p.turnUrls else []
    check (p.stunUrls.length + turnUrls.length ≤ 16) "Too many ICE URLs"
    p.stunUrls.forM (CallPeerSettings.validateUrl ["stun", "stuns"])
    turnUrls.forM (CallPeerSettings.validateUrl ["turn", "turns"])
    check (!p.allowTurn || (60 ≤ p.credentialTtlSeconds && p.credentialTtlSeconds ≤ 3600))
      "TURN credential TTL must be 60..3600 seconds"
    check (60 ≤ p.journalTtlSeconds && p.journalTtlSeconds ≤ 900)
      "Peer journal TTL must be 60..900 seconds"

/-- The check of the LiveKit URL, given what parsing it gave. -/
def validateLivekit (url : Except String Url) : Except String Unit := do
  let url ← url
  check ((url.scheme == "ws" || url.scheme == "wss") && url.host.isSome)
    "call.livekit_url must be ws(s)"
  check (url.username.isEmpty && url.password.isNone && url.query.isNone && url.fragment.isNone)
    "call URL must not contain credentials, query or fragment"

/-- `parse` is the URL library. -/
def CallConfig.validate (parse : String → Except String Url) (c : CallConfig) :
    Except String Unit :=
  if !c.enabled then .ok () else do
    c.peer.validate
    if !c.livekitUrl.isEmpty || !c.peer.enabled then validateLivekit (parse c.livekitUrl)
    check (10 ≤ c.tokenTtlSeconds && c.tokenTtlSeconds ≤ 300)
      "call token TTL must be 10..300 seconds"
    check (5 ≤ c.ringingTimeoutSeconds && c.ringingTimeoutSeconds ≤ 300)
      "call ringing timeout must be 5..300 seconds"
    check (10 ≤ c.heartbeatLeaseSeconds && c.heartbeatLeaseSeconds ≤ 300)
      "call heartbeat lease must be 10..300 seconds"
    check (2 ≤ c.audioParticipantLimit && c.audioParticipantLimit ≤ 128 &&
      2 ≤ c.videoParticipantLimit && c.videoParticipantLimit ≤ 128)
      "call participant limits must be 2..128"

/-- Whatever the URL library does, the defaults pass, and still pass with calls and the peer
transport switched on. -/
theorem CallConfig.validate_default (parse : String → Except String Url) (on : Bool) :
    CallConfig.validate parse { enabled := on, peer := { enabled := on } } = .ok () := by
  cases on <;> rfl

abbrev CallTx (α : Type) := Tx Db LockKey World RpcError α

/-- The body of a control command. The flag `supports_peer` may be absent. -/
inductive CommandBody
  | invite (supportsPeer : Option Bool) (commandId : String) (channelId : ChannelId)
      (mediaKind : CallMediaKind) (inviteeIds : List UserId)
  | mutation (supportsPeer : Option Bool) (commandId : String) (callId : CallId)

def CallInviteRequest.encode (r : CallInviteRequest) : CommandBody :=
  .invite (some r.supportsPeer) r.commandId r.channelId r.mediaKind r.inviteeIds

def CallMutationRequest.encode (r : CallMutationRequest) : CommandBody :=
  .mutation (some r.supportsPeer) r.commandId r.callId

/-- The flag is dropped when it is false. -/
def CommandBody.normalize : CommandBody → CommandBody
  | .invite (some false) i c m l => .invite none i c m l
  | .mutation (some false) i c => .mutation none i c
  | b => b

/-- The operation that a command is fingerprinted with. -/
inductive Operation
  | invite
  | mutate (r : Route)

/-- What is hashed. -/
inductive Preimage
  | command (op : Operation) (body : CommandBody)
  | peer (req : CallPeerSignalRequest)
  | identity (call : CallId) (actor : UserId) (device : String)

structure TokenClaims where
  iss : String
  sub : String
  nbf : ℤ
  exp : ℤ
  room : String
  canPublishSources : List String

structure Candidate where
  candidate : String
  sdpMid : Option String
  sdpMLineIndex : ℕ

/-- The libraries the service calls: URLs, SHA-256, HMAC-SHA1 in base 64 of a text under a
secret, signed tokens, and the JSON reader for candidates. -/
structure Externals where
  parseUrl : String → Except String Url
  sha256 : Preimage → String
  hmac : String → String → Option String
  jwt : TokenClaims → String → Option String
  parseCandidate : String → Option Candidate

structure CallService where
  ext : Externals
  config : CallConfig
  credentials : Option (String × String)
  turnSecret : Option String
  valid : config.validate ext.parseUrl = .ok ()

namespace CallService

def withPeerSecret (ext : Externals) (config : CallConfig)
    (credentials : Option (String × String)) (turnSecret : Option String) :
    Except String CallService :=
  match h : config.validate ext.parseUrl with
  | .error m => .error m
  | .ok () => do
    if config.enabled && !config.livekitUrl.isEmpty then
      check (credentials.any fun (k, s) => !k.isEmpty && !s.isEmpty)
        "LiveKit credentials unavailable"
    let turn := config.enabled && config.peer.enabled && config.peer.allowTurn
    let turnSecret := turnSecret.filter fun _ => turn
    if turn then
      check (turnSecret.any fun s => 16 ≤ s.utf8ByteSize) "TURN secret unavailable or too short"
    return ⟨ext, config, credentials, turnSecret, h⟩

variable (sv : CallService)

def enabled : CallTx Unit := ensure sv.config.enabled (.unavailable "Calls disabled")

def limit : CallMediaKind → ℕ
  | .audio => sv.config.audioParticipantLimit
  | .video => sv.config.videoParticipantLimit

def identity (call : CallId) (actor : UserId) (device : String) : String :=
  sv.ext.sha256 (.identity call actor device)

/-! ### Statements -/

def now : CallTx Millis := observe World.now

variable (call : CallSnapshot) (actor : UserId) (device : String) (stored : StoredCall)

/-- Lock the command, and find out whether it was made before. Gives the fingerprint, and
the recorded response if there is one. -/
def command (id : String) (op : Operation) (body : CommandBody) :
    CallTx (String × Option Response) := do
  ensure (!(device.isEmpty || 256 < device.utf8ByteSize || blank id || 128 < id.utf8ByteSize))
    (.validation "A nonempty device and command_id (max 128 bytes) are required")
  acquire (.command ⟨actor, device, id⟩)
  let fingerprint := sv.ext.sha256 (.command op body.normalize)
  let peerUsed ← query fun s => (s.peerCommands.get ⟨actor, device, id⟩).isSome
  ensure (!peerUsed) (.validation "command_id already used by peer signalling")
  let row ← query fun s => s.commands.get ⟨actor, device, id⟩
  match row with
  | some row => do
    ensure (row.fingerprint == fingerprint)
      (.validation "command_id reused with a different request")
    return (fingerprint, some row.response)
  | none => return (fingerprint, none)

/-- Record the response of a command whose key was found free under its lock. -/
def record (id fingerprint : String) (response : Response) : CallTx Unit := do
  let t ← now
  update fun s => s.putCommand ⟨actor, device, id⟩ ⟨fingerprint, response, t⟩

/-- The role of each member, and whether they are muted. -/
abbrev Members := Table UserId (ℤ × Bool)

def addMember (m : Members) (r : GroupMemberRow) (t : Millis) : Members :=
  let role := r.role.getD 2
  let mute := r.muteUntil.any fun until' => until' == 0 || t < until'
  let policy := 1 < role && (r.allMuted || !r.allowMemberPost)
  m.put r.userId (role, mute || policy || r.canSendMessage == some false)

/-- Each row is judged by its own reading of the clock. -/
def groupMembers (m : Members) : List GroupMemberRow → CallTx Members
  | [] => return m
  | r :: rows => do
    let t ← now
    groupMembers (addMember m r t) rows

def addDirect (m : Members) : Option UserId → Members
  | some u => m.put u (2, false)
  | none => m

def directMembers (row : ChannelRow) : Members :=
  addDirect (addDirect .empty row.directUser1Id) row.directUser2Id

/-- The members of a channel as the database has them, with the type of the channel. -/
def members (channel : ChannelId) : CallTx (ℤ × Members) := do
  let row ← observe fun w => w.channels channel
  let row ← orFail row (.notFound "Channel unavailable")
  if row.channelType = 0 then
    return (0, directMembers row)
  else if row.channelType = 1 then
    let rows ← observe fun w => (row.groupId.map w.groupMembers).getD []
    let m ← groupMembers .empty rows
    return (1, m)
  else
    fail (.validation "Calls require a direct or group channel")

def notBlocked (a b : UserId) : CallTx Unit := do
  let blocked ← observe fun w => w.blacklist a b || w.blacklist b a
  ensure (!blocked) (.forbidden "Call blocked by contact policy")

def load (id : CallId) : CallTx StoredCall := do
  acquire (.row id)
  let row ← query fun s => s.calls.get id
  let row ← orFail row (.notFound "Call unavailable")
  return row.document

def effect (kind : EffectKind) : CallTx Unit :=
  update fun s => s.addEffect ⟨call.callId, call.version, kind⟩

/-- Delete all that the peer tables have about a call. -/
def clearPeer (call : CallId) : CallTx Unit := do
  update fun s => s.deletePeerEvents fun k _ => k.1 == call
  update fun s => s.deletePeerCommands fun _ r => r.call == call
  update fun s => s.deletePeerRates fun k _ => k.call == call

def save (notify : Bool) : CallTx Unit := do
  let t ← now
  acquire (.row stored.call.callId)
  update fun s => s.putCall stored.call.callId ⟨stored.call.state, stored, t⟩
  if notify then effect stored.call .state
  if stored.call.state = .ended then
    effect stored.call .history
    if stored.call.transport = .livekit then effect stored.call .deleteRoom
    else clearPeer stored.call.callId

def finishParticipant (p : CallParticipant) : CallParticipant :=
  if p.state = .joined then { p with state := .left } else p

def finish (reason : CallEndReason) (t : Millis) : StoredCall :=
  { stored with call := { stored.call with
      state := .ended
      endReason := some reason
      endedAtMs := some t
      participants := stored.call.participants.map finishParticipant } }

/-- The participant is no member any more, or has joined and let the lease run out. -/
def expired (members : Members) (claims : Table UserId DeviceClaim) (current : Millis)
    (p : CallParticipant) : Bool :=
  (members.get p.userId).isNone ||
    (p.state == .joined && (claims.get p.userId).all fun c => c.leaseUntil ≤ current)

/-- An expired participant who is invited or joined leaves. -/
def expireParticipant (members : Members) (claims : Table UserId DeviceClaim) (current : Millis)
    (p : CallParticipant) : CallParticipant :=
  if expired members claims current p && p.state.live then { p with state := .left } else p

def lapse (members : Members) (current : Millis) (stored : StoredCall) : StoredCall :=
  { stored with call := { stored.call with
      participants :=
        stored.call.participants.map (expireParticipant members stored.claims current) } }

/-- Somebody leaves by that. -/
def lapses (members : Members) (current : Millis) (stored : StoredCall) : Bool :=
  stored.call.participants.any fun p =>
    expired members stored.claims current p && p.state.live

def joinedCount (ps : List CallParticipant) : ℕ := ps.countP fun p => p.state == .joined

/-- Time is up: nobody answered, or too few are left. -/
def timedOut (current : Millis) : Bool :=
  let joined := joinedCount stored.call.participants
  (stored.call.state == .ringing && stored.call.expiresAtMs ≤ current) ||
    (stored.call.state == .active &&
      (joined == 0 || (stored.channelType == 0 && joined < 2)))

/-- The media server is told to remove the participants that have left. -/
def removeLeft : CallTx Unit :=
  forEach (fun p =>
    match stored.claims.get p.userId with
    | some c =>
      if p.state = .left ∧ stored.call.transport = .livekit then
        effect stored.call (.removeParticipant (sv.identity stored.call.callId p.userId c.device))
      else return ()
    | none => return ()) stored.call.participants

/-- Bring a call up to date. Gives whether it changed, and the call. -/
def expire : CallTx (Bool × StoredCall) :=
  if stored.call.state = .ended then return (false, stored) else do
    let current ← now
    let (_, members) ← members stored.call.channelId
    let lapsed := lapse members current stored
    let timeout := timedOut lapsed current
    -- the clock reading of `finish`, which only a timeout uses
    let t ← now
    let expired := if timeout then finish lapsed .timeout t else lapsed
    if lapses members current stored || timeout then do
      let expired := expired.bump true
      sv.removeLeft expired
      save expired true
      return (true, expired)
    else return (false, expired)

def room : String :=
  let channel := call.channelId
  let id := call.callId
  s!"pc-{channel}-{id}"

def token (claims : TokenClaims) : CallTx String := do
  let (_, secret) ← orFail sv.credentials (.internal "LiveKit unavailable")
  orFail (sv.ext.jwt claims secret) (.internal "Call credential generation failed")

def joinToken (expires : Millis) : CallTx String := do
  ensure (call.transport == .livekit) (.forbidden "Peer calls do not receive SFU credentials")
  let (key, _) ← orFail sv.credentials (.internal "LiveKit unavailable")
  let t ← now
  sv.token
    { iss := key
      sub := sv.identity call.callId actor device
      nbf := t.tdiv 1000 - 5
      exp := expires.tdiv 1000
      room := room call
      canPublishSources :=
        if call.mediaKind = .audio then ["microphone"] else ["microphone", "camera"] }

/-- The relay servers with a short-lived credential, and when that expires. -/
def turnServers : CallTx (List CallIceServer × Millis) :=
  if sv.config.peer.allowTurn then do
    let secret ← orFail sv.turnSecret (.internal "TURN unavailable")
    let t ← now
    let expires := t.tdiv 1000 + sv.config.peer.credentialTtlSeconds
    let id := call.callId
    let username := s!"{expires}:{id}:{actor}"
    let credential ← orFail (sv.ext.hmac secret username) (.internal "TURN credential failure")
    return ([⟨sv.config.peer.turnUrls, some username, some credential⟩], expires * 1000)
  else return ([], 0)

def peerConfig : CallTx CallPeerConfig := do
  ensure sv.config.peer.enabled (.forbidden "Peer transport unavailable")
  let stun : List CallIceServer :=
    if sv.config.peer.stunUrls.isEmpty then [] else [⟨sv.config.peer.stunUrls, none, none⟩]
  let (turn, expires) ← sv.turnServers call actor
  let peer ← orFail (call.participants.find? fun p => p.userId != actor)
    (.internal "Peer missing")
  return ⟨actor, peer.userId, actor == call.initiatorId, stun ++ turn, expires⟩

/-! ### Invitations -/

/-- The user is invited or joined in some call of these that has not ended. -/
def busy (u : UserId) (calls : CallId → Bool) (s : Db) : Bool :=
  s.calls.any fun c row => calls c && row.state != .ended &&
    row.document.call.participants.any fun p => p.userId == u && p.state.live

/-- The next id of the generator, which never gives one twice: a draw that is a call's id
already is none it makes, and goes no further. -/
def nextMessageId : CallTx ℕ := do
  let id ← observe World.nextId
  acquire (.row id)
  let used ← query fun s => (s.calls.get id).isSome
  ensure (!used) (.unavailable "Call storage unavailable")
  return id

/-- The users of an invitation, in the order their locks are taken. -/
def lockUsers (all : List UserId) : CallTx Unit :=
  forEach (fun u => do
    acquire (.user u)
    let b ← query (busy u fun _ => true)
    ensure (!b) (.validation "User is busy in another call")) all

/-- A call as an invitation makes it. -/
def newCall (req : CallInviteRequest) (kind : ℤ)
    (all : List UserId) (id : CallId) (t : Millis) : StoredCall where
  peerRevision := 0
  peerAnswered := false
  peerSeq := 0
  call :=
    { transport := if kind = 0 then .webrtc else .livekit
      callId := id
      channelId := req.channelId
      initiatorId := actor
      mediaKind := req.mediaKind
      state := .ringing
      endReason := none
      version := 1
      createdAtMs := t
      answeredAtMs := none
      endedAtMs := none
      expiresAtMs := t + sv.config.ringingTimeoutSeconds * 1000
      participants := all.map fun u => ⟨u, if u = actor then .joined else .invited⟩ }
  channelType := kind
  claims := Table.empty.put actor ⟨device, t + sv.config.heartbeatLeaseSeconds * 1000⟩

/-- The users invited: those named, or all members; the actor is not one of them. -/
def targets (req : CallInviteRequest) (members : Members) : List UserId :=
  (btreeSet (if req.inviteeIds.isEmpty then members.keys.filter fun u => (members.get u).isSome
    else req.inviteeIds)).filter (· ≠ actor)

def invite (req : CallInviteRequest) : CallTx Response := do
  sv.enabled
  let (fingerprint, replay) ← sv.command actor device req.commandId .invite req.encode
  let (kind, members) ← members req.channelId
  let (_, muted) ← orFail (members.get actor) (.forbidden "Not a channel member")
  ensure (!muted) (.forbidden "Member cannot initiate calls")
  match replay with
  | some value => return value
  | none => do
    ensure (!(kind == 0 && !sv.config.peer.enabled))
      (.unavailable "Direct peer calls unavailable; peer transport must be enabled")
    ensure (!(kind == 0 && !req.supportsPeer))
      (.validation "This direct call requires a peer-capable client")
    ensure (!(kind != 0 && sv.config.livekitUrl.isEmpty))
      (.validation "LiveKit is unavailable for this call")
    let targets := targets actor req members
    ensure (!(targets.isEmpty || sv.limit req.mediaKind < targets.length + 1))
      (.validation "Invitee count exceeds call limit or is empty")
    forEach (fun target => do
      ensure (members.get target).isSome (.forbidden "Invitee is not a channel member")
      notBlocked actor target) targets
    let all := btreeSet (actor :: targets)
    lockUsers all
    let id ← nextMessageId
    let timestamp ← now
    let stored := sv.newCall actor device req kind all id timestamp
    save stored true
    let response := Response.call stored.call
    record actor device req.commandId fingerprint response
    done
    return response

end CallService

end PrivChat.Call
