import PrivChat.Call.Service

/-!
The mutations of a call: join, heartbeat, reject, cancel, leave and end. Peer signalling over the
private journal, the sweep, and all operations of the service as the jobs of one program.
-/

namespace PrivChat.Call

open PrivChat.Db Tx

def stateOf (u : UserId) (ps : List CallParticipant) : Option CallParticipantState :=
  (participantOf u ps).map (·.state)

namespace StoredCall

variable (stored : StoredCall)

def setParticipant (u : UserId) (st : CallParticipantState) : StoredCall :=
  { stored with call := { stored.call with
      participants := setState u st stored.call.participants } }

def setClaim (u : UserId) (c : DeviceClaim) : StoredCall :=
  { stored with claims := stored.claims.put u c }

def owns (u : UserId) (device : String) : Bool :=
  (stored.claims.get u).any fun c => c.device == device

def claimedElsewhere (u : UserId) (device : String) : Bool :=
  (stored.claims.get u).any fun c => c.device != device

/-- The first to answer makes the call active. -/
def answer (actor : UserId) (t : Millis) : StoredCall :=
  if actor ≠ stored.call.initiatorId ∧ stored.call.state = .ringing then
    { stored with call := { stored.call with state := .active, answeredAtMs := some t } }
  else stored

/-- Whether the call, after a rejection, ends. -/
def rejectEnds : Bool :=
  stored.channelType == 0 ||
    !(stored.call.participants.any fun p => p.state == .invited) && stored.call.state == .ringing

/-- Whether the call, after a participant left it, ends. -/
def leaveEnds (ends : Bool) : Bool :=
  ends || stored.channelType == 0 ||
    !(stored.call.participants.any fun p => p.state == .joined)

end StoredCall

namespace CallService

variable (sv : CallService)

def lease (t : Millis) : Millis := t + sv.config.heartbeatLeaseSeconds * 1000

/-! ### The operations

Each gives the call after it, and whether the participants are notified. -/

section

variable (actor : UserId) (device : String) (stored : StoredCall)

def join (muted : Bool) (call : CallId) : CallTx (StoredCall × Bool) := do
  let state := stateOf actor stored.call.participants
  ensure (!muted) (.forbidden "Member cannot join calls")
  ensure (!stored.claimedElsewhere actor device) (.forbidden "Call accepted on another device")
  ensure (!(state == some .left || state == some .rejected))
    (.forbidden "Participant already left or rejected")
  acquire (.user actor)
  let b ← query (busy actor fun c => c != call)
  ensure (!b) (.validation "User is busy in another call")
  forEach (fun p => if p.userId ≠ actor ∧ p.state.live then notBlocked actor p.userId
    else return ()) stored.call.participants
  let t ← now
  let t' ← now
  return (((stored.setParticipant actor .joined).setClaim actor ⟨device, sv.lease t⟩).answer
    actor t', true)

def heartbeat : CallTx (StoredCall × Bool) := do
  ensure (stored.owns actor device && stateOf actor stored.call.participants == some .joined)
    (.forbidden "Only the accepting device can heartbeat")
  let t ← now
  match stored.claims.get actor with
  | some c => return (stored.setClaim actor { c with leaseUntil := sv.lease t }, false)
  | none => return (stored, false)

def reject : CallTx (StoredCall × Bool) := do
  ensure (actor != stored.call.initiatorId &&
      stateOf actor stored.call.participants == some .invited)
    (.validation "Only an unanswered invite can be rejected")
  let stored := stored.setParticipant actor .rejected
  let t ← now
  if stored.rejectEnds then
    return (finish stored .rejected t, true)
  else return (stored, true)

def cancel : CallTx (StoredCall × Bool) := do
  ensure (actor == stored.call.initiatorId && stored.owns actor device &&
      stored.call.state == .ringing)
    (.forbidden "Only the initiating device can cancel ringing")
  let t ← now
  return (finish stored .cancelled t, true)

/-- Leave the call, or end it for all. -/
def leave (ends : Bool) (role : ℤ) : CallTx (StoredCall × Bool) := do
  ensure (stored.owns actor device && stateOf actor stored.call.participants == some .joined)
    (.forbidden "Only the accepting device may leave or end")
  ensure (!(ends && stored.channelType == 1 && actor != stored.call.initiatorId && 1 < role))
    (.forbidden "Only initiator or group administrator may end")
  let stored := stored.setParticipant actor .left
  let t ← now
  if stored.leaveEnds ends then
    return (finish stored .normal t, true)
  else do
    effect stored.call (.removeParticipant (sv.identity stored.call.callId actor device))
    return (stored, true)

def operate (route : Route) (role : ℤ) (muted : Bool) (call : CallId) :
    CallTx (StoredCall × Bool) :=
  match route with
  | .join => sv.join actor device stored muted call
  | .heartbeat => sv.heartbeat actor device stored
  | .reject => reject actor stored
  | .cancel => cancel actor device stored
  | .leave => sv.leave actor device stored false role
  | .end => sv.leave actor device stored true role
  | .other _ => fail (.validation "Unknown call operation")

/-! ### The command -/

/-- A recorded join is given out again only while the device may still be in the call. -/
def replayJoin (muted : Bool) (response : Response) : CallTx Response := do
  let t ← now
  let t' ← now
  ensure (!(stored.call.state == .ended ||
      (stored.call.state == .ringing && stored.call.expiresAtMs ≤ t) || muted ||
      ((stored.claims.get actor).all fun c => c.device != device || c.leaseUntil ≤ t') ||
      stateOf actor stored.call.participants != some .joined))
    (.forbidden "Call credential no longer authorized")
  forEach (fun p => if p.userId ≠ actor ∧ p.state = .joined then notBlocked actor p.userId
    else return ()) stored.call.participants
  if stored.call.transport = .webrtc ∧ !sv.config.peer.allowTurn then do
    let peer ← sv.peerConfig stored.call actor
    match response with
    | .join r => return .join { r with peer := some peer }
    -- the response of a join is a join response
    | .call c => return .call c
  else return response

def joinResponse : CallTx Response := do
  let t ← now
  let expires := t + sv.config.tokenTtlSeconds * 1000
  if stored.call.transport = .webrtc then do
    let peer ← sv.peerConfig stored.call actor
    return .join ⟨stored.call, "", "", 0, some peer⟩
  else do
    let token ← sv.joinToken stored.call actor device expires
    return .join ⟨stored.call, sv.config.livekitUrl, token, expires, none⟩

def respond (route : Route) : CallTx Response :=
  if route = .join then sv.joinResponse actor device stored
  else return .call stored.call

end

def mutate (route : Route) (actor : UserId) (device : String) (req : CallMutationRequest) :
    CallTx Response := do
  sv.enabled
  let (fingerprint, replay) ← sv.command actor device req.commandId (.mutate route) req.encode
  let stored ← load req.callId
  let (_, members) ← members stored.call.channelId
  let (role, muted) ← orFail (members.get actor) (.forbidden "Not a channel member")
  ensure (participantOf actor stored.call.participants).isSome (.forbidden "Not invited to call")
  ensure (!(route == .join && stored.call.transport == .webrtc && !req.supportsPeer))
    (.validation "This direct call requires a peer-capable client")
  match replay with
  | some response =>
    if route = .join then sv.replayJoin actor device stored muted response
    else return response
  | none => do
    let (_, stored) ← sv.expire stored
    if stored.call.state = .ended then do
      done
      fail (.validation "Call has ended; reconcile using call/get")
    else do
      let (stored, notify) ← sv.operate actor device stored route role muted req.callId
      let stored := stored.bump notify
      let response ← sv.respond actor device stored route
      save stored notify
      record actor device req.commandId fingerprint response
      done
      return response

def get (actor : UserId) (id : CallId) : CallTx CallSnapshot := do
  sv.enabled
  let stored ← load id
  let (_, members) ← members stored.call.channelId
  ensure ((members.get actor).isSome && (participantOf actor stored.call.participants).isSome)
    (.forbidden "Call unavailable to this user")
  let (_, stored) ← sv.expire stored
  done
  return stored.call

end CallService

/-- The row is what it was, or has been deleted. -/
def SameOrGone {β : Type} (now before : Option β) : Prop := now = before ∨ now = none

def CallPeerEvent.ofRow (seq : ℕ) (r : PeerEventRow) : CallPeerEvent :=
  ⟨seq, r.revision, r.kind, r.payload, r.fromUserId⟩

namespace CallService

variable (sv : CallService)

/-! ### Statements on the journal

The sweep deletes expired rows under no lock, so what these find may be gone again by the
time of the commit. -/

/-- A key that is found here is no control command's, then or later. -/
def peerCommand (k : CommandKey) : CallTx (Option PeerCommandRow) :=
  peek (fun v s => SameOrGone (v.peerCommands.get k) (s.peerCommands.get k) ∧
      ((s.peerCommands.get k).isSome → v.commands.get k = none))
    fun s => s.peerCommands.get k

variable (call : CallId) (actor : UserId) (device : String) (req : CallPeerSignalRequest)

/-- The events of a call that satisfy the condition, in ascending order of sequence. -/
def journal (p : PeerEventRow → Bool) (s : Db) : List (ℕ × PeerEventRow) :=
  ((s.peerEvents.select fun k r => k.1 == call && p r).map fun x => (x.1.2, x.2)).insertionSort
    fun a b => a.1 ≤ b.1

/-- A query on the events of one call. -/
def peekEvents {α : Type} (q : Db → α) : CallTx α :=
  peek (fun v s => ∀ n, SameOrGone (v.peerEvents.get (call, n)) (s.peerEvents.get (call, n))) q

def peerRate (op : PeerOperation) (limit : ℕ) : CallTx Unit := do
  let t ← now
  let bucket := t.tdiv 10000
  let row ← peek (fun v s => SameOrGone (v.peerRates.get ⟨call, actor, op⟩)
      (s.peerRates.get ⟨call, actor, op⟩)) fun s => s.peerRates.get ⟨call, actor, op⟩
  let count := match row with
    | some r => if r.bucket = bucket then r.count + 1 else 1
    | none => 1
  update fun s => s.putPeerRate ⟨call, actor, op⟩ ⟨bucket, count⟩
  ensure (count ≤ limit) (.validation "Peer signalling rate limit; retry later")

/-! ### Signals -/

/-- The call, if the device may signal in it. -/
def authorizePeer (call : CallId) : CallTx StoredCall := do
  sv.enabled
  let stored ← load call
  let (_, members) ← members stored.call.channelId
  ensure (members.get actor).isSome (.forbidden "Not a channel member")
  let (_, stored) ← sv.expire stored
  ensure (!(stored.call.state == .ended || stored.call.transport != .webrtc ||
      stored.channelType != 0)) (.forbidden "Peer signalling unavailable for this call")
  let t ← now
  ensure (((stored.claims.get actor).any fun c => c.device == device && t < c.leaseUntil) &&
      stored.call.participants.any fun p => p.userId == actor && p.state == .joined)
    (.forbidden "Only the joined winning device may signal")
  forEach (fun p => if p.userId ≠ actor then notBlocked actor p.userId else return ())
    stored.call.participants
  return stored

/-- The checks of a signal that need no database. -/
def checkSignal : CallTx Unit := do
  ensure (!(device.isEmpty || 256 < device.utf8ByteSize || blank req.commandId ||
      128 < req.commandId.utf8ByteSize || req.revision == 0))
    (.validation "Invalid peer command or revision")
  let limit := if req.kind = .ice then 8192 else 65536
  ensure (!(blank req.payload || limit < req.payload.utf8ByteSize))
    (.validation "Peer payload empty or exceeds size limit")
  if req.kind = .ice then do
    let c ← orFail (sv.ext.parseCandidate req.payload)
      (.validation "Invalid ICE candidate envelope")
    ensure (!(8192 < c.candidate.utf8ByteSize || (c.sdpMid.any fun s => 256 < s.utf8ByteSize) ||
        255 < c.sdpMLineIndex)) (.validation "Invalid ICE candidate fields")

/-- The call after the negotiation step that a signal is. A revision is a 32 bit number. -/
def negotiate (stored : StoredCall) : CallTx StoredCall :=
  match req.kind with
  | .offer => do
    ensure (actor == stored.call.initiatorId &&
        (stored.peerRevision + 1 == req.revision && req.revision < UInt32.size))
      (.forbidden "Only initiator may offer the next revision")
    return { stored with peerRevision := req.revision, peerAnswered := false }
  | .answer => do
    ensure (!(actor == stored.call.initiatorId || req.revision != stored.peerRevision ||
        stored.peerAnswered)) (.forbidden "Answer must match the unanswered live revision")
    return { stored with peerAnswered := true }
  | .ice => do
    ensure (req.revision == stored.peerRevision) (.validation "ICE must match live revision")
    return stored

/-- A signal that was made before is answered from the journal. -/
def replaySignal (fingerprint : String) (req : CallPeerSignalRequest) (stored : StoredCall)
    (row : PeerCommandRow) : CallTx CallPeerEventsResponse := do
  ensure (row.fingerprint == fingerprint && row.call == req.callId)
    (.validation "command_id reused with a different peer request")
  let t ← now
  ensure (!(row.expiresAt ≤ t || req.revision != stored.peerRevision))
    (.validation "Peer replay expired or revision superseded")
  let t ← now
  let event ← peekEvents req.callId fun s =>
    (s.peerEvents.get (req.callId, row.seq)).filter fun r => t < r.expiresAt
  let event ← orFail event (.validation "Peer replay expired")
  done
  return ⟨[.ofRow row.seq event], row.seq⟩

def appendSignal (fingerprint : String) (req : CallPeerSignalRequest)
    (stored : StoredCall) : CallTx CallPeerEventsResponse := do
  let t ← now
  update fun s => s.deletePeerEvents fun k r => k.1 == req.callId && r.expiresAt ≤ t
  let count ← peekEvents req.callId fun s => (journal req.callId (fun _ => true) s).length
  ensure (count < 512) (.validation "Peer journal full; retry after expiry")
  let stored := { stored with peerSeq := stored.peerSeq + 1 }
  let t ← now
  let expires := t + sv.config.peer.journalTtlSeconds * 1000
  update fun s => s.putPeerEvent (req.callId, stored.peerSeq)
    ⟨req.revision, req.kind, req.payload, actor, expires⟩
  update fun s => s.putPeerCommand ⟨actor, device, req.commandId⟩
    ⟨req.callId, fingerprint, stored.peerSeq, expires⟩
  save stored false
  done
  return ⟨[⟨stored.peerSeq, req.revision, req.kind, req.payload, actor⟩], stored.peerSeq⟩

def peerSignal : CallTx CallPeerEventsResponse := do
  sv.enabled
  sv.checkSignal device req
  acquire (.command ⟨actor, device, req.commandId⟩)
  let stored ← sv.authorizePeer actor device req.callId
  peerRate req.callId actor .signal 60
  let fingerprint := sv.ext.sha256 (.peer req)
  let existing ← peerCommand ⟨actor, device, req.commandId⟩
  match existing with
  | some row => replaySignal fingerprint req stored row
  | none => do
    let used ← query fun s => (s.commands.get ⟨actor, device, req.commandId⟩).isSome
    ensure (!used) (.validation "command_id already used by call control")
    let stored ← negotiate actor req stored
    sv.appendSignal actor device fingerprint req stored

def peerEvents (req : CallPeerEventsRequest) : CallTx CallPeerEventsResponse := do
  let stored ← sv.authorizePeer actor device req.callId
  peerRate req.callId actor .events 40
  ensure (req.afterSeq ≤ stored.peerSeq) (.validation "Peer cursor exceeds current sequence")
  let t ← now
  let rows ← peekEvents req.callId fun s =>
    (journal req.callId (fun r => t < r.expiresAt) s).take 512
  let first := (rows.head?.map (·.1)).getD (stored.peerSeq + 1)
  ensure (!(req.afterSeq != 0 && req.afterSeq + 1 < first))
    (.validation "Peer journal expired; restart negotiation and read after_seq=0")
  ensure (!(req.afterSeq == 0 && 0 < stored.peerRevision &&
      !rows.any fun r => r.2.revision == stored.peerRevision && r.2.kind == .offer))
    (.validation "Peer offer expired; initiator must restart negotiation")
  let events := (rows.filter fun r => req.afterSeq < r.1 && r.2.fromUserId != actor &&
    r.2.revision == stored.peerRevision).map fun r => CallPeerEvent.ofRow r.1 r.2
  done
  return ⟨events, stored.peerSeq⟩

def sweepEvents : CallTx Unit := do
  let t ← now
  update fun s => s.deletePeerEvents fun _ r => r.expiresAt ≤ t
  done

def sweepCommands : CallTx Unit := do
  let t ← now
  update fun s => s.deletePeerCommands fun _ r => r.expiresAt ≤ t
  done

def sweepRates : CallTx Unit := do
  let t ← now
  update fun s => s.deletePeerRates fun _ r => r.bucket < t.tdiv 10000 - 2
  done

/-- Three statements, each a transaction of its own. -/
def sweepPeer : CallTx Unit := do
  sweepEvents
  sweepCommands
  sweepRates

/-- The ids of the hundred live calls least recently updated. -/
def sweepIds (s : Db) : List CallId :=
  (((s.calls.select fun _ row => row.state != .ended).insertionSort
    fun a b => a.2.updatedAt ≤ b.2.updatedAt).take 100).map (·.1)

def touch (id : CallId) (t : Millis) (s : Db) : Db :=
  match s.calls.get id with
  | some row => s.putCall id { row with updatedAt := t }
  | none => s

def sweepOne (id : CallId) : CallTx Unit := do
  let stored ← load id
  let _ ← sv.expire stored
  let t ← now
  update (touch id t)
  done

/-- The list of calls may be stale as soon as it is read. -/
def sweepCalls : CallTx Unit := do
  let ids ← peek (fun _ _ => True) sweepIds
  forEach sv.sweepOne ids

def sweep : CallTx Unit := do
  sweepPeer
  sv.sweepCalls

end CallService

inductive Job
  | invite (actor : UserId) (device : String) (req : CallInviteRequest)
  | mutate (route : Route) (actor : UserId) (device : String) (req : CallMutationRequest)
  | get (actor : UserId) (id : CallId)
  | peerSignal (actor : UserId) (device : String) (req : CallPeerSignalRequest)
  | peerEvents (actor : UserId) (device : String) (req : CallPeerEventsRequest)
  | sweep

inductive Answer
  | response (r : Response)
  | snapshot (c : CallSnapshot)
  | events (r : CallPeerEventsResponse)
  | swept
  deriving DecidableEq

def CallService.prog (sv : CallService) : Job → CallTx Answer
  | .invite actor device req => do return .response (← sv.invite actor device req)
  | .mutate route actor device req => do return .response (← sv.mutate route actor device req)
  | .get actor id => do return .snapshot (← sv.get actor id)
  | .peerSignal actor device req => do return .events (← sv.peerSignal actor device req)
  | .peerEvents actor device req => do return .events (← sv.peerEvents actor device req)
  | .sweep => do sv.sweep; return .swept

end PrivChat.Call
