import PrivChat.Channels.Model
import PrivChat.Sync.Service

/-!
The revocation of a message, by a user through the entry point for clients and by an administrator
of the server, and the data it works on: the stored messages, the channels with the roles of their
members, the unread counters, and the revocations on the log of the channel.
-/

namespace PrivChat.Revoke

open Db Tasks
open Channels (UserId ChannelId Millis Channel ChannelType MemberRole ServerError)
open Timeline (Message MessageId)
open Sync (Outcome)

structure RevokeCommit where
  channelId : ChannelId
  channelType : ℕ
  targetServerMessageId : MessageId
  revokedBy : UserId
  revokedAt : Millis
  senderId : UserId

structure RevokedMessageSummary where
  messageId : MessageId
  channelId : ChannelId
  channelType : ℕ
  revokerId : UserId
  revokedAtMs : Millis
  deriving DecidableEq

/-- `channels` is what `get_channel` answers, `channelTypes` what the database has on the
type of a channel. A user without a read cursor has read nothing. -/
structure Shared where
  messages : Table MessageId Message
  channels : ChannelId → Option Channel
  channelTypes : ChannelId → Option ChannelType
  unread : Table (UserId × ChannelId) ℕ
  lastReadPts : UserId → ChannelId → Option ℕ
  log : List RevokeCommit

namespace Shared

variable (s : Shared)

/-- The role of the user in a channel, as `get_channel` tells it. -/
def roleIn (c : ChannelId) (u : UserId) : Option MemberRole :=
  ((s.channels c).bind fun ch => ch.members.get u).map (·.role)

/-- The unread counter of a user counts the message. -/
def countsUnread (c : ChannelId) (pts : ℕ) (sender : UserId) (key : UserId × ChannelId)
    (unread : ℕ) : Bool :=
  decide (key.2 = c ∧ key.1 ≠ sender ∧ 0 < unread ∧ (s.lastReadPts key.1 key.2).getD 0 < pts)

/-- The statement that marks a message. It does not look at whether the message is marked. -/
def mark (id : MessageId) (revokedAt : Millis) (revoker : UserId) : Shared :=
  { s with messages := s.messages.modify id fun m => { m with
      revoked := true, revokedAt := some revokedAt, revokedBy := some revoker,
      updatedAt := revokedAt } }

def commitsOf (id : MessageId) : ℕ := s.log.countP fun c => c.targetServerMessageId = id

end Shared

inductive Op
  | now
  | findById (id : MessageId)
  | getChannel (c : ChannelId)
  | markRevoked (id : MessageId) (revokedAt : Millis) (revoker : UserId)
  | discountUnread (c : ChannelId) (pts : ℕ) (sender : UserId)
  | appendServerEventCommit (commit : RevokeCommit)

/-- The statement that marks a message answers with the number of rows. -/
def Op.Res : Op → Type
  | .now => Millis
  | .findById _ => Except String (Option Message)
  | .getChannel _ => Option Channel
  | .markRevoked _ _ _ => Except String ℕ
  | .discountUnread _ _ _ => Except String Unit
  | .appendServerEventCommit _ => Except String Unit

structure Moment where
  clock : Millis
  outcome : Outcome

def answer {β : Type} (o : Moment) (b : β) : Except String β :=
  match o.outcome with
  | .ok => .ok b
  | .failed text _ => .error text

def Shared.exec : (op : Op) → Moment → Shared → op.Res × Shared
  | .now, o, s => (o.clock, s)
  | .findById id, o, s => (answer o (s.messages.get id), s)
  | .getChannel c, o, s => (if o.outcome = .ok then s.channels c else none, s)
  | .markRevoked id revokedAt revoker, o, s =>
    (answer o (if (s.messages.get id).isSome then 1 else 0),
      if o.outcome.applied then s.mark id revokedAt revoker else s)
  | .discountUnread c pts sender, o, s =>
    (answer o (), if o.outcome.applied then
      { s with unread := s.unread.updateWhere (s.countsUnread c pts sender) (· - 1) } else s)
  | .appendServerEventCommit commit, o, s =>
    -- the log takes no commit under another type than the channel's
    if (s.channelTypes commit.channelId).map (·.toWire) = some commit.channelType then
      (answer o (), if o.outcome.applied then { s with log := s.log ++ [commit] } else s)
    else (.error "channel type mismatch", s)

/-- What others do meanwhile: messages are sent, channels change, users get and read messages. -/
inductive Outside
  | insertMessage (m : Message)
  | setChannel (c : ChannelId) (channel : Option Channel)
  | setUnread (u : UserId) (c : ChannelId) (unread : ℕ)
  | setLastRead (u : UserId) (c : ChannelId) (pts : ℕ)

def Shared.outside : Outside → Shared → Shared
  | .insertMessage m, s =>
    if (s.messages.get m.messageId).isSome then s
    else { s with messages := s.messages.put m.messageId m }
  | .setChannel c channel, s => { s with channels := Function.update s.channels c channel }
  | .setUnread u c unread, s => { s with unread := s.unread.put (u, c) unread }
  | .setLastRead u c pts, s => { s with
      lastReadPts := Function.update s.lastReadPts u (Function.update (s.lastReadPts u) c pts) }

abbrev RevokeProg := Prog Op Op.Res ServerError

def now : RevokeProg Millis := .call .now fun t => .ret t

variable (limitSecs : ℤ) (id : MessageId) (c : ChannelId) (u : UserId)

def findById : RevokeProg (Option Message) :=
  .call (.findById id) fun r =>
    match (r : Except String (Option Message)) with
    | .ok m => .ret m
    | .error e => .fail (.database s!"Failed to query message: {e}")

def getChannel : RevokeProg (Option Channel) :=
  .call (.getChannel c) fun ch => .ret ch

/-- The statement of `revoke_message`, with the number of rows it has changed. -/
def markRevoked (revokedAt : Millis) (revoker : UserId) : RevokeProg ℕ :=
  .call (.markRevoked id revokedAt revoker) fun r =>
    match (r : Except String ℕ) with
    | .ok rows => .ret rows
    | .error e => .fail (.database s!"Failed to revoke message: {e}")

def revokeMessage (revoker : UserId) : RevokeProg Message := do
  let revokedAt ← now
  match ← findById id with
  | none => .fail (.notFound s!"Message {id} not found")
  | some message =>
    if message.revoked then .fail (.validation "Message already revoked")
    else
      let rows ← markRevoked id revokedAt revoker
      if rows = 0 then .fail (.notFound s!"Message {id} not found")
      else return { message with
        revoked := true, revokedAt := some revokedAt, revokedBy := some revoker,
        updatedAt := revokedAt }

/-! ### The service -/

/-- A failure is not passed on. A message without a number was never on the timeline. -/
def discountUnreadForRevokedMessage (m : Message) : RevokeProg Unit :=
  match m.pts with
  | none => .ret ()
  | some pts => .call (.discountUnread c pts m.senderId) fun _ => .ret ()

/-- A failure is not passed on either. -/
def appendServerEventCommit (commit : RevokeCommit) : RevokeProg Unit :=
  .call (.appendServerEventCommit commit) fun _ => .ret ()

/-- The type of the channel on the wire, of a direct chat if the channel is not found. -/
def wireType (channel : Option Channel) : ℕ :=
  ((channel.map Channel.channelType).getD ChannelType.direct).toWire

/-- An error of the repository, as the service reports it. -/
def repositoryError : ServerError → ServerError
  | .notFound text => .notFound text
  | .validation text => .validation text
  | e => .database s!"撤回消息失败: {e.display}"

/-- What follows once the message is marked. -/
def revokeEffects (revoker : UserId) (revokedMsg : Message) : RevokeProg RevokedMessageSummary := do
  discountUnreadForRevokedMessage c revokedMsg
  let channelType := wireType (← getChannel c)
  let revokeTs ← now
  appendServerEventCommit ⟨c, channelType, id, revoker, revokeTs, revoker⟩
  return ⟨id, c, channelType, revoker, revokedMsg.revokedAt.getD revokeTs⟩

def revokeMessageCore (revoker : UserId) : RevokeProg RevokedMessageSummary := do
  let revokedMsg ← (revokeMessage id revoker).mapErr repositoryError
  revokeEffects id c revoker revokedMsg

/-- The message, which must not be revoked yet. -/
def findUnrevoked (missing : String) : RevokeProg Message := do
  let found ← (findById id).mapErr fun e => .database s!"查询消息失败: {e.display}"
  match (found : Option Message) with
  | none => .fail (.notFound missing)
  | some message =>
    if message.revoked then .fail (.validation "消息已被撤回") else return message

def recallAllowedByTime (nowTs msgTs : ℤ) : Bool :=
  decide (limitSecs ≤ 0) || decide (nowTs - msgTs ≤ limitSecs)

def formatRecallTimeoutMessage : String :=
  let hours := limitSecs.tdiv 3600
  let minutes := limitSecs.tdiv 60
  if limitSecs.tmod 3600 = 0 then s!"消息发送已超过 {hours} 小时，无法撤回"
  else if limitSecs.tmod 60 = 0 then s!"消息发送已超过 {minutes} 分钟，无法撤回"
  else s!"消息发送已超过 {limitSecs} 秒，无法撤回"

/-- Full seconds of a time in milliseconds. -/
def timestamp (t : Millis) : ℤ := t / 1000

/-- The role of the user in the channel allows to revoke what others have sent. -/
def isAdmin (channel : Option Channel) (u : UserId) : Bool :=
  ((channel.bind fun ch => ch.members.get u).map (·.role)).any (·.isPrivileged)

/-- A sender who is no administrator revokes in time only. -/
def checkRecallTime (message : Message) : RevokeProg Unit := do
  let t ← now
  if recallAllowedByTime limitSecs (timestamp t) (timestamp message.createdAt) then return ()
  else .fail (.validation (formatRecallTimeoutMessage limitSecs))

/-- The channel whose roles are looked at is the one the caller names. -/
def authorize (message : Message) : RevokeProg Unit := do
  let admin := isAdmin (← getChannel c) u
  if message.senderId ≠ u ∧ admin = false then
    .fail (.forbidden "只有发送者或群管理员可以撤回消息")
  else if message.senderId = u ∧ admin = false then checkRecallTime limitSecs message
  else return ()

def revokeMessageWithAuth : RevokeProg RevokedMessageSummary := do
  let message ← findUnrevoked id "消息不存在"
  authorize limitSecs c u message
  revokeMessageCore id message.channelId u

def revokeMessageAdmin (revoker : UserId) : RevokeProg RevokedMessageSummary := do
  let message ← findUnrevoked id s!"消息 {id} 不存在"
  revokeMessageCore id message.channelId revoker

inductive Job
  | revokeMessageWithAuth (id : MessageId) (c : ChannelId) (u : UserId)
  | revokeMessageAdmin (id : MessageId) (revoker : UserId)

def Job.messageId : Job → MessageId
  | .revokeMessageWithAuth id _ _ | .revokeMessageAdmin id _ => id

def Job.revoker : Job → UserId
  | .revokeMessageWithAuth _ _ u | .revokeMessageAdmin _ u => u

def Job.prog : Job → RevokeProg RevokedMessageSummary
  | .revokeMessageWithAuth id c u => Revoke.revokeMessageWithAuth limitSecs id c u
  | .revokeMessageAdmin id revoker => Revoke.revokeMessageAdmin id revoker

abbrev RevokeState := State Shared Op Op.Res Job ServerError RevokedMessageSummary
abbrev RevokeEvent := Tasks.Event Moment Outside Job

def machine : Machine Shared Op Op.Res Moment Outside Job ServerError RevokedMessageSummary where
  prog := Job.prog limitSecs
  exec := Shared.exec
  env := Shared.outside
  admits _ _ := true

structure MessageRevokeRequest where
  serverMessageId : MessageId
  channelId : ChannelId

/-- Who calls. The id of the user comes as a text, which may not be a number. -/
inductive Caller
  | anonymous
  | invalid
  | user (u : UserId)

inductive RpcError
  | unauthorized (text : String)
  | validation (text : String)
  | notFound (text : String)
  | forbidden (text : String)
  | internal (text : String)

def getCurrentUserId : Caller → Except RpcError UserId
  | .anonymous => .error (.unauthorized "User not authenticated")
  | .invalid => .error (.validation "Invalid user_id format")
  | .user u => .ok u

def mapServerError : ServerError → RpcError
  | .notFound text => .notFound text
  | .forbidden text => .forbidden text
  | .validation text => .validation text
  | e => .internal e.display

/-- A request may be answered with `r` and leave the state `s'`. -/
def Handles (caller : Caller) (req : MessageRevokeRequest) (s : Shared)
    (r : Except RpcError Bool) (s' : Shared) : Prop :=
  match getCurrentUserId caller with
  | .error e => r = .error e ∧ s' = s
  | .ok u => ∃ r', (machine limitSecs).Ends
      (revokeMessageWithAuth limitSecs req.serverMessageId req.channelId u) s r' s' ∧
      r = (r'.mapError mapServerError).map fun _ => true

end PrivChat.Revoke
