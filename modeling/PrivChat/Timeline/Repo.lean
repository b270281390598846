import PrivChat.Db.Tx
import Mathlib.Data.List.Dedup
import Mathlib.Data.List.MinMax
import Mathlib.Data.List.Sort

/-!
The message repository: messages, the commit log, the dispatch outbox, and the rows by which a
message submitted twice is told. Its two writers, statement by statement, are a message with its
commit, and an event that brings no message. Each is one transaction.

A statement may fail in the database at any point; that is an event of the run and not part of
the code here. What is part of it are the failures that the state of the tables forces.
-/

namespace PrivChat.Timeline

open PrivChat.Db Tx

abbrev UserId := ℕ
abbrev ChannelId := ℕ
abbrev MessageId := ℕ
abbrev FileId := ℕ
abbrev Millis := ℤ

inductive DatabaseError
  | database (text : String)
  | notFound (text : String)
  | validation (text : String)
  deriving DecidableEq

inductive ContentMessageType
  | text | voice | image | video | file | location | contactCard | sticker | forward | link
  | redPacket | moneyTransfer | system
  deriving DecidableEq

structure Message where
  messageId : MessageId
  channelId : ChannelId
  senderId : UserId
  pts : Option ℕ
  localMessageId : Option ℕ
  content : String
  messageType : ContentMessageType
  metadata : String
  replyToMessageId : Option MessageId
  createdAt : Millis
  updatedAt : Millis
  deleted : Bool
  deletedAt : Option Millis
  revoked : Bool
  revokedAt : Option Millis
  revokedBy : Option UserId
  readDetailExpiresAt : Option Millis
  deriving DecidableEq

/-- What happens on the timeline of a channel. The body of an event is opaque here. -/
inductive CanonicalTimelineEvent
  | newMessage (messageType : ContentMessageType) (body : String)
  | revoke (body : String)
  | reactionChange (body : String)
  deriving DecidableEq

/-- The number under which the outbox files an event. -/
def CanonicalTimelineEvent.kind : CanonicalTimelineEvent → ℕ
  | .newMessage _ _ => 1
  | .revoke _ => 2
  | .reactionChange _ => 3

/-- The type of the message, of an event that brings one. -/
def CanonicalTimelineEvent.messageType? : CanonicalTimelineEvent → Option ContentMessageType
  | .newMessage t _ => some t
  | .revoke _ | .reactionChange _ => none

structure MediaRef where
  role : ℤ
  fileId : FileId
  ordinal : ℤ
  deriving DecidableEq

/-- The files of a message, each once. -/
def uniqueFileIdsOf (refs : List MediaRef) : List FileId :=
  ((refs.map (·.fileId)).insertionSort (· ≤ ·)).dedup

structure ClientRegistryClaim where
  deviceId : String
  decision : String
  deriving DecidableEq

structure AtomicMessageCommitRequest where
  message : Message
  dedupKey : Option String
  clientRegistryClaim : Option ClientRegistryClaim
  attachmentRefs : List MediaRef
  channelType : ℤ
  event : CanonicalTimelineEvent
  senderUsername : Option String
  deriving DecidableEq

structure AtomicTimelineEventRequest where
  serverMsgId : MessageId
  channelId : ChannelId
  channelType : ℕ
  event : CanonicalTimelineEvent
  senderId : UserId
  senderUsername : Option String
  serverTimestamp : Millis
  deriving DecidableEq

/-- What the protocol library and the configuration provide: the name of a message type, the
two encodings of an event, the version of the second, and for how many days the details of who
has read a message are kept. -/
structure Protocol where
  asStr : ContentMessageType → String
  toLegacyCommit : CanonicalTimelineEvent → ChannelId → ℕ → Except String (String × String)
  encodeFb : CanonicalTimelineEvent → Except String (List UInt8)
  schemaVersion : ℕ
  readDetailRetentionDays : ℤ

/-! ### Tables -/

structure DedupRow where
  messageId : MessageId
  createdAt : Millis

structure UploadRow where
  uploaderId : UserId
  businessType : Option String
  businessId : Option String

structure FileRefKey where
  messageId : MessageId
  role : ℤ
  ordinal : ℤ
  deriving DecidableEq

structure FileRefRow where
  messageCreatedAt : Millis
  fileId : FileId
  createdAt : Millis

/-- A channel: its type (0 direct, 1 group, others a room), the two users of a direct channel,
and the newest message. -/
structure ChannelRow where
  channelType : ℤ
  membershipVersion : ℤ
  directUser1 : Option UserId
  directUser2 : Option UserId
  latestPts : Option ℕ
  latestMessageId : Option MessageId
  deriving DecidableEq

structure CommitRow where
  id : ℕ
  pts : ℕ
  serverMsgId : MessageId
  localMessageId : Option ℕ
  channelId : ChannelId
  channelType : ℤ
  messageType : String
  content : String
  serverTimestamp : Millis
  senderId : UserId
  senderUsername : Option String
  createdAt : Millis
  eventSchemaVersion : ℕ
  canonicalEvent : List UInt8

structure OutboxRow where
  eventId : ℕ
  channelId : ChannelId
  channelType : ℤ
  pts : ℕ
  senderId : UserId
  eventKind : ℕ
  membershipVersion : ℤ
  status : ℕ
  createdAt : Millis

structure RecipientRow where
  eventId : ℕ
  userId : UserId
  state : ℕ
  attempts : ℕ
  nextAttemptAt : Millis

/-- What a client says it has sent: who, from which device, under which number of its own. -/
structure RegistryKey where
  senderId : UserId
  deviceId : String
  localMessageId : ℕ
  deriving DecidableEq

structure RegistryRow where
  serverMsgId : MessageId
  pts : ℕ
  channelId : ChannelId
  channelType : ℤ
  decision : String
  createdAt : Millis
  deriving DecidableEq

/-- The tables. Those that only grow are lists, in the order of the commits. -/
structure Db where
  dedup : String → Option DedupRow
  /-- The number drawn last on each channel. -/
  pts : ChannelId → Option ℕ
  messages : List Message
  uploads : FileId → Option UploadRow
  fileRefs : FileRefKey → Option FileRefRow
  channels : ChannelId → Option ChannelRow
  commitLog : List CommitRow
  outbox : List OutboxRow
  recipients : List RecipientRow
  registry : RegistryKey → Option RegistryRow

/-- What a statement learns that is not in these tables: the time, the next value of the
sequence of the commit log, and who belongs to the channel at the moment. -/
structure World where
  now : Millis
  commitId : ℕ
  groupMembers : List UserId
  participants : List UserId

/-- The rows and index entries that a statement locks. -/
inductive LockKey
  | dedup (key : String)
  | pts (c : ChannelId)
  | message (id : MessageId) (createdAt : Millis)
  | upload (f : FileId)
  | fileRef (key : FileRefKey)
  | channel (c : ChannelId)
  | registry (key : RegistryKey)
  deriving DecidableEq

abbrev TimelineTx := Tx Db LockKey World DatabaseError

structure AtomicMessageCommitResult where
  message : Message
  inserted : Bool
  eventId : Option ℕ
  eventSchemaVersion : Option ℕ
  canonicalEvent : Option (List UInt8)
  deriving DecidableEq

structure ServerCommit where
  eventId : Option ℕ
  pts : ℕ
  serverMsgId : MessageId
  localMessageId : Option ℕ
  channelId : ChannelId
  channelType : ℕ
  messageType : String
  content : String
  serverTimestamp : Millis
  senderId : UserId
  eventSchemaVersion : Option ℕ
  canonicalEvent : Option (List UInt8)
  deriving DecidableEq

inductive Job
  | createMessage (request : AtomicMessageCommitRequest)
  | appendEvent (request : AtomicTimelineEventRequest)
  deriving DecidableEq

inductive Answer
  | message (result : AtomicMessageCommitResult)
  | event (commit : ServerCommit)
  deriving DecidableEq

namespace Db

def empty : Db where
  dedup _ := none
  pts _ := none
  messages := []
  uploads _ := none
  fileRefs _ := none
  channels _ := none
  commitLog := []
  outbox := []
  recipients := []
  registry _ := none

variable (d : Db)

/-- The number drawn last on the channel, 0 if none has been. -/
def currentPts (c : ChannelId) : ℕ := (d.pts c).getD 0

def log (c : ChannelId) : List CommitRow := d.commitLog.filter (·.channelId == c)

/-- The newest message with this id. -/
def messageById (id : MessageId) : Option Message :=
  @List.argmax _ _ Int.instLinearOrder.toPreorder _ (·.createdAt)
    (d.messages.filter (·.messageId == id))

/-- The message to which the key was given. -/
def findMessageByDedupKey (key : String) : Option Message :=
  (d.dedup key).bind fun row => d.messageById row.messageId

/-- The message that the client's number stands for. -/
def findMessageByClientRegistry (key : RegistryKey) : Option Message :=
  (d.registry key).bind fun row => d.messages.find? (·.messageId == row.serverMsgId)

end Db

/-- How the database answers an insert whose key is taken. -/
def duplicateKey (index : String) : String :=
  "error returned from database: duplicate key value violates unique constraint \"" ++ index
    ++ "\""

variable (f : FileId) (d : Db) (c : ChannelId) (pr : Protocol) (m : Message)
  (r : AtomicMessageCommitRequest) (pts : ℕ) (id : MessageId)

def Db.nextPts : ℕ :=
  match d.pts c with
  | none => 1
  | some n => n + 1

def ptsDb (d : Db) : Db :=
  { d with pts := Function.update d.pts c (some pts) }

def allocatePts : TimelineTx ℕ := do
  acquire (.pts c)
  let pts ← query (·.nextPts c)
  update (ptsDb c pts)
  return pts

/-- Until when the details of who has read the message are kept. -/
def Protocol.readDetailExpiresAtForInsert : Millis :=
  m.readDetailExpiresAt.getD (m.createdAt + pr.readDetailRetentionDays * 86400000)

def Protocol.messageRow : Message :=
  { m with readDetailExpiresAt := some (pr.readDetailExpiresAtForInsert m) }

def Db.hasMessage (createdAt : Millis) : Bool :=
  d.messages.any fun m => m.messageId == id && m.createdAt == createdAt

def messageDb (row : Message) (d : Db) : Db := { d with messages := d.messages ++ [row] }

def insertMessage : TimelineTx Unit := do
  acquire (.message m.messageId m.createdAt)
  let used ← query (·.hasMessage m.messageId m.createdAt)
  ensure (!used) (.database ("Failed to create message: " ++ duplicateKey "privchat_messages_pkey"))
  update (messageDb (pr.messageRow m))

/-- The file is the sender's, and not yet that of another message. -/
def UploadRow.bindable (row : UploadRow) (m : Message) : Bool :=
  row.uploaderId == m.senderId &&
    (row.businessType == none || row.businessType == some "" ||
      row.businessId == none || row.businessId == some "" ||
      (row.businessType == some "message" && row.businessId == some (toString m.messageId)))

def uploadDb (d : Db) : Db :=
  { d with uploads := Function.update d.uploads f ((d.uploads f).map fun row =>
      { row with businessType := some "message", businessId := some (toString m.messageId) }) }

def bindingRejected : DatabaseError :=
  .validation ("ATTACHMENT_BINDING_REJECTED attachment file_id=" ++ toString f ++
    " rejected while binding message_id=" ++ toString m.messageId ++
    ": not found, not uploaded by sender " ++ toString m.senderId ++
    ", or already bound to another business")

def bindAttachment (f : FileId) : TimelineTx Unit := do
  acquire (.upload f)
  let bindable ← query fun d => (d.uploads f).any (·.bindable m)
  ensure bindable (bindingRejected f m)
  update (uploadDb f m)

def MediaRef.key (ref : MediaRef) : FileRefKey := ⟨m.messageId, ref.role, ref.ordinal⟩

/-- The reference is recorded, unless its place is taken. -/
def fileRefDb (ref : MediaRef) (d : Db) : Db :=
  let row := (d.fileRefs (ref.key m)).getD ⟨m.createdAt, ref.fileId, m.createdAt⟩
  { d with fileRefs := Function.update d.fileRefs (ref.key m) (some row) }

def recordMediaRef (ref : MediaRef) : TimelineTx Unit := do
  acquire (.fileRef (ref.key m))
  update (fileRefDb m ref)

/-- The message is newer than the channel's newest so far. -/
def ChannelRow.behind (row : ChannelRow) (pts : ℕ) (id : MessageId) : Bool :=
  let latestPts : ℤ := row.latestPts.elim (-1) (↑)
  let latestId : ℤ := row.latestMessageId.elim (-1) (↑)
  latestPts < pts || (latestPts == pts && latestId < id)

def ChannelRow.advance (row : ChannelRow) (pts : ℕ) (id : MessageId) : ChannelRow :=
  if row.behind pts id then { row with latestPts := some pts, latestMessageId := some id }
  else row

def headDb (d : Db) : Db :=
  { d with channels := Function.update d.channels c ((d.channels c).map (·.advance pts id)) }

def advanceChannelMessageHead : TimelineTx Unit := do
  acquire (.channel c)
  update (headDb c pts id)

def Db.hasCommit : Bool :=
  d.commitLog.any fun row => row.channelId == c && row.pts == pts

def commitDb (row : CommitRow) (d : Db) : Db := { d with commitLog := d.commitLog ++ [row] }

/-- One more row of the commit log, whose id comes from the sequence. -/
def insertCommit (failure : String) (row : ℕ → CommitRow) : TimelineTx ℕ := do
  let id ← observe (·.commitId)
  let used ← query (·.hasCommit (row id).channelId (row id).pts)
  ensure (!used)
    (.database (failure ++ duplicateKey "privchat_commit_log_channel_id_pts_key"))
  update (commitDb (row id))
  return id

inductive ChannelType
  | direct | group | room

def ChannelType.toInt : ChannelType → ℤ
  | .direct => 0
  | .group => 1
  | .room => 2

def ChannelType.fromWireU8 : ℕ → Option ChannelType
  | 1 => some .direct
  | 2 => some .group
  | 3 => some .room
  | _ => none

/-- A number that does not fit in a byte becomes 255. -/
def wireU8 (wire : ℤ) : ℕ := if 0 ≤ wire ∧ wire ≤ 255 then wire.toNat else 255

/-- The type under which a channel of the wire's type is stored. -/
def expectedType (wire : ℤ) : Option ℤ := (ChannelType.fromWireU8 (wireU8 wire)).map (·.toInt)

/-- Whom an event on the channel goes to. -/
def ChannelRow.recipients (row : ChannelRow) (w : World) : List UserId :=
  List.dedup <|
    if row.channelType = 0 then row.directUser1.toList ++ row.directUser2.toList
    else if row.channelType = 1 then w.groupMembers
    else w.participants

def outboxDb (row : OutboxRow) (d : Db) : Db := { d with outbox := d.outbox ++ [row] }

def recipientsDb (eventId : ℕ) (users : List UserId) (now : Millis) (d : Db) : Db :=
  { d with recipients := d.recipients ++ users.map fun u => ⟨eventId, u, 0, 0, now⟩ }

def createDispatchSnapshotInTx (eventId : ℕ) (c : ChannelId) (wire : ℤ) (pts : ℕ)
    (sender : UserId) (eventKind : ℕ) (now : Millis) : TimelineTx Unit := do
  acquire (.channel c)
  let channel ← query (·.channels c)
  let channel ← orFail channel (.notFound ("Channel not found: " ++ toString c))
  let expected ← orFail (expectedType wire)
    (.database ("unsupported wire channel type for " ++ toString c ++ ": " ++ toString wire))
  ensure (channel.channelType == expected)
    (.database ("channel type mismatch for " ++ toString c ++ ": wire " ++ toString wire ++
      " maps to DB " ++ toString expected ++ ", actual " ++ toString channel.channelType))
  update (outboxDb ⟨eventId, c, channel.channelType, pts, sender, eventKind,
    channel.membershipVersion, 0, now⟩)
  let users ← observe channel.recipients
  update (recipientsDb eventId users now)
  ensure (!users.isEmpty)
    (.database ("dispatch recipient snapshot is empty for channel " ++ toString c))

def dedupDb (key : String) (row : DedupRow) (d : Db) : Db :=
  { d with dedup := Function.update d.dedup key (some row) }

/-- Take the key, if there is one. `false` if it is taken. -/
def claimDedup : Option String → TimelineTx Bool
  | none => return true
  | some key => do
    acquire (.dedup key)
    let row ← query (·.dedup key)
    if row.isSome then return false
    else
      update (dedupDb key ⟨m.messageId, m.createdAt⟩)
      return true

/-- The key under which the client has sent the message, if it has given it a number. -/
def AtomicMessageCommitRequest.registryKey : Option RegistryKey :=
  r.clientRegistryClaim.bind fun claim =>
    if r.message.localMessageId.getD 0 = 0 then none
    else some ⟨r.message.senderId, claim.deviceId, r.message.localMessageId.getD 0⟩

def AtomicMessageCommitRequest.registryRow (now : Millis) : RegistryRow where
  serverMsgId := r.message.messageId
  pts := pts
  channelId := r.message.channelId
  channelType := r.channelType
  decision := (r.clientRegistryClaim.map (·.decision)).getD ""
  createdAt := now

def registryDb (key : RegistryKey) (row : RegistryRow) (d : Db) : Db :=
  { d with registry := Function.update d.registry key (some row) }

/-- Take the client's number, if there is one. `false` if it is taken. -/
def claimRegistry (row : RegistryRow) : Option RegistryKey → TimelineTx Bool
  | none => return true
  | some key => do
    acquire (.registry key)
    let taken ← query (·.registry key)
    if taken.isSome then return false
    else
      update (registryDb key row)
      return true

/-! ### The two transactions -/

/-- What a message submitted before is answered with. -/
def duplicate : AtomicMessageCommitResult := ⟨m, false, none, none, none⟩

/-- The two encodings of an event. -/
def Protocol.encode (event : CanonicalTimelineEvent) (c : ChannelId)
    (channelType : ℕ) : Except String ((String × String) × List UInt8) := do
  let legacy ← (pr.toLegacyCommit event c channelType).mapError
    ("legacy event projection failed: " ++ ·)
  let canonical ← (pr.encodeFb event).mapError ("canonical event encoding failed: " ++ ·)
  return (legacy, canonical)

/-- The value, or an error of the database. -/
def liftExcept {α : Type} : Except String α → TimelineTx α
  | .ok a => return a
  | .error e => .fail (.database e)

def asU8 (n : ℤ) : ℕ := (n % 256).toNat

def Protocol.messageCommit
    (legacy : String × String) (canonical : List UInt8) (now : Millis) (pts id : ℕ) :
    CommitRow where
  id := id
  pts := pts
  serverMsgId := r.message.messageId
  localMessageId := r.message.localMessageId
  channelId := r.message.channelId
  channelType := r.channelType
  messageType := legacy.1
  content := legacy.2
  serverTimestamp := r.message.createdAt
  senderId := r.message.senderId
  senderUsername := r.senderUsername
  createdAt := now
  eventSchemaVersion := pr.schemaVersion
  canonicalEvent := canonical

/-- What to answer when the client's number was taken, looked up outside the transaction. -/
def duplicateByRegistry : TimelineTx AtomicMessageCommitResult :=
    do
  let existing ← snapshot fun d => r.registryKey.bind d.findMessageByClientRegistry
  let existing ← orFail existing
    (.database "client registry conflict without message projection")
  return duplicate existing

/-- The part of the transaction that writes. -/
def Protocol.commitMessage (legacy : String × String) (canonical : List UInt8) :
    TimelineTx AtomicMessageCommitResult := do
  let now ← observe (·.now)
  let pts ← allocatePts r.message.channelId
  let message := { r.message with pts := some pts }
  insertMessage pr message
  forEach (bindAttachment message) (uniqueFileIdsOf r.attachmentRefs)
  forEach (recordMediaRef message) r.attachmentRefs
  advanceChannelMessageHead message.channelId pts message.messageId
  let eventId ← insertCommit "Failed to save commit: "
    (pr.messageCommit r legacy canonical now pts)
  createDispatchSnapshotInTx eventId message.channelId r.channelType pts message.senderId 1 now
  let registered ← claimRegistry (r.registryRow pts now) r.registryKey
  if registered then do
    done
    return ⟨message, true, some eventId, some pr.schemaVersion, some canonical⟩
  else do
    undo
    duplicateByRegistry r

def Protocol.createMessageAndCommitAtomic : TimelineTx AtomicMessageCommitResult := do
  ensure (!(r.dedupKey.isSome && r.clientRegistryClaim.isSome))
    (.database "dedup_key and client_registry_claim are mutually exclusive")
  let eventType ← orFail r.event.messageType?
    (.database "message transaction requires a canonical new-message event")
  ensure (eventType == r.message.messageType)
    (.database ("canonical message type " ++ pr.asStr eventType ++ " does not match row type " ++
      pr.asStr r.message.messageType))
  let (legacy, canonical) ←
    liftExcept (pr.encode r.event r.message.channelId (asU8 r.channelType))
  let claimed ← claimDedup r.message r.dedupKey
  if claimed then
    pr.commitMessage r legacy canonical
  else do
    let existing ← peek (fun _ _ => True) fun d => r.dedupKey.bind d.findMessageByDedupKey
    undo
    let existing ← orFail existing
      (.database ("dedup_key exists but message is missing: " ++ r.dedupKey.getD ""))
    return duplicate existing

/-- The row of the commit log for an event without a message. -/
def Protocol.eventCommit (r : AtomicTimelineEventRequest)
    (legacy : String × String) (canonical : List UInt8) (now : Millis) (pts id : ℕ) :
    CommitRow where
  id := id
  pts := pts
  serverMsgId := r.serverMsgId
  localMessageId := none
  channelId := r.channelId
  channelType := r.channelType
  messageType := legacy.1
  content := legacy.2
  serverTimestamp := r.serverTimestamp
  senderId := r.senderId
  senderUsername := r.senderUsername
  createdAt := now
  eventSchemaVersion := pr.schemaVersion
  canonicalEvent := canonical

def Protocol.appendTimelineEventAtomic (r : AtomicTimelineEventRequest) :
    TimelineTx ServerCommit := do
  let (legacy, canonical) ← liftExcept (pr.encode r.event r.channelId r.channelType)
  let now ← observe (·.now)
  let pts ← allocatePts r.channelId
  let eventId ← insertCommit "Failed to save timeline event: "
    (pr.eventCommit r legacy canonical now pts)
  createDispatchSnapshotInTx eventId r.channelId r.channelType pts r.senderId r.event.kind now
  done
  return ⟨some eventId, pts, r.serverMsgId, none, r.channelId, r.channelType, legacy.1, legacy.2,
    r.serverTimestamp, r.senderId, some pr.schemaVersion, some canonical⟩

def Protocol.prog : Job → TimelineTx Answer
  | .createMessage r => do return .message (← pr.createMessageAndCommitAtomic r)
  | .appendEvent r => do return .event (← pr.appendTimelineEventAtomic r)

end PrivChat.Timeline
