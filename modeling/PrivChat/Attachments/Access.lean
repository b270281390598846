import PrivChat.Channels.Model
import PrivChat.Tasks.Reads
import PrivChat.Text.Decimal

/-!
Who may download an attachment.

Messages reference files: sending one writes a row of the reference table for each file it
carries. A file that is referenced may be read by the members of the channels whose messages
reference it and are still there; a file that is not yet referenced, by its uploader alone.
Before the reference table, a message was found by the business id in the file's row, and the
check still looks there when the table has nothing. The business id is what the uploading client
says, and whatever number a client has put there is taken for the number of a message that
references the file.
-/

namespace PrivChat.Attachments

open Db Tasks Channels

abbrev FileId := ℕ
abbrev MessageId := ℕ

structure MessageRow where
  channelId : ChannelId
  deleted : Bool
  revoked : Bool

def MessageRow.live (m : MessageRow) : Bool := !m.deleted && !m.revoked

/-- The role of a file in a message, and the place among the files of that role. -/
structure RefKey where
  messageId : MessageId
  role : ℕ
  ordinal : ℕ
  deriving DecidableEq

structure RefRow where
  messageCreatedAt : Millis
  fileId : FileId

structure ChannelRow where
  channelType : ℕ
  directUser1Id : Option UserId
  directUser2Id : Option UserId

structure MembershipRow where
  leftAt : Option Millis

structure Tables where
  messages : Table (MessageId × Millis) MessageRow
  messageFileRefs : Table RefKey RefRow
  channels : Table ChannelId ChannelRow
  groupMembers : Table (GroupId × UserId) MembershipRow
  channelParticipants : Table (ChannelId × UserId) MembershipRow

/-- The row of a file, with what its upload said it is for. -/
structure FileMetadata where
  fileId : FileId
  uploaderId : UserId
  businessType : Option String
  businessId : Option String

namespace Tables

variable (db : Tables)

def currentIn (t : Table (ℕ × UserId) MembershipRow) (c : ℕ) (u : UserId) : Bool :=
  (t.get (c, u)).any fun row => row.leftAt.isNone

/-- Whether the channel counts the user as a member: a direct channel by its own row, a group by
its members, and any other channel by its participants. -/
def countsMember (c : ChannelId) (row : ChannelRow) (u : UserId) : Bool :=
  match row.channelType with
  | 0 => row.directUser1Id == some u || row.directUser2Id == some u
  | 1 => currentIn db.groupMembers c u
  | _ => currentIn db.channelParticipants c u

/-- The channel of the message a reference belongs to, and whether the message is live. -/
def channelOfRef (key : RefKey) (ref : RefRow) : Option (ChannelId × Bool) :=
  (db.messages.get (key.messageId, ref.messageCreatedAt)).map fun m => (m.channelId, m.live)

def fileReferenceChannels (f : FileId) : List (ChannelId × Bool) :=
  ((db.messageFileRefs.select fun _ ref => ref.fileId == f).filterMap fun x =>
    db.channelOfRef x.1 x.2).dedup

/-- A row with the number. The key has the time as well, so there might be several. -/
def messageNumbered (id : MessageId) : Option MessageRow :=
  ((db.messages.select fun key _ => key.1 == id).head?).map (·.2)

def liveChannelOfMessage (id : MessageId) : Option (ChannelId × Bool) :=
  (db.messageNumbered id).map fun m => (m.channelId, m.live)

def isMemberOfAnyChannel (cs : List ChannelId) (u : UserId) : Bool :=
  db.channels.any fun c row => cs.contains c && db.countsMember c row u

end Tables

inductive Query
  | fileReferenceChannels (f : FileId)
  | liveChannelOfMessage (id : MessageId)
  | isMemberOfAnyChannel (cs : List ChannelId) (u : UserId)

def Query.Answer : Query → Type
  | .fileReferenceChannels _ => List (ChannelId × Bool)
  | .liveChannelOfMessage _ => Option (ChannelId × Bool)
  | .isMemberOfAnyChannel _ _ => Bool

def Query.failure : Query → String
  | .fileReferenceChannels _ => "查询文件引用会话失败: "
  | .liveChannelOfMessage _ => "查询消息存活状态失败: "
  | .isMemberOfAnyChannel _ _ => "查询会话成员失败: "

def Tables.ask (db : Tables) : (q : Query) → q.Answer
  | .fileReferenceChannels f => db.fileReferenceChannels f
  | .liveChannelOfMessage id => db.liveChannelOfMessage id
  | .isMemberOfAnyChannel cs u => db.isMemberOfAnyChannel cs u

abbrev Query.Res (q : Query) : Type := Except ServerError q.Answer

/-- The answer to a query, unless it fails. -/
def Tables.query (db : Tables) (fails : Query → Option String) (q : Query) : q.Res :=
  match fails q with
  | some e => .error (.database (q.failure ++ e))
  | none => .ok (db.ask q)

inductive CandidateSource
  | referenceTable | legacyBusinessId | pendingUpload

structure AttachmentAccessDecision where
  authorized : Bool
  source : CandidateSource
  candidateCount : ℕ

inductive AttachmentAccessError
  | unavailable (text : String)

structure FileAccessFacts where
  requesterId : UserId
  uploaderId : UserId
  hasAnyReference : Bool
  requesterIsMemberOfALiveReference : Bool

def authorizeFileAccess (facts : FileAccessFacts) : Bool :=
  if facts.hasAnyReference then facts.requesterIsMemberOfALiveReference
  else facts.requesterId == facts.uploaderId

variable (file : FileMetadata)

/-- The message the business id stands for, if it is read as the number of a message. What
the business is does not matter. -/
def legacyMessageId : Option MessageId :=
  (file.businessId.bind fun s => Text.parseU64 s.toList).filter (0 < ·)

abbrev Check := Prog Query Query.Res AttachmentAccessError

def orUnavailable {α : Type} : Except ServerError α → Check α
  | .ok a => .ret a
  | .error e => .fail (.unavailable e.display)

def lookup (q : Query) : Check q.Answer := .call q orUnavailable

/-- What was found out about the references of a file. -/
structure Found where
  candidates : List (ChannelId × Bool)
  source : CandidateSource
  brokenBinding : Bool

/-- The message the business id stands for is looked up, and is the only candidate. -/
def foundAt : Option (ChannelId × Bool) → Found
  | some entry => ⟨[entry], .legacyBusinessId, false⟩
  | none => ⟨[], .legacyBusinessId, true⟩

def byBusinessId : Check Found :=
  match legacyMessageId file with
  | none => pure ⟨[], .pendingUpload, false⟩
  | some id => do
    let entry ← lookup (.liveChannelOfMessage id)
    pure (foundAt entry)

def discover : Check Found := do
  let candidates ← lookup (.fileReferenceChannels file.fileId)
  if candidates.isEmpty then byBusinessId file
  else pure ⟨candidates, .referenceTable, false⟩

def Found.liveChannels (found : Found) : List ChannelId :=
  (found.candidates.filter (·.2)).map (·.1)

/-- No query is made about no channels. -/
def memberOfAny (cs : List ChannelId) (u : UserId) : Check Bool :=
  if cs.isEmpty then pure false else lookup (.isMemberOfAnyChannel cs u)

def Found.decide (found : Found) (file : FileMetadata) (requester : UserId) (isMember : Bool) :
    AttachmentAccessDecision where
  authorized := authorizeFileAccess
    ⟨requester, file.uploaderId, !found.candidates.isEmpty || found.brokenBinding, isMember⟩
  source := found.source
  candidateCount := found.candidates.length

def resolveAttachmentAccess (requester : UserId) : Check AttachmentAccessDecision := do
  let found ← discover file
  let isMember ← memberOfAny found.liveChannels requester
  pure (found.decide file requester isMember)

section Entitlement

variable (db : Tables)

/-- The message references the file. A deleted or a revoked message is still one that has. -/
def Refers (f : FileId) (key : MessageId × Millis) (m : MessageRow) : Prop :=
  db.messages.get key = some m ∧ ∃ rk ref, db.messageFileRefs.get rk = some ref ∧
    rk.messageId = key.1 ∧ ref.messageCreatedAt = key.2 ∧ ref.fileId = f

def Referenced (f : FileId) : Prop := ∃ key m, Refers db f key m

def Member (c : ChannelId) (u : UserId) : Prop :=
  ∃ row, db.channels.get c = some row ∧ db.countsMember c row u = true

/-- A message that is neither deleted nor revoked shows the file in a channel of the user's. -/
def Shown (f : FileId) (u : UserId) : Prop :=
  ∃ key m, Refers db f key m ∧ m.deleted = false ∧ m.revoked = false ∧ Member db m.channelId u

def Entitled (file : FileMetadata) (u : UserId) : Prop :=
  Shown db file.fileId u ∨ ¬ Referenced db file.fileId ∧ u = file.uploaderId

variable (fails : Query → Option String)

def lookups (file : FileMetadata) (u : UserId) : List Query :=
  (resolveAttachmentAccess file u).asked (db.query fails)

def Authorises (file : FileMetadata) (u : UserId) : Prop :=
  ∃ d, (resolveAttachmentAccess file u).answered (db.query fails) = .ok d ∧ d.authorized = true

/-- The check is exact: when no query of it fails it authorises those entitled and nobody else,
and when one fails it authorises nobody. -/
structure Exact (file : FileMetadata) (u : UserId) : Prop where
  authorises_iff : (∀ q ∈ lookups db fails file u, fails q = none) →
    (Authorises db fails file u ↔ Entitled db file u)
  closed : (∃ q ∈ lookups db fails file u, fails q ≠ none) → ¬ Authorises db fails file u

end Entitlement

section Queries

variable {db : Tables}

end Queries

/-! ### What the check decides when every query answers -/

def Tables.found (db : Tables) (file : FileMetadata) : Found :=
  if (db.fileReferenceChannels file.fileId).isEmpty then
    match legacyMessageId file with
    | none => ⟨[], .pendingUpload, false⟩
    | some id => foundAt (db.liveChannelOfMessage id)
  else ⟨db.fileReferenceChannels file.fileId, .referenceTable, false⟩

def Tables.decision (db : Tables) (file : FileMetadata) (u : UserId) : AttachmentAccessDecision :=
  (db.found file).decide file u (db.isMemberOfAnyChannel (db.found file).liveChannels u)

section Decision

variable {db : Tables} {fails : Query → Option String} {file : FileMetadata} {u : UserId}

end Decision

end PrivChat.Attachments
