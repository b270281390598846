import PrivChat.Channels.Model
import PrivChat.Db.Routine

/-!
Groups: the rows the database has of a group, and what the server holds of it in memory.

Who is in a group is written down three times. The rows of `members` are the membership, the rows
of `participants` mirror it for delivery, and the member map of the channel object in memory is
what requests are checked against.
-/

namespace PrivChat.Groups

open Db Channels

abbrev RequestId := String

structure GroupRow where
  ownerId : UserId
  memberCount : ℕ

structure GroupMemberRow where
  role : MemberRole
  joinedAt : Millis
  leftAt : Option Millis
  muteUntil : Option Millis

def GroupMemberRow.isActive (row : GroupMemberRow) : Bool := row.leftAt.isNone

structure ChannelRow where
  channelType : ChannelType
  directUser1Id : Option UserId
  directUser2Id : Option UserId
  groupId : Option GroupId

structure ParticipantRow where
  role : MemberRole
  permissions : MemberPermissions
  muteUntil : Option Millis
  leftAt : Option Millis

inductive JoinRequestStatus
  | pending | approved | rejected | expired
  deriving DecidableEq

structure JoinRequestRow where
  status : JoinRequestStatus
  handlerId : Option UserId

/-- The tables, and in memory the channels that are loaded and the channels of each user. -/
structure Store where
  groups : Table GroupId GroupRow
  members : Table (GroupId × UserId) GroupMemberRow
  channels : Table ChannelId ChannelRow
  participants : Table (ChannelId × UserId) ParticipantRow
  joinRequests : Table RequestId JoinRequestRow
  cache : Table ChannelId Channel
  userChannels : Table UserId (List ChannelId)

/-- No groups yet, nothing loaded; there may be other channels, and requests to join. -/
def Store.start (channels : Table ChannelId ChannelRow)
    (joinRequests : Table RequestId JoinRequestRow) : Store where
  groups := .empty
  members := .empty
  channels := channels
  participants := .empty
  joinRequests := joinRequests
  cache := .empty
  userChannels := .empty

/-- What a transaction or a guard locks: rows by their keys, and the two maps in memory. -/
inductive LockKey
  | group (g : GroupId)
  | member (g : GroupId) (u : UserId)
  | channel (c : ChannelId)
  | participant (c : ChannelId) (u : UserId)
  | joinRequest (r : RequestId)
  | cache
  | userChannels
  deriving DecidableEq

/-- The statements, each of which may fail in the database. -/
inductive Statement
  | begin | commit
  | insertGroup | deleteGroup | recomputeCount | selectOwner | updateOwner
  | upsertMember | markLeft | closeInterval | selectMember | updateRole | selectRoles | selectMutes
  | casRequest
  | insertChannel | findChannel | insertUserChannel
  | selectParticipants | upsertParticipant | openInterval
  deriving DecidableEq

/-- What comes from outside: the clock, the values of the sequences (which start at one), which
statements fail and with what text, and the loaded channels from the oldest on. -/
structure Outside where
  now : Millis
  groupSeq : ℕ
  channelSeq : ℕ
  fault : Statement → Option String
  byAge : List ChannelId

/-- Nothing fails, and the sequences are at their start. -/
def calm : Outside := ⟨0, 0, 0, fun _ => none, []⟩

abbrev GroupTx := Tx Store LockKey Outside ServerError

structure ChannelServiceConfig where
  maxChannelsPerUser : ℕ := 1000
  maxGroupMembers : ℕ := 500
  allowPublicGroups : Bool := true

structure CreateChannelRequest where
  name : Option String
  memberIds : List UserId
  isPublic : Option Bool
  maxMembers : Option ℕ

namespace Store

variable (s : Store)

def hasGroup (g : GroupId) : Bool := (s.groups.get g).isSome

def hasChannel (c : ChannelId) : Bool := (s.channels.get c).isSome

def ownerId (g : GroupId) : Option UserId := (s.groups.get g).map (·.ownerId)

def activeRole (g : GroupId) (u : UserId) : Option MemberRole :=
  ((s.members.get (g, u)).filter (·.isActive)).map (·.role)

def isActiveMember (g : GroupId) (u : UserId) : Bool :=
  (s.members.get (g, u)).any (·.isActive)

def activeMembers (g : GroupId) : List ((GroupId × UserId) × GroupMemberRow) :=
  s.members.select fun k row => decide (k.1 = g) && row.isActive

/-- The users whose row of the group is active and has the role of an owner. -/
def activeOwners (g : GroupId) : List UserId :=
  ((s.activeMembers g).filter fun x => decide (x.2.role = .owner)).map (·.1.2)

/-- The users with a row of the group, active or not. -/
def memberIds (g : GroupId) : List UserId :=
  (s.members.select fun k _ => decide (k.1 = g)).map (·.1.2)

def isParticipant (c : ChannelId) (u : UserId) : Bool :=
  (s.participants.get (c, u)).any (·.leftAt.isNone)

def activeParticipants (c : ChannelId) : List ((ChannelId × UserId) × ParticipantRow) :=
  s.participants.select fun k row => decide (k.1 = c) && row.leftAt.isNone

def isPending (r : RequestId) : Bool :=
  (s.joinRequests.get r).any fun row => decide (row.status = .pending)

/-- Some channel row refers to the group. -/
def isReferenced (g : GroupId) : Bool :=
  s.channels.any fun _ row => decide (row.groupId = some g)

end Store

variable (c : ChannelId) (g : GroupId) (u : UserId)

def groupDb (row : GroupRow) (s : Store) : Store :=
  { s with groups := s.groups.put g row }

def ownerDb (s : Store) : Store :=
  { s with groups := s.groups.modify g fun row => { row with ownerId := u } }

def countDb (n : ℕ) (s : Store) : Store :=
  { s with groups := s.groups.modify g fun row => { row with memberCount := n } }

/-- A new row, or the row there is: its role is overwritten, and if the user had left it starts
anew. -/
def upsertRow (role : MemberRole) (now : Millis) : Option GroupMemberRow → GroupMemberRow
  | none => ⟨role, now, none, none⟩
  | some row => { row with
    role := role
    joinedAt := if row.isActive then row.joinedAt else now
    leftAt := none }

/-- A row refers to its group. While the insert is uncommitted the group cannot be deleted; a delete
that comes first leaves nothing to insert under. -/
def upsertDb (role : MemberRole) (now : Millis) (s : Store) : Store :=
  if s.hasGroup g then
    { s with members := s.members.put (g, u) (upsertRow role now (s.members.get (g, u))) }
  else s

def leftDb (now : Millis) (s : Store) : Store :=
  { s with members := s.members.modify (g, u) fun row =>
      if row.isActive then { row with leftAt := some now } else row }

def roleDb (role : MemberRole) (s : Store) : Store :=
  { s with members := s.members.modify (g, u) fun row =>
      if row.isActive then { row with role := role } else row }

/-- The group goes, and its member rows with it. -/
def dropGroupDb (s : Store) : Store :=
  { s with
    groups := s.groups.erase g
    members := s.members.deleteWhere fun k _ => decide (k.1 = g) }

def approvedDb (r : RequestId) (handler : UserId) (s : Store) : Store :=
  { s with joinRequests := s.joinRequests.modify r fun row =>
      { row with status := .approved, handlerId := some handler } }

def channelDb (row : ChannelRow) (s : Store) : Store :=
  { s with channels := s.channels.put c row }

/-- The default rights of a mirror row are those of a member without any settings. -/
def participantRow (role : MemberRole) : Option ParticipantRow → ParticipantRow
  | none => ⟨role, ⟨true⟩, none, none⟩
  | some row => { row with role := role, leftAt := none }

def participantDb (role : MemberRole) (s : Store) : Store :=
  { s with participants :=
      s.participants.put (c, u) (participantRow role (s.participants.get (c, u))) }

def cacheDb (ch : Channel) (s : Store) : Store :=
  { s with cache := s.cache.put c ch }

def evictDb (cs : List ChannelId) (s : Store) : Store :=
  { s with cache := s.cache.deleteWhere fun c _ => decide (c ∈ cs) }

def userChannelsDb (f : List ChannelId → List ChannelId) (s : Store) : Store :=
  { s with userChannels := s.userChannels.put u (f ((s.userChannels.get u).getD [])) }

def ChannelRow.ofChannel (ch : Channel) : ChannelRow :=
  ⟨ch.channelType, ch.directUser1Id, ch.directUser2Id, ch.groupId⟩

/-- The object of a row, still without members. -/
def ChannelRow.toChannel (row : ChannelRow) : Channel where
  id := c
  channelType := row.channelType
  status := .active
  members := .empty
  metadata := {}
  directUser1Id := row.directUser1Id
  directUser2Id := row.directUser2Id
  groupId := row.groupId

def ParticipantRow.toChannelMember (now : Millis) (row : ParticipantRow) : ChannelMember :=
  ⟨u, row.role, row.permissions, row.muteUntil.any fun t => decide (now < t), row.muteUntil⟩

def withParticipants (now : Millis) (rows : List ((ChannelId × UserId) × ParticipantRow))
    (ch : Channel) : Channel :=
  let put := fun (t : Table UserId ChannelMember) (x : (ChannelId × UserId) × ParticipantRow) =>
    t.put x.1.2 (x.2.toChannelMember x.1.2 now)
  { ch with members := rows.foldl put ch.members }

/-- The roles of the membership overwrite those of the mirror, for users that are in both. -/
def applyGroupRoleTruth (truth : List (UserId × MemberRole)) (ch : Channel) : Channel :=
  let repair := fun (t : Table UserId ChannelMember) (x : UserId × MemberRole) =>
    t.modify x.1 fun m => if m.role = x.2 then m else { m with role := x.2 }
  { ch with members := truth.foldl repair ch.members }

def applyMutes (now : Millis) (mutes : List (UserId × Option Millis)) (ch : Channel) : Channel :=
  let mute := fun (t : Table UserId ChannelMember) (x : UserId × Option Millis) =>
    if muteIsActive true x.2 now then
      t.modify x.1 fun m => { m with isMuted := true, muteUntil := x.2 }
    else t
  { ch with members := mutes.foldl mute ch.members }

/-- Members that cannot be added are left out. -/
def addMembers (ids : List UserId) (ch : Channel) : Channel :=
  ids.foldl (fun ch u => (ch.addMember u none).toOption.getD ch) ch

def groupChannel (cfg : ChannelServiceConfig) (g : GroupId) (creator : UserId)
    (req : CreateChannelRequest) : Channel :=
  let ch := Channel.newGroup g creator
  addMembers req.memberIds { ch with
    metadata := { ch.metadata with
      maxMembers := some (req.maxMembers.getD cfg.maxGroupMembers) } }

end PrivChat.Groups
