import PrivChat.Db.Table

/-!
Channels as the server holds them in memory: direct chats, groups and rooms, their members and
the roles of the members.
-/

namespace PrivChat.Channels

open Db

abbrev UserId := ℕ
abbrev ChannelId := ℕ
abbrev GroupId := ℕ
abbrev Millis := ℤ

inductive ServerError
  | database (text : String)
  | notFound (text : String)
  | validation (text : String)
  | permissionDenied (text : String)
  | forbidden (text : String)
  | internal (text : String)
  | duplicate (text : String)
  deriving DecidableEq

def ServerError.display : ServerError → String
  | .database text => s!"Database error: {text}"
  | .notFound text => s!"Not found: {text}"
  | .validation text => s!"Validation error: {text}"
  | .permissionDenied text => s!"Permission denied: {text}"
  | .forbidden text => s!"Forbidden: {text}"
  | .internal text => s!"Internal error: {text}"
  | .duplicate text => s!"Duplicate operation: {text}"

inductive ChannelType
  | direct | group | room
  deriving DecidableEq

def ChannelType.toWire : ChannelType → ℕ
  | .direct => 1
  | .group => 2
  | .room => 3

inductive ChannelStatus
  | active | archived | deleted | banned
  deriving DecidableEq

inductive MemberRole
  | owner | admin | member
  deriving DecidableEq

def MemberRole.isPrivileged : MemberRole → Bool
  | .owner | .admin => true
  | .member => false

structure MemberPermissions where
  canSendMessage : Bool

def MemberPermissions.fromRole : MemberRole → MemberPermissions
  | .owner => ⟨true⟩
  | .admin => ⟨true⟩
  | .member => ⟨true⟩

structure ChannelMember where
  userId : UserId
  role : MemberRole
  permissions : MemberPermissions
  isMuted : Bool
  muteUntil : Option Millis

def ChannelMember.new (u : UserId) (role : MemberRole) : ChannelMember :=
  ⟨u, role, .fromRole role, false, none⟩

structure ChannelMetadata where
  allowInvite : Bool := true
  maxMembers : Option ℕ := none

structure Channel where
  id : ChannelId
  channelType : ChannelType
  status : ChannelStatus
  members : Table UserId ChannelMember
  metadata : ChannelMetadata
  directUser1Id : Option UserId
  directUser2Id : Option UserId
  groupId : Option GroupId

namespace Channel

def newGroup (id : ChannelId) (creator : UserId) : Channel where
  id := id
  channelType := .group
  status := .active
  members := Table.empty.put creator (.new creator .owner)
  metadata := {}
  directUser1Id := none
  directUser2Id := none
  groupId := some id

variable (c : Channel)

def isActive : Bool := decide (c.status = .active)

def addMember (u : UserId) (role : Option MemberRole) : Except String Channel :=
  if (c.members.get u).isSome then .error "Member already exists"
  else if c.metadata.maxMembers.any fun max => decide (max ≤ c.members.size) then
    .error "Maximum members limit reached"
  else if c.channelType = .direct ∧ role.getD .member ≠ .member then
    .error "Direct channels only support member role"
  else .ok { c with members := c.members.put u (.new u (role.getD .member)) }

def removeMember (u : UserId) : Except String Channel :=
  if (c.members.get u).any fun m => decide (m.role = .owner) then .error "Cannot remove owner"
  else if c.channelType = .direct then .error "Cannot remove members from direct channels"
  else if (c.members.get u).isNone then .error "Member not found"
  else .ok { c with members := c.members.erase u }

def updateMemberRole (u : UserId) (role : MemberRole) : Except String Channel :=
  match c.members.get u with
  | none => .error "Member not found"
  | some m =>
    if c.channelType = .direct then .error "Cannot change roles in direct channels"
    else if m.role = .owner then .error "Cannot change owner role"
    else .ok { c with
      members := c.members.put u { m with role := role, permissions := .fromRole role } }

/-- The members by authority: of a direct channel the two users it is between, whatever the
member map holds; of other channels those in the member map. -/
def getMemberIds : List UserId :=
  if c.channelType = .direct then
    let ids := c.directUser1Id.toList
    match c.directUser2Id with
    | some b => if b ∈ ids then ids else ids ++ [b]
    | none => ids
  else c.members.keyList

def isMember (u : UserId) : Bool :=
  if c.channelType = .direct then
    decide (c.directUser1Id = some u) || decide (c.directUser2Id = some u)
  else (c.members.get u).isSome

end Channel

def muteIsActive (isMuted : Bool) (muteUntil : Option Millis) (now : Millis) : Bool :=
  isMuted && muteUntil.all fun u => decide (now < u)

/-- What a muted sender is told. A mute of fifty years and more counts as permanent. -/
def muteRejectMessage (muteUntil : Option Millis) (now : Millis) : String :=
  match muteUntil with
  | none => "您已被永久禁言"
  | some u =>
    let secs := max ((u - now) / 1000) 0
    if 50 * 365 * 86400 ≤ secs then "您已被永久禁言"
    else if 86400 ≤ secs then
      let days := (secs + 86399) / 86400
      s!"您已被禁言，剩余 {days} 天"
    else if 3600 ≤ secs then
      let hours := (secs + 3599) / 3600
      s!"您已被禁言，剩余 {hours} 小时"
    else
      let minutes := max ((secs + 59) / 60) 1
      s!"您已被禁言，剩余 {minutes} 分钟"

end PrivChat.Channels
