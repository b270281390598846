import PrivChat.Groups.Model

/-!
The functions of the channel service that create groups, change their membership, and load and
drop the channel objects in memory, and their statements: the helpers that run inside a transaction
of their caller, the channel repository, and the maps in memory.

A statement that updates a row locks it first, and so does `FOR UPDATE`; a plain `SELECT` locks
nothing, and what it has seen may have changed by the time of the commit.
-/

namespace PrivChat.Groups

open Db Channels Tx

/-- The statement goes to the database, and may fail there. -/
def sql (st : Statement) (context : String) : GroupTx Unit := do
  let fault ← observe fun o => o.fault st
  match fault with
  | some e => fail (.database s!"{context}: {e}")
  | none => ret ()

def foreignKeyViolation (table key : String) : String :=
  s!"error returned from database: insert or update on table \"{table}\" " ++
    s!"violates foreign key constraint \"{key}\""

def uniqueViolation (key : String) : String :=
  s!"error returned from database: duplicate key value violates unique constraint \"{key}\""

variable (g : GroupId) (creator : UserId) (c : ChannelId) (u : UserId) (ch : Channel)

def upsertOneMemberInTx (role : MemberRole) (now : Millis) : GroupTx Unit := do
  sql .upsertMember "插入/复活群成员失败"
  acquire (.member g u)
  let known ← peek (fun _ _ => True) fun s => s.hasGroup g
  let text := foreignKeyViolation "privchat_group_members" "privchat_group_members_group_id_fkey"
  ensure known (.database s!"插入/复活群成员失败: {text}")
  update (upsertDb g u role now)

def recomputeGroupMemberCountInTx : GroupTx Unit := do
  sql .recomputeCount "重算群成员数失败"
  acquire (.group g)
  let n ← peek (fun _ _ => True) fun s => (s.activeMembers g).length
  update (countDb g n)

def unseen (seen : List UserId) : List UserId → List UserId
  | [] => []
  | u :: us => if u ∈ seen then unseen seen us else u :: unseen (u :: seen) us

def upsertGroupMembersInTx (owner : UserId) (ids : List UserId) (now : Millis) : GroupTx Unit := do
  upsertOneMemberInTx g owner .owner now
  forEach (fun u => upsertOneMemberInTx g u .member now) (unseen [owner] ids)
  recomputeGroupMemberCountInTx g

def markOneMemberLeftInTx (now : Millis) : GroupTx Bool := do
  sql .markLeft "标记群成员离开失败"
  acquire (.member g u)
  let active ← query fun s => s.isActiveMember g u
  update (leftDb g u now)
  if active then do
    sql .closeInterval "关闭成员区间失败"
    return true
  else return false

/-- The id is the next of the sequence. -/
def insertGroup : GroupTx (Except String GroupId) := do
  let fault ← observe fun o => o.fault .insertGroup
  match fault with
  | some e => return .error s!"创建群组记录失败: {e}"
  | none => do
    let seq ← observe fun o => o.groupSeq
    acquire (.group (seq + 1))
    let taken ← query fun s => s.hasGroup (seq + 1)
    if taken then do
      let text := uniqueViolation "privchat_groups_pkey"
      return .error s!"创建群组记录失败: {text}"
    else do
      update (groupDb (seq + 1) ⟨creator, 0⟩)
      return .ok (seq + 1)

/-- The id is given. A group that is there is left as it is. -/
def insertGroupWithId : GroupTx (Except String GroupId) := do
  let fault ← observe fun o => o.fault .insertGroup
  match fault with
  | some _ => return .error s!"无法创建群组记录：用户 {creator} 可能不存在于数据库中"
  | none => do
    acquire (.group g)
    let taken ← query fun s => s.hasGroup g
    if taken then return .error s!"群组 {g} 已存在"
    else do
      update (groupDb g ⟨creator, 0⟩)
      return .ok g

/-- The row of the group, the rows of its first members and their number, all at once. -/
def createGroupTx (insert : GroupTx (Except String GroupId)) (creator : UserId)
    (ids : List UserId) : GroupTx (Except String GroupId) := do
  let begun ← observe fun o => o.fault .begin
  match begun with
  | some e => return .error s!"创建群组失败: {e}"
  | none => do
    let now ← observe fun o => o.now
    let inserted ← insert
    match inserted with
    | .error text => do
      undo
      return .error text
    | .ok g => do
      let upserted ← (upsertGroupMembersInTx g creator ids now).attempt
      match upserted with
      | .error e => do
        undo
        let text := e.display
        return .error s!"群成员落库失败: {text}"
      | .ok _ => do
        let committed ← observe fun o => o.fault .commit
        match committed with
        | some e => do
          undo
          return .error s!"提交群组事务失败: {e}"
        | none => do
          done
          return .ok g

/-- The group has rows for the same users. -/
def SameRows (s s' : Store) : Prop :=
  ∀ u, (s'.members.get (g, u)).isSome = (s.members.get (g, u)).isSome

/-- Delete the row of a group. The member rows go with it, and are locked for that. -/
def deleteGroup : GroupTx Unit := do
  sql .deleteGroup "DELETE FROM privchat_groups"
  acquire (.group g)
  let ids ← peek (SameRows g) fun s => s.memberIds g
  forEach (fun u => acquire (.member g u)) ids
  let referenced ← peek (fun _ _ => True) fun s => s.isReferenced g
  let text := foreignKeyViolation "privchat_channels" "privchat_channels_group_id_fkey"
  ensure (!referenced) (.database text)
  update (dropGroupDb g)
  done

/-! ### The channel repository -/

def findById : GroupTx (Option ChannelRow) := do
  sql .findChannel "Failed to query channel"
  snapshot fun s => s.channels.get c

def findCreated : GroupTx ChannelId := do
  let row ← (findById c).invoke
  match row with
  | some _ => return c
  | none => fail (.notFound "Channel not found after creation")

/-- Insert a row under an id that is free. -/
def insertChannel : GroupTx ChannelId := do
  let known ← peek (fun _ _ => True) fun s => ch.groupId.all fun g => s.hasGroup g
  let text := foreignKeyViolation "privchat_channels" "privchat_channels_group_id_fkey"
  ensure known (.database s!"Failed to create channel: {text}")
  update (channelDb c (.ofChannel ch))
  done
  (findCreated c).invoke

/-- Save a channel, under an id of the sequence if it has none. A row that is there already is
never overwritten: it must be the row of the same group, and is left as it is. -/
def channelRepositoryCreate : GroupTx ChannelId :=
  if ch.id = 0 then do
    sql .insertChannel "Failed to create channel"
    let seq ← observe fun o => o.channelSeq
    acquire (.channel (seq + 1))
    let taken ← query fun s => s.hasChannel (seq + 1)
    let text := uniqueViolation "privchat_channels_pkey"
    ensure (!taken) (.database s!"Failed to create channel: {text}")
    insertChannel (seq + 1) ch
  else do
    sql .insertChannel "Failed to create channel"
    acquire (.channel ch.id)
    let taken ← query fun s => s.hasChannel ch.id
    if taken then do
      undo
      let row ← (findById ch.id).invoke
      let id := ch.id
      let same := row.any fun r =>
        decide (r.channelType = ch.channelType) && decide (r.groupId = ch.groupId)
      ensure same (.database s!"channel_id {id} already taken by another conversation")
      return ch.id
    else insertChannel ch.id ch

def getParticipants : GroupTx (List ((ChannelId × UserId) × ParticipantRow)) := do
  sql .selectParticipants "Failed to query participants"
  snapshot fun s => s.activeParticipants c

def addParticipant (role : MemberRole) : GroupTx Unit := do
  sql .upsertParticipant "Failed to add participant"
  acquire (.participant c u)
  let known ← peek (fun _ _ => True) fun s => s.hasChannel c
  let text := foreignKeyViolation "privchat_channel_participants"
    "privchat_channel_participants_channel_id_fkey"
  ensure known (.database s!"Failed to add participant: {text}")
  update (participantDb c u role)
  done
  sql .openInterval "Failed to open membership interval"

/-- Mirror the members of a channel object. A row that cannot be written is passed over. -/
def addParticipants : GroupTx Unit :=
  forEach (fun x => (addParticipant c x.1 x.2.role).call >>= fun _ => .ret ())
    (ch.members.select fun _ _ => true)

def groupRoles : GroupTx (List (UserId × MemberRole)) := do
  sql .selectRoles "hydrate member roles failed"
  snapshot fun s => (s.activeMembers g).map fun x => (x.1.2, x.2.role)

def groupMutes : GroupTx (List (UserId × Option Millis)) := do
  sql .selectMutes "hydrate member mutes failed"
  snapshot fun s => ((s.activeMembers g).filter fun x => x.2.muteUntil.isSome).map fun x =>
    (x.1.2, x.2.muteUntil)

/-- The rows of the channel lists of the users. Nothing here reads them; that the channel row is
there is a condition. -/
def ensureUserChannelRows (c : ChannelId) : List UserId → GroupTx Unit
  | [] => ret ()
  | u :: us => do
    let context := s!"ensure privchat_user_channels failed for user={u} channel={c}"
    sql .insertUserChannel context
    let known ← snapshot fun s => s.hasChannel c
    let text :=
      foreignKeyViolation "privchat_user_channels" "privchat_user_channels_channel_id_fkey"
    ensure known (.database s!"{context}: {text}")
    ensureUserChannelRows c us

def cacheChannel : GroupTx Unit := do
  acquire .cache
  update (cacheDb c ch)
  done

/-- The channel joins the lists of the users. -/
def indexChannel (users : List UserId)
    (push : ChannelId → List ChannelId → List ChannelId) : GroupTx Unit := do
  acquire .userChannels
  update fun s => users.foldl (fun s u => userChannelsDb u (push c) s) s
  done

def pushChannel (cs : List ChannelId) : List ChannelId := cs ++ [c]

def pushNewChannel (cs : List ChannelId) : List ChannelId :=
  if c ∈ cs then cs else cs ++ [c]

/-- The channel leaves the list of the user, if there is one. -/
def unindexChannel : GroupTx Unit := do
  acquire .userChannels
  update fun s => { s with userChannels := s.userChannels.modify u fun cs => cs.filter (· ≠ c) }
  done

/-- What a function returns: nothing, a flag, the answer to a request for a new group, a channel
object, or the number of objects dropped. -/
inductive Reply
  | unit
  | flag (b : Bool)
  | created (ch : Channel)
  | refused (error : String)
  | found (ch : Option Channel)
  | evicted (n : ℕ)

def Reply.isSuccess : Reply → Bool
  | .unit | .created _ | .found _ | .evicted _ => true
  | .flag b => b
  | .refused _ => false

/-! ### Creation -/

variable (cfg : ChannelServiceConfig)

/-- What is wrong with the request of a user who has so many channels in memory. -/
def validateCreateRequest (owned : Option ℕ) (req : CreateChannelRequest) : Option String :=
  if owned.any fun n => decide (cfg.maxChannelsPerUser ≤ n) then
    some "Maximum channels per user limit reached"
  else if req.name.isNone then some "Group channel must have a name"
  else if !cfg.allowPublicGroups && req.isPublic.getD false then
    some "Public groups are not allowed"
  else if req.maxMembers.any fun n => decide (cfg.maxGroupMembers < n) then
    some "Maximum group members limit exceeded"
  else none

variable (c : ChannelId) (g : GroupId) (ch : Channel) (u : UserId) (role : MemberRole)
  (now : Millis)

def ownedChannels : GroupTx (Option ℕ) :=
  snapshot fun s => (s.userChannels.get u).map (·.length)

/-- The group is there; save its channel, mirror its members and load it. -/
def saveGroup : GroupTx Reply := do
  let created ← (channelRepositoryCreate ch).call
  match created with
  | .error e => do
    let _ ← (deleteGroup g).call
    let text := e.display
    return .refused s!"创建会话失败: {text}"
  | .ok c => do
    (addParticipants c ch).invoke
    let ch := { ch with id := c }
    (cacheChannel c ch).invoke
    (ensureUserChannelRows c ch.getMemberIds).invoke
    (indexChannel c ch.getMemberIds pushNewChannel).invoke
    return .created ch

def createChannel (creator : UserId) (req : CreateChannelRequest) : GroupTx Reply := do
  let owned ← (ownedChannels creator).invoke
  match validateCreateRequest cfg owned req with
  | some error => return .refused error
  | none =>
    if req.name.isNone then return .refused "Group channel must have a name"
    else do
      let group ← (createGroupTx (insertGroup creator) creator req.memberIds).invoke
      match group with
      | .error text => return .refused text
      | .ok g => (saveGroup g (groupChannel cfg g creator req)).invoke

/-- A channel that is loaded but has no row gets one. -/
def restoreRow : GroupTx Unit := do
  let row ← (findById c).call
  match row with
  | .ok (some _) => return ()
  | _ => do
    let created ← (channelRepositoryCreate ch).call
    match created with
    | .error _ => return ()
    | .ok _ => (addParticipants c ch).invoke

/-- The members are mirrored if the channel was saved. -/
def mirrorSaved : Except ServerError ChannelId → GroupTx Unit
  | .error _ => ret ()
  | .ok _ => addParticipants c ch

/-- Save the channel of a group with a given id. A row that cannot be written is passed over. -/
def saveGroupWithId : GroupTx Reply := do
  let created ← (channelRepositoryCreate ch).call
  let ids := ch.members.keyList
  (mirrorSaved c ch created).invoke
  (cacheChannel c ch).invoke
  (ensureUserChannelRows c ids).invoke
  (indexChannel c ids pushChannel).invoke
  return .created ch

def createChannelWithId (c : ChannelId) (creator : UserId)
    (req : CreateChannelRequest) : GroupTx Reply := do
  let loaded ← snapshot fun s => s.cache.get c
  match loaded with
  | some ch => do
    (restoreRow c ch).invoke
    return .created ch
  | none => do
    let owned ← (ownedChannels creator).invoke
    match validateCreateRequest cfg owned req with
    | some error => return .refused error
    | none => do
      let group ← (createGroupTx (insertGroupWithId c creator) creator req.memberIds).invoke
      match group with
      | .error text => return .refused text
      | .ok g => (saveGroupWithId g (groupChannel cfg g creator req)).invoke

/-- The object in memory takes the user in. -/
def joinCached (role : Option MemberRole) : GroupTx (Option ChannelType) := do
  acquire .cache
  let loaded ← query fun s => s.cache.get c
  match loaded with
  | none => return none
  | some ch =>
    if !ch.isActive then return none
    else if !ch.metadata.allowInvite && decide (ch.channelType = .group) then return none
    else
      match ch.addMember u role with
      | .error _ => return none
      | .ok ch' => do
        update (cacheDb c ch')
        done
        return some ch.channelType

def joinGroup : GroupTx Unit := do
  let now ← observe fun o => o.now
  sql .begin "开启加群事务失败"
  upsertOneMemberInTx g u role now
  recomputeGroupMemberCountInTx g
  sql .commit "提交加群事务失败"
  done

def joinChannel (role : Option MemberRole) : GroupTx Bool := do
  let joined ← (joinCached c u role).invoke
  match joined with
  | none => return false
  | some type => do
    (if type = .group then joinGroup c u (role.getD .member) else ret ()).invoke
    (ensureUserChannelRows c [u]).invoke
    (indexChannel c [u] pushChannel).invoke
    return true

/-- The request is pending and is approved, and the user is a member, both or neither. -/
def approveGroup (r : RequestId) (g : GroupId) (u handler : UserId) (now : Millis) :
    GroupTx Bool := do
  sql .begin "开启审批事务失败"
  sql .casRequest "审批 CAS 失败"
  acquire (.joinRequest r)
  let pending ← query fun s => s.isPending r
  if pending then do
    update (approvedDb r handler)
    upsertOneMemberInTx g u .member now
    recomputeGroupMemberCountInTx g
    sql .commit "提交审批事务失败"
    done
    return true
  else do
    undo
    return false

def approveCached : GroupTx Unit := do
  acquire .cache
  update fun s => { s with cache := s.cache.modify g fun ch =>
    (ch.addMember u (some .member)).toOption.getD ch }
  done

def approveJoinRequestInTx (r : RequestId) (g : GroupId) (u handler : UserId) (now : Millis) :
    GroupTx Bool := do
  let approved ← (approveGroup r g u handler now).invoke
  if approved then do
    (approveCached g u).invoke
    (ensureUserChannelRows g [u]).invoke
    (indexChannel g [u] pushNewChannel).invoke
    return true
  else return false

def leaveCached : GroupTx (Option ChannelType) := do
  acquire .cache
  let loaded ← query fun s => s.cache.get c
  match loaded with
  | none => return none
  | some ch =>
    match ch.removeMember u with
    | .error _ => return none
    | .ok ch' => do
      update (cacheDb c ch')
      done
      return some ch.channelType

def leaveGroup : GroupTx Unit := do
  let now ← observe fun o => o.now
  sql .begin "开启退群事务失败"
  let left ← markOneMemberLeftInTx g u now
  if left then do
    recomputeGroupMemberCountInTx g
    sql .commit "提交退群事务失败"
    done
  else do
    sql .commit "提交退群事务失败"
    done

def leaveChannel : GroupTx Bool := do
  let left ← (leaveCached c u).invoke
  match left with
  | none => return false
  | some type => do
    (if type = .group then leaveGroup c u else ret ()).invoke
    (unindexChannel c u).invoke
    return true

def setMemberRole : GroupTx Unit := do
  acquire .cache
  let loaded ← query fun s => s.cache.get c
  match loaded with
  | none => fail (.notFound s!"Channel not found: {c}")
  | some ch =>
    match ch.updateMemberRole u role with
    | .error text => fail (.validation text)
    | .ok ch' => do
      update (cacheDb c ch')
      done

def transferTx (owner newOwner : UserId) : GroupTx Unit := do
  sql .begin "开启转让群主事务失败"
  sql .selectOwner "查询群主失败"
  acquire (.group g)
  let current ← query fun s => s.ownerId g
  let current ← orFail current (.notFound s!"群组 {g} 不存在")
  ensure (decide (current = owner)) (.permissionDenied "只有群主可以转让群主权限")
  sql .selectMember "查询新群主成员身份失败"
  acquire (.member g newOwner)
  let active ← query fun s => s.isActiveMember g newOwner
  ensure active (.validation "新群主不是群组成员")
  sql .updateRole "更新群成员角色失败"
  acquire (.member g owner)
  update (roleDb g owner .member)
  sql .updateRole "更新群成员角色失败"
  acquire (.member g newOwner)
  update (roleDb g newOwner .owner)
  sql .updateOwner "更新群 owner_id 失败"
  acquire (.group g)
  update (ownerDb g newOwner)
  sql .commit "提交转让群主事务失败"
  done

def transferGroupOwner (owner newOwner : UserId) : GroupTx Unit :=
  if owner = newOwner then fail (.validation "不能把群主转让给自己")
  else do
    (transferTx g owner newOwner).invoke
    let _ ← (setMemberRole g owner .member).call
    let _ ← (setMemberRole g newOwner .owner).call
    return ()

def addMemberTx : GroupTx Unit := do
  let now ← observe fun o => o.now
  sql .begin "开启事务失败"
  sql .selectMember "查询群组成员失败"
  let active ← peek (fun _ _ => True) fun s => s.isActiveMember g u
  ensure (!active) (.validation s!"用户 {u} 已是群组 {g} 的成员")
  upsertOneMemberInTx g u .member now
  recomputeGroupMemberCountInTx g
  sql .commit "提交事务失败"
  done

def addMemberAdmin : GroupTx Unit := do
  (addMemberTx g u).invoke
  let _ ← (joinChannel g u none).call
  return ()

def removeMemberAdmin : GroupTx Unit := do
  let now ← observe fun o => o.now
  sql .begin "开启事务失败"
  let left ← markOneMemberLeftInTx g u now
  ensure left (.notFound s!"群组 {g} 中不存在活跃成员 {u}")
  recomputeGroupMemberCountInTx g
  sql .commit "提交事务失败"
  done

def setRoleTx : GroupTx Unit := do
  sql .begin "开启事务失败"
  sql .selectMember "查询成员当前角色失败"
  let current ← peek (fun _ _ => True) fun s => s.activeRole g u
  let current ← orFail current (.notFound s!"群组 {g} 中不存在活跃成员 {u}")
  ensure (decide (current ≠ .owner)) (.validation "禁止修改群主角色（请走转让群主流程）")
  sql .updateRole "更新群成员角色失败"
  acquire (.member g u)
  update (roleDb g u role)
  sql .commit "提交事务失败"
  done

def setMemberRoleAdmin : GroupTx Unit :=
  if role = .owner then fail (.validation "禁止通过此接口将成员设为 Owner（请走转让群主流程）")
  else do
    (setRoleTx g u role).invoke
    let _ ← (setMemberRole g u role).call
    return ()

/-- The request mirrors the user first, and then has them join. -/
def addGroupMember : GroupTx Bool := do
  let _ ← (addParticipant g u role).call
  let joined ← (joinChannel g u none).call
  match joined with
  | .error e => do
    let inner := e.display
    let text := (ServerError.internal s!"添加成员失败: {inner}").display
    fail (.internal s!"添加群组成员失败: {text}")
  | .ok _ =>
    if role = .member then return true
    else do
      let _ ← (setMemberRole g u role).call
      return true

/-- Drop the oldest objects that are too many. -/
def evictStaleMemory (maxChannels : ℕ) : GroupTx ℕ := do
  acquire .cache
  let overflow ← query fun s => s.cache.size - maxChannels
  let byAge ← observe fun o => o.byAge
  update (evictDb (byAge.take overflow))
  done
  return (byAge.take overflow).length

/-- A group's object takes the roles and the mutes from the membership. -/
def hydrateGroup (ch : Channel) : GroupTx Channel :=
  if ch.channelType = .group then do
    let g := ch.groupId.getD ch.id
    let roles ← (groupRoles g).call
    let ch := applyGroupRoleTruth (roles.toOption.getD []) ch
    let mutes ← (groupMutes g).call
    return applyMutes now (mutes.toOption.getD []) ch
  else return ch

/-- The object is built from its row and the mirror, and stays loaded. -/
def loadChannel (row : ChannelRow) : GroupTx Channel := do
  let participants ← (getParticipants c).call
  let now ← observe fun o => o.now
  let ch := withParticipants now (participants.toOption.getD []) (row.toChannel c)
  let ch ← (hydrateGroup now ch).invoke
  (cacheChannel c ch).invoke
  return ch

def getChannelOpt : GroupTx (Option Channel) := do
  let loaded ← snapshot fun s => s.cache.get c
  match loaded with
  | some ch => return some ch
  | none => do
    let row ← (findById c).call
    match row with
    | .ok (some row) => do
      let ch ← (loadChannel c row).invoke
      return some ch
    | _ => return none

inductive Job
  | createChannel (creator : UserId) (req : CreateChannelRequest)
  | createChannelWithId (c : ChannelId) (creator : UserId) (req : CreateChannelRequest)
  | joinChannel (c : ChannelId) (u : UserId) (role : Option MemberRole)
  | approveJoinRequestInTx (r : RequestId) (g : GroupId) (u handler : UserId) (now : Millis)
  | leaveChannel (c : ChannelId) (u : UserId)
  | transferGroupOwner (g : GroupId) (owner newOwner : UserId)
  | addMemberAdmin (g : GroupId) (u : UserId)
  | removeMemberAdmin (g : GroupId) (u : UserId)
  | setMemberRoleAdmin (g : GroupId) (u : UserId) (role : MemberRole)
  | addGroupMember (g : GroupId) (u : UserId) (role : MemberRole)
  | evictStaleMemory (maxChannels : ℕ)
  | getChannelOpt (c : ChannelId)

def prog : Job → GroupTx Reply
  | .createChannel creator req => createChannel cfg creator req
  | .createChannelWithId c creator req => createChannelWithId cfg c creator req
  | .joinChannel c u role => Reply.flag <$> joinChannel c u role
  | .approveJoinRequestInTx r g u handler now =>
    Reply.flag <$> approveJoinRequestInTx r g u handler now
  | .leaveChannel c u => Reply.flag <$> leaveChannel c u
  | .transferGroupOwner g owner newOwner =>
    (fun _ => Reply.unit) <$> transferGroupOwner g owner newOwner
  | .addMemberAdmin g u => (fun _ => Reply.unit) <$> addMemberAdmin g u
  | .removeMemberAdmin g u => (fun _ => Reply.unit) <$> removeMemberAdmin g u
  | .setMemberRoleAdmin g u role => (fun _ => Reply.unit) <$> setMemberRoleAdmin g u role
  | .addGroupMember g u role => Reply.flag <$> addGroupMember g u role
  | .evictStaleMemory maxChannels => Reply.evicted <$> evictStaleMemory maxChannels
  | .getChannelOpt c => Reply.found <$> getChannelOpt c

end PrivChat.Groups
