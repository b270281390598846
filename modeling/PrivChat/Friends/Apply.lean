import PrivChat.Channels.Model
import PrivChat.Checks.Basic
import PrivChat.Text.Decimal

/-!
Who may be asked to be a friend, and the request itself.

A user says how they came upon another: by a search, a QR code, a card, a group or a conversation.
The source has to be real, and the settings of the other user and of the group have to allow it.
What the settings say is read from the database, and reads can fail. A request comes with a grant,
which is a verdict given when the profile was opened, or with a source, which is evaluated now. With
a grant the block list is looked at once more. With a source it is not.
-/

namespace PrivChat.Friends

open Db Channels Checks Text

structure UserPrivacySettings where
  allowAddByGroup : Bool := true
  allowAddByCard : Bool := true
  allowSearchByPhone : Bool := true
  allowSearchByUsername : Bool := true
  allowSearchByEmail : Bool := true
  allowSearchByQrcode : Bool := true

inductive SearchType
  | phone | username | email | qrcode
  deriving DecidableEq

def UserPrivacySettings.allowsSearch (p : UserPrivacySettings) : SearchType → Bool
  | .phone => p.allowSearchByPhone
  | .username => p.allowSearchByUsername
  | .email => p.allowSearchByEmail
  | .qrcode => p.allowSearchByQrcode

/-- The switch for a hit of this kind. Old records do not say how the user was found; then one
switch that is on is enough. -/
def UserPrivacySettings.allowsHit (p : UserPrivacySettings) : Option SearchType → Bool
  | some t => p.allowsSearch t
  | none => p.allowSearchByUsername || p.allowSearchByPhone || p.allowSearchByEmail

inductive UserDetailSource
  | selfProfile
  | search (searchSessionId : ℕ)
  | qrcode (qrKey : String)
  | group (groupId : GroupId)
  | friend (friendId : Option UserId)
  | cardShare (shareId : ℕ)
  | conversation (channelId : ChannelId)

structure SearchRecord where
  searcherId : UserId
  targetId : UserId
  hitBy : Option SearchType
  expiresAt : Millis

inductive QRType
  | user | group | auth | feature
  deriving DecidableEq

structure QRKeyRecord where
  qrType : QRType
  targetId : String
  revoked : Bool
  expireAt : Option Millis

structure CardShareRecord where
  receiverId : UserId
  targetUserId : UserId
  used : Bool

structure GroupPolicy where
  allowMemberAddFriend : Bool

/-- What the reads of a request answer, and the time. In a conversation the channel is read once
more, if it is a group. -/
structure Reads where
  now : Millis
  tryIsFriend : Except ServerError Bool
  getSearchRecord : ℕ → Except ServerError (Option SearchRecord)
  getQrKey : String → Option QRKeyRecord
  getCardShare : ℕ → Except ServerError (Option CardShareRecord)
  getChannel : ChannelId → Except ServerError Channel
  getGroupChannel : GroupId → Except ServerError Channel
  getGroupPolicy : GroupId → Except ServerError (Option GroupPolicy)
  getPrivacySettings : Except ServerError UserPrivacySettings

structure DetailAccessVerdict where
  isFriend : Bool := false
  canAddFriend : Bool
  denyReason : Option String := none
  usernameUnlocked : Bool := false

def DetailAccessVerdict.viewableAndAddable : DetailAccessVerdict := { canAddFriend := true }

def DetailAccessVerdict.viewOnly (reason : String) : DetailAccessVerdict :=
  { canAddFriend := false, denyReason := some reason }

/-- The verdict of a switch. -/
def DetailAccessVerdict.ofSwitch (on : Bool) : DetailAccessVerdict :=
  if on then .viewableAndAddable else .viewOnly "personal_privacy"

variable (r : Reads) (searcher target : UserId)

def evaluateSearchSource (sid : ℕ) : Except ServerError DetailAccessVerdict := do
  let record ← found (.notFound s!"Search record not found: {sid}") (← r.getSearchRecord sid)
  check (record.searcherId = searcher) (.forbidden "Search record does not belong to this user")
  check (record.targetId = target) (.forbidden "Search record target does not match")
  check (r.now ≤ record.expiresAt) (.forbidden "Search record has expired")
  let privacy ← r.getPrivacySettings
  check (privacy.allowsHit record.hitBy) (.forbidden "User does not allow being searched")
  return { canAddFriend := true, usernameUnlocked := record.hitBy = some .username }

def evaluateQrcodeSource (qrKey : String) : Except ServerError DetailAccessVerdict := do
  let record ← found (.forbidden "QR key not found") (r.getQrKey qrKey)
  check (!record.revoked) (.forbidden "QR key has been revoked")
  check (record.expireAt.all fun t => r.now < t) (.forbidden "QR key has expired")
  check (record.qrType = .user) (.forbidden "QR key is not a user card")
  check (record.targetId = toString target) (.forbidden "QR key does not point to this user")
  let privacy ← r.getPrivacySettings
  return .ofSwitch (privacy.allowsSearch .qrcode)

/-- The user is in the member map. -/
def holds (ch : Channel) (u : UserId) : Bool := (ch.members.get u).isSome

def isPrivileged (ch : Channel) (u : UserId) : Bool := (ch.members.get u).any (·.role.isPrivileged)

/-- The policy of the group. If it cannot be read, or there is none, it is the lenient one. -/
def allowMemberAddFriend (g : GroupId) : Bool :=
  match r.getGroupPolicy g with
  | .ok (some p) => p.allowMemberAddFriend
  | .ok none | .error _ => true

def evaluateGroupSource (g : GroupId) : Except ServerError DetailAccessVerdict := do
  let channel ← r.getGroupChannel g
  check (holds channel searcher) (.forbidden s!"User {searcher} is not a member of group {g}")
  check (holds channel target) (.forbidden s!"User {target} is not a member of group {g}")
  if allowMemberAddFriend r g || isPrivileged channel searcher || isPrivileged channel target then
    let privacy ← r.getPrivacySettings
    return .ofSwitch privacy.allowAddByGroup
  else return .viewOnly "group_policy"

def validateCardShareSource (shareId : ℕ) : Except ServerError Unit := do
  let record ← found (.notFound s!"Card share record not found: {shareId}")
    (← r.getCardShare shareId)
  check (record.receiverId = searcher) (.forbidden "Card share record does not belong to this user")
  check (record.targetUserId = target) (.forbidden "Card share record target does not match")
  check (!record.used) (.forbidden "Card share record has already been used")

def evaluateConversation (c : ChannelId) (channel : Channel) :
    Except ServerError DetailAccessVerdict := do
  check (holds channel searcher) (.forbidden s!"User {searcher} is not a member of channel {c}")
  check (holds channel target) (.forbidden s!"User {target} is not a member of channel {c}")
  return .viewableAndAddable

def evaluateSource : UserDetailSource → Except ServerError DetailAccessVerdict
  | .selfProfile => .error (.forbidden "Self source claimed but searcher is not the target")
  | .search sid => evaluateSearchSource r searcher target sid
  | .qrcode qrKey => evaluateQrcodeSource r target qrKey
  | .group g => evaluateGroupSource r searcher target g
  | .friend _ => .error (.forbidden "Friend source claimed but users are not friends")
  | .cardShare shareId => do
    validateCardShareSource r searcher target shareId
    let privacy ← r.getPrivacySettings
    return .ofSwitch privacy.allowAddByCard
  | .conversation c => do
    let channel ← r.getChannel c
    if channel.channelType = .group then evaluateGroupSource r searcher target c
    else evaluateConversation searcher target c channel

def evaluateDetailAccess (source : UserDetailSource) : Except ServerError DetailAccessVerdict :=
  if searcher = target then
    .ok { canAddFriend := false, denyReason := some "self", usernameUnlocked := true }
  else do
    if ← r.tryIsFriend then
      return ⟨true, false, some "already_friend", true⟩
    else evaluateSource r searcher target source

/-! ### When a user may be added -/

/-- The group whose policy governs the source. -/
def governing : UserDetailSource → Option GroupId
  | .group g => some g
  | .conversation c =>
    match r.getChannel c with
    | .ok channel => if channel.channelType = .group then some c else none
    | .error _ => none
  | _ => none

/-- The two are members of this group, and its policy was read and does not forbid it to them. -/
structure GroupAllows (g : GroupId) : Prop where
  common : ∃ ch, r.getGroupChannel g = .ok ch ∧ ch.channelType = .group ∧
    holds ch searcher = true ∧ holds ch target = true ∧
    ∃ p, r.getGroupPolicy g = .ok (some p) ∧
      (p.allowMemberAddFriend || isPrivileged ch searcher || isPrivileged ch target) = true
  personal : ∃ p, r.getPrivacySettings = .ok p ∧ p.allowAddByGroup = true

/-- The source is real for these two users, and what governs it was read and allows it. -/
def SourceAllows : UserDetailSource → Prop
  | .selfProfile | .friend _ => False
  | .search sid => ∃ record p, r.getSearchRecord sid = .ok (some record) ∧
      record.searcherId = searcher ∧ record.targetId = target ∧ r.now ≤ record.expiresAt ∧
      r.getPrivacySettings = .ok p ∧ p.allowsHit record.hitBy = true
  | .qrcode qrKey => ∃ record p, r.getQrKey qrKey = some record ∧ record.qrType = .user ∧
      record.targetId = toString target ∧ record.revoked = false ∧
      (∀ t, record.expireAt = some t → r.now < t) ∧
      r.getPrivacySettings = .ok p ∧ p.allowSearchByQrcode = true
  | .group g => GroupAllows r searcher target g
  | .cardShare shareId => ∃ record p, r.getCardShare shareId = .ok (some record) ∧
      record.receiverId = searcher ∧ record.targetUserId = target ∧ record.used = false ∧
      r.getPrivacySettings = .ok p ∧ p.allowAddByCard = true
  | .conversation c => ∃ channel, r.getChannel c = .ok channel ∧
      if channel.channelType = .group then GroupAllows r searcher target c
      else holds channel searcher = true ∧ holds channel target = true

def Addable (x : Except ServerError DetailAccessVerdict) : Prop :=
  ∃ v, x = .ok v ∧ v.canAddFriend = true

@[simp] lemma addable_error (e : ServerError) : ¬ Addable (.error e) := by
  rintro ⟨v, h, -⟩
  cases h

@[simp] lemma addable_ok (v : DetailAccessVerdict) : Addable (.ok v) ↔ v.canAddFriend = true := by
  simp [Addable]

@[simp] lemma addable_pure (v : DetailAccessVerdict) : Addable (pure v) ↔ v.canAddFriend = true :=
  addable_ok v

@[simp] lemma addable_bind {α : Type} (x : Except ServerError α)
    (f : α → Except ServerError DetailAccessVerdict) :
    Addable (x >>= f) ↔ ∃ a, x = .ok a ∧ Addable (f a) := by
  simp only [Addable, bind_eq_ok]
  constructor
  · rintro ⟨v, ⟨a, hx, hf⟩, hv⟩
    exact ⟨a, hx, v, hf, hv⟩
  · rintro ⟨a, hx, v, hf, hv⟩
    exact ⟨v, ⟨a, hx, hf⟩, hv⟩

@[simp] lemma canAddFriend_ofSwitch (on : Bool) :
    (DetailAccessVerdict.ofSwitch on).canAddFriend = on := by
  cases on <;> rfl

variable {r searcher target} {source : UserDetailSource} {g : GroupId}

/-- The checks of the group source, with the policy as it is read. -/
def GroupPasses (r : Reads) (searcher target : UserId) (g : GroupId) : Prop :=
  ∃ ch, r.getGroupChannel g = .ok ch ∧ holds ch searcher = true ∧ holds ch target = true ∧
    (allowMemberAddFriend r g || isPrivileged ch searcher || isPrivileged ch target) = true ∧
    ∃ p, r.getPrivacySettings = .ok p ∧ p.allowAddByGroup = true

lemma addable_group :
    Addable (evaluateGroupSource r searcher target g) ↔ GroupPasses r searcher target g := by
  simp only [evaluateGroupSource, GroupPasses, addable_bind, check_ok, exists_const]
  refine exists_congr fun ch => and_congr_right fun _ => ?_
  split
  · rename_i hallow
    simp only [addable_bind, addable_pure, canAddFriend_ofSwitch, hallow, true_and]
  · simp [*, DetailAccessVerdict.viewOnly]

lemma groupAllows_iff (h : GroupPasses r searcher target g) : GroupAllows r searcher target g ↔
    ∃ ch p, r.getGroupChannel g = .ok ch ∧ ch.channelType = .group ∧
      r.getGroupPolicy g = .ok (some p) := by
  constructor
  · rintro ⟨⟨ch, hch, htype, -, -, p, hp, -⟩, -⟩
    exact ⟨ch, p, hch, htype, hp⟩
  · rintro ⟨ch, p, hch, htype, hp⟩
    obtain ⟨ch', hch', hs, ht, hallow, hpers⟩ := h
    obtain rfl : ch = ch' := Except.ok.inj (hch.symm.trans hch')
    simp only [allowMemberAddFriend, hp] at hallow
    exact ⟨⟨ch, hch, htype, hs, ht, p, hp, hallow⟩, hpers⟩

lemma addable_evaluateDetailAccess : Addable (evaluateDetailAccess r searcher target source) ↔
    searcher ≠ target ∧ r.tryIsFriend = .ok false ∧
      Addable (evaluateSource r searcher target source) := by
  unfold evaluateDetailAccess
  by_cases hne : searcher = target
  · simp [hne]
  · rw [if_neg hne, addable_bind]
    simp [hne]

lemma sourceAllows_of_addable (hg : governing r source = none)
    (h : Addable (evaluateSource r searcher target source)) :
    SourceAllows r searcher target source := by
  cases source with
  | selfProfile => simp [evaluateSource] at h
  | friend _ => simp [evaluateSource] at h
  | group g => simp [governing] at hg
  | search sid =>
    simp only [evaluateSource, evaluateSearchSource, addable_bind, check_ok, exists_const, found_ok,
      decide_eq_true_eq] at h
    obtain ⟨_, hread, record, rfl, hs, ht, hexp, p, hp, hallow, -⟩ := h
    exact ⟨record, p, hread, hs, ht, hexp, hp, hallow⟩
  | qrcode qrKey =>
    simp only [evaluateSource, evaluateQrcodeSource, addable_bind, check_ok, exists_const, found_ok,
      decide_eq_true_eq, Bool.not_eq_true', addable_pure, canAddFriend_ofSwitch] at h
    obtain ⟨record, hread, hrev, hexp, htype, ht, p, hp, hallow⟩ := h
    refine ⟨record, p, hread, htype, ht, hrev, fun t hx => ?_, hp, hallow⟩
    simpa [hx] using hexp
  | cardShare shareId =>
    simp only [evaluateSource, validateCardShareSource, bind_assoc, addable_bind, check_ok,
      exists_const, found_ok, decide_eq_true_eq, Bool.not_eq_true', addable_pure,
      canAddFriend_ofSwitch] at h
    obtain ⟨_, hread, record, rfl, hs, ht, hused, p, hp, hallow⟩ := h
    exact ⟨record, p, hread, hs, ht, hused, hp, hallow⟩
  | conversation c =>
    simp only [evaluateSource, addable_bind] at h
    obtain ⟨channel, hread, h⟩ := h
    simp only [governing, hread, ite_eq_right_iff, reduceCtorEq, imp_false] at hg
    simp only [if_neg hg, evaluateConversation, addable_bind, check_ok, exists_const] at h
    exact ⟨channel, hread, by simp [if_neg hg, h.1, h.2.1]⟩

lemma of_governing (hg : governing r source = some g) :
    evaluateSource r searcher target source = evaluateGroupSource r searcher target g ∧
      (SourceAllows r searcher target source ↔ GroupAllows r searcher target g) := by
  cases source with
  | group g' =>
    cases hg
    exact ⟨rfl, Iff.rfl⟩
  | conversation c =>
    cases hread : r.getChannel c with
    | error e => simp [governing, hread] at hg
    | ok channel =>
      simp only [governing, hread, Option.ite_none_right_eq_some, Option.some.injEq] at hg
      obtain ⟨htype, rfl⟩ := hg
      simp [evaluateSource, SourceAllows, hread, htype, bind, Except.bind]
  | _ => simp [governing] at hg

/-- **The verdict is that a user may be added only if the source is real and all that governs it was
read and allows it, unless the policy of a group could not be read, or the group is none**: then the
policy counts as lenient. -/
theorem add_friend_verdict_iff (r : Reads) (searcher target : UserId) (source : UserDetailSource) :
    (Addable (evaluateDetailAccess r searcher target source) →
      searcher ≠ target ∧ r.tryIsFriend = .ok false ∧ SourceAllows r searcher target source) ↔
    ∀ g, governing r source = some g → searcher ≠ target → r.tryIsFriend = .ok false →
      GroupPasses r searcher target g →
      ∃ ch p, r.getGroupChannel g = .ok ch ∧ ch.channelType = .group ∧
        r.getGroupPolicy g = .ok (some p) := by
  rw [addable_evaluateDetailAccess]
  constructor
  · intro h g hg hne hf hpass
    obtain ⟨heval, hallows⟩ := of_governing hg
    rw [heval, addable_group, hallows] at h
    exact (groupAllows_iff hpass).mp (h ⟨hne, hf, hpass⟩).2.2
  · rintro h ⟨hne, hf, hadd⟩
    refine ⟨hne, hf, ?_⟩
    cases hg : governing r source with
    | none => exact sourceAllows_of_addable hg hadd
    | some g =>
      obtain ⟨heval, hallows⟩ := of_governing hg
      rw [heval, addable_group] at hadd
      exact hallows.mpr ((groupAllows_iff hadd).mpr (h g hg hne hf hadd))

/-- Users 1 and 2 are plain members of group 5, which does not let members add each other. -/
def sharedGroup (policy : Except ServerError (Option GroupPolicy)) : Reads where
  now := 0
  tryIsFriend := .ok false
  getSearchRecord _ := .ok none
  getQrKey _ := none
  getCardShare _ := .ok none
  getChannel _ := .error (.notFound "Channel not found: 5")
  getGroupChannel _ := .ok { Channel.newGroup 5 9 with
    members := (Table.empty.put 1 (.new 1 .member)).put 2 (.new 2 .member) }
  getGroupPolicy _ := policy
  getPrivacySettings := .ok {}

theorem add_friend_without_policy :
    let r := sharedGroup (.error (.database "timeout"))
    Addable (evaluateDetailAccess r 1 2 (.group 5)) ∧ ¬ SourceAllows r 1 2 (.group 5) := by
  refine ⟨⟨_, rfl, rfl⟩, fun h => ?_⟩
  obtain ⟨ch, -, -, -, -, p, hp, -⟩ := h.common
  cases hp

/-! ### The request -/

inductive ErrorCode
  | profileViewGrantExpired | groupAddFriendDisabled | groupAddFriendPersonalDisabled
  | alreadyFriends | userInBlacklist

inductive RpcError
  | validation (text : String)
  | notFound (text : String)
  | forbidden (text : String)
  | internal (text : String)
  | code (c : ErrorCode) (text : String)

structure IdText where
  text : String
  number : Option ℕ

structure FriendApplyRequest where
  fromUserId : UserId
  targetUserId : UserId
  message : Option String
  grantId : Option IdText
  source : Option String
  sourceId : Option IdText

structure ProfileViewGrant where
  viewerId : UserId
  targetId : UserId
  sourceType : String
  sourceId : IdText
  canAddFriend : Bool
  denyReason : Option String

inductive FriendRequestSource
  | search (searchSessionId : ℕ)
  | group (groupId : ℕ)
  | cardShare (shareId : ℕ)
  | qrcode (qrcode : String)
  | conversation (channelId : ℕ)

inductive FriendshipStatus
  | pending | accepted | removed | rejected | recalled
  deriving DecidableEq

structure FriendshipRow where
  status : FriendshipStatus
  source : Option FriendRequestSource
  requestMessage : Option String

/-- What the reads and the writes of the request answer. The friendship is read by the evaluation of
a source, and again before the request is stored. -/
structure Answers extends Reads where
  isUnreachableUser : Except ServerError Bool
  getProfileViewGrant : ℕ → Except ServerError (Option ProfileViewGrant)
  checkMutualBlock : Except ServerError (Bool × Bool)
  getUserProfile : Except ServerError Bool
  isFriend : Except ServerError Bool
  insertFault : Option ServerError
  row : Option FriendshipRow

variable (a : Answers) (req : FriendApplyRequest)

def groupAddFriendDisabled : RpcError := .code .groupAddFriendDisabled "该群不允许成员互相添加好友"

def personalDisabled : RpcError :=
  .code .groupAddFriendPersonalDisabled "对方不允许通过此方式添加好友"

def cannotAdd : RpcError := .forbidden "Cannot add this user as friend"

def deniedGrant : Option String → RpcError
  | some "group_policy" => groupAddFriendDisabled
  | some "personal_privacy" => personalDisabled
  | some "already_friend" => .code .alreadyFriends "你们已经是好友"
  | _ => cannotAdd

def deniedSource : Option String → RpcError
  | some "group_policy" => groupAddFriendDisabled
  | some "personal_privacy" => personalDisabled
  | _ => cannotAdd

def ensureReachableUser : Except RpcError Unit :=
  match a.isUnreachableUser with
  | .ok false => .ok ()
  | .ok true => .error (.notFound s!"User '{req.targetUserId}' not found")
  | .error _ => .error (.internal "校验用户身份失败")

def checkGrant (id : IdText) : Except RpcError ProfileViewGrant := do
  let grantId ← found (.validation s!"Invalid grant_id: {id.text}") id.number
  let grant ← found (.code .profileViewGrantExpired "查看凭证已过期,请重新打开对方资料")
    ((a.getProfileViewGrant grantId).toOption.join)
  check (grant.viewerId = req.fromUserId ∧ grant.targetId = req.targetUserId)
    (.forbidden "Profile view grant does not match this request")
  check grant.canAddFriend (deniedGrant grant.denyReason)
  return grant

/-- Who blocks whom. A read that fails counts as no block. -/
def checkBlocks : Except RpcError Unit :=
  let (x, y) := a.checkMutualBlock.toOption.getD (false, false)
  check (!(x || y)) (.code .userInBlacklist "无法添加该用户")

def buildRequestSource (sourceType : String) (sourceId : IdText) : Option FriendRequestSource :=
  let id := sourceId.number.getD 0
  match sourceType with
  | "search" | "friend" => some (.search id)
  | "group" => some (.group id)
  | "card_share" => some (.cardShare id)
  | "conversation" => some (.conversation id)
  | _ => none

def detailSource (source : String) (sourceId : IdText) : Except RpcError UserDetailSource :=
  let number (name : String) : Except RpcError ℕ :=
    found (.validation s!"Invalid {name}: {sourceId.text}") sourceId.number
  match source with
  | "search" => .search <$> number "search_session_id"
  | "group" => .group <$> number "group_id"
  | "card_share" => .cardShare <$> number "share_id"
  | "friend" => (fun id => .friend (some id)) <$> number "friend_id"
  | "qrcode" => .ok (.qrcode sourceId.text)
  | "conversation" => .conversation <$> number "channel_id"
  | _ => .error (.validation (s!"Invalid source type: {source}. Must be one of: search, group, " ++
      "qrcode, card_share, friend, conversation"))

/-- The request by its source, and the source that is stored with it. -/
def checkSource : Except RpcError (Option FriendRequestSource) :=
  match req.source, req.sourceId with
  | some source, some sourceId => do
    let detail ← detailSource source sourceId
    match evaluateDetailAccess a.toReads req.fromUserId req.targetUserId detail with
    | .error e => .error (.forbidden ("Source validation failed: " ++ e.display))
    | .ok verdict =>
      check (verdict.canAddFriend || verdict.isFriend) (deniedSource verdict.denyReason)
      return if source = "qrcode" then some (.qrcode sourceId.text)
        else buildRequestSource source sourceId
  | _, _ => .error (.validation "source and source_id are required (same as detail interface)")

def sendFriendRequestWithSource (source : Option FriendRequestSource) :
    Except ServerError FriendshipRow := do
  check (req.fromUserId ≠ req.targetUserId) (.validation "Cannot add yourself as friend")
  check (!a.isFriend.toOption.getD false) (.duplicate "Already friends")
  match a.insertFault with
  | some e => .error e
  | none =>
    let accepted := a.row.any fun row => row.status = .accepted
    return ⟨if accepted then .accepted else .pending, source, req.message.filter (· ≠ "")⟩

/-- The row that is stored. -/
def finishApply (source : Option FriendRequestSource) : Except RpcError FriendshipRow :=
  match a.getUserProfile with
  | .error _ => .error (.internal "Database error")
  | .ok false => .error (.notFound s!"User '{req.targetUserId}' not found")
  | .ok true =>
    match sendFriendRequestWithSource a req source with
    | .ok row => .ok row
    | .error e => .error (.internal ("发送好友申请失败: " ++ e.display))

/-- The row that is stored, and what the block list answered if it was read. -/
def handle : Except RpcError FriendshipRow × Option (Except ServerError (Bool × Bool)) :=
  match ensureReachableUser a req with
  | .error e => (.error e, none)
  | .ok () =>
    match req.grantId with
    | none => (checkSource a req >>= finishApply a req, none)
    | some id =>
      match checkGrant a req id with
      | .error e => (.error e, none)
      | .ok grant =>
        (checkBlocks a >>= fun _ =>
          finishApply a req (buildRequestSource grant.sourceType grant.sourceId),
          some a.checkMutualBlock)

/-- A request is stored, or set back to pending. -/
def Stored (x : Except RpcError FriendshipRow) : Prop := ∃ row, x = .ok row ∧ row.status = .pending

/-- The end of the request stores it: the user is there, the two are not known to be friends, and
the row can be written and is not one of friends. -/
structure Storable : Prop where
  profile : a.getUserProfile = .ok true
  distinct : req.fromUserId ≠ req.targetUserId
  strangers : a.isFriend.toOption.getD false = false
  insert : a.insertFault = none
  row : (a.row.any fun row => row.status = .accepted) = false

variable {a req}

lemma stored_finishApply {source : Option FriendRequestSource} :
    Stored (finishApply a req source) ↔ Storable a req := by
  constructor
  · rintro ⟨row, h, hrow⟩
    unfold finishApply at h
    split at h <;> try cases h
    split at h <;> cases h
    rename_i hprofile _ hsend
    simp only [sendFriendRequestWithSource, bind_eq_ok, check_ok, exists_const,
      decide_eq_true_eq, Bool.not_eq_true'] at hsend
    obtain ⟨hne, hf, hsend⟩ := hsend
    split at hsend <;> cases hsend
    rename_i hins
    exact ⟨hprofile, hne, hf, hins, by simpa using hrow⟩
  · rintro ⟨hprofile, hne, hf, hins, hrow⟩
    simp [Stored, finishApply, sendFriendRequestWithSource, hprofile, hne, hf, hins, hrow, check,
      bind, Except.bind, pure, Except.pure]

lemma stored_bind {α : Type} {x : Except RpcError α} {f : α → Except RpcError FriendshipRow} :
    Stored (x >>= f) ↔ ∃ y, x = .ok y ∧ Stored (f y) := by
  simp only [Stored, bind_eq_ok]
  constructor
  · rintro ⟨row, ⟨y, hx, hf⟩, hrow⟩
    exact ⟨y, hx, row, hf, hrow⟩
  · rintro ⟨y, hx, row, hf, hrow⟩
    exact ⟨row, ⟨y, hx, hf⟩, hrow⟩

lemma checkBlocks_ok : checkBlocks a = .ok () ↔ ∀ b, a.checkMutualBlock = .ok b → b = (false, false)
    := by
  cases h : a.checkMutualBlock with
  | error e => simp [checkBlocks, h, Except.toOption]
  | ok b =>
    obtain ⟨x, y⟩ := b
    simp [checkBlocks, h, Except.toOption]

/-- **A friend request that is stored has passed the block list exactly if it came with a grant and
the list could be read**: a request by a source does not look at it, and a list that cannot be read
blocks nobody. -/
theorem friend_request_respects_blocks_iff (a : Answers) (req : FriendApplyRequest) :
    (Stored (handle a req).1 → (handle a req).2 = some (.ok (false, false))) ↔
    (a.isUnreachableUser = .ok false → Storable a req →
      (req.grantId = none → ∀ source, checkSource a req ≠ .ok source) ∧
      ∀ id grant, req.grantId = some id → checkGrant a req id = .ok grant →
        ∃ b, a.checkMutualBlock = .ok b) := by
  have herror {e : RpcError} : ¬ Stored (.error e) := by
    rintro ⟨row, h, -⟩
    cases h
  cases hu : a.isUnreachableUser with
  | error e => simp [handle, ensureReachableUser, hu, herror]
  | ok unreachable =>
    cases unreachable with
    | true => simp [handle, ensureReachableUser, hu, herror]
    | false =>
      cases hg : req.grantId with
      | none =>
        simp only [handle, ensureReachableUser, hu, hg, stored_bind, stored_finishApply,
          reduceCtorEq, imp_false]
        constructor
        · exact fun h _ hs => ⟨fun _ source hsrc => h ⟨source, hsrc, hs⟩, nofun⟩
        · rintro h ⟨source, hsrc, hs⟩
          exact (h trivial hs).1 trivial source hsrc
      | some id =>
        cases hc : checkGrant a req id with
        | error e =>
          simp only [handle, ensureReachableUser, hu, hg, hc, herror, false_imp_iff, true_iff]
          refine fun _ _ => ⟨nofun, fun id' grant hid hc' => ?_⟩
          cases hid
          cases hc.symm.trans hc'
        | ok grant =>
          simp only [handle, ensureReachableUser, hu, hg, hc, stored_bind, stored_finishApply,
            Option.some.injEq]
          constructor
          · refine fun h _ hs => ⟨nofun, fun _ _ _ _ => ?_⟩
            cases hb : a.checkMutualBlock with
            | ok b => exact ⟨b, rfl⟩
            | error e =>
              have hpass : checkBlocks a = .ok () := checkBlocks_ok.mpr (by simp [hb])
              rw [hb] at h
              cases h ⟨(), hpass, hs⟩
          · rintro h ⟨_, hpass, hs⟩
            obtain ⟨b, hb⟩ := (h trivial hs).2 id grant rfl hc
            rw [hb, checkBlocks_ok.mp hpass b hb]

/-- All is well, except for what the block list answers. -/
def calm (blocks : Except ServerError (Bool × Bool)) (grant : Option ProfileViewGrant) : Answers
    where
  toReads := { sharedGroup (.ok (some ⟨true⟩)) with }
  isUnreachableUser := .ok false
  getProfileViewGrant _ := .ok grant
  checkMutualBlock := blocks
  getUserProfile := .ok true
  isFriend := .ok false
  insertFault := none
  row := none

/-- User 2 has blocked user 1. By their common group, user 1 can ask all the same; and with a grant
too, while the block list cannot be read. -/
theorem friend_request_of_blocked :
    let bySource : FriendApplyRequest := ⟨1, 2, none, none, some "group", some ⟨"5", some 5⟩⟩
    let byGrant : FriendApplyRequest := ⟨1, 2, none, some ⟨"7", some 7⟩, none, none⟩
    let grant : ProfileViewGrant := ⟨1, 2, "group", ⟨"5", some 5⟩, true, none⟩
    (handle (calm (.ok (false, true)) none) bySource =
      (.ok ⟨.pending, some (.group 5), none⟩, none)) ∧
    (handle (calm (.error (.database "timeout")) (some grant)) byGrant =
      (.ok ⟨.pending, some (.group 5), none⟩, some (.error (.database "timeout")))) :=
  ⟨rfl, rfl⟩

/-! ### The source that a request keeps -/

def sourceToStrings : Option FriendRequestSource → Option String × Option String
  | some (.search id) => (some "search", some (String.ofList (decimal id)))
  | some (.group id) => (some "group", some (String.ofList (decimal id)))
  | some (.cardShare id) => (some "card_share", some (String.ofList (decimal id)))
  | some (.qrcode qrcode) => (some "qrcode", some qrcode)
  | some (.conversation id) => (some "conversation", some (String.ofList (decimal id)))
  | none => (none, none)

def sourceFromStrings : Option String × Option String → Option FriendRequestSource
  | (some "search", some id) => (parseU64 id.toList).map .search
  | (some "group", some id) => (parseU64 id.toList).map .group
  | (some "card_share", some id) => (parseU64 id.toList).map .cardShare
  | (some "qrcode", some qrcode) => some (.qrcode qrcode)
  | _ => none

inductive AcceptFriendRequestResult
  | accepted (source : Option FriendRequestSource)
  | alreadyFriends

/-- The friendship is read first and, if there is no request, once more. -/
def acceptFriendRequestWithSource (isFriend isFriendNow : Except ServerError Bool)
    (fault : Option ServerError) (row : Option FriendshipRow) :
    Except ServerError AcceptFriendRequestResult :=
  if isFriend.toOption.getD false then .ok .alreadyFriends
  else
    match fault, row.filter (·.status = .pending) with
    | some e, _ => .error e
    | none, some row => .ok (.accepted (sourceFromStrings (sourceToStrings row.source)))
    | none, none =>
      if isFriendNow.toOption.getD false then .ok .alreadyFriends
      else .error (.notFound "Friend request expired")

/-- A type and an id name the source. Ids are numbers of 64 bits. -/
def FriendRequestSource.Named (sourceType : String) (id : IdText) : FriendRequestSource → Prop
  | .search n => sourceType = "search" ∧ id.number = some n ∧ n < 2 ^ 64
  | .group n => sourceType = "group" ∧ id.number = some n ∧ n < 2 ^ 64
  | .cardShare n => sourceType = "card_share" ∧ id.number = some n ∧ n < 2 ^ 64
  | .qrcode q => sourceType = "qrcode" ∧ id.text = q
  | .conversation n => sourceType = "conversation" ∧ id.number = some n ∧ n < 2 ^ 64

/-- The request relies on the source, by itself or by its grant. -/
def ReliesOn (a : Answers) (req : FriendApplyRequest) (src : FriendRequestSource) : Prop :=
  match req.grantId with
  | none => ∃ type id, req.source = some type ∧ req.sourceId = some id ∧ src.Named type id
  | some g => ∃ grant, checkGrant a req g = .ok grant ∧ src.Named grant.sourceType grant.sourceId

lemma finishApply_source {source : Option FriendRequestSource} {row : FriendshipRow}
    (h : finishApply a req source = .ok row) : row.source = source := by
  unfold finishApply at h
  split at h <;> try cases h
  split at h <;> cases h
  rename_i hsend
  simp only [sendFriendRequestWithSource, bind_eq_ok, check_ok, exists_const] at hsend
  obtain ⟨-, -, hsend⟩ := hsend
  split at hsend <;> cases hsend
  rfl

lemma stored_source {src : FriendRequestSource} {row : FriendshipRow} (hsrc : ReliesOn a req src)
    (h : (handle a req).1 = .ok row) :
    row.source = match src, req.grantId with
      | .qrcode _, some _ => none
      | _, _ => some src := by
  unfold handle at h
  unfold ReliesOn at hsrc
  split at h
  · cases h
  split at h
  · rename_i hg
    rw [hg] at hsrc
    obtain ⟨type, id, htype, hid, hname⟩ := hsrc
    obtain ⟨source, hcheck, hfin⟩ := bind_eq_ok.mp h
    simp only [checkSource, htype, hid, bind_eq_ok] at hcheck
    obtain ⟨detail, -, hcheck⟩ := hcheck
    split at hcheck
    · cases hcheck
    obtain ⟨-, -, hsource⟩ := bind_eq_ok.mp hcheck
    rw [finishApply_source hfin, ← Except.ok.inj hsource, hg]
    cases src <;> simp_all [FriendRequestSource.Named, buildRequestSource]
  · rename_i g hg
    rw [hg] at hsrc
    obtain ⟨grant, hgrant, hname⟩ := hsrc
    rw [hgrant] at h
    obtain ⟨-, -, hfin⟩ := bind_eq_ok.mp h
    rw [finishApply_source hfin, hg]
    cases src <;> simp_all [FriendRequestSource.Named, buildRequestSource]

/-- **An accepted request gives back its source exactly if that is no conversation and, with a
grant, no QR code**: a conversation is written as a text that is not read back, and the source of a
grant is built without QR codes. -/
theorem friend_request_keeps_source_iff (a : Answers) (req : FriendApplyRequest)
    (src : FriendRequestSource) (hsrc : ReliesOn a req src) (row : FriendshipRow)
    (hrow : (handle a req).1 = .ok row) (isFriend isFriendNow : Except ServerError Bool)
    (fault : Option ServerError) (source : Option FriendRequestSource)
    (haccept : acceptFriendRequestWithSource isFriend isFriendNow fault (some row) =
      .ok (.accepted source)) :
    source = some src ↔
      (∀ c, src ≠ .conversation c) ∧ ∀ q, src = .qrcode q → req.grantId = none := by
  have hback : source = sourceFromStrings (sourceToStrings row.source) := by
    unfold acceptFriendRequestWithSource at haccept
    split at haccept
    · cases haccept
    split at haccept
    · cases haccept
    · rename_i hfilter
      obtain ⟨hsome, -⟩ := Option.filter_eq_some_iff.mp hfilter
      cases hsome
      cases haccept
      rfl
    · split at haccept <;> cases haccept
  have hname : ∃ type id, src.Named type id := by
    unfold ReliesOn at hsrc
    split at hsrc
    · obtain ⟨type, id, -, -, h⟩ := hsrc
      exact ⟨type, id, h⟩
    · obtain ⟨grant, -, h⟩ := hsrc
      exact ⟨_, _, h⟩
  obtain ⟨type, id, hname⟩ := hname
  rw [hback, stored_source hsrc hrow]
  cases src with
  | search n | group n | cardShare n =>
    simp [sourceToStrings, sourceFromStrings, parseU64_decimal hname.2.2]
  | qrcode q => cases req.grantId <;> simp [sourceToStrings, sourceFromStrings]
  | conversation n => simp [sourceToStrings, sourceFromStrings]

theorem friend_request_keeps_source_sample :
    some (.group 5) = some (FriendRequestSource.group 5) ↔
      (∀ c, FriendRequestSource.group 5 ≠ .conversation c) ∧
        ∀ q, FriendRequestSource.group 5 = .qrcode q → (none : Option IdText) = none :=
  friend_request_keeps_source_iff (calm (.ok (false, false)) none)
    ⟨1, 2, none, none, some "group", some ⟨"5", some 5⟩⟩ (.group 5)
    ⟨"group", ⟨"5", some 5⟩, rfl, rfl, rfl, rfl, by decide⟩ ⟨.pending, some (.group 5), none⟩ rfl
    (.ok false) (.ok false) none _ rfl

/-- With a grant, user 1 asks by a QR code, or by a conversation. Neither is given back. -/
theorem friend_request_loses_source :
    let byGrant : FriendApplyRequest := ⟨1, 2, none, some ⟨"7", some 7⟩, none, none⟩
    let grants sourceType id := calm (.ok (false, false)) (some ⟨1, 2, sourceType, id, true, none⟩)
    let accept row := acceptFriendRequestWithSource (.ok false) (.ok false) none (some row)
    (handle (grants "qrcode" ⟨"k1", none⟩) byGrant).1 = .ok ⟨.pending, none, none⟩ ∧
    accept ⟨.pending, none, none⟩ = .ok (.accepted none) ∧
    (handle (grants "conversation" ⟨"9", some 9⟩) byGrant).1 =
      .ok ⟨.pending, some (.conversation 9), none⟩ ∧
    accept ⟨.pending, some (.conversation 9), none⟩ = .ok (.accepted none) :=
  ⟨rfl, rfl, rfl, rfl⟩

end PrivChat.Friends
