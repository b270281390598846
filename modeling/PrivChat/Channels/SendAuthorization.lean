import PrivChat.Channels.Model

/-!
Whether a user may write a message into a channel.

The decision goes by the member map of the channel object. For groups and rooms that is the
membership of the channel itself; for a direct channel the members are the two users the channel
is between, and the map holds what rows were loaded.
-/

namespace PrivChat.Channels

inductive SendRefusal
  | notAMember
  | memberMuted (text : String)
  | groupAllMuted
  | roleCannotSend
  | blockedByPeer
  | peerInMyBlacklist
  | peerRejectsNonFriends
  | friendshipRemoved
  | channelForbidsPosting
  | policyUnavailable
  deriving DecidableEq

structure GroupPolicy where
  allMuted : Bool
  allowMemberPost : Bool

inductive FriendshipStatus
  | pending | accepted | removed
  deriving DecidableEq

/-- What a user's row has for privacy settings: nothing, settings of which each may be missing,
or something that cannot be read as settings. -/
inductive StoredPrivacy
  | null
  | settings (allowReceiveMessageFromNonFriend : Option Bool)
  | malformed (text : String)

structure UserPrivacySettings where
  allowReceiveMessageFromNonFriend : Bool

inductive Query
  | groupPolicy (g : GroupId)
  | mutualBlock (a b : UserId)
  | isFriend (a b : UserId)
  | friendshipRemoved (a b : UserId)
  | privacySettings (u : UserId)

/-- The rows the policies are read from, and the queries that fail. -/
structure Deps where
  groups : GroupId → Option GroupPolicy
  blacklist : UserId → UserId → Bool
  friendships : UserId → UserId → Option FriendshipStatus
  users : UserId → Option StoredPrivacy
  fails : Query → Option String

namespace Deps

variable (deps : Deps)

/-- The answer to a query, unless it fails; the error says which query it was. -/
def read {α : Type} (q : Query) (what : String) (a : α) : Except ServerError α :=
  match deps.fails q with
  | some e => .error (.database (what ++ e))
  | none => .ok a

def getGroupPolicy (g : GroupId) : Except ServerError (Option GroupPolicy) :=
  deps.read (.groupPolicy g) "查询群设置失败: " (deps.groups g)

def checkMutualBlock (a b : UserId) : Except ServerError (Bool × Bool) :=
  deps.read (.mutualBlock a b) "查询双向拉黑失败: " (deps.blacklist a b, deps.blacklist b a)

/-- One of the two rows between the users has the status. -/
def friendshipIs (status : FriendshipStatus) (a b : UserId) : Bool :=
  decide (deps.friendships a b = some status) || decide (deps.friendships b a = some status)

def tryIsFriend (a b : UserId) : Except ServerError Bool :=
  deps.read (.isFriend a b) "Failed to check friendship: " (deps.friendshipIs .accepted a b)

def tryFriendshipRemoved (a b : UserId) : Except ServerError Bool :=
  deps.read (.friendshipRemoved a b) "Failed to check removed friendship: "
    (deps.friendshipIs .removed a b)

def settingsFromStored (u : UserId) (stored : Option StoredPrivacy) :
    Except ServerError UserPrivacySettings :=
  match stored with
  | none | some .null => .ok ⟨true⟩
  | some (.settings allow) => .ok ⟨allow.getD true⟩
  | some (.malformed e) =>
    .error (.database s!"用户 {u} 的隐私设置无法解析（脏数据，不按默认放行）: {e}")

def getOrCreatePrivacySettings (u : UserId) : Except ServerError UserPrivacySettings := do
  let row ← deps.read (.privacySettings u) "查询隐私设置失败: " (deps.users u)
  settingsFromStored u row

end Deps

/-- A policy that cannot be read refuses the message, and says so. -/
def orUnavailable {α : Type} (x : Except ServerError α) : Except SendRefusal α :=
  x.mapError fun _ => .policyUnavailable

def refuseIf (b : Bool) (e : SendRefusal) : Except SendRefusal Unit :=
  if b then .error e else .ok ()

/-- The policy of the group, if the channel has a group and the group is there. -/
def groupPolicyOf (deps : Deps) (channel : Channel) : Except SendRefusal (Option GroupPolicy) :=
  match channel.groupId with
  | some g => orUnavailable (deps.getGroupPolicy g)
  | none => .ok none

/-- The policy of a group binds all but the owner and the administrators. -/
def checkGroupPolicy (deps : Deps) (channel : Channel) (role : MemberRole) :
    Except SendRefusal Unit :=
  if role.isPrivileged then .ok ()
  else do
    let policy ← groupPolicyOf deps channel
    refuseIf ((policy.map (·.allMuted)).getD false) .groupAllMuted
    refuseIf (!(policy.map (·.allowMemberPost)).getD true) .channelForbidsPosting

/-- The policies of a group, for one of its members. -/
def checkGroup (deps : Deps) (now : Millis) (channel : Channel) (m : ChannelMember) :
    Except SendRefusal Unit := do
  refuseIf (m.isMuted && muteIsActive m.isMuted m.muteUntil now)
    (.memberMuted (muteRejectMessage m.muteUntil now))
  checkGroupPolicy deps channel m.role
  refuseIf (!(MemberPermissions.fromRole m.role).canSendMessage) .roleCannotSend

/-- The policies between two users that are not friends. -/
def checkStranger (deps : Deps) (sender peer : UserId) : Except SendRefusal Unit := do
  let friendshipRemoved ← orUnavailable (deps.tryFriendshipRemoved sender peer)
  refuseIf friendshipRemoved .friendshipRemoved
  let settings ← orUnavailable (deps.getOrCreatePrivacySettings peer)
  refuseIf (!settings.allowReceiveMessageFromNonFriend) .peerRejectsNonFriends

/-- The policies between the sender of a direct message and the peer. Blocks come before
friendship. -/
def checkPeer (deps : Deps) (sender peer : UserId) : Except SendRefusal Unit := do
  let blocks ← orUnavailable (deps.checkMutualBlock sender peer)
  refuseIf blocks.2 .blockedByPeer
  refuseIf blocks.1 .peerInMyBlacklist
  let areFriends ← orUnavailable (deps.tryIsFriend sender peer)
  if areFriends then .ok () else checkStranger deps sender peer

def checkDirect (deps : Deps) (channel : Channel) (sender : UserId) : Except SendRefusal Unit :=
  match channel.getMemberIds.find? fun id => decide (id ≠ sender) with
  | some peer => checkPeer deps sender peer
  | none => .ok ()

def authorizeSendToChannel (deps : Deps) (now : Millis) (channel : Channel) (sender : UserId) :
    Except SendRefusal Unit :=
  match channel.members.get sender with
  | none => .error .notAMember
  | some m => do
    (if channel.channelType = .group then checkGroup deps now channel m else .ok ())
    refuseIf (!m.permissions.canSendMessage) .channelForbidsPosting
    if channel.channelType = .direct then checkDirect deps channel sender else .ok ()

variable {deps : Deps} {now : Millis} {channel : Channel} {m : ChannelMember}
  {sender peer : UserId}

/-- The sender is not muted; and unless the sender is the owner or an administrator, the policy
of the group could be read and lets members post. -/
def GroupPermits (deps : Deps) (now : Millis) (channel : Channel) (m : ChannelMember) : Prop :=
  muteIsActive m.isMuted m.muteUntil now = false ∧
    (m.role = .member → ∀ g, channel.groupId = some g → ∃ policy,
      deps.getGroupPolicy g = .ok policy ∧
        ∀ p ∈ policy, p.allMuted = false ∧ p.allowMemberPost = true)

/-- Neither blocks the other; and the two are friends, or they are strangers, have not ended a
friendship, and the peer takes messages from strangers. All that was looked at could be read. -/
def PeerPermits (deps : Deps) (sender peer : UserId) : Prop :=
  deps.checkMutualBlock sender peer = .ok (false, false) ∧
    (deps.tryIsFriend sender peer = .ok true ∨
      deps.tryIsFriend sender peer = .ok false ∧
        deps.tryFriendshipRemoved sender peer = .ok false ∧
        deps.getOrCreatePrivacySettings peer = .ok ⟨true⟩)

/-- What is asked of the check for a sender and a channel: it refuses the sender as no member
exactly if the sender is none, and if it lets the message through, every policy that applies
could be read and permits it. -/
def SendLaw (deps : Deps) (now : Millis) (channel : Channel) (sender : UserId) : Prop :=
  (authorizeSendToChannel deps now channel sender = .error .notAMember ↔
      channel.isMember sender = false) ∧
    (authorizeSendToChannel deps now channel sender = .ok () →
      (channel.channelType = .group →
        ∃ m, channel.members.get sender = some m ∧ GroupPermits deps now channel m) ∧
      (channel.channelType = .direct →
        ∀ peer ∈ channel.getMemberIds, peer ≠ sender → PeerPermits deps sender peer))

section Steps

variable {α β : Type}

lemma bind_ok {ε : Type} {x : Except ε α} {k : α → Except ε β} {b : β}
    (h : x >>= k = .ok b) : ∃ a, x = .ok a ∧ k a = .ok b := by
  cases x with
  | ok a => exact ⟨a, rfl, h⟩
  | error e => cases h

lemma bind_ne_error {ε : Type} {x : Except ε α} {k : α → Except ε β} {e : ε}
    (hx : x ≠ .error e) (hk : ∀ a, k a ≠ .error e) : x >>= k ≠ .error e := by
  cases x with
  | ok a => exact hk a
  | error e' => exact fun h => hx (by cases h; rfl)

lemma refuseIf_ok {b : Bool} {e : SendRefusal} {u : Unit} (h : refuseIf b e = .ok u) :
    b = false := by
  cases b
  · rfl
  · cases h

lemma refuseIf_ne {b : Bool} {e e' : SendRefusal} (h : e ≠ e') : refuseIf b e ≠ .error e' := by
  cases b
  · simp [refuseIf]
  · simpa [refuseIf] using h

variable {x : Except ServerError α}

lemma orUnavailable_ok {a : α} (h : orUnavailable x = .ok a) : x = .ok a := by
  cases x with
  | ok b => simpa [orUnavailable, Except.mapError] using h
  | error e => simp [orUnavailable, Except.mapError] at h

lemma orUnavailable_ne : orUnavailable x ≠ .error .notAMember := by
  cases x <;> simp [orUnavailable, Except.mapError]

end Steps

lemma checkGroup_ne : checkGroup deps now channel m ≠ .error .notAMember := by
  have hpolicy : checkGroupPolicy deps channel m.role ≠ .error .notAMember := by
    unfold checkGroupPolicy
    split
    · simp
    · refine bind_ne_error ?_ fun policy => ?_
      · unfold groupPolicyOf
        split
        · exact orUnavailable_ne
        · simp
      · exact bind_ne_error (refuseIf_ne (by decide)) fun _ => refuseIf_ne (by decide)
  refine bind_ne_error (refuseIf_ne (by simp)) fun _ => bind_ne_error hpolicy fun _ => ?_
  exact refuseIf_ne (by decide)

lemma checkPeer_ne : checkPeer deps sender peer ≠ .error .notAMember := by
  have hstranger : checkStranger deps sender peer ≠ .error .notAMember := by
    refine bind_ne_error orUnavailable_ne fun _ => ?_
    refine bind_ne_error (refuseIf_ne (by decide)) fun _ => ?_
    refine bind_ne_error orUnavailable_ne fun _ => ?_
    exact refuseIf_ne (by decide)
  refine bind_ne_error orUnavailable_ne fun _ => ?_
  refine bind_ne_error (refuseIf_ne (by decide)) fun _ => ?_
  refine bind_ne_error (refuseIf_ne (by decide)) fun _ => ?_
  refine bind_ne_error orUnavailable_ne fun friends => ?_
  split
  · simp
  · exact hstranger

lemma authorize_notAMember_iff :
    authorizeSendToChannel deps now channel sender = .error .notAMember ↔
      channel.members.get sender = none := by
  unfold authorizeSendToChannel
  cases hm : channel.members.get sender with
  | none => simp
  | some m =>
    simp only [reduceCtorEq, iff_false]
    refine bind_ne_error ?_ fun _ => bind_ne_error (refuseIf_ne (by decide)) fun _ => ?_
    · split
      · exact checkGroup_ne
      · simp
    · split
      · unfold checkDirect
        split
        · exact checkPeer_ne
        · simp
      · simp

/-! ### What has been looked at when a message is let through -/

lemma checkGroupPolicy_ok (h : checkGroupPolicy deps channel .member = .ok ()) {g : GroupId}
    (hg : channel.groupId = some g) : ∃ policy, deps.getGroupPolicy g = .ok policy ∧
      ∀ p ∈ policy, p.allMuted = false ∧ p.allowMemberPost = true := by
  obtain ⟨policy, hread, h⟩ := bind_ok h
  simp only [groupPolicyOf, hg] at hread
  obtain ⟨_, hmuted, h⟩ := bind_ok h
  have hmuted := refuseIf_ok hmuted
  have hpost := refuseIf_ok h
  refine ⟨policy, orUnavailable_ok hread, fun p hp => ?_⟩
  subst hp
  simpa using And.intro hmuted hpost

lemma checkGroup_ok (h : checkGroup deps now channel m = .ok ()) :
    GroupPermits deps now channel m := by
  obtain ⟨_, hmute, h⟩ := bind_ok h
  obtain ⟨_, hpolicy, -⟩ := bind_ok h
  have hmute := refuseIf_ok hmute
  refine ⟨?_, fun hrole g hg => ?_⟩
  · unfold muteIsActive at hmute ⊢
    cases hm : m.isMuted
    · rfl
    · simpa [hm] using hmute
  · rw [hrole] at hpolicy
    exact checkGroupPolicy_ok hpolicy hg

lemma checkPeer_ok (h : checkPeer deps sender peer = .ok ()) : PeerPermits deps sender peer := by
  obtain ⟨⟨mine, theirs⟩, hblocks, h⟩ := bind_ok h
  obtain ⟨_, htheirs, h⟩ := bind_ok h
  obtain ⟨_, hmine, h⟩ := bind_ok h
  obtain ⟨friends, hfriends, h⟩ := bind_ok h
  obtain rfl : theirs = false := refuseIf_ok htheirs
  obtain rfl : mine = false := refuseIf_ok hmine
  refine ⟨orUnavailable_ok hblocks, ?_⟩
  cases friends with
  | true => exact .inl (orUnavailable_ok hfriends)
  | false =>
    obtain ⟨removed, hremoved, hrest⟩ := bind_ok h
    obtain ⟨_, hnot, hrest⟩ := bind_ok hrest
    obtain ⟨settings, hsettings, hlast⟩ := bind_ok hrest
    have hallow := refuseIf_ok hlast
    obtain rfl : removed = false := refuseIf_ok hnot
    refine .inr ⟨orUnavailable_ok hfriends, orUnavailable_ok hremoved, ?_⟩
    rw [orUnavailable_ok hsettings]
    cases settings
    simpa using hallow

lemma find_peer (hd : channel.channelType = .direct) (hs : channel.isMember sender = true)
    (hp : peer ∈ channel.getMemberIds) (hne : peer ≠ sender) :
    channel.getMemberIds.find? (fun id => decide (id ≠ sender)) = some peer := by
  simp only [Channel.isMember, hd, if_true, Bool.or_eq_true, decide_eq_true_eq] at hs
  simp only [Channel.getMemberIds, hd, if_true] at hp ⊢
  rcases h1 : channel.directUser1Id with _ | a <;> rcases h2 : channel.directUser2Id with _ | b
  · simp [h1, h2] at hs
  · simp only [h1, h2, reduceCtorEq, Option.some.injEq, false_or] at hs
    subst hs
    simp [h1, h2, hne] at hp
  · simp only [h1, h2, reduceCtorEq, Option.some.injEq, or_false] at hs
    subst hs
    simp [h1, h2, hne] at hp
  · simp only [h1, h2, Option.some.injEq, Option.toList_some, List.mem_singleton] at hs hp ⊢
    by_cases hab : b = a
    · subst hab
      simp only [or_self, if_true, List.mem_singleton] at hs hp
      exact absurd (hp.trans hs) hne
    · simp only [hab, if_false, List.cons_append, List.nil_append, List.mem_cons,
        List.not_mem_nil, or_false] at hp ⊢
      rcases hs with rfl | rfl <;> rcases hp with rfl | rfl <;> simp_all

/-- **Who may send.** The check obeys the law for a channel and a sender exactly if the channel
is not a direct one, or the member map has the sender exactly if the sender is one of the two
users of the channel. -/
theorem send_law_iff (deps : Deps) (now : Millis) (channel : Channel) (sender : UserId) :
    SendLaw deps now channel sender ↔
      (channel.channelType = .direct → ((channel.members.get sender).isSome = true ↔
        channel.directUser1Id = some sender ∨ channel.directUser2Id = some sender)) := by
  have hmember : channel.channelType = .direct → (channel.isMember sender = true ↔
      channel.directUser1Id = some sender ∨ channel.directUser2Id = some sender) := by
    intro hd
    simp [Channel.isMember, hd]
  constructor
  · rintro ⟨hlaw, -⟩ hd
    rw [authorize_notAMember_iff, ← Bool.not_eq_true, hmember hd] at hlaw
    rw [← not_iff_not, ← hlaw, Bool.not_eq_true, Option.isSome_eq_false_iff,
      Option.isNone_iff_eq_none]
  · intro hmap
    have hiff : channel.members.get sender = none ↔ channel.isMember sender = false := by
      by_cases hd : channel.channelType = .direct
      · rw [← Bool.not_eq_true, hmember hd, ← hmap hd]
        simp
      · simp [Channel.isMember, hd]
    refine ⟨authorize_notAMember_iff.trans hiff, fun hok => ?_⟩
    unfold authorizeSendToChannel at hok
    cases hm : channel.members.get sender with
    | none => simp [hm] at hok
    | some m =>
      simp only [hm] at hok
      obtain ⟨_, hgroup, hok⟩ := bind_ok hok
      obtain ⟨_, -, hdirect⟩ := bind_ok hok
      refine ⟨fun hg => ⟨m, rfl, ?_⟩, fun hd peer hp hne => ?_⟩
      · rw [if_pos hg] at hgroup
        exact checkGroup_ok hgroup
      · have hs : channel.isMember sender = true := by
          rw [← Bool.not_eq_false, ← hiff, hm]
          simp
        rw [if_pos hd, checkDirect, find_peer hd hs hp hne] at hdirect
        exact checkPeer_ok hdirect

/-- A direct channel between users 1 and 2 into whose member map no row was loaded. -/
def bareDirect : Channel where
  id := 9
  channelType := .direct
  status := .active
  members := .empty
  metadata := {}
  directUser1Id := some 1
  directUser2Id := some 2
  groupId := none

/-- Users 1 and 2 are friends, nobody blocks anybody, and every query works. -/
def friendlyDeps : Deps where
  groups _ := none
  blacklist _ _ := false
  friendships a b := if a = 1 ∧ b = 2 then some .accepted else none
  users _ := some .null
  fails _ := none

/-- **A user of a direct channel is refused** as no member of it, because the member map was
loaded without the row; and with a stray row in the map, a third user is let through. -/
theorem direct_user_refused : bareDirect.isMember 1 = true ∧
      authorizeSendToChannel friendlyDeps 0 bareDirect 1 = .error .notAMember ∧
      { bareDirect with members := bareDirect.members.put 3 (.new 3 .member) }.isMember 3 = false ∧
      authorizeSendToChannel friendlyDeps 0
        { bareDirect with members := bareDirect.members.put 3 (.new 3 .member) } 3 = .ok () := by
  decide

end PrivChat.Channels
