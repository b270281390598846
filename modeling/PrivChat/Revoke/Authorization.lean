import PrivChat.Revoke.Service

/-!
Who may revoke a message: its sender, and the owner and the administrators of its channel.

The entry point looks at the roles in the channel that the request names, and never compares it
with the channel of the message.
-/

namespace PrivChat.Revoke

open Tasks Db
open Channels (UserId ChannelId Channel MemberRole)
open Timeline (Message MessageId)

/-- The user is the owner or an administrator of the channel. -/
def HoldsRole (s : Shared) (c : ChannelId) (u : UserId) : Prop :=
  s.roleIn c u = some .owner ∨ s.roleIn c u = some .admin

instance HoldsRole.decidable (s : Shared) (c : ChannelId) (u : UserId) :
    Decidable (HoldsRole s c u) :=
  inferInstanceAs (Decidable (s.roleIn c u = some .owner ∨ s.roleIn c u = some .admin))

/-- The user may revoke the message. -/
def MayRevoke (s : Shared) (id : MessageId) (u : UserId) : Prop :=
  ∃ m, s.messages.get id = some m ∧ (m.senderId = u ∨ HoldsRole s m.channelId u)

lemma isAdmin_iff (s : Shared) (c : ChannelId) (u : UserId) :
    isAdmin (s.channels c) u = true ↔ HoldsRole s c u := by
  unfold isAdmin HoldsRole Shared.roleIn
  generalize ((s.channels c).bind fun ch => ch.members.get u).map (·.role) = role
  cases role with
  | none => simp
  | some role => cases role <;> simp [MemberRole.isPrivileged]

section

variable {limitSecs : ℤ} {s s' : Shared} {id : MessageId} {c : ChannelId} {u : UserId}
  {m : Message} {text : String}

lemma findById_sound {found : Option Message}
    (h : (machine limitSecs).Ends (findById id) s (.ok found) s') :
    s' = s ∧ found = s.messages.get id := by
  obtain ⟨⟨t, outcome⟩, h⟩ := h
  cases outcome with
  | failed e applied => cases h.1
  | ok =>
    obtain ⟨h, hs⟩ := h
    injection h with h
    exact ⟨hs, h⟩

lemma findUnrevoked_sound (h : (machine limitSecs).Ends (findUnrevoked id text) s (.ok m) s') :
    s' = s ∧ s.messages.get id = some m ∧ m.revoked = false := by
  obtain ⟨found, s1, hfound, h⟩ := h.of_bind
  obtain ⟨rfl, rfl⟩ := findById_sound (Machine.ends_mapErr_ok.mp hfound)
  cases hm : s1.messages.get id with
  | none =>
    rw [hm] at h
    cases h.1
  | some m' =>
    rw [hm] at h
    dsimp only at h
    cases hr : m'.revoked with
    | true =>
      rw [hr, if_pos rfl] at h
      cases h.1
    | false =>
      rw [hr, if_neg (by simp)] at h
      obtain ⟨hmm, rfl⟩ := h
      cases hmm
      exact ⟨rfl, rfl, hr⟩

lemma getChannel_sound {channel : Option Channel}
    (h : (machine limitSecs).Ends (getChannel c) s (.ok channel) s') :
    channel = s.channels c ∨ channel = none := by
  obtain ⟨o, h, -⟩ := h
  injection h with h
  by_cases ho : o.outcome = .ok
  · exact .inl (h.trans (if_pos ho))
  · exact .inr (h.trans (if_neg ho))

lemma authorize_sound (h : (machine limitSecs).Ends (authorize limitSecs c u m) s (.ok ()) s') :
    m.senderId = u ∨ HoldsRole s c u := by
  obtain ⟨channel, s1, hchannel, h⟩ := h.of_bind
  by_cases hs : m.senderId = u
  · exact .inl hs
  right
  rw [← isAdmin_iff]
  cases ha : isAdmin channel u with
  | false =>
    rw [ha, if_pos ⟨hs, rfl⟩] at h
    cases h.1
  | true =>
    obtain rfl | rfl := getChannel_sound hchannel
    · exact ha
    · cases ha

/-! ### A call that gets through -/

/-- The clock does not matter here, and every operation goes well. -/
def allWell : Moment := ⟨0, .ok⟩

lemma findById_complete {limitSecs : ℤ} (s : Shared) {id : MessageId} :
    (machine limitSecs).Ends (findById id) s (.ok (s.messages.get id)) s :=
  ⟨allWell, rfl, rfl⟩

lemma findUnrevoked_complete (hm : s.messages.get id = some m)
    (hr : m.revoked = false) : (machine limitSecs).Ends (findUnrevoked id text) s (.ok m) s := by
  refine (Machine.ends_mapErr_ok.mpr (findById_complete s)).bind ?_
  rw [hm]
  dsimp only
  rw [hr, if_neg (by simp)]
  exact ⟨rfl, rfl⟩

lemma authorize_complete (ha : HoldsRole s c u) :
    (machine limitSecs).Ends (authorize limitSecs c u m) s (.ok ()) s := by
  rw [← isAdmin_iff] at ha
  have hchannel : (machine limitSecs).Ends (getChannel c) s (.ok (s.channels c)) s :=
    ⟨allWell, rfl, rfl⟩
  refine hchannel.bind ?_
  rw [ha, if_neg (by simp), if_neg (by simp)]
  exact ⟨rfl, rfl⟩

lemma revokeMessage_complete (hm : s.messages.get id = some m) (hr : m.revoked = false) :
    ∃ m', (machine limitSecs).Ends ((revokeMessage id u).mapErr repositoryError) s (.ok m')
      (s.mark id 0 u) := by
  have hmark : (machine limitSecs).Ends (markRevoked id 0 u) s
      (.ok (if (s.messages.get id).isSome then 1 else 0)) (s.mark id 0 u) := ⟨allWell, rfl, rfl⟩
  refine ⟨{ m with revoked := true, revokedAt := some 0, revokedBy := some u, updatedAt := 0 },
    Machine.ends_mapErr_ok.mpr ?_⟩
  refine Machine.Ends.bind ⟨allWell, rfl, rfl⟩ ?_
  refine (findById_complete s).bind ?_
  rw [hm] at hmark ⊢
  dsimp only
  rw [hr, if_neg (by simp)]
  exact hmark.bind ⟨rfl, rfl⟩

lemma revokeEffects_complete (limitSecs : ℤ) {s : Shared} (id : MessageId) (c : ChannelId)
    (u : UserId) (m : Message) :
    ∃ a s', (machine limitSecs).Ends (revokeEffects id c u m) s (.ok a) s' := by
  have hd : ∃ s1, (machine limitSecs).Ends (discountUnreadForRevokedMessage c m) s (.ok ()) s1 := by
    unfold discountUnreadForRevokedMessage
    cases m.pts with
    | none => exact ⟨s, rfl, rfl⟩
    | some pts => exact ⟨_, allWell, rfl, rfl⟩
  obtain ⟨s1, hd⟩ := hd
  exact ⟨_, _, hd.bind ⟨allWell, allWell, allWell, rfl, rfl⟩⟩

end

/-- **Who revokes may do so** if and only if a caller who has not sent the message, and whose
role in the channel named by the request allows to revoke, has such a role in the channel of the
message too. -/
theorem revoke_authorised_iff (limitSecs : ℤ) (caller : Caller) (req : MessageRevokeRequest)
    (s : Shared) : (∀ s', Handles limitSecs caller req s (.ok true) s' →
      ∃ u, caller = .user u ∧ MayRevoke s req.serverMessageId u) ↔
    ∀ u m, caller = .user u → s.messages.get req.serverMessageId = some m → m.revoked = false →
      m.senderId ≠ u → HoldsRole s req.channelId u → HoldsRole s m.channelId u := by
  constructor
  · rintro h u m rfl hm hr hs ha
    obtain ⟨m', hmark⟩ := revokeMessage_complete hm hr
    obtain ⟨a, s', heff⟩ := revokeEffects_complete limitSecs
      req.serverMessageId m.channelId u m'
    have hends : (machine limitSecs).Ends
        (revokeMessageWithAuth limitSecs req.serverMessageId req.channelId u) s (.ok a) s' :=
      (findUnrevoked_complete hm hr).bind ((authorize_complete ha).bind (hmark.bind heff))
    obtain ⟨_, hu, m'', hm'', hmay⟩ := h s' ⟨_, hends, rfl⟩
    cases hu
    cases hm.symm.trans hm''
    exact hmay.resolve_left hs
  · intro h s' hsucc
    cases caller with
    | anonymous => cases hsucc.1
    | invalid => cases hsucc.1
    | user u =>
      refine ⟨u, rfl, ?_⟩
      obtain ⟨r, hends, hr⟩ := hsucc
      cases r with
      | error e => cases hr
      | ok a =>
        obtain ⟨m, s1, hfind, hrest⟩ := hends.of_bind
        obtain ⟨rfl, hm, hnot⟩ := findUnrevoked_sound hfind
        obtain ⟨_, s2, hauth, -⟩ := hrest.of_bind
        refine ⟨m, hm, ?_⟩
        by_cases hs : m.senderId = u
        · exact .inl hs
        · have ha := (authorize_sound hauth).resolve_left hs
          exact .inr (h u m rfl hm hnot hs ha)

/-- A message of user 1 in the channel `c`. -/
def sampleMessage (c : ChannelId) : Message where
  messageId := 7
  channelId := c
  senderId := 1
  pts := some 1
  localMessageId := none
  content := "hello"
  messageType := .text
  metadata := ""
  replyToMessageId := none
  createdAt := 0
  updatedAt := 0
  deleted := false
  deletedAt := none
  revoked := false
  revokedAt := none
  revokedBy := none
  readDetailExpiresAt := none

/-- User 1 owns the group 10, in which they have sent a message. User 2 is no member there, but
owns the group 20. -/
def twoGroups : Shared where
  messages := Table.empty.put 7 (sampleMessage 10)
  channels c := if c = 10 then some (.newGroup 10 1) else if c = 20 then some (.newGroup 20 2)
    else none
  channelTypes _ := some .group
  unread := Table.empty
  lastReadPts _ _ := none
  log := []

/-- User 2 revokes the message of the group 10 by naming the group 20. -/
theorem stranger_revokes : (∃ s', Handles 172800 (.user 2) ⟨7, 20⟩ twoGroups (.ok true) s' ∧
      (s'.messages.get 7).map (·.revoked) = some true) ∧
    ¬ ∃ u, Caller.user 2 = .user u ∧ MayRevoke twoGroups 7 u := by
  constructor
  · -- nine operations, all of which go well
    refine ⟨_, ⟨_, ⟨allWell, allWell, allWell, allWell, allWell, allWell, allWell, allWell, allWell,
      rfl, rfl⟩, rfl⟩, rfl⟩
  · rintro ⟨u, hu, m, hm, hmay⟩
    cases hu
    cases hm
    revert hmay
    decide

end PrivChat.Revoke
