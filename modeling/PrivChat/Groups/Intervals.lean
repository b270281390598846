import PrivChat.Groups.Calls

/-!
The intervals of membership, from which the recipients of an old message are worked out.

The member rows only say who is in a group now. The rows here say it of the past: each is a stretch
of membership, measured in the pts of the channel's messages. `addParticipant` opens a stretch, and
the statement by which a member leaves closes it. Functions are called one after the other, and the
database answers.
-/

namespace PrivChat.Groups

open Db Channels

/-- A user is a recipient of the messages after `joinedPts`, up to `leftPts` once they have left. -/
structure Interval where
  channelId : ChannelId
  userId : UserId
  joinedPts : ℕ
  leftPts : Option ℕ

namespace Interval

def isOf (c : ChannelId) (u : UserId) (i : Interval) : Bool :=
  decide (i.channelId = c) && decide (i.userId = u)

def isOpen (i : Interval) : Bool := i.leftPts.isNone

/-- The message with that pts was sent in this stretch. -/
def covers (p : ℕ) (i : Interval) : Bool :=
  decide (i.joinedPts < p) && i.leftPts.all fun l => decide (p ≤ l)

/-- Close the stretch at that pts, if it is an open one of the user. -/
def close (c : ChannelId) (u : UserId) (p : ℕ) (i : Interval) : Interval :=
  if i.isOf c u && i.isOpen then { i with leftPts := some p } else i

end Interval

/-- A message, with the tables as they were when it was committed. -/
structure SentMessage where
  channelId : ChannelId
  pts : ℕ
  senderId : UserId
  tables : Store

structure History where
  store : Store
  pts : Table ChannelId ℕ
  intervals : List Interval
  sent : List SentMessage

namespace Store

variable (s : Store)

/-- The object in memory with the user in it, if it lets them join. -/
def joinCached (c : ChannelId) (u : UserId) (role : Option MemberRole) : Option Channel :=
  (s.cache.get c).bind fun ch =>
    if !ch.isActive then none
    else if !ch.metadata.allowInvite && decide (ch.channelType = .group) then none
    else (ch.addMember u role).toOption

/-- The object in memory without the user, if it lets them go. -/
def leaveCached (c : ChannelId) (u : UserId) : Option Channel :=
  (s.cache.get c).bind fun ch => (ch.removeMember u).toOption

/-- The channel row with that id is that of the group. -/
def isGroupRow (g : GroupId) : Bool :=
  (s.channels.get g).any fun row =>
    decide (row.channelType = .group) && decide (row.groupId = some g)

end Store

/-- Bring the number of members up to date. -/
def recountDb (g : GroupId) (s : Store) : Store := countDb g (s.activeMembers g).length s

/-- A new group with its first members. -/
def foundDb (g : GroupId) (creator : UserId) (ids : List UserId) (now : Millis) (s : Store) :
    Store :=
  let s := upsertDb g creator .owner now (groupDb g ⟨creator, 0⟩ s)
  recountDb g ((unseen [creator] ids).foldl (fun s u => upsertDb g u .member now s) s)

/-- A group to which a channel row refers cannot be deleted. -/
def deleteGroupDb (g : GroupId) (s : Store) : Store :=
  if s.isReferenced g then s else dropGroupDb g s

namespace History

variable (h : History)

def ptsOf (c : ChannelId) : ℕ := (h.pts.get c).getD 0

def recipientsAtSendTime (c : ChannelId) (messagePts : ℕ) (sender : UserId) : List UserId :=
  ((h.intervals.filter fun i => decide (i.channelId = c) && decide (i.userId ≠ sender) &&
    i.covers messagePts).map (·.userId)).dedup

def write (f : Store → Store) : History := { h with store := f h.store }

/-- There is never more than one open stretch. -/
def openInterval (c : ChannelId) (u : UserId) : History :=
  if h.intervals.any fun i => i.isOf c u && i.isOpen then h
  else { h with intervals := ⟨c, u, h.ptsOf c, none⟩ :: h.intervals }

def closeInterval (c : ChannelId) (u : UserId) : History :=
  { h with intervals := h.intervals.map (·.close c u (h.ptsOf c)) }

/-! ### The functions -/

/-- A mirror row needs the channel row. -/
def addParticipant (c : ChannelId) (u : UserId) (role : MemberRole) : History :=
  if h.store.hasChannel c then (h.write (participantDb c u role)).openInterval c u else h

def addParticipants (c : ChannelId) (ch : Channel) : History :=
  (ch.members.select fun _ _ => true).foldl (fun h x => h.addParticipant c x.1 x.2.role) h

/-- The group is there; save its channel, mirror its members and load it. If the id is that of
another conversation the group is given up. -/
def saveGroup (g : GroupId) (ch : Channel) : History :=
  if h.store.hasChannel g then
    if h.store.isGroupRow g then (h.addParticipants g ch).write (cacheDb g ch)
    else h.write (deleteGroupDb g)
  else ((h.write (channelDb g (.ofChannel ch))).addParticipants g ch).write (cacheDb g ch)

/-- The group gets the id after `seq`. How many channels the creator has in memory is `owned`. -/
def createChannel (cfg : ChannelServiceConfig) (owned : Option ℕ) (seq : ℕ) (creator : UserId)
    (req : CreateChannelRequest) (now : Millis) : History :=
  match validateCreateRequest cfg owned req with
  | some _ => h
  | none =>
    if req.name.isNone || h.store.hasGroup (seq + 1) then h
    else (h.write (foundDb (seq + 1) creator req.memberIds now)).saveGroup (seq + 1)
      (groupChannel cfg (seq + 1) creator req)

/-- The member row is not written if its group is gone. -/
def joinChannel (c : ChannelId) (u : UserId) (role : Option MemberRole) (now : Millis) : History :=
  match h.store.joinCached c u role with
  | none => h
  | some ch =>
    if ch.channelType = .group && h.store.hasGroup c then
      h.write fun s => recountDb c (upsertDb c u (role.getD .member) now (cacheDb c ch s))
    else h.write (cacheDb c ch)

def approveJoinRequestInTx (r : RequestId) (g : GroupId) (u handler : UserId) (now : Millis) :
    History :=
  if h.store.isPending r && h.store.hasGroup g then
    h.write fun s =>
      approvedCache g u (recountDb g (upsertDb g u .member now (approvedDb r handler s)))
  else h

def addMemberAdmin (g : GroupId) (u : UserId) (now : Millis) : History :=
  if h.store.isActiveMember g u || !h.store.hasGroup g then h
  else (h.write fun s => recountDb g (upsertDb g u .member now s)).joinChannel g u none now

/-- The request mirrors the user first, and then has them join. -/
def addGroupMember (g : GroupId) (u : UserId) (role : MemberRole) (now : Millis) : History :=
  (h.addParticipant g u role).joinChannel g u none now

def markOneMemberLeftInTx (g : GroupId) (u : UserId) (now : Millis) : History :=
  if h.store.isActiveMember g u then
    (h.write fun s => recountDb g (leftDb g u now s)).closeInterval g u
  else h

def leaveChannel (c : ChannelId) (u : UserId) (now : Millis) : History :=
  match h.store.leaveCached c u with
  | none => h
  | some ch =>
    if ch.channelType = .group then
      (h.write (cacheDb c ch)).markOneMemberLeftInTx c u now
    else h.write (cacheDb c ch)

def removeMemberAdmin (g : GroupId) (u : UserId) (now : Millis) : History :=
  h.markOneMemberLeftInTx g u now

/-- The commit of a message takes the next pts of its channel. -/
def commitMessage (c : ChannelId) (sender : UserId) : History :=
  { h with
    pts := h.pts.put c (h.ptsOf c + 1)
    sent := ⟨c, h.ptsOf c + 1, sender, h.store⟩ :: h.sent }

/-- Objects are loaded, changed and dropped by other functions too. -/
def setCached (c : ChannelId) : Option Channel → History
  | some ch => h.write (cacheDb c ch)
  | none => h.write (evictDb [c])

end History

/-! ### Runs -/

namespace History

inductive Call
  | createChannel (owned : Option ℕ) (seq : ℕ) (creator : UserId) (req : CreateChannelRequest)
    (now : Millis)
  | addParticipant (c : ChannelId) (u : UserId) (role : MemberRole)
  | joinChannel (c : ChannelId) (u : UserId) (role : Option MemberRole) (now : Millis)
  | approveJoinRequestInTx (r : RequestId) (g : GroupId) (u handler : UserId) (now : Millis)
  | addMemberAdmin (g : GroupId) (u : UserId) (now : Millis)
  | addGroupMember (g : GroupId) (u : UserId) (role : MemberRole) (now : Millis)
  | leaveChannel (c : ChannelId) (u : UserId) (now : Millis)
  | removeMemberAdmin (g : GroupId) (u : UserId) (now : Millis)
  | commitMessage (c : ChannelId) (sender : UserId)
  | setCached (c : ChannelId) (ch : Option Channel)

def call (cfg : ChannelServiceConfig) (h : History) : Call → History
  | .createChannel owned seq creator req now => h.createChannel cfg owned seq creator req now
  | .addParticipant c u role => h.addParticipant c u role
  | .joinChannel c u role now => h.joinChannel c u role now
  | .approveJoinRequestInTx r g u handler now => h.approveJoinRequestInTx r g u handler now
  | .addMemberAdmin g u now => h.addMemberAdmin g u now
  | .addGroupMember g u role now => h.addGroupMember g u role now
  | .leaveChannel c u now => h.leaveChannel c u now
  | .removeMemberAdmin g u now => h.removeMemberAdmin g u now
  | .commitMessage c sender => h.commitMessage c sender
  | .setCached c ch => h.setCached c ch

def run (cfg : ChannelServiceConfig) (h : History) (calls : List Call) : History :=
  calls.foldl (call cfg) h

/-- No groups and no messages yet; there may be other channels, and requests to join. -/
def start (channels : Table ChannelId ChannelRow) (requests : Table RequestId JoinRequestRow) :
    History :=
  ⟨.start channels requests, .empty, [], []⟩

/-- Some stretch of the user covers the message. -/
def Covered (h : History) (c : ChannelId) (u : UserId) (p : ℕ) : Prop :=
  ∃ i ∈ h.intervals, i.isOf c u = true ∧ i.covers p = true

/-- Some stretch of the user is open. -/
def Open (h : History) (c : ChannelId) (u : UserId) : Prop :=
  ∃ i ∈ h.intervals, i.isOf c u = true ∧ i.isOpen = true

/-- All stretches lie in the past. -/
def Past (h : History) : Prop :=
  ∀ i ∈ h.intervals, i.joinedPts ≤ h.ptsOf i.channelId ∧
    ∀ l ∈ i.leftPts, l ≤ h.ptsOf i.channelId

variable {h : History} {c c' : ChannelId} {u w : UserId} {p : ℕ}

lemma mem_recipientsAtSendTime {sender : UserId} :
    u ∈ h.recipientsAtSendTime c p sender ↔ u ≠ sender ∧ h.Covered c u p := by
  simp only [recipientsAtSendTime, List.mem_dedup, List.mem_map, List.mem_filter,
    Bool.and_eq_true, decide_eq_true_eq, Covered, Interval.isOf]
  constructor
  · rintro ⟨i, ⟨hi, ⟨hc, hu⟩, hp⟩, rfl⟩
    exact ⟨hu, i, hi, ⟨hc, rfl⟩, hp⟩
  · rintro ⟨hu, i, hi, ⟨hc, rfl⟩, hp⟩
    exact ⟨i, ⟨hi, ⟨hc, hu⟩, hp⟩, rfl⟩

lemma isOf_iff {i : Interval} : i.isOf c u = true ↔ i.channelId = c ∧ i.userId = u := by
  simp [Interval.isOf]

lemma Past.covered_next (hp : h.Past) : h.Covered c u (h.ptsOf c + 1) ↔ h.Open c u := by
  refine exists_congr fun i => and_congr_right fun hi => and_congr_right fun hof => ?_
  obtain ⟨rfl, -⟩ := isOf_iff.mp hof
  obtain ⟨hjoined, hleft⟩ := hp i hi
  cases hl : i.leftPts with
  | none =>
    have hlt : i.joinedPts < h.ptsOf i.channelId + 1 := by omega
    simp [Interval.covers, Interval.isOpen, hl, hlt]
  | some l =>
    have hlt : ¬h.ptsOf i.channelId + 1 ≤ l := Nat.not_le.mpr (Nat.lt_succ_of_le (hleft l hl))
    simp only [Interval.covers, Interval.isOpen, hl, Option.all_some, hlt, decide_false,
      Bool.and_false, Option.isNone_some]

lemma isOf_close (i : Interval) : (i.close c u p).isOf c' w = i.isOf c' w := by
  unfold Interval.close
  split <;> rfl

lemma isOpen_close (i : Interval) : (i.close c u p).isOpen = (i.isOpen && !i.isOf c u) := by
  unfold Interval.close
  cases hof : i.isOf c u with
  | false => simp
  | true =>
    cases hopen : i.isOpen with
    | false => simp [hopen]
    | true => simp [Interval.isOpen]

lemma covers_close {i : Interval} (hp : p ≤ h.ptsOf i.channelId) :
    (i.close c u (h.ptsOf c)).covers p = i.covers p := by
  unfold Interval.close
  split
  · rename_i hi
    obtain ⟨hof, hopen⟩ := Bool.and_eq_true_iff.mp hi
    obtain ⟨rfl, -⟩ := isOf_iff.mp hof
    have hl : i.leftPts = none := by simpa [Interval.isOpen] using hopen
    simp [Interval.covers, hl, hp]
  · rfl

/-! ### What is known of the messages so far -/

/-- Each message is covered by the stretches of those who were members when it was sent. -/
structure Remembers (h : History) : Prop where
  past : h.Past
  sent : ∀ m ∈ h.sent, m.pts ≤ h.ptsOf m.channelId ∧ ∀ u,
    h.Covered m.channelId u m.pts ↔ m.tables.isActiveMember m.channelId u = true

namespace Remembers

variable (hr : h.Remembers)

include hr

lemma write (f : Store → Store) : (h.write f).Remembers := ⟨hr.past, hr.sent⟩

lemma intervals {l : List Interval} (hpast : { h with intervals := l }.Past)
    (hcov : ∀ c u p, p ≤ h.ptsOf c → ({ h with intervals := l }.Covered c u p ↔ h.Covered c u p)) :
    { h with intervals := l }.Remembers where
  past := hpast
  sent m hm := by
    obtain ⟨hle, hm'⟩ := hr.sent m hm
    exact ⟨hle, fun u => (hcov m.channelId u m.pts hle).trans (hm' u)⟩

lemma openInterval : (h.openInterval c u).Remembers := by
  unfold History.openInterval
  split
  · exact hr
  refine hr.intervals (fun i hi => ?_) fun c' w p hle => ⟨?_, ?_⟩
  · rcases List.mem_cons.mp hi with rfl | hi
    · exact ⟨le_refl _, nofun⟩
    · exact hr.past i hi
  · rintro ⟨i, hi, hof, hcov⟩
    rcases List.mem_cons.mp hi with rfl | hi
    · -- the new stretch begins after the messages so far
      obtain rfl : c = c' := (isOf_iff.mp hof).1
      simp only [Interval.covers, Bool.and_eq_true, decide_eq_true_eq] at hcov
      omega
    · exact ⟨i, hi, hof, hcov⟩
  · rintro ⟨i, hi, hof, hcov⟩
    exact ⟨i, List.mem_cons_of_mem _ hi, hof, hcov⟩

lemma closeInterval : (h.closeInterval c u).Remembers := by
  refine hr.intervals (fun i hi => ?_) fun c' w p hle => ?_
  · obtain ⟨j, hj, rfl⟩ := List.mem_map.mp hi
    obtain ⟨hjoined, hleft⟩ := hr.past j hj
    unfold Interval.close
    split
    · rename_i hi
      obtain ⟨rfl, -⟩ := isOf_iff.mp (Bool.and_eq_true_iff.mp hi).1
      refine ⟨hjoined, fun l hl => ?_⟩
      obtain rfl := Option.some.inj hl
      exact le_refl _
    · exact ⟨hjoined, hleft⟩
  · simp only [Covered, List.mem_map, exists_exists_and_eq_and, isOf_close]
    refine exists_congr fun i => and_congr_right fun _ => and_congr_right fun hof => ?_
    obtain ⟨rfl, -⟩ := isOf_iff.mp hof
    rw [covers_close hle]

variable {role : MemberRole} {now : Millis} {cfg : ChannelServiceConfig}

lemma addParticipant : (h.addParticipant c u role).Remembers := by
  unfold History.addParticipant
  split
  · exact (hr.write _).openInterval
  · exact hr

lemma addParticipants {ch : Channel} : (h.addParticipants c ch).Remembers := by
  unfold History.addParticipants
  induction ch.members.select fun _ _ => true generalizing h with
  | nil => exact hr
  | cons x xs ih => exact ih hr.addParticipant

lemma createChannel {owned : Option ℕ} {seq : ℕ} {creator : UserId} {req : CreateChannelRequest} :
    (h.createChannel cfg owned seq creator req now).Remembers := by
  unfold History.createChannel
  split
  · exact hr
  split
  · exact hr
  have hr1 := hr.write (foundDb (seq + 1) creator req.memberIds now)
  unfold saveGroup
  split
  · split
    · exact hr1.addParticipants.write _
    · exact hr1.write _
  · exact (hr1.write _).addParticipants.write _

lemma joinChannel {role : Option MemberRole} : (h.joinChannel c u role now).Remembers := by
  unfold History.joinChannel
  split
  · exact hr
  split <;> exact hr.write _

lemma markOneMemberLeftInTx {g : GroupId} : (h.markOneMemberLeftInTx g u now).Remembers := by
  unfold History.markOneMemberLeftInTx
  split
  · exact (hr.write _).closeInterval
  · exact hr

lemma commitMessage (hopen : ∀ u, h.Open c u ↔ h.store.isActiveMember c u = true)
    {sender : UserId} : (h.commitMessage c sender).Remembers := by
  have hle : ∀ c', h.ptsOf c' ≤ (h.commitMessage c sender).ptsOf c' := by
    intro c'
    by_cases hc : c' = c
    · simp [History.commitMessage, ptsOf, hc]
    · simp [History.commitMessage, ptsOf, hc]
  refine ⟨fun i hi => ?_, fun m hm => ?_⟩
  · obtain ⟨hjoined, hleft⟩ := hr.past i hi
    exact ⟨hjoined.trans (hle _), fun l hl => (hleft l hl).trans (hle _)⟩
  · rcases List.mem_cons.mp hm with rfl | hm
    · refine ⟨?_, fun u => hr.past.covered_next.trans (hopen u)⟩
      simp [History.commitMessage, ptsOf]
    · obtain ⟨hm1, hm2⟩ := hr.sent m hm
      exact ⟨hm1.trans (hle _), hm2⟩

/-- No call but the commit of a message sends one, and none changes who its recipients were. -/
lemma call (hopen : ∀ c u, h.Open c u ↔ h.store.isActiveMember c u = true) {a : Call} :
    (h.call cfg a).Remembers := by
  cases a with
  | createChannel owned seq creator req now => exact hr.createChannel
  | addParticipant c u role => exact hr.addParticipant
  | joinChannel c u role now => exact hr.joinChannel
  | approveJoinRequestInTx r g u handler now =>
    unfold History.call approveJoinRequestInTx
    dsimp only
    split
    · exact hr.write _
    · exact hr
  | addMemberAdmin g u now =>
    unfold History.call addMemberAdmin
    dsimp only
    split
    · exact hr
    · exact (hr.write _).joinChannel
  | addGroupMember g u role now => exact hr.addParticipant.joinChannel
  | leaveChannel c u now =>
    unfold History.call leaveChannel
    dsimp only
    split
    · exact hr
    split
    · exact (hr.write _).markOneMemberLeftInTx
    · exact hr.write _
  | removeMemberAdmin g u now => exact hr.markOneMemberLeftInTx
  | commitMessage c sender => exact hr.commitMessage (hopen c)
  | setCached c ch => cases ch <;> exact hr.write _

end Remembers

end History

end PrivChat.Groups
