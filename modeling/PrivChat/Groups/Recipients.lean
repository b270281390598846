import PrivChat.Groups.Intervals

/-!
The recipients of a message, as they are worked out later, against the members it was sent to.

Only `addParticipant` opens an interval, so only who comes into a group along with it is found. A
user who joins by `joinChannel` alone, whose request is approved, or whom the administration adds is
a member without an interval: none of the messages to them has them as a recipient.
-/

namespace PrivChat.Groups

open Db Channels

variable {s s1 : Store} {g : GroupId} {u w : UserId}

/-- Channel rows refer to groups that are there. -/
def Store.Bound (s : Store) : Prop :=
  ∀ c row g, s.channels.get c = some row → row.groupId = some g → s.hasGroup g = true

lemma Store.Sound.not_active (hs : s.Sound) (hg : s.hasGroup g = false) (u : UserId) :
    s.isActiveMember g u = false := by
  rw [← activeRole_isSome, hs.activeRole_none hg]
  rfl

lemma seated_foundDb (hs : s.Sound) (hg : s.hasGroup g = false) {creator : UserId}
    {ids : List UserId} {now : Millis} :
    Seated s g (creator :: ids) (foundDb g creator ids now s) := by
  have hseats : ∀ (us ids' : List UserId) (v : Store), Seated s g ids' v →
      Seated s g (us.reverse ++ ids') (us.foldl (fun s u => upsertDb g u .member now s) v) := by
    intro us
    induction us with
    | nil => exact fun _ _ hv => hv
    | cons u us ih => exact fun ids' v hv => (ih (u :: ids') _ hv.seat).congr fun w => by simp
  refine ((hseats _ [creator] _ (seated_groupDb hs hg).seat).congr fun w => ?_).count
  simp only [List.mem_append, List.mem_reverse, mem_unseen, List.mem_cons]
  tauto

namespace History

variable {cfg : ChannelServiceConfig} {h h' : History} {c c' : ChannelId}

lemma openInterval_of_open (ho : h.Open c u) : h.openInterval c u = h := by
  refine if_pos (List.any_eq_true.mpr ?_)
  obtain ⟨i, hi, hof, hopen⟩ := ho
  exact ⟨i, hi, Bool.and_eq_true_iff.mpr ⟨hof, hopen⟩⟩

lemma store_openInterval (h : History) (c : ChannelId) (u : UserId) :
    (h.openInterval c u).store = h.store := by
  unfold openInterval
  split <;> rfl

lemma open_openInterval : (h.openInterval c u).Open c' w ↔ (c' = c ∧ w = u) ∨ h.Open c' w := by
  by_cases ho : h.Open c u
  · rw [openInterval_of_open ho]
    refine ⟨.inr, ?_⟩
    rintro (⟨rfl, rfl⟩ | ho')
    · exact ho
    · exact ho'
  · have hnew : h.openInterval c u =
        { h with intervals := ⟨c, u, h.ptsOf c, none⟩ :: h.intervals } := by
      refine if_neg fun hany => ho ?_
      simpa [Open] using hany
    rw [hnew]
    constructor
    · rintro ⟨i, hi, hof, hopen⟩
      rcases List.mem_cons.mp hi with rfl | hi
      · exact .inl ⟨(isOf_iff.mp hof).1.symm, (isOf_iff.mp hof).2.symm⟩
      · exact .inr ⟨i, hi, hof, hopen⟩
    · rintro (⟨rfl, rfl⟩ | ⟨i, hi, hof, hopen⟩)
      · exact ⟨_, List.mem_cons_self, isOf_iff.mpr ⟨rfl, rfl⟩, rfl⟩
      · exact ⟨i, List.mem_cons_of_mem _ hi, hof, hopen⟩

lemma open_closeInterval : (h.closeInterval c u).Open c' w ↔ ¬ (c' = c ∧ w = u) ∧ h.Open c' w := by
  simp only [Open, closeInterval, List.mem_map, exists_exists_and_eq_and, isOf_close, isOpen_close,
    Bool.and_eq_true, Bool.not_eq_true']
  constructor
  · rintro ⟨i, hi, hof, hopen, hnot⟩
    refine ⟨?_, i, hi, hof, hopen⟩
    rintro ⟨rfl, rfl⟩
    simp [hof] at hnot
  · rintro ⟨hne, i, hi, hof, hopen⟩
    obtain ⟨rfl, rfl⟩ := isOf_iff.mp hof
    exact ⟨i, hi, hof, hopen, by simpa [Interval.isOf] using hne⟩

/-- The members are the users with an open stretch. -/
structure Tracks (h : History) : Prop where
  sound : h.store.Sound
  bound : h.store.Bound
  open_iff : ∀ c u, h.Open c u ↔ h.store.isActiveMember c u = true

namespace Tracks

variable (ht : h.Tracks) {role : MemberRole} {now : Millis} {ch : Channel}

include ht

/-! ### The functions -/

lemma cached : (h.write (cacheDb c ch)).Tracks := ⟨ht.sound, ht.bound, ht.open_iff⟩

lemma seat (hg : h.store.hasGroup g = true)
    (hstore : h'.store = recountDb g (upsertDb g u role now h.store))
    (hopen : ∀ c w, h'.Open c w ↔ (c = g ∧ w = u) ∨ h.Open c w) : h'.Tracks where
  sound := by
    rw [hstore]
    exact ht.sound.upsertDb.countDb
  bound c row g' hrow hgroup := by
    rw [hstore] at hrow ⊢
    refine (hasGroup_countDb _ g g').trans (hasGroup_upsertDb.trans ?_)
    exact ht.bound c row g' (channels_upsertDb ▸ hrow) hgroup
  open_iff c w := by
    have hact : h'.store.isActiveMember c w = (upsertDb g u role now h.store).isActiveMember c w :=
      hstore ▸ rfl
    rw [hopen, hact, isActiveMember_upsertDb hg, ht.open_iff, Bool.or_eq_true, decide_eq_true_eq]

lemma reseat (hg : h.store.hasGroup g = true) (hact : h.store.isActiveMember g u = true) :
    (h.write fun s => recountDb g (upsertDb g u role now s)).Tracks := by
  refine ht.seat hg rfl fun c w => ⟨.inr, ?_⟩
  rintro (⟨rfl, rfl⟩ | ho)
  · exact (ht.open_iff c w).mpr hact
  · exact ho

lemma addParticipant (hact : h.store.isActiveMember c u = true) :
    (h.addParticipant c u role).Tracks ∧
      (h.addParticipant c u role).store.isActiveMember c u = true := by
  unfold History.addParticipant
  split
  · have ho : (h.write (participantDb c u role)).Open c u := (ht.open_iff c u).mpr hact
    rw [openInterval_of_open ho]
    exact ⟨⟨ht.sound, ht.bound, ht.open_iff⟩, hact⟩
  · exact ⟨ht, hact⟩

lemma joinChannel {role : Option MemberRole}
    (hj : h.store.joinCached c u role = none ∨ h.store.isActiveMember c u = true) :
    (h.joinChannel c u role now).Tracks := by
  unfold History.joinChannel
  split
  · exact ht
  · rename_i ch hch
    have hact : h.store.isActiveMember c u = true := hj.resolve_left (by simp [hch])
    split
    · rename_i hgroup
      exact ht.cached.reseat (Bool.and_eq_true_iff.mp hgroup).2 hact
    · exact ht.cached

lemma markOneMemberLeftInTx : (h.markOneMemberLeftInTx g u now).Tracks := by
  unfold History.markOneMemberLeftInTx
  split
  · refine ⟨ht.sound.leftDb.countDb, fun c row g' hrow hgroup => ?_, fun c' w => ?_⟩
    · exact (hasGroup_countDb _ g g').trans (ht.bound c row g' hrow hgroup)
    · have hact := isActiveMember_leftDb h.store g u now c' w
      refine open_closeInterval.trans (Iff.trans ?_ (Eq.congr_left hact).symm)
      rw [Bool.and_eq_true, Bool.not_eq_true', decide_eq_false_iff_not, ← ht.open_iff]
      rfl
  · exact ht

lemma addGroupMember (hc : h.store.hasChannel g = true) (hg : h.store.hasGroup g = true)
    (hj : h.store.joinCached g u none = some ch) (htype : ch.channelType = .group) :
    (h.addGroupMember g u role now).Tracks := by
  have hpart : h.addParticipant g u role = (h.write (participantDb g u role)).openInterval g u := by
    simp [History.addParticipant, hc]
  have hstore : (h.addParticipant g u role).store = participantDb g u role h.store := by
    rw [hpart, store_openInterval]
    rfl
  -- neither the object nor the group row is touched before the join
  have hj1 : (h.addParticipant g u role).store.joinCached g u none = some ch := hstore ▸ hj
  have hg1 : (h.addParticipant g u role).store.hasGroup g = true := hstore ▸ hg
  have heq : h.addGroupMember g u role now = (h.addParticipant g u role).write fun s =>
      recountDb g (upsertDb g u .member now (cacheDb g ch s)) := by
    unfold History.addGroupMember History.joinChannel
    rw [hj1]
    simp [htype, hg1]
  have ht1 : ((h.write (participantDb g u role)).write (cacheDb g ch)).Tracks :=
    ⟨ht.sound, ht.bound, ht.open_iff⟩
  have hrows : (h.addGroupMember g u role now).store = recountDb g (upsertDb g u .member now
      ((h.write (participantDb g u role)).write (cacheDb g ch)).store) := by
    rw [heq, History.write, hstore]
    rfl
  refine ht1.seat hg hrows fun c w => ?_
  rw [heq, hpart]
  exact open_openInterval

omit ht

/-! ### New groups -/

variable {creator : UserId} {ids : List UserId}

lemma mirror {xs : List (UserId × ChannelMember)} (hc : h.store.hasChannel c = true)
    (hh : h' = xs.foldl (fun h x => h.addParticipant c x.1 x.2.role) h) :
    (∃ t, h'.store = { h.store with participants := t }) ∧
      ∀ c' w, h'.Open c' w ↔ (c' = c ∧ w ∈ xs.map (·.1)) ∨ h.Open c' w := by
  subst hh
  induction xs generalizing h with
  | nil => exact ⟨⟨_, rfl⟩, by simp⟩
  | cons x xs ih =>
    have hstep : h.addParticipant c x.1 x.2.role =
        (h.write (participantDb c x.1 x.2.role)).openInterval c x.1 := by
      simp [History.addParticipant, hc]
    have hstore : (h.addParticipant c x.1 x.2.role).store =
        participantDb c x.1 x.2.role h.store := by
      rw [hstep, store_openInterval]
      rfl
    obtain ⟨⟨t, hrows⟩, hopen⟩ := ih (h := h.addParticipant c x.1 x.2.role) (hstore ▸ hc)
    refine ⟨⟨t, hrows.trans (by rw [hstore]; rfl)⟩, fun c' w => ?_⟩
    have hone : (h.addParticipant c x.1 x.2.role).Open c' w ↔ (c' = c ∧ w = x.1) ∨ h.Open c' w := by
      rw [hstep]
      exact open_openInterval
    rw [List.foldl_cons, hopen, hone, List.map_cons, List.mem_cons]
    tauto

lemma mem_select_members (ch : Channel) :
    w ∈ (ch.members.select fun _ _ => true).map (·.1) ↔ (ch.members.get w).isSome = true := by
  rw [List.mem_map, Option.isSome_iff_exists]
  constructor
  · rintro ⟨⟨w', m⟩, hm, rfl⟩
    exact ⟨m, (Table.mem_select.mp hm).1⟩
  · rintro ⟨m, hm⟩
    exact ⟨(w, m), Table.mem_select.mpr ⟨hm, rfl⟩, rfl⟩

include ht

variable (hg : h.store.hasGroup g = false)

include hg

lemma abandoned (hs : Seated h.store g ids s1) : (h.write fun _ => deleteGroupDb g s1).Tracks := by
  -- no channel row refers to a group that was not there
  have href : s1.isReferenced g = false := by
    unfold Store.isReferenced
    rw [Table.any_eq_false]
    intro c row hrow
    rw [hs.channels] at hrow
    rw [decide_eq_false_iff_not]
    intro hgroup
    have := ht.bound c row g hrow hgroup
    simp [hg] at this
  have hdel : deleteGroupDb g s1 = dropGroupDb g s1 := by simp [deleteGroupDb, href]
  rw [hdel]
  refine ⟨hs.sound.dropGroupDb, fun c row g' hrow hgroup => ?_, fun c w => ?_⟩
  · have hg' := ht.bound c row g' (hs.channels ▸ hrow) hgroup
    have hne : g' ≠ g := by
      rintro rfl
      simp [hg] at hg'
    have hsame := (hs.confined g' hne).group
    simpa [History.write, dropGroupDb, Store.hasGroup, hne] using hsame.trans hg'
  · refine (ht.open_iff c w).trans (Eq.congr_left ?_)
    by_cases hc : c = g
    · subst hc
      rw [ht.sound.not_active hg]
      simp [History.write, dropGroupDb, Store.isActiveMember, Table.get_deleteWhere]
    · rw [← (hs.confined c hc).active]
      simp [History.write, dropGroupDb, Store.isActiveMember, Table.get_deleteWhere, hc]

lemma founded (hs : Seated h.store g ids s1) (hid : ch.groupId = some g)
    (hmem : ∀ w, (ch.members.get w).isSome = decide (w ∈ ids)) :
    (((h.write fun _ => channelDb g (.ofChannel ch) s1).addParticipants g ch).write
      (cacheDb g ch)).Tracks := by
  obtain ⟨⟨t, hstore⟩, hopen⟩ := mirror (c := g)
    (h := h.write fun _ => channelDb g (.ofChannel ch) s1)
    (by simp [History.write, channelDb, Store.hasChannel]) rfl
  refine cached ⟨?_, ?_, fun c w => ?_⟩
  · rw [History.addParticipants, hstore]
    exact hs.sound
  · rw [History.addParticipants, hstore]
    intro c row g' hrow hgroup
    by_cases hgg : g' = g
    · exact hgg ▸ hs.group
    · have hold : h.store.channels.get c = some row := by
        by_cases hc : c = g
        · have : row = .ofChannel ch := by simpa [History.write, channelDb, hc] using hrow.symm
          subst this
          exact absurd (Option.some.inj (hgroup.symm.trans hid)) hgg
        · simpa [History.write, channelDb, hc, hs.channels] using hrow
      exact (hs.confined g' hgg).group.trans (ht.bound c row g' hold hgroup)
  · rw [History.addParticipants, hstore]
    refine (hopen c w).trans ?_
    rw [mem_select_members, hmem, decide_eq_true_iff]
    have hold : (h.write fun _ => channelDb g (.ofChannel ch) s1).Open c w ↔
        h.store.isActiveMember c w = true := ht.open_iff c w
    have hnow : s1.isActiveMember c w = true ↔ (c = g ∧ w ∈ ids) ∨ h.store.isActiveMember c w := by
      by_cases hc : c = g
      · subst hc
        simp [hs.active, ht.sound.not_active hg]
      · simp [(hs.confined c hc).active, hc]
    rw [hold]
    exact hnow.symm

omit ht hg

lemma groupId_addMembers (ids : List UserId) : ∀ ch : Channel,
    (addMembers ids ch).groupId = ch.groupId := by
  induction ids with
  | nil => exact fun _ => rfl
  | cons u ids ih =>
    intro ch
    refine (ih ((ch.addMember u none).toOption.getD ch)).trans ?_
    cases hadd : ch.addMember u none with
    | error text => rfl
    | ok ch' =>
      unfold Channel.addMember at hadd
      split at hadd
      · cases hadd
      split at hadd
      · cases hadd
      split at hadd
      · cases hadd
      · cases hadd
        rfl

include ht

lemma createChannel {req : CreateChannelRequest} (hfit : fits cfg creator req = true)
    {owned : Option ℕ} {seq : ℕ} : (h.createChannel cfg owned seq creator req now).Tracks := by
  unfold History.createChannel
  split
  · exact ht
  split
  · exact ht
  rename_i hnew
  have hg : h.store.hasGroup (seq + 1) = false := by
    simp only [Bool.or_eq_true, not_or, Bool.not_eq_true] at hnew
    exact hnew.2
  have hs : Seated h.store (seq + 1) (creator :: req.memberIds)
      (foundDb (seq + 1) creator req.memberIds now h.store) := seated_foundDb ht.sound hg
  obtain ⟨-, -, hmem⟩ := members_groupChannel hfit
  unfold saveGroup
  split
  · split
    · -- the row of a group that was not there
      rename_i hrow
      unfold Store.isGroupRow at hrow
      rw [show ((h.write (foundDb (seq + 1) creator req.memberIds now)).store).channels =
        h.store.channels from hs.channels, Option.any_eq_true] at hrow
      obtain ⟨row, hget, hgroup⟩ := hrow
      simp only [Bool.and_eq_true, decide_eq_true_eq] at hgroup
      have := ht.bound (seq + 1) row (seq + 1) hget hgroup.2
      simp [hg] at this
    · exact ht.abandoned hg hs
  · exact ht.founded hg hs (groupId_addMembers _ _) hmem

end Tracks

/-! ### Runs -/

/-- Who comes into a group gets a mirror row and a member row in the one call. That is so for the
first members of a new group, as far as they find room, and for those added on request, unless the
object in memory turns them away. The other functions are for members only. -/
def Call.recorded (cfg : ChannelServiceConfig) (h : History) : Call → Bool
  | .createChannel _ _ creator req _ => fits cfg creator req
  | .addParticipant c u _ => h.store.isActiveMember c u
  | .joinChannel c u role _ => (h.store.joinCached c u role).isNone || h.store.isActiveMember c u
  | .approveJoinRequestInTx r g u _ _ => !h.store.isPending r || h.store.isActiveMember g u
  | .addMemberAdmin g u _ => h.store.isActiveMember g u
  | .addGroupMember g u _ _ => h.store.isActiveMember g u ||
      h.store.hasChannel g && h.store.hasGroup g &&
        (h.store.joinCached g u none).any fun ch => decide (ch.channelType = .group)
  | .leaveChannel _ _ _ | .removeMemberAdmin _ _ _ | .commitMessage _ _ | .setCached _ _ => true

/-- Every call is recorded in the state it is made in. -/
def RecordedRun (cfg : ChannelServiceConfig) (h : History) : List Call → Prop
  | [] => True
  | a :: calls => a.recorded cfg h = true ∧ RecordedRun cfg (h.call cfg a) calls

instance decidableRecordedRun (cfg : ChannelServiceConfig) :
    ∀ (h : History) (calls : List Call), Decidable (RecordedRun cfg h calls)
  | _, [] => inferInstanceAs (Decidable True)
  | h, a :: calls =>
    have := decidableRecordedRun cfg (h.call cfg a) calls
    inferInstanceAs (Decidable (_ ∧ _))

lemma Tracks.call (ht : h.Tracks) {a : Call} (ha : a.recorded cfg h = true) :
    (h.call cfg a).Tracks := by
  cases a with
  | createChannel owned seq creator req now => exact ht.createChannel ha
  | addParticipant c u role => exact (ht.addParticipant ha).1
  | joinChannel c u role now =>
    refine ht.joinChannel ?_
    simpa [Call.recorded] using ha
  | approveJoinRequestInTx r g u handler now =>
    unfold History.call approveJoinRequestInTx
    dsimp only
    split
    · rename_i hp
      obtain ⟨hpending, hg⟩ := Bool.and_eq_true_iff.mp hp
      have hact : h.store.isActiveMember g u = true := by
        simpa [Call.recorded, hpending] using ha
      have ht1 : (h.write (approvedDb r handler)).Tracks := ⟨ht.sound, ht.bound, ht.open_iff⟩
      have ht2 : ((h.write (approvedDb r handler)).write fun s =>
          recountDb g (upsertDb g u .member now s)).Tracks := ht1.reseat hg hact
      exact ⟨ht2.sound, ht2.bound, ht2.open_iff⟩
    · exact ht
  | addMemberAdmin g u now =>
    have hact : h.store.isActiveMember g u = true := ha
    simpa [History.call, addMemberAdmin, hact] using ht
  | addGroupMember g u role now =>
    simp only [Call.recorded, Bool.or_eq_true, Bool.and_eq_true, Option.any_eq_true,
      decide_eq_true_eq] at ha
    rcases ha with hact | ⟨⟨hc, hg⟩, ch, hj, htype⟩
    · exact (ht.addParticipant hact).1.joinChannel (.inr (ht.addParticipant hact).2)
    · exact ht.addGroupMember hc hg hj htype
  | leaveChannel c u now =>
    unfold History.call leaveChannel
    dsimp only
    split
    · exact ht
    split
    · exact ht.cached.markOneMemberLeftInTx
    · exact ht.cached
  | removeMemberAdmin g u now => exact ht.markOneMemberLeftInTx
  | commitMessage c sender => exact ⟨ht.sound, ht.bound, ht.open_iff⟩
  | setCached c ch => cases ch <;> exact ⟨ht.sound, ht.bound, ht.open_iff⟩

lemma tracks_run {calls : List Call} : ∀ h : History, h.Tracks → h.Remembers →
    RecordedRun cfg h calls → (h.run cfg calls).Remembers := by
  induction calls with
  | nil => exact fun _ _ hr _ => hr
  | cons a calls ih => exact fun h ht hr hrec => ih _ (ht.call hrec.1) (hr.call ht.open_iff) hrec.2

lemma tracks_start {channels : Table ChannelId ChannelRow}
    (hch : ∀ c row, channels.get c = some row → row.groupId = none)
    {requests : Table RequestId JoinRequestRow} : (start channels requests).Tracks := by
  refine ⟨sound_start, fun c row g hrow hgroup => ?_, fun c u => ?_⟩
  · rw [hch c row hrow] at hgroup
    cases hgroup
  · simp [start, Open, Store.start, Store.isActiveMember]

lemma remembers_start {channels : Table ChannelId ChannelRow}
    {requests : Table RequestId JoinRequestRow} : (start channels requests).Remembers :=
  ⟨fun _ hi => absurd hi List.not_mem_nil, fun _ hm => absurd hm List.not_mem_nil⟩

/-- **The recipients of a message, looked up at any later time, are the members of the group at the
time it was committed, without the sender**, in every run in which nobody comes into a group but
with a mirror row. -/
theorem recipientsAtSendTime_are_members (cfg : ChannelServiceConfig)
    (channels : Table ChannelId ChannelRow) (requests : Table RequestId JoinRequestRow)
    (hch : ∀ c row, channels.get c = some row → row.groupId = none) (calls : List Call)
    (hrun : RecordedRun cfg (start channels requests) calls) (m : SentMessage)
    (hm : m ∈ ((start channels requests).run cfg calls).sent) (u : UserId) :
    u ∈ ((start channels requests).run cfg calls).recipientsAtSendTime m.channelId m.pts
        m.senderId ↔ u ≠ m.senderId ∧ m.tables.isActiveMember m.channelId u = true := by
  have hr := tracks_run _ (tracks_start hch) remembers_start hrun
  rw [mem_recipientsAtSendTime, (hr.sent m hm).2 u]

/-- One comes with the group and one is added; the first leaves between the messages. -/
def addedAndLeft : List Call :=
  [.createChannel none 0 1 ⟨some "g", [2], none, none⟩ 10, .addGroupMember 1 3 .member 11,
    .commitMessage 1 1, .leaveChannel 1 2 12, .commitMessage 1 1]

theorem recipientsAtSendTime_are_members_sample :
    RecordedRun {} (start .empty .empty) addedAndLeft ∧
      ∃ m ∈ ((start .empty .empty).run {} addedAndLeft).sent, m.pts = 1 ∧
        (2 ∈ ((start .empty .empty).run {} addedAndLeft).recipientsAtSendTime m.channelId m.pts
          m.senderId ↔ 2 ≠ m.senderId ∧ m.tables.isActiveMember m.channelId 2 = true) ∧
        m.tables.isActiveMember m.channelId 2 = true :=
  ⟨by decide, _, List.mem_cons_of_mem _ List.mem_cons_self, rfl,
    recipientsAtSendTime_are_members {} .empty .empty (fun _ _ h => nomatch h) addedAndLeft
      (by decide) _ (List.mem_cons_of_mem _ List.mem_cons_self) 2, by decide⟩

/-- Two people make a group, and a third comes in by its code before the first message. -/
def joinedByCode : List Call :=
  [.createChannel none 0 1 ⟨some "g", [2], none, none⟩ 10, .joinChannel 1 3 none 11,
    .commitMessage 1 1]

/-- The third is a member when the message is committed, and is none of its recipients. -/
theorem joined_without_interval : ∃ m ∈ ((start .empty .empty).run {} joinedByCode).sent,
      m.channelId = 1 ∧ m.pts = 1 ∧ m.senderId = 1 ∧
      m.tables.isActiveMember 1 2 = true ∧ m.tables.isActiveMember 1 3 = true ∧
      ((start .empty .empty).run {} joinedByCode).recipientsAtSendTime 1 1 1 = [2] :=
  ⟨_, List.mem_cons_self, rfl, rfl, rfl, by decide, by decide, by decide⟩

end History

end PrivChat.Groups
