import PrivChat.Groups.Spec
import PrivChat.Db.Alone

/-!
The channel objects of groups in memory, and the rows they are loaded from.

While an object is loaded, its member map is to be the active membership. While it is not, the next
load takes the members from the mirror rows, so then these have to be it.
-/

namespace PrivChat.Groups

open Db Channels

variable {s s' s'' : Store} {g g' : GroupId} {c : ChannelId} {u w : UserId} {ch ch' : Channel}

/-! ### The member map of an object -/

structure SameChannel (ch ch' : Channel) : Prop where
  id : ch'.id = ch.id
  type : ch'.channelType = ch.channelType
  metadata : ch'.metadata = ch.metadata

lemma addMember_ok {role : Option MemberRole} (h : ch.addMember u role = .ok ch') :
    SameChannel ch ch' ∧
      ∀ w, (ch'.members.get w).isSome = (decide (w = u) || (ch.members.get w).isSome) := by
  unfold Channel.addMember at h
  split at h
  · cases h
  split at h
  · cases h
  split at h
  · cases h
  · cases h
    refine ⟨⟨rfl, rfl, rfl⟩, fun w => ?_⟩
    by_cases hw : w = u
    · simp [hw]
    · simp [hw]

lemma removeMember_ok (h : ch.removeMember u = .ok ch') : SameChannel ch ch' ∧
      ∀ w, (ch'.members.get w).isSome = (!decide (w = u) && (ch.members.get w).isSome) := by
  unfold Channel.removeMember at h
  split at h
  · cases h
  split at h
  · cases h
  split at h
  · cases h
  · cases h
    refine ⟨⟨rfl, rfl, rfl⟩, fun w => ?_⟩
    by_cases hw : w = u
    · simp [hw]
    · simp [hw]

variable {role : MemberRole}

lemma updateMemberRole_ok (h : ch.updateMemberRole u role = .ok ch') :
    SameChannel ch ch' ∧ ∀ w, (ch'.members.get w).isSome = (ch.members.get w).isSome := by
  unfold Channel.updateMemberRole at h
  split at h
  · cases h
  · rename_i m hm
    split at h
    · cases h
    split at h
    · cases h
    · cases h
      refine ⟨⟨rfl, rfl, rfl⟩, fun w => ?_⟩
      by_cases hw : w = u
      · simp [hw, hm]
      · simp [hw]

def hasRoom (ch : Channel) : Bool :=
  ch.metadata.maxMembers.all fun max => decide (ch.members.size < max)

lemma members_addMember (ht : ch.channelType = .group)
    (hroom : (ch.members.get u).isSome = true ∨ hasRoom ch = true) :
    SameChannel ch ((ch.addMember u (some .member)).toOption.getD ch) ∧
      ∀ w, ((((ch.addMember u (some .member)).toOption.getD ch).members).get w).isSome =
        (decide (w = u) || (ch.members.get w).isSome) := by
  cases hadd : ch.addMember u (some .member) with
  | ok ch' => exact addMember_ok hadd
  | error text =>
    -- with room for a new member there is no error, so the user is in
    have hin : (ch.members.get u).isSome = true := by
      rcases hroom with hin | hroom
      · exact hin
      · by_contra hout
        cases hmax : ch.metadata.maxMembers with
        | none => simp [Channel.addMember, hout, hmax, ht] at hadd
        | some max =>
          have hlt : ch.members.size < max := by simpa [hasRoom, hmax] using hroom
          simp [Channel.addMember, hout, hmax, ht, Nat.not_le.mpr hlt] at hadd
    refine ⟨⟨rfl, rfl, rfl⟩, fun w => ?_⟩
    by_cases hw : w = u
    · simp [hw, hin, Except.toOption]
    · simp [hw, Except.toOption]

def fits (cfg : ChannelServiceConfig) (creator : UserId) (req : CreateChannelRequest) : Bool :=
  let new := (unseen [creator] req.memberIds).length
  decide (new = 0 ∨ new < req.maxMembers.getD cfg.maxGroupMembers)

lemma members_addMembers (ch : Channel) {max : ℕ} {seen ids : List UserId}
    (ht : ch.channelType = .group) (hmax : ch.metadata.maxMembers = some max)
    (hseen : ∀ w, (ch.members.get w).isSome = decide (w ∈ seen))
    (hfit : unseen seen ids = [] ∨ seen.length + (unseen seen ids).length ≤ max) :
    SameChannel ch (addMembers ids ch) ∧
      ∀ w, ((addMembers ids ch).members.get w).isSome = decide (w ∈ seen ∨ w ∈ ids) := by
  induction ids generalizing ch seen with
  | nil => exact ⟨⟨rfl, rfl, rfl⟩, fun w => by simpa [addMembers] using hseen w⟩
  | cons u ids ih =>
    have hcons : addMembers (u :: ids) ch =
        addMembers ids ((ch.addMember u none).toOption.getD ch) := rfl
    by_cases hu : u ∈ seen
    · have hadd : (ch.addMember u none).toOption.getD ch = ch := by
        have : (ch.members.get u).isSome = true := by simp [hseen, hu]
        simp [Channel.addMember, this, Except.toOption]
      obtain ⟨hsame, hmem⟩ := ih ch ht hmax hseen (by simpa [unseen, hu] using hfit)
      rw [hcons, hadd]
      refine ⟨hsame, fun w => ?_⟩
      by_cases hw : w = u
      · simp [hmem, hw, hu]
      · simp [hmem, hw]
    · have hfit' : seen.length + ((unseen (u :: seen) ids).length + 1) ≤ max := by
        simpa [unseen, hu] using hfit
      have hsize : ch.members.size ≤ seen.length :=
        Table.size_le_length fun w hw => by simpa [hseen] using hw
      have hlt : ¬ max ≤ ch.members.size := by omega
      have hout : (ch.members.get u).isSome = false := by simp [hseen, hu]
      cases hadd : ch.addMember u none with
      | error text => simp [Channel.addMember, hout, hmax, hlt, ht] at hadd
      | ok ch1 =>
        obtain ⟨hsame1, hmem1⟩ := addMember_ok hadd
        have hseen1 : ∀ w, (ch1.members.get w).isSome = decide (w ∈ u :: seen) := by
          intro w
          rw [hmem1, hseen]
          simp
        obtain ⟨hsame, hmem⟩ := ih ch1 (hsame1.type.trans ht) (by rw [hsame1.metadata, hmax]) hseen1
          (.inr (by simp only [List.length_cons]; omega))
        rw [hcons, hadd]
        refine ⟨⟨hsame.id.trans hsame1.id, hsame.type.trans hsame1.type,
          hsame.metadata.trans hsame1.metadata⟩, fun w => ?_⟩
        rw [show (Except.ok ch1 : Except String Channel).toOption.getD ch = ch1 from rfl, hmem]
        simp only [List.mem_cons, decide_eq_decide]
        tauto

lemma members_groupChannel {cfg : ChannelServiceConfig} {creator : UserId}
    {req : CreateChannelRequest} (hfit : fits cfg creator req = true) :
    (groupChannel cfg g creator req).id = g ∧
      (groupChannel cfg g creator req).channelType = .group ∧
      ∀ w, ((groupChannel cfg g creator req).members.get w).isSome =
        decide (w ∈ creator :: req.memberIds) := by
  have hseen : ∀ w, (((Channel.newGroup g creator).members).get w).isSome =
      decide (w ∈ [creator]) := by
    intro w
    by_cases hw : w = creator
    · simp [Channel.newGroup, hw]
    · simp [Channel.newGroup, hw]
  have hroom : unseen [creator] req.memberIds = [] ∨
      [creator].length + (unseen [creator] req.memberIds).length ≤
        req.maxMembers.getD cfg.maxGroupMembers := by
    simp only [fits, decide_eq_true_eq] at hfit
    rcases hfit with h | h
    · exact .inl (List.length_eq_zero_iff.mp h)
    · exact .inr (by simp only [List.length_singleton]; omega)
  obtain ⟨hsame, hmem⟩ := members_addMembers { Channel.newGroup g creator with
    metadata := { (Channel.newGroup g creator).metadata with
      maxMembers := some (req.maxMembers.getD cfg.maxGroupMembers) } } rfl rfl hseen hroom
  refine ⟨hsame.id, hsame.type, fun w => (hmem w).trans ?_⟩
  simp

lemma mem_activeParticipants : u ∈ (s.activeParticipants c).map (·.1.2) ↔ s.isParticipant c u := by
  simp only [Store.activeParticipants, List.mem_map, Prod.exists, Table.mem_select,
    Bool.and_eq_true, decide_eq_true_eq, Store.isParticipant, Option.any_eq_true]
  constructor
  · rintro ⟨c', u', row, ⟨hrow, rfl, hleft⟩, rfl⟩
    exact ⟨row, hrow, hleft⟩
  · rintro ⟨row, hrow, hleft⟩
    exact ⟨c, u, row, ⟨hrow, rfl, hleft⟩, rfl⟩

lemma members_withParticipants (now : Millis)
    (rows : List ((ChannelId × UserId) × ParticipantRow)) (ch : Channel) (w : UserId) :
    ((withParticipants now rows ch).members.get w).isSome ↔
      w ∈ rows.map (·.1.2) ∨ (ch.members.get w).isSome := by
  induction rows generalizing ch with
  | nil => simp [withParticipants]
  | cons x rows ih =>
    have hput := ih { ch with members := ch.members.put x.1.2 (x.2.toChannelMember x.1.2 now) }
    by_cases hw : w = x.1.2
    · simpa [withParticipants, hw] using hput
    · simpa [withParticipants, hw] using hput

lemma isSome_foldl {β γ : Type} {f : Table UserId β → γ → Table UserId β}
    (hf : ∀ t x w, ((f t x).get w).isSome = (t.get w).isSome) {l : List γ} (t : Table UserId β)
    {w : UserId} : ((l.foldl f t).get w).isSome = (t.get w).isSome := by
  induction l generalizing t with
  | nil => rfl
  | cons x l ih => exact (ih (f t x)).trans (hf t x w)

lemma members_applyGroupRoleTruth (truth : List (UserId × MemberRole)) (ch : Channel)
    (w : UserId) : ((applyGroupRoleTruth truth ch).members.get w).isSome =
      (ch.members.get w).isSome :=
  isSome_foldl (fun t x w => isSome_modify t x.1 w) ch.members

lemma members_applyMutes (now : Millis) (mutes : List (UserId × Option Millis)) (ch : Channel)
    (w : UserId) : ((applyMutes now mutes ch).members.get w).isSome =
      (ch.members.get w).isSome := by
  refine isSome_foldl (fun t x w => ?_) ch.members
  split
  · exact isSome_modify t x.1 w
  · rfl

/-- What is loaded of a group is its membership; what would be loaded is too. -/
structure Store.Mirrors (s : Store) (g : GroupId) : Prop where
  row : ∀ row, s.channels.get g = some row → row.channelType = .group
  loaded : ∀ ch, s.cache.get g = some ch →
    ch.channelType = .group ∧ ∀ u, (ch.members.get u).isSome = s.isActiveMember g u
  stored : s.cache.get g = none → s.hasChannel g = true →
    ∀ u, s.isParticipant g u = s.isActiveMember g u

structure Store.Coherent (s : Store) : Prop where
  sound : s.Sound
  ids : ∀ c ch, s.cache.get c = some ch → ch.id = c
  mirrors : ∀ g, s.hasGroup g = true → s.Mirrors g

lemma coherent_start {channels : Table ChannelId ChannelRow}
    {requests : Table RequestId JoinRequestRow} : (Store.start channels requests).Coherent where
  sound := sound_start
  ids c ch h := by simp [Store.start] at h
  mirrors g h := by simp [Store.start, Store.hasGroup] at h

structure AgreeAt (g : GroupId) (s s' : Store) : Prop where
  group : s'.hasGroup g = s.hasGroup g
  active : ∀ u, s'.isActiveMember g u = s.isActiveMember g u
  row : s'.channels.get g = s.channels.get g
  participant : ∀ u, s'.isParticipant g u = s.isParticipant g u
  cache : s'.cache.get g = s.cache.get g

lemma AgreeAt.trans (h : AgreeAt g s s') (h' : AgreeAt g s' s'') : AgreeAt g s s'' where
  group := h'.group.trans h.group
  active u := (h'.active u).trans (h.active u)
  row := h'.row.trans h.row
  participant u := (h'.participant u).trans (h.participant u)
  cache := h'.cache.trans h.cache

lemma AgreeAt.mirrors (h : AgreeAt g s s') (hm : s.Mirrors g) : s'.Mirrors g where
  row row hrow := hm.row row (h.row ▸ hrow)
  loaded ch hch := by
    obtain ⟨htype, hmem⟩ := hm.loaded ch (h.cache ▸ hch)
    exact ⟨htype, fun u => (hmem u).trans (h.active u).symm⟩
  stored hnone hrow u := by
    rw [h.participant, h.active]
    refine hm.stored (h.cache ▸ hnone) ?_ u
    rwa [Store.hasChannel, h.row] at hrow

/-- Only what belongs to one group has changed. -/
def Confined (g : GroupId) (s s' : Store) : Prop := ∀ g', g' ≠ g → AgreeAt g' s s'

lemma Confined.refl : Confined g s s := fun _ _ =>
  ⟨rfl, fun _ => rfl, rfl, fun _ => rfl, rfl⟩

lemma Confined.trans (h : Confined g s s') (h' : Confined g s' s'') : Confined g s s'' :=
  fun g' hg => (h g' hg).trans (h' g' hg)

lemma Store.Coherent.confined (h : s.Coherent) (hc : Confined g s s') (hs : s'.Sound)
    (hid : ∀ ch, s'.cache.get g = some ch → ch.id = g)
    (hg : s'.hasGroup g = true → s'.Mirrors g) : s'.Coherent where
  sound := hs
  ids c ch hch := by
    by_cases hcg : c = g
    · subst hcg
      exact hid ch hch
    · exact h.ids c ch ((hc c hcg).cache ▸ hch)
  mirrors g' hg' := by
    by_cases hgg : g' = g
    · subst hgg
      exact hg hg'
    · exact (hc g' hgg).mirrors (h.mirrors g' ((hc g' hgg).group ▸ hg'))

/-! ### One write -/

variable {now : Millis}

lemma isActiveMember_upsertDb (hg : s.hasGroup g = true)
    : (upsertDb g u role now s).isActiveMember g' w =
      (decide (g' = g ∧ w = u) || s.isActiveMember g' w) := by
  by_cases h : g' = g ∧ w = u
  · obtain ⟨rfl, rfl⟩ := h
    cases hm : s.members.get (g', w) <;>
      simp [upsertDb, hg, Store.isActiveMember, hm, upsertRow, GroupMemberRow.isActive]
  · have hk : (g', w) ≠ (g, u) := fun he => h (by simpa using he)
    simp [upsertDb, hg, Store.isActiveMember, h, hk]

lemma isActiveMember_leftDb (s : Store) (g : GroupId) (u : UserId) (now : Millis) (g' : GroupId)
    (w : UserId) : (leftDb g u now s).isActiveMember g' w =
      (!decide (g' = g ∧ w = u) && s.isActiveMember g' w) := by
  by_cases h : g' = g ∧ w = u
  · obtain ⟨rfl, rfl⟩ := h
    cases hm : s.members.get (g', w) with
    | none => simp [leftDb, Store.isActiveMember, hm]
    | some row =>
      cases hl : row.leftAt <;>
        simp [leftDb, Store.isActiveMember, hm, GroupMemberRow.isActive, hl]
  · have hk : (g', w) ≠ (g, u) := fun he => h (by simpa using he)
    simp [leftDb, Store.isActiveMember, h, hk]

lemma isParticipant_participantDb (s : Store) (c : ChannelId) (u : UserId) (role : MemberRole)
    (c' : ChannelId) (w : UserId) : (participantDb c u role s).isParticipant c' w =
      (decide (c' = c ∧ w = u) || s.isParticipant c' w) := by
  by_cases h : c' = c ∧ w = u
  · obtain ⟨rfl, rfl⟩ := h
    cases hm : s.participants.get (c', w) <;>
      simp [participantDb, Store.isParticipant, hm, participantRow]
  · have hk : (c', w) ≠ (c, u) := fun he => h (by simpa using he)
    simp [participantDb, Store.isParticipant, h, hk]

lemma hasGroup_countDb (s : Store) (g : GroupId) {n : ℕ} (g' : GroupId) :
    (countDb g n s).hasGroup g' = s.hasGroup g' := isSome_modify _ _ _

lemma hasGroup_upsertDb : (upsertDb g u role now s).hasGroup g' = s.hasGroup g' := by
  simp [Store.hasGroup]

@[simp] lemma channels_upsertDb : (upsertDb g u role now s).channels = s.channels := by
  unfold upsertDb
  split <;> rfl

@[simp] lemma participants_upsertDb (s : Store) (g : GroupId) (u : UserId) (role : MemberRole)
    (now : Millis) : (upsertDb g u role now s).participants = s.participants := by
  unfold upsertDb
  split <;> rfl

@[simp] lemma cache_upsertDb : (upsertDb g u role now s).cache = s.cache := by
  unfold upsertDb
  split <;> rfl

lemma confined_groupDb {row : GroupRow} : Confined g s (groupDb g row s) := fun g' hg => by
  refine ⟨?_, fun _ => rfl, rfl, fun _ => rfl, rfl⟩
  simp [groupDb, Store.hasGroup, hg]

lemma confined_countDb {n : ℕ} : Confined g s (countDb g n s) :=
  fun g' _ => ⟨hasGroup_countDb s g g', fun _ => rfl, rfl, fun _ => rfl, rfl⟩

lemma confined_upsertDb (hh : s.hasGroup g = true)
    : Confined g s (upsertDb g u role now s) := fun g' hg => by
  refine ⟨hasGroup_upsertDb, fun w => ?_, by simp, fun w => ?_, by simp⟩
  · simp [isActiveMember_upsertDb hh, hg]
  · simp [Store.isParticipant]

lemma confined_leftDb (s : Store) (g : GroupId) (u : UserId) (now : Millis) :
    Confined g s (leftDb g u now s) := fun g' hg => by
  refine ⟨rfl, fun w => ?_, rfl, fun _ => rfl, rfl⟩
  simp [isActiveMember_leftDb, hg]

lemma confined_channelDb {row : ChannelRow} : Confined c s (channelDb c row s) := fun g' hg => by
  refine ⟨rfl, fun _ => rfl, ?_, fun _ => rfl, rfl⟩
  simp [channelDb, hg]

lemma confined_participantDb : Confined c s (participantDb c u role s) := fun g' hg => by
  refine ⟨rfl, fun _ => rfl, rfl, fun w => ?_, rfl⟩
  simp [isParticipant_participantDb, hg]

lemma confined_cacheDb : Confined c s (cacheDb c ch s) := fun g' hg => by
  refine ⟨rfl, fun _ => rfl, rfl, fun _ => rfl, ?_⟩
  simp [cacheDb, hg]

lemma Store.Coherent.membership (h : s.Coherent) (hc : s.cache.get g = some ch)
    (hconf : Confined g s s') (hs : s'.Sound) (hrow : s'.channels = s.channels)
    (hc' : s'.cache.get g = some ch') (hsame : SameChannel ch ch')
    (hgroup : s'.hasGroup g = true → s.hasGroup g = true)
    (hmem : s.hasGroup g = true → ∀ u, (ch'.members.get u).isSome = s'.isActiveMember g u) :
    s'.Coherent := by
  refine h.confined hconf hs (fun ch1 hch1 => ?_) fun hg => ?_
  · obtain rfl : ch' = ch1 := by simpa [hc'] using hch1
    exact hsame.id.trans (h.ids g ch hc)
  · have hm := h.mirrors g (hgroup hg)
    refine ⟨fun row hr => hm.row row (hrow ▸ hr), fun ch1 hch1 => ?_, fun hnone => ?_⟩
    · obtain rfl : ch' = ch1 := by simpa [hc'] using hch1
      exact ⟨hsame.type.trans (hm.loaded ch hc).1, hmem (hgroup hg)⟩
    · simp [hc'] at hnone

lemma Store.Coherent.replace (h : s.Coherent) (hc : s.cache.get c = some ch)
    (hsame : SameChannel ch ch')
    (hmem : s.hasGroup c = true → ∀ u, (ch'.members.get u).isSome = (ch.members.get u).isSome) :
    (cacheDb c ch' s).Coherent :=
  h.membership hc confined_cacheDb h.sound rfl (by simp [cacheDb]) hsame id
    fun hg u => (hmem hg u).trans (((h.mirrors c hg).loaded ch hc).2 u)

end PrivChat.Groups
