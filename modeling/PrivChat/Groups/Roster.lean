import PrivChat.Groups.Service
import PrivChat.Db.Locking

/-!
What the group functions are about: a roster for each group, with its owner and the roles of its
active members. Each statement that writes does one thing to a roster. Then what one commit of a
group function may do: which locks it takes for what it changes, and what it makes of the rosters.
-/

namespace PrivChat.Groups

open Db Channels

/-- The owner a group is written to, and the roles of its active members. -/
@[ext]
structure Roster where
  ownerId : UserId
  role : UserId → Option MemberRole

namespace Roster

variable (r : Roster)

def founded (owner : UserId) (ids : List UserId) : Roster where
  ownerId := owner
  role u := if u = owner then some .owner else if u ∈ ids then some .member else none

/-- The user is in, with this role, whatever they were before. -/
def seat (u : UserId) (role : MemberRole) : Roster :=
  { r with role := Function.update r.role u (some role) }

def unseat (u : UserId) : Roster := { r with role := Function.update r.role u none }

/-- A member gets a role; who is not in stays out. -/
def appoint (u : UserId) (role : MemberRole) : Roster :=
  { r with role := Function.update r.role u ((r.role u).map fun _ => role) }

def handOver (u : UserId) : Roster :=
  { (r.appoint r.ownerId .member).appoint u .owner with ownerId := u }

/-- Exactly one member has the role of the owner, and it is the owner. -/
def HasOneOwner : Prop := ∀ u, r.role u = some .owner ↔ u = r.ownerId

variable {r} {u : UserId} {role : MemberRole}

lemma founded_hasOneOwner {owner : UserId} {ids : List UserId} :
    (founded owner ids).HasOneOwner := by
  intro u
  by_cases hu : u = owner
  · simp [founded, hu]
  · by_cases hm : u ∈ ids <;> simp [founded, hu, hm]

lemma HasOneOwner.seat (h : r.HasOneOwner) (hu : role = .owner ↔ u = r.ownerId) :
    (r.seat u role).HasOneOwner := by
  intro w
  by_cases hw : w = u
  · subst hw
    simpa [Roster.seat] using hu
  · simpa [Roster.seat, Function.update_of_ne hw] using h w

lemma HasOneOwner.unseat (h : r.HasOneOwner) (hu : u ≠ r.ownerId) : (r.unseat u).HasOneOwner := by
  intro w
  by_cases hw : w = u
  · subst hw
    simpa [Roster.unseat] using hu
  · simpa [Roster.unseat, Function.update_of_ne hw] using h w

lemma HasOneOwner.appoint (h : r.HasOneOwner) (hu : u ≠ r.ownerId) (hr : role ≠ .owner) :
    (r.appoint u role).HasOneOwner := by
  intro w
  by_cases hw : w = u
  · subst hw
    simp [Roster.appoint, hu, hr]
  · simpa [Roster.appoint, Function.update_of_ne hw] using h w

lemma HasOneOwner.handOver (h : r.HasOneOwner) (hu : u ≠ r.ownerId) (hin : (r.role u).isSome) :
    (r.handOver u).HasOneOwner := by
  intro w
  by_cases hw : w = u
  · subst hw
    obtain ⟨role, hrole⟩ := Option.isSome_iff_exists.mp hin
    simp [Roster.handOver, Roster.appoint, Function.update_of_ne hu, hrole]
  · by_cases ho : w = r.ownerId
    · subst ho
      simp [Roster.handOver, Roster.appoint, hw]
    · simpa [Roster.handOver, Roster.appoint, Function.update_of_ne hw,
        Function.update_of_ne ho, hw, ho] using h w

end Roster

def Store.roster (s : Store) (g : GroupId) : Option Roster :=
  (s.groups.get g).map fun row => ⟨row.ownerId, s.activeRole g⟩

/-- Member rows belong to groups that are there. -/
def Store.Sound (s : Store) : Prop :=
  ∀ g u, (s.members.get (g, u)).isSome → s.hasGroup g = true

lemma sound_start {channels : Table ChannelId ChannelRow}
    {requests : Table RequestId JoinRequestRow} : (Store.start channels requests).Sound := by
  intro g u h
  simp [Store.start] at h

variable {s : Store} {g g' : GroupId} {u : UserId}

lemma ownerId_roster (s : Store) (g : GroupId) : (s.roster g).map (·.ownerId) = s.ownerId g := by
  simp [Store.roster, Store.ownerId, Function.comp_def]

lemma roster_eq_none : s.roster g = none ↔ s.hasGroup g = false := by
  simp [Store.roster, Store.hasGroup]

lemma activeRole_isSome : (s.activeRole g u).isSome = s.isActiveMember g u := by
  simp only [Store.activeRole, Store.isActiveMember, Option.isSome_map]
  cases s.members.get (g, u) with
  | none => rfl
  | some row => cases h : row.isActive <;> simp [Option.filter, h]

lemma roster_congr {s s' : Store} (hg : s'.groups.get g = s.groups.get g)
    (hm : ∀ u, s'.members.get (g, u) = s.members.get (g, u)) : s'.roster g = s.roster g := by
  have hrole : s'.activeRole g = s.activeRole g := by
    funext u
    simp [Store.activeRole, hm u]
  simp [Store.roster, hg, hrole]

lemma Store.Sound.activeRole_none (h : s.Sound) (hg : s.hasGroup g = false) (u : UserId) :
    s.activeRole g u = none := by
  cases hm : s.members.get (g, u) with
  | none => simp [Store.activeRole, hm]
  | some row =>
    have := h g u (by simp [hm])
    simp [hg] at this

/-! ### One write -/

lemma roster_groups (s s' : Store) (hm : s'.members = s.members) (g : GroupId) :
    s'.roster g = (s'.groups.get g).map fun row => ⟨row.ownerId, s.activeRole g⟩ := by
  have hrole : s'.activeRole g = s.activeRole g := by
    funext u
    simp [Store.activeRole, hm]
  rw [Store.roster, hrole]

lemma roster_groupDb (s : Store) (g g' : GroupId) (row : GroupRow) : (groupDb g row s).roster g' =
      if g' = g then some ⟨row.ownerId, s.activeRole g⟩ else s.roster g' := by
  rw [roster_groups s (groupDb g row s) rfl]
  by_cases h : g' = g
  · subst h
    simp [groupDb]
  · simp [groupDb, Store.roster, h]

lemma roster_countDb (s : Store) (g g' : GroupId) (n : ℕ) :
    (countDb g n s).roster g' = s.roster g' := by
  rw [roster_groups s (countDb g n s) rfl]
  by_cases h : g' = g
  · subst h
    simp [countDb, Store.roster, Function.comp_def]
  · simp [countDb, Store.roster, h]

lemma roster_ownerDb (s : Store) (g g' : GroupId) (u : UserId) : (ownerDb g u s).roster g' =
      if g' = g then (s.roster g).map fun r => { r with ownerId := u } else s.roster g' := by
  rw [roster_groups s (ownerDb g u s) rfl]
  by_cases h : g' = g
  · subst h
    simp [ownerDb, Store.roster, Function.comp_def]
  · simp [ownerDb, Store.roster, h]

lemma roster_members (s s' : Store) (g : GroupId) (u : UserId) (hg : s'.groups = s.groups)
    (hm : ∀ k, k ≠ (g, u) → s'.members.get k = s.members.get k) (g' : GroupId) :
    s'.roster g' = if g' = g then
      (s.roster g).map fun r => { r with role := Function.update r.role u (s'.activeRole g u) }
    else s.roster g' := by
  by_cases h : g' = g
  · subst h
    have hrole : s'.activeRole g' = Function.update (s.activeRole g') u (s'.activeRole g' u) := by
      funext w
      by_cases hw : w = u
      · simp [hw]
      · have hk : (g', w) ≠ (g', u) := fun he => hw (congrArg Prod.snd he)
        simp [Function.update_of_ne hw, Store.activeRole, hm _ hk]
    rw [if_pos rfl, Store.roster, Store.roster, hg, Option.map_map]
    exact congrArg (fun f => Option.map f _) (funext fun row => by simp [← hrole])
  · rw [if_neg h]
    exact roster_congr (by rw [hg]) fun w => hm _ fun he => h (congrArg Prod.fst he)

lemma roster_upsertDb (s : Store) (g g' : GroupId) (u : UserId) (role : MemberRole)
    (now : Millis) : (upsertDb g u role now s).roster g' =
      if g' = g then (s.roster g).map (·.seat u role) else s.roster g' := by
  by_cases hh : s.hasGroup g = true
  · have hu : (upsertDb g u role now s).activeRole g u = some role := by
      cases hm : s.members.get (g, u) <;>
        simp [upsertDb, hh, Store.activeRole, hm, upsertRow, GroupMemberRow.isActive, Option.filter]
    rw [roster_members s (upsertDb g u role now s) g u (by simp [upsertDb, hh])
      (fun k hk => by simp [upsertDb, hh, hk]) g', hu]
    rfl
  · have hn : s.roster g = none := roster_eq_none.mpr (by simpa using hh)
    have he : upsertDb g u role now s = s := by simp [upsertDb, hh]
    rw [he, hn]
    by_cases h : g' = g
    · simp [h, hn]
    · simp [h]

lemma roster_leftDb (s : Store) (g g' : GroupId) (u : UserId) {now : Millis} :
    (leftDb g u now s).roster g' =
      if g' = g then (s.roster g).map (·.unseat u) else s.roster g' := by
  have hu : (leftDb g u now s).activeRole g u = none := by
    cases hm : s.members.get (g, u) with
    | none => simp [leftDb, Store.activeRole, hm]
    | some row =>
      cases hl : row.leftAt <;>
        simp [leftDb, Store.activeRole, hm, GroupMemberRow.isActive, hl]
  rw [roster_members s (leftDb g u now s) g u rfl (fun k hk => by simp [leftDb, hk]) g', hu]
  rfl

lemma activeRole_roleDb (s : Store) (g : GroupId) (u w : UserId) (role : MemberRole) :
    (roleDb g u role s).activeRole g w =
      if w = u then (s.activeRole g u).map fun _ => role else s.activeRole g w := by
  by_cases hw : w = u
  · subst hw
    cases hm : s.members.get (g, w) with
    | none => simp [roleDb, Store.activeRole, hm]
    | some row =>
      cases hl : row.leftAt <;>
        simp [roleDb, Store.activeRole, hm, GroupMemberRow.isActive, hl, Option.filter]
  · simp [roleDb, Store.activeRole, hw]

lemma roster_roleDb (s : Store) (g g' : GroupId) (u : UserId) {role : MemberRole} :
    (roleDb g u role s).roster g' =
      if g' = g then (s.roster g).map (·.appoint u role) else s.roster g' := by
  have hu : (roleDb g u role s).activeRole g u = (s.activeRole g u).map fun _ => role := by
    rw [activeRole_roleDb, if_pos rfl]
  rw [roster_members s (roleDb g u role s) g u rfl (fun k hk => by simp [roleDb, hk]) g', hu]
  by_cases h : g' = g
  · subst h
    simp only [if_pos, Store.roster, Option.map_map]
    rfl
  · simp [h]

lemma roster_dropGroupDb (s : Store) (g g' : GroupId) :
    (dropGroupDb g s).roster g' = if g' = g then none else s.roster g' := by
  by_cases h : g' = g
  · simp [Store.roster, dropGroupDb, h]
  · rw [if_neg h]
    refine roster_congr (by simp [dropGroupDb, h]) fun u => ?_
    cases hm : s.members.get (g', u) <;>
      simp [dropGroupDb, Table.get_deleteWhere, hm, h, Option.filter]

lemma Store.Sound.groupDb (h : s.Sound) {row : GroupRow} : (groupDb g row s).Sound := by
  intro g' u hu
  have := h g' u hu
  by_cases hg : g' = g <;> simp_all [Groups.groupDb, Store.hasGroup]

lemma Store.Sound.countDb (h : s.Sound) {g : GroupId} {n : ℕ} : (countDb g n s).Sound := by
  intro g' u hu
  have := h g' u hu
  by_cases hg : g' = g <;> simp_all [Groups.countDb, Store.hasGroup]

lemma Store.Sound.ownerDb (h : s.Sound) : (ownerDb g u s).Sound := by
  intro g' w hw
  have := h g' w hw
  by_cases hg : g' = g <;> simp_all [Groups.ownerDb, Store.hasGroup]

variable {role : MemberRole} {now : Millis}

@[simp] lemma groups_upsertDb : (upsertDb g u role now s).groups = s.groups := by
  unfold upsertDb
  split <;> rfl

lemma Store.Sound.upsertDb (h : s.Sound) : (upsertDb g u role now s).Sound := by
  by_cases hh : s.hasGroup g = true
  · intro g' w hw
    by_cases hg : g' = g
    · subst hg
      simpa [Store.hasGroup] using hh
    · have hk : (g', w) ≠ (g, u) := fun he => hg (congrArg Prod.fst he)
      have := h g' w (by simpa [Groups.upsertDb, hh, hk] using hw)
      simpa [Store.hasGroup] using this
  · simpa [Groups.upsertDb, hh] using h

lemma Store.Sound.modify {s' : Store} (h : s.Sound) (hg : s'.groups = s.groups)
    (hm : ∀ k, (s'.members.get k).isSome = (s.members.get k).isSome) : s'.Sound := by
  intro g' w hw
  have := h g' w (by rw [← hm]; exact hw)
  simpa [Store.hasGroup, hg] using this

lemma isSome_modify {κ β : Type} [DecidableEq κ] (t : Table κ β) (k k' : κ) {f : β → β} :
    ((t.modify k f).get k').isSome = (t.get k').isSome := by
  by_cases h : k' = k
  · subst h
    simp
  · simp [h]

lemma Store.Sound.leftDb (h : s.Sound) : (leftDb g u now s).Sound :=
  h.modify rfl fun _ => isSome_modify _ _ _

lemma Store.Sound.roleDb (h : s.Sound) : (roleDb g u role s).Sound :=
  h.modify rfl fun _ => isSome_modify _ _ _

lemma Store.Sound.dropGroupDb (h : s.Sound) : (dropGroupDb g s).Sound := by
  intro g' w hw
  by_cases hg : g' = g
  · subst hg
    cases hm : s.members.get (g', w) <;>
      simp [Groups.dropGroupDb, Table.get_deleteWhere, hm] at hw
  · have hm : (s.members.get (g', w)).isSome := by
      cases hm : s.members.get (g', w) with
      | none => simp [Groups.dropGroupDb, Table.get_deleteWhere, hm] at hw
      | some row => rfl
    have := h g' w hm
    simpa [Groups.dropGroupDb, Store.hasGroup, hg] using this

/-! ### What the locks guard -/

/-- What each lock guards. The lock of a group also guards for whom it has member rows. -/
def groupGuards : Guards LockKey Store where
  part
    | .group g => .ker fun d => (d.groups.get g, fun u => (d.members.get (g, u)).isSome)
    | .member g u => .ker (·.members.get (g, u))
    | .channel c => .ker (·.channels.get c)
    | .participant c u => .ker (·.participants.get (c, u))
    | .joinRequest r => .ker (·.joinRequests.get r)
    | .cache => .ker (·.cache)
    | .userChannels => .ker (·.userChannels)

variable {d d' : Store} {h : List LockKey} {g : GroupId} {u : UserId}

lemma frame_cache {cache : Table ChannelId Channel} (hk : .cache ∈ h) :
    groupGuards.Frame h d { d with cache := cache } := by
  intro k hk'
  cases k with
  | cache => exact absurd hk hk'
  | _ => rfl

lemma frame_userChannels {cs : Table UserId (List ChannelId)} (hk : .userChannels ∈ h) :
    groupGuards.Frame h d { d with userChannels := cs } := by
  intro k hk'
  cases k with
  | userChannels => exact absurd hk hk'
  | _ => rfl

lemma frame_channelDb {c : ChannelId} {row : ChannelRow} (hk : .channel c ∈ h) :
    groupGuards.Frame h d (channelDb c row d) := by
  intro k hk'
  cases k with
  | channel c' => exact Table.get_put_of_ne _ fun he => hk' (he ▸ hk)
  | _ => rfl

lemma frame_participantDb {c : ChannelId} (hk : .participant c u ∈ h) :
    groupGuards.Frame h d (participantDb c u role d) := by
  intro k hk'
  cases k with
  | participant c' u' =>
    refine Table.get_put_of_ne _ fun he => hk' ?_
    cases he
    exact hk
  | _ => rfl

lemma frame_approvedDb {r : RequestId} {handler : UserId} (hk : .joinRequest r ∈ h) :
    groupGuards.Frame h d (approvedDb r handler d) := by
  intro k hk'
  cases k with
  | joinRequest r' => exact Table.get_modify_of_ne _ fun he => hk' (he ▸ hk)
  | _ => rfl

lemma frame_groups {groups : Table GroupId GroupRow} (hk : .group g ∈ h)
    (hg : ∀ g', g' ≠ g → groups.get g' = d.groups.get g') :
    groupGuards.Frame h d { d with groups := groups } := by
  intro k hk'
  cases k with
  | group g' => exact Prod.ext (hg g' fun he => hk' (he ▸ hk)) rfl
  | _ => rfl

lemma frame_countDb {n : ℕ} (hk : .group g ∈ h) : groupGuards.Frame h d (countDb g n d) :=
  frame_groups hk fun _ hg => Table.get_modify_of_ne _ hg

lemma frame_members {f : GroupMemberRow → GroupMemberRow} (hk : .member g u ∈ h) :
    groupGuards.Frame h d { d with members := d.members.modify (g, u) f } := by
  intro k hk'
  cases k with
  | group g' => exact Prod.ext rfl (funext fun w => isSome_modify _ _ _)
  | member g' w =>
    refine Table.get_modify_of_ne _ fun he => hk' ?_
    cases he
    exact hk
  | _ => rfl

lemma frame_upsertDb (hg : .group g ∈ h)
    (hk : .member g u ∈ h) : groupGuards.Frame h d (upsertDb g u role now d) := by
  have hrow : ∀ k, k ≠ (g, u) → (upsertDb g u role now d).members.get k = d.members.get k := by
    intro k hne
    unfold upsertDb
    split
    · exact Table.get_put_of_ne _ hne
    · rfl
  intro k hk'
  cases k with
  | group g' =>
    refine Prod.ext (congrArg (Table.get · g') groups_upsertDb) (funext fun w =>
      congrArg Option.isSome (hrow _ fun he => hk' ?_))
    cases he
    exact hg
  | member g' w =>
    refine hrow _ fun he => hk' ?_
    cases he
    exact hk
  | channel | participant | joinRequest | cache | userChannels => unfold upsertDb; split <;> rfl

lemma frame_dropGroupDb (hg : .group g ∈ h)
    (hk : ∀ u, (d.members.get (g, u)).isSome → .member g u ∈ h) :
    groupGuards.Frame h d (dropGroupDb g d) := by
  have hother : ∀ g' w, g' ≠ g → (dropGroupDb g d).members.get (g', w) = d.members.get (g', w) := by
    intro g' w hne
    cases hm : d.members.get (g', w) <;>
      simp [dropGroupDb, Table.get_deleteWhere, hm, hne, Option.filter]
  intro k hk'
  cases k with
  | group g' =>
    have hne : g' ≠ g := fun he => hk' (he ▸ hg)
    exact Prod.ext (Table.get_erase_of_ne _ hne) (funext fun w =>
      congrArg Option.isSome (hother g' w hne))
  | member g' w =>
    by_cases hne : g' = g
    · subst hne
      have hn : d.members.get (g', w) = none := by
        by_contra hs
        exact hk' (hk w (Option.isSome_iff_ne_none.mpr hs))
      show (dropGroupDb g' d).members.get (g', w) = d.members.get (g', w)
      simp [dropGroupDb, Table.get_deleteWhere, hn]
    · exact hother g' w hne
  | _ => rfl

def LockKey.isMember : LockKey → Bool
  | .member _ _ => true
  | .group _ | .channel _ | .participant _ _ | .joinRequest _ | .cache | .userChannels => false

/-- A member row is locked. -/
def locksMember (h : List LockKey) : Bool := h.any LockKey.isMember

lemma locksMember_of_mem (hk : LockKey.member g u ∈ h) : locksMember h = true :=
  List.any_eq_true.mpr ⟨_, hk, rfl⟩

/-- The commit keeps to its locks; of a roster that it changes it makes what `C` says; and unless
the group goes, it has a member row locked for that. -/
structure Effect (C : GroupId → Option Roster → Option Roster → Prop) (d : Store)
    (h : List LockKey) (d' : Store) : Prop where
  frame : groupGuards.Frame h d d'
  sound : d.Sound → d'.Sound
  roster : d.Sound → ∀ g, d'.roster g = d.roster g ∨ C g (d.roster g) (d'.roster g)
  locks : ∀ g, d'.roster g ≠ d.roster g → d'.roster g ≠ none → locksMember h = true

variable {C : GroupId → Option Roster → Option Roster → Prop}

lemma Effect.quiet (hf : groupGuards.Frame h d d') (hg : d'.groups = d.groups)
    (hm : d'.members = d.members) : Effect C d h d' := by
  have hr : ∀ g, d'.roster g = d.roster g := fun g => roster_congr (by rw [hg]) fun u => by rw [hm]
  exact ⟨hf, fun hs => hs.modify hg fun k => by rw [hm], fun _ g => .inl (hr g),
    fun g hne => absurd (hr g) hne⟩

lemma Effect.of_map {f : Roster → Roster} (hf : groupGuards.Frame h d d')
    (hs : d.Sound → d'.Sound) (hk : locksMember h = true)
    (hr : ∀ g', d'.roster g' = if g' = g then (d.roster g).map f else d.roster g')
    (hC : ∀ r, d.roster g = some r → C g (some r) (some (f r))) : Effect C d h d' where
  frame := hf
  sound := hs
  locks _ _ _ := hk
  roster _ g' := by
    rw [hr g']
    by_cases he : g' = g
    · subst he
      cases hd : d.roster g' with
      | none => exact .inl (by simp)
      | some r => exact .inr (by simpa using hC r hd)
    · exact .inl (by simp [he])

end PrivChat.Groups
