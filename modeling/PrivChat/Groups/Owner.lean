import PrivChat.Groups.Spec

/-!
Every group has one owner.

The owner is written down twice, in the group row and as the role of a member row. Creation and the
transfer of a group write both. The other functions write the role of whatever member row they
are called for, and not all of them look whether it is the owner's: so the two agree as long as
nobody calls them for the owner.
-/

namespace PrivChat.Groups

open Db Channels

/-- In every group exactly one active member row has the role of an owner, and it is the row of the
user that the group row has as its owner. -/
def Store.OneOwner (s : Store) : Prop :=
  ∀ g row, s.groups.get g = some row → s.activeOwners g = [row.ownerId]

variable {s d d' : Store} {g : GroupId} {u : UserId} {j : Job} {h : List LockKey}

lemma mem_activeOwners : u ∈ s.activeOwners g ↔ s.activeRole g u = some .owner := by
  simp only [Store.activeOwners, Store.activeMembers, List.mem_map, List.mem_filter,
    Table.mem_select, Store.activeRole, Option.map_eq_some_iff, Option.filter_eq_some_iff,
    Prod.exists, Bool.and_eq_true, decide_eq_true_eq]
  constructor
  · rintro ⟨g', w, row, ⟨⟨hrow, rfl, ha⟩, hr⟩, rfl⟩
    exact ⟨row, ⟨hrow, ha⟩, hr⟩
  · rintro ⟨row, ⟨hrow, ha⟩, hr⟩
    exact ⟨g, u, row, ⟨⟨hrow, rfl, ha⟩, hr⟩, rfl⟩

lemma nodup_activeOwners : (s.activeOwners g).Nodup := by
  refine List.Nodup.map_on ?_ ((Table.nodup_select _).filter _)
  rintro ⟨⟨g1, u1⟩, r1⟩ h1 ⟨⟨g2, u2⟩, r2⟩ h2 (rfl : u1 = u2)
  have m1 := Table.mem_select.mp (List.mem_filter.mp h1).1
  have m2 := Table.mem_select.mp (List.mem_filter.mp h2).1
  simp only [Bool.and_eq_true, decide_eq_true_eq] at m1 m2
  obtain ⟨row1, rfl, -⟩ := m1
  obtain ⟨row2, rfl, -⟩ := m2
  rw [Option.some.inj (row1.symm.trans row2)]

lemma activeOwners_eq_singleton {o : UserId} :
    s.activeOwners g = [o] ↔ ∀ u, s.activeRole g u = some .owner ↔ u = o := by
  constructor
  · intro he u
    rw [← mem_activeOwners, he, List.mem_singleton]
  · intro hall
    refine List.perm_singleton.mp ((List.perm_ext_iff_of_nodup nodup_activeOwners
      (List.nodup_singleton o)).mpr fun u => ?_)
    rw [mem_activeOwners, hall u, List.mem_singleton]

lemma oneOwner_iff : s.OneOwner ↔ ∀ g r, s.roster g = some r → r.HasOneOwner := by
  constructor
  · intro ho g r hr
    obtain ⟨row, hrow, rfl⟩ := Option.map_eq_some_iff.mp hr
    exact activeOwners_eq_singleton.mp (ho g row hrow)
  · intro hall g row hrow
    exact activeOwners_eq_singleton.mpr (hall g ⟨row.ownerId, s.activeRole g⟩ (by
      simp [Store.roster, hrow]))

lemma oneOwner_start {channels : Table ChannelId ChannelRow}
    {requests : Table RequestId JoinRequestRow} : (Store.start channels requests).OneOwner := by
  intro g row hrow
  simp [Store.start] at hrow

/-! ### Calls that leave the owner alone -/

/-- The call is not for the owner of the group, nor does it make anybody else an owner. Creation and
transfer may do as they please. -/
def Job.sparesOwner (s : Store) : Job → Bool
  | .joinChannel c u role =>
    (s.ownerId c).all fun owner => decide (role.getD .member = .owner ↔ u = owner)
  | .approveJoinRequestInTx _ g u _ _ | .leaveChannel g u | .addMemberAdmin g u
  | .removeMemberAdmin g u | .setMemberRoleAdmin g u _ | .addGroupMember g u _ =>
    decide (s.ownerId g ≠ some u)
  | .createChannel _ _ | .createChannelWithId _ _ _ | .transferGroupOwner _ _ _
  | .evictStaleMemory _ | .getChannelOpt _ => true

/-- What a commit on member rows is to meet in the state before it. -/
def Sparing (j : Job) (h : List LockKey) (s : Store) : Prop :=
  locksMember h = true → j.sparesOwner s = true

instance decidableSparing (j : Job) (h : List LockKey) (s : Store) : Decidable (Sparing j h s) :=
  inferInstanceAs (Decidable (_ → _))

lemma ownerId_of_roster {r : Roster} (hr : s.roster g = some r) : s.ownerId g = some r.ownerId := by
  rw [← ownerId_roster, hr]
  rfl

lemma hasOneOwner_of_changes {r' : Roster} (hc : j.changes g (d.roster g) (some r'))
    (hk : j.sparesOwner d = true) (ho : ∀ r, d.roster g = some r → r.HasOneOwner) :
    r'.HasOneOwner := by
  have hseat : ∀ {f : Roster → Roster}, some r' = (d.roster g).map f →
      ∃ r, r' = f r ∧ r.HasOneOwner ∧ d.ownerId g = some r.ownerId := by
    intro f hf
    obtain ⟨r, hr, rfl⟩ := Option.map_eq_some_iff.mp hf.symm
    exact ⟨r, rfl, ho r hr, ownerId_of_roster hr⟩
  cases j with
  | createChannel creator req =>
    rcases hc with ⟨-, hc⟩ | hc
    · rw [Option.some.inj hc]
      exact Roster.founded_hasOneOwner
    · simp at hc
  | createChannelWithId c creator req =>
    rw [Option.some.inj hc.2]
    exact Roster.founded_hasOneOwner
  | joinChannel c u role =>
    obtain ⟨rfl, hc⟩ := hc
    obtain ⟨r, rfl, hone, hown⟩ := hseat hc
    refine hone.seat ?_
    simpa [Job.sparesOwner, hown] using hk
  | transferGroupOwner g0 owner newOwner =>
    obtain ⟨-, hne, r, hr, rfl, hin, hc⟩ := hc
    rw [Option.some.inj hc]
    exact (ho r hr).handOver (Ne.symm hne) hin
  | setMemberRoleAdmin g0 u role =>
    obtain ⟨rfl, hrole, hc⟩ := hc
    obtain ⟨r, rfl, hone, hown⟩ := hseat hc
    have hne : r.ownerId ≠ u := by simpa [Job.sparesOwner, hown] using hk
    exact hone.appoint (Ne.symm hne) hrole
  | approveJoinRequestInTx _ g0 u _ _ | addMemberAdmin g0 u | addGroupMember g0 u _ =>
    obtain ⟨rfl, hc⟩ := hc
    obtain ⟨r, rfl, hone, hown⟩ := hseat hc
    have hne : r.ownerId ≠ u := by simpa [Job.sparesOwner, hown] using hk
    exact hone.seat (by simp [Ne.symm hne])
  | leaveChannel g0 u | removeMemberAdmin g0 u =>
    obtain ⟨rfl, hc⟩ := hc
    obtain ⟨r, rfl, hone, hown⟩ := hseat hc
    have hne : r.ownerId ≠ u := by simpa [Job.sparesOwner, hown] using hk
    exact hone.unseat (Ne.symm hne)
  | evictStaleMemory | getChannelOpt => exact hc.elim

lemma Effect.oneOwner (he : Effect j.changes d h d') (hs : d.Sound) (hk : Sparing j h d)
    (ho : d.OneOwner) : d'.OneOwner := by
  rw [oneOwner_iff] at ho ⊢
  intro g r' hr'
  by_cases heq : d'.roster g = d.roster g
  · exact ho g r' (heq ▸ hr')
  · rcases he.roster hs g with h0 | hc
    · exact absurd h0 heq
    · have hl : locksMember h = true := he.locks g heq (by simp [hr'])
      exact hasOneOwner_of_changes (hr' ▸ hc) (hk hl) (ho g)

/-- **Exactly one owner.** In every run of the group functions, however interleaved, if no call
other than creation and transfer commits on member rows for the owner of its group or makes an owner
of somebody else, then in every committed state each group has exactly one active owner row, that
of the owner of the group row. -/
theorem exactly_one_owner (cfg : ChannelServiceConfig) (channels : Table ChannelId ChannelRow)
    (requests : Table RequestId JoinRequestRow) (evs : List (Event Outside ServerError Job))
    (hevs : CommitsMeet (prog cfg) Sparing (Sys.init (Store.start channels requests)) evs) :
    Throughout (prog cfg) Store.OneOwner (Sys.init (Store.start channels requests)) evs := by
  have hstep : ∀ j h d d', d.Sound → Effect j.changes d h d' → Sparing j h d →
      d.OneOwner → d'.OneOwner := fun _ _ _ _ hs he hk ho => he.oneOwner hs hk ho
  exact Kept.throughout_of_commits meets_prog hstep
    (upheld_init sound_start) oneOwner_start evs hevs

def starts (i : ℕ) (j : Job) : Event Outside ServerError Job := .start i j

def steps (i n : ℕ) : List (Event Outside ServerError Job) := List.replicate n (.step i calm)

/-- The process runs the job to its end, with nobody in between. -/
def runs (i : ℕ) (j : Job) : List (Event Outside ServerError Job) := starts i j :: steps i 80

/-- User 1 creates a group with user 2 in it. -/
def creation : List (Event Outside ServerError Job) :=
  runs 0 (.createChannel 1 ⟨some "group", [2], none, none⟩)

def afterEvents (evs : List (Event Outside ServerError Job)) :
    Sys Store LockKey Outside ServerError Reply Job :=
  (Sys.init (Store.start .empty .empty)).run (prog {}) evs

def succeeded (s : Sys Store LockKey Outside ServerError Reply Job) (i : ℕ) : Bool :=
  (s.procs i).result.any fun r => r.toOption.any Reply.isSuccess

/-- A transfer, and then the removal of the old owner. -/
def transferAndRemove : List (Event Outside ServerError Job) :=
  creation ++ runs 1 (.transferGroupOwner 1 1 2) ++ runs 2 (.removeMemberAdmin 1 1)

set_option maxRecDepth 20000 in
theorem exactly_one_owner_transfer :
    CommitsMeet (prog {}) Sparing (Sys.init (Store.start .empty .empty)) transferAndRemove ∧
      Throughout (prog {}) Store.OneOwner (Sys.init (Store.start .empty .empty))
        transferAndRemove :=
  ⟨by decide, exactly_one_owner {} .empty .empty transferAndRemove (by decide)⟩

/-- The administration removes the owner: nothing looks at the role of the row. -/
def ownerRemoved : List (Event Outside ServerError Job) :=
  creation ++ runs 1 (.removeMemberAdmin 1 1)

/-- A role is about to be set, and the user has been seen to be no owner, when the group is handed
over to them. -/
def appointedInBetween : List (Event Outside ServerError Job) :=
  creation ++ starts 1 (.setMemberRoleAdmin 1 2 .admin) :: steps 1 3 ++
    runs 2 (.transferGroupOwner 1 1 2) ++ steps 1 80

set_option maxRecDepth 20000 in
/-- All calls return success, and the group has an owner but no owner row. -/
theorem owner_row_lost :
    (succeeded (afterEvents ownerRemoved) 0 ∧ succeeded (afterEvents ownerRemoved) 1 ∧
      (afterEvents ownerRemoved).db.ownerId 1 = some 1 ∧
      (afterEvents ownerRemoved).db.activeOwners 1 = []) ∧
    succeeded (afterEvents appointedInBetween) 0 ∧ succeeded (afterEvents appointedInBetween) 1 ∧
      succeeded (afterEvents appointedInBetween) 2 ∧
      (afterEvents appointedInBetween).db.ownerId 1 = some 2 ∧
      (afterEvents appointedInBetween).db.activeOwners 1 = [] := by
  decide

end PrivChat.Groups
