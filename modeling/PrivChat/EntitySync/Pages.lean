import Mathlib.Data.List.MinMax
import Mathlib.Order.Nat
import PrivChat.Db.Feed
import PrivChat.Groups.Model

/-!
The pages of `entity/sync_entities`: groups, and how far channels have been read.

Both tables give every written row a version from a sequence, by a trigger, and a page holds what
has a version above the last the client got. A version is drawn when a row is written, and others
see the row when its transaction commits. A client that is given a later version in between goes on
from there, and never asks for the earlier one.
-/

namespace PrivChat.EntitySync

open Db Channels
open Groups (ChannelRow GroupMemberRow ParticipantRow)

def takeSyncPage {α : Type} (rows : List α) (limit : ℕ) : List α × Bool :=
  (rows.take limit, decide (limit < rows.length))

def nextVersionFromPage {α : Type} (page : List α) (sinceVersion : ℕ) (versionOf : α → ℕ) : ℕ :=
  (page.getLast?.map versionOf).getD sinceVersion

/-- The number of entries on a page, for the number asked for. -/
def clampLimit (limit : ℕ) : ℕ := max (min limit 200) 1

lemma clampLimit_pos (limit : ℕ) : 0 < clampLimit limit := by
  unfold clampLimit
  omega

/-! ### Groups -/

structure GroupRow where
  name : String
  description : Option String
  avatarUrl : Option String
  ownerId : UserId
  memberCount : ℤ
  createdAt : Millis
  updatedAt : Millis
  status : ℕ

structure GroupSyncRow where
  groupId : GroupId
  name : String
  description : Option String
  avatarUrl : Option String
  ownerId : UserId
  memberCount : ℤ
  createdAt : Millis
  updatedAt : Millis
  syncVersion : ℕ
  deriving DecidableEq

structure GroupSyncPayload where
  groupId : GroupId
  name : String
  description : Option String
  avatar : Option String
  avatarUrl : Option String
  ownerId : UserId
  memberCount : ℕ
  createdAt : Millis
  updatedAt : Millis
  deriving DecidableEq

structure SyncEntityItem where
  entityId : String
  version : ℕ
  deleted : Bool
  payload : GroupSyncPayload
  deriving DecidableEq

def GroupSyncRow.ofRow (g : GroupId) (b : Versioned GroupRow) : GroupSyncRow :=
  ⟨g, b.row.name, b.row.description, b.row.avatarUrl, b.row.ownerId, b.row.memberCount,
    b.row.createdAt, b.row.updatedAt, b.version⟩

/-- A negative number of members is sent as none. -/
def GroupSyncRow.toItem (r : GroupSyncRow) : SyncEntityItem where
  entityId := toString r.groupId
  version := r.syncVersion
  deleted := false
  payload := ⟨r.groupId, r.name, r.description, r.avatarUrl, r.avatarUrl, r.ownerId,
    r.memberCount.toNat, r.createdAt, r.updatedAt⟩

def GroupSyncRow.rank (r : GroupSyncRow) : ℕ ×ₗ GroupId := toLex (r.syncVersion, r.groupId)

section Groups

variable (members : Table (GroupId × UserId) GroupMemberRow) (user : UserId)

/-- The user is in the group, and the group has not been closed. -/
def seesGroup (g : GroupId) (row : GroupRow) : Bool :=
  (members.get (g, user)).any (·.isActive) && decide (row.status = 0)

def groupSyncRows (groups : Table GroupId (Versioned GroupRow)) : List GroupSyncRow :=
  (groups.select fun g b => seesGroup members user g b.row).map fun x => .ofRow x.1 x.2

def syncEntitiesPageForGroups : Endpoint GroupId GroupRow SyncEntityItem :=
  fun groups sinceVersion limit =>
    let limit := clampLimit limit
    let rows := (((groupSyncRows members user groups).filter fun r =>
      decide (sinceVersion < r.syncVersion)).insertionSort fun a b => a.rank ≤ b.rank).take
        (limit + 1)
    let (page, hasMore) := takeSyncPage rows limit
    ⟨page.map (·.toItem), nextVersionFromPage page sinceVersion (·.syncVersion), hasMore⟩

lemma mem_groupSyncRows {groups : Table GroupId (Versioned GroupRow)} {r : GroupSyncRow} :
    r ∈ groupSyncRows members user groups ↔
      ∃ g b, groups.get g = some b ∧ seesGroup members user g b.row = true ∧ r = .ofRow g b := by
  simp only [groupSyncRows, List.mem_map, Prod.exists, Table.mem_select]
  constructor
  · rintro ⟨g, b, ⟨hb, hs⟩, rfl⟩
    exact ⟨g, b, hb, hs, rfl⟩
  · rintro ⟨g, b, hb, hs, rfl⟩
    exact ⟨g, b, ⟨hb, hs⟩, rfl⟩

def groupListing : Listing GroupId GroupRow GroupSyncRow GroupId where
  entries := groupSyncRows members user
  rank := GroupSyncRow.rank
  limit := clampLimit
  shows := seesGroup members user
  limit_pos := clampLimit_pos
  origin T r hr := by
    obtain ⟨g, b, hb, -, rfl⟩ := (mem_groupSyncRows members user).mp hr
    exact ⟨g, b, hb, rfl⟩
  distinct T hT r hr r' hr' hv := by
    obtain ⟨g, b, hb, -, rfl⟩ := (mem_groupSyncRows members user).mp hr
    obtain ⟨g', b', hb', -, rfl⟩ := (mem_groupSyncRows members user).mp hr'
    obtain rfl := hT g b g' b' hb hb' hv
    obtain rfl := Option.some.inj (hb.symm.trans hb')
    rfl
  fresh T T' n hT r hr := by
    obtain ⟨g, b, hb, hs, rfl⟩ := (mem_groupSyncRows members user).mp hr
    rcases hT g with hsame | ⟨b', hb', hnew⟩
    · exact .inl ((mem_groupSyncRows members user).mpr ⟨g, b, hsame ▸ hb, hs, rfl⟩)
    · obtain rfl := Option.some.inj (hb.symm.trans hb')
      exact .inr (hnew hs)

end Groups

/-! ### Read cursors -/

structure CursorRow where
  channelId : ChannelId
  userId : UserId
  lastReadPts : ℕ
  syncVersion : ℕ

structure ChannelReadCursorRow where
  channelId : ChannelId
  channelType : ℕ
  readerId : UserId
  lastReadPts : ℕ
  version : ℕ

/-- What the query joins the cursors with, and the user's channels in memory. -/
structure CursorScope where
  user : UserId
  scopeChannelId : Option ChannelId
  channels : Table ChannelId ChannelRow
  participants : Table (ChannelId × UserId) ParticipantRow
  loaded : ChannelId → Option ChannelType

abbrev Cursors := Table (ChannelId × UserId) (Versioned ℕ)

namespace CursorScope

variable (v : CursorScope)

def inScope (c : ChannelId) : Bool := v.scopeChannelId.all fun s => decide (c = s)

def isSelf (k : ChannelId × UserId) : Bool := decide (k.2 = v.user) && v.inScope k.1

/-- The other one of a direct channel of the user. -/
def isPeer (k : ChannelId × UserId) : Bool :=
  decide (k.2 ≠ v.user) && v.inScope k.1 && (v.channels.get k.1).any fun ch =>
    decide (ch.channelType = .direct) &&
      (decide (ch.directUser1Id = some v.user ∧ ch.directUser2Id = some k.2) ||
        decide (ch.directUser2Id = some v.user ∧ ch.directUser1Id = some k.2))

/-- Some other reader of a group the user is in. -/
def isOther (k : ChannelId × UserId) : Bool :=
  decide (k.2 ≠ v.user) && v.inScope k.1 &&
    ((v.channels.get k.1).any fun ch => decide (ch.channelType = .group)) &&
    (v.participants.get (k.1, v.user)).any fun p => p.leftAt.isNone

def rowOf (x : (ChannelId × UserId) × Versioned ℕ) : CursorRow :=
  ⟨x.1.1, x.1.2, x.2.row, x.2.version⟩

def selfRows (cursors : Cursors) : List CursorRow :=
  (cursors.select fun k _ => v.isSelf k).map rowOf

def peerRows (cursors : Cursors) : List CursorRow :=
  (cursors.select fun k _ => v.isPeer k).map rowOf

/-- The cursors of the others in one group. -/
def others (cursors : Cursors) (c : ChannelId) : List ((ChannelId × UserId) × Versioned ℕ) :=
  cursors.select fun k _ => decide (k.1 = c) && v.isOther k

/-- Of a group only how far anyone else has read is shown, under no one's name. -/
def groupRow (cursors : Cursors) (c : ChannelId) : CursorRow where
  channelId := c
  userId := 0
  lastReadPts := ((v.others cursors c).map (·.2.row)).foldr max 0
  syncVersion := ((v.others cursors c).map (·.2.version)).foldr max 0

def groupRows (cursors : Cursors) : List CursorRow :=
  ((cursors.keys.map (·.1)).dedup.filter fun c => !(v.others cursors c).isEmpty).map
    (v.groupRow cursors)

def rows (cursors : Cursors) : List CursorRow :=
  v.selfRows cursors ++ v.peerRows cursors ++ v.groupRows cursors

/-- The kind of a channel is looked up in memory. One that is not there counts as private. -/
def toResponse (r : CursorRow) : ChannelReadCursorRow where
  channelId := r.channelId
  channelType := match v.loaded r.channelId with
    | some .group => 2
    | some .direct | some .room | none => 1
  readerId := r.userId
  lastReadPts := r.lastReadPts
  version := r.syncVersion

end CursorScope

def CursorRow.rank (r : CursorRow) : ℕ ×ₗ ChannelId ×ₗ UserId :=
  toLex (r.syncVersion, toLex (r.channelId, r.userId))

def syncChannelReadCursorPage (v : CursorScope) :
    Endpoint (ChannelId × UserId) ℕ ChannelReadCursorRow :=
  fun cursors sinceVersion limit =>
    let limit := clampLimit limit
    let dbRows := (((v.rows cursors).filter fun r =>
      decide (sinceVersion < r.syncVersion)).insertionSort fun a b => a.rank ≤ b.rank).take
        (limit + 1)
    let hasMore := decide (limit < dbRows.length)
    let rows := (dbRows.take limit).map v.toResponse
    ⟨rows, (rows.getLast?.map (·.version)).getD sinceVersion, hasMore⟩

namespace CursorScope

variable {v : CursorScope} {cursors cursors' : Cursors} {c : ChannelId} {r : CursorRow}
  {x : (ChannelId × UserId) × Versioned ℕ}

lemma mem_others :
    x ∈ v.others cursors c ↔ cursors.get x.1 = some x.2 ∧ x.1.1 = c ∧ v.isOther x.1 = true := by
  obtain ⟨k, b⟩ := x
  simp [others, Table.mem_select]

/-- The rows of the query: one for each cursor of the user and of their peers, and one for each
group in which someone else has a cursor. -/
lemma mem_rows : r ∈ v.rows cursors ↔
    (∃ k b, cursors.get k = some b ∧ (v.isSelf k || v.isPeer k) = true ∧ r = rowOf (k, b)) ∨
    ∃ c, v.others cursors c ≠ [] ∧ r = v.groupRow cursors c := by
  have hone : ∀ p : ChannelId × UserId → Bool, r ∈ (cursors.select fun k _ => p k).map rowOf ↔
        ∃ k b, cursors.get k = some b ∧ p k = true ∧ r = rowOf (k, b) := by
    intro p
    rw [List.mem_map]
    constructor
    · rintro ⟨⟨k, b⟩, hx, rfl⟩
      obtain ⟨hb, hp⟩ := Table.mem_select.mp hx
      exact ⟨k, b, hb, hp, rfl⟩
    · rintro ⟨k, b, hb, hp, rfl⟩
      exact ⟨(k, b), Table.mem_select.mpr ⟨hb, hp⟩, rfl⟩
  have hgroup : r ∈ v.groupRows cursors ↔
      ∃ c, v.others cursors c ≠ [] ∧ r = v.groupRow cursors c := by
    simp only [groupRows, List.mem_map, List.mem_filter, List.mem_dedup, Bool.not_eq_true',
      List.isEmpty_eq_false_iff]
    constructor
    · rintro ⟨c, ⟨-, hne⟩, rfl⟩
      exact ⟨c, hne, rfl⟩
    · rintro ⟨c, hne, rfl⟩
      obtain ⟨x, hx⟩ := List.exists_mem_of_ne_nil _ hne
      obtain ⟨hget, hc, -⟩ := mem_others.mp hx
      exact ⟨c, ⟨⟨x.1, cursors.complete _ _ hget, hc⟩, hne⟩, rfl⟩
  rw [rows, List.mem_append, List.mem_append, hgroup, selfRows, peerRows, hone, hone]
  simp only [Bool.or_eq_true]
  constructor
  · rintro ((⟨k, b, hb, hs, hr⟩ | ⟨k, b, hb, hp, hr⟩) | h)
    · exact .inl ⟨k, b, hb, .inl hs, hr⟩
    · exact .inl ⟨k, b, hb, .inr hp, hr⟩
    · exact .inr h
  · rintro (⟨k, b, hb, hs | hp, hr⟩ | h)
    · exact .inl (.inl ⟨k, b, hb, hs, hr⟩)
    · exact .inl (.inr ⟨k, b, hb, hp, hr⟩)
    · exact .inr h

variable {l : List ℕ}

lemma le_foldr_max {n : ℕ} (h : n ∈ l) : n ≤ l.foldr max 0 :=
  List.le_max_of_le h (le_refl n)

lemma foldr_max_le {n : ℕ} (h : ∀ m ∈ l, m ≤ n) : l.foldr max 0 ≤ n :=
  List.max_le_of_forall_le l n h

lemma foldr_max_mem (hl : l ≠ []) : l.foldr max 0 ∈ l := by
  induction l with
  | nil => exact absurd rfl hl
  | cons a l ih =>
    rw [List.foldr_cons]
    rcases le_total a (l.foldr max 0) with hle | hle
    · rw [max_eq_right hle]
      by_cases hnil : l = []
      · subst hnil
        have : a = 0 := Nat.le_zero.mp hle
        simp [this]
      · exact List.mem_cons_of_mem _ (ih hnil)
    · rw [max_eq_left hle]
      exact List.mem_cons_self

lemma exists_version_groupRow (hne : v.others cursors c ≠ []) :
    ∃ x ∈ v.others cursors c, (v.groupRow cursors c).syncVersion = x.2.version := by
  have hmap : (v.others cursors c).map (·.2.version) ≠ [] := by simpa using hne
  obtain ⟨x, hx, hv⟩ := List.mem_map.mp (foldr_max_mem hmap)
  exact ⟨x, hx, hv.symm⟩

/-- The row of a group is made from the cursors of the others, in whatever order they are found. -/
lemma groupRow_congr (h : ∀ x, x ∈ v.others cursors' c ↔ x ∈ v.others cursors c) :
    v.groupRow cursors' c = v.groupRow cursors c := by
  have hmax : ∀ f : (ChannelId × UserId) × Versioned ℕ → ℕ,
      ((v.others cursors' c).map f).foldr max 0 = ((v.others cursors c).map f).foldr max 0 := by
    intro f
    apply le_antisymm
    · refine foldr_max_le fun y hy => ?_
      obtain ⟨x, hx, rfl⟩ := List.mem_map.mp hy
      exact le_foldr_max (List.mem_map_of_mem ((h x).mp hx))
    · refine foldr_max_le fun y hy => ?_
      obtain ⟨x, hx, rfl⟩ := List.mem_map.mp hy
      exact le_foldr_max (List.mem_map_of_mem ((h x).mpr hx))
  unfold groupRow
  rw [hmax, hmax]

/-- The cursor of another reader of a group is not one's own, and not that of a peer. -/
lemma not_own_of_isOther {k : ChannelId × UserId} (h : v.isOther k = true) :
    (v.isSelf k || v.isPeer k) = false := by
  simp only [isOther, Bool.and_eq_true, decide_eq_true_eq] at h
  obtain ⟨⟨⟨hne, -⟩, htype⟩, -⟩ := h
  cases hch : v.channels.get k.1 with
  | none => simp [hch] at htype
  | some ch =>
    have hgroup : ch.channelType = .group := by simpa [hch] using htype
    simp [isSelf, isPeer, hne, hch, hgroup]

end CursorScope

open CursorScope in
def cursorListing (v : CursorScope) :
    Listing (ChannelId × UserId) ℕ CursorRow (ChannelId ×ₗ UserId) where
  entries := v.rows
  rank := CursorRow.rank
  limit := clampLimit
  shows k _ := v.isSelf k || v.isPeer k || v.isOther k
  limit_pos := clampLimit_pos
  origin T r hr := by
    rcases mem_rows.mp hr with ⟨k, b, hb, -, rfl⟩ | ⟨c, hne, rfl⟩
    · exact ⟨k, b, hb, rfl⟩
    · obtain ⟨x, hx, hv⟩ := exists_version_groupRow hne
      exact ⟨x.1, x.2, (mem_others.mp hx).1, hv⟩
  distinct T hT r hr r' hr' hv := by
    rcases mem_rows.mp hr with ⟨k, b, hb, hown, rfl⟩ | ⟨c, hne, rfl⟩ <;>
      rcases mem_rows.mp hr' with ⟨k', b', hb', hown', rfl⟩ | ⟨c', hne', rfl⟩
    · obtain rfl := hT k b k' b' hb hb' hv
      obtain rfl := Option.some.inj (hb.symm.trans hb')
      rfl
    · -- a cursor that is listed by itself is not one of a group
      obtain ⟨x, hx, hver⟩ := exists_version_groupRow hne'
      obtain ⟨hget, -, hother⟩ := mem_others.mp hx
      obtain rfl := hT k b x.1 x.2 hb hget (hv.trans hver)
      simp [not_own_of_isOther hother] at hown
    · obtain ⟨x, hx, hver⟩ := exists_version_groupRow hne
      obtain ⟨hget, -, hother⟩ := mem_others.mp hx
      obtain rfl := hT x.1 x.2 k' b' hget hb' (hver.symm.trans hv)
      simp [not_own_of_isOther hother] at hown'
    · obtain ⟨x, hx, hver⟩ := exists_version_groupRow hne
      obtain ⟨x', hx', hver'⟩ := exists_version_groupRow hne'
      obtain ⟨hget, hc, -⟩ := mem_others.mp hx
      obtain ⟨hget', hc', -⟩ := mem_others.mp hx'
      have hk := hT x.1 x.2 x'.1 x'.2 hget hget' (hver.symm.trans (hv.trans hver'))
      obtain rfl : c = c' := by rw [← hc, ← hc', hk]
      rfl
  fresh T T' n hT r hr := by
    rcases mem_rows.mp hr with ⟨k, b, hb, hown, rfl⟩ | ⟨c, hne, rfl⟩
    · rcases hT k with hsame | ⟨b', hb', hnew⟩
      · exact .inl (mem_rows.mpr (.inl ⟨k, b, hsame ▸ hb, hown, rfl⟩))
      · obtain rfl := Option.some.inj (hb.symm.trans hb')
        exact .inr (hnew (by simp [hown]))
    · -- if one of the cursors is new, so is the greatest version
      by_cases hold : ∀ x ∈ v.others T' c, T.get x.1 = some x.2
      · have hsame : ∀ x, x ∈ v.others T' c ↔ x ∈ v.others T c := by
          intro x
          constructor
          · intro hx
            exact mem_others.mpr ⟨hold x hx, (mem_others.mp hx).2⟩
          · intro hx
            obtain ⟨hget, hc, hother⟩ := mem_others.mp hx
            rcases hT x.1 with heq | ⟨b', hb', -⟩
            · exact mem_others.mpr ⟨heq.trans hget, hc, hother⟩
            · have hb : T.get x.1 = some b' := hold (x.1, b') (mem_others.mpr ⟨hb', hc, hother⟩)
              obtain rfl := Option.some.inj (hb.symm.trans hget)
              exact mem_others.mpr ⟨hb', hc, hother⟩
        have hne' : v.others T c ≠ [] := by
          obtain ⟨x, hx⟩ := List.exists_mem_of_ne_nil _ hne
          exact List.ne_nil_of_mem ((hsame x).mp hx)
        exact .inl (mem_rows.mpr (.inr ⟨c, hne', groupRow_congr hsame⟩))
      · push Not at hold
        obtain ⟨x, hx, hx'⟩ := hold
        obtain ⟨hget, -, hother⟩ := mem_others.mp hx
        rcases hT x.1 with hsame | ⟨b', hb', hnew⟩
        · exact absurd (hsame.symm.trans hget) hx'
        · obtain rfl := Option.some.inj (hget.symm.trans hb')
          exact .inr ((hnew (by simp [hother])).trans_le (le_foldr_max (List.mem_map.mpr ⟨x, hx,
            rfl⟩)))

section Serves

variable {α : Type} (l : List α) (n : ℕ)

lemma take_take_succ : (l.take (n + 1)).take n = l.take n := by
  rw [List.take_take, min_eq_left (Nat.le_succ n)]

lemma lt_length_take_succ : n < (l.take (n + 1)).length ↔ n < l.length := by
  rw [List.length_take]
  omega

end Serves

lemma serves_groups (members : Table (GroupId × UserId) GroupMemberRow) (user : UserId) :
    (groupListing members user).Serves GroupSyncRow.toItem
      (syncEntitiesPageForGroups members user) := by
  intro T since limit
  simp only [syncEntitiesPageForGroups, takeSyncPage, take_take_succ, lt_length_take_succ]
  rfl

lemma serves_cursors (v : CursorScope) :
    (cursorListing v).Serves v.toResponse (syncChannelReadCursorPage v) := by
  intro T since limit
  simp only [syncChannelReadCursorPage, take_take_succ, lt_length_take_succ, List.getLast?_map,
    Option.map_map]
  rfl

/-! ### What a client has -/

/-- However the client pages on from here, once it is told that there is no more it has received all
that is visible, and it is told so after no more pages than there are rows. -/
def CatchesUp {κ ρ α : Type} (answer : Endpoint κ ρ α) (visible : List α) (s : Session κ ρ α) :
    Prop :=
  ∀ limits limit,
    (visible.length ≤ limits.length →
      (answer s.writers.table (s.pages answer limits).since limit).hasMore = false) ∧
    ((answer s.writers.table (s.pages answer limits).since limit).hasMore = false →
      ∀ a ∈ visible, a ∈ ((s.pages answer limits).page answer limit).received)

lemma catchesUp {κ ρ ε α ι : Type} [DecidableEq κ] [LinearOrder ι] {L : Listing κ ρ ε ι}
    {item : ε → α} {answer : Endpoint κ ρ α} (hL : L.Serves item answer)
    {evs : List (Session.Event κ ρ)} (hrun : Session.OrderlyRun answer L .start evs)
    (hquiet : (Session.start.run answer evs).isQuiet = true) :
    CatchesUp answer ((L.entries (Session.start.run answer evs).writers.table).map item)
      (Session.start.run answer evs) := by
  have h := Session.UpToDate.run hL .start Session.upToDate_start hrun
  intro limits limit
  refine ⟨fun hlen => ?_, fun hmore a ha => ?_⟩
  · rw [List.length_map] at hlen
    exact Session.not_hasMore_pages hL hlen
  · obtain ⟨e, he, rfl⟩ := List.mem_map.mp ha
    exact h.complete hL hquiet hmore he

/-- **Nothing is lost to a client that follows the groups, or the read cursors, of a user by
version**: when the transactions are done and the client has paged to the end, it has received every
visible row as it is then. That is so if, whenever the client asks for a page, no open transaction
has written a row that it would see with a version below one that it can see already. -/
theorem incremental_sync_loses_nothing (members : Table (GroupId × UserId) GroupMemberRow)
    (user : UserId) (v : CursorScope) :
    (∀ evs : List (Session.Event GroupId GroupRow),
      Session.OrderlyRun (syncEntitiesPageForGroups members user) (groupListing members user) .start
        evs → (Session.start.run (syncEntitiesPageForGroups members user) evs).isQuiet = true →
      CatchesUp (syncEntitiesPageForGroups members user) ((groupSyncRows members user
          (Session.start.run (syncEntitiesPageForGroups members user) evs).writers.table).map
            GroupSyncRow.toItem) (Session.start.run (syncEntitiesPageForGroups members user) evs)) ∧
    ∀ evs : List (Session.Event (ChannelId × UserId) ℕ),
      Session.OrderlyRun (syncChannelReadCursorPage v) (cursorListing v) .start evs →
      (Session.start.run (syncChannelReadCursorPage v) evs).isQuiet = true →
      CatchesUp (syncChannelReadCursorPage v)
        ((v.rows (Session.start.run (syncChannelReadCursorPage v) evs).writers.table).map
          v.toResponse) (Session.start.run (syncChannelReadCursorPage v) evs) :=
  ⟨fun _ hrun hquiet => catchesUp (serves_groups members user) hrun hquiet,
    fun _ hrun hquiet => catchesUp (serves_cursors v) hrun hquiet⟩

/-- The seventh user is in the groups 1 and 2. -/
def twoGroups : Table (GroupId × UserId) GroupMemberRow :=
  (Table.empty.put (1, 7) ⟨.member, 0, none, none⟩).put (2, 7) ⟨.member, 0, none, none⟩

def someGroup (name : String) : GroupRow := ⟨name, none, none, 1, 2, 0, 0, 0⟩

/-- The second group is committed after the client has seen the first. -/
def inOrder : List (Session.Event GroupId GroupRow) :=
  [.write (.update 1 1 (someGroup "a")), .write (.update 2 2 (someGroup "b")), .write (.commit 1),
    .page 100, .write (.commit 2)]

theorem incremental_sync_loses_nothing_sample :
    Session.OrderlyRun (syncEntitiesPageForGroups twoGroups 7) (groupListing twoGroups 7) .start
      inOrder ∧ (Session.start.run (syncEntitiesPageForGroups twoGroups 7) inOrder).isQuiet = true ∧
    CatchesUp (syncEntitiesPageForGroups twoGroups 7) ((groupSyncRows twoGroups 7
        (Session.start.run (syncEntitiesPageForGroups twoGroups 7) inOrder).writers.table).map
          GroupSyncRow.toItem)
      (Session.start.run (syncEntitiesPageForGroups twoGroups 7) inOrder) :=
  ⟨by decide, by decide, (incremental_sync_loses_nothing twoGroups 7
    ⟨7, none, .empty, .empty, fun _ => none⟩).1 inOrder (by decide) (by decide)⟩

/-- The first group is written before the second, and committed after the client has seen the
second. -/
def outOfOrder : List (Session.Event GroupId GroupRow) :=
  [.write (.update 1 1 (someGroup "a")), .write (.update 2 2 (someGroup "b")), .write (.commit 2),
    .page 100, .write (.commit 1)]

/-- The client is told that there is no more, and never gets the first group. -/
theorem late_commit_is_lost :
    let s := Session.start.run (syncEntitiesPageForGroups twoGroups 7) outOfOrder
    s.isQuiet = true ∧
    .ofRow 1 ⟨someGroup "a", 1⟩ ∈ groupSyncRows twoGroups 7 s.writers.table ∧
    syncEntitiesPageForGroups twoGroups 7 s.writers.table s.since 100 = ⟨[], s.since, false⟩ ∧
    (GroupSyncRow.ofRow 1 ⟨someGroup "a", 1⟩).toItem ∉ s.received := by
  decide

end PrivChat.EntitySync
