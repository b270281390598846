import PrivChat.Groups.Mirror

/-!
Calls one after the other, each run to its end before the next, and what `getChannelOpt` returns
then.

The member map of a loaded object follows the membership. The mirror rows do not: who leaves keeps
their row, who is approved gets none. So all is well until an object is dropped while its rows say
something else.
-/

namespace PrivChat.Groups

open Db Channels Tx

variable {O : Outside → Prop} {s s' s1 s2 : Store} {g : GroupId} {c : ChannelId} {u : UserId}
  {ch ch' : Channel} {role : MemberRole} {now : Millis}

section InTx

variable {β : Type} {Q : Except ServerError β → Store → Store → Prop} {d v : Store}
  {k : Unit → GroupTx β}

lemma ends_upsertOneMember (he : ∀ e v, Q (.error e) d v)
    (hk : v.hasGroup g = true → (k ()).Ends O Q d (upsertDb g u role now v)) :
    (upsertOneMemberInTx g u role now >>= k).Ends O Q d v := by
  simp only [upsertOneMemberInTx, bind_assoc]
  refine asks_sql.ends (fun _ => ?_) fun e => he e v
  refine ends_acquire.mpr (ends_peek.mpr (ends_ensure.mpr ?_))
  split
  · rename_i hg
    exact hk hg
  · exact he _ v

lemma ends_recompute (he : ∀ e v, Q (.error e) d v) (hk : ∀ n, (k ()).Ends O Q d (countDb g n v)) :
    (recomputeGroupMemberCountInTx g >>= k).Ends O Q d v := by
  simp only [recomputeGroupMemberCountInTx, bind_assoc]
  refine asks_sql.ends (fun _ => ?_) fun e => he e v
  exact ends_acquire.mpr (ends_peek.mpr (hk _))

lemma ends_markLeft {k : Bool → GroupTx β} (he : ∀ e v, Q (.error e) d v)
    (hk : ∀ b, (k b).Ends O Q d (leftDb g u now v)) :
    (markOneMemberLeftInTx g u now >>= k).Ends O Q d v := by
  simp only [markOneMemberLeftInTx, bind_assoc]
  refine asks_sql.ends (fun _ => ?_) fun e => he e v
  refine ends_acquire.mpr (ends_query.mpr (ends_update.mpr ?_))
  split
  · rw [bind_assoc]
    exact asks_sql.ends (fun _ => hk true) fun e => he e _
  · exact hk false

end InTx

/-! ### Rows and lists -/

lemma leaves_findById : Leaves O (fun r s' => s' = s ∧ ∀ row, r = .ok row → row = s.channels.get c)
    (findById c) s := by
  refine leaves_asks asks_sql (fun _ => ?_) fun e => ⟨rfl, fun _ h => nomatch h⟩
  exact ⟨rfl, fun row h => (Except.ok.inj h).symm⟩

structure RowsOnly (c : ChannelId) (s s' : Store) : Prop where
  confined : Confined c s s'
  groups : s'.groups = s.groups
  members : s'.members = s.members
  cache : s'.cache = s.cache

lemma RowsOnly.refl : RowsOnly c s s :=
  ⟨.refl, rfl, rfl, rfl⟩

lemma RowsOnly.trans (h : RowsOnly c s s1) (h' : RowsOnly c s1 s2) : RowsOnly c s s2 where
  confined := h.confined.trans h'.confined
  groups := h'.groups.trans h.groups
  members := h'.members.trans h.members
  cache := h'.cache.trans h.cache

lemma RowsOnly.sound (h : RowsOnly c s s') (hs : s.Sound) : s'.Sound :=
  hs.modify h.groups fun k => by rw [h.members]

lemma RowsOnly.active (h : RowsOnly c s s') :
    s'.isActiveMember g u = s.isActiveMember g u := by
  rw [Store.isActiveMember, h.members, Store.isActiveMember]

/-- The repository has saved the channel, or not; a row that was there is still the same. -/
structure Saved (ch : Channel) (s : Store) (r : Except ServerError ChannelId) (s' : Store) :
    Prop where
  rows : RowsOnly ch.id s s'
  kept : ∀ row, s'.channels.get ch.id = some row →
    s.channels.get ch.id = some row ∨ row = .ofChannel ch
  ok : ∀ c, r = .ok c → c = ch.id ∧
    ∀ row, s'.channels.get ch.id = some row → row.channelType = ch.channelType

lemma Saved.error (ch : Channel) {s : Store} (e : ServerError) : Saved ch s (.error e) s :=
  ⟨.refl, fun _ h => .inl h, fun _ h => nomatch h⟩

lemma saved_insert {r : Except ServerError ChannelId} (hr : ∀ c, r = .ok c → c = ch.id) :
    Saved ch s r (channelDb ch.id (.ofChannel ch) s) := by
  have hget : (channelDb ch.id (.ofChannel ch) s).channels.get ch.id = some (.ofChannel ch) := by
    simp [channelDb]
  refine ⟨⟨confined_channelDb, rfl, rfl, rfl⟩, fun row hrow => .inr ?_, fun c hc =>
    ⟨hr c hc, fun row hrow => ?_⟩⟩
  · exact (Option.some.inj (hget.symm.trans hrow)).symm
  · rw [← Option.some.inj (hget.symm.trans hrow)]
    rfl

lemma leaves_findCreated : Leaves O (fun r s' => s' = s ∧ ∀ c', r = .ok c' → c' = c)
    (findCreated c) s := by
  refine leaves_invoke leaves_findById (fun row s1 h => ?_)
    fun e s1 h => ⟨h.1, fun _ h => nomatch h⟩
  obtain ⟨rfl, -⟩ := h
  cases row with
  | some row => exact ⟨rfl, fun c' hc => (Except.ok.inj hc).symm⟩
  | none => exact ⟨rfl, fun c' hc => nomatch hc⟩

lemma leaves_insertChannel : Leaves O (Saved ch s) (insertChannel ch.id ch) s := by
  refine ends_peek.mpr (ends_ensure.mpr ?_)
  split
  · refine ends_update.mpr (ends_done.mpr ?_)
    refine (leaves_invoke_tail leaves_findCreated).mono fun r s1 h => ?_
    obtain ⟨rfl, hr⟩ := h
    exact saved_insert hr
  · exact Saved.error ch _

lemma leaves_channelRepositoryCreate (hid : ch.id ≠ 0) :
    Leaves O (Saved ch s) (channelRepositoryCreate ch) s := by
  rw [channelRepositoryCreate, if_neg hid]
  refine leaves_asks asks_sql (fun _ => ?_) (Saved.error ch)
  refine ends_acquire.mpr (ends_query.mpr ?_)
  split
  · refine ends_undo.mpr (leaves_invoke leaves_findById (fun row s1 h => ?_) fun e s1 h => ?_)
    · obtain ⟨rfl, hrow⟩ := h
      refine ends_ensure.mpr ?_
      split
      · rename_i hsame
        refine ⟨.refl, fun _ h => .inl h, fun c hc => ⟨(Except.ok.inj hc).symm, ?_⟩⟩
        intro row' hrow'
        rw [hrow row rfl, hrow'] at hsame
        simp only [Option.any_some, Bool.and_eq_true, decide_eq_true_eq] at hsame
        exact hsame.1
      · exact Saved.error ch _
    · obtain ⟨rfl, -⟩ := h
      exact Saved.error ch e
  · exact leaves_insertChannel

lemma leaves_addParticipant :
    Leaves O (fun _ s' => s' = s ∨ s.hasChannel c = true ∧ s' = participantDb c u role s)
      (addParticipant c u role) s := by
  refine leaves_asks asks_sql (fun _ => ?_) fun _ => .inl rfl
  refine ends_acquire.mpr (ends_peek.mpr (ends_ensure.mpr ?_))
  split
  · rename_i hc
    refine ends_update.mpr (ends_done.mpr ?_)
    exact Leaves.of_bind_ret (leaves_asks asks_sql (fun _ => .inr ⟨hc, rfl⟩) fun _ =>
      .inr ⟨hc, rfl⟩)
  · exact .inl rfl

lemma leaves_addParticipants :
    Leaves O (fun _ s' => RowsOnly c s s' ∧ s'.channels = s.channels) (addParticipants c ch) s := by
  refine Leaves.of_bind_ret ?_
  refine ends_forEach (fun _ d v => d = v ∧ RowsOnly c s d ∧ d.channels = s.channels)
    ⟨rfl, .refl, rfl⟩ (fun x _ d v _ hI => ?_) fun d v hI => hI.2
  obtain ⟨rfl, hrows, hch⟩ := hI
  refine ends_call leaves_addParticipant fun _ s1 h1 => ?_
  rcases h1 with rfl | ⟨-, rfl⟩
  · exact ⟨rfl, hrows, hch⟩
  · exact ⟨rfl, hrows.trans ⟨confined_participantDb, rfl, rfl, rfl⟩, hch⟩

lemma leaves_ensureUserChannelRows {us : List UserId} :
    Leaves O (okThen fun _ s' => s' = s) (ensureUserChannelRows c us) s := by
  induction us with
  | nil => exact leaves_ret rfl
  | cons u us ih =>
    refine leaves_asks asks_sql (fun _ => leaves_snapshot ?_) fun _ => trivial
    refine ends_ensure.mpr ?_
    split
    · exact ih
    · trivial

lemma Store.Coherent.listed (h : s.Coherent) {t : Table UserId (List ChannelId)} :
    ({ s with userChannels := t } : Store).Coherent :=
  ⟨h.sound, h.ids, fun g hg => ⟨(h.mirrors g hg).row, (h.mirrors g hg).loaded,
    (h.mirrors g hg).stored⟩⟩

lemma leaves_listing {α : Type} {P : α → Store → Prop} {us : List UserId}
    {push : ChannelId → List ChannelId → List ChannelId} {a : α} (h : s.Coherent)
    (hP : ∀ s', s'.Coherent → P a s') : Leaves O (okThen P) (do
      (ensureUserChannelRows c us).invoke
      (indexChannel c us push).invoke
      return a) s := by
  refine leaves_invoke_ok leaves_ensureUserChannelRows fun _ s1 h1 => ?_
  subst h1
  refine leaves_invoke_ok ?_ fun _ s2 h2 => hP s2 h2
  refine ends_acquire.mpr (ends_update.mpr ?_)
  obtain ⟨t, ht⟩ := indexed_eq c push s1
  exact ht ▸ h.listed

/-! ### Joining -/

/-- The object has been replaced by what the function makes of it. -/
def Replaced (f : Channel → Except String Channel) (c : ChannelId) (s : Store) :
    Option ChannelType → Store → Prop
  | none, s' => s' = s
  | some type, s' => ∃ ch ch', s.cache.get c = some ch ∧ f ch = .ok ch' ∧ ch.channelType = type ∧
      s' = cacheDb c ch' s

lemma leaves_joinCached {role : Option MemberRole} :
    Leaves O (okThen (Replaced (·.addMember u role) c s)) (joinCached c u role) s := by
  refine ends_acquire.mpr (ends_query.mpr ?_)
  cases hc : s.cache.get c with
  | none => exact leaves_ret rfl
  | some ch =>
    dsimp only
    split
    · exact leaves_ret rfl
    split
    · exact leaves_ret rfl
    cases hadd : ch.addMember u role with
    | error text => exact leaves_ret rfl
    | ok ch' => exact ⟨ch, ch', hc, hadd, rfl, rfl⟩

lemma leaves_joinGroup : Leaves O (okThen fun _ s' => s.hasGroup g = true ∧
    ∃ n now, s' = countDb g n (upsertDb g u role now s)) (joinGroup g u role) s := by
  refine leaves_observe fun o _ => ?_
  refine leaves_asks asks_sql (fun _ => ?_) fun _ => trivial
  refine ends_upsertOneMember (fun _ _ => trivial) fun hg => ?_
  refine ends_recompute (fun _ _ => trivial) fun n => ?_
  exact asks_sql.ends (fun _ => ⟨hg, n, _, rfl⟩) fun _ => trivial

lemma Store.Coherent.joined (h : s.Coherent) (hc : s.cache.get g = some ch)
    (hg : s.hasGroup g = true) (hsame : SameChannel ch ch')
    (hmem : ∀ w, (ch'.members.get w).isSome = (decide (w = u) || (ch.members.get w).isSome))
    (n : ℕ) : (countDb g n (upsertDb g u role now (cacheDb g ch' s))).Coherent := by
  have hg' : (cacheDb g ch' s).hasGroup g = true := hg
  refine h.membership hc ?_ ?_ (by simp [countDb, cacheDb]) (by simp [countDb, cacheDb]) hsame
    (fun _ => hg) fun _ w => ?_
  · exact confined_cacheDb.trans ((confined_upsertDb hg').trans confined_countDb)
  · exact Store.Sound.countDb (Store.Sound.upsertDb (s := cacheDb g ch' s) h.sound)
  · have hact : (countDb g n (upsertDb g u role now (cacheDb g ch' s))).isActiveMember g w =
        (decide (g = g ∧ w = u) || s.isActiveMember g w) := isActiveMember_upsertDb hg'
    rw [hact, hmem, ((h.mirrors g hg).loaded ch hc).2 w]
    simp

/-- The object has changed, and if it is that of a group the rows follow. -/
lemma leaves_ifGroup {t : GroupTx Unit} (h : s.Coherent) (hc : s.cache.get c = some ch)
    (hsame : SameChannel ch ch')
    (ht : Leaves O (okThen fun _ s' => s'.Coherent) t (cacheDb c ch' s)) :
    Leaves O (okThen fun _ s' => s'.Coherent) (if ch.channelType = .group then t else ret ())
      (cacheDb c ch' s) := by
  split
  · exact ht
  · rename_i htype
    -- the object of a group is of a group, so there is none here
    exact h.replace hc hsame fun hg => absurd ((h.mirrors c hg).loaded ch hc).1 htype

lemma leaves_joinChannel {role : Option MemberRole} (h : s.Coherent) :
    Leaves O (okThen fun _ s' => s'.Coherent) (joinChannel c u role) s := by
  refine leaves_invoke_ok leaves_joinCached fun joined s1 hj => ?_
  cases joined with
  | none =>
    obtain rfl : s1 = s := hj
    exact leaves_ret h
  | some type =>
    obtain ⟨ch, ch', hc, hadd, rfl, rfl⟩ := hj
    obtain ⟨hsame, hmem⟩ := addMember_ok hadd
    refine leaves_invoke_ok (leaves_ifGroup h hc hsame (leaves_joinGroup.ok_mono fun _ s2 h2 => ?_))
      fun _ s2 h2 => leaves_listing h2 fun _ h3 => h3
    obtain ⟨hg, n, now, rfl⟩ := h2
    exact h.joined hc hg hsame hmem n

variable {r : RequestId} {handler : UserId}

lemma leaves_approveGroup :
    Leaves O (okThen fun b s' => b = true → s.hasGroup g = true ∧
      ∃ n, s' = countDb g n (upsertDb g u .member now (approvedDb r handler s)))
      (approveGroup r g u handler now) s := by
  refine leaves_asks asks_sql (fun _ => ?_) fun _ => trivial
  refine leaves_asks asks_sql (fun _ => ?_) fun _ => trivial
  refine ends_acquire.mpr (ends_query.mpr ?_)
  split
  · refine ends_update.mpr (ends_upsertOneMember (fun _ _ => trivial) fun hg => ?_)
    refine ends_recompute (fun _ _ => trivial) fun n => ?_
    exact asks_sql.ends (fun _ _ => ⟨hg, n, rfl⟩) fun _ => trivial
  · exact fun hb => nomatch hb

/-- The object of the group, if it is loaded, takes the user in. -/
def approvedCache (g : GroupId) (u : UserId) (s : Store) : Store :=
  { s with cache := s.cache.modify g fun ch =>
      (ch.addMember u (some .member)).toOption.getD ch }

lemma confined_approvedCache :
    Confined g s (approvedCache g u s) := fun g' hg => by
  refine ⟨rfl, fun _ => rfl, rfl, fun _ => rfl, ?_⟩
  simp [approvedCache, hg]

/-- Whom the approval may be for: a member, or a new one for whom the loaded object has room. -/
def admitsApproval (s : Store) (g : GroupId) (u : UserId) : Bool :=
  match s.cache.get g with
  | some ch => (ch.members.get u).isSome || hasRoom ch
  | none => s.isActiveMember g u

lemma Store.Coherent.approved (h : s.Coherent)
    (hg : s.hasGroup g = true) (hadm : admitsApproval s g u = true) {n : ℕ}
    (hs : s' = approvedCache g u
      (countDb g n (upsertDb g u .member now (approvedDb r handler s)))) : s'.Coherent := by
  have hg1 : (approvedDb r handler s).hasGroup g = true := hg
  have hact : ∀ w, s'.isActiveMember g w = (decide (w = u) || s.isActiveMember g w) := by
    intro w
    rw [hs]
    refine (isActiveMember_upsertDb hg1).trans ?_
    simp [approvedDb, Store.isActiveMember]
  have hconf : Confined g s s' := by
    rw [hs]
    have h0 : Confined g s (approvedDb r handler s) := fun _ _ =>
      ⟨rfl, fun _ => rfl, rfl, fun _ => rfl, rfl⟩
    exact h0.trans ((confined_upsertDb hg1).trans (confined_countDb.trans confined_approvedCache))
  have hsound : s'.Sound :=
    hs ▸ Store.Sound.countDb (Store.Sound.upsertDb (s := approvedDb r handler s) h.sound)
  cases hc : s.cache.get g with
  | some ch =>
    obtain ⟨htype, hin⟩ := (h.mirrors g hg).loaded ch hc
    obtain ⟨hsame, hmem⟩ := members_addMember htype (by simpa [admitsApproval, hc] using hadm)
    refine h.membership hc hconf hsound (by simp [hs, approvedCache, countDb, approvedDb])
      (by simp [hs, approvedCache, countDb, approvedDb, hc]) hsame (fun _ => hg) fun _ w => ?_
    rw [hact, hmem, hin w]
  | none =>
    -- the user was a member before, so nothing has changed
    have hu : s.isActiveMember g u = true := by simpa [admitsApproval, hc] using hadm
    have hagree : AgreeAt g s s' := by
      refine ⟨?_, fun w => ?_, by simp [hs, approvedCache, countDb, approvedDb], fun w => ?_, ?_⟩
      · exact hs ▸ (hasGroup_countDb _ g g).trans hasGroup_upsertDb
      · rw [hact]
        by_cases hw : w = u
        · simp [hw, hu]
        · simp [hw]
      · simp [hs, approvedCache, countDb, approvedDb, Store.isParticipant]
      · simp [hs, approvedCache, countDb, approvedDb, hc]
    refine h.confined hconf hsound (fun ch hch => ?_) fun _ => hagree.mirrors (h.mirrors g hg)
    rw [hagree.cache, hc] at hch
    cases hch

lemma leaves_approveJoinRequestInTx (h : s.Coherent) (hadm : admitsApproval s g u = true) :
    Leaves O (okThen fun b s' => b = true → s'.Coherent) (approveJoinRequestInTx r g u handler now)
      s := by
  refine leaves_invoke_ok leaves_approveGroup fun approved s1 h1 => ?_
  cases approved with
  | false => exact fun hb => nomatch hb
  | true =>
    obtain ⟨hg, n, rfl⟩ := h1 rfl
    refine leaves_invoke_ok (P := fun _ (s' : Store) => s'.Coherent) (h.approved hg hadm rfl)
      fun _ s2 h2 => ?_
    exact leaves_listing h2 fun _ h3 _ => h3

lemma Store.Coherent.mirrored (h : s.Coherent) (hc : s.hasChannel c = true)
    (hu : (s.cache.get c).isSome = true ∨ s.isActiveMember c u = true) :
    (participantDb c u role s).Coherent := by
  refine h.confined confined_participantDb h.sound (h.ids c) fun hg => ?_
  have hm := h.mirrors c hg
  refine ⟨hm.row, hm.loaded, fun hnone _ w => ?_⟩
  have hnone' : s.cache.get c = none := hnone
  have hact : s.isActiveMember c u = true := by simpa [hnone'] using hu
  rw [isParticipant_participantDb, hm.stored hnone' hc w]
  by_cases hw : w = u
  · have : (participantDb c u role s).isActiveMember c u = true := hact
    simp [hw, this]
  · simp [hw, participantDb, Store.isActiveMember]

lemma leaves_setMemberRole (h : s.Coherent) :
    Leaves O (fun _ s' => s'.Coherent) (setMemberRole c u role) s := by
  refine ends_acquire.mpr (ends_query.mpr ?_)
  cases hc : s.cache.get c with
  | none => exact leaves_fail h
  | some ch =>
    dsimp only
    cases hupd : ch.updateMemberRole u role with
    | error text => exact leaves_fail h
    | ok ch' =>
      obtain ⟨hsame, hmem⟩ := updateMemberRole_ok hupd
      exact h.replace hc hsame fun _ => hmem

lemma leaves_addGroupMember (h : s.Coherent)
    (hu : (s.cache.get g).isSome = true ∨ s.isActiveMember g u = true) :
    Leaves O (okThen fun _ s' => s'.Coherent) (addGroupMember g u role) s := by
  refine leaves_call (P := fun _ s' => s'.Coherent) (leaves_addParticipant.mono fun _ s1 h1 => ?_)
    fun _ s1 h1 => ?_
  · rcases h1 with rfl | ⟨hc, rfl⟩
    · exact h
    · exact h.mirrored hc hu
  · refine leaves_call (leaves_joinChannel h1) fun joined s2 h2 => ?_
    cases joined with
    | error e => trivial
    | ok b =>
      dsimp only
      split
      · exact leaves_ret h2
      · exact leaves_call (leaves_setMemberRole h2) fun _ s3 h3 => leaves_ret h3

lemma leaves_leaveCached :
    Leaves O (okThen (Replaced (·.removeMember u) c s)) (leaveCached c u) s := by
  refine ends_acquire.mpr (ends_query.mpr ?_)
  cases hc : s.cache.get c with
  | none => exact leaves_ret rfl
  | some ch =>
    dsimp only
    cases hrem : ch.removeMember u with
    | error text => exact leaves_ret rfl
    | ok ch' => exact ⟨ch, ch', hc, hrem, rfl, rfl⟩

lemma leaves_leaveGroup : Leaves O (okThen fun _ s' => ∃ now, s' = leftDb g u now s ∨
    ∃ n, s' = countDb g n (leftDb g u now s)) (leaveGroup g u) s := by
  refine leaves_observe fun o _ => ?_
  refine leaves_asks asks_sql (fun _ => ?_) fun _ => trivial
  refine ends_markLeft (fun _ _ => trivial) fun b => ?_
  cases b with
  | false => exact asks_sql.ends (fun _ => ⟨_, .inl rfl⟩) fun _ => trivial
  | true =>
    refine ends_recompute (fun _ _ => trivial) fun n => ?_
    exact asks_sql.ends (fun _ => ⟨_, .inr ⟨n, rfl⟩⟩) fun _ => trivial

lemma Store.Coherent.left (h : s.Coherent) (hc : s.cache.get g = some ch)
    (hsame : SameChannel ch ch')
    (hmem : ∀ w, (ch'.members.get w).isSome = (!decide (w = u) && (ch.members.get w).isSome))
    (hs : s' = leftDb g u now (cacheDb g ch' s) ∨
      ∃ n, s' = countDb g n (leftDb g u now (cacheDb g ch' s))) : s'.Coherent := by
  have hconf := confined_cacheDb.trans (confined_leftDb (cacheDb g ch' s) g u now)
  have hsound : (leftDb g u now (cacheDb g ch' s)).Sound := Store.Sound.leftDb h.sound
  have hact : s.hasGroup g = true → ∀ w, (ch'.members.get w).isSome =
      (leftDb g u now (cacheDb g ch' s)).isActiveMember g w := by
    intro hg w
    have hleft := isActiveMember_leftDb (cacheDb g ch' s) g u now g w
    rw [hleft, hmem, ((h.mirrors g hg).loaded ch hc).2 w]
    simp [cacheDb, Store.isActiveMember]
  rcases hs with rfl | ⟨n, rfl⟩
  · exact h.membership hc hconf hsound rfl (by simp [leftDb, cacheDb]) hsame id hact
  · refine h.membership hc (hconf.trans confined_countDb) hsound.countDb rfl
      (by simp [countDb, leftDb, cacheDb]) hsame (fun hg => ?_) hact
    exact (hasGroup_countDb _ g g).symm.trans hg

lemma leaves_leaveChannel (h : s.Coherent) :
    Leaves O (okThen fun _ s' => s'.Coherent) (leaveChannel c u) s := by
  refine leaves_invoke_ok leaves_leaveCached fun left s1 hl => ?_
  cases left with
  | none =>
    obtain rfl : s1 = s := hl
    exact leaves_ret h
  | some type =>
    obtain ⟨ch, ch', hc, hrem, rfl, rfl⟩ := hl
    obtain ⟨hsame, hmem⟩ := removeMember_ok hrem
    refine leaves_invoke_ok (leaves_ifGroup h hc hsame
      (leaves_leaveGroup.ok_mono fun _ s2 ⟨_, h2⟩ => h.left hc hsame hmem h2)) fun _ s2 h2 => ?_
    exact leaves_invoke_ok (P := fun _ (s' : Store) => s'.Coherent) h2.listed fun _ s3 h3 => h3

/-! ### Dropping and loading -/

/-- The mirror rows of the group are its active membership. -/
def Store.isMirrored (s : Store) (g : GroupId) : Bool :=
  ((s.activeMembers g).all fun x => s.isParticipant g x.1.2) &&
    (s.activeParticipants g).all fun x => s.isActiveMember g x.1.2

lemma mem_activeMembers : u ∈ (s.activeMembers g).map (·.1.2) ↔ s.isActiveMember g u := by
  simp only [Store.activeMembers, List.mem_map, Prod.exists, Table.mem_select,
    Bool.and_eq_true, decide_eq_true_eq, Store.isActiveMember, Option.any_eq_true]
  constructor
  · rintro ⟨g', u', row, ⟨hrow, rfl, hleft⟩, rfl⟩
    exact ⟨row, hrow, hleft⟩
  · rintro ⟨row, hrow, hleft⟩
    exact ⟨g, u, row, ⟨hrow, rfl, hleft⟩, rfl⟩

lemma isParticipant_eq (h : s.isMirrored g = true) (u : UserId) :
    s.isParticipant g u = s.isActiveMember g u := by
  simp only [Store.isMirrored, Bool.and_eq_true, List.all_eq_true] at h
  refine Bool.eq_iff_iff.mpr ⟨fun hp => ?_, fun ha => ?_⟩
  · obtain ⟨x, hx, rfl⟩ := List.mem_map.mp (mem_activeParticipants.mpr hp)
    exact h.2 x hx
  · obtain ⟨x, hx, rfl⟩ := List.mem_map.mp (mem_activeMembers.mpr ha)
    exact h.1 x hx

lemma Store.Coherent.evicted {cs : List ChannelId} (h : s.Coherent)
    (hcs : ∀ g ∈ cs, s.hasGroup g = true → s.isMirrored g = true) : (evictDb cs s).Coherent where
  sound := h.sound
  ids c ch hch := h.ids c ch (Table.get_of_get_deleteWhere hch)
  mirrors g hg := by
    have hm := h.mirrors g hg
    refine ⟨hm.row, fun ch hch => hm.loaded ch (Table.get_of_get_deleteWhere hch), ?_⟩
    intro hnone hrow u
    by_cases hmem : g ∈ cs
    · exact isParticipant_eq (hcs g hmem hg) u
    · refine hm.stored ?_ hrow u
      cases hcg : s.cache.get g with
      | none => rfl
      | some ch => simp [evictDb, Table.get_deleteWhere, hmem, hcg, Option.filter] at hnone

lemma leaves_evictStaleMemory {n : ℕ} (h : s.Coherent)
    (hO : ∀ o, O o → ∀ g ∈ o.byAge.take (s.cache.size - n), s.hasGroup g = true →
      s.isMirrored g = true) :
    Leaves O (okThen fun _ s' => s'.Coherent) (evictStaleMemory n) s := by
  refine ends_acquire.mpr (ends_query.mpr fun o ho => ?_)
  exact h.evicted (hO o ho)

lemma leaves_getParticipants (hO : ∀ o, O o → o.fault .selectParticipants = none) :
    Leaves O (fun r s' => s' = s ∧ r = .ok (s.activeParticipants c)) (getParticipants c) s := by
  refine ends_seq (P := fun r d v => r = .ok () ∧ d = s) ?_ (fun _ d v h => ?_)
    fun e d v h => nomatch h.1
  · refine ends_observe.mpr fun o ho => ?_
    rw [hO o ho]
    exact ⟨rfl, rfl⟩
  · obtain ⟨-, rfl⟩ := h
    exact ⟨rfl, rfl⟩

lemma leaves_hydrateGroup : Leaves O (okThen fun ch' s' => s' = s ∧ SameChannel ch ch' ∧
    ∀ u, (ch'.members.get u).isSome = (ch.members.get u).isSome) (hydrateGroup now ch) s := by
  have hread : ∀ {α : Type} {st : Statement} {text : String} {q : Store → α},
      Leaves O (fun _ s' => s' = s) (do sql st text; snapshot q) s := by
    exact leaves_asks asks_sql (fun _ => rfl) fun _ => rfl
  unfold hydrateGroup
  split
  · refine leaves_call hread fun roles s1 h1 => ?_
    subst h1
    refine leaves_call hread fun mutes s2 h2 => ?_
    subst h2
    refine ⟨rfl, ⟨rfl, rfl, rfl⟩, fun u => ?_⟩
    rw [members_applyMutes, members_applyGroupRoleTruth]
  · exact ⟨rfl, ⟨rfl, rfl, rfl⟩, fun _ => rfl⟩

/-- The object has the members of the group. -/
def Shows (g : GroupId) (s : Store) (ch : Channel) : Prop :=
  s.hasGroup g = true → ∀ u, (ch.members.get u).isSome = s.isActiveMember g u

lemma Store.Coherent.load {row : ChannelRow} (h : s.Coherent) (hnone : s.cache.get c = none)
    (hrow : s.channels.get c = some row) (hid : ch.id = c)
    (htype : ch.channelType = row.channelType)
    (hmem : ∀ u, (ch.members.get u).isSome = s.isParticipant c u) :
    (cacheDb c ch s).Coherent ∧ Shows c (cacheDb c ch s) ch := by
  have hshows : Shows c (cacheDb c ch s) ch := fun hg u =>
    (hmem u).trans ((h.mirrors c hg).stored hnone (by simp [Store.hasChannel, hrow]) u)
  have hget : (cacheDb c ch s).cache.get c = some ch := by simp [cacheDb]
  refine ⟨h.confined confined_cacheDb h.sound (fun ch1 hch => ?_) fun hg => ?_, hshows⟩
  · rw [← Option.some.inj (hget.symm.trans hch), hid]
  · have hm := h.mirrors c hg
    refine ⟨hm.row, fun ch1 hch => ?_, fun hn => ?_⟩
    · rw [← Option.some.inj (hget.symm.trans hch)]
      exact ⟨htype.trans (hm.row row hrow), hshows hg⟩
    · rw [hget] at hn
      cases hn

lemma leaves_loadChannel {row : ChannelRow} (h : s.Coherent) (hnone : s.cache.get c = none)
    (hrow : s.channels.get c = some row) (hO : ∀ o, O o → o.fault .selectParticipants = none) :
    Leaves O (okThen fun ch s' => s'.Coherent ∧ Shows c s' ch) (loadChannel c row) s := by
  refine leaves_call (leaves_getParticipants hO) fun participants s1 h1 => ?_
  obtain ⟨rfl, rfl⟩ := h1
  refine leaves_observe fun o _ => leaves_invoke_ok leaves_hydrateGroup fun ch s2 h2 => ?_
  obtain ⟨rfl, hsame, hmem⟩ := h2
  have hmem' : ∀ u, (ch.members.get u).isSome = s2.isParticipant c u := by
    intro u
    rw [hmem, Bool.eq_iff_iff, members_withParticipants]
    simpa [ChannelRow.toChannel, Except.toOption] using mem_activeParticipants
  have hload := h.load hnone hrow hsame.id hsame.type hmem'
  exact leaves_invoke_ok (P := fun _ (s' : Store) => s'.Coherent ∧ Shows c s' ch) hload
    fun _ s3 h3 => h3

lemma leaves_getChannelOpt (h : s.Coherent)
    (hO : s.cache.get c = none → ∀ o, O o → o.fault .selectParticipants = none) :
    Leaves O (okThen fun r s' => s'.Coherent ∧ ∀ ch, r = some ch → Shows c s' ch)
      (getChannelOpt c) s := by
  refine leaves_snapshot ?_
  cases hc : s.cache.get c with
  | some ch =>
    refine ⟨h, fun ch' hch hg => ?_⟩
    obtain rfl := Option.some.inj hch
    exact ((h.mirrors c hg).loaded ch hc).2
  | none =>
    refine leaves_call leaves_findById fun row s1 h1 => ?_
    obtain ⟨rfl, hrow⟩ := h1
    match row with
    | .error e => exact ⟨h, fun _ hch => nomatch hch⟩
    | .ok none => exact ⟨h, fun _ hch => nomatch hch⟩
    | .ok (some row) =>
      refine leaves_invoke_ok (leaves_loadChannel h hc (hrow _ rfl).symm (hO hc)) fun ch s2 h2 => ?_
      refine ⟨h2.1, fun ch' hch => ?_⟩
      obtain rfl := Option.some.inj hch
      exact h2.2

/-! ### Creation -/

/-- Inside the transaction the group is new, with these members so far. -/
structure Seated (s : Store) (g : GroupId) (ids : List UserId) (v : Store) : Prop where
  confined : Confined g s v
  sound : v.Sound
  group : v.hasGroup g = true
  active : ∀ u, v.isActiveMember g u = true ↔ u ∈ ids
  channels : v.channels = s.channels
  cache : v.cache = s.cache

lemma seated_groupDb (hs : s.Sound) (hg : s.hasGroup g = false) {row : GroupRow} :
    Seated s g [] (groupDb g row s) where
  confined := confined_groupDb
  sound := hs.groupDb
  group := by simp [groupDb, Store.hasGroup]
  active u := by
    have hnone : s.activeRole g u = none := hs.activeRole_none hg u
    have hact : (groupDb g row s).isActiveMember g u = (s.activeRole g u).isSome :=
      activeRole_isSome.symm
    simp [hact, hnone]
  channels := rfl
  cache := rfl

variable {ids : List UserId} {v : Store}

lemma Seated.seat (h : Seated s g ids v)
    : Seated s g (u :: ids) (upsertDb g u role now v) where
  confined := h.confined.trans (confined_upsertDb h.group)
  sound := h.sound.upsertDb
  group := hasGroup_upsertDb.trans h.group
  active w := by
    rw [isActiveMember_upsertDb h.group, Bool.or_eq_true, h.active, List.mem_cons]
    simp
  channels := channels_upsertDb.trans h.channels
  cache := cache_upsertDb.trans h.cache

lemma Seated.count (h : Seated s g ids v) {n : ℕ} :
    Seated s g ids (countDb g n v) where
  confined := h.confined.trans confined_countDb
  sound := h.sound.countDb
  group := (hasGroup_countDb v g g).trans h.group
  active := h.active
  channels := h.channels
  cache := h.cache

lemma Seated.congr {ids' : List UserId} (h : Seated s g ids v)
    (hids : ∀ u, u ∈ ids ↔ u ∈ ids') : Seated s g ids' v :=
  { h with active := fun u => (h.active u).trans (hids u) }

variable {creator : UserId}

lemma ends_upsertGroupMembers {d : Store}
    (h : Seated s g [] v) : (upsertGroupMembersInTx g creator ids now).Ends O
      (fun r _ v' => ∀ a, r = .ok a → Seated s g (creator :: ids) v') d v := by
  rw [upsertGroupMembersInTx, ← Tx.bind_ret (recomputeGroupMemberCountInTx g)]
  refine ends_upsertOneMember (fun _ _ _ h => by cases h) fun _ => ?_
  -- the members still to come and those who are in are all there will be
  refine ends_forEach (fun rest _ v => ∃ ids', Seated s g ids' v ∧
    ∀ u, (u ∈ ids' ∨ u ∈ rest) ↔ u ∈ creator :: ids) ?_ (fun u rest d v _ hI => ?_) fun d v hI => ?_
  · refine ⟨[creator], h.seat, fun u => ?_⟩
    simp only [mem_unseen, List.mem_cons]
    tauto
  · obtain ⟨ids', hs, hids⟩ := hI
    rw [← Tx.bind_ret (upsertOneMemberInTx g u .member now)]
    refine ends_upsertOneMember (fun _ _ _ h => by cases h) fun _ => ?_
    refine ⟨u :: ids', hs.seat, fun w => ?_⟩
    rw [← hids w, List.mem_cons, List.mem_cons]
    tauto
  · obtain ⟨ids', hs, hids⟩ := hI
    refine ends_recompute (fun _ _ _ h => by cases h) fun n => ?_
    exact fun _ _ => hs.count.congr fun u => by simpa using hids u

/-- A group row has been inserted that was not there, under an id that is in order. -/
def Opens (G : GroupId → Prop) (s : Store) :
    Except ServerError (Except String GroupId) → Store → Store → Prop
  | .ok (.ok g), d, v => d = s ∧ G g ∧ s.hasGroup g = false ∧ ∃ row, v = groupDb g row s
  | .ok (.error _), _, _ | .error _, _, _ => True

lemma ends_insertGroup : (insertGroup creator).Ends O (Opens (· ≠ 0) s) s s := by
  refine ends_observe.mpr fun o _ => ?_
  split
  · trivial
  · refine ends_observe.mpr fun o' _ => ends_acquire.mpr (ends_query.mpr ?_)
    split
    · trivial
    · rename_i hg
      exact ⟨rfl, Nat.succ_ne_zero _, by simpa using hg, _, rfl⟩

lemma ends_insertGroupWithId :
    (insertGroupWithId g creator).Ends O (Opens (· = g) s) s s := by
  refine ends_observe.mpr fun o _ => ?_
  split
  · trivial
  · refine ends_acquire.mpr (ends_query.mpr ?_)
    split
    · trivial
    · rename_i hg
      exact ⟨rfl, rfl, by simpa using hg, _, rfl⟩

/-- The group that has been created, if one has. -/
def Created (G : GroupId → Prop) (s : Store) (ids : List UserId) :
    Except String GroupId → Store → Prop
  | .ok g, s' => G g ∧ Seated s g ids s'
  | .error _, _ => True

lemma leaves_createGroupTx {G : GroupId → Prop} {insert : GroupTx (Except String GroupId)}
    (hs : s.Sound) (hinsert : insert.Ends O (Opens G s) s s) :
    Leaves O (okThen (Created G s (creator :: ids))) (createGroupTx insert creator ids) s := by
  refine leaves_observe fun o _ => ?_
  split
  · exact leaves_ret trivial
  refine leaves_observe fun o' _ => ?_
  refine ends_seq hinsert (fun inserted d v h => ?_) fun _ _ _ _ => trivial
  cases inserted with
  | error text => exact ends_undo.mpr trivial
  | ok g =>
    obtain ⟨rfl, hG, hg, row, rfl⟩ := h
    refine ends_bind.mpr (ends_attempt.mpr (ends_mono (fun r d v h => ?_)
      (ends_upsertGroupMembers (seated_groupDb hs hg))))
    cases r with
    | error e => exact ends_undo.mpr trivial
    | ok _ =>
      refine ends_observe.mpr fun o'' _ => ?_
      split
      · exact ends_undo.mpr trivial
      · exact ⟨hG, h () rfl⟩

variable (h : s.Coherent)

include h

/-- If the call succeeds, the store is in order. -/
def KeepsOrder (reply : Reply) (s' : Store) : Prop := reply.isSuccess = true → s'.Coherent

lemma Store.Coherent.restored (hc : s.cache.get c = some ch)
    (hrows : RowsOnly c s s') (hkept : ∀ row, s'.channels.get c = some row →
      s.channels.get c = some row ∨ row = .ofChannel ch) : s'.Coherent := by
  refine h.confined hrows.confined (hrows.sound h.sound) (fun ch1 hch => ?_) fun hg => ?_
  · exact h.ids c ch1 (hrows.cache ▸ hch)
  · have hg' : s.hasGroup c = true := by rwa [Store.hasGroup, hrows.groups] at hg
    have hm := h.mirrors c hg'
    refine ⟨fun row hrow => ?_, fun ch1 hch => ?_, fun hn => ?_⟩
    · rcases hkept row hrow with hold | rfl
      · exact hm.row row hold
      · exact (hm.loaded ch hc).1
    · obtain ⟨htype, hin⟩ := hm.loaded ch1 (hrows.cache ▸ hch)
      exact ⟨htype, fun u => (hin u).trans hrows.active.symm⟩
    · rw [hrows.cache, hc] at hn
      cases hn

lemma leaves_restoreRow (hc : s.cache.get c = some ch) (hne : c ≠ 0) :
    Leaves O (okThen fun _ s' => s'.Coherent) (restoreRow c ch) s := by
  have hid : ch.id = c := h.ids c ch hc
  subst hid
  refine leaves_call leaves_findById fun row s1 h1 => ?_
  obtain ⟨rfl, -⟩ := h1
  split
  · exact leaves_ret h
  · refine leaves_call (leaves_channelRepositoryCreate hne) fun created s2 h2 => ?_
    cases created with
    | error e => exact leaves_ret (h.restored hc h2.rows h2.kept)
    | ok c =>
      refine leaves_invoke_tail (leaves_addParticipants.mono fun r s3 h3 => ?_)
      cases r with
      | error e => trivial
      | ok _ =>
        refine h.restored hc (h2.rows.trans h3.1) fun row hrow => h2.kept row ?_
        rwa [h3.2] at hrow

variable (htype : ch.channelType = .group)
  (hmem : ∀ w, (ch.members.get w).isSome = decide (w ∈ ids))
include htype hmem

lemma Store.Coherent.created (hs : Seated s g ids s1)
    (hrows : RowsOnly g s1 s2) (hid : ch.id = g)
    (hrow : ∀ row, s2.channels.get g = some row → row.channelType = .group) : (cacheDb g ch s2).Coherent := by
  have hget : (cacheDb g ch s2).cache.get g = some ch := by simp [cacheDb]
  refine h.confined (hs.confined.trans (hrows.confined.trans confined_cacheDb))
    (hrows.sound hs.sound) (fun ch1 hch => ?_) fun _ => ⟨hrow, fun ch1 hch => ?_, fun hn => ?_⟩
  · rw [← Option.some.inj (hget.symm.trans hch), hid]
  · rw [← Option.some.inj (hget.symm.trans hch)]
    refine ⟨htype, fun w => ?_⟩
    have hact : (cacheDb g ch s2).isActiveMember g w = s1.isActiveMember g w := hrows.active
    rw [hmem, hact, Bool.eq_iff_iff, hs.active, decide_eq_true_iff]
  · rw [hget] at hn
    cases hn

/-- The rows of the new group are written, and its object is kept and listed. -/
lemma leaves_filed {α : Type} {t : GroupTx α} {us : List UserId}
    {push : ChannelId → List ChannelId → List ChannelId} {reply : Reply}
    (hs : Seated s ch.id ids s1) (hrows : RowsOnly ch.id s1 s2)
    (hrow : ∀ row, s2.channels.get ch.id = some row → row.channelType = .group)
    (ht : Leaves O (fun _ s' => RowsOnly ch.id s2 s' ∧ s'.channels = s2.channels) t s2) :
    Leaves O (okThen KeepsOrder) (do
      let _ ← t.invoke
      (cacheChannel ch.id ch).invoke
      (ensureUserChannelRows ch.id us).invoke
      (indexChannel ch.id us push).invoke
      return reply) s2 := by
  refine leaves_invoke ht (fun _ s3 h3 => ?_) fun _ _ _ => trivial
  refine leaves_invoke_ok (P := fun _ (s' : Store) => s'.Coherent) ?_ fun _ s4 h4 => ?_
  · exact h.created htype hmem hs (hrows.trans h3.1) rfl fun row hr => hrow row (h3.2 ▸ hr)
  · exact leaves_listing h4 fun _ h5 _ => h5

lemma leaves_saveGroup (hs : Seated s g ids s1) (hid : ch.id = g) (hg : g ≠ 0) :
    Leaves O (okThen KeepsOrder) (saveGroup g ch) s1 := by
  subst hid
  refine leaves_call (leaves_channelRepositoryCreate hg) fun created s2 h2 => ?_
  cases created with
  | error e =>
    refine leaves_call (P := fun _ _ => True) ?_ fun _ _ _ => fun hb => nomatch hb
    exact ends_true _ _ _
  | ok c =>
    obtain ⟨rfl, hrow⟩ := h2.ok c rfl
    exact leaves_filed h htype hmem hs h2.rows (fun row hr => (hrow row hr).trans htype)
      leaves_addParticipants

lemma leaves_saveGroupWithId (hs : Seated s g ids s1)
    (hnew : s.hasChannel g = false) (hid : ch.id = g) (hg : g ≠ 0) :
    Leaves O (okThen KeepsOrder) (saveGroupWithId g ch) s1 := by
  subst hid
  refine leaves_call (leaves_channelRepositoryCreate hg) fun created s2 h2 => ?_
  -- whether the row was saved or not, what row there is was made from this channel
  have hrow : ∀ row, s2.channels.get ch.id = some row → row.channelType = .group := by
    intro row hr
    rcases h2.kept row hr with hold | rfl
    · rw [hs.channels] at hold
      simp [Store.hasChannel, hold] at hnew
    · exact htype
  refine leaves_filed h htype hmem hs h2.rows hrow ?_
  cases created with
  | error e => exact leaves_ret ⟨.refl, rfl⟩
  | ok c => exact leaves_addParticipants

omit htype hmem

variable {req : CreateChannelRequest} {cfg : ChannelServiceConfig}

lemma leaves_createChannel (hfit : fits cfg creator req = true) :
    Leaves O (okThen KeepsOrder) (createChannel cfg creator req) s := by
  refine leaves_invoke_ok (P := fun _ s' => s' = s) rfl fun owned s1 h1 => ?_
  subst h1
  split
  · exact leaves_ret fun hb => nomatch hb
  split
  · exact leaves_ret fun hb => nomatch hb
  refine leaves_invoke_ok (leaves_createGroupTx h.sound ends_insertGroup) fun group s2 h2 => ?_
  cases group with
  | error text => exact leaves_ret fun hb => nomatch hb
  | ok g =>
    obtain ⟨hg, hs⟩ := h2
    obtain ⟨hid, htype, hmem⟩ := members_groupChannel hfit
    exact leaves_invoke_tail (leaves_saveGroup h htype hmem hs hid hg)

lemma leaves_createChannelWithId (hne : c ≠ 0)
    (hnew : s.cache.get c = none → s.hasChannel c = false ∧ fits cfg creator req = true) :
    Leaves O (okThen KeepsOrder) (createChannelWithId cfg c creator req) s := by
  refine leaves_snapshot ?_
  cases hc : s.cache.get c with
  | some ch =>
    exact leaves_invoke_ok (leaves_restoreRow h hc hne) fun _ s1 h1 => leaves_ret fun _ => h1
  | none =>
    obtain ⟨hrow, hfit⟩ := hnew hc
    refine leaves_invoke_ok (P := fun _ s' => s' = s) rfl fun owned s1 h1 => ?_
    subst h1
    split
    · exact leaves_ret fun hb => nomatch hb
    refine leaves_invoke_ok (leaves_createGroupTx h.sound ends_insertGroupWithId)
      fun group s2 h2 => ?_
    cases group with
    | error text => exact leaves_ret fun hb => nomatch hb
    | ok g =>
      obtain ⟨rfl, hs⟩ := h2
      obtain ⟨hid, htype, hmem⟩ := members_groupChannel hfit
      exact leaves_invoke_tail (leaves_saveGroupWithId h htype hmem hs hrow hid hne)

end PrivChat.Groups
