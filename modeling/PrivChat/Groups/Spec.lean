import PrivChat.Groups.Roster

/-!
Each function of the service commits what its job may, transaction by transaction, and relies until
then only on what it has locked.
-/

namespace PrivChat.Groups

open Db Channels Tx

/-- What a job makes of the roster of a group, if it changes it. -/
def Job.changes : Job → GroupId → Option Roster → Option Roster → Prop
  | .createChannel creator req, _, r, r' =>
    r = none ∧ r' = some (.founded creator req.memberIds) ∨ r' = none
  | .createChannelWithId _ creator req, _, r, r' =>
    r = none ∧ r' = some (.founded creator req.memberIds)
  | .joinChannel c u role, g, r, r' => g = c ∧ r' = r.map (·.seat u (role.getD .member))
  | .approveJoinRequestInTx _ g0 u _ _, g, r, r' => g = g0 ∧ r' = r.map (·.seat u .member)
  | .leaveChannel c u, g, r, r' => g = c ∧ r' = r.map (·.unseat u)
  | .transferGroupOwner g0 owner newOwner, g, r, r' =>
    g = g0 ∧ owner ≠ newOwner ∧
      ∃ x, r = some x ∧ x.ownerId = owner ∧ (x.role newOwner).isSome ∧
        r' = some (x.handOver newOwner)
  | .addMemberAdmin g0 u, g, r, r' => g = g0 ∧ r' = r.map (·.seat u .member)
  | .removeMemberAdmin g0 u, g, r, r' => g = g0 ∧ r' = r.map (·.unseat u)
  | .setMemberRoleAdmin g0 u role, g, r, r' =>
    g = g0 ∧ role ≠ .owner ∧ r' = r.map (·.appoint u role)
  | .addGroupMember g0 u _, g, r, r' => g = g0 ∧ r' = r.map (·.seat u .member)
  | .evictStaleMemory _, _, _, _ | .getChannelOpt _, _, _, _ => False

/-- Every commit of a job has its effect. -/
def groupPact : Pact Store LockKey Job where
  inv := Store.Sound
  commits j h d d' := Effect j.changes d h d'

variable {j : Job} {g : GroupId} {c : ChannelId} {u : UserId} {role : MemberRole} {now : Millis}

lemma asks_sql {st : Statement} {context : String} : Asks (sql st context) := by
  refine asks_observe.bind fun fault => ?_
  cases fault with
  | none => exact .ret ()
  | some e => exact .fail _

section InTx

variable {α β : Type} {Q : β → (Store → Store) → List LockKey → (Store → Prop) → Prop}
  {p : Store → Store} {h : List LockKey} {K : Store → Prop}

lemma sure_locked {q : Store → α} {k : α → GroupTx β}
    (hq : ∀ d d', groupGuards.Agree h d d' → q d' = q d)
    (hk : ∀ a, Sure groupPact j Q (k a) id h fun d => K d ∧ q d = a) :
    Sure groupPact j Q (query q >>= k) id h K := by
  refine sure_query fun a d _ _ ha => ⟨fun d => q d = a, ha, ?_, hk a⟩
  exact fun _ h' d d' hdis _ he hd => (hq d d' (he.frame.agree hdis)).trans hd

variable {k : Unit → GroupTx β}

lemma sure_commit (he : ∀ d, d.Sound → K d → Effect j.changes d h (p d))
    (hk : Sure groupPact j Q (k ()) id [] fun _ => True) : Sure groupPact j Q (done >>= k) p h K :=
  sure_done (fun _ => True) (fun d hd hK => ⟨(he d hd hK).sound hd, he d hd hK⟩)
    (fun _ _ _ => trivial) Pact.stable_true hk

lemma sure_upsertOneMember
    (hk : Sure groupPact j Q (k ()) (upsertDb g u role now ∘ p) (.member g u :: h) K) :
    Sure groupPact j Q (upsertOneMemberInTx g u role now >>= k) p h K := by
  simp only [upsertOneMemberInTx, bind_assoc]
  refine asks_sql.sure fun _ => sure_acquire.mpr (sure_peek fun known => ?_)
  exact asks_ensure.sure fun _ => hk

lemma sure_recompute (hk : ∀ n, Sure groupPact j Q (k ()) (countDb g n ∘ p) (.group g :: h) K) :
    Sure groupPact j Q (recomputeGroupMemberCountInTx g >>= k) p h K := by
  simp only [recomputeGroupMemberCountInTx, bind_assoc]
  exact asks_sql.sure fun _ => sure_acquire.mpr (sure_peek fun n => hk n)

lemma sure_markLeft {k : Bool → GroupTx β}
    (hk : ∀ b, Sure groupPact j Q (k b) (leftDb g u now) (.member g u :: h) K) :
    Sure groupPact j Q (markOneMemberLeftInTx g u now >>= k) id h K := by
  simp only [markOneMemberLeftInTx, bind_assoc]
  refine asks_sql.sure fun _ => sure_acquire.mpr (sure_query_any fun active => ?_)
  cases active with
  | false => exact hk false
  | true =>
    simp only [if_true, bind_assoc]
    exact asks_sql.sure fun _ => hk true

end InTx

/-! ### Functions that leave groups and members alone -/

lemma meets_quiet {α : Type} {key : LockKey} {w : Store → Store} {k : Unit → GroupTx α}
    (hf : ∀ d, groupGuards.Frame [key] d (w d)) (hg : ∀ d, (w d).groups = d.groups)
    (hm : ∀ d, (w d).members = d.members) (hk : Meets groupPact j (k ())) :
    Meets groupPact j (acquire key >>= fun _ => update w >>= fun _ => done >>= k) :=
  sure_commit (fun d _ _ => .quiet (hf d) (hg d) (hm d)) hk

lemma meets_cache {α : Type} {K : Store → Prop} {f : Store → Table ChannelId Channel}
    {k : Unit → GroupTx α} (hk : Meets groupPact j (k ())) : Sure groupPact j (fun _ _ _ _ => True)
      (update (fun s => { s with cache := f s }) >>= fun _ => done >>= k) id [.cache] K :=
  sure_commit (fun _ _ _ => .quiet (frame_cache (by simp)) rfl rfl) hk

lemma meets_read {α : Type} {st : Statement} {context : String} {q : Store → α} :
    Meets groupPact j (do sql st context; snapshot q) :=
  asks_sql.meets fun _ => (meets_snapshot fun _ => meets_ret).of_bind_ret

lemma meets_findById : Meets groupPact j (findById c) := meets_read

lemma meets_findCreated : Meets groupPact j (findCreated c) := by
  refine meets_invoke meets_findById fun row => ?_
  cases row with
  | none => exact meets_fail
  | some _ => exact meets_ret

variable {ch : Channel}

lemma sure_insertChannel {h : List LockKey} {K : Store → Prop} (hk : .channel c ∈ h)
    : Sure groupPact j (fun _ _ _ _ => True) (insertChannel c ch) id h K := by
  refine sure_peek fun known => asks_ensure.sure fun _ => ?_
  refine sure_commit (fun _ _ _ => .quiet (frame_channelDb hk) rfl rfl) ?_
  exact (meets_invoke meets_findCreated fun _ => meets_ret).of_bind_ret

lemma meets_channelRepositoryCreate : Meets groupPact j (channelRepositoryCreate ch) := by
  unfold channelRepositoryCreate
  split
  · refine asks_sql.meets fun _ => asks_observe.meets fun seq => ?_
    refine sure_acquire.mpr (sure_query_any fun taken => ?_)
    exact asks_ensure.sure fun _ => sure_insertChannel (by simp)
  · refine asks_sql.meets fun _ => sure_acquire.mpr (sure_query_any fun taken => ?_)
    split
    · refine sure_undo (meets_invoke meets_findById fun row => ?_)
      exact asks_ensure.meets fun _ => meets_ret
    · exact sure_insertChannel (by simp)

lemma meets_addParticipant : Meets groupPact j (addParticipant c u role) := by
  refine asks_sql.meets fun _ => sure_acquire.mpr (sure_peek fun known => ?_)
  refine asks_ensure.sure fun _ => sure_commit ?_ ?_
  · exact fun _ _ _ => .quiet (frame_participantDb (by simp)) rfl rfl
  · exact (asks_sql.meets fun _ => meets_ret).of_bind_ret

lemma meets_addParticipants : Meets groupPact j (addParticipants c ch) :=
  (meets_forEach (fun _ _ => meets_addParticipant) meets_ret).of_bind_ret

variable {us : List UserId}

lemma meets_ensureUserChannelRows :
    Meets groupPact j (ensureUserChannelRows c us) := by
  induction us with
  | nil => exact meets_ret
  | cons u us ih =>
    refine asks_sql.meets fun _ => meets_snapshot fun _ => ?_
    exact asks_ensure.meets fun _ => ih

lemma meets_cacheChannel : Meets groupPact j (cacheChannel c ch) :=
  meets_cache meets_ret

lemma indexed_eq (c : ChannelId) (push : ChannelId → List ChannelId → List ChannelId) (s : Store) : ∃ t, us.foldl (fun s u => userChannelsDb u (push c) s) s =
      { s with userChannels := t } := by
  induction us generalizing s with
  | nil => exact ⟨s.userChannels, rfl⟩
  | cons u us ih => exact ih (userChannelsDb u (push c) s)

lemma meets_indexChannel {push : ChannelId → List ChannelId → List ChannelId} :
    Meets groupPact j (indexChannel c us push) := by
  refine meets_quiet (fun d => ?_) (fun d => ?_) (fun d => ?_) meets_ret <;>
    obtain ⟨t, ht⟩ := indexed_eq c push d
  · rw [ht]
    exact frame_userChannels (by simp)
  · rw [ht]
  · rw [ht]

lemma meets_listing {α : Type}
    {push : ChannelId → List ChannelId → List ChannelId} {a : α} : Meets groupPact j (do
      (ensureUserChannelRows c us).invoke
      (indexChannel c us push).invoke
      return a) :=
  meets_invoke meets_ensureUserChannelRows fun _ => meets_invoke meets_indexChannel fun _ =>
    meets_ret

lemma meets_joinCached {role : Option MemberRole} : Meets groupPact j (joinCached c u role) := by
  refine sure_acquire.mpr (sure_query_any fun loaded => ?_)
  split
  · trivial
  · split_ifs
    · trivial
    · trivial
    · split
      · trivial
      · exact meets_cache meets_ret

lemma meets_leaveCached : Meets groupPact j (leaveCached c u) := by
  refine sure_acquire.mpr (sure_query_any fun loaded => ?_)
  split
  · trivial
  · split
    · trivial
    · exact meets_cache meets_ret

lemma meets_setMemberRole : Meets groupPact j (setMemberRole c u role) := by
  refine sure_acquire.mpr (sure_query_any fun loaded => ?_)
  split
  · trivial
  · split
    · trivial
    · exact meets_cache meets_ret

lemma meets_evictStaleMemory {n : ℕ} : Meets groupPact j (evictStaleMemory n) :=
  sure_acquire.mpr (sure_query_any fun _ => asks_observe.sure fun _ => meets_cache meets_ret)

lemma meets_hydrateGroup : Meets groupPact j (hydrateGroup now ch) := by
  unfold hydrateGroup
  split
  · exact meets_call meets_read fun roles => meets_call meets_read fun mutes => meets_ret
  · exact meets_ret

lemma meets_loadChannel {row : ChannelRow} : Meets groupPact j (loadChannel c row) := by
  refine meets_call meets_read fun participants => ?_
  refine asks_observe.meets fun now => meets_invoke meets_hydrateGroup fun ch => ?_
  exact meets_invoke meets_cacheChannel fun _ => meets_ret

lemma meets_getChannelOpt : Meets groupPact j (getChannelOpt c) := by
  refine meets_snapshot fun loaded => ?_
  cases loaded with
  | some ch => exact meets_ret
  | none =>
    refine meets_call meets_findById fun row => ?_
    split
    · exact meets_invoke meets_loadChannel fun _ => meets_ret
    · exact meets_ret

/-! ### Transactions that change a roster -/

section Effects

variable {C : GroupId → Option Roster → Option Roster → Prop} {d d1 d' : Store} {h : List LockKey}

lemma Effect.after (hf : groupGuards.Frame h d d1) (hg : d1.groups = d.groups)
    (hm : d1.members = d.members) (he : Effect C d1 h d') : Effect C d h d' := by
  have hr : ∀ g, d1.roster g = d.roster g := fun g => roster_congr (by rw [hg]) fun u => by rw [hm]
  have hs : d.Sound → d1.Sound := fun hs => hs.modify hg fun k => by rw [hm]
  refine ⟨hf.trans he.frame, fun h0 => he.sound (hs h0), fun h0 g => ?_, fun g => ?_⟩
  · rw [← hr g]
    exact he.roster (hs h0) g
  · rw [← hr g]
    exact he.locks g

lemma effect_seat {n : ℕ} (hg : .group g ∈ h) (hu : .member g u ∈ h)
    (hC : ∀ r, C g (some r) (some (r.seat u role))) :
    Effect C d h (countDb g n (upsertDb g u role now d)) := by
  refine .of_map ((frame_upsertDb hg hu).trans (frame_countDb hg))
    (fun hs => hs.upsertDb.countDb) (locksMember_of_mem hu) (fun g' => ?_) fun r _ => hC r
  rw [roster_countDb, roster_upsertDb]

lemma effect_unseat {n : ℕ} (hg : .group g ∈ h) (hu : .member g u ∈ h)
    (hC : ∀ r, C g (some r) (some (r.unseat u))) :
    Effect C d h (countDb g n (leftDb g u now d)) := by
  refine .of_map ((frame_members hu).trans (frame_countDb hg))
    (fun hs => hs.leftDb.countDb) (locksMember_of_mem hu) (fun g' => ?_) fun r _ => hC r
  rw [roster_countDb, roster_leftDb]

lemma effect_unseat_idle (hu : .member g u ∈ h)
    (hC : ∀ r, C g (some r) (some (r.unseat u))) : Effect C d h (leftDb g u now d) :=
  .of_map (frame_members hu) (fun hs => hs.leftDb)
    (locksMember_of_mem hu) (fun g' => roster_leftDb d g g' u) fun r _ => hC r

lemma effect_appoint (hu : .member g u ∈ h)
    (hC : ∀ r, C g (some r) (some (r.appoint u role))) : Effect C d h (roleDb g u role d) :=
  .of_map (frame_members hu) (fun hs => hs.roleDb)
    (locksMember_of_mem hu) (fun g' => roster_roleDb d g g' u) fun r _ => hC r

lemma effect_handOver {owner newOwner : UserId} (hg : .group g ∈ h) (ho : .member g owner ∈ h)
    (hn : .member g newOwner ∈ h) (howner : d.ownerId g = some owner)
    (hactive : d.isActiveMember g newOwner = true)
    (hC : ∀ r : Roster, r.ownerId = owner → (r.role newOwner).isSome →
      C g (some r) (some (r.handOver newOwner))) :
    Effect C d h (ownerDb g newOwner (roleDb g newOwner .owner (roleDb g owner .member d))) := by
  refine .of_map (g := g)
    (f := fun r => { (r.appoint owner .member).appoint newOwner .owner with ownerId := newOwner })
    (((frame_members ho).trans (frame_members hn)).trans (frame_groups hg fun _ hg =>
      Table.get_modify_of_ne _ hg)) (fun hs => (hs.roleDb.roleDb).ownerDb)
    (locksMember_of_mem ho) (fun g' => ?_) fun r hr => ?_
  · rw [roster_ownerDb, roster_roleDb, roster_roleDb]
    by_cases he : g' = g
    · subst he
      simp [Function.comp_def]
    · simp [he, roster_roleDb]
  · have h1 : r.ownerId = owner := by
      have := ownerId_roster d g
      rw [hr, howner] at this
      exact Option.some.inj this
    have h2 : (r.role newOwner).isSome := by
      obtain ⟨row, -, rfl⟩ := Option.map_eq_some_iff.mp hr
      rw [activeRole_isSome]
      exact hactive
    have := hC r h1 h2
    rw [Roster.handOver, h1] at this
    exact this

end Effects

lemma meets_joinGroup (hC : ∀ r, j.changes g (some r) (some (r.seat u role))) :
    Meets groupPact j (joinGroup g u role) := by
  refine asks_observe.meets fun now => asks_sql.meets fun _ => ?_
  refine sure_upsertOneMember (sure_recompute fun n => asks_sql.sure fun _ => ?_)
  exact sure_commit (fun _ _ _ => effect_seat (by simp) (by simp) hC) trivial

lemma meets_joinChannel {role : Option MemberRole}
    (hC : ∀ r, j.changes c (some r) (some (r.seat u (role.getD .member)))) :
    Meets groupPact j (joinChannel c u role) := by
  refine meets_invoke meets_joinCached fun joined => ?_
  cases joined with
  | none => exact meets_ret
  | some type =>
    refine meets_invoke ?_ fun _ => ?_
    · split
      · exact meets_joinGroup hC
      · exact meets_ret
    exact meets_listing

section Seating

variable {r : RequestId} {handler : UserId}
  (hC : ∀ r, j.changes g (some r) (some (r.seat u .member)))
include hC

lemma meets_approveGroup :
    Meets groupPact j (approveGroup r g u handler now) := by
  refine asks_sql.meets fun _ => asks_sql.meets fun _ => ?_
  refine sure_acquire.mpr (sure_query_any fun pending => ?_)
  split
  · refine sure_update.mpr (sure_upsertOneMember (sure_recompute fun n => ?_))
    refine asks_sql.sure fun _ => sure_commit (fun d _ _ => ?_) trivial
    have hq : groupGuards.Frame [.group g, .member g u, .joinRequest r] d
        (approvedDb r handler d) := frame_approvedDb (by simp)
    exact .after hq rfl rfl (effect_seat (by simp) (by simp) hC)
  · exact sure_undo trivial

lemma meets_approveJoinRequestInTx :
    Meets groupPact j (approveJoinRequestInTx r g u handler now) := by
  refine meets_invoke (meets_approveGroup hC) fun approved => ?_
  split
  · exact meets_invoke (meets_cache meets_ret) fun _ => meets_listing
  · exact meets_ret

lemma meets_addMemberTx :
    Meets groupPact j (addMemberTx g u) := by
  refine asks_observe.meets fun now => asks_sql.meets fun _ => ?_
  refine asks_sql.meets fun _ => sure_peek fun active => asks_ensure.sure fun _ => ?_
  refine sure_upsertOneMember (sure_recompute fun n => asks_sql.sure fun _ => ?_)
  exact sure_commit (fun _ _ _ => effect_seat (by simp) (by simp) hC) trivial

lemma meets_addMemberAdmin :
    Meets groupPact j (addMemberAdmin g u) := by
  refine meets_invoke (meets_addMemberTx hC) fun _ => ?_
  exact meets_call (meets_joinChannel hC) fun _ => meets_ret

lemma meets_addGroupMember :
    Meets groupPact j (addGroupMember g u role) := by
  refine meets_call meets_addParticipant fun _ => ?_
  refine meets_call (meets_joinChannel hC) fun joined => ?_
  cases joined with
  | error e => exact meets_fail
  | ok b =>
    dsimp only
    split
    · exact meets_ret
    · exact meets_call meets_setMemberRole fun _ => meets_ret

end Seating

lemma meets_leaveGroup (hC : ∀ r, j.changes g (some r) (some (r.unseat u))) :
    Meets groupPact j (leaveGroup g u) := by
  refine asks_observe.meets fun now => asks_sql.meets fun _ => ?_
  refine sure_markLeft fun active => ?_
  split
  · refine sure_recompute fun n => asks_sql.sure fun _ => ?_
    exact sure_commit (fun _ _ _ => effect_unseat (by simp) (by simp) hC) trivial
  · refine asks_sql.sure fun _ => ?_
    exact sure_commit (fun _ _ _ => effect_unseat_idle (by simp) hC) trivial

lemma meets_leaveChannel (hC : ∀ r, j.changes c (some r) (some (r.unseat u))) :
    Meets groupPact j (leaveChannel c u) := by
  refine meets_invoke meets_leaveCached fun left => ?_
  cases left with
  | none => exact meets_ret
  | some type =>
    refine meets_invoke ?_ fun _ => ?_
    · split
      · exact meets_leaveGroup hC
      · exact meets_ret
    exact meets_invoke (meets_quiet (fun _ => frame_userChannels (by simp)) (fun _ => rfl) (fun _
      => rfl) meets_ret) fun _ => meets_ret

lemma meets_transferTx {owner newOwner : UserId}
    (hC : ∀ r : Roster, r.ownerId = owner → (r.role newOwner).isSome →
      j.changes g (some r) (some (r.handOver newOwner))) :
    Meets groupPact j (transferTx g owner newOwner) := by
  refine asks_sql.meets fun _ => asks_sql.meets fun _ => ?_
  refine sure_acquire.mpr (sure_locked (fun d d' ha => ?_) fun current => ?_)
  · have hrow : d'.groups.get g = d.groups.get g := (Prod.mk.inj (ha (.group g) (by simp))).1
    simp [Store.ownerId, hrow]
  simp only [sure_orFail, sure_ensure, decide_eq_true_eq]
  rintro _ rfl rfl
  refine asks_sql.sure fun _ => ?_
  refine sure_acquire.mpr (sure_locked (fun d d' ha => ?_) fun active => ?_)
  · have hrow : d'.members.get (g, newOwner) = d.members.get (g, newOwner) :=
      ha (.member g newOwner) (by simp)
    simp [Store.isActiveMember, hrow]
  rw [sure_ensure]
  rintro rfl
  refine asks_sql.sure fun _ => sure_acquire.mpr (sure_update.mpr ?_)
  refine asks_sql.sure fun _ => sure_acquire.mpr (sure_update.mpr ?_)
  refine asks_sql.sure fun _ => sure_acquire.mpr (sure_update.mpr ?_)
  refine asks_sql.sure fun _ => sure_commit (fun d _ hK => ?_) trivial
  exact effect_handOver (by simp) (by simp) (by simp) hK.1.2 hK.2 hC

lemma meets_transferGroupOwner {owner newOwner : UserId}
    (hC : ∀ r : Roster, owner ≠ newOwner → r.ownerId = owner → (r.role newOwner).isSome →
      j.changes g (some r) (some (r.handOver newOwner))) :
    Meets groupPact j (transferGroupOwner g owner newOwner) := by
  unfold transferGroupOwner
  split
  · exact meets_fail
  · rename_i hne
    refine meets_invoke (meets_transferTx fun r => hC r hne) fun _ => ?_
    refine meets_call meets_setMemberRole fun _ => ?_
    exact meets_call meets_setMemberRole fun _ => meets_ret

lemma meets_removeMemberAdmin (hC : ∀ r, j.changes g (some r) (some (r.unseat u))) :
    Meets groupPact j (removeMemberAdmin g u) := by
  refine asks_observe.meets fun now => asks_sql.meets fun _ => ?_
  refine sure_markLeft fun active => asks_ensure.sure fun _ => ?_
  refine sure_recompute fun n => asks_sql.sure fun _ => ?_
  exact sure_commit (fun _ _ _ => effect_unseat (by simp) (by simp) hC) trivial

lemma meets_setRoleTx (hC : ∀ r, j.changes g (some r) (some (r.appoint u role))) :
    Meets groupPact j (setRoleTx g u role) := by
  refine asks_sql.meets fun _ => asks_sql.meets fun _ => ?_
  refine sure_peek fun current => asks_orFail.sure fun current => ?_
  refine asks_ensure.sure fun _ => asks_sql.sure fun _ => ?_
  refine sure_acquire.mpr (sure_update.mpr (asks_sql.sure fun _ => ?_))
  exact sure_commit (fun _ _ _ => effect_appoint (by simp) hC) trivial

lemma meets_setMemberRoleAdmin
    (hC : ∀ r, role ≠ .owner → j.changes g (some r) (some (r.appoint u role))) :
    Meets groupPact j (setMemberRoleAdmin g u role) := by
  unfold setMemberRoleAdmin
  split
  · exact meets_fail
  · rename_i hne
    refine meets_invoke (meets_setRoleTx fun r => hC r hne) fun _ => ?_
    exact meets_call meets_setMemberRole fun _ => meets_ret

/-! ### Creation -/

lemma mem_unseen {seen ids : List UserId} : u ∈ unseen seen ids ↔ u ∈ ids ∧ u ∉ seen := by
  induction ids generalizing seen with
  | nil => simp [unseen]
  | cons w us ih =>
    unfold unseen
    split
    · rename_i hw
      rw [ih, List.mem_cons]
      constructor
      · exact fun ⟨h1, h2⟩ => ⟨.inr h1, h2⟩
      · rintro ⟨rfl | h1, h2⟩
        · exact absurd hw h2
        · exact ⟨h1, h2⟩
    · rename_i hw
      rw [List.mem_cons, ih, List.mem_cons, List.mem_cons, not_or]
      constructor
      · rintro (rfl | ⟨h1, -, h2⟩)
        · exact ⟨.inl rfl, hw⟩
        · exact ⟨.inr h1, h2⟩
      · rintro ⟨rfl | h1, h2⟩
        · exact .inl rfl
        · by_cases he : u = w
          · exact .inl he
          · exact .inr ⟨h1, he, h2⟩

/-- The owner is in already, so that it does not matter whether they are listed. -/
lemma founded_unseen (creator : UserId) (ids : List UserId) :
    Roster.founded creator (unseen [creator] ids) = .founded creator ids := by
  refine Roster.ext rfl (funext fun u => ?_)
  by_cases hu : u = creator
  · simp [Roster.founded, hu]
  · simp [Roster.founded, hu, mem_unseen]

/-- Inside the transaction the group is new, with its owner and these members so far. -/
structure Founding (d : Store) (g : GroupId) (creator : UserId) (ids : List UserId) (v : Store)
    (h : List LockKey) : Prop where
  group : .group g ∈ h
  member : locksMember h = true
  frame : groupGuards.Frame h d v
  sound : d.Sound → v.Sound
  other : ∀ g', g' ≠ g → v.roster g' = d.roster g'
  own : d.Sound → v.roster g = some (.founded creator ids)

section Founding

variable {d v : Store} {h : List LockKey} {creator : UserId} {ids : List UserId}

lemma founding_start (hg : .group g ∈ h) (hn : d.hasGroup g = false) :
    Founding d g creator [] (upsertDb g creator .owner now (groupDb g ⟨creator, 0⟩ d))
      (.member g creator :: h) where
  group := List.mem_cons_of_mem _ hg
  member := locksMember_of_mem List.mem_cons_self
  frame := (frame_groups (List.mem_cons_of_mem _ hg) fun _ hg => Table.get_put_of_ne _ hg).trans
    (frame_upsertDb (List.mem_cons_of_mem _ hg) List.mem_cons_self)
  sound hs := hs.groupDb.upsertDb
  other g' hne := by simp [roster_upsertDb, roster_groupDb, hne]
  own hs := by
    rw [roster_upsertDb, if_pos rfl, roster_groupDb, if_pos rfl, Option.map_some]
    refine congrArg some (Roster.ext rfl (funext fun u => ?_))
    by_cases hu : u = creator
    · simp [Roster.seat, Roster.founded, hu]
    · simp [Roster.seat, Roster.founded, hu, hs.activeRole_none hn]

lemma Founding.seat (hf : Founding d g creator ids v h) (hu : u ≠ creator) :
    Founding d g creator (ids ++ [u]) (upsertDb g u .member now v) (.member g u :: h) where
  group := List.mem_cons_of_mem _ hf.group
  member := locksMember_of_mem List.mem_cons_self
  frame := (hf.frame.mono (List.subset_cons_self _ _)).trans
    (frame_upsertDb (List.mem_cons_of_mem _ hf.group) List.mem_cons_self)
  sound hs := (hf.sound hs).upsertDb
  other g' hne := by rw [roster_upsertDb, if_neg hne, hf.other g' hne]
  own hs := by
    rw [roster_upsertDb, if_pos rfl, hf.own hs, Option.map_some]
    refine congrArg some (Roster.ext rfl (funext fun w => ?_))
    by_cases hw : w = u
    · simp [Roster.seat, Roster.founded, hw, hu]
    · simp [Roster.seat, Roster.founded, hw]

lemma Founding.count (hf : Founding d g creator ids v h) {n : ℕ} :
    Founding d g creator ids (countDb g n v) (.group g :: h) where
  group := List.mem_cons_self
  member := by simpa [locksMember, LockKey.isMember] using hf.member
  frame := (hf.frame.mono (List.subset_cons_self _ _)).trans (frame_countDb List.mem_cons_self)
  sound hs := (hf.sound hs).countDb
  other g' hne := by rw [roster_countDb, hf.other g' hne]
  own hs := by rw [roster_countDb, hf.own hs]

lemma Founding.effect {C : GroupId → Option Roster → Option Roster → Prop}
    (hf : Founding d g creator ids v h) (hn : d.hasGroup g = false)
    (hC : C g none (some (.founded creator ids))) : Effect C d h v where
  frame := hf.frame
  sound := hf.sound
  locks _ _ _ := hf.member
  roster hs g' := by
    by_cases he : g' = g
    · subst he
      rw [hf.own hs, roster_eq_none.mpr hn]
      exact .inr hC
    · exact .inl (hf.other g' he)

/-- What the transaction will make of any state it may be in. -/
def Founds (g : GroupId) (creator : UserId) (ids : List UserId) (p : Store → Store)
    (h : List LockKey) (K : Store → Prop) : Prop :=
  ∀ d, K d → d.hasGroup g = false ∧ Founding d g creator ids (p d) h

variable {β : Type} {Q : β → (Store → Store) → List LockKey → (Store → Prop) → Prop}
  {k : Unit → GroupTx β} {p : Store → Store} {K : Store → Prop} {us : List UserId}

lemma sure_upsertMembers (hf : Founds g creator ids p h K) (hus : ∀ u ∈ us, u ≠ creator)
    (hk : ∀ p h, Founds g creator (ids ++ us) p h K → Sure groupPact j Q (k ()) p h K) :
    Sure groupPact j Q (forEach (fun u => upsertOneMemberInTx g u .member now) us >>= k) p h K := by
  induction us generalizing ids p h with
  | nil => exact hk p h (by simpa using hf)
  | cons u us ih =>
    rw [forEach, bind_assoc]
    have hseat : Founds g creator (ids ++ [u]) (upsertDb g u .member now ∘ p)
        (.member g u :: h) K := fun d hd => ⟨(hf d hd).1, (hf d hd).2.seat (hus u (by simp))⟩
    refine sure_upsertOneMember (ih hseat (fun w hw => hus w (List.mem_cons_of_mem _ hw)) ?_)
    simpa using hk

lemma sure_upsertGroupMembers (hg : .group g ∈ h) (hn : ∀ d, K d → d.hasGroup g = false)
    (hk : ∀ p h, Founds g creator us p h K → Sure groupPact j Q (k ()) p h K) :
    Sure groupPact j Q (upsertGroupMembersInTx g creator us now >>= k)
      (groupDb g ⟨creator, 0⟩) h K := by
  simp only [upsertGroupMembersInTx, bind_assoc]
  have hstart : Founds g creator [] (upsertDb g creator .owner now ∘ groupDb g ⟨creator, 0⟩)
      (.member g creator :: h) K := fun d hd => ⟨hn d hd, founding_start hg (hn d hd)⟩
  refine sure_upsertOneMember (sure_upsertMembers hstart (fun u hu => ?_) fun p h hf => ?_)
  · simpa using (mem_unseen.mp hu).2
  · refine sure_recompute fun n => hk _ _ fun d hd => ⟨hn d hd, ?_⟩
    refine { (hf d hd).2.count with own := fun hs => ?_ }
    rw [Function.comp_apply, ((hf d hd).2.count).own hs, List.nil_append, founded_unseen]

/-- A group row has been inserted that was not there, or there was an error. -/
def Inserted (creator : UserId) : Except String GroupId → (Store → Store) → List LockKey →
    (Store → Prop) → Prop
  | .ok g, p, h, K => .group g ∈ h ∧ p = groupDb g ⟨creator, 0⟩ ∧ ∀ d, K d → d.hasGroup g = false
  | .error _, _, _, _ => True

lemma sure_hasGroup {k : Bool → GroupTx β}
    (hk : ∀ b, Sure groupPact j Q (k b) id [.group g] fun d => True ∧ d.hasGroup g = b) :
    Sure groupPact j Q (acquire (.group g) >>= fun _ =>
      query (fun s : Store => s.hasGroup g) >>= k) id [] fun _ => True := by
  refine sure_acquire.mpr (sure_locked (fun d d' ha => ?_) hk)
  have hrow : d'.groups.get g = d.groups.get g := (Prod.mk.inj (ha (.group g) (by simp))).1
  simp [Store.hasGroup, hrow]

def Inserts (j : Job) (creator : UserId) (insert : GroupTx (Except String GroupId)) : Prop :=
  Sure groupPact j (Inserted creator) insert id [] fun _ => True

lemma inserts_insertGroup : Inserts j creator (insertGroup creator) := by
  refine asks_observe.sure fun fault => ?_
  cases fault with
  | some e => trivial
  | none =>
    refine asks_observe.sure fun seq => sure_hasGroup fun taken => ?_
    cases taken with
    | true => trivial
    | false => exact ⟨by simp, rfl, fun _ hd => hd.2⟩

lemma inserts_insertGroupWithId : Inserts j creator (insertGroupWithId g creator) := by
  refine asks_observe.sure fun fault => ?_
  cases fault with
  | some e => trivial
  | none =>
    refine sure_hasGroup fun taken => ?_
    cases taken with
    | true => trivial
    | false => exact ⟨by simp, rfl, fun _ hd => hd.2⟩

lemma meets_createGroupTx {insert : GroupTx (Except String GroupId)}
    (hi : Inserts j creator insert) (hC : ∀ g, j.changes g none (some (.founded creator ids))) :
    Meets groupPact j (createGroupTx insert creator ids) := by
  refine asks_observe.meets fun begun => ?_
  cases begun with
  | some e => exact meets_ret
  | none =>
    refine asks_observe.meets fun now => sure_seq hi fun inserted p h K hins => ?_
    cases inserted with
    | error text => exact sure_undo trivial
    | ok g =>
      obtain ⟨hg, rfl, hn⟩ := hins
      have hup : Sure groupPact j (fun r p h K => ∀ a, r = .ok a → Founds g creator ids p h K)
          (upsertGroupMembersInTx g creator ids now).attempt (groupDb g ⟨creator, 0⟩) h K := by
        refine sure_attempt ?_ fun _ _ _ _ _ h => by cases h
        rw [← Tx.bind_ret (upsertGroupMembersInTx _ _ _ _)]
        exact sure_upsertGroupMembers hg hn fun p h hf _ _ => hf
      refine sure_seq hup fun upserted p h K hf => ?_
      cases upserted with
      | error e => exact sure_undo trivial
      | ok a =>
        refine asks_observe.sure fun committed => ?_
        cases committed with
        | some e => exact sure_undo trivial
        | none =>
          refine sure_commit (fun d _ hd => ?_) trivial
          exact ((hf a rfl) d hd).2.effect ((hf a rfl) d hd).1 (hC g)

lemma sure_acquireMembers
    (hk : ∀ h', h ⊆ h' → (∀ u ∈ us, .member g u ∈ h') → Sure groupPact j Q (k ()) p h' K) :
    Sure groupPact j Q (forEach (fun u => acquire (.member g u)) us >>= k) p h K := by
  induction us generalizing h with
  | nil => exact hk h (List.Subset.refl h) (by simp)
  | cons u us ih =>
    rw [forEach, bind_assoc]
    refine sure_acquire.mpr (ih fun h' hsub hus => hk h' ?_ ?_)
    · exact List.Subset.trans (List.subset_cons_self _ _) hsub
    · intro w hw
      rcases List.mem_cons.mp hw with rfl | hw
      · exact hsub List.mem_cons_self
      · exact hus w hw

end Founding

lemma mem_memberIds {s : Store} : u ∈ s.memberIds g ↔ (s.members.get (g, u)).isSome := by
  simp only [Store.memberIds, List.mem_map, Prod.exists, Table.mem_select, decide_eq_true_eq,
    Option.isSome_iff_exists]
  constructor
  · rintro ⟨g', w, row, ⟨hrow, rfl⟩, rfl⟩
    exact ⟨row, hrow⟩
  · rintro ⟨row, hrow⟩
    exact ⟨g, u, row, ⟨hrow, rfl⟩, rfl⟩

lemma meets_deleteGroup (hC : ∀ r, j.changes g (some r) none) :
    Meets groupPact j (deleteGroup g) := by
  refine asks_sql.meets fun _ => sure_acquire.mpr ?_
  -- the group is locked, so it keeps the member rows that it has now
  intro d0 _ _
  refine ⟨SameRows g d0, fun _ => rfl, fun _ h' d d' hdis _ he hd u => ?_, ?_⟩
  · have hrows := (Prod.mk.inj (he.frame.agree hdis (.group g) (by simp))).2
    exact (congrFun hrows u).trans (hd u)
  refine sure_acquireMembers fun h' hsub hus => sure_peek fun referenced => ?_
  refine asks_ensure.sure fun _ => sure_commit (p := dropGroupDb g) (fun d _ hd => ?_) trivial
  have hframe : groupGuards.Frame h' d (dropGroupDb g d) := by
    refine frame_dropGroupDb (hsub (by simp)) fun u hu => hus u (mem_memberIds.mpr ?_)
    rwa [id, ← hd.2 u]
  refine ⟨hframe, fun hs => hs.dropGroupDb, fun _ g' => ?_, fun g' => ?_⟩
  · rw [roster_dropGroupDb]
    by_cases he : g' = g
    · subst he
      cases hd : d.roster g' with
      | none => exact .inl (by simp)
      | some r => exact .inr (by simpa using hC r)
    · exact .inl (by simp [he])
  · rw [roster_dropGroupDb]
    by_cases he : g' = g <;> simp [he]

section Create

variable {cfg : ChannelServiceConfig} {creator : UserId} {req : CreateChannelRequest}

lemma meets_saveGroup (ch : Channel) (hC : ∀ r, j.changes g (some r) none) :
    Meets groupPact j (saveGroup g ch) := by
  refine meets_call meets_channelRepositoryCreate fun created => ?_
  cases created with
  | error e => exact meets_call (meets_deleteGroup hC) fun _ => meets_ret
  | ok c =>
    refine meets_invoke meets_addParticipants fun _ => ?_
    exact meets_invoke meets_cacheChannel fun _ => meets_listing

lemma meets_ownedChannels : Meets groupPact j (ownedChannels u) :=
  (meets_snapshot fun _ => meets_ret).of_bind_ret

lemma meets_createChannel (hfound : ∀ g, j.changes g none (some (.founded creator req.memberIds)))
    (hdrop : ∀ g r, j.changes g (some r) none) : Meets groupPact j (createChannel cfg creator req)
    := by
  refine meets_invoke meets_ownedChannels fun owned => ?_
  split
  · exact meets_ret
  split
  · exact meets_ret
  refine meets_invoke (meets_createGroupTx inserts_insertGroup hfound) fun group => ?_
  cases group with
  | error text => exact meets_ret
  | ok g => exact (meets_invoke (meets_saveGroup _ (hdrop g)) fun _ => meets_ret).of_bind_ret

variable {ch : Channel}

lemma meets_restoreRow : Meets groupPact j (restoreRow c ch) := by
  refine meets_call meets_findById fun row => ?_
  split
  · exact meets_ret
  · refine meets_call meets_channelRepositoryCreate fun created => ?_
    cases created with
    | error e => exact meets_ret
    | ok c' => exact (meets_invoke meets_addParticipants fun _ => meets_ret).of_bind_ret

lemma meets_mirrorSaved {created : Except ServerError ChannelId} :
    Meets groupPact j (mirrorSaved c ch created) := by
  cases created with
  | error e => exact meets_ret
  | ok c' => exact meets_addParticipants

lemma meets_saveGroupWithId : Meets groupPact j (saveGroupWithId c ch) := by
  refine meets_call meets_channelRepositoryCreate fun created => ?_
  refine meets_invoke meets_mirrorSaved fun _ => ?_
  exact meets_invoke meets_cacheChannel fun _ => meets_listing

lemma meets_createChannelWithId
    (hfound : ∀ g, j.changes g none (some (.founded creator req.memberIds))) :
    Meets groupPact j (createChannelWithId cfg c creator req) := by
  refine meets_snapshot fun loaded => ?_
  cases loaded with
  | some ch => exact meets_invoke meets_restoreRow fun _ => meets_ret
  | none =>
    refine meets_invoke meets_ownedChannels fun owned => ?_
    split
    · exact meets_ret
    refine meets_invoke (meets_createGroupTx inserts_insertGroupWithId hfound) fun group => ?_
    cases group with
    | error text => exact meets_ret
    | ok g => exact (meets_invoke meets_saveGroupWithId fun _ => meets_ret).of_bind_ret

end Create

lemma meets_map {α β : Type} {f : α → β} {t : GroupTx α} (ht : Meets groupPact j t) :
    Meets groupPact j (f <$> t) :=
  sure_seq ht fun _ _ _ _ _ => trivial

/-- **The group functions keep the pact**: every commit of a job has its effect, however the jobs
are interleaved. -/
theorem meets_prog {cfg : ChannelServiceConfig} (j : Job) : Meets groupPact j (prog cfg j) := by
  cases j with
  | createChannel creator req =>
    exact meets_createChannel (fun _ => .inl ⟨rfl, rfl⟩) fun _ _ => .inr rfl
  | createChannelWithId c creator req => exact meets_createChannelWithId fun _ => ⟨rfl, rfl⟩
  | joinChannel c u role => exact meets_map (meets_joinChannel fun _ => ⟨rfl, rfl⟩)
  | approveJoinRequestInTx r g u handler now =>
    exact meets_map (meets_approveJoinRequestInTx fun _ => ⟨rfl, rfl⟩)
  | leaveChannel c u => exact meets_map (meets_leaveChannel fun _ => ⟨rfl, rfl⟩)
  | transferGroupOwner g owner newOwner =>
    exact meets_map (meets_transferGroupOwner fun r hne ho hn => ⟨rfl, hne, r, rfl, ho, hn, rfl⟩)
  | addMemberAdmin g u => exact meets_map (meets_addMemberAdmin fun _ => ⟨rfl, rfl⟩)
  | removeMemberAdmin g u => exact meets_map (meets_removeMemberAdmin fun _ => ⟨rfl, rfl⟩)
  | setMemberRoleAdmin g u role =>
    exact meets_map (meets_setMemberRoleAdmin fun _ hne => ⟨rfl, hne, rfl⟩)
  | addGroupMember g u role => exact meets_map (meets_addGroupMember fun _ => ⟨rfl, rfl⟩)
  | evictStaleMemory n => exact meets_map meets_evictStaleMemory
  | getChannelOpt c => exact meets_map meets_getChannelOpt

end PrivChat.Groups
