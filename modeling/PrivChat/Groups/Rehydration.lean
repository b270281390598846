import PrivChat.Groups.Calls

/-!
Sequences of calls, and that what `getChannelOpt` returns of a group is its active membership,
whether the object was in memory or had to be loaded.

When a group is handed over, the rows change in one transaction. The object in memory is then to
follow, one role after the other; but it does not let go of an owner, and that it refuses is not
looked at.
-/

namespace PrivChat.Groups

open Db Channels Tx

structure Call where
  job : Job
  answers : List Outside

/-- When the answers are used up, nothing fails any more. -/
def Call.outside (call : Call) (n : ℕ) : Outside := call.answers.getD n calm

def Call.exec (cfg : ChannelServiceConfig) (call : Call) (s : Store) :
    Except ServerError Reply × Store :=
  (prog cfg call.job).exec call.outside s

def afterCalls (cfg : ChannelServiceConfig) (s : Store) (calls : List Call) : Store :=
  calls.foldl (fun s call => (call.exec cfg s).2) s

lemma afterCalls_append (cfg : ChannelServiceConfig) (s : Store) (calls calls' : List Call) :
    afterCalls cfg s (calls ++ calls') = afterCalls cfg (afterCalls cfg s calls) calls' :=
  List.foldl_append

def returnsSuccess (r : Except ServerError Reply) : Bool := r.toOption.any Reply.isSuccess

/-- Creation, joins, approvals, adds, leaves, evictions and loads. -/
def Job.isPlain : Job → Bool
  | .createChannel _ _ | .createChannelWithId _ _ _ | .joinChannel _ _ _
  | .approveJoinRequestInTx _ _ _ _ _ | .leaveChannel _ _ | .addGroupMember _ _ _
  | .evictStaleMemory _ | .getChannelOpt _ => true
  | .transferGroupOwner _ _ _ | .addMemberAdmin _ _ | .removeMemberAdmin _ _
  | .setMemberRoleAdmin _ _ _ => false

/-- What a call is to meet in the state it finds, so that memory and mirror stay right: new members
find room, a new id is free, who is approved or added is in or has a loaded object to get into,
no object of a group is dropped that the mirror rows do not give back, and a load can read
them. -/
def Call.keepsMirror (cfg : ChannelServiceConfig) (s : Store) (call : Call) : Bool :=
  match call.job with
  | .createChannel creator req => fits cfg creator req
  | .createChannelWithId c creator req =>
    decide (c ≠ 0) && ((s.cache.get c).isSome || (!s.hasChannel c && fits cfg creator req))
  | .approveJoinRequestInTx _ g u _ _ => admitsApproval s g u
  | .addGroupMember g u _ => (s.cache.get g).isSome || s.isActiveMember g u
  | .evictStaleMemory n => call.answers.all fun o =>
    (o.byAge.take (s.cache.size - n)).all fun g => !s.hasGroup g || s.isMirrored g
  | .getChannelOpt c => (s.cache.get c).isSome ||
    call.answers.all fun o => (o.fault .selectParticipants).isNone
  | .joinChannel _ _ _ | .leaveChannel _ _ | .transferGroupOwner _ _ _ | .addMemberAdmin _ _
  | .removeMemberAdmin _ _ | .setMemberRoleAdmin _ _ _ => true

/-- The call is a plain one and succeeds. -/
def Call.succeeds (cfg : ChannelServiceConfig) (s : Store) (call : Call) : Bool :=
  call.job.isPlain && returnsSuccess (call.exec cfg s).1

/-- Each call meets the condition in the state it finds. -/
def callsMeet (cfg : ChannelServiceConfig) (K : Store → Call → Bool) : Store → List Call → Bool
  | _, [] => true
  | s, call :: calls => K s call && callsMeet cfg K (call.exec cfg s).2 calls

variable {cfg : ChannelServiceConfig} {s : Store} {call : Call} {calls : List Call}

lemma callsMeet_append {K : Store → Call → Bool} {calls' : List Call} :
    callsMeet cfg K s (calls ++ calls') =
      (callsMeet cfg K s calls && callsMeet cfg K (afterCalls cfg s calls) calls') := by
  induction calls generalizing s with
  | nil => simp [callsMeet, afterCalls]
  | cons call calls ih =>
    rw [List.cons_append, callsMeet, ih, callsMeet, Bool.and_assoc]
    rfl

/-- What a call may be told from outside. -/
def Call.Tells (call : Call) (o : Outside) : Prop := o = calm ∨ o ∈ call.answers

lemma Call.tells_outside (call : Call) (n : ℕ) : call.Tells (call.outside n) := by
  rw [Call.outside, List.getD_eq_getElem?_getD]
  cases h : call.answers[n]? with
  | none => exact .inl rfl
  | some o => exact .inr (List.mem_of_getElem? h)

lemma Call.reads_of_all
    (h : (call.answers.all fun o => (o.fault .selectParticipants).isNone) = true)
    {o : Outside} (ho : call.Tells o) : o.fault .selectParticipants = none := by
  rcases ho with rfl | ho
  · rfl
  · simpa using List.all_eq_true.mp h o ho

lemma leaves_get {c : ChannelId} {answers : List Outside} (h : s.Coherent)
    (hk : (Call.mk (.getChannelOpt c) answers).keepsMirror cfg s = true) :
    Leaves (Call.mk (.getChannelOpt c) answers).Tells
      (okThen fun r s' => s'.Coherent ∧ ∀ ch, r = some ch → Shows c s' ch) (getChannelOpt c) s := by
  refine leaves_getChannelOpt h fun hnone o ho => ?_
  have hall : (answers.all fun o => (o.fault .selectParticipants).isNone) = true := by
    simpa [Call.keepsMirror, hnone] using hk
  exact Call.reads_of_all hall ho

lemma leaves_prog (h : s.Coherent) (hp : call.job.isPlain = true)
    (hk : call.keepsMirror cfg s = true) :
    Leaves call.Tells (okThen KeepsOrder) (prog cfg call.job) s := by
  obtain ⟨job, answers⟩ := call
  cases job with
  | createChannel creator req => exact leaves_createChannel h hk
  | createChannelWithId c creator req =>
    simp only [Call.keepsMirror, Bool.and_eq_true, decide_eq_true_eq] at hk
    exact leaves_createChannelWithId h hk.1 fun hnone => by simpa [hnone] using hk.2
  | joinChannel c u role => exact leaves_map (leaves_joinChannel h) fun _ _ h' _ => h'
  | approveJoinRequestInTx r g u handler now =>
    exact leaves_map (leaves_approveJoinRequestInTx h hk) fun _ _ h' => h'
  | leaveChannel c u => exact leaves_map (leaves_leaveChannel h) fun _ _ h' _ => h'
  | addGroupMember g u role =>
    exact leaves_map (leaves_addGroupMember h (by simpa [Call.keepsMirror] using hk))
      fun _ _ h' _ => h'
  | evictStaleMemory n =>
    refine leaves_map (leaves_evictStaleMemory h fun o ho g hg hgroup => ?_) fun _ _ h' _ => h'
    rcases ho with rfl | ho
    · simp [calm] at hg
    · simp only [Call.keepsMirror, List.all_eq_true] at hk
      simpa [hgroup] using hk o ho g hg
  | getChannelOpt c => exact leaves_map (leaves_get h hk) fun _ _ h' _ => h'.1
  | transferGroupOwner | addMemberAdmin | removeMemberAdmin | setMemberRoleAdmin => cases hp

lemma Store.Coherent.exec (h : s.Coherent) (hs : call.succeeds cfg s = true)
    (hk : call.keepsMirror cfg s = true) : (call.exec cfg s).2.Coherent := by
  simp only [Call.succeeds, Bool.and_eq_true] at hs
  have hend := (leaves_prog h hs.1 hk).exec call.tells_outside
  have hsucc := hs.2
  rw [Call.exec] at hsucc ⊢
  cases hr : ((prog cfg call.job).exec call.outside s).1 with
  | error e => simp [hr, returnsSuccess, Except.toOption] at hsucc
  | ok reply =>
    rw [hr] at hend hsucc
    exact hend (by simpa [returnsSuccess, Except.toOption] using hsucc)

lemma Store.Coherent.afterCalls (h : s.Coherent)
    (hs : callsMeet cfg (Call.succeeds cfg) s calls = true)
    (hk : callsMeet cfg (Call.keepsMirror cfg) s calls = true) :
    (afterCalls cfg s calls).Coherent := by
  induction calls generalizing s with
  | nil => exact h
  | cons call calls ih =>
    simp only [callsMeet, Bool.and_eq_true] at hs hk
    exact ih (h.exec hs.1 hk.1) hs.2 hk.2

/-- **What is loaded is the membership.** After any sequence of successful creations, joins,
approvals, adds, leaves, evictions and loads of which each meets the condition in the state it
finds, the channel object that `getChannelOpt` returns of a group has as its members exactly the
users with an active row of the group. -/
theorem get_channel_opt_shows_active_members (cfg : ChannelServiceConfig)
    (channels : Table ChannelId ChannelRow) (requests : Table RequestId JoinRequestRow)
    (calls : List Call) (g : GroupId) (answers : List Outside) (ch : Channel)
    (hs : callsMeet cfg (Call.succeeds cfg) (Store.start channels requests)
      (calls ++ [⟨.getChannelOpt g, answers⟩]) = true)
    (hk : callsMeet cfg (Call.keepsMirror cfg) (Store.start channels requests)
      (calls ++ [⟨.getChannelOpt g, answers⟩]) = true)
    (hget : ((Call.mk (.getChannelOpt g) answers).exec cfg
      (afterCalls cfg (Store.start channels requests) calls)).1 = .ok (.found (some ch)))
    (hg : (afterCalls cfg (Store.start channels requests)
      (calls ++ [⟨.getChannelOpt g, answers⟩])).hasGroup g = true) (u : UserId) :
    (ch.members.get u).isSome = (afterCalls cfg (Store.start channels requests)
      (calls ++ [⟨.getChannelOpt g, answers⟩])).isActiveMember g u := by
  rw [callsMeet_append, Bool.and_eq_true] at hs hk
  have hcoh := coherent_start.afterCalls hs.1 hk.1
  have hkeep : (Call.mk (.getChannelOpt g) answers).keepsMirror cfg
      (afterCalls cfg (Store.start channels requests) calls) = true := by
    simpa [callsMeet] using hk.2
  -- the object comes from the load itself, which says what it has in it
  have hmap : Leaves (Call.mk (.getChannelOpt g) answers).Tells
      (okThen fun r s' => ∀ ch, r = .found (some ch) → Shows g s' ch)
      (prog cfg (.getChannelOpt g)) (afterCalls cfg (Store.start channels requests) calls) :=
    leaves_map (leaves_get hcoh hkeep) fun r s' h ch hr => h.2 ch (by simpa using hr)
  have hend := hmap.exec (Call.mk (.getChannelOpt g) answers).tells_outside
  rw [Call.exec] at hget
  rw [hget] at hend
  rw [afterCalls_append] at hg ⊢
  exact hend ch rfl hg u

def replyChannel (r : Except ServerError Reply) : Option Channel :=
  match r with
  | .ok (.found ch) => ch
  | _ => none

lemma exists_found {r : Except ServerError Reply} (h : (replyChannel r).isSome = true) :
    ∃ ch, r = .ok (.found (some ch)) := by
  unfold replyChannel at h
  split at h
  · obtain ⟨ch, rfl⟩ := Option.isSome_iff_exists.mp h
    exact ⟨ch, rfl⟩
  · cases h

def emptyStore : Store := Store.start .empty .empty

/-- User 1 creates the group 1 with user 2 in it. -/
def createCall : Call := ⟨.createChannel 1 ⟨some "group", [2], none, none⟩, []⟩

/-- The object of the group 1 is dropped from memory. -/
def evictCall : Call := ⟨.evictStaleMemory 0, [⟨0, 0, 0, fun _ => none, [1]⟩]⟩

def loadCall : Call := ⟨.getChannelOpt 1, []⟩

/-- User 3 is added, the object is dropped and loaded again. -/
def addAndReload : List Call := [createCall, ⟨.addGroupMember 1 3 .member, []⟩, evictCall]

theorem get_channel_opt_shows_added_member :
    callsMeet {} (Call.succeeds {}) emptyStore (addAndReload ++ [loadCall]) = true ∧
      callsMeet {} (Call.keepsMirror {}) emptyStore (addAndReload ++ [loadCall]) = true ∧
      ∃ ch, (loadCall.exec {} (afterCalls {} emptyStore addAndReload)).1 = .ok (.found (some ch)) ∧
        ∀ u, (ch.members.get u).isSome =
          (afterCalls {} emptyStore (addAndReload ++ [loadCall])).isActiveMember 1 u := by
  obtain ⟨ch, hch⟩ : ∃ ch, (loadCall.exec {} (afterCalls {} emptyStore addAndReload)).1 =
      .ok (.found (some ch)) := exists_found (by decide)
  exact ⟨by decide, by decide, ch, hch, get_channel_opt_shows_active_members {} .empty .empty
    addAndReload 1 [] ch (by decide) (by decide) hch (by decide)⟩

/-- User 2 leaves, the object is dropped and loaded again. -/
def leaveAndReload : List Call := [createCall, ⟨.leaveChannel 1 2, []⟩, evictCall]

/-- All calls succeed, and the user who has left is back in the object. -/
theorem left_member_comes_back :
    callsMeet {} (Call.succeeds {}) emptyStore (leaveAndReload ++ [loadCall]) = true ∧
      (replyChannel (loadCall.exec {} (afterCalls {} emptyStore leaveAndReload)).1).any
        (fun ch => (ch.members.get 2).isSome) = true ∧
      (afterCalls {} emptyStore (leaveAndReload ++ [loadCall])).hasGroup 1 = true ∧
      (afterCalls {} emptyStore (leaveAndReload ++ [loadCall])).isActiveMember 1 2 = false := by
  decide

variable {cfg : ChannelServiceConfig} {O : Outside → Prop} {s s' : Store} {g : GroupId}
  {owner newOwner u w : UserId} {role : MemberRole} {ch : Channel}

def roleIn (ch : Channel) (u : UserId) : Option MemberRole := (ch.members.get u).map (·.role)

/-- The object after an attempt to change a role in it. -/
def trySetRole (u : UserId) (role : MemberRole) (ch : Channel) : Channel :=
  (ch.updateMemberRole u role).toOption.getD ch

lemma trySetRole_group (u : UserId) (role : MemberRole) (ht : ch.channelType = .group) :
    (trySetRole u role ch).channelType = .group ∧ ∀ w, roleIn (trySetRole u role ch) w =
      if w = u ∧ roleIn ch u ≠ some .owner then (roleIn ch u).map fun _ => role
      else roleIn ch w := by
  unfold trySetRole Channel.updateMemberRole
  cases hm : ch.members.get u with
  | none =>
    refine ⟨ht, fun w => ?_⟩
    by_cases hw : w = u
    · simp [hw, roleIn, hm, Except.toOption]
    · simp [hw, Except.toOption]
  | some m =>
    by_cases ho : m.role = .owner
    · simp [ht, ho, roleIn, hm, Except.toOption]
    · refine ⟨by simp [ht, ho, Except.toOption], fun w => ?_⟩
      by_cases hw : w = u
      · simp [ht, ho, hw, roleIn, hm, Except.toOption]
      · simp [ht, ho, hw, roleIn, Except.toOption]

lemma leaves_setMemberRole_eq (hc : s.cache.get g = some ch) :
    Leaves O (fun _ s' => s'.members = s.members ∧ s'.cache.get g = some (trySetRole u role ch))
      (setMemberRole g u role) s := by
  refine ends_acquire.mpr (ends_query.mpr ?_)
  rw [hc]
  dsimp only
  cases hupd : ch.updateMemberRole u role with
  | error text => exact leaves_fail ⟨rfl, by simp [trySetRole, hupd, hc, Except.toOption]⟩
  | ok ch' => exact ⟨rfl, by simp [trySetRole, hupd, cacheDb, Except.toOption]⟩

/-- The rows after the hand-over. -/
def handOverDb (g : GroupId) (owner newOwner : UserId) (s : Store) : Store :=
  ownerDb g newOwner (roleDb g newOwner .owner (roleDb g owner .member s))

lemma leaves_transferTx : Leaves O (okThen fun _ s' => s.isActiveMember g newOwner = true ∧
    s' = handOverDb g owner newOwner s) (transferTx g owner newOwner) s := by
  refine leaves_asks asks_sql (fun _ => ?_) fun _ => trivial
  refine leaves_asks asks_sql (fun _ => ?_) fun _ => trivial
  refine ends_acquire.mpr (ends_query.mpr ?_)
  refine leaves_asks asks_orFail (fun current => ?_) fun _ => trivial
  refine leaves_asks asks_ensure (fun _ => ?_) fun _ => trivial
  refine leaves_asks asks_sql (fun _ => ?_) fun _ => trivial
  refine ends_acquire.mpr (ends_query.mpr (ends_ensure.mpr ?_))
  split
  · rename_i hactive
    refine leaves_asks asks_sql (fun _ => ?_) fun _ => trivial
    refine asks_sql.ends (fun _ => ?_) fun _ => trivial
    refine asks_sql.ends (fun _ => ?_) fun _ => trivial
    exact asks_sql.ends (fun _ => ⟨hactive, rfl⟩) fun _ => trivial
  · trivial

structure HandedOver (g : GroupId) (owner newOwner : UserId) (ch : Channel) (s s' : Store) :
    Prop where
  others : owner ≠ newOwner
  active : s.isActiveMember g newOwner = true
  members : s'.members = (handOverDb g owner newOwner s).members
  cache : s'.cache.get g = some (trySetRole newOwner .owner (trySetRole owner .member ch))

lemma leaves_transferGroupOwner (hc : s.cache.get g = some ch) :
    Leaves O (okThen fun _ s' => HandedOver g owner newOwner ch s s')
      (transferGroupOwner g owner newOwner) s := by
  unfold transferGroupOwner
  split
  · exact leaves_fail trivial
  · rename_i hne
    refine leaves_invoke_ok leaves_transferTx fun _ s1 ⟨hactive, h1⟩ => ?_
    have hc1 : s1.cache.get g = some ch := by rw [h1]; exact hc
    refine leaves_call (leaves_setMemberRole_eq hc1) fun _ s2 ⟨hm2, hc2⟩ => ?_
    refine leaves_call (leaves_setMemberRole_eq hc2) fun _ s3 ⟨hm3, hc3⟩ => ?_
    exact leaves_ret ⟨hne, hactive, by rw [hm3, hm2, h1], hc3⟩

/-! ### What is to be shown -/

/-- The object has one owner, and its roles are those of the rows. -/
def Reflected (g : GroupId) (owner : UserId) (s : Store) : Prop :=
  ∃ ch, s.cache.get g = some ch ∧ (∀ u, roleIn ch u = some .owner ↔ u = owner) ∧
    ∀ u role, roleIn ch u = some role → s.activeRole g u = some role

/-- The object can follow: it has the new owner and no other owner, not even the old one, who if
there is active, and it has the roles of the rows for all others. -/
def CanFollow (g : GroupId) (owner newOwner : UserId) (s : Store) : Prop :=
  ∀ ch, s.cache.get g = some ch → (roleIn ch newOwner).isSome ∧
    (∀ u, u ≠ newOwner → roleIn ch u ≠ some .owner) ∧
    ((roleIn ch owner).isSome → s.isActiveMember g owner = true) ∧
    ∀ u role, u ≠ owner → u ≠ newOwner → roleIn ch u = some role → s.activeRole g u = some role

lemma HandedOver.reflected_iff (h : HandedOver g owner newOwner ch s s')
    (hc : s.cache.get g = some ch) (ht : ch.channelType = .group) :
    Reflected g newOwner s' ↔ CanFollow g owner newOwner s := by
  obtain ⟨ht1, hr1⟩ := trySetRole_group owner .member ht
  obtain ⟨-, hr2⟩ := trySetRole_group newOwner .owner ht1
  have hne := h.others
  have hnew : (s.activeRole g newOwner).isSome = true := by rw [activeRole_isSome, h.active]
  have hrows : ∀ u, s'.activeRole g u = if u = newOwner then some .owner else
      if u = owner then (s.activeRole g owner).map fun _ => .member else s.activeRole g u := by
    intro u
    have : s'.activeRole g u = (handOverDb g owner newOwner s).activeRole g u := by
      simp [Store.activeRole, h.members]
    rw [this]
    obtain ⟨r, hr⟩ := Option.isSome_iff_exists.mp hnew
    have hown : (handOverDb g owner newOwner s).activeRole g u =
      (roleDb g newOwner .owner (roleDb g owner .member s)).activeRole g u := rfl
    rw [hown, activeRole_roleDb, activeRole_roleDb, activeRole_roleDb]
    simp [hne.symm, hr]
  have hroles : ∀ u, roleIn (trySetRole newOwner .owner (trySetRole owner .member ch)) u =
      if u = newOwner then (roleIn ch newOwner).map fun _ => .owner else
      if u = owner ∧ roleIn ch owner ≠ some .owner then (roleIn ch owner).map fun _ => .member
      else roleIn ch u := by
    intro u
    rw [hr2, hr1, hr1]
    by_cases hu : u = newOwner
    · cases hro : roleIn ch newOwner with
      | none => simp [hu, hne.symm]
      | some r => by_cases hrr : r = .owner <;> simp [hu, hne.symm, hro, hrr]
    · simp [hu]
  constructor
  · rintro ⟨ch', hch', hone, heq⟩ ch0 hch0
    obtain rfl : ch = ch0 := Option.some.inj (hc.symm.trans hch0)
    obtain rfl := Option.some.inj (h.cache.symm.trans hch')
    have hno : ∀ u, u ≠ newOwner → roleIn ch u ≠ some .owner := by
      intro u hu ho
      refine hu ((hone u).mp ?_)
      rw [hroles, if_neg hu, if_neg, ho]
      rintro ⟨rfl, hn⟩
      exact hn ho
    refine ⟨?_, hno, fun ho => ?_, fun u role hu hu' hr => ?_⟩
    · have hown := (hone newOwner).mpr rfl
      rw [hroles, if_pos rfl] at hown
      cases hro : roleIn ch newOwner <;> simp [hro] at hown ⊢
    · obtain ⟨r, hr⟩ := Option.isSome_iff_exists.mp ho
      have hro : r ≠ .owner := fun he => hno owner hne (he ▸ hr)
      have hmem := heq owner .member (by simp [hroles, hne, hr, hro])
      rw [hrows, if_neg hne, if_pos rfl] at hmem
      rw [← activeRole_isSome]
      cases hact : s.activeRole g owner <;> simp [hact] at hmem ⊢
    · have hrole := heq u role (by simp [hroles, hu, hu', hr])
      simpa [hrows, hu, hu'] using hrole
  · intro hf
    obtain ⟨hin, hno, hact, hrest⟩ := hf ch hc
    obtain ⟨r, hr⟩ := Option.isSome_iff_exists.mp hin
    refine ⟨_, h.cache, fun u => ?_, fun u role hu => ?_⟩
    · rw [hroles]
      by_cases hu : u = newOwner
      · simp [hu, hr]
      · by_cases ho : u = owner
        · cases hro : roleIn ch owner with
          | none => simp [ho, hne]
          | some r' =>
            have hr' : r' ≠ .owner := fun he => hno owner hne (he ▸ hro)
            simp [ho, hne, hr']
        · simp [hu, ho, hno u hu]
    · rw [hroles] at hu
      rw [hrows]
      by_cases hun : u = newOwner
      · simpa [hun, hr] using hu
      · by_cases huo : u = owner
        · obtain ⟨r', hr'⟩ : ∃ r', roleIn ch owner = some r' := by
            cases hro : roleIn ch owner <;> simp_all
          have hro : r' ≠ .owner := fun he => hno owner hne (he ▸ hr')
          have hrow := hact (by simp [hr'])
          rw [← activeRole_isSome] at hrow
          obtain ⟨a, ha⟩ := Option.isSome_iff_exists.mp hrow
          simpa [huo, hne, hro, hr', ha] using hu
        · simp only [hun, huo, if_false, false_and] at hu ⊢
          exact hrest u role huo hun hu

/-! ### Sequences -/

structure Transfer where
  owner : UserId
  newOwner : UserId
  answers : List Outside

def Transfer.exec (cfg : ChannelServiceConfig) (g : GroupId) (t : Transfer) (s : Store) :
    Except ServerError Reply × Store :=
  (Call.mk (.transferGroupOwner g t.owner t.newOwner) t.answers).exec cfg s

/-- Each call meets the condition in the state it finds. -/
def EachTransfer (cfg : ChannelServiceConfig) (g : GroupId) (K : Store → Transfer → Prop) :
    Store → List Transfer → Prop
  | _, [] => True
  | s, t :: ts => K s t ∧ EachTransfer cfg g K (t.exec cfg g s).2 ts

lemma Transfer.handedOver {t : Transfer} (hc : s.cache.get g = some ch)
    (hok : returnsSuccess (t.exec cfg g s).1 = true) :
    HandedOver g t.owner t.newOwner ch s (t.exec cfg g s).2 := by
  have hmap : Leaves (fun _ => True) (okThen fun _ s' => HandedOver g t.owner t.newOwner ch s s')
      (prog cfg (.transferGroupOwner g t.owner t.newOwner)) s :=
    leaves_map (leaves_transferGroupOwner hc) fun _ _ h => h
  have hend : okThen (fun _ s' => HandedOver g t.owner t.newOwner ch s s') (t.exec cfg g s).1
      (t.exec cfg g s).2 := hmap.exec fun _ => trivial
  cases hr : (t.exec cfg g s).1 with
  | error e => simp [hr, returnsSuccess, Except.toOption] at hok
  | ok reply =>
    rw [hr] at hend
    exact hend

/-- **A hand-over is reflected in the loaded object** after each of a sequence of calls that
succeed, exactly if before each of them the object could follow. -/
theorem transfers_reflected_iff (cfg : ChannelServiceConfig) (g : GroupId) (ch : Channel)
    (s : Store) (transfers : List Transfer) (hc : s.cache.get g = some ch)
    (ht : ch.channelType = .group)
    (hok : EachTransfer cfg g (fun s t => returnsSuccess (t.exec cfg g s).1 = true) s transfers) :
    EachTransfer cfg g (fun s t => Reflected g t.newOwner (t.exec cfg g s).2) s transfers ↔
      EachTransfer cfg g (fun s t => CanFollow g t.owner t.newOwner s) s transfers := by
  induction transfers generalizing s ch with
  | nil => rfl
  | cons t ts ih =>
    have h := Transfer.handedOver hc hok.1
    have ht2 := (trySetRole_group t.newOwner .owner (trySetRole_group t.owner .member ht).1).1
    exact and_congr (h.reflected_iff hc ht) (ih _ _ h.cache ht2 hok.2)

/-- User 1 hands the group 1 over to user 2. -/
def toTwo : Transfer := ⟨1, 2, []⟩

/-- The group 1, loaded when the rows that mirror its members could not be written; user 2 has
joined it since. -/
def halfLoaded : Store :=
  let faulty := { calm with
    fault := fun st => if st = .upsertParticipant then some "timeout" else none }
  afterCalls {} emptyStore [{ createCall with answers := List.replicate 40 faulty }, evictCall,
    loadCall, ⟨.joinChannel 1 2 none, []⟩]

lemma canFollow_of_keyList (h : ∀ ch, s.cache.get g = some ch → ch.members.keyList = [newOwner])
    (hne : owner ≠ newOwner) : CanFollow g owner newOwner s := by
  intro ch hch
  have hin : ∀ u, (roleIn ch u).isSome ↔ u = newOwner := fun u => by
    rw [roleIn, Option.isSome_map, ← Table.mem_keyList, h ch hch, List.mem_singleton]
  have hout : ∀ u, u ≠ newOwner → roleIn ch u = none := fun u hu =>
    Option.not_isSome_iff_eq_none.mp fun hs => hu ((hin u).mp hs)
  exact ⟨(hin newOwner).mpr rfl, fun u hu => by simp [hout u hu],
    fun ho => absurd ((hin owner).mp ho) hne, fun u role _ hu hr => by simp [hout u hu] at hr⟩

theorem transfers_reflected_sample : returnsSuccess (toTwo.exec {} 1 halfLoaded).1 = true ∧
      Reflected 1 2 (toTwo.exec {} 1 halfLoaded).2 := by
  have hok : returnsSuccess (toTwo.exec {} 1 halfLoaded).1 = true := by decide
  have hobj : (halfLoaded.cache.get 1).any (fun ch =>
      ch.channelType = .group ∧ ch.members.keyList = [2]) = true := by decide
  obtain ⟨ch, hch, hobj⟩ := (Option.any_eq_true _ _).mp hobj
  obtain ⟨ht, hkeys⟩ := of_decide_eq_true hobj
  have hfollow : CanFollow 1 1 2 halfLoaded := by
    refine canFollow_of_keyList (fun ch' hch' => ?_) (by decide)
    obtain rfl := Option.some.inj (hch.symm.trans hch')
    exact hkeys
  have hiff := transfers_reflected_iff {} 1 ch halfLoaded [toTwo] hch ht ⟨hok, trivial⟩
  exact ⟨hok, (hiff.mpr ⟨hfollow, trivial⟩).1⟩

theorem old_owner_stays :
    returnsSuccess (toTwo.exec {} 1 (afterCalls {} emptyStore [createCall])).1 = true ∧
      ¬ Reflected 1 2 (toTwo.exec {} 1 (afterCalls {} emptyStore [createCall])).2 := by
  refine ⟨by decide, ?_⟩
  rintro ⟨ch, hch, hone, -⟩
  have htwo : ((toTwo.exec {} 1 (afterCalls {} emptyStore [createCall])).2.cache.get 1).all
      (fun ch => decide (roleIn ch 1 = some .owner)) = true := by decide
  have hrole : roleIn ch 1 = some .owner := by simpa [hch] using htwo
  exact absurd ((hone 1).mp hrole) (by decide)

end PrivChat.Groups
