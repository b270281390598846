import PrivChat.Call.Transition

/-!
What the statements of the call service do, run alone: one rule for each, in the form in which
the operations use it.
-/

namespace PrivChat.Call

open PrivChat.Db Tx CallService

variable {β : Type} {W : List LockKey → World → Prop} {C : Db → List LockKey → CallTx β → Prop}
  {Q : β → Db → List LockKey → Prop} {v : Db} {h : List LockKey} {sv : CallService}

def Db.clearPeer (c : CallId) (s : Db) : Db :=
  ((s.deletePeerEvents fun k _ => k.1 == c).deletePeerCommands fun _ r =>
    r.call == c).deletePeerRates fun k _ => k.call == c

def saveDb (stored : StoredCall) (notify : Bool) (t : Millis) (s : Db) : Db :=
  let call := stored.call
  let s := s.putCall call.callId ⟨call.state, stored, t⟩
  let s := if notify then s.addEffect ⟨call.callId, call.version, .state⟩ else s
  if call.state = .ended then
    let s := s.addEffect ⟨call.callId, call.version, .history⟩
    if call.transport = .livekit then s.addEffect ⟨call.callId, call.version, .deleteRoom⟩
    else s.clearPeer call.callId
  else s

@[simp] lemma saveDb_calls (stored : StoredCall) (notify : Bool) (t : Millis) (s : Db) :
    (saveDb stored notify t s).calls =
      s.calls.put stored.call.callId ⟨stored.call.state, stored, t⟩ := by
  unfold saveDb Db.clearPeer
  dsimp only
  split_ifs <;> rfl

@[simp] lemma saveDb_commands (stored : StoredCall) (notify : Bool) (t : Millis) (s : Db) :
    (saveDb stored notify t s).commands = s.commands := by
  unfold saveDb Db.clearPeer
  dsimp only
  split_ifs <;> rfl

variable {stored : StoredCall}

lemma saveDb_peer (hs : stored.call.state ≠ .ended) (notify : Bool)
    {t : Millis} (s : Db) : (saveDb stored notify t s).peerEvents = s.peerEvents ∧
      (saveDb stored notify t s).peerCommands = s.peerCommands ∧
      (saveDb stored notify t s).peerRates = s.peerRates := by
  unfold saveDb
  simp only [hs, if_false]
  split_ifs <;> exact ⟨rfl, rfl, rfl⟩

@[simp] lemma wp_effect (call : CallSnapshot) (kind : EffectKind) (g : Unit → CallTx β) :
    wp W C (fun _ => True) Q (effect call kind >>= g) v h ↔
      wp W C (fun _ => True) Q (g ()) (v.addEffect ⟨call.callId, call.version, kind⟩) h :=
  Iff.rfl

@[simp] lemma wp_now (g : Millis → CallTx β) : wp W C (fun _ => True) Q (now >>= g) v h ↔
      ∀ o, W h o → wp W C (fun _ => True) Q (g o.now) v h := Iff.rfl

lemma asks_now : Asks now := asks_observe

variable {g : Unit → CallTx β}

lemma wp_save {notify : Bool} (hg : ∀ t, wp W C (fun _ => True) Q (g ()) (saveDb stored notify t v)
      (.row stored.call.callId :: h)) :
    wp W C (fun _ => True) Q (save stored notify >>= g) v h := by
  simp only [save, bind_assoc]
  refine asks_now.wp fun t => ?_
  have hg := hg t
  unfold saveDb at hg
  cases notify <;> by_cases he : stored.call.state = .ended <;>
    by_cases hl : stored.call.transport = .livekit <;>
    simpa [he, hl, clearPeer, Db.clearPeer] using hg

variable {u : UserId}

lemma wp_record {dev id fp : String} {r : Response}
    (hg : ∀ t, wp W C (fun _ => True) Q (g ()) (v.putCommand ⟨u, dev, id⟩ ⟨fp, r, t⟩) h) :
    wp W C (fun _ => True) Q (record u dev id fp r >>= g) v h := by
  simp only [record, bind_assoc]
  exact asks_now.wp fun t => hg t

/-! ### Reading the surroundings -/

/-- What the members of a channel are: a direct channel has two at most. -/
def MembersOf (kind : ℤ) (m : Members) : Prop :=
  (kind = 0 ∨ kind = 1) ∧ (kind = 0 → ∃ a b, ∀ u, (m.get u).isSome → u = a ∨ u = b)

lemma asks_groupMembers {rows : List GroupMemberRow} (m : Members) :
    Asks (groupMembers m rows) := by
  induction rows generalizing m with
  | nil => exact .ret m
  | cons r rows ih => exact asks_now.bind fun _ => ih _

variable {m : Members}

lemma addDirect_isSome {o : Option UserId}
    (hu : ((addDirect m o).get u).isSome) : o = some u ∨ (m.get u).isSome := by
  cases o with
  | none => exact .inr hu
  | some a =>
    by_cases ha : u = a
    · exact .inl (congrArg some ha.symm)
    · exact .inr (by simpa [addDirect, ha] using hu)

lemma membersOf_direct {row : ChannelRow} : MembersOf 0 (directMembers row) := by
  refine ⟨.inl rfl, fun _ => ⟨row.directUser1Id.getD 0, row.directUser2Id.getD 0, fun u hu => ?_⟩⟩
  rcases addDirect_isSome hu with h2 | hu
  · exact .inr (by simp [h2])
  · rcases addDirect_isSome hu with h1 | hu
    · exact .inl (by simp [h1])
    · simp at hu

/-- The channel is a direct one, and the user is one of its two. -/
def World.DirectMember (o : World) (channel : ChannelId) (u : UserId) : Prop :=
  ∃ row, o.channels channel = some row ∧ row.channelType = 0 ∧
    (row.directUser1Id = some u ∨ row.directUser2Id = some u)

instance (o : World) (channel : ChannelId) (u : UserId) : Decidable (o.DirectMember channel u) :=
  decidable_of_iff ((o.channels channel).any fun row => row.channelType = 0 ∧
    (row.directUser1Id = some u ∨ row.directUser2Id = some u))
    (by simp [World.DirectMember, Option.any_eq_true])

lemma addDirect_self : ((addDirect m (some u)).get u).isSome := by
  simp [addDirect]

lemma addDirect_keep {o : Option UserId} (hu : (m.get u).isSome) :
    ((addDirect m o).get u).isSome := by
  cases o with
  | none => exact hu
  | some a =>
    by_cases ha : u = a
    · exact ha ▸ addDirect_self
    · simpa [addDirect, ha] using hu

lemma directMembers_isSome {row : ChannelRow}
    (hu : row.directUser1Id = some u ∨ row.directUser2Id = some u) :
    ((directMembers row).get u).isSome := by
  unfold directMembers
  rcases hu with hu | hu
  · rw [hu]
    exact addDirect_keep addDirect_self
  · rw [hu]
    exact addDirect_self

lemma wp_members {g : ℤ × Members → CallTx β} {channel : ChannelId}
    (hg : ∀ kind m, MembersOf kind m →
      (∀ u, (∀ o, W h o → o.DirectMember channel u) → (m.get u).isSome) →
      wp W C (fun _ => True) Q (g (kind, m)) v h) :
    wp W C (fun _ => True) Q (members channel >>= g) v h := by
  simp only [members, bind_assoc, wp_observe, wp_orFail, implies_true, and_true]
  intro o ho row hrow
  split_ifs with h0 h1
  · refine hg 0 _ membersOf_direct fun u hu => directMembers_isSome ?_
    obtain ⟨row', hrow', -, hu⟩ := hu o ho
    rwa [Option.some.inj (hrow.symm.trans hrow')]
  · simp only [bind_assoc]
    refine asks_observe.wp fun _ => (asks_groupMembers _).wp fun m =>
      hg 1 m ⟨.inr rfl, fun h => by cases h⟩ fun u hu => ?_
    obtain ⟨row', hrow', hk, -⟩ := hu o ho
    rw [Option.some.inj (hrow.symm.trans hrow')] at h1
    omega
  · trivial

lemma asks_notBlocked (a b : UserId) : Asks (notBlocked a b) :=
  asks_observe.bind fun _ => asks_ensure

variable {c : CallId}

lemma mem_journal {p : PeerEventRow → Bool} {s : Db} {n : ℕ} {r : PeerEventRow} :
    (n, r) ∈ journal c p s ↔ s.peerEvents.get (c, n) = some r ∧ p r = true := by
  simp only [journal, List.mem_insertionSort, List.mem_map, Prod.exists, Table.mem_select,
    Bool.and_eq_true, beq_iff_eq, Prod.mk.injEq]
  constructor
  · rintro ⟨c', n', r', ⟨hr, rfl, hp⟩, rfl, rfl⟩
    exact ⟨hr, hp⟩
  · rintro ⟨hr, hp⟩
    exact ⟨c, n, r, ⟨hr, rfl, hp⟩, rfl, rfl⟩

lemma length_le_journal {s : Db} {ns : List ℕ} (hnd : ns.Nodup)
    (hns : ∀ n ∈ ns, (s.peerEvents.get (c, n)).isSome) :
    ns.length ≤ (journal c (fun _ => true) s).length := by
  rw [← List.length_map (f := Prod.fst)]
  refine (List.subperm_of_subset hnd fun n hn => ?_).length_le
  obtain ⟨r, hr⟩ := Option.isSome_iff_exists.mp (hns n hn)
  exact List.mem_map.mpr ⟨(n, r), mem_journal.mpr ⟨hr, rfl⟩, rfl⟩

lemma SameOrGone.eq_of_some {o o' : Option β} {b : β} (ho : SameOrGone o o')
    (hb : o = some b) : o' = some b := by
  rcases ho with h | h
  · exact h.symm.trans hb
  · cases h.symm.trans hb

/-! ### Commands, calls and users -/

/-- The command is new: both tables have no row for it. -/
def Unused (k : CommandKey) (s : Db) : Prop :=
  s.commands.get k = none ∧ s.peerCommands.get k = none

lemma wp_command {g : String × Option Response → CallTx β} {actor : UserId} {device id : String}
    {op : Operation} {body : CommandBody}
    (hnew : Unused ⟨actor, device, id⟩ v → wp W C (fun _ => True) Q
      (g (sv.ext.sha256 (.command op body.normalize), none)) v (.command ⟨actor, device, id⟩ :: h))
    (hold : ∀ row, v.commands.get ⟨actor, device, id⟩ = some row →
      row.fingerprint = sv.ext.sha256 (.command op body.normalize) → wp W C (fun _ => True) Q
      (g (sv.ext.sha256 (.command op body.normalize), some row.response)) v
        (.command ⟨actor, device, id⟩ :: h)) :
    wp W C (fun _ => True) Q (sv.command actor device id op body >>= g) v h := by
  simp only [command, bind_assoc, wp_ensure, wp_acquire, wp_query]
  split_ifs with h1 h2
  have hp : v.peerCommands.get ⟨actor, device, id⟩ = none := by simpa using h2
  rcases hrow : v.commands.get ⟨actor, device, id⟩ with _ | row
  · exact hnew ⟨hrow, hp⟩
  · simp only [bind_assoc, wp_ensure]
    split_ifs with h3
    exact hold row hrow (by simpa using h3)

lemma wp_load {g : StoredCall → CallTx β} {id : CallId} (hg : ∀ row, v.calls.get id = some row →
      wp W C (fun _ => True) Q (g row.document) v (.row id :: h)) :
    wp W C (fun _ => True) Q (load id >>= g) v h := by
  simp only [load, bind_assoc, wp_acquire, wp_query, wp_orFail, implies_true, and_true]
  exact fun row hrow => hg row hrow

lemma busy_eq_false {calls : CallId → Bool} {s : Db} :
    busy u calls s = false ↔ ∀ c row, s.calls.get c = some row → calls c = true →
      row.state ≠ .ended → ∀ p ∈ row.document.call.participants, p.userId = u →
        p.state.live = false := by
  simp only [busy, Table.any_eq_false, Bool.and_eq_false_iff, List.any_eq_false]
  constructor
  · intro hb c row hrow hc hs p hp hu
    rcases hb c row hrow with (h | h) | h
    · simp [hc] at h
    · simp [hs] at h
    · simpa [hu] using h p hp
  · intro hb c row hrow
    by_cases hc : calls c = true
    · by_cases hs : row.state = .ended
      · exact .inl (.inr (by simp [hs]))
      · refine .inr fun p hp => ?_
        by_cases hu : p.userId = u
        · simp [hb c row hrow hc hs p hp hu]
        · simp [hu]
    · exact .inl (.inl (by simpa using hc))

lemma wp_lockUsers {all : List UserId}
    (hg : ∀ h', h ⊆ h' → (∀ u ∈ all, .user u ∈ h' ∧ busy u (fun _ => true) v = false) →
      wp W C (fun _ => True) Q (g ()) v h') :
    wp W C (fun _ => True) Q (lockUsers all >>= g) v h := by
  refine wp_forEach (fun rest v' h' => v' = v ∧ h ⊆ h' ∧
      ∀ u ∈ all, u ∈ rest ∨ (.user u ∈ h' ∧ busy u (fun _ => true) v = false))
    ⟨rfl, List.Subset.refl _, fun u hu => .inl hu⟩ ?_ ?_
  · rintro u rest v' h' - ⟨rfl, hsub, hin⟩
    simp only [wp_acquire, wp_query]
    unfold ensure
    split
    · rename_i hb
      refine ⟨rfl, List.subset_cons_of_subset _ hsub, fun w hw => ?_⟩
      rcases hin w hw with hr | ⟨hl, hbw⟩
      · rcases List.mem_cons.mp hr with rfl | hr
        · exact .inr ⟨List.mem_cons_self, by simpa using hb⟩
        · exact .inl hr
      · exact .inr ⟨List.mem_cons_of_mem _ hl, hbw⟩
    · trivial
  · rintro v' h' ⟨rfl, hsub, hin⟩
    exact hg h' hsub fun u hu => (hin u hu).resolve_left (by simp)

lemma wp_nextMessageId {g : ℕ → CallTx β}
    (hg : ∀ id, v.calls.get id = none → wp W C (fun _ => True) Q (g id) v (.row id :: h)) :
    wp W C (fun _ => True) Q (nextMessageId >>= g) v h := by
  simp only [nextMessageId, bind_assoc]
  refine asks_observe.wp fun id => ?_
  simp only [wp_acquire, wp_query, wp_ensure]
  split_ifs with hu
  exact hg id (by simpa using hu)

lemma asks_notBlocked_forEach {actor : UserId} {c : CallParticipant → Prop} [DecidablePred c]
    {ps : List CallParticipant} :
    Asks (forEach (fun p => if c p then notBlocked actor p.userId else return ()) ps) :=
  asks_forEach (fun p => asks_ite (asks_notBlocked actor p.userId) (.ret ())) ps

/-! ### Expiry -/

/-- The media server is told to remove a participant who has left. -/
def removeDb (sv : CallService) (stored : StoredCall) (s : Db) (p : CallParticipant) : Db :=
  match stored.claims.get p.userId with
  | some c =>
    if p.state = .left ∧ stored.call.transport = .livekit then
      s.addEffect ⟨stored.call.callId, stored.call.version,
        .removeParticipant (sv.identity stored.call.callId p.userId c.device)⟩
    else s
  | none => s

def removeLeftDb (sv : CallService) (stored : StoredCall) (s : Db) : Db :=
  stored.call.participants.foldl (removeDb sv stored) s

lemma removeLeftDb_eq (sv : CallService) {stored : StoredCall} (s : Db) :
    ∃ es, removeLeftDb sv stored s = { s with effects := es } := by
  unfold removeLeftDb
  induction stored.call.participants generalizing s with
  | nil => exact ⟨s.effects, rfl⟩
  | cons p ps ih =>
    obtain ⟨es, he⟩ := ih (removeDb sv stored s p)
    refine ⟨es, ?_⟩
    rw [List.foldl_cons, he]
    unfold removeDb
    split
    · split_ifs <;> rfl
    · rfl

section

variable (stored : StoredCall) (s : Db)

@[simp] lemma removeLeftDb_calls : (removeLeftDb sv stored s).calls = s.calls := by
  obtain ⟨es, he⟩ := removeLeftDb_eq sv s
  rw [he]

@[simp] lemma removeLeftDb_commands : (removeLeftDb sv stored s).commands = s.commands := by
  obtain ⟨es, he⟩ := removeLeftDb_eq sv s
  rw [he]

@[simp] lemma removeLeftDb_peerEvents : (removeLeftDb sv stored s).peerEvents = s.peerEvents := by
  obtain ⟨es, he⟩ := removeLeftDb_eq sv s
  rw [he]

@[simp] lemma removeLeftDb_peerCommands :
    (removeLeftDb sv stored s).peerCommands = s.peerCommands := by
  obtain ⟨es, he⟩ := removeLeftDb_eq sv s
  rw [he]

@[simp] lemma removeLeftDb_peerRates : (removeLeftDb sv stored s).peerRates = s.peerRates := by
  obtain ⟨es, he⟩ := removeLeftDb_eq sv s
  rw [he]

end

lemma wp_removeLeft (stored : StoredCall) (g : Unit → CallTx β) :
    wp W C (fun _ => True) Q (sv.removeLeft stored >>= g) v h ↔
      wp W C (fun _ => True) Q (g ()) (removeLeftDb sv stored v) h := by
  unfold removeLeft removeLeftDb
  induction stored.call.participants generalizing v with
  | nil => rfl
  | cons p ps ih =>
    rw [forEach, bind_assoc, List.foldl_cons, ← ih]
    unfold removeDb
    rcases stored.claims.get p.userId with _ | c
    · rfl
    · dsimp only
      split_ifs <;> rfl

lemma lapse_eq_self {current : Millis} {stored : StoredCall}
    (hl : lapses m current stored = false) : lapse m current stored = stored := by
  have hmap : stored.call.participants.map (expireParticipant m stored.claims current) =
      stored.call.participants := by
    refine (List.map_congr_left fun p hp => ?_).trans (List.map_id _)
    simp only [lapses, List.any_eq_false] at hl
    simp [expireParticipant, hl p hp]
  unfold lapse
  rw [hmap]

/-- The call `c` of the committed state, brought up to date, and the tables then. The clock and
the members were read under the lock of the call, as `W` allows. -/
inductive Expired (sv : CallService) (W : List LockKey → World → Prop) (d : Db) (c : CallId) :
    StoredCall → Db → Prop
  | same {row : CallRow} : d.calls.get c = some row →
      (row.document.call.state ≠ .ended → ∃ h o, .row c ∈ h ∧ W h o) →
      Expired sv W d c row.document d
  | expired {row : CallRow} (h : List LockKey) (o : World) (m : Members) (t t' : Millis) :
      d.calls.get c = some row → row.document.call.state ≠ .ended → .row c ∈ h → W h o →
      (∀ u, (∀ o, W h o → o.DirectMember row.document.call.channelId u) → (m.get u).isSome) →
      (lapses m o.now row.document || timedOut (lapse m o.now row.document) o.now) = true →
      Expired sv W d c (expireCall m o.now t row.document)
        (saveDb (expireCall m o.now t row.document) true t'
          (removeLeftDb sv (expireCall m o.now t row.document) d))

variable {d : Db} {s : StoredCall}

lemma Expired.steps (hx : Expired sv W d c s v) :
    ∃ row, d.calls.get c = some row ∧ Steps row.document s := by
  cases hx with
  | same hrow => exact ⟨_, hrow, .refl⟩
  | expired h o m t t' hrow hs _ _ _ hl =>
    exact ⟨_, hrow, .single (.expire _ m o.now t hs hl)⟩

lemma Expired.commands (hx : Expired sv W d c s v) : v.commands = d.commands := by
  cases hx with
  | same => rfl
  | expired => simp

lemma Expired.peer (hx : Expired sv W d c s v)
    (hs : s.call.state ≠ .ended) : v.peerEvents = d.peerEvents ∧
      v.peerCommands = d.peerCommands ∧ v.peerRates = d.peerRates := by
  cases hx with
  | same => exact ⟨rfl, rfl, rfl⟩
  | expired h o m t t' => simpa using saveDb_peer hs true (removeLeftDb sv _ d)

lemma wp_expire {g : Bool × StoredCall → CallTx β} {row : CallRow}
    (hrow : d.calls.get c = some row) (hlock : .row c ∈ h)
    (hg : ∀ b stored v h', Expired sv W d c stored v → h ⊆ h' →
      wp W C (fun _ => True) Q (g (b, stored)) v h') :
    wp W C (fun _ => True) Q (sv.expire row.document >>= g) d h := by
  unfold expire
  split_ifs with hs
  · exact hg false _ _ _ (.same hrow fun h => absurd hs h) (List.Subset.refl _)
  simp only [bind_assoc, wp_now]
  refine fun o ho => wp_members fun kind m _ hm => asks_now.wp fun t => ?_
  by_cases hx : (lapses m o.now row.document || timedOut (lapse m o.now row.document) o.now) = true
  · simp only [hx, if_true, bind_assoc, wp_removeLeft]
    exact wp_save fun t' => hg true _ _ _ (.expired h o m t t' hrow hs hlock ho hm hx)
      (List.subset_cons_self _ _)
  · simp only [hx]
    simp only [Bool.or_eq_true, not_or, Bool.not_eq_true] at hx
    obtain ⟨hl, ht⟩ := hx
    rw [lapse_eq_self hl] at ht ⊢
    simp only [ht, Bool.false_eq_true, if_false]
    exact hg false _ _ _ (.same hrow fun _ => ⟨h, o, hlock, ho⟩) (List.Subset.refl _)

end PrivChat.Call
