import PrivChat.Call.Frame

/-!
The jobs of the call service are disciplined: what they rely on is kept by the locks they
hold. So every run of them, however interleaved, commits in an order in which each commit is
one of `Committed`.
-/

namespace PrivChat.Call

open PrivChat.Db Tx CallService

variable {β : Type} {sv : CallService} {d d' : Db} {h h' : List LockKey}

/-- A request may fail for a reason that is gone by the time it has failed. -/
abbrev callEnv : Env Db RpcError := ⟨DbOk, fun _ => True⟩

abbrev Others (sv : CallService) : List LockKey → Db → Db → Prop := Rely sv.prog callEnv

section Others

variable (hr : Others sv h d d')
include hr

/-- A lock keeps what no commit changes without it. -/
lemma Others.keeps {P : Prop} {k : LockKey} (hl : k ∈ h)
    (hP : ∀ {j h' code}, DbOk d → Committed sv (fun _ _ => True) d j h' d' code → P ∨ k ∈ h') :
    P := by
  obtain ⟨hok, j, h', hdis, hc⟩ := hr
  obtain ⟨code, hc⟩ := Commits.committed hc
  exact (hP hok hc).resolve_right fun hl' => hdis hl hl'

variable {c : CallId}

lemma Others.calls (hl : .row c ∈ h) : d'.calls.get c = d.calls.get c := by
  refine hr.keeps hl fun hok hc => ?_
  have hstep := hc.callStep hok.calls c
  generalize d.calls.get c = o, d'.calls.get c = o' at hstep
  cases hstep with
  | none => exact .inl rfl
  | same => exact .inl rfl
  | new hi hid => exact .inr (hid ▸ hi.row)
  | steps hl' => exact .inr hl'

lemma Others.commands {k : CommandKey} (hl : .command k ∈ h) :
    d'.commands.get k = d.commands.get k :=
  hr.keeps hl fun _ hc => hc.commands.imp_right And.left

lemma Others.peerCommands {k : CommandKey} (hl : .command k ∈ h) :
    SameOrGone (d'.peerCommands.get k) (d.peerCommands.get k) :=
  hr.keeps hl fun _ hc => hc.peerCommands.imp_right And.left

lemma Others.peerEvents (hl : .row c ∈ h) {n : ℕ} :
    SameOrGone (d'.peerEvents.get (c, n)) (d.peerEvents.get (c, n)) :=
  hr.keeps hl fun _ hc => hc.peerEvents

lemma Others.peerRates {k : PeerRateKey} (hl : .row k.call ∈ h) :
    SameOrGone (d'.peerRates.get k) (d.peerRates.get k) :=
  hr.keeps hl fun _ hc => hc.peerRates k

end Others

/-- Each call's row is untouched by the pending writes, or set by them. -/
def Sets (p : Db → Db) : Prop :=
  ∀ c, (∀ d, (p d).calls.get c = d.calls.get c) ∨ ∃ o, ∀ d, (p d).calls.get c = o

/-- The pending writes leave the tables of commands and events alone. -/
structure Quiet (p : Db → Db) : Prop where
  commands : ∀ d, (p d).commands = d.commands
  peerCommands : ∀ d, (p d).peerCommands = d.peerCommands
  peerEvents : ∀ d, (p d).peerEvents = d.peerEvents
  peerRates : ∀ d, (p d).peerRates = d.peerRates

lemma sets_id : Sets id := fun _ => .inl fun _ => rfl

lemma quiet_id : Quiet id := ⟨fun _ => rfl, fun _ => rfl, fun _ => rfl, fun _ => rfl⟩

lemma Sets.saveDb {p : Db → Db} (hp : Sets p) {s : StoredCall} {notify : Bool} {t : Millis} :
    Sets (saveDb s notify t ∘ p) := by
  intro c
  by_cases hc : c = s.call.callId
  · subst hc
    exact .inr ⟨some ⟨s.call.state, s, t⟩, fun d => by simp⟩
  · rcases hp c with hp | ⟨o, ho⟩
    · exact .inl fun d => by simp [hc, hp]
    · exact .inr ⟨o, fun d => by simp [hc, ho]⟩

lemma stable_busy {p : Db → Db} (hp : Sets p) {u : UserId} (hu : .user u ∈ h)
    {calls : CallId → Bool} : Stable (Others sv) h fun d => busy u calls (p d) = false := by
  intro d d' hr hb
  rw [not_busy_iff] at hb ⊢
  rintro c hc ⟨row, hrow, hlive⟩
  refine hb c hc ?_
  rcases hp c with hp | ⟨o, ho⟩
  · rw [hp] at hrow
    obtain ⟨row', hrow', hlive'⟩ := hr.keeps hu fun hok hc => (hc.liveIn hok.calls ⟨row, hrow,
      hlive⟩).imp_right And.left
    exact ⟨row', (hp d).trans hrow', hlive'⟩
  · exact ⟨row, ((ho d).trans (ho d').symm).trans hrow, hlive⟩

/-! ### The statements -/

section Statements

variable {Q : β → (Db → Db) → List LockKey → Prop} {p : Db → Db}

@[simp] lemma disc_effect (call : CallSnapshot) (kind : EffectKind) (g : Unit → CallTx β) :
    Disc callEnv (Others sv) Q (effect call kind >>= g) p h ↔ Disc callEnv (Others sv) Q (g ())
      ((fun s => s.addEffect ⟨call.callId, call.version, kind⟩) ∘ p) h := Iff.rfl

variable {s : StoredCall} {g : Unit → CallTx β}

lemma disc_save {notify : Bool}
    (hg : ∀ t, Disc callEnv (Others sv) Q (g ()) (saveDb s notify t ∘ p) (.row s.call.callId :: h))
    : Disc callEnv (Others sv) Q (save s notify >>= g) p h := by
  simp only [save, bind_assoc]
  refine asks_now.disc fun t => ?_
  have hg := hg t
  unfold saveDb at hg
  cases notify <;> by_cases he : s.call.state = .ended <;>
    by_cases hl : s.call.transport = .livekit <;>
    simpa [he, hl, clearPeer, Db.clearPeer, Function.comp_def] using hg

lemma disc_record {u : UserId} {dev id fp : String} {r : Response}
    (hg : ∀ t, Disc callEnv (Others sv) Q (g ())
      ((fun s => s.putCommand ⟨u, dev, id⟩ ⟨fp, r, t⟩) ∘ p) h) :
    Disc callEnv (Others sv) Q (record u dev id fp r >>= g) p h := by
  simp only [record, bind_assoc]
  exact asks_now.disc fun t => hg t

lemma asks_members {channel : ChannelId} : Asks (members channel) :=
  asks_observe.bind fun _ => asks_orFail.bind fun _ =>
    asks_ite (.ret _) (asks_ite (asks_observe.bind fun _ =>
      (asks_groupMembers _).bind fun _ => .ret _) (.fail _))

lemma disc_command {actor : UserId} {device cmd : String} {op : Operation} {body : CommandBody}
    {g : String × Option Response → CallTx β}
    (hg : ∀ r, Disc callEnv (Others sv) Q (g r) id (.command ⟨actor, device, cmd⟩ :: h)) :
    Disc callEnv (Others sv) Q (sv.command actor device cmd op body >>= g) id h := by
  simp only [command, bind_assoc, disc_ensure, disc_acquire]
  intro _
  refine disc_query_ensure trivial (fun d d' hr hd => ?_) (disc_query fun row => .inr ⟨?_, ?_⟩)
  · -- a peer command is not added without the lock
    simp only [id, Option.isSome_eq_false_iff, Option.isNone_iff_eq_none] at hd ⊢
    rcases hr.peerCommands List.mem_cons_self with he | he
    · exact he.trans hd
    · exact he
  · intro d d' hr hd
    exact (hr.commands List.mem_cons_self).trans hd
  · cases row with
    | none => exact hg _
    | some row =>
      simp only [bind_assoc, disc_ensure]
      exact fun _ => hg _

lemma disc_load {g : StoredCall → CallTx β}
    (hg : ∀ s, Disc callEnv (Others sv) Q (g s) id (.row c :: h)) :
    Disc callEnv (Others sv) Q (load c >>= g) id h := by
  simp only [load, bind_assoc, disc_acquire]
  refine disc_query fun row => .inr ⟨fun d d' hr hd => ?_, asks_orFail.disc fun _ => hg _⟩
  exact (hr.calls List.mem_cons_self).trans hd

lemma disc_lockUsers {all : List UserId}
    (hg : ∀ h', h ⊆ h' → Disc callEnv (Others sv) Q (g ()) id h') :
    Disc callEnv (Others sv) Q (lockUsers all >>= g) id h := by
  refine disc_forEach (fun p h' => p = id ∧ h ⊆ h') ⟨rfl, List.Subset.refl _⟩ ?_ ?_
  · rintro u p h' - ⟨rfl, hsub⟩
    refine disc_query fun b => ?_
    cases b
    · exact .inr ⟨stable_busy sets_id List.mem_cons_self,
        rfl, List.subset_cons_of_subset _ hsub⟩
    · exact .inl ⟨_, trivial, rfl⟩
  · rintro p h' ⟨rfl, hsub⟩
    exact hg h' hsub

lemma disc_nextMessageId {g : ℕ → CallTx β}
    (hg : ∀ c, Disc callEnv (Others sv) Q (g c) id (.row c :: h)) :
    Disc callEnv (Others sv) Q (nextMessageId >>= g) id h := by
  simp only [nextMessageId, bind_assoc]
  refine asks_observe.disc fun c => ?_
  rw [disc_acquire]
  refine disc_query_ensure trivial (fun d d' hr hd => ?_) (hg c)
  simpa [hr.calls List.mem_cons_self] using hd

lemma disc_removeLeft (hg : Disc callEnv (Others sv) Q (g ()) (removeLeftDb sv s ∘ p) h) :
    Disc callEnv (Others sv) Q (sv.removeLeft s >>= g) p h := by
  unfold removeLeft
  unfold removeLeftDb at hg
  generalize s.call.participants = ps at hg ⊢
  induction ps generalizing p with
  | nil => exact hg
  | cons x ps ih =>
    rw [forEach, bind_assoc]
    refine disc_seq (K := fun _ p' h' => p' = (fun s' => removeDb sv s s' x) ∘ p ∧ h' = h) ?_ ?_
    · unfold removeDb
      rcases s.claims.get x.userId with _ | c
      · exact ⟨rfl, rfl⟩
      · dsimp only
        split_ifs <;> exact ⟨rfl, rfl⟩
    · rintro _ p' h' ⟨rfl, rfl⟩
      exact ih hg

lemma disc_expire {g : Bool × StoredCall → CallTx β}
    (hg : ∀ b s' p h', Sets p → (∀ d, (p d).commands = d.commands) →
      (s'.call.state ≠ .ended → Quiet p) → h ⊆ h' → Disc callEnv (Others sv) Q (g (b, s')) p h') :
    Disc callEnv (Others sv) Q (sv.expire s >>= g) id h := by
  have hself : ∀ b s', Disc callEnv (Others sv) Q (g (b, s')) id h := fun b s' =>
    hg b s' id h sets_id (fun _ => rfl) (fun _ => quiet_id) (List.Subset.refl _)
  unfold expire
  split_ifs
  · exact hself _ _
  simp only [bind_assoc]
  refine asks_now.disc fun current => asks_members.disc fun m => asks_now.disc fun t => ?_
  split
  · simp only [bind_assoc]
    refine disc_removeLeft (disc_save fun t' => hg _ _ _ _ (Sets.saveDb ?_) ?_ ?_
      (List.subset_cons_self _ _))
    · exact fun c => .inl fun d => by simp
    · intro d
      simp
    · intro hs
      refine ⟨fun d => ?_, fun d => ?_, fun d => ?_, fun d => ?_⟩ <;>
        simp [saveDb_peer hs]
  · exact hself _ _

lemma disc_operate {actor : UserId} {device : String} {route : Route} {role : ℤ}
    {muted : Bool} {call : CallId} {g : StoredCall × Bool → CallTx β} (hp : Sets p)
    (hg : ∀ r p h', Disc callEnv (Others sv) Q (g r) p h') :
    Disc callEnv (Others sv) Q (sv.operate actor device s route role muted call >>= g) p h := by
  cases route with
  | join =>
    simp only [operate, join, bind_assoc, disc_ensure, disc_acquire]
    refine fun _ _ _ => disc_query_ensure trivial (stable_busy hp List.mem_cons_self) ?_
    exact asks_notBlocked_forEach.disc fun _ => asks_now.disc fun _ =>
      asks_now.disc fun _ => hg _ _ _
  | heartbeat =>
    simp only [operate, heartbeat, bind_assoc, disc_ensure]
    refine fun _ => asks_now.disc fun t => ?_
    split <;> exact hg _ _ _
  | reject =>
    simp only [operate, reject, bind_assoc, disc_ensure]
    refine fun _ => asks_now.disc fun t => ?_
    split <;> exact hg _ _ _
  | cancel =>
    simp only [operate, cancel, bind_assoc, disc_ensure]
    exact fun _ => asks_now.disc fun t => hg _ _ _
  | leave | «end» =>
    simp only [operate, leave, bind_assoc, disc_ensure]
    refine fun _ _ => asks_now.disc fun t => ?_
    split
    · exact hg _ _ _
    · rw [bind_assoc]
      exact hg _ _ _
  | other name => trivial

end Statements

/-! ### The jobs -/

section Jobs

/-- Nothing is relied on after the last commit. -/
def Final (_ : Answer) (_ : Db → Db) (_ : List LockKey) : Prop := True

variable (actor : UserId) (device : String)

lemma disc_invite {req : CallInviteRequest} :
    Disc callEnv (Others sv) Final (sv.prog (.invite actor device req)) id [] := by
  simp only [prog, invite, bind_assoc]
  refine asks_enabled.disc fun _ => disc_command fun r => asks_members.disc fun m =>
    asks_orFail.disc fun x => ?_
  rw [disc_ensure]
  intro _
  split
  · trivial
  · simp only [bind_assoc, disc_ensure]
    refine fun _ _ _ _ => (asks_forEach (fun u => asks_ensure.bind fun _ =>
      asks_notBlocked actor u) _).disc fun _ => disc_lockUsers fun h' _ =>
      disc_nextMessageId fun id => asks_now.disc fun t => disc_save fun t' =>
      disc_record fun t'' => trivial

lemma asks_replayJoin {s : StoredCall} {muted : Bool}
    {r : Response} : Asks (sv.replayJoin actor device s muted r) := by
  refine asks_now.bind fun _ => asks_now.bind fun _ => asks_ensure.bind fun _ =>
    asks_notBlocked_forEach.bind fun _ => asks_ite (asks_peerConfig.bind fun _ => ?_) (.ret _)
  split <;> exact .ret _

lemma disc_mutate {route : Route} {actor : UserId} {device : String} {req : CallMutationRequest} :
    Disc callEnv (Others sv) Final (sv.prog (.mutate route actor device req)) id [] := by
  simp only [prog, mutate, bind_assoc]
  refine asks_enabled.disc fun _ => disc_command fun r => disc_load fun s =>
    asks_members.disc fun m => asks_orFail.disc fun x => ?_
  simp only [disc_ensure]
  intro _ _
  split
  · refine Asks.disc (asks_ite (asks_replayJoin _ _) (.ret _)) fun _ => trivial
  · simp only [bind_assoc]
    refine disc_expire fun b s' p h' hp _ _ _ => ?_
    split
    · trivial
    · simp only [bind_assoc]
      exact disc_operate hp fun r p h' => asks_respond.disc fun _ =>
        disc_save fun t => disc_record fun t' => trivial

lemma disc_get (c : CallId) : Disc callEnv (Others sv) Final (sv.prog (.get actor c)) id [] := by
  simp only [prog, CallService.get, bind_assoc]
  refine asks_enabled.disc fun _ => disc_load fun s => asks_members.disc fun m => ?_
  rw [disc_ensure]
  exact fun _ => disc_expire fun b s' p h' _ _ _ _ => trivial

lemma disc_authorizePeer {Q : β → (Db → Db) → List LockKey → Prop} {actor : UserId}
    {device : String} {g : StoredCall → CallTx β}
    (hg : ∀ s p h', Quiet p → h ⊆ h' → .row c ∈ h' → Disc callEnv (Others sv) Q (g s) p h') :
    Disc callEnv (Others sv) Q (sv.authorizePeer actor device c >>= g) id h := by
  simp only [authorizePeer, bind_assoc]
  refine asks_enabled.disc fun _ => disc_load fun s => asks_members.disc fun m => ?_
  rw [disc_ensure]
  refine fun _ => disc_expire fun b s' p h' _ _ hq hsub => ?_
  rw [disc_ensure]
  intro hrun
  have hs : s'.call.state ≠ .ended := by
    simp only [Bool.not_eq_true', Bool.or_eq_false_iff, beq_eq_false_iff_ne] at hrun
    exact hrun.1.1
  exact asks_now.disc fun _ => asks_ensure.disc fun _ =>
    asks_notBlocked_forEach.disc fun _ =>
    hg s' p h' (hq hs) (List.Subset.trans (List.subset_cons_self _ _) hsub) (hsub (by simp))

lemma disc_peerRate {Q : β → (Db → Db) → List LockKey → Prop} {p : Db → Db}
    {actor : UserId} {op : PeerOperation} {limit : ℕ} {g : Unit → CallTx β}
    (hp : Quiet p) (hl : .row c ∈ h) (hg : ∀ rate, Disc callEnv (Others sv) Q (g ())
      ((fun s => s.putPeerRate ⟨c, actor, op⟩ rate) ∘ p) h) :
    Disc callEnv (Others sv) Q (peerRate c actor op limit >>= g) p h := by
  simp only [peerRate, bind_assoc]
  refine asks_now.disc fun t => disc_peek (fun _ _ => .refl) (fun d0 d d' hr hd => ?_) fun row => ?_
  · simp only [hp.peerRates] at hd ⊢
    exact (hr.peerRates hl).trans hd
  · rw [disc_update]
    exact asks_ensure.disc fun _ => hg _

variable {req : CallPeerSignalRequest}

lemma asks_negotiate {s : StoredCall} : Asks (negotiate actor req s) := by
  unfold negotiate
  split <;> exact asks_ensure.bind fun _ => .ret _

/-- A query on the events of a call, with the pending writes at most deleting some. -/
lemma disc_peekEvents {β γ : Type} {Q : β → (Db → Db) → List LockKey → Prop} {p : Db → Db}
    {q : Db → γ} {g : γ → CallTx β} (hl : .row c ∈ h)
    (hp : ∀ d d' n, SameOrGone (d'.peerEvents.get (c, n)) (d.peerEvents.get (c, n)) →
      SameOrGone ((p d').peerEvents.get (c, n)) ((p d).peerEvents.get (c, n)))
    (hg : ∀ a, Disc callEnv (Others sv) Q (g a) p h) : Disc callEnv (Others sv) Q
    (peekEvents c q >>= g) p h :=
  disc_peek (fun _ _ _ => .refl)
    (fun _ d d' hr hd n => (hp d d' n (hr.peerEvents hl)).trans (hd n)) hg

lemma SameOrGone.filter {o o' : Option β} (f : β → Bool) (ho : SameOrGone o' o) :
    SameOrGone (o'.filter f) (o.filter f) := by
  rcases ho with rfl | rfl
  · exact .refl
  · exact .inr rfl

lemma disc_peerSignal :
    Disc callEnv (Others sv) Final (sv.prog (.peerSignal actor device req)) id [] := by
  simp only [prog, peerSignal, bind_assoc]
  refine asks_enabled.disc fun _ => asks_checkSignal.disc fun _ => ?_
  refine disc_authorizePeer fun s p h' hp hsub hl => disc_peerRate hp hl fun rate => ?_
  have hcmd : LockKey.command ⟨actor, device, req.commandId⟩ ∈ h' := hsub (by simp)
  refine disc_peek (fun d hd => ⟨.refl, fun hs => ?_⟩) (fun d0 d d' hr hd => ?_) fun existing => ?_
  · simp only [Function.comp_apply, Db.putPeerRate_peerCommands, hp.peerCommands,
      Db.putPeerRate_commands, hp.commands] at hs ⊢
    refine (hd.keys _).resolve_right fun hn => ?_
    simp [hn] at hs
  · simp only [Function.comp_apply, Db.putPeerRate_peerCommands, hp.peerCommands,
      Db.putPeerRate_commands, hp.commands] at hd ⊢
    exact ⟨(hr.peerCommands hcmd).trans hd.1, fun hs => (hr.commands hcmd).trans (hd.2 hs)⟩
  cases existing with
  | some row =>
    simp only [replaySignal, bind_assoc]
    refine asks_ensure.disc fun _ => asks_now.disc fun _ => asks_ensure.disc fun _ =>
      asks_now.disc fun t => disc_peekEvents hl (fun d d' n hn => ?_) fun event =>
      asks_orFail.disc fun _ => trivial
    simpa only [Function.comp_apply, Db.putPeerRate_peerEvents, hp.peerEvents] using hn
  | none =>
    simp only [bind_assoc]
    refine disc_query_ensure trivial (fun d d' hr hd => ?_) ((asks_negotiate _).disc fun s' => ?_)
    · simp only [Function.comp_apply, Db.putPeerRate_commands, hp.commands] at hd ⊢
      rw [hr.commands hcmd]
      exact hd
    simp only [appendSignal, bind_assoc]
    refine asks_now.disc fun t => ?_
    rw [disc_update]
    refine disc_peekEvents hl (fun d d' n hn => ?_) fun count => asks_ensure.disc fun _ =>
      asks_now.disc fun t' => ?_
    · simp only [Function.comp_apply, Db.deletePeerEvents_peerEvents, Db.putPeerRate_peerEvents,
        hp.peerEvents, Table.get_deleteWhere]
      exact hn.filter _
    · rw [disc_update, disc_update]
      exact disc_save fun _ => trivial

lemma disc_peerEvents {req : CallPeerEventsRequest} :
    Disc callEnv (Others sv) Final (sv.prog (.peerEvents actor device req)) id [] := by
  simp only [prog, CallService.peerEvents, bind_assoc]
  refine disc_authorizePeer fun s p h' hp _ hl => disc_peerRate hp hl fun rate =>
    asks_ensure.disc fun _ => asks_now.disc fun t =>
    disc_peekEvents hl (fun d d' n hn => ?_) fun rows => asks_ensure.disc fun _ =>
    asks_ensure.disc fun _ => trivial
  simpa only [Function.comp_apply, Db.putPeerRate_peerEvents, hp.peerEvents] using hn

lemma disc_each {ids : List CallId} :
    Disc callEnv (Others sv) Final (forEach sv.sweepOne ids >>= fun _ => pure .swept) id [] := by
  induction ids with
  | nil => trivial
  | cons c ids ih =>
    simp only [forEach, sweepOne, bind_assoc]
    exact disc_load fun s => disc_expire fun b s' p h' _ _ _ _ => asks_now.disc fun t => ih

lemma disc_sweep : Disc callEnv (Others sv) Final (sv.prog .sweep) id [] := by
  simp only [prog, sweep, sweepPeer, sweepEvents, sweepCommands, sweepRates, sweepCalls, bind_assoc]
  refine asks_now.disc fun _ => ?_
  refine asks_now.disc fun _ => ?_
  refine asks_now.disc fun _ => ?_
  rw [disc_update, disc_done]
  exact disc_peek (fun _ _ => trivial) (fun _ _ _ _ _ => trivial) fun ids => disc_each

/-- **Every job is disciplined.** -/
theorem disc_prog (sv : CallService) (j : Job) :
    Disc callEnv (Rely sv.prog callEnv) (fun _ _ _ => True) (sv.prog j) id [] := by
  cases j with
  | invite actor device req => exact disc_invite actor device
  | mutate route actor device req => exact disc_mutate
  | get actor c => exact disc_get actor c
  | peerSignal actor device req => exact disc_peerSignal actor device
  | peerEvents actor device req => exact disc_peerEvents actor device
  | sweep => exact disc_sweep

end Jobs

end PrivChat.Call
