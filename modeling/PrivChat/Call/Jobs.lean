import PrivChat.Call.Commit
import PrivChat.Db.Interleave

/-!
Each job of the call service, run alone, commits and answers as `Committed` and `Returned` say.
-/

namespace PrivChat.Call

open PrivChat.Db Tx CallService

variable {β : Type} {sv : CallService} {d : Db} {W : List LockKey → World → Prop}
  {C : Db → List LockKey → CallTx β → Prop}
  {Q : β → Db → List LockKey → Prop} {v : Db} {h : List LockKey}

lemma asks_enabled : Asks sv.enabled := asks_ensure

lemma invite_spec {actor : UserId} {device : String} {req : CallInviteRequest} :
    JobSpec sv W d (.invite actor device req) (sv.prog (.invite actor device req)) := by
  simp only [prog, invite, bind_assoc]
  refine asks_enabled.wp fun _ => (wp_command (fun hnew => ?_) fun row hrow hfp => ?_)
  all_goals
    refine wp_members fun kind m hm _ => ?_
    simp only [wp_orFail, wp_ensure, implies_true, and_true]
    intro x hx
    refine if_then_trivial fun _ => ?_
  · simp only [bind_assoc, wp_ensure]
    refine if_then_trivial fun _ => if_then_trivial fun _ => if_then_trivial fun _ =>
      if_then_trivial fun ht => ?_
    -- every target is a member
    refine wp_forEach (fun rest v' h' => v' = d ∧ h' = [.command ⟨actor, device, req.commandId⟩] ∧
        ∀ u ∈ targets actor req m, u ∈ rest ∨ (m.get u).isSome) ⟨rfl, rfl, fun u => .inl⟩ ?_ ?_
    · rintro u rest v' h' - ⟨rfl, rfl, hin⟩
      simp only [wp_ensure]
      refine if_then_trivial fun hu => ?_
      rw [← bind_pure (notBlocked actor u)]
      refine (asks_notBlocked actor u).wp fun _ => ⟨rfl, rfl, fun w hw => ?_⟩
      rcases hin w hw with hr | hr
      · rcases List.mem_cons.mp hr with rfl | hr
        · exact .inr hu
        · exact .inl hr
      · exact .inr hr
    rintro v' h' ⟨rfl, rfl, hin⟩
    refine wp_lockUsers fun h' hsub hall => wp_nextMessageId fun id hid =>
      asks_now.wp fun t => wp_save fun t' => wp_record fun t'' => ?_
    refine ⟨_, rfl, .invite t' t'' ⟨⟨kind, m, t, hm, ?_, ?_, ?_, rfl⟩, hid, ?_, ?_⟩ ?_ hnew⟩
    · simp [hx]
    · exact fun u hu => (hin u hu).resolve_left (by simp)
    · intro he
      simp [he] at ht
    · simp
    · intro p hp
      simp only [newCall, List.mem_map] at hp
      obtain ⟨u, hu, rfl⟩ := hp
      exact ⟨by simp [(hall u hu).1], (hall u hu).2⟩
    · simp only [List.mem_cons]
      exact .inr (.inr (hsub (by simp)))
  · exact .invite hrow hfp

variable {c : CallId} {s : StoredCall}

lemma Expired.mem_userIds {row : CallRow}
    (hx : Expired sv W d c s v) (hrow : d.calls.get c = some row) {u : UserId}
    (hu : (participantOf u row.document.call.participants).isSome) :
    u ∈ s.call.participants.map (·.userId) := by
  obtain ⟨row', hrow', hst⟩ := hx.steps
  obtain rfl := Option.some.inj (hrow.symm.trans hrow')
  rw [moves_userIds hst.evolves.participants]
  exact stateOf_isSome.mp (by simpa [stateOf] using hu)

variable {actor : UserId} {device : String} {req : CallMutationRequest}

lemma replayJoin_spec {C : Db → List LockKey → CallTx Answer → Prop}
    {row : CommandRow} {crow : CallRow} {muted : Bool}
    (hrow : d.commands.get ⟨actor, device, req.commandId⟩ = some row)
    (hfp : row.fingerprint = sv.fingerprint (.mutate .join) req.encode)
    (hcrow : d.calls.get req.callId = some crow) :
    wp W C (fun _ => True) (fun a _ _ => Returned sv d (.mutate .join actor device req) a)
      (sv.replayJoin actor device crow.document muted row.response >>= fun r =>
        pure (.response r)) v h := by
  simp only [replayJoin, bind_assoc]
  refine asks_now.wp fun t => asks_now.wp fun t' => ?_
  rw [wp_ensure]
  refine if_then_trivial fun hok => asks_notBlocked_forEach.wp fun _ => ?_
  have howns : crow.document.owns actor device = true := by
    rcases hc : crow.document.claims.get actor with _ | c
    · simp [hc] at hok
    · simp only [hc, Option.all_some, Bool.not_eq_true', Bool.or_eq_false_iff, bne_eq_false_iff_eq]
        at hok
      exact owns_iff.mpr ⟨c, hc, hok.1.2.1⟩
  split_ifs with hplain
  · simp only [Bool.not_eq_eq_eq_not, Bool.not_true] at hplain
    rw [bind_assoc]
    refine wp_plainPeer hplain.2 fun peer hpeer => ?_
    rcases hr : row.response with c | j
    · exact .join hrow hfp hcrow howns (.inl hr.symm)
    · exact .join hrow hfp hcrow howns (.inr ⟨j, hr, by rw [hpeer], hplain⟩)
  · exact .join hrow hfp hcrow howns (.inl rfl)

lemma mutate_spec {route : Route} :
    JobSpec sv W d (.mutate route actor device req) (sv.prog (.mutate route actor device req)) := by
  unfold JobSpec
  simp only [prog, mutate, bind_assoc]
  refine asks_enabled.wp fun _ => (wp_command (fun hnew => ?_) fun row hrow hfp => ?_)
  all_goals
    refine wp_load fun crow hcrow => wp_members fun kind m _ _ => ?_
    simp only [wp_orFail, wp_ensure, implies_true, and_true]
    intro x hx
    refine if_then_trivial fun hp => if_then_trivial fun _ => ?_
  · simp only [bind_assoc]
    refine wp_expire hcrow (by simp) fun b s v h' hexp hsub => ?_
    have hlock : LockKey.row req.callId ∈ h' := hsub (by simp)
    have hcmd : LockKey.command ⟨actor, device, req.commandId⟩ ∈ h' := hsub (by simp)
    by_cases hs : s.call.state = .ended
    · simp only [hs, if_true]
      exact ⟨_, rfl, .ended hexp hlock hnew⟩
    · simp only [hs, if_false, bind_assoc]
      refine wp_operate hs (hexp.mem_userIds hcrow hp) fun final notify v' h'' hop hsub' =>
        wp_respond fun r hr => wp_save fun t => wp_record fun t' => ?_
      exact ⟨_, rfl, .mutate t t' hexp (List.mem_cons_of_mem _ (hsub' hlock))
        (List.mem_cons_of_mem _ (hsub' hcmd)) hnew hop hr⟩
  · by_cases hr : route = .join
    · subst hr
      exact replayJoin_spec hrow hfp hcrow
    · simp only [hr, if_false]
      exact .mutate hrow hfp hr

lemma get_spec : JobSpec sv W d (.get actor c) (sv.prog (.get actor c)) := by
  simp only [prog, CallService.get, bind_assoc]
  refine asks_enabled.wp fun _ => (wp_load fun crow hcrow => wp_members fun kind m _ _ => ?_)
  simp only [wp_ensure]
  refine if_then_trivial fun _ => wp_expire hcrow (by simp) fun b s v h' hexp hsub => ?_
  exact ⟨_, rfl, .get hexp (hsub (by simp))⟩

/-! ### Signals -/

variable {g : StoredCall → CallTx β}

lemma wp_authorizePeer (hg : ∀ s v h', Expired sv W d c s v → Authorized actor device s → h ⊆ h' →
      .row c ∈ h' → wp W C (fun _ => True) Q (g s) v h') :
    wp W C (fun _ => True) Q (sv.authorizePeer actor device c >>= g) d h := by
  simp only [authorizePeer, bind_assoc]
  refine asks_enabled.wp fun _ => (wp_load fun crow hcrow => wp_members fun kind m _ _ => ?_)
  simp only [wp_ensure]
  refine if_then_trivial fun _ => wp_expire hcrow (by simp) fun b s v h' hexp hsub => ?_
  rw [wp_ensure]
  refine if_then_trivial fun hrun => asks_now.wp fun t => ?_
  rw [wp_ensure]
  refine if_then_trivial fun hown => asks_notBlocked_forEach.wp fun _ => ?_
  refine hg s v h' hexp ?_ (List.Subset.trans (List.subset_cons_self _ _) hsub) (hsub (by simp))
  simp only [Bool.not_eq_true', Bool.or_eq_false_iff, beq_eq_false_iff_ne,
    bne_eq_false_iff_eq] at hrun
  simp only [Bool.and_eq_true, Option.any_eq_true, List.any_eq_true, beq_iff_eq] at hown
  obtain ⟨⟨c', hc', hdev, -⟩, p, hp, hpa⟩ := hown
  exact ⟨hrun.1.1, hrun.1.2, hrun.2, owns_iff.mpr ⟨c', hc', hdev⟩, p, hp, hpa⟩

lemma wp_peerRate {g : Unit → CallTx β} {op : PeerOperation} {limit : ℕ}
    (hg : ∀ rate, wp W C (fun _ => True) Q (g ()) (v.putPeerRate ⟨c, actor, op⟩ rate) h) :
    wp W C (fun _ => True) Q (peerRate c actor op limit >>= g) v h := by
  simp only [peerRate, bind_assoc]
  refine asks_now.wp fun t => ?_
  simp only [wp_peek, wp_update, wp_ensure]
  exact fun s _ => if_then_trivial fun _ => hg _

lemma asks_checkSignal {req : CallPeerSignalRequest} : Asks (sv.checkSignal device req) :=
  asks_ensure.bind fun _ => asks_ensure.bind fun _ =>
    asks_ite (asks_orFail.bind fun _ => asks_ensure) (.ret ())

variable {req : CallPeerSignalRequest}

lemma wp_negotiate (hg : ∀ s', Negotiates actor req s s' → wp W C (fun _ => True) Q (g s') v h) :
    wp W C (fun _ => True) Q (negotiate actor req s >>= g) v h := by
  unfold negotiate
  split
  all_goals
    rename_i hk
    simp only [bind_assoc, wp_ensure]
    refine if_then_trivial fun hc => hg _ ?_
  · simp only [Bool.and_eq_true, beq_iff_eq] at hc
    exact .offer hk hc.1 hc.2.1
  · simp only [Bool.not_eq_true', Bool.or_eq_false_iff, beq_eq_false_iff_ne,
      bne_eq_false_iff_eq] at hc
    exact .answer hk hc.1.1 hc.1.2 hc.2
  · exact .ice hk (by simpa using hc)

lemma wp_checkSignal {g : Unit → CallTx β}
    (hg : req.revision ≠ 0 → wp W C (fun _ => True) Q (g ()) v h) :
    wp W C (fun _ => True) Q (sv.checkSignal device req >>= g) v h := by
  simp only [checkSignal, bind_assoc, wp_ensure]
  refine if_then_trivial fun hrev => if_then_trivial fun _ => ?_
  simp only [Bool.not_eq_true', Bool.or_eq_false_iff, beq_eq_false_iff_ne] at hrev
  split_ifs
  · exact (asks_orFail.bind fun _ => asks_ensure).wp fun _ => hg hrev.2
  · exact hg hrev.2

lemma wp_appendSignal {C : Db → List LockKey → CallTx Answer → Prop}
    {Q : Answer → Db → List LockKey → Prop} {rate : PeerRateRow} {s' : StoredCall}
    (hrev : req.revision ≠ 0) (hlock : .row req.callId ∈ h)
    (hC : ∀ t expires t', Signal.Files ⟨actor, device, req, s, v, s', rate, t, expires, t'⟩ sv W →
      C (Signal.db ⟨actor, device, req, s, v, s', rate, t, expires, t'⟩ sv)
        (.row s'.call.callId :: h) (.commit (.ret (.events
          ⟨[⟨s'.peerSeq + 1, req.revision, req.kind, req.payload, actor⟩], s'.peerSeq + 1⟩)))) :
    wp W C (fun _ => True) Q (sv.appendSignal actor device (sv.ext.sha256 (.peer req)) req s' >>=
      fun r => pure (.events r)) (v.putPeerRate ⟨req.callId, actor, .signal⟩ rate) h := by
  simp only [appendSignal, peekEvents, bind_assoc]
  refine asks_now.wp fun t => ?_
  simp only [wp_update, wp_peek, wp_ensure, wp_now]
  refine fun s2 hs2 => if_then_trivial fun hroom o ho => ?_
  refine wp_save fun t2 => hC t _ t2 ⟨hrev, ⟨h, o, hlock, ho, rfl⟩, fun ns hnd hns => ?_⟩
  have hlt : (journal req.callId (fun _ => true) s2).length < 512 := by simpa using hroom
  refine (length_le_journal hnd fun n hn => ?_).trans_lt hlt
  -- what is there at the commit was there when the events were counted
  obtain ⟨r, hr⟩ := Option.isSome_iff_exists.mp (hns n hn)
  rw [(hs2 n).eq_of_some hr]
  rfl

lemma peerSignal_spec :
    JobSpec sv W d (.peerSignal actor device req) (sv.prog (.peerSignal actor device req)) := by
  unfold JobSpec
  simp only [prog, peerSignal, bind_assoc]
  refine asks_enabled.wp fun _ => (wp_checkSignal fun hrev => ?_)
  refine wp_authorizePeer fun s v h' hexp hauth hsub hlock => wp_peerRate fun rate => ?_
  have hcmd : LockKey.command ⟨actor, device, req.commandId⟩ ∈ h' := hsub (by simp)
  have hpeer : v.peerCommands = d.peerCommands := (hexp.peer hauth.running).2.1
  simp only [peerCommand, wp_peek, Db.putPeerRate_peerCommands, hpeer, Db.putPeerRate_commands,
    hexp.commands]
  rintro s1 ⟨hs1, hfree⟩
  rcases hex : s1.peerCommands.get ⟨actor, device, req.commandId⟩ with _ | row
  · -- a new command: the journal had no row, and has none now
    have hnone : d.peerCommands.get ⟨actor, device, req.commandId⟩ = none := by
      rcases hs1 with h | h
      · exact h.trans hex
      · exact h
    simp only [bind_assoc, wp_query, wp_ensure, Db.putPeerRate_commands, hexp.commands]
    refine if_then_trivial fun hused => wp_negotiate fun s' hneg => ?_
    refine wp_appendSignal (s := s) hrev hlock fun t expires t' hfiles => ?_
    have hfree : d.commands.get ⟨actor, device, req.commandId⟩ = none := by simpa using hused
    exact ⟨_, rfl, .signal ⟨hexp, List.mem_cons_of_mem _ hlock, List.mem_cons_of_mem _ hcmd,
      ⟨hfree, hnone⟩, hauth, hneg, hfiles⟩⟩
  · rw [hex] at hs1
    simp only [replaySignal, peekEvents, bind_assoc, wp_ensure]
    refine if_then_trivial fun hfp => asks_now.wp fun t => ?_
    rw [wp_ensure]
    refine if_then_trivial fun _ => asks_now.wp fun t' => ?_
    rw [wp_peek]
    rintro s2 hs2
    simp only [wp_orFail, implies_true, and_true]
    intro event hevent
    simp only [Bool.and_eq_true, beq_iff_eq] at hfp
    have hread : s2.peerEvents.get (req.callId, row.seq) = some event :=
      (Option.filter_eq_some_iff.mp hevent).1
    have hsame := hs2 row.seq
    rw [hread, Db.putPeerRate_peerEvents, (hexp.peer hauth.running).1] at hsame
    exact ⟨_, rfl, .replay row event rate hexp hlock hauth hs1 hsame (hfree (by simp [hex]))
      hfp.1 hfp.2⟩

lemma peerEvents_spec {req : CallPeerEventsRequest} :
    JobSpec sv W d (.peerEvents actor device req) (sv.prog (.peerEvents actor device req)) := by
  simp only [prog, CallService.peerEvents, bind_assoc]
  refine wp_authorizePeer fun s v h' hexp hauth _ hlock => wp_peerRate fun rate => ?_
  refine asks_ensure.wp fun _ => asks_now.wp fun t => ?_
  exact fun s1 _ => asks_ensure.wp fun _ => asks_ensure.wp fun _ =>
    ⟨_, rfl, .events rate hexp hlock hauth⟩

/-- **What a request does**, run alone. -/
theorem job_spec {j : Job} (hj : j ≠ .sweep) : JobSpec sv W d j (sv.prog j) := by
  cases j with
  | invite actor device req => exact invite_spec
  | mutate route actor device req => exact mutate_spec
  | get actor c => exact get_spec
  | peerSignal actor device req => exact peerSignal_spec
  | peerEvents actor device req => exact peerEvents_spec
  | sweep => exact absurd rfl hj

/-! ### The sweep, and all jobs -/

/-- The code a job can start a transaction with. -/
inductive Segment (sv : CallService) : Job → CallTx Answer → Prop
  | start (j : Job) : Segment sv j (sv.prog j)
  | ret (j : Job) (a : Answer) : Segment sv j (.ret a)
  | fail (j : Job) (e : RpcError) : Segment sv j (.fail e)
  | commands : Segment sv .sweep do sweepCommands; sweepRates; sv.sweepCalls; return .swept
  | rates : Segment sv .sweep do sweepRates; sv.sweepCalls; return .swept
  | calls : Segment sv .sweep do sv.sweepCalls; return .swept
  | each (ids : List CallId) : Segment sv .sweep do forEach sv.sweepOne ids; return .swept

/-- What a transaction does at its commit: as `Committed` says, and more code of the job. -/
def Ends (sv : CallService) (W : List LockKey → World → Prop) (d : Db) (j : Job) (v : Db)
    (h : List LockKey) (c : CallTx Answer) : Prop :=
  ∃ c', c = .commit c' ∧ Committed sv W d j h v c' ∧ Segment sv j c'

variable {j : Job}

lemma Committed.segment {c : CallTx Answer} (hc : Committed sv W d j h v c)
    (hj : j ≠ .sweep) : Segment sv j c := by
  cases hc
  all_goals first | exact .ret _ _ | exact .fail _ _ | exact absurd rfl hj

variable {t : CallTx Answer}

lemma JobSpec.ends (ht : JobSpec sv W d j t) (hj : j ≠ .sweep) :
    wp W (Ends sv W d j) (fun _ => True) (fun _ _ _ => True) t d [] := by
  refine wp_mono ?_ (fun _ => id) (fun _ _ _ _ => trivial) t d [] ht
  rintro v h c ⟨c', rfl, hc⟩
  exact ⟨c', rfl, hc, hc.segment hj⟩

lemma each_spec {ids : List CallId} : wp W (Ends sv W d .sweep) (fun _ => True) (fun _ _ _ => True)
      (forEach sv.sweepOne ids >>= fun _ => pure .swept) d [] := by
  cases ids with
  | nil => trivial
  | cons id ids =>
    simp only [forEach, sweepOne, bind_assoc]
    refine wp_load fun row hrow => wp_expire hrow (by simp) fun b s v h' hexp hsub =>
      asks_now.wp fun t => ?_
    exact ⟨_, rfl, .sweepOne t hexp (hsub (by simp)), .each ids⟩

/-- **What a transaction of the service can do**, run alone: it commits as `Committed` says. -/
theorem segment_spec (ht : Segment sv j t) :
    wp W (Ends sv W d j) (fun _ => True) (fun _ _ _ => True) t d [] := by
  cases ht with
  | start =>
    by_cases hj : j = .sweep
    · subst hj
      simp only [prog, sweep, sweepPeer, sweepEvents, bind_assoc]
      exact asks_now.wp fun t => ⟨_, rfl, .sweepEvents t, .commands⟩
    · exact (job_spec hj).ends hj
  | ret a => trivial
  | fail e => trivial
  | commands =>
    simp only [sweepCommands, bind_assoc]
    exact asks_now.wp fun t => ⟨_, rfl, .sweepCommands t, .rates⟩
  | rates =>
    simp only [sweepRates, bind_assoc]
    exact asks_now.wp fun t => ⟨_, rfl, .sweepRates _, .calls⟩
  | calls =>
    exact fun s _ => each_spec
  | each ids => exact each_spec

lemma Seg.segment (ht : Seg sv.prog j t) : Segment sv j t := by
  refine Seg.of_closed Segment.start (fun j t d hS => ?_) ht
  refine wp_mono ?_ (fun _ => id) (fun _ _ _ => id) t d [] (segment_spec hS)
  rintro v h c ⟨c', rfl, -, hc⟩ d' c'' hnext
  cases hnext
  exact hc

/-- **Every commit of the service is one that `Committed` lists.** -/
theorem Commits.committed {A : Allow Db LockKey World Job} {d' : Db}
    (hc : Commits sv.prog A j h d d') : ∃ c, Committed sv (fun h o => A j h d o) d j h d' c := by
  refine Commits.of_wp (P := fun d h v => ∃ c, Committed sv (fun h o => A j h d o) d j h v c)
    (fun t ht => ?_) hc
  refine wp_mono ?_ (fun _ => id) (fun _ _ _ => id) t d [] (segment_spec (Seg.segment ht))
  rintro v h c ⟨c', rfl, hc, -⟩ _ _
  exact ⟨c', hc⟩

end PrivChat.Call
