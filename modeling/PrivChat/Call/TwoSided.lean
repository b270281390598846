import PrivChat.Call.Lifecycle

/-!
When an active direct call has both its sides.

A call is answered by whoever joins it and is not its initiator. The initiator may be gone by
then: the lease runs out, or the membership ends, while the call still rings, and the call is
brought up to date without being ended. So a call can become active with one side only. It is
two-sided in the runs in which the initiator is there whenever somebody answers.
-/

namespace PrivChat.Call

open PrivChat.Db CallService

variable {sv : CallService} {W : List LockKey → World → Prop} {d d' : Db} {j : Job}
  {h : List LockKey} {code : CallTx Answer} {s s' : StoredCall}

variable {u : UserId} {p : CallParticipant}

lemma mem_setState {a : CallParticipantState} {ps : List CallParticipant}
    (hn : (ps.map (·.userId)).Nodup) (hp : p ∈ setState u a ps) :
    p ∈ ps ∧ p.userId ≠ u ∨ p.userId = u ∧ p.state = a := by
  induction ps with
  | nil => cases hp
  | cons q qs ih =>
    rw [List.map_cons, List.nodup_cons] at hn
    unfold setState at hp
    split at hp
    · rename_i hq
      rcases List.mem_cons.mp hp with rfl | hp
      · exact .inr ⟨hq, rfl⟩
      · refine .inl ⟨List.mem_cons_of_mem _ hp, fun he => hn.1 ?_⟩
        rw [hq, ← he]
        exact List.mem_map_of_mem hp
    · rcases List.mem_cons.mp hp with rfl | hp
      · exact .inl ⟨List.mem_cons_self, ‹_›⟩
      · exact (ih hn.2 hp).imp_left fun h => ⟨List.mem_cons_of_mem _ h.1, h.2⟩

lemma WellFormed.two (hw : WellFormed s) (hd : s.channelType = 0) {w : UserId}
    (hu : u ∈ s.call.participants.map (·.userId)) (hne : u ≠ w)
    (hm : w ∈ s.call.participants.map (·.userId))
    (hp : p ∈ s.call.participants) : p.userId = u ∨ p.userId = w := by
  have hlen : (s.call.participants.map (·.userId)).length = 2 := by
    rw [List.length_map, hw.direct hd]
  by_contra hno
  have hsub : [p.userId, u, w].Subperm (s.call.participants.map (·.userId)) := by
    refine List.subperm_of_subset (by simp [hno, hne]) fun x hx => ?_
    simp only [List.mem_cons, List.not_mem_nil, or_false] at hx
    rcases hx with rfl | rfl | rfl
    · exact List.mem_map_of_mem hp
    · exact hu
    · exact hm
  have := hsub.length_le
  simp only [List.length_cons, List.length_nil, hlen] at this
  omega

/-! ### One transition -/

/-- Everybody in an active direct call has joined, the initiator perhaps apart. -/
def Sided (apart : Prop) (s : StoredCall) : Prop :=
  s.channelType = 0 → s.call.state = .active → ∀ p ∈ s.call.participants,
    p.state = .joined ∨ apart ∧ p.userId = s.call.initiatorId

variable {apart : Prop}

lemma sided_of_not_active (hs : s.call.state ≠ .active) : Sided apart s :=
  fun _ ha => absurd ha hs

lemma sided_bump (hs : Sided apart s) {b : Bool} : Sided apart (s.bump b) := by
  cases b <;> exact hs

lemma all_joined (hd : s.channelType = 0) (ha : s.call.state = .active)
    (hlen : s.call.participants.length = 2) {t : Millis} (ht : timedOut s t = false) :
    ∀ p ∈ s.call.participants, p.state = .joined := by
  have hcount : ¬ joinedCount s.call.participants < 2 := by
    intro hlt
    simp [timedOut, hd, ha, hlt] at ht
  have hle : joinedCount s.call.participants ≤ s.call.participants.length := List.countP_le_length
  have heq : joinedCount s.call.participants = s.call.participants.length := by omega
  intro p hp
  simpa using (List.countP_eq_length.mp heq) p hp

lemma sided_expire (hw : WellFormed s) {m : Members} {current t : Millis} :
    Sided apart (expireCall m current t s) := by
  refine sided_bump ?_
  split
  · exact sided_of_not_active (by simp [finish])
  · rename_i ht
    intro hd ha p hp
    have hlen : (lapse m current s).call.participants.length = 2 := by
      simpa [lapse] using hw.direct hd
    exact .inl (all_joined hd ha hlen (by simpa using ht) p hp)

lemma sided_partCall {st : CallParticipantState}
    {ends : Option (CallEndReason × Millis)} (he : s.channelType = 0 → ends.isSome) :
    Sided apart (partCall u st ends s) := by
  refine sided_bump ?_
  cases ends with
  | none => exact fun hd => absurd (he hd) (by simp)
  | some e => exact sided_of_not_active (by simp [finish])

lemma answer_active (t : Millis) (hne : u ≠ s.call.initiatorId)
    (hr : s.call.state = .ringing) : (s.answer u t).call.state = .active := by
  simp [StoredCall.answer, hne, hr]

lemma sided_join {device : String} {lease t : Millis}
    (hw : WellFormed s) (hs : Sided apart s) (hu : u ∈ s.call.participants.map (·.userId))
    (ha : s.call.state = .ringing → u ≠ s.call.initiatorId → apart) :
    Sided apart (joinCall u device lease t s) := by
  refine sided_bump ?_
  unfold StoredCall.answer
  split
  · -- the call is answered, and the other one is its initiator
    rename_i hans
    intro hd _ p hp
    rcases mem_setState hw.nodup hp with ⟨hp, hpu⟩ | ⟨-, hp⟩
    · have hpi := (hw.two hd hu hans.1 hw.initiator hp).resolve_left hpu
      exact .inr ⟨ha hans.2 hans.1, hpi⟩
    · exact .inl hp
  · intro hd hact p hp
    rcases mem_setState hw.nodup hp with ⟨hp, -⟩ | ⟨-, hp⟩
    · exact hs hd hact p hp
    · exact .inl hp

/-- What happens to a call leaves it two-sided, unless it is answered: then the initiator may
be missing. -/
lemma Trans.sided (ht : Trans s s') (hw : WellFormed s) (hs : Sided apart s)
    (ha : s.call.state = .ringing → s'.call.state = .active → apart) : Sided apart s' := by
  cases ht with
  | expire m current t => exact sided_expire hw
  | join actor device lease t a _ hst =>
    refine sided_join hw hs (stateOf_isSome.mp (by simp [hst])) fun hr hne => ha hr ?_
    exact answer_active t hne hr
  | heartbeat | signal => exact hs
  | reject actor t =>
    refine sided_partCall fun hd => ?_
    have hends : (s.setParticipant actor .rejected).rejectEnds = true := by
      simp [StoredCall.rejectEnds, StoredCall.setParticipant, hd]
    simp [hends]
  | cancel t => exact sided_bump (sided_of_not_active (by simp [finish]))
  | leave actor ends t =>
    refine sided_partCall fun hd => ?_
    have hends : (s.setParticipant actor .left).leaveEnds ends = true := by
      simp [StoredCall.leaveEnds, StoredCall.setParticipant, hd]
    simp [hends]

lemma Trans.joined_answer (ht : Trans s s') (hr : s.call.state = .ringing)
    (ha : s'.call.state = .active) (hu : stateOf u s.call.participants = some .joined) :
    stateOf u s'.call.participants = some .joined := by
  cases ht with
  | expire m current t =>
    unfold expireCall at ha
    split at ha
    · cases ha
    · exact absurd (hr.symm.trans ha) (by decide)
  | join actor device lease t a =>
    have hps : (joinCall actor device lease t s).call.participants =
        setState actor .joined s.call.participants := by
      unfold joinCall StoredCall.answer
      split <;> rfl
    rw [hps, stateOf_setState]
    split
    · rw [← ‹u = actor›, hu]
      rfl
    · exact hu
  | heartbeat | signal => exact absurd (hr.symm.trans ha) (by decide)
  | cancel t => cases ha
  | reject | leave =>
    split_ifs at ha
    · cases ha
    · exact absurd (hr.symm.trans ha) (by decide)

/-! ### Answering while the initiator is there -/

/-- The initiator has joined, with a lease that has not run out, and is one of the two users of
the channel. -/
def Attended (s : StoredCall) (o : World) : Prop :=
  stateOf s.call.initiatorId s.call.participants = some .joined ∧
    (∃ c, s.claims.get s.call.initiatorId = some c ∧ o.now < c.leaseUntil) ∧
    o.DirectMember s.call.channelId s.call.initiatorId

/-- Whenever somebody else than the initiator is about to join a direct call that rings, and has
its row locked, the initiator is there. -/
def attendedAnswer : Allow Db LockKey World Job
  | .mutate route actor _ req, h, d, o => route = .join → .row req.callId ∈ h →
    ∀ row, d.calls.get req.callId = some row → row.document.channelType = 0 →
      row.document.call.state = .ringing → actor ≠ row.document.call.initiatorId →
      Attended row.document o
  | _, _, _, _ => True

instance (s : StoredCall) (o : World) : Decidable (Attended s o) :=
  have : Decidable (∃ c, s.claims.get s.call.initiatorId = some c ∧ o.now < c.leaseUntil) :=
    decidable_of_iff ((s.claims.get s.call.initiatorId).any fun c => o.now < c.leaseUntil)
      (by simp [Option.any_eq_true])
  inferInstanceAs (Decidable (_ ∧ _ ∧ _))

instance : ∀ j h d o, Decidable (attendedAnswer j h d o)
  | .mutate route actor device req, h, d, o =>
    match hrow : d.calls.get req.callId with
    | none => .isTrue (by simp [attendedAnswer, hrow])
    | some row => decidable_of_iff (route = .join → .row req.callId ∈ h →
        row.document.channelType = 0 → row.document.call.state = .ringing →
        actor ≠ row.document.call.initiatorId → Attended row.document o)
        (by simp [attendedAnswer, hrow])
  | .invite .., _, _, _ | .get .., _, _, _ | .peerSignal .., _, _, _ | .peerEvents .., _, _, _
  | .sweep, _, _, _ => .isTrue trivial

lemma attendedAnswer_stable (j : Job) (h : List LockKey) (o : World) :
    Stable (Others sv) h fun d => attendedAnswer j h d o := by
  intro d d' ho ha
  unfold attendedAnswer at ha ⊢
  split
  · rename_i route actor device req
    intro hj hl row hrow
    rw [ho.calls hl] at hrow
    exact ha hj hl row hrow
  · trivial

lemma expireParticipant_attended {o : World} {m : Members} (hat : Attended s o)
    (hm : (m.get s.call.initiatorId).isSome)
    (hpu : p.userId = s.call.initiatorId) : expireParticipant m s.claims o.now p = p := by
  obtain ⟨-, ⟨c, hc, hlt⟩, -⟩ := hat
  have hne : ¬ expired m s.claims o.now p = true := by
    simp only [expired, hpu, hc, Option.all_some, decide_eq_true_eq, Bool.or_eq_true,
      Option.isNone_iff_eq_none, Bool.and_eq_true, not_or, not_and, not_le]
    exact ⟨Option.isSome_iff_ne_none.mp hm, fun _ => hlt⟩
  simp [expireParticipant, hne]

variable {v : Db} {c : CallId}

lemma Expired.attended {row : CallRow} (hok : CallsOk d)
    (hx : Expired sv W d c s v) (hrow : d.calls.get c = some row)
    (hat : ∀ h o, .row c ∈ h → W h o → Attended row.document o) (hs : s.call.state = .ringing) :
    stateOf s.call.initiatorId s.call.participants = some .joined := by
  cases hx with
  | same hrow' hans =>
    obtain rfl := Option.some.inj (hrow.symm.trans hrow')
    obtain ⟨h, o, hl, ho⟩ := hans (by rw [hs]; decide)
    exact (hat h o hl ho).1
  | expired h o m t t' hrow' hne hl ho hm hlapse =>
    obtain rfl := Option.some.inj (hrow.symm.trans hrow')
    have hao := hat h o hl ho
    have hmem := hm row.document.call.initiatorId fun o' ho' => (hat h o' hl ho').2.2
    obtain ⟨p, hp, hpu, hpj⟩ := stateOf_mem hao.1
    have hw := (Trans.expire row.document m o.now t hne hlapse).wellFormed
      (hok c row hrow).wellFormed
    unfold expireCall at hs hw ⊢
    split at hs
    · cases hs
    · rename_i ht
      rw [if_neg ht] at hw ⊢
      have hp' : p ∈ ((lapse m o.now row.document).bump true).call.participants :=
        List.mem_map.mpr ⟨p, hp, expireParticipant_attended hao hmem hpu⟩
      have := stateOf_of_mem hw.nodup hp'
      rw [hpu, hpj] at this
      exact this

/-! ### Commits and runs -/

/-- Everybody in an active direct call has joined. -/
def TwoSided (d : Db) : Prop :=
  ∀ c row, d.calls.get c = some row → Sided False row.document

lemma Rewrites.twoSided (hr : Rewrites d v c s) (hd : TwoSided d)
    (hs : Sided False s) : TwoSided v := by
  intro c' row hrow
  by_cases hc : c' = c
  · subst hc
    obtain ⟨row', hrow', rfl, -⟩ := hr.here
    obtain rfl := Option.some.inj (hrow.symm.trans hrow')
    exact hs
  · rw [hr.elsewhere c' hc] at hrow
    exact hd c' row hrow

lemma Expired.sided (hok : CallsOk d) (hd : TwoSided d)
    (hx : Expired sv W d c s v) : Sided False s := by
  cases hx with
  | same hrow => exact hd c _ hrow
  | expired h o m t t' hrow => exact sided_expire (hok c _ hrow).wellFormed

lemma Sided.of_initiator (hw : WellFormed s) (hs : Sided True s)
    (hi : stateOf s.call.initiatorId s.call.participants = some .joined) : Sided False s := by
  intro hd ha p hp
  rcases hs hd ha p hp with hj | ⟨-, hpi⟩
  · exact .inl hj
  · have hst := stateOf_of_mem hw.nodup hp
    rw [hpi, hi] at hst
    exact .inl (Option.some.inj hst).symm

lemma Operates.sided {route : Route} {actor : UserId} {device : String}
    {req : CallMutationRequest} {final : StoredCall} {notify : Bool} {v' : Db} (hok : CallsOk d)
    (hd : TwoSided d)
    (hx : Expired sv (fun h o => attendedAnswer (.mutate route actor device req) h d o) d
      req.callId s v) (hop : Operates sv actor device s route final notify v v') :
    Sided False (final.bump notify) := by
  obtain ⟨row, hrow, hst⟩ := hx.steps
  have hw : WellFormed s := hst.wellFormed (hok _ _ hrow).wellFormed
  have hs : Sided False s := hx.sided hok hd
  have hbump : (final.bump notify).call.state = final.call.state := by cases notify <;> rfl
  by_cases hans : s.call.state = .ringing ∧ (final.bump notify).call.state = .active
  · -- the call is answered: the initiator is there, in the row and so in what became of it
    obtain ⟨hr, ha⟩ := hans
    obtain ⟨rfl, hne⟩ := hop.answer hr (hbump ▸ ha)
    intro hdir
    have he := hst.evolves
    have hring : row.document.call.state = .ringing := he.state.eq_ringing hr
    have hkind : row.document.channelType = 0 := by
      rw [← he.channelType, ← hop.trans.evolves.channelType, hdir]
    have hinit := hx.attended hok hrow
      (fun h o hl ho => ho rfl hl row hrow hkind hring (he.initiatorId ▸ hne)) hr
    refine Sided.of_initiator (hop.trans.wellFormed hw)
      (hop.trans.sided hw (fun hd' ha' => ?_) fun _ _ => trivial) ?_ hdir
    · exact absurd (hr.symm.trans ha') (by decide)
    · rw [hop.trans.evolves.initiatorId]
      exact hop.trans.joined_answer hr ha hinit
  · exact hop.trans.sided hw hs fun hr ha => hans ⟨hr, ha⟩

lemma Negotiates.sided {actor : UserId} {req : CallPeerSignalRequest}
    (hn : Negotiates actor req s s') (hs : Sided False s) :
    Sided False { s' with peerSeq := s'.peerSeq + 1 } := by
  cases hn <;> exact hs

lemma Committed.twoSided (hok : CallsOk d) (hd : TwoSided d)
    (hc : Committed sv (fun h o => attendedAnswer j h d o) d j h d' code) : TwoSided d' := by
  cases hc with
  | @invite actor device req _ s t t' hi =>
    obtain ⟨kind, m, t, -, -, -, -, hs⟩ := hi.made
    exact ((rewrites_saveDb (fun _ _ => rfl)).congr rfl).twoSided hd
      (sided_of_not_active (by rw [hs]; simp [newCall]))
  | ended hx | get hx => exact (hx.rewrites hok).1.twoSided hd (hx.sided hok hd)
  | replay _ _ _ hx | events _ hx =>
    exact ((hx.rewrites hok).1.congr rfl).twoSided hd (hx.sided hok hd)
  | sweepOne t hx => exact ((hx.rewrites hok).1.touch).twoSided hd (hx.sided hok hd)
  | sweepEvents | sweepCommands | sweepRates => exact hd
  | mutate t t' hx hl _ _ hop =>
    exact ((hop.rewrites hok hx).congr rfl).twoSided hd (hop.sided hok hd hx)
  | signal hx =>
    exact (hx.rewrites hok).twoSided hd (hx.negotiates.sided (hx.expired.sided hok hd))

/-- **An active direct call is two-sided**, in every committed state of every run in which the
initiator of a ringing direct call is there whenever the other side answers. -/
theorem two_sided (sv : CallService) (evs : List CallEvent)
    (hevs : AllowedRun sv.prog attendedAnswer (Sys.init .empty) evs) (c : CallId) (row : CallRow)
    (hrow : (sv.run evs).db.calls.get c = some row) (hdirect : row.document.channelType = 0)
    (hactive : row.document.call.state = .active) : row.document.call.participants.length = 2 ∧
      ∀ p ∈ row.document.call.participants, p.state = .joined := by
  have hd : TwoSided (sv.run evs).db := by
    refine run_invariant attendedAnswer_stable ?_
      (fun _ _ _ _ _ hok hc hd => hc.twoSided hok.calls hd) evs hevs
    intro c row hrow
    simp [Db.empty] at hrow
  refine ⟨(callsOk_run sv evs c row hrow).wellFormed.direct hdirect, fun p hp => ?_⟩
  exact (hd c row hrow hdirect hactive p hp).resolve_right fun h => h.1

set_option maxRecDepth 4000 in
lemma sampleAnswer_active : ((sampleService.run (sampleInvite ++ sampleAnswer)).db.calls.get 9).map
      (fun row => (row.document.channelType, row.document.call.state)) = some (0, .active) := by
  decide

theorem two_sided_sample : ∃ row,
    (sampleService.run (sampleInvite ++ sampleAnswer)).db.calls.get 9 = some row ∧
      row.document.call.state = .active ∧
      ∀ p ∈ row.document.call.participants, p.state = .joined := by
  obtain ⟨row, hrow, he⟩ := Option.map_eq_some_iff.mp sampleAnswer_active
  simp only [Prod.mk.injEq] at he
  exact ⟨row, hrow, he.2, (two_sided sampleService _ (by decide) 9 row hrow he.1 he.2).2⟩

/-- The other side answers when the lease of the initiator has run out. -/
def lateAnswer : List CallEvent :=
  sampleRun 1 (.mutate .join 2 "b" ⟨true, "c2", 9⟩) 20000

set_option maxRecDepth 4000 in
theorem one_sided_call : ((sampleService.run (sampleInvite ++ lateAnswer)).db.calls.get 9).map
      (fun row => (row.document.channelType, row.document.call.state,
        row.document.call.participants)) = some (0, .active, [⟨1, .left⟩, ⟨2, .joined⟩]) := by
  decide

end PrivChat.Call
