import PrivChat.Call.Serial
import PrivChat.Db.Answers

/-!
Calls over whole runs: nobody is in two calls at once, and a call only moves forward.
-/

namespace PrivChat.Call

open PrivChat.Db Tx

abbrev CallSys := Sys Db LockKey World RpcError Answer Job
abbrev CallEvent := Event World RpcError Job

/-- The system after these events, from no calls. -/
def CallService.run (sv : CallService) (evs : List CallEvent) : CallSys :=
  (Sys.init .empty).run sv.prog evs

variable {sv : CallService} {W : List LockKey → World → Prop} {d d' : Db} {j : Job}
  {h : List LockKey} {code : CallTx Answer}

lemma commits_dbOk (j : Job) (h : List LockKey) (d d' : Db) (hok : DbOk d)
    (hc : Commits sv.prog anyAnswer j h d d') : DbOk d' := by
  obtain ⟨code, hc⟩ := Commits.committed hc
  exact hc.dbOk hok

variable {A : Allow Db LockKey World Job} {L : Db → Prop} {c : CallId} {u : UserId} {i : ℕ}

lemma disciplined
    (hA : ∀ j h o, Stable (Others sv) h fun d => A j h d o) : Disciplined sv.prog callEnv A :=
  ⟨commits_dbOk, hA, disc_prog sv⟩

lemma disciplined_any : Disciplined sv.prog callEnv anyAnswer :=
  disciplined fun _ _ _ _ _ _ _ => trivial

variable {evs : List CallEvent}

lemma good_run : Good sv.prog callEnv anyAnswer (sv.run evs) :=
  (good_init dbOk_empty).run disciplined_any (allowedRun_any _)

lemma callsOk_run (sv : CallService) (evs : List CallEvent) : CallsOk (sv.run evs).db :=
  good_run.inv.calls

variable {evs' : List CallEvent}

lemma run_append : sv.run (evs ++ evs') = (sv.run evs).run sv.prog evs' := by
  simp [CallService.run, Sys.run, List.foldl_append]

lemma run_between {T : Db → Db → Prop} (hrefl : ∀ d, T d d)
    (htrans : ∀ {a b c}, T a b → T b c → T a c)
    (hT : ∀ j h d d' code, DbOk d → Committed sv (fun _ _ => True) d j h d' code → T d d')
    : T (sv.run evs).db (sv.run (evs ++ evs')).db := by
  rw [run_append]
  refine good_run.db_run hrefl htrans disciplined_any ?_ evs' (allowedRun_any _)
  intro j h d d' hok hc
  obtain ⟨code, hc⟩ := Commits.committed hc
  exact hT j h d d' code hok hc

/-- An invariant of the commits that the allowed answers lead to holds in every committed
state of a run with such answers. -/
lemma run_invariant {I : Db → Prop}
    (hA : ∀ j h o, Stable (Others sv) h fun d => A j h d o) (h0 : I .empty)
    (hI : ∀ j h d d' code, DbOk d → Committed sv (fun h o => A j h d o) d j h d' code → I d → I d')
    (evs : List CallEvent) (hevs : AllowedRun sv.prog A (Sys.init .empty) evs) :
    I (sv.run evs).db := by
  have hgood : Good sv.prog callEnv A (Sys.init .empty) := good_init dbOk_empty
  refine hgood.db_run (T := fun d d' => I d → I d') (fun _ => id) (fun h h' hd => h' (h hd))
    (disciplined hA) ?_ evs hevs h0
  intro j h d d' hok hc
  obtain ⟨code, hc⟩ := Commits.committed hc
  exact hI j h d d' code hok hc

lemma run_throughout
    (hL : ∀ j h d d' code, DbOk d → L d → Committed sv (fun _ _ => True) d j h d' code → L d')
    (h0 : L (sv.run evs).db) : Throughout sv.prog L (sv.run evs) evs' := by
  refine good_run.throughout disciplined_any ?_ h0 (allowedRun_any _)
  intro j h d d' hok hd hc
  obtain ⟨code, hc⟩ := Commits.committed hc
  exact hL j h d d' code hok hd hc

lemma run_answers {P : Answer → Db → Prop} (hj : j ≠ .sweep)
    (hC : ∀ h d v code, DbOk d → L d → Committed sv (fun _ _ => True) d j h v code → L v →
      Answered P v code) (hR : ∀ d a, DbOk d → L d → Returned sv d j a → P a d)
    (hS : ∀ j' h d d' code a, DbOk d → L d → L d' →
      Committed sv (fun _ _ => True) d j' h d' code → P a d → P a d')
    (evs evs' : List CallEvent) (hL : Throughout sv.prog L (sv.run evs) evs') {a : Answer}
    (hi : (sv.run evs).procs i = .free)
    (ha : (sv.run (evs ++ evs')).procs i = .finished j (.ok a)) :
    P a (sv.run (evs ++ evs')).db := by
  have hok : Throughout sv.prog DbOk (sv.run evs) evs' :=
    run_throughout (fun _ _ _ _ _ hok _ hc => hc.dbOk hok) good_run.inv
  rw [run_append] at ha ⊢
  have hs : Serves sv.prog anyAnswer (fun d => DbOk d ∧ L d) P j := by
    intro d hd
    refine wp_mono ?_ (fun _ => id) (fun a _ _ h => hR d a hd.1 hd.2 h) _ d [] (job_spec hj)
    rintro v h c ⟨c', rfl, hc⟩
    exact ⟨c', rfl, fun hv => hC h d v c' hd.1 hd.2 hc hv.2⟩
  refine (Tells.run disciplined_any (hs.keeps fun j' h d d' a hd hL hL' hc ha => ?_) good_run
    (follows_free hi) evs' (allowedRun_any _) watched_once (hok.and hL)).finished _ ha a rfl
  obtain ⟨code, hc⟩ := Commits.committed hc
  exact hS j' h d d' code a hd hL.2 hL'.2 hc ha

def Db.snapshot (d : Db) (c : CallId) : Option CallSnapshot :=
  (d.calls.get c).map (·.document.call)

/-- The user is invited to call `c` or joined in it, and the call has not ended. -/
def InCall (d : Db) (u : UserId) (c : CallId) : Prop :=
  ∃ call, d.snapshot c = some call ∧ call.state ≠ .ended ∧
    ∃ p ∈ call.participants, p.userId = u ∧ (p.state = .invited ∨ p.state = .joined)

lemma live_iff (a : CallParticipantState) : a.live = true ↔ a = .invited ∨ a = .joined := by
  cases a <;> simp [CallParticipantState.live]

lemma inCall_iff (hok : CallsOk d) : InCall d u c ↔ LiveIn d u c := by
  unfold InCall LiveIn Db.snapshot
  constructor
  · rintro ⟨call, hcall, hs, hp⟩
    obtain ⟨row, hrow, rfl⟩ := Option.map_eq_some_iff.mp hcall
    exact ⟨row, hrow, (hok c row hrow).state ▸ hs, by simpa only [live_iff] using hp⟩
  · rintro ⟨row, hrow, hs, hp⟩
    exact ⟨_, by rw [hrow]; rfl, (hok c row hrow).state ▸ hs, by simpa only [live_iff] using hp⟩

/-- Nobody is in two calls. -/
def Exclusive (d : Db) : Prop := ∀ u c c', LiveIn d u c → LiveIn d u c' → c = c'

lemma Committed.new_unique (hok : CallsOk d) (hc : Committed sv W d j h d' code)
    {c' : CallId} (hn : d.calls.get c = none) (hn' : d.calls.get c' = none)
    (hl : LiveIn d' u c) (hl' : LiveIn d' u c') : c = c' := by
  obtain ⟨c0, h0⟩ := hc.one_row hok
  have hnew : ∀ c, d.calls.get c = none → LiveIn d' u c → c = c0 := by
    rintro c hn ⟨row, hrow, -⟩
    by_contra hne
    rw [h0 c hne, hn] at hrow
    cases hrow
  rw [hnew c hn hl, hnew c' hn' hl']

lemma Committed.exclusive (hok : CallsOk d) (hc : Committed sv W d j h d' code)
    (hx : Exclusive d) : Exclusive d' := by
  intro u c c' hl hl'
  rcases hc.liveIn hok hl with hd | ⟨-, hnone, hfree⟩
  · rcases hc.liveIn hok hl' with hd' | ⟨-, -, hfree⟩
    · exact hx u c c' hd hd'
    · exact absurd hd (hfree c)
  · rcases hc.liveIn hok hl' with hd' | ⟨-, hnone', -⟩
    · exact absurd hd' (hfree c')
    · -- both calls are new, and a commit makes one
      exact hc.new_unique hok hnone hnone' hl hl'

/-- **Busy exclusion.** In every committed state of every run, nobody is invited or joined in
two calls that have not ended. -/
theorem busy_exclusion (sv : CallService) (evs : List CallEvent) (u : UserId) (c c' : CallId)
    (hc : InCall (sv.run evs).db u c) (hc' : InCall (sv.run evs).db u c') : c = c' := by
  have hok := callsOk_run sv evs
  have hx : Exclusive (sv.run evs).db := by
    refine run_invariant (fun _ _ _ _ _ _ _ => trivial) ?_
      (fun _ _ _ _ _ hok hc => hc.exclusive hok.calls) evs (allowedRun_any _)
    rintro u c c' ⟨row, hrow, -⟩
    simp [Db.empty] at hrow
  exact hx u c c' ((inCall_iff hok).mp hc) ((inCall_iff hok).mp hc')

/-! ### A service to try things on

Peer calls over a direct channel `5` of users `1` and `2`, with a ringing timeout longer than the
lease. -/

def sampleService : CallService where
  ext :=
    { parseUrl := fun _ => .error "relative URL without a base"
      sha256 := fun
        | .command _ (.invite _ id _ _ _) => "invite " ++ id
        | .command _ (.mutation _ id _) => "mutation " ++ id
        | .peer req => "peer " ++ req.commandId
        | .identity _ _ device => device
      hmac := fun _ _ => none
      jwt := fun _ _ => none
      parseCandidate := fun text => some ⟨text, none, 0⟩ }
  config :=
    { enabled := true
      peer := { enabled := true }
      ringingTimeoutSeconds := 300
      heartbeatLeaseSeconds := 10 }
  credentials := none
  turnSecret := none
  valid := rfl

def sampleWorld (t : Millis) : World where
  now := t
  channels c := if c = 5 then some ⟨0, some 1, some 2, none⟩ else none
  groupMembers _ := []
  blacklist _ _ := false
  nextId := 9

/-- Process `i` runs the job to its end, at one time. -/
def sampleRun (i : ℕ) (j : Job) (t : Millis) : List CallEvent :=
  .start i j :: List.replicate 40 (.step i (sampleWorld t))

/-- User `1` calls user `2`. -/
def sampleInvite : List CallEvent :=
  sampleRun 0 (.invite 1 "a" ⟨true, "c1", 5, .audio, []⟩) 0

lemma sampleInvite_snapshot : ((sampleService.run sampleInvite).db.snapshot 9).map
    (fun c => (c.state, c.participants)) = some (.ringing, [⟨1, .joined⟩, ⟨2, .invited⟩]) := by
  decide

lemma sampleInvite_inCall : InCall (sampleService.run sampleInvite).db 2 9 := by
  obtain ⟨call, hcall, he⟩ := Option.map_eq_some_iff.mp sampleInvite_snapshot
  simp only [Prod.mk.injEq] at he
  exact ⟨call, hcall, by simp [he.1], ⟨2, .invited⟩, by simp [he.2], rfl, .inl rfl⟩

theorem busy_exclusion_sample : InCall (sampleService.run sampleInvite).db 2 9 ∧ (9 : CallId) = 9 :=
  ⟨sampleInvite_inCall, busy_exclusion sampleService sampleInvite 2 9 9 sampleInvite_inCall
    sampleInvite_inCall⟩

/-! ### The lifecycle -/

lemma CallStep.evolves {row : CallRow} {o : Option CallRow} (hs : CallStep sv d h c (some row) o) :
    ∃ row', o = some row' ∧ Evolves row.document row'.document := by
  cases hs with
  | same => exact ⟨row, rfl, .refl⟩
  | steps _ hst => exact ⟨_, rfl, hst.evolves⟩

/-- A call stays, and evolves. -/
def CallsEvolve (d d' : Db) : Prop :=
  ∀ c row, d.calls.get c = some row →
    ∃ row', d'.calls.get c = some row' ∧ Evolves row.document row'.document

lemma Committed.callsEvolve (hok : CallsOk d) (hc : Committed sv W d j h d' code) :
    CallsEvolve d d' := by
  intro c row hrow
  have hs := hc.callStep hok c
  rw [hrow] at hs
  exact hs.evolves

lemma calls_evolve : CallsEvolve (sv.run evs).db (sv.run (evs ++ evs')).db := by
  refine run_between (fun d c row hrow => ⟨row, hrow, .refl⟩) ?_ ?_
  · intro a b c hab hbc id row hrow
    obtain ⟨row', hrow', he⟩ := hab id row hrow
    obtain ⟨row'', hrow'', he'⟩ := hbc id row' hrow'
    exact ⟨row'', hrow'', he.trans he'⟩
  · exact fun _ _ _ _ _ hok hc => hc.callsEvolve hok.calls

/-- **Lifecycle.** In every run, a committed call is marked as ended exactly when it has ended,
nobody is joined in it then, and it is marked as answered if it is active. At any later point of
the run the call is still there, with the same participants, transport, channel and initiator;
each participant's state and the call's state have only moved forward; and if the snapshot has
changed in any way, its version has grown. -/
theorem lifecycle (sv : CallService) (evs evs' : List CallEvent) (c : CallId)
    (call : CallSnapshot) (hcall : (sv.run evs).db.snapshot c = some call) :
    (call.state = .ended ↔ call.endedAtMs.isSome ∧ call.endReason.isSome) ∧
    (call.state = .ended → ∀ p ∈ call.participants, p.state ≠ .joined) ∧
    (call.state = .active → call.answeredAtMs.isSome) ∧
    ∃ call', (sv.run (evs ++ evs')).db.snapshot c = some call' ∧
      call'.participants.map (·.userId) = call.participants.map (·.userId) ∧
      call'.transport = call.transport ∧ call'.channelId = call.channelId ∧
      call'.initiatorId = call.initiatorId ∧
      List.Forall₂ CallParticipant.Moves call.participants call'.participants ∧
      call.state.Moves call'.state ∧ (call' ≠ call → call.version < call'.version) := by
  obtain ⟨row, hrow, rfl⟩ := Option.map_eq_some_iff.mp hcall
  have hw := (callsOk_run sv evs c row hrow).wellFormed
  refine ⟨⟨hw.ended, fun hmarks => ?_⟩, hw.silent, hw.answered, ?_⟩
  · by_contra hs
    simp [(hw.unended hs).1] at hmarks
  · obtain ⟨row', hrow', he⟩ := calls_evolve c row hrow
    refine ⟨row'.document.call, by rw [Db.snapshot, hrow']; rfl, moves_userIds he.participants,
      he.transport, he.channelId, he.initiatorId, he.participants, he.state, fun hne => ?_⟩
    exact he.version.resolve_left hne

/-- User `2` answers, before the lease of user `1` runs out. -/
def sampleAnswer : List CallEvent :=
  sampleRun 1 (.mutate .join 2 "b" ⟨true, "c2", 9⟩) 5000

theorem lifecycle_sample : ∃ call call',
    (sampleService.run sampleInvite).db.snapshot 9 = some call ∧
    (sampleService.run (sampleInvite ++ sampleAnswer)).db.snapshot 9 = some call' ∧
    call.state.Moves call'.state := by
  obtain ⟨call, hcall, -⟩ := Option.map_eq_some_iff.mp sampleInvite_snapshot
  obtain ⟨-, -, -, call', hcall', -, -, -, -, -, hs, -⟩ :=
    lifecycle sampleService sampleInvite sampleAnswer 9 call hcall
  exact ⟨call, call', hcall, hcall', hs⟩

end PrivChat.Call
