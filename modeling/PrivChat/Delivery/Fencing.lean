import PrivChat.Delivery.Spec

/-!
Leases and the fence around them: a worker that comes late with its completion changes nothing.
And the status of an event, which is drawn from the rows of its recipients by two statements while
other workers change these rows.

A row is claimed while it has attempts left, and a worker that fails on the last attempt marks it
as dead. A worker that does not come back from the last attempt leaves a row that is pending, that
is not claimed again, and that no other statement moves.
-/

namespace PrivChat.Delivery

open Tasks Db
open Channels (UserId Millis)

structure Fencing (s later : Shared) : Prop where
  final : ∀ key r r', s.store.recipients.get key = some r → r.state ≠ .pending →
    later.store.recipients.get key = some r' → r'.state = r.state
  fenced : ∀ us view o key r, s.store.recipients.get key = some r →
    ∃ r', (Shared.exec (.complete us view) o s).2.store.recipients.get key = some r' ∧
      (r' = r ∨ ∃ u ∈ us, (u.eventId, u.userId) = key ∧ u.leaseToken = r.leaseToken ∧
        r' = r.complete u)
  increases : ∀ key r r', s.store.recipients.get key = some r →
    later.store.recipients.get key = some r' → r.attempts ≤ r'.attempts
  bounded : ∀ key r, s.store.recipients.get key = some r → r.attempts ≤ maxAttempts

lemma complete_fenced {us : List CompletionRow} {view : Store} {o : Moment} {s : Shared} {key : Key}
    {r : RecipientRow} (hr : s.store.recipients.get key = some r) :
    ∃ r', (Shared.exec (.complete us view) o s).2.store.recipients.get key = some r' ∧
      (r' = r ∨ ∃ u ∈ us, (u.eventId, u.userId) = key ∧ u.leaseToken = r.leaseToken ∧
        r' = r.complete u) := by
  have hsome : ∃ r', (Shared.exec (.complete us view) o s).2.store.recipients.get key = some r' :=
    by
    change ∃ r', (if o.outcome.applied then s.store.complete view us
      else s.store).recipients.get key = some r'
    split
    · exact ⟨_, congrArg (Option.map _) hr⟩
    · exact ⟨r, hr⟩
  obtain ⟨r', hr'⟩ := hsome
  refine ⟨r', hr', ?_⟩
  obtain ⟨r1, hr1, hstep⟩ := row_exec hr'
  cases hr.symm.trans hr1
  cases hstep with
  | same => exact .inl rfl
  | complete hmem hkey _ htok => exact .inr ⟨_, hmem, hkey, htok.symm, rfl⟩

/-- **Leased delivery is fenced**, in every run of any number of workers, of which each may stop
anywhere or come late. -/
theorem leased_delivery_fencing (clock : Millis) (evs evs' : List DeliveryEvent) :
    Fencing (machine.run (.init (Shared.empty clock)) evs).shared
      (machine.run (.init (Shared.empty clock)) (evs ++ evs')).shared := by
  have hI := inv_run clock evs
  have hmoves := moves_run clock evs evs'
  constructor
  case final =>
    intro key r r' hr hs hr'
    exact (hmoves.row_of hI hr hr').state hs
  case fenced => exact fun us view o key r hr => complete_fenced hr
  case increases =>
    intro key r r' hr hr'
    exact (hmoves.row_of hI hr hr').attempts
  case bounded => exact hI.attempts

/-- What holds of the events in a state, after one more step, and later. -/
structure Aggregated (s next later : Shared) : Prop where
  closed : ∀ e o, s.store.outbox.get e = some o → o.status ≠ .pending →
    ∀ u r, s.store.recipients.get (e, u) = some r → r.state ≠ .pending
  dead : ∀ e o, s.store.outbox.get e = some o → o.status ≠ .pending →
    (o.status = .dead ↔ ∃ u r, s.store.recipients.get (e, u) = some r ∧ r.state = .dead)
  final : ∀ e o o', s.store.outbox.get e = some o → o.status ≠ .pending →
    later.store.outbox.get e = some o' → o'.status = o.status
  removed : ∀ e o, s.store.outbox.get e = some o → next.store.outbox.get e = none →
    o.status ≠ .pending ∧ ∀ u r, s.store.recipients.get (e, u) = some r → r.state ≠ .pending

lemma closed_of_removed {s : DeliveryState} {ev : DeliveryEvent} {e : EventId} {o : OutboxRow}
    (ho : s.shared.store.outbox.get e = some o)
    (h : (machine.step s ev).shared.store.outbox.get e = none) : o.status ≠ .pending := by
  have hstays : s.shared.store.outbox.get e ≠ none := by simp [ho]
  have hstep := machine.stepped s ev
  generalize machine.step s ev = s' at hstep h
  cases hstep with
  | same | start | ret | fail => exact absurd h hstays
  | call => exact event_exec ho h
  | env x =>
    -- a new event leaves the others where they are
    obtain ⟨users⟩ := x
    by_cases he : e = s.shared.store.nextEvent
    · have h : (s.shared.store.insert users s.shared.clock).outbox.get e = none := h
      rw [he, Store.insert, Table.get_put_self] at h
      cases h
    · have h : (s.shared.store.insert users s.shared.clock).outbox.get e = none := h
      rw [Store.insert, Table.get_put_of_ne _ he] at h
      exact absurd h hstays

/-- **An event is closed once its recipients are done**, for good, and only then it is
deleted. -/
theorem outbox_parents_aggregated (clock : Millis) (evs : List DeliveryEvent) (ev : DeliveryEvent)
    (evs' : List DeliveryEvent) : let s := machine.run (.init (Shared.empty clock)) evs
    Aggregated s.shared (machine.step s ev).shared
      (machine.run (.init (Shared.empty clock)) (evs ++ evs')).shared := by
  intro s
  have hI := inv_run clock evs
  have hmoves := moves_run clock evs evs'
  constructor
  case closed => exact hI.closed
  case dead => exact hI.dead
  case final =>
    intro e o o' ho hs ho'
    obtain ⟨o1, ho1, hstatus, -⟩ := hmoves.event e (hI.event_known e o ho) o' ho'
    cases ho.symm.trans ho1
    exact hstatus hs
  case removed =>
    intro e o ho hnone
    have hs := closed_of_removed ho hnone
    exact ⟨hs, hI.closed e o ho hs⟩

/-- The row may be claimed at some later time, or a statement that closes events moves it to a
final state. -/
def HasWayOut (s : Shared) (key : Key) : Prop :=
  (∃ t, s.clock ≤ t ∧ s.store.eligible t key = true) ∨
    ∃ q view o r, (Shared.exec (.close q view) o s).2.store.recipients.get key = some r ∧
      r.state ≠ .pending

/-- No pending row without a lease that lasts is stuck. -/
def NoneStranded (s : Shared) : Prop :=
  ∀ key r, s.store.recipients.get key = some r → r.state = .pending →
    (∀ u, r.leaseUntil = some u → u < s.clock) → HasWayOut s key

/-- No lease on a last attempt has run out when the operation comes, a last attempt begins with a
lease that lasts, and the token of a claim is new. -/
def InTime (_ : ℕ) (_ : Job) (op : Op) (o : Moment) (s : Shared) : Prop :=
  (s.store.recipients.any fun _ r => decide (r.state = .pending) &&
    decide (r.attempts = maxAttempts) &&
    r.leaseUntil.any fun u => decide (u < s.clock + o.elapsed)) = false ∧
  match op with
  | .claim q _ => o.token ∉ s.tokens ∧ s.clock + o.elapsed ≤ q.deadline
  | .now | .jitter | .snapshot | .deliver _ | .complete _ _ | .close _ _ | .remove _ _ _ => True

instance InTime.decidable (i : ℕ) (j : Job) (op : Op) (o : Moment) (s : Shared) :
    Decidable (InTime i j op o s) :=
  match op with
  | .claim q _ => inferInstanceAs (Decidable (_ = false ∧ o.token ∉ s.tokens ∧
      s.clock + o.elapsed ≤ q.deadline))
  | .now | .jitter | .snapshot | .deliver _ | .complete _ _ | .close _ _ | .remove _ _ _ =>
    inferInstanceAs (Decidable (_ = false ∧ True))

lemma InTime.lease {i : ℕ} {j : Job} {op : Op} {o : Moment} {s : Shared} (h : InTime i j op o s)
    {key : Key} {r : RecipientRow} (hr : s.store.recipients.get key = some r)
    (hp : r.state = .pending) (hm : r.attempts = maxAttempts) {u : Millis}
    (hu : r.leaseUntil = some u) : s.clock + o.elapsed ≤ u := by
  have hrow := Table.any_eq_false.mp h.1 key r hr
  simp only [hp, hm, hu, decide_true, Bool.true_and, Option.any_some, decide_eq_false_iff_not]
    at hrow
  exact not_lt.mp hrow

/-- A last attempt has a lease that lasts. -/
def Lasting (r : RecipientRow) (clock : Millis) : Prop :=
  r.state = .pending → r.attempts = maxAttempts → ∃ u, r.leaseUntil = some u ∧ clock ≤ u

/-- A row keeps token and number of attempts together, or gets a token that is new. -/
structure TokenMoves (s s' : Shared) : Prop where
  tokens : ∀ t ∈ s.tokens, t ∈ s'.tokens
  row : ∀ key : Key, key.1 < s.store.nextEvent → ∀ r r', s.store.recipients.get key = some r →
    s'.store.recipients.get key = some r' →
    r'.leaseToken = r.leaseToken ∧ r'.attempts = r.attempts ∨ r'.leaseToken ∉ s.tokens

lemma TokenMoves.refl (s : Shared) : TokenMoves s s where
  tokens _ h := h
  row _ _ r r' hr hr' := by
    cases hr.symm.trans hr'
    exact .inl ⟨rfl, rfl⟩

lemma TokenMoves.trans {s s' s'' : Shared} (hm : Moves s.store s'.store)
    (hm' : Moves s'.store s''.store) (h : TokenMoves s s') (h' : TokenMoves s' s'') :
    TokenMoves s s'' where
  tokens t ht := h'.tokens t (h.tokens t ht)
  row key hk r r'' hr hr'' := by
    have hk' := Nat.lt_of_lt_of_le hk hm.events
    obtain ⟨r', hr', -⟩ := hm'.row key hk' r'' hr''
    rcases h'.row key hk' r' r'' hr' hr'' with ⟨ht', ha'⟩ | hnew
    · rw [ht', ha']
      exact h.row key hk r r' hr hr'
    · exact .inr fun hold => hnew (h.tokens _ hold)

/-- A worker that schedules another attempt does not do so after the last one. -/
def owesRetry : Op → Shared → Prop
  | .complete us _, s => ∀ u ∈ us, u.state = .pending → ∀ r,
      s.store.recipients.get (u.eventId, u.userId) = some r → r.leaseToken = u.leaseToken →
      r.attempts < maxAttempts
  | .close q view, s => owes (.close q view) s
  | .now, _ | .jitter, _ | .snapshot, _ | .claim _ _, _ | .deliver _, _ | .remove _ _ _, _ => True

def retryTerms : Terms Shared Op Moment Job where
  inv s := Inv s.store ∧ ∀ key r, s.store.recipients.get key = some r → Lasting r s.clock
  moves s s' := Moves s.store s'.store ∧ TokenMoves s s'
  owes := owesRetry
  given := InTime
  refl s := ⟨.refl, .refl s⟩
  trans h h' := ⟨h.1.trans h'.1, h.2.trans h.1 h'.1 h'.2⟩

/-- The claim has the number of attempts of its row, as long as the row has its token. -/
structure Holds (c : ClaimedDispatchRecipient) (s : Shared) : Prop where
  known : c.eventId < s.store.nextEvent
  token : c.leaseToken ∈ s.tokens
  attempts : ∀ r, s.store.recipients.get c.key = some r → r.leaseToken = c.leaseToken →
    r.attempts = c.attempts

lemma Holds.later {c : ClaimedDispatchRecipient} {s s' : Shared} (h : Holds c s)
    (hm : Moves s.store s'.store) (ht : TokenMoves s s') : Holds c s' where
  known := Nat.lt_of_lt_of_le h.known hm.events
  token := ht.tokens _ h.token
  attempts r' hr' htok := by
    obtain ⟨r, hr, -⟩ := hm.row c.key h.known r' hr'
    rcases ht.row c.key h.known r r' hr hr' with ⟨ht', ha⟩ | hnew
    · exact ha.trans (h.attempts r hr (ht'.symm.trans htok))
    · exact absurd (htok ▸ h.token) hnew

/-! ### Operations -/

section

variable {i : ℕ} {j : Job} {op : Op} {o : Moment} {s : Shared}

lemma clock_exec : (Shared.exec op o s).2.clock = s.clock + o.elapsed := by
  cases op <;> rfl

lemma mem_tokens_exec {t : ℕ} (h : t ∈ s.tokens) : t ∈ (Shared.exec op o s).2.tokens := by
  cases op with
  | claim q view => exact List.mem_cons_of_mem _ h
  | now | jitter | snapshot | deliver _ | complete _ _ | close _ _ | remove _ _ _ => exact h

lemma owes_of_owesRetry (h : owesRetry op s) : owes op s := by
  cases op with
  | close q view => exact h
  | now | jitter | snapshot | claim _ _ | deliver _ | complete _ _ | remove _ _ _ => trivial

lemma lasting_exec (hlast : ∀ key r, s.store.recipients.get key = some r → Lasting r s.clock)
    (ho : owesRetry op s) (hg : InTime i j op o s) {key : Key} {r' : RecipientRow}
    (hr' : (Shared.exec op o s).2.store.recipients.get key = some r') :
    Lasting r' (Shared.exec op o s).2.clock := by
  rw [clock_exec]
  obtain ⟨r, hr, hstep⟩ := row_exec hr'
  intro hp hm
  cases hstep with
  | same =>
    obtain ⟨u, hu, -⟩ := hlast key r' hr hp hm
    exact ⟨u, hu, hg.lease hr hp hm hu⟩
  | @lease q view => exact ⟨q.deadline, rfl, hg.2.2⟩
  | @complete us view u hmem hkey hpend htok =>
    -- a completion that leaves the row pending leaves attempts
    have hlt := ho u hmem hp r (hkey ▸ hr) htok
    exact absurd hm (Nat.ne_of_lt hlt)

lemma tokenMoves_exec (hg : InTime i j op o s) : TokenMoves s (Shared.exec op o s).2 where
  tokens _ h := mem_tokens_exec h
  row key _ r1 r' hr1 hr' := by
    obtain ⟨r, hr, hstep⟩ := row_exec hr'
    cases hr1.symm.trans hr
    cases hstep with
    | same => exact .inl ⟨rfl, rfl⟩
    | lease => exact .inr hg.2.1
    | complete => exact .inl ⟨rfl, rfl⟩

lemma holds_claim {q : ClaimQuery} {view : Store} {claims : List ClaimedDispatchRecipient}
    (hI : Inv s.store) (h : (Shared.exec (.claim q view) o s).1 = (.ok claims : Except String _)) :
    ∀ c ∈ claims, Holds c (Shared.exec (.claim q view) o s).2 := by
  obtain ⟨elapsed, outcome, lockedKeys, lockedEvents, token, delay, attempt⟩ := o
  cases outcome with
  | failed text applied => cases h
  | ok =>
    have hclaims : s.store.leased token (s.store.claimed view q lockedKeys) = claims :=
      Except.ok.inj h
    subst hclaims
    intro c hc
    obtain ⟨key, hk, hc⟩ := List.mem_filterMap.mp hc
    obtain ⟨r, hr, rfl⟩ := Option.map_eq_some_iff.mp hc
    refine ⟨hI.row_known hr, List.mem_cons_self, fun r' hr' _ => ?_⟩
    have hr' : (s.store.lease q token (s.store.claimed view q lockedKeys)).recipients.get key =
        some r' := hr'
    rw [Store.lease, Table.get_updateWhere, hr, Option.map_some, if_pos (decide_eq_true hk)] at hr'
    cases hr'
    rfl

end

lemma attempts_of_plan {c : DispatchCompletion} {now : Millis} {jitter : ℕ}
    (h : (c.plan now jitter).1.state = .pending) : c.claim.attempts < maxAttempts := by
  simp only [DispatchCompletion.plan, completionValues] at h
  cases hs : c.terminalState with
  | some state => cases state <;> simp [hs] at h
  | none =>
    by_contra hlt
    simp [hs, Nat.le_of_not_lt hlt] at h

lemma owesRetry_plans {completions : List DispatchCompletion} (now : Millis) {jitter : ℕ → ℕ}
    (view : Store) {s : Shared} (h : ∀ c ∈ completions, Holds c.claim s) :
    owesRetry (.complete ((plans completions now jitter).map Prod.fst) view) s := by
  intro u hu hp r hr htok
  obtain ⟨_, hplan, rfl⟩ := List.mem_map.mp hu
  obtain ⟨⟨c, n⟩, hc, rfl⟩ := List.mem_map.mp hplan
  have hmem : c ∈ completions := (List.mem_zipIdx hc).2.2 ▸ List.getElem_mem _
  rw [(h c hmem).attempts r hr htok]
  exact attempts_of_plan hp

lemma retryBound : Bound retryTerms Holds where
  upholds := {
    call := fun i j op o s hI ho hg => by
      have hg : InTime i j op o s := hg
      obtain ⟨hinv, hmoves⟩ := store_exec hI.1 (owes_of_owesRetry ho)
      exact ⟨⟨hinv, fun key r hr => lasting_exec hI.2 ho hg hr⟩, hmoves, tokenMoves_exec hg⟩
    env := fun x s hI => by
      obtain ⟨users⟩ := x
      obtain ⟨hinv, hmoves⟩ := hI.1.insert
      refine ⟨⟨hinv, ?_⟩, hmoves, ⟨fun _ h => h, ?_⟩⟩
      · rintro ⟨e, u⟩ r hr
        by_cases he : e = s.store.nextEvent
        · subst he
          rcases get_insert_new hr with rfl | hr
          · exact fun _ hm => nomatch hm
          · exact absurd (hI.1.row_known hr) (Nat.lt_irrefl _)
        · exact hI.2 (e, u) r ((get_insert_of_ne he).symm.trans hr)
      · intro key hk r r' hr hr'
        have hr' : (s.store.insert users s.clock).recipients.get key = some r' := hr'
        rw [get_insert_of_ne (Nat.ne_of_lt hk)] at hr'
        cases hr.symm.trans hr'
        exact .inl ⟨rfl, rfl⟩ }
  inv _ h := h.1
  moves _ _ h := h.1
  owes op s hop h := by
    cases op with
    | complete us view => exact absurd rfl (hop us view)
    | close q view => exact h
    | now | jitter | snapshot | claim _ _ | deliver _ | remove _ _ _ => trivial
  stable _ _ _ hs h := h.later hs.1 hs.2
  claims _ _ _ _ _ _ _ hI _ h := holds_claim hI.1 h
  completes _ now jitter view _ _ h := owesRetry_plans now view h

/-- **No recipient is stranded**, in every run in which the lease of a last attempt does not run
out. -/
theorem none_stranded (clock : Millis) (evs : List DeliveryEvent)
    (hg : GivenRun machine InTime (.init (Shared.empty clock)) evs) :
    NoneStranded (machine.run (.init (Shared.empty clock)) evs).shared := by
  have hinit : retryTerms.inv (Shared.empty clock) := ⟨inv_empty clock, fun _ _ h => nomatch h⟩
  obtain ⟨hI, hlast⟩ := ((healthy_init hinit).run retryBound.upholds retryBound.serves evs hg).inv
  intro key r hr hp hfree
  generalize (machine.run (.init (Shared.empty clock)) evs).shared = s at *
  -- the event is open, as a closed one has no pending recipient
  obtain ⟨o, ho⟩ := hI.row_event key r hr
  have hopen : o.status = .pending := by
    by_contra hs
    exact hI.closed key.1 o ho hs key.2 r hr hp
  -- there are attempts left, as a last attempt has a lease
  have hlt : r.attempts < maxAttempts := by
    refine Nat.lt_of_le_of_ne (hI.attempts key r hr) fun hm => ?_
    obtain ⟨u, hu, hle⟩ := hlast key r hr hp hm
    exact absurd (hfree u hu) (not_lt.mpr hle)
  refine .inl ⟨max s.clock r.nextAttemptAt, le_max_left _ _, ?_⟩
  have hlease : r.leaseUntil.all (fun u => decide (u < max s.clock r.nextAttemptAt)) = true := by
    cases hu : r.leaseUntil with
    | none => rfl
    | some u => exact decide_eq_true (lt_of_lt_of_le (hfree u hu) (le_max_left _ _))
  have hclaim : r.claimable (max s.clock r.nextAttemptAt) = true := by
    simp only [RecipientRow.claimable, Bool.and_eq_true, decide_eq_true_eq]
    exact ⟨⟨⟨hp, hlt⟩, le_max_right _ _⟩, hlease⟩
  simp [Store.eligible, Store.isOpen, hr, ho, hopen, hclaim]

/-- An operation that goes well after some time. Nothing is locked, and deliveries end as
given. -/
def moment (elapsed token : ℕ) (attempt : Attempt) : Moment :=
  ⟨elapsed, .ok, [], [], token, fun _ => 0, fun _ => attempt⟩

/-- A worker makes one attempt in vain, and the next one delivers. -/
def twoAttempts : List DeliveryEvent :=
  [.env (.commit [5]), .start 0 (.processOnce "a")] ++
  List.replicate 11 (.step 0 (moment 1 1 (none, some "timeout"))) ++
  [.start 1 (.processOnce "b")] ++
  List.replicate 11 (.step 1 (moment 1000 2 (some .onlineSent, none)))

theorem none_stranded_sample : GivenRun machine InTime (.init (Shared.empty 0)) twoAttempts ∧
    NoneStranded (machine.run (.init (Shared.empty 0)) twoAttempts).shared := by
  have hg : GivenRun machine InTime (.init (Shared.empty 0)) twoAttempts := by decide
  exact ⟨hg, none_stranded 0 twoAttempts hg⟩

/-- A worker claims what there is, as soon as the lease before has run out, and stops. -/
def claimAndStop (i : ℕ) : List DeliveryEvent :=
  [.start i (.processOnce "worker"), .step i (moment 30001 0 (none, none)),
    .step i (moment 0 0 (none, none)), .step i (moment 0 (i + 1) (none, none))]

/-- Eight workers one after the other stop with their claim, and a pass over the events goes
through after the last lease has run out. -/
def eightWorkersStop : List DeliveryEvent :=
  .env (.commit [5]) :: (List.range 8).flatMap claimAndStop ++
  [.start 8 (.reconcileTerminalParents 100)] ++
  List.replicate 4 (.step 8 (moment 30001 0 (none, none)))

set_option maxRecDepth 20000 in
theorem last_attempt_lost : ¬ NoneStranded
    (machine.run (.init (Shared.empty 0)) eightWorkersStop).shared := by
  intro h
  have hrow : (machine.run (.init (Shared.empty 0)) eightWorkersStop).shared.store.recipients.get
      (0, 5) = some ⟨.pending, some "worker", some 270008, 8, 8, 0, none⟩ := by decide
  have hclock : (machine.run (.init (Shared.empty 0)) eightWorkersStop).shared.clock = 330011 := by
    decide
  generalize (machine.run (.init (Shared.empty 0)) eightWorkersStop).shared = s at *
  rcases h (0, 5) _ hrow rfl (by rw [hclock]; decide) with ⟨t, -, ht⟩ | ⟨q, view, o, r, hr, hs⟩
  · simp [Store.eligible, hrow, RecipientRow.claimable, maxAttempts] at ht
  · obtain ⟨r0, hr0, hstep⟩ := row_exec hr
    cases hstep
    cases hrow.symm.trans hr0
    exact hs rfl

end PrivChat.Delivery
