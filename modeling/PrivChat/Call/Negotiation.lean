import PrivChat.Call.Journal

/-!
The negotiation that the peer journal records.

`Negotiation` is the protocol on its own: what a signal needs and what it does to the revision and
its answer. Every journal that is ever written is a path of it, so what holds of all paths holds
of all journals.
-/

namespace PrivChat.Call

open PrivChat.Db

/-! ### The protocol -/

@[ext]
structure Negotiation where
  initiator : UserId
  revision : ℕ
  answered : Bool
  seq : ℕ

namespace Negotiation

def fresh (u : UserId) : Negotiation := ⟨u, 0, false, 0⟩

/-- What a signal makes of a negotiation. -/
inductive Step (n : Negotiation) (r : PeerEventRow) : Negotiation → Prop
  | offer : r.kind = .offer → r.fromUserId = n.initiator → r.revision = n.revision + 1 →
      Step n r ⟨n.initiator, r.revision, false, n.seq + 1⟩
  | answer : r.kind = .answer → r.fromUserId ≠ n.initiator → r.revision = n.revision →
      r.revision ≠ 0 → n.answered = false → Step n r ⟨n.initiator, n.revision, true, n.seq + 1⟩
  | ice : r.kind = .ice → r.revision = n.revision → r.revision ≠ 0 →
      Step n r ⟨n.initiator, n.revision, n.answered, n.seq + 1⟩

/-- The signals `log` lead from the start to `n`. -/
inductive Path (u : UserId) : List PeerEventRow → Negotiation → Prop
  | nil : Path u [] (fresh u)
  | snoc {log n r n'} : Path u log n → Step n r n' → Path u (log ++ [r]) n'

variable {u : UserId} {log : List PeerEventRow} {n n' : Negotiation} {r : PeerEventRow}

lemma Step.initiator (h : Step n r n') : n'.initiator = n.initiator := by
  cases h <;> rfl

lemma Step.seq (h : Step n r n') : n'.seq = n.seq + 1 := by
  cases h <;> rfl

lemma Step.revision (h : Step n r n') : r.revision = n'.revision ∧ r.revision ≠ 0 := by
  cases h with
  | offer _ _ hrev => exact ⟨rfl, by omega⟩
  | answer _ _ hrev hne => exact ⟨hrev, hne⟩
  | ice _ hrev hne => exact ⟨hrev, hne⟩

lemma Step.of_offer (h : Step n r n') (hk : r.kind = .offer) : r.fromUserId = n.initiator := by
  cases h <;> simp_all

lemma Step.of_answer (h : Step n r n') (hk : r.kind = .answer) : r.fromUserId ≠ n.initiator ∧
    r.revision = n.revision ∧ n.answered = false ∧ n'.answered = true := by
  cases h <;> simp_all

lemma Step.revision_le (h : Step n r n') : n'.revision = n.revision ∨
    n'.revision = n.revision + 1 ∧ r.kind = .offer ∧ r.fromUserId = n.initiator := by
  cases h with
  | offer hk hu hrev => exact .inr ⟨hrev, hk, hu⟩
  | answer => exact .inl rfl
  | ice => exact .inl rfl

lemma Path.initiator (h : Path u log n) : n.initiator = u := by
  induction h with
  | nil => rfl
  | snoc _ hs ih => exact hs.initiator.trans ih

lemma Path.seq (h : Path u log n) : n.seq = log.length := by
  induction h with
  | nil => rfl
  | snoc _ hs ih => rw [hs.seq, ih, List.length_append, List.length_singleton]

lemma Path.revision_le (h : Path u log n) (hr : r ∈ log) : r.revision ≤ n.revision := by
  induction h with
  | nil => simp at hr
  | snoc _ hs ih =>
    rcases List.mem_append.mp hr with hr | hr
    · have hle := ih hr
      rcases hs.revision_le with he | ⟨he, -⟩
      · omega
      · omega
    · obtain rfl := List.mem_singleton.mp hr
      exact hs.revision.1.le

lemma Path.offered (h : Path u log n) (hn : n.revision ≠ 0) :
    ∃ (i : ℕ) (o : PeerEventRow), log[i]? = some o ∧ o.kind = .offer ∧ o.revision = n.revision := by
  induction h with
  | nil => exact absurd rfl hn
  | @snoc log n r n' _ hs ih =>
    have hold : n'.revision = n.revision →
        ∃ (i : ℕ) (o : PeerEventRow), (log ++ [r])[i]? = some o ∧ o.kind = .offer ∧
          o.revision = n'.revision := by
      intro he
      obtain ⟨i, o, hi, hk, hrev⟩ := ih (he ▸ hn)
      exact ⟨i, o, getElem?_append_of_some hi, hk, hrev.trans he.symm⟩
    rcases hs.revision_le with he | ⟨-, hk, -⟩
    · exact hold he
    · exact ⟨log.length, r, by simp, hk, hs.revision.1⟩

lemma Path.answered (h : Path u log n) {a : PeerEventRow} (ha : a ∈ log) (hk : a.kind = .answer)
    (hrev : a.revision = n.revision) : n.answered = true := by
  induction h with
  | nil => simp at ha
  | @snoc log n r n' hp hs ih =>
    rcases List.mem_append.mp ha with ha | ha
    · have hle := hp.revision_le ha
      cases hs with
      | offer _ _ hr => dsimp only at hrev; omega
      | answer => rfl
      | ice => exact ih ha hrev
    · obtain rfl := List.mem_singleton.mp ha
      exact (hs.of_answer hk).2.2.2

structure Shape (u : UserId) (log : List PeerEventRow) : Prop where
  offers : ∀ r ∈ log, r.kind = .offer → r.fromUserId = u
  answers : ∀ r ∈ log, r.kind = .answer → r.fromUserId ≠ u
  once : ∀ (i j : ℕ) (a b : PeerEventRow), log[i]? = some a → log[j]? = some b →
    a.kind = .answer → b.kind = .answer → a.revision = b.revision → i = j
  offered : ∀ (j : ℕ) (r : PeerEventRow), log[j]? = some r → r.kind ≠ .offer →
    ∃ (i : ℕ) (o : PeerEventRow), i < j ∧ log[i]? = some o ∧ o.kind = .offer ∧
      o.revision = r.revision

lemma getElem?_snoc {r a : PeerEventRow} {i : ℕ}
    (h : (log ++ [r])[i]? = some a) : log[i]? = some a ∨ i = log.length ∧ a = r := by
  rcases Nat.lt_trichotomy i log.length with hlt | heq | hgt
  · rw [List.getElem?_append_left hlt] at h
    exact .inl h
  · subst heq
    simp only [List.getElem?_concat_length, Option.some.injEq] at h
    exact .inr ⟨rfl, h.symm⟩
  · rw [List.getElem?_eq_none (by simp only [List.length_append, List.length_singleton]; omega)]
      at h
    cases h

/-- **The shape of a negotiation.** -/
theorem Path.shape (h : Path u log n) : Shape u log := by
  induction h with
  | nil => exact ⟨by simp, by simp, by simp, by simp⟩
  | @snoc log n r n' hp hs ih =>
    have hu : n.initiator = u := hp.initiator
    -- an answer that comes now is the first of its revision
    have hfirst : ∀ (i : ℕ) (a : PeerEventRow), log[i]? = some a → a.kind = .answer →
        r.kind = .answer → a.revision ≠ r.revision := by
      intro i a hi hka hkr hrev
      obtain ⟨-, hr, hna, -⟩ := hs.of_answer hkr
      have hans := hp.answered (List.mem_of_getElem? hi) hka (hrev.trans hr)
      rw [hna] at hans
      cases hans
    refine ⟨fun x hx hk => ?_, fun x hx hk => ?_, fun i j a b hi hj hka hkb hrev => ?_,
      fun j x hj hk => ?_⟩
    · rcases List.mem_append.mp hx with hx | hx
      · exact ih.offers x hx hk
      · obtain rfl := List.mem_singleton.mp hx
        exact (hs.of_offer hk).trans hu
    · rcases List.mem_append.mp hx with hx | hx
      · exact ih.answers x hx hk
      · obtain rfl := List.mem_singleton.mp hx
        exact hu ▸ (hs.of_answer hk).1
    · rcases getElem?_snoc hi with hi' | ⟨rfl, rfl⟩
      · rcases getElem?_snoc hj with hj' | ⟨rfl, rfl⟩
        · exact ih.once i j a b hi' hj' hka hkb hrev
        · exact absurd hrev (hfirst i a hi' hka hkb)
      · rcases getElem?_snoc hj with hj' | ⟨rfl, rfl⟩
        · exact absurd hrev.symm (hfirst j b hj' hkb hka)
        · rfl
    · rcases getElem?_snoc hj with hj | ⟨rfl, rfl⟩
      · obtain ⟨i, o, hlt, hi, ho⟩ := ih.offered j x hj hk
        exact ⟨i, o, hlt, getElem?_append_of_some hi, ho⟩
      · -- the live revision is not the initial one, so it was offered
        have hlive : x.revision = n.revision := by
          rcases hs.revision_le with he | ⟨-, hk', -⟩
          · exact hs.revision.1.trans he
          · exact absurd hk' hk
        obtain ⟨i, o, hi, hko, hro⟩ := hp.offered (hlive ▸ hs.revision.2)
        exact ⟨i, o, (List.getElem?_eq_some_iff.mp hi).1, getElem?_append_of_some hi, hko,
          hro.trans hlive.symm⟩

end Negotiation

/-! ### The negotiation of a call -/

variable {sv : CallService} {W : List LockKey → World → Prop} {d v : Db} {c : CallId}
  {s s' : StoredCall}

def StoredCall.negotiation (s : StoredCall) : Negotiation :=
  ⟨s.call.initiatorId, s.peerRevision, s.peerAnswered, s.peerSeq⟩

def Db.negotiation (d : Db) (c : CallId) : Option Negotiation :=
  (d.calls.get c).map (·.document.negotiation)

/-- What a commit does to the negotiation of a call and to the journal of it. -/
inductive SignalStep (d v : Db) (c : CallId) : Prop
  | quiet : (v.negotiation c = d.negotiation c ∨
        d.negotiation c = none ∧ ∃ u, v.negotiation c = some (.fresh u)) →
      (∀ n r, v.peerEvents.get (c, n) = some r → d.peerEvents.get (c, n) = some r) →
      SignalStep d v c
  | signal {n n' : Negotiation} {r : PeerEventRow} : d.negotiation c = some n → n.Step r n' →
      v.negotiation c = some n' → v.peerEvents.get (c, n'.seq) = some r →
      (∀ m r', m ≠ n'.seq → v.peerEvents.get (c, m) = some r' →
        d.peerEvents.get (c, m) = some r') → SignalStep d v c

variable {req : CallPeerSignalRequest} {call : CallSnapshot} {h : List LockKey} {actor : UserId}
  {row : CallRow}

lemma numbers_eq (d : Db) (c : CallId) :
    d.peerSeq c = ((d.negotiation c).map (·.seq)).getD 0 ∧
      d.peerRevision c = ((d.negotiation c).map (·.revision)).getD 0 := by
  simp only [Db.negotiation, Db.peerSeq, Db.peerRevision, Option.map_map]
  exact ⟨rfl, rfl⟩

lemma Sheds.signalStep (hs : Sheds d v c)
    (hc : CallStep sv d h c (d.calls.get c) (v.calls.get c)) : SignalStep d v c := by
  refine .quiet ?_ fun n r hr => ?_
  · cases hd : d.calls.get c with
    | none =>
      rw [hd] at hc
      generalize hv : v.calls.get c = o at hc
      cases hc with
      | none => exact .inl (by simp [Db.negotiation, hd, hv])
      | @new actor device req row hi _ _ =>
        obtain ⟨kind, m, t, -, -, -, -, hmade⟩ := hi.made
        refine .inr ⟨by simp [Db.negotiation, hd], actor, ?_⟩
        rw [Db.negotiation, hv, Option.map_some, hmade]
        rfl
    | some row =>
      rw [hd] at hc
      generalize hv : v.calls.get c = o at hc
      refine .inl ?_
      cases hc with
      | same => simp [Db.negotiation, hd, hv]
      | @steps _ row' _ hst _ =>
        obtain ⟨hseq0, hrev0⟩ := numbered_of_get hd
        obtain ⟨hseq1, hrev1⟩ := numbered_of_get hv
        have hseq := hseq1.trans (hs.seq.trans hseq0.symm)
        have hrev := hrev1.trans (hs.revision.trans hrev0.symm)
        rw [Db.negotiation, Db.negotiation, hd, hv]
        exact congrArg some (Negotiation.ext hst.evolves.initiatorId hrev
          (hst.answered.2 hseq) hseq)
  · obtain ⟨keep, -, hev⟩ := hs.events
    rw [hev] at hr
    exact (Option.filter_eq_some_iff.mp hr).1

lemma Negotiates.step
    (hn : Negotiates actor req s s') (hrev : req.revision ≠ 0) {expires : Millis} :
    s.negotiation.Step ⟨req.revision, req.kind, req.payload, actor, expires⟩
      ({ s' with peerSeq := s'.peerSeq + 1 } : StoredCall).negotiation := by
  cases hn with
  | offer hk hu hr => exact .offer hk hu hr.symm
  | answer hk hu hr hna => exact .answer hk hu hr hrev hna
  | ice hk hr => exact .ice hk hr hrev

lemma Expired.negotiation (hx : Expired sv W d c s v) : d.negotiation c = some s.negotiation := by
  cases hx with
  | same hrow => simp [Db.negotiation, hrow]
  | @expired row h o m t t' hrow =>
    have hsame : (expireCall m o.now t row.document).negotiation = row.document.negotiation := by
      unfold expireCall
      split <;> rfl
    simp [Db.negotiation, hrow, hsame]

lemma Signal.Made.signalStep {x : Signal} (hok : CallsOk d) (hx : x.Made sv W d h) :
    SignalStep d (x.db sv) x.req.callId := by
  obtain ⟨row, hrow, hdoc, -⟩ := (hx.rewrites hok).here
  refine .signal (r := x.event) hx.expired.negotiation (hx.negotiates.step hx.files.revision) ?_ ?_
    fun m r' hm hr' => ?_
  · rw [Db.negotiation, hrow, Option.map_some, hdoc]
    rfl
  · rw [hx.peerEvents]
    exact if_pos rfl
  · rw [hx.peerEvents, if_neg fun he => hm (congrArg Prod.snd he)] at hr'
    exact (Option.filter_eq_some_iff.mp hr').1

/-- **What a commit does to a negotiation.** -/
theorem Commits.signalStep {A : Allow Db LockKey World Job} {j : Job} {d' : Db}
    (hok : CallsOk d) (hc : Commits sv.prog A j h d d') (c : CallId) : SignalStep d d' c := by
  obtain ⟨code, hc⟩ := Commits.committed hc
  have hstep : Sheds d d' c → SignalStep d d' c := fun hs => hs.signalStep (hc.callStep hok c)
  cases j with
  | peerSignal actor device req =>
    cases hc with
    | replay _ _ _ hx => exact hstep ((hx.sheds hok c).trans (sheds_of_eq rfl rfl))
    | @signal _ x hx =>
      by_cases he : c = x.req.callId
      · subst he
        exact hx.signalStep hok
      · exact hstep (hx.sheds hok he)
  | _ => exact hstep (hc.sheds hok (fun _ _ _ => nofun) c)

/-! ### All journals are paths -/

/-- The journal so far has been the path `log` of a negotiation that is now where the call says. -/
inductive Recorded (d : Db) (c : CallId) : List PeerEventRow → Prop
  | before : d.negotiation c = none → Recorded d c []
  | path {u n log} : d.negotiation c = some n → Negotiation.Path u log n → Recorded d c log

variable {log : List PeerEventRow}

lemma Recorded.peerSeq (h : Recorded d c log) : d.peerSeq c = log.length := by
  rw [(numbers_eq d c).1]
  cases h with
  | before hn => simp [hn]
  | path hn hp => simp [hn, hp.seq]

lemma Recorded.step (h : Recorded d c log) (hs : SignalStep d v c) : (Recorded v c log ∧
      ∀ n r, v.peerEvents.get (c, n) = some r → d.peerEvents.get (c, n) = some r) ∨
    ∃ r, Recorded v c (log ++ [r]) ∧ v.peerEvents.get (c, log.length + 1) = some r ∧
      ∀ m r', m ≠ log.length + 1 → v.peerEvents.get (c, m) = some r' →
        d.peerEvents.get (c, m) = some r' := by
  cases hs with
  | quiet hn hev =>
    refine .inl ⟨?_, hev⟩
    rcases hn with he | ⟨hnone, u, hu⟩
    · cases h with
      | before hd => exact .before (he.trans hd)
      | path hd hp => exact .path (he.trans hd) hp
    · cases h with
      | before hd => exact .path hu .nil
      | path hd hp => rw [hnone] at hd; cases hd
  | @signal n n' r hd hstep hv hget hold =>
    cases h with
    | before hn => rw [hn] at hd; cases hd
    | path hn hp =>
      rw [hd] at hn
      obtain rfl := Option.some.inj hn
      have hseq : n'.seq = _ := hstep.seq.trans (congrArg (· + 1) hp.seq)
      rw [hseq] at hget hold
      exact .inr ⟨r, .path hv (hp.snoc hstep), hget, hold⟩

variable {evs : List CallEvent}

lemma signalStep {e : CallEvent} : SignalStep (sv.run evs).db (sv.run (evs ++ [e])).db c := by
  rw [run_append]
  rcases good_run.db_step e with he | ⟨i, o, j, p, -, -, hc⟩
  · have hdb : ((sv.run evs).run sv.prog [e]).db = (sv.run evs).db := he
    rw [hdb]
    exact .quiet (.inl rfl) fun _ _ h => h
  · exact Commits.signalStep (callsOk_run sv evs) hc c

/-- **Every journal is a path.** What was ever in the journal of a call is, in the order of its
numbers, a path of the negotiation. -/
theorem exists_recorded : ∃ log, Recorded (sv.run evs).db c log ∧
      ∀ n r, Sent sv evs c n r ↔ 0 < n ∧ log[n - 1]? = some r := by
  induction evs using List.reverseRecOn with
  | nil =>
    refine ⟨[], .before rfl, fun n r => ⟨?_, fun h => by simp at h⟩⟩
    rintro ⟨evs0, hpre, hr⟩
    rw [List.prefix_nil.mp hpre] at hr
    cases hr
  | append_singleton evs e ih =>
    obtain ⟨log, hrec, hsent⟩ := ih
    rcases hrec.step signalStep with ⟨hrec', hold⟩ | ⟨r0, hrec', hget, hold⟩
    · refine ⟨log, hrec', fun n r => ?_⟩
      rw [sent_append, ← hsent]
      exact ⟨fun h => h.elim id fun hr => ⟨evs, List.prefix_rfl, hold n r hr⟩, .inl⟩
    · refine ⟨log ++ [r0], hrec', fun n r => ?_⟩
      rw [sent_append, hsent]
      constructor
      · rintro (⟨hn, hr⟩ | hr)
        · exact ⟨hn, getElem?_append_of_some hr⟩
        · by_cases hn : n = log.length + 1
          · subst hn
            rw [hget] at hr
            simpa using hr
          · obtain ⟨hpos, hr'⟩ := (hsent n r).mp ⟨evs, List.prefix_rfl, hold n r hn hr⟩
            exact ⟨hpos, getElem?_append_of_some hr'⟩
      · rintro ⟨hn, hr⟩
        rcases Negotiation.getElem?_snoc hr with hr | ⟨hidx, rfl⟩
        · exact .inl ⟨hn, hr⟩
        · have hn' : n = log.length + 1 := by omega
          exact .inr (hn' ▸ hget)

/-! ### The protocol in every run -/

lemma snapshot_negotiation (h : d.snapshot c = some call) :
    ∃ n, d.negotiation c = some n ∧ n.initiator = call.initiatorId := by
  obtain ⟨row, hrow, rfl⟩ := Option.map_eq_some_iff.mp h
  exact ⟨row.document.negotiation, by simp [Db.negotiation, hrow], rfl⟩

/-- What one commit does to the numbers of a call: nothing, or it adds the event with the next
number, which makes a new revision only if it is an offer from the initiator. -/
inductive NumbersStep (d v : Db) (c : CallId) : Prop
  | same : v.peerSeq c = d.peerSeq c → v.peerRevision c = d.peerRevision c → NumbersStep d v c
  | add {r : PeerEventRow} : v.peerSeq c = d.peerSeq c + 1 →
      v.peerEvents.get (c, d.peerSeq c + 1) = some r →
      (v.peerRevision c = d.peerRevision c ∨ v.peerRevision c = d.peerRevision c + 1 ∧
        r.kind = .offer ∧ ∃ call, v.snapshot c = some call ∧ r.fromUserId = call.initiatorId) →
      NumbersStep d v c

lemma SignalStep.numbers (h : SignalStep d v c) : NumbersStep d v c := by
  cases h with
  | quiet hn _ =>
    obtain ⟨hs, hr⟩ := numbers_eq d c
    obtain ⟨hs', hr'⟩ := numbers_eq v c
    rcases hn with he | ⟨hnone, u, hu⟩
    · rw [he] at hs' hr'
      exact .same (hs'.trans hs.symm) (hr'.trans hr.symm)
    · -- a new call starts with the numbers that no call has
      rw [hnone] at hs hr
      rw [hu] at hs' hr'
      exact .same (hs'.trans hs.symm) (hr'.trans hr.symm)
  | @signal n n' r hd hstep hv hget _ =>
    obtain ⟨hs, hr⟩ : d.peerSeq c = n.seq ∧ d.peerRevision c = n.revision := by
      simpa [hd] using numbers_eq d c
    obtain ⟨hs', hr'⟩ : v.peerSeq c = n'.seq ∧ v.peerRevision c = n'.revision := by
      simpa [hv] using numbers_eq v c
    have hseq : n'.seq = d.peerSeq c + 1 := by rw [hstep.seq, hs]
    refine .add (hs'.trans hseq) (hseq ▸ hget) ?_
    rcases hstep.revision_le with he | ⟨he, hk, hu⟩
    · exact .inl (by rw [hr', hr, he])
    · refine .inr ⟨by rw [hr', hr, he], hk, ?_⟩
      obtain ⟨row, hrow, rfl⟩ := Option.map_eq_some_iff.mp hv
      exact ⟨row.document.call, by rw [Db.snapshot, hrow]; rfl, hu.trans hstep.initiator.symm⟩

/-- The journal of a call, as it has ever been, is that of a negotiation. -/
structure FollowsProtocol (sv : CallService) (evs : List CallEvent) (c : CallId)
    (call : CallSnapshot) : Prop where
  numbers : ∀ n, (∃ r, Sent sv evs c n r) ↔ 0 < n ∧ n ≤ (sv.run evs).db.peerSeq c
  unique : ∀ n r r', Sent sv evs c n r → Sent sv evs c n r' → r = r'
  answers : ∀ n r, Sent sv evs c n r → r.kind = .answer → r.fromUserId ≠ call.initiatorId
  once : ∀ n n' r r', Sent sv evs c n r → Sent sv evs c n' r' → r.kind = .answer →
    r'.kind = .answer → r.revision = r'.revision → n = n'
  offered : ∀ n r, Sent sv evs c n r → r.kind ≠ .offer →
    ∃ m o, m < n ∧ Sent sv evs c m o ∧ o.kind = .offer ∧ o.revision = r.revision

lemma followsProtocol
    (hcall : (sv.run evs).db.snapshot c = some call) (hrec : Recorded (sv.run evs).db c log)
    (hsent : ∀ n r, Sent sv evs c n r ↔ 0 < n ∧ log[n - 1]? = some r) :
    FollowsProtocol sv evs c call := by
  obtain ⟨n0, hn0, hinit⟩ := snapshot_negotiation hcall
  have hseq := hrec.peerSeq
  have hshape : Negotiation.Shape call.initiatorId log := by
    cases hrec with
    | before hnone => rw [hnone] at hn0; cases hn0
    | @path u n log hn hp =>
      rw [hn0] at hn
      obtain rfl := Option.some.inj hn
      have hu : u = call.initiatorId := hp.initiator.symm.trans hinit
      exact hu ▸ hp.shape
  refine ⟨fun n => ?_, fun n r r' hr hr' => ?_, fun n r hr hk => ?_,
    fun n n' r r' hr hr' hk hk' hrev => ?_, fun n r hr hk => ?_⟩
  · rw [hseq]
    constructor
    · rintro ⟨r, hr⟩
      obtain ⟨hpos, hr⟩ := (hsent n r).mp hr
      have hlt := (List.getElem?_eq_some_iff.mp hr).1
      omega
    · rintro ⟨hpos, hle⟩
      have hlt : n - 1 < log.length := by omega
      exact ⟨log[n - 1], (hsent n _).mpr ⟨hpos, List.getElem?_eq_getElem hlt⟩⟩
  · obtain ⟨-, hr⟩ := (hsent n r).mp hr
    obtain ⟨-, hr'⟩ := (hsent n r').mp hr'
    exact Option.some.inj (hr.symm.trans hr')
  · obtain ⟨-, hr⟩ := (hsent n r).mp hr
    exact hshape.answers r (List.mem_of_getElem? hr) hk
  · obtain ⟨hpos, hr⟩ := (hsent n r).mp hr
    obtain ⟨hpos', hr'⟩ := (hsent n' r').mp hr'
    have hidx := hshape.once _ _ r r' hr hr' hk hk' hrev
    omega
  · obtain ⟨hpos, hr⟩ := (hsent n r).mp hr
    obtain ⟨i, o, hlt, ho, hko, hrev⟩ := hshape.offered _ r hr hk
    exact ⟨i + 1, o, by omega, (hsent (i + 1) o).mpr ⟨by omega, by simpa using ho⟩, hko, hrev⟩

/-- **The negotiation protocol.** In every run, what was ever in the journal of a call has the
numbers one, two, three and so on without a gap; each step gives at most the next number, and the
revision, which starts at zero, goes up in it by one at most and only by an offer from the
initiator that the step adds; each revision has at most one answer, which is not from the
initiator, and every answer and candidate has the offer of its revision before it. -/
theorem negotiation_protocol (sv : CallService) (evs : List CallEvent) (c : CallId) :
    (∀ evs0 e evs1, evs = evs0 ++ e :: evs1 →
      NumbersStep (sv.run evs0).db (sv.run (evs0 ++ [e])).db c ∧
      ((sv.run evs0).db.snapshot c = none → (sv.run (evs0 ++ [e])).db.peerRevision c = 0)) ∧
    ∀ call, (sv.run evs).db.snapshot c = some call → FollowsProtocol sv evs c call := by
  refine ⟨fun evs0 e evs1 _ => ⟨signalStep.numbers, fun hnone => ?_⟩, fun call hcall => ?_⟩
  · have hneg : (sv.run evs0).db.negotiation c = none := by
      simpa [Db.snapshot, Db.negotiation] using hnone
    rw [(numbers_eq _ c).2]
    cases signalStep with
    | quiet hq _ =>
      rcases hq with he | ⟨-, u, hu⟩
      · rw [he, hneg]
        rfl
      · rw [hu]
        rfl
    | signal hd => rw [hneg] at hd; cases hd
  · obtain ⟨log, hrec, hsent⟩ := exists_recorded
    exact followsProtocol hcall hrec hsent

/-- User `1` offers, and user `2` answers. -/
def sampleNegotiation : List CallEvent :=
  sampleInvite ++ sampleAnswer ++
    sampleRun 2 (.peerSignal 1 "a" ⟨"c3", 9, 1, .offer, "offer"⟩) 6000 ++
    sampleRun 3 (.peerSignal 2 "b" ⟨"c4", 9, 1, .answer, "answer"⟩) 7000

set_option maxRecDepth 20000 in
lemma sampleNegotiation_seq : ((sampleService.run sampleNegotiation).db.snapshot 9).isSome = true ∧
    (sampleService.run sampleNegotiation).db.peerSeq 9 = 2 := by
  decide

theorem negotiation_protocol_sample : ∃ call,
    (sampleService.run sampleNegotiation).db.snapshot 9 = some call ∧
      (sampleService.run sampleNegotiation).db.peerSeq 9 = 2 ∧
      FollowsProtocol sampleService sampleNegotiation 9 call := by
  obtain ⟨call, hcall⟩ := Option.isSome_iff_exists.mp sampleNegotiation_seq.1
  exact ⟨call, hcall, sampleNegotiation_seq.2,
    (negotiation_protocol sampleService sampleNegotiation 9).2 call hcall⟩

end PrivChat.Call
