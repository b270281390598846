import PrivChat.Call.Lifecycle
import Mathlib.Data.List.Induction

/-!
The peer journal.

A commit adds one event to the journal of a call under the next number, or takes events away:
those that have expired, or all of them when the call ends. With a clock that does not go back,
what is left is always a tail of all that was ever sent.
-/

namespace PrivChat.Call

open PrivChat.Db Tx CallService

variable {sv : CallService} {W : List LockKey → World → Prop} {d v v' : Db} {c : CallId}

def Db.peerSeq (d : Db) (c : CallId) : ℕ := ((d.calls.get c).map (·.document.peerSeq)).getD 0

def Db.peerRevision (d : Db) (c : CallId) : ℕ :=
  ((d.calls.get c).map (·.document.peerRevision)).getD 0

/-- The numbers of call `c` are those of `s`. -/
def Numbered (d : Db) (c : CallId) (s : StoredCall) : Prop :=
  s.peerSeq = d.peerSeq c ∧ s.peerRevision = d.peerRevision c

lemma numbered_of_get {row : CallRow} (h : d.calls.get c = some row) :
    Numbered d c row.document := by
  simp [Numbered, Db.peerSeq, Db.peerRevision, h]

variable {s : StoredCall}

lemma Numbered.congr (h : Numbered d c s) (hv : v.calls = d.calls) : Numbered v c s := by
  unfold Numbered Db.peerSeq Db.peerRevision at h ⊢
  rw [hv]
  exact h

variable {s' : StoredCall}

lemma Numbered.of_same (h : Numbered d c s) (hs : SameNumbers s s') : Numbered d c s' :=
  ⟨hs.1.trans h.1, hs.2.trans h.2⟩

/-! ### What a commit does to a journal -/

/-- A condition that an event meets if an earlier one to expire does. -/
def Lasting (keep : PeerEventRow → Bool) : Prop :=
  ∀ r r' : PeerEventRow, r.expiresAt ≤ r'.expiresAt → keep r = true → keep r' = true

lemma lasting_const {b : Bool} : Lasting fun _ => b := fun _ _ _ h => h

lemma lasting_after {t : Millis} : Lasting fun r => !decide (r.expiresAt ≤ t) := by
  intro r r' hle hr
  simp only [Bool.not_eq_true', decide_eq_false_iff_not, not_le] at hr ⊢
  exact lt_of_lt_of_le hr hle

/-- The journal of call `c` has lost events at most, the first to expire first. -/
structure Sheds (d v : Db) (c : CallId) : Prop where
  events : ∃ keep, Lasting keep ∧
    ∀ n, v.peerEvents.get (c, n) = (d.peerEvents.get (c, n)).filter keep
  seq : v.peerSeq c = d.peerSeq c
  revision : v.peerRevision c = d.peerRevision c

structure Adds (sv : CallService) (W : List LockKey → World → Prop) (d v : Db) (c : CallId)
    (keep : PeerEventRow → Bool) (r : PeerEventRow) : Prop where
  lasting : Lasting keep
  events : ∀ n, v.peerEvents.get (c, n) =
    if n = d.peerSeq c + 1 then some r else (d.peerEvents.get (c, n)).filter keep
  seq : v.peerSeq c = d.peerSeq c + 1
  revision : v.peerRevision c = r.revision
  nonzero : r.revision ≠ 0
  negotiated : r.revision = if r.kind = .offer then d.peerRevision c + 1 else d.peerRevision c
  room : ∀ ns : List ℕ, ns.Nodup →
    (∀ n ∈ ns, ((d.peerEvents.get (c, n)).filter keep).isSome) → ns.length < 512
  clock : ∃ h o, .row c ∈ h ∧ W h o ∧
    r.expiresAt = o.now + sv.config.peer.journalTtlSeconds * 1000

/-- What a commit makes of the journal of call `c`. -/
def JournalStep (sv : CallService) (W : List LockKey → World → Prop) (d v : Db) (c : CallId) :
    Prop :=
  Sheds d v c ∨ ∃ keep r, Adds sv W d v c keep r

lemma sheds_of_eq (hcalls : v.calls = d.calls) (hev : v.peerEvents = d.peerEvents) :
    Sheds d v c := by
  refine ⟨⟨fun _ => true, lasting_const, fun n => ?_⟩, ?_, ?_⟩
  · rw [hev]
    cases d.peerEvents.get (c, n) <;> rfl
  · simp only [Db.peerSeq, hcalls]
  · simp only [Db.peerRevision, hcalls]

lemma Sheds.refl {d : Db} {c : CallId} : Sheds d d c := sheds_of_eq rfl rfl

lemma Sheds.trans (h : Sheds d v c) (h' : Sheds v v' c) : Sheds d v' c := by
  obtain ⟨keep, hk, hev⟩ := h.events
  obtain ⟨keep', hk', hev'⟩ := h'.events
  refine ⟨⟨fun r => keep r && keep' r, fun r r' hle hr => ?_, fun n => ?_⟩,
    h'.seq.trans h.seq, h'.revision.trans h.revision⟩
  · simp only [Bool.and_eq_true] at hr ⊢
    exact ⟨hk r r' hle hr.1, hk' r r' hle hr.2⟩
  · rw [hev', hev, Option.filter_filter]

lemma sheds_saveDb (hs : Numbered d s.call.callId s) {notify : Bool}
    {t : Millis} {c : CallId} : Sheds d (saveDb s notify t d) c := by
  have hseq : (saveDb s notify t d).peerSeq c = d.peerSeq c := by
    by_cases hc : c = s.call.callId
    · subst hc
      simp [Db.peerSeq, hs.1]
    · simp [Db.peerSeq, hc]
  have hrev : (saveDb s notify t d).peerRevision c = d.peerRevision c := by
    by_cases hc : c = s.call.callId
    · subst hc
      simp [Db.peerRevision, hs.2]
    · simp [Db.peerRevision, hc]
  refine ⟨?_, hseq, hrev⟩
  by_cases hend : s.call.state = .ended ∧ s.call.transport ≠ .livekit
  · -- the journal of an ended call is deleted
    refine ⟨fun _ => !(c == s.call.callId), lasting_const, fun n => ?_⟩
    cases notify <;> simp [saveDb, Db.clearPeer, hend.1, hend.2, Table.get_deleteWhere]
  · refine ⟨fun _ => true, lasting_const, fun n => ?_⟩
    have hev : (saveDb s notify t d).peerEvents = d.peerEvents := by
      unfold saveDb
      cases notify <;> by_cases he : s.call.state = .ended <;> simp_all
    rw [hev]
    cases d.peerEvents.get (c, n) <;> rfl

lemma Expired.sheds {c0 : CallId} (hok : CallsOk d)
    (hx : Expired sv W d c0 s v) (c : CallId) : Sheds d v c := by
  cases hx with
  | same => exact .refl
  | @expired row h o m t t' hrow hs _ _ _ hl =>
    have hid : (expireCall m o.now t row.document).call.callId = c0 :=
      (Trans.expire row.document m o.now t hs hl).evolves.callId.trans (hok c0 _ hrow).callId
    have hsame : SameNumbers row.document (expireCall m o.now t row.document) := by
      unfold expireCall
      split <;> exact ⟨rfl, rfl⟩
    have hnum : Numbered (removeLeftDb sv (expireCall m o.now t row.document) d) c0
        (expireCall m o.now t row.document) :=
      ((numbered_of_get hrow).of_same hsame).congr (removeLeftDb_calls _ _)
    exact (sheds_of_eq (removeLeftDb_calls _ _) (removeLeftDb_peerEvents _ _)).trans
      (sheds_saveDb (hid.symm ▸ hnum))

lemma Rewrites.numbered (hr : Rewrites d v c s) : Numbered v c s := by
  obtain ⟨row, hrow, rfl, -⟩ := hr.here
  exact numbered_of_get hrow

lemma Rewrites.numbers_of_ne (hr : Rewrites d v c s) {c' : CallId}
    (hc : c' ≠ c) : v.peerSeq c' = d.peerSeq c' ∧ v.peerRevision c' = d.peerRevision c' := by
  simp [Db.peerSeq, Db.peerRevision, hr.elsewhere c' hc]

lemma Expired.numbered (hok : CallsOk d) (hx : Expired sv W d c s v) :
    Numbered v s.call.callId s := by
  obtain ⟨hr, hid⟩ := hx.rewrites hok
  exact hid.symm ▸ hr.numbered

lemma sheds_touch {id : CallId} {t : Millis} {d : Db} {c : CallId} : Sheds d (touch id t d) c := by
  unfold CallService.touch
  split
  · rename_i row hrow
    refine ⟨Sheds.refl.events, ?_, ?_⟩
    · by_cases hc : c = id
      · subst hc
        simp [Db.peerSeq, hrow]
      · simp [Db.peerSeq, hc]
    · by_cases hc : c = id
      · subst hc
        simp [Db.peerRevision, hrow]
      · simp [Db.peerRevision, hc]
  · exact .refl

variable {actor : UserId} {device : String}

lemma Operates.sheds {c0 : CallId} {final : StoredCall}
    {route : Route} {notify : Bool} (hok : CallsOk d) (hx : Expired sv W d c0 s v)
    (hm : Operates sv actor device s route final notify v v') {k : CommandKey} {r : CommandRow}
    {t : Millis} {c : CallId} :
    Sheds d ((saveDb (final.bump notify) notify t v').putCommand k r) c := by
  have hview : Sheds v v' c := by
    obtain ⟨es, rfl⟩ := hm.view
    exact sheds_of_eq rfl rfl
  have hsame : SameNumbers s (final.bump notify) := by
    cases notify <;> exact hm.numbers
  have hid : (final.bump notify).call.callId = s.call.callId := hm.trans.evolves.callId
  have hnum : Numbered v' (final.bump notify).call.callId (final.bump notify) :=
    hid.symm ▸ (((hx.numbered hok).of_same hsame).congr hm.calls)
  exact (hx.sheds hok c).trans (hview.trans ((sheds_saveDb hnum).trans (sheds_of_eq rfl rfl)))

variable {req : CallPeerSignalRequest}

lemma Negotiates.revision (hn : Negotiates actor req s s') : s'.peerRevision = req.revision ∧
      req.revision = if req.kind = .offer then s.peerRevision + 1 else s.peerRevision := by
  cases hn with
  | offer hk _ hrev => exact ⟨rfl, by rw [if_pos hk, hrev]⟩
  | answer hk _ hrev => exact ⟨hrev.symm, by rw [if_neg (by simp [hk]), hrev]⟩
  | ice hk hrev => exact ⟨hrev.symm, by rw [if_neg (by simp [hk]), hrev]⟩

variable {j : Job} {h : List LockKey} {x : Signal}

lemma Signal.Made.numbered (hok : CallsOk d) (hx : x.Made sv W d h) :
    Numbered d x.req.callId x.call := by
  have hnum := (hx.expired.rewrites hok).1.numbered
  have hsh := hx.expired.sheds hok x.req.callId
  exact ⟨hnum.1.trans hsh.seq, hnum.2.trans hsh.revision⟩

lemma Signal.Made.adds (hok : CallsOk d) (hx : x.Made sv W d h) : Adds sv W d (x.db sv)
    x.req.callId (fun r => !decide (r.expiresAt ≤ x.now)) x.event := by
  have hr := (hx.rewrites hok).numbered
  have hnum := hx.numbered hok
  obtain ⟨hrev, hneg⟩ := hx.negotiates.revision
  have hseq : x.stored.peerSeq = d.peerSeq x.req.callId + 1 :=
    congrArg (· + 1) (hx.negotiates.same.1.trans hnum.1)
  refine ⟨lasting_after, fun n => ?_, hr.1.symm.trans hseq, hr.2.symm.trans hrev,
    hx.files.revision, hnum.2 ▸ hneg, fun ns hnd hns => hx.files.room ns hnd fun n hn => ?_,
    hx.files.clock⟩
  · rw [hx.peerEvents, ← hseq]
    simp
  · have hrow := hns n hn
    rw [← (hx.expired.peer hx.authorized.running).1] at hrow
    simpa [Signal.purged, Table.get_deleteWhere] using hrow

lemma Signal.Made.sheds (hok : CallsOk d) (hx : x.Made sv W d h) (hc : c ≠ x.req.callId) :
    Sheds d (x.db sv) c := by
  obtain ⟨hseq, hrev⟩ := (hx.rewrites hok).numbers_of_ne hc
  refine ⟨⟨fun _ => true, lasting_const, fun n => ?_⟩, hseq, hrev⟩
  have hne : (c, n) ≠ (x.req.callId, x.stored.peerSeq) := fun he => hc (congrArg Prod.fst he)
  rw [hx.peerEvents, if_neg hne, beq_eq_false_iff_ne.mpr hc]
  rfl

lemma Committed.sheds {code : CallTx Answer} (hok : CallsOk d)
    (hc : Committed sv W d j h v code)
    (hp : ∀ actor device req, j ≠ .peerSignal actor device req) (c : CallId) : Sheds d v c := by
  cases hc with
  | @invite actor device req _ s t t' hi =>
    have hnum : Numbered d s.call.callId s := by
      obtain ⟨kind, m, t0, -, -, -, -, hs⟩ := hi.made
      have hnone := hi.fresh
      refine ⟨?_, ?_⟩
      · rw [Db.peerSeq, hnone, hs]
        rfl
      · rw [Db.peerRevision, hnone, hs]
        rfl
    exact (sheds_saveDb hnum).trans (sheds_of_eq rfl rfl)
  | replay | signal => exact absurd rfl (hp _ _ _)
  | ended hx | get hx => exact hx.sheds hok c
  | mutate t t' hx _ _ _ hop => exact hop.sheds hok hx
  | events rate hx => exact (hx.sheds hok c).trans (sheds_of_eq rfl rfl)
  | sweepEvents t =>
    refine ⟨⟨fun r => !decide (r.expiresAt ≤ t), lasting_after, fun n => ?_⟩, rfl, rfl⟩
    rw [Db.deletePeerEvents_peerEvents, Table.get_deleteWhere]
  | sweepCommands | sweepRates => exact sheds_of_eq rfl rfl
  | sweepOne t hx => exact (hx.sheds hok c).trans sheds_touch

variable {A : Allow Db LockKey World Job} {d' : Db}

/-- **What a commit does to the journals.** -/
theorem Commits.journalStep (hok : CallsOk d) (hc : Commits sv.prog A j h d d') {c : CallId} :
    JournalStep sv (fun h o => A j h d o) d d' c := by
  obtain ⟨code, hc⟩ := Commits.committed hc
  cases j with
  | peerSignal =>
    cases hc with
    | replay _ _ _ hx => exact .inl ((hx.sheds hok c).trans (sheds_of_eq rfl rfl))
    | @signal _ x hx =>
      by_cases he : c = x.req.callId
      · subst he
        exact .inr ⟨_, _, hx.adds hok⟩
      · exact .inl (hx.sheds hok he)
  | _ => exact .inl (hc.sheds hok (fun _ _ _ => nofun) c)

/-! ### All that was ever sent -/

/-- `S` is all that was ever sent in call `c`, with the numbers; the journal has a last part of
it. -/
structure Ledger (d : Db) (c : CallId) (S : ℕ → PeerEventRow → Prop) : Prop where
  sent : ∀ {n r}, d.peerEvents.get (c, n) = some r → S n r
  le_seq : ∀ {n r}, S n r → n ≤ d.peerSeq c
  kept : ∀ {n r m r'}, d.peerEvents.get (c, n) = some r → n ≤ m → S m r' →
    d.peerEvents.get (c, m) = some r' ∧ r.expiresAt ≤ r'.expiresAt
  offers : ∀ {n r m r'}, S n r → n < m → S m r' → r'.kind = .offer → r.revision < r'.revision
  revisions : ∀ {n r}, S n r → r.revision ≠ 0 ∧ r.revision ≤ d.peerRevision c
  room : ∀ ns : List ℕ, ns.Nodup → (∀ n ∈ ns, (d.peerEvents.get (c, n)).isSome) → ns.length ≤ 512

variable {S : ℕ → PeerEventRow → Prop} {r : PeerEventRow}

lemma Ledger.sheds (hl : Ledger d c S) (hs : Sheds d v c) : Ledger v c S := by
  obtain ⟨keep, hk, hev⟩ := hs.events
  have hget : ∀ {n r}, v.peerEvents.get (c, n) = some r →
      d.peerEvents.get (c, n) = some r ∧ keep r = true := by
    intro n r hr
    rw [hev] at hr
    exact Option.filter_eq_some_iff.mp hr
  refine ⟨fun h => hl.sent (hget h).1, hs.seq ▸ hl.le_seq, fun h hle h' => ?_, hl.offers,
    hs.revision ▸ hl.revisions, fun ns hnd hns => hl.room ns hnd fun n hn => ?_⟩
  · obtain ⟨hr, hle⟩ := hl.kept (hget h).1 hle h'
    exact ⟨by rw [hev, hr, Option.filter_some, if_pos (hk _ _ hle (hget h).2)], hle⟩
  · obtain ⟨r, hr⟩ := Option.isSome_iff_exists.mp (hns n hn)
    rw [(hget hr).1]
    rfl

lemma Ledger.adds (hl : Ledger d c S) {keep : PeerEventRow → Bool} (ha : Adds sv W d v c keep r)
    (hclock : ∀ n r', d.peerEvents.get (c, n) = some r' → r'.expiresAt ≤ r.expiresAt) :
    Ledger v c fun n r' => S n r' ∨ n = d.peerSeq c + 1 ∧ r' = r := by
  have hget : ∀ {n r'}, v.peerEvents.get (c, n) = some r' → n = d.peerSeq c + 1 ∧ r' = r ∨
      d.peerEvents.get (c, n) = some r' ∧ keep r' = true := by
    intro n r' hr
    rw [ha.events] at hr
    split at hr
    · rename_i hn
      exact .inl ⟨hn, (Option.some.inj hr).symm⟩
    · exact .inr (Option.filter_eq_some_iff.mp hr)
  have hrev : d.peerRevision c ≤ r.revision := by
    rw [ha.negotiated]
    split <;> omega
  refine ⟨fun h => (hget h).symm.imp_left fun h => hl.sent h.1, ?_, ?_, ?_, ?_,
    fun ns hnd hns => ?_⟩
  · rintro n r' (h | ⟨rfl, -⟩)
    · exact (hl.le_seq h).trans (ha.seq ▸ Nat.le_succ _)
    · exact ha.seq.ge
  · rintro n r1 m r' hr hle (h' | ⟨rfl, rfl⟩)
    · have hm := hl.le_seq h'
      rcases hget hr with ⟨rfl, -⟩ | ⟨hr, hkeep⟩
      · omega
      · obtain ⟨hr', hexp⟩ := hl.kept hr hle h'
        refine ⟨?_, hexp⟩
        rw [ha.events, if_neg (by omega), hr', Option.filter_some,
          if_pos (ha.lasting _ _ hexp hkeep)]
    · refine ⟨by rw [ha.events, if_pos rfl], ?_⟩
      rcases hget hr with ⟨-, rfl⟩ | ⟨hr, -⟩
      · exact le_rfl
      · exact hclock n r1 hr
  · rintro n r1 m r' (h | ⟨rfl, -⟩) hlt (h' | ⟨rfl, rfl⟩) hoffer
    · exact hl.offers h hlt h' hoffer
    · rw [ha.negotiated, if_pos hoffer]
      exact Nat.lt_succ_of_le (hl.revisions h).2
    · have := hl.le_seq h'
      omega
    · exact absurd hlt (lt_irrefl _)
  · rw [ha.revision]
    rintro n r' (h | ⟨-, rfl⟩)
    · exact ⟨(hl.revisions h).1, (hl.revisions h).2.trans hrev⟩
    · exact ⟨ha.nonzero, le_rfl⟩
  · -- without the new one there are fewer
    have hlt := ha.room (ns.erase (d.peerSeq c + 1)) (hnd.erase _) fun n hn => by
      have hsome := hns n (List.mem_of_mem_erase hn)
      rwa [ha.events, if_neg (hnd.mem_erase_iff.mp hn).1] at hsome
    rw [List.length_erase] at hlt
    split at hlt <;> omega

lemma JournalStep.get_of_get (hj : JournalStep sv W d v c) {n : ℕ}
    (hr : v.peerEvents.get (c, n) = some r) :
    d.peerEvents.get (c, n) = some r ∨ ∃ h o, .row c ∈ h ∧ W h o ∧
      r.expiresAt = o.now + sv.config.peer.journalTtlSeconds * 1000 := by
  rcases hj with hs | ⟨keep, r', ha⟩
  · obtain ⟨keep, -, hev⟩ := hs.events
    rw [hev] at hr
    exact .inl (Option.filter_eq_some_iff.mp hr).1
  · rw [ha.events] at hr
    split at hr
    · obtain rfl := Option.some.inj hr
      exact .inr ha.clock
    · exact .inl (Option.filter_eq_some_iff.mp hr).1

lemma Ledger.step {S' : ℕ → PeerEventRow → Prop} (hl : Ledger d c S) (hj : JournalStep sv W d v c)
    (hS : ∀ n r, S' n r ↔ S n r ∨ v.peerEvents.get (c, n) = some r)
    (hclock : ∀ h o, .row c ∈ h → W h o → ∀ n r, d.peerEvents.get (c, n) = some r →
      r.expiresAt ≤ o.now + sv.config.peer.journalTtlSeconds * 1000) : Ledger v c S' := by
  rcases hj with hs | ⟨keep, r, ha⟩
  · have h := hl.sheds hs
    have he : S' = S := funext₂ fun n r => propext ((hS n r).trans (or_iff_left_of_imp h.sent))
    exact he ▸ h
  · obtain ⟨h, o, hlock, ho, hexp⟩ := ha.clock
    have h := hl.adds ha fun n r' hr' => hexp ▸ hclock h o hlock ho n r' hr'
    have he : S' = fun n r' => S n r' ∨ n = d.peerSeq c + 1 ∧ r' = r := by
      refine funext₂ fun n r' => propext ((hS n r').trans ⟨fun hr => hr.elim .inl h.sent, ?_⟩)
      rintro (hr | ⟨rfl, rfl⟩)
      · exact .inl hr
      · exact .inr (by rw [ha.events, if_pos rfl])
    exact he ▸ h

/-! ### A clock that does not go back -/

def clockOf : CallEvent → Option Millis
  | .step _ o => some o.now
  | .start _ _ | .crash _ _ => none

/-- The clock does not go back in the run. -/
def Steady (evs : List CallEvent) : Prop := (evs.filterMap clockOf).Pairwise (· ≤ ·)

instance decidableSteady (evs : List CallEvent) : Decidable (Steady evs) :=
  inferInstanceAs (Decidable (List.Pairwise _ _))

variable {evs : List CallEvent}

lemma Steady.of_append {evs' : List CallEvent} (h : Steady (evs ++ evs')) : Steady evs := by
  unfold Steady at h
  rw [List.filterMap_append] at h
  exact (List.pairwise_append.mp h).1

lemma Steady.le {evs1 evs2 : List CallEvent} {i : ℕ} {o : World}
    (h : Steady (evs1 ++ .step i o :: evs2)) : ∀ t ∈ evs1.filterMap clockOf, t ≤ o.now := by
  unfold Steady at h
  rw [List.filterMap_append] at h
  intro t ht
  exact (List.pairwise_append.mp h).2.2 t ht o.now (by simp [clockOf])

/-- No event is there longer than its lifetime from the latest reading of the clock. -/
lemma expiresAt_le {T : Millis} (hT : ∀ t ∈ evs.filterMap clockOf, t ≤ T)
    {n : ℕ} (hr : (sv.run evs).db.peerEvents.get (c, n) = some r) :
    r.expiresAt ≤ T + sv.config.peer.journalTtlSeconds * 1000 := by
  have hgood : Good sv.prog callEnv (fun _ _ _ o => o.now ≤ T) (Sys.init .empty) :=
    good_init dbOk_empty
  have hallowed : AllowedRun sv.prog (fun _ _ _ o => o.now ≤ T) (Sys.init .empty) evs := by
    refine allowedRun_of_forall fun evs1 e evs2 he => ?_
    cases e with
    | step i o => exact fun _ _ _ => hT o.now (by simp [he, clockOf])
    | start | crash => trivial
  have hinv := hgood.throughout (disciplined fun _ _ _ _ _ _ => id)
    (L := fun d => ∀ c n r, d.peerEvents.get (c, n) = some r →
      r.expiresAt ≤ T + sv.config.peer.journalTtlSeconds * 1000)
    (fun j h d d' hok hd hc c n r hr => ?_) (fun c n r hr => by simp [Sys.init, Db.empty] at hr)
    hallowed
  · exact hinv.last c n r hr
  · rcases (Commits.journalStep hok.calls hc).get_of_get hr with hr | ⟨h, o, -, ho, he⟩
    · exact hd c n r hr
    · rw [he]
      exact Int.add_le_add_right ho _

/-- Under the lock of a call the clock says no less than when its events were added. -/
def timely (sv : CallService) : Allow Db LockKey World Job := fun _ h d o =>
  ∀ c, .row c ∈ h → ∀ n r, d.peerEvents.get (c, n) = some r →
    r.expiresAt ≤ o.now + sv.config.peer.journalTtlSeconds * 1000

lemma disciplined_timely : Disciplined sv.prog callEnv (timely sv) := by
  refine disciplined fun j h o d d' hr hd c hl n r hrow => ?_
  rcases hr.peerEvents hl with he | he
  · exact hd c hl n r (he ▸ hrow)
  · rw [he] at hrow
    cases hrow

lemma Steady.allowedRun (h : Steady evs) :
    AllowedRun sv.prog (timely sv) (Sys.init .empty) evs := by
  refine allowedRun_of_forall fun evs1 e evs2 he => ?_
  subst he
  cases e with
  | step i o => exact fun _ _ _ c _ n r hr => expiresAt_le h.le hr
  | start | crash => trivial

lemma Steady.good (h : Steady evs) : Good sv.prog callEnv (timely sv) (sv.run evs) :=
  (good_init dbOk_empty).run disciplined_timely h.allowedRun

/-- Up to the end of the run, this was in the journal under that number at some time. -/
def Sent (sv : CallService) (evs : List CallEvent) (c : CallId) (n : ℕ) (r : PeerEventRow) : Prop :=
  ∃ evs0, evs0 <+: evs ∧ (sv.run evs0).db.peerEvents.get (c, n) = some r

lemma sent_append {e : CallEvent} {n : ℕ} : Sent sv (evs ++ [e]) c n r ↔
    Sent sv evs c n r ∨ (sv.run (evs ++ [e])).db.peerEvents.get (c, n) = some r := by
  constructor
  · rintro ⟨evs0, hpre, hr⟩
    rcases List.prefix_concat_iff.mp hpre with rfl | hpre
    · exact .inr hr
    · exact .inl ⟨evs0, hpre, hr⟩
  · rintro (⟨evs0, hpre, hr⟩ | hr)
    · exact ⟨evs0, hpre.trans (List.prefix_append _ _), hr⟩
    · exact ⟨_, List.prefix_rfl, hr⟩

/-- **The journal is a last part of all that was sent.** -/
theorem ledger_run (h : Steady evs) : Ledger (sv.run evs).db c (Sent sv evs c) := by
  induction evs using List.reverseRecOn with
  | nil =>
    have hnone : ∀ {n r}, ¬ Sent sv [] c n r := by
      rintro n r ⟨evs0, hpre, hr⟩
      rw [List.prefix_nil.mp hpre] at hr
      cases hr
    refine ⟨nofun, fun h => (hnone h).elim, nofun, fun h => (hnone h).elim,
      fun h => (hnone h).elim, fun ns _ hns => ?_⟩
    cases ns with
    | nil => exact Nat.zero_le _
    | cons n ns => exact nomatch hns n List.mem_cons_self
  | append_singleton evs e ih =>
    have hgood : Good sv.prog callEnv (timely sv) (sv.run evs) := h.of_append.good
    have hl := ih h.of_append
    have hrun : sv.run (evs ++ [e]) = (sv.run evs).step sv.prog e := run_append
    rcases hgood.db_step e with he | ⟨i, o, j, p, -, -, hc⟩
    · have hstay : JournalStep sv (fun _ _ => False) (sv.run evs).db (sv.run (evs ++ [e])).db c :=
        .inl (by rw [hrun, he]; exact .refl)
      exact hl.step hstay (fun _ _ => sent_append) nofun
    · exact hl.step (Commits.journalStep hgood.inv.calls (hrun ▸ hc)) (fun _ _ => sent_append)
        fun h o hlock ho => ho c hlock

end PrivChat.Call
