import PrivChat.Call.Journal
import PrivChat.Db.Reading
import PrivChat.Call.Idempotence

/-!
Polling the journal.

A poll reads the journal once, under the lock of its call. What it answers is all that the other
user has ever sent in the current revision after the cursor: where something of that has expired
the poll fails.
-/

namespace PrivChat.Call

open PrivChat.Db Tx CallService

variable {sv : CallService} {d : Db}

/-- What a poll does before it reads the journal. -/
def CallService.pollPre (sv : CallService) (actor : UserId) (device : String)
    (req : CallPeerEventsRequest) : CallTx (StoredCall × Millis) := do
  let stored ← sv.authorizePeer actor device req.callId
  peerRate req.callId actor .events 40
  ensure (req.afterSeq ≤ stored.peerSeq) (.validation "Peer cursor exceeds current sequence")
  let t ← now
  return (stored, t)

/-- The cursor is before what the journal still has. -/
def journalExpired : RpcError :=
  .validation "Peer journal expired; restart negotiation and read after_seq=0"

/-- A reading from the start needs the offer. -/
def offerExpired : RpcError :=
  .validation "Peer offer expired; initiator must restart negotiation"

variable (actor : UserId) (device : String) (req : CallPeerEventsRequest)

/-- What it does with the events it finds. -/
def pollFin (stored : StoredCall) (rows : List (ℕ × PeerEventRow)) : CallTx Answer := do
  let first := (rows.head?.map (·.1)).getD (stored.peerSeq + 1)
  ensure (!(req.afterSeq != 0 && req.afterSeq + 1 < first)) journalExpired
  ensure (!(req.afterSeq == 0 && 0 < stored.peerRevision &&
      !rows.any fun r => r.2.revision == stored.peerRevision && r.2.kind == .offer)) offerExpired
  let events := (rows.filter fun r => req.afterSeq < r.1 && r.2.fromUserId != actor &&
    r.2.revision == stored.peerRevision).map fun r => CallPeerEvent.ofRow r.1 r.2
  done
  return .events ⟨events, stored.peerSeq⟩

lemma prog_poll : sv.prog (.peerEvents actor device req) = sv.pollPre actor device req >>= fun b =>
    .look (fun v s => ∀ n, SameOrGone (v.peerEvents.get (req.callId, n))
      (s.peerEvents.get (req.callId, n))) fun s =>
        pollFin actor req b.1 ((journal req.callId (fun r => b.2 < r.expiresAt) s).take 512) := by
  simp only [prog, CallService.peerEvents, pollPre, bind_assoc, pure_bind]
  rfl

lemma poll_canFail {e : RpcError} (h : (sv.prog (.peerEvents actor device req)).CanFail e) :
    (sv.pollPre actor device req).CanFail e ∨ e = journalExpired ∨ e = offerExpired := by
  rw [prog_poll] at h
  refine (canFail_bind h).imp_right ?_
  rintro ⟨b, s, hf⟩
  exact (canFail_ensure hf).imp_right fun hf => (canFail_ensure hf).resolve_right id

/-! ### What a poll finds -/

variable {p : PeerEventRow → Bool}

lemma nodup_journal {c : CallId} {s : Db} : (journal c p s).Nodup := by
  rw [journal, (List.perm_insertionSort _ _).nodup_iff]
  refine (Table.nodup_select _).map_on fun x hx y hy he => ?_
  obtain ⟨⟨cx, nx⟩, rx⟩ := x
  obtain ⟨⟨cy, ny⟩, ry⟩ := y
  simp only [Table.mem_select, Bool.and_eq_true, beq_iff_eq] at hx hy
  simp only [Prod.mk.injEq] at he ⊢
  exact ⟨⟨hx.2.1.trans hy.2.1.symm, he.1⟩, he.2⟩

lemma journal_sorted {c : CallId} {s : Db} : (journal c p s).Pairwise fun a b => a.1 < b.1 := by
  have hsort : (journal c p s).Pairwise fun a b => a.1 ≤ b.1 := List.pairwise_insertionSort _ _
  refine (hsort.and nodup_journal).imp_of_mem fun {a b} ha hb hab => ?_
  refine lt_of_le_of_ne hab.1 fun hn => hab.2 (Prod.ext hn ?_)
  -- one number has one row
  have hra := (mem_journal.mp ha).1
  rw [hn, (mem_journal.mp hb).1] at hra
  exact (Option.some.inj hra).symm

variable {c : CallId} {S : ℕ → PeerEventRow → Prop}

lemma Ledger.length_journal_le (hl : Ledger d c S) : (journal c p d).length ≤ 512 := by
  have hnd : ((journal c p d).map Prod.fst).Nodup :=
    (List.pairwise_map.mpr journal_sorted).imp fun h => Nat.ne_of_lt h
  have hlen := hl.room _ hnd fun n hn => ?_
  · rwa [List.length_map] at hlen
  · obtain ⟨⟨n, r⟩, hmem, rfl⟩ := List.mem_map.mp hn
    exact Option.isSome_iff_exists.mpr ⟨r, (mem_journal.mp hmem).1⟩

/-- Where an event has not expired, none after it has, and all are there. -/
lemma Ledger.mem_journal (hl : Ledger d c S) {t : Millis} {n m : ℕ} {r r' : PeerEventRow}
    (hr : (n, r) ∈ journal c (fun r => t < r.expiresAt) d) (hnm : n ≤ m) (hr' : S m r') :
    (m, r') ∈ journal c (fun r => t < r.expiresAt) d := by
  obtain ⟨hget, ht⟩ := Call.mem_journal.mp hr
  obtain ⟨hget', hle⟩ := hl.kept hget hnm hr'
  refine Call.mem_journal.mpr ⟨hget', ?_⟩
  simp only [decide_eq_true_eq] at ht ⊢
  exact lt_of_lt_of_le ht hle

lemma journal_congr {v : Db} (h : v.peerEvents = d.peerEvents) (p : PeerEventRow → Bool) :
    journal c p v = journal c p d := by
  unfold journal
  rw [h]

/-- The poll finds every event of the current revision after its cursor, or fails. -/
lemma Ledger.found (hl : Ledger d c S) {t : Millis} {cursor n : ℕ} {r : PeerEventRow}
    (hcur : (cursor != 0 && cursor + 1 < (((journal c (fun r => t < r.expiresAt) d).head?.map
      (·.1)).getD (d.peerSeq c + 1))) = false) (hoffer : (cursor == 0 && 0 < d.peerRevision c &&
      !(journal c (fun r => t < r.expiresAt) d).any fun r =>
        r.2.revision == d.peerRevision c && r.2.kind == .offer) = false)
    (hr : S n r) (hn : cursor < n) (hrev : r.revision = d.peerRevision c) :
    (n, r) ∈ journal c (fun r => t < r.expiresAt) d := by
  have hseq := hl.le_seq hr
  by_cases h0 : cursor = 0
  · -- the offer of the revision is there, and nothing of the revision is older
    have hpos : 0 < d.peerRevision c := by
      rw [← hrev]
      exact Nat.pos_of_ne_zero (hl.revisions hr).1
    have hany : ((journal c (fun r => t < r.expiresAt) d).any fun r =>
        r.2.revision == d.peerRevision c && r.2.kind == .offer) = true := by
      simpa [h0, hpos] using hoffer
    obtain ⟨⟨q, o⟩, hmem, ho⟩ := List.any_eq_true.mp hany
    simp only [Bool.and_eq_true, beq_iff_eq] at ho
    have hget := (Call.mem_journal.mp hmem).1
    have hqn : q ≤ n := by
      by_contra hlt
      have hless := hl.offers hr (by omega) (hl.sent hget) ho.2
      rw [hrev, ho.1] at hless
      exact absurd hless (lt_irrefl _)
    exact hl.mem_journal hmem hqn hr
  · have hfirst : ((journal c (fun r => t < r.expiresAt) d).head?.map (·.1)).getD
        (d.peerSeq c + 1) ≤ cursor + 1 := by
      simpa [h0] using hcur
    rcases hhead : (journal c (fun r => t < r.expiresAt) d).head? with _ | ⟨q, o⟩
    · -- the cursor is at the end
      rw [hhead] at hfirst
      have hlen : d.peerSeq c + 1 ≤ cursor + 1 := hfirst
      omega
    · rw [hhead] at hfirst
      have hq : q ≤ cursor + 1 := hfirst
      exact hl.mem_journal (List.mem_of_head? hhead) (hq.trans hn) hr

/-- The response has, in ascending order of their numbers, exactly those of all the events ever
sent in the call that are of its current revision, from the other user and after the cursor. -/
structure Delivers (sv : CallService) (evs : List CallEvent) (actor : UserId)
    (req : CallPeerEventsRequest) (resp : CallPeerEventsResponse) : Prop where
  nextSeq : resp.nextSeq = (sv.run evs).db.peerSeq req.callId
  increasing : resp.events.Pairwise fun a b => a.seq < b.seq
  mem_iff : ∀ e, e ∈ resp.events ↔ ∃ n r, Sent sv evs req.callId n r ∧ req.afterSeq < n ∧
    r.fromUserId ≠ actor ∧ r.revision = (sv.run evs).db.peerRevision req.callId ∧ e = .ofRow n r

lemma reads_poll {evs : List CallEvent} (hsteady : Steady evs) {actor : UserId} {device : String}
    {req : CallPeerEventsRequest} {W : List LockKey → World → Prop} {M : Answer → Prop}
    (hM : ∀ resp, Delivers sv evs actor req resp → M (.events resp)) :
    Reads W M (sv.prog (.peerEvents actor device req)) (sv.run evs).db [] := by
  have hok : DbOk (sv.run evs).db := good_run.inv
  have hl : Ledger (sv.run evs).db req.callId (Sent sv evs req.callId) := ledger_run hsteady
  rw [prog_poll]
  refine reads_bind ?_
  simp only [pollPre]
  refine wp_authorizePeer fun s v h' hx ha _ _ => wp_peerRate fun rate => ?_
  rw [wp_ensure]
  refine if_then_trivial fun _ => asks_now.wp fun t => .inl ⟨?_, fun s =>
    yields_ensure fun _ => yields_ensure fun _ => trivial⟩
  -- the call has the numbers it had, and so has its journal
  have hsh := hx.sheds hok.calls req.callId
  have hnum := (hx.rewrites hok.calls).1.numbered
  have hseq := hnum.1.trans hsh.seq
  have hrev := hnum.2.trans hsh.revision
  have hevents : (v.putPeerRate ⟨req.callId, actor, .events⟩ rate).peerEvents = _ :=
    (hx.peer ha.running).1
  simp only [pollFin]
  rw [journal_congr hevents, List.take_of_length_le hl.length_journal_le, hseq, hrev]
  refine yields_ensure fun hcur => yields_ensure fun hoffer => hM _ ⟨rfl, ?_, fun e => ?_⟩
  · rw [List.pairwise_map]
    exact journal_sorted.filter _
  · rw [Bool.not_eq_true'] at hcur hoffer
    simp only [List.mem_map, List.mem_filter, Prod.exists, Bool.and_eq_true, decide_eq_true_eq,
      bne_iff_ne, beq_iff_eq]
    constructor
    · rintro ⟨n, r, ⟨hmem, ⟨hn, hfrom⟩, hrev⟩, rfl⟩
      exact ⟨n, r, ⟨evs, List.prefix_rfl, (mem_journal.mp hmem).1⟩, hn, hfrom, hrev, rfl⟩
    · rintro ⟨n, r, hs, hn, hfrom, hrev, rfl⟩
      exact ⟨n, r, ⟨hl.found hcur hoffer hs hn hrev, ⟨hn, hfrom⟩, hrev⟩, rfl⟩

/-- **Peer journal delivery.** In every run in which the clock does not go back, a poll that has
ended was refused before it read the journal, by a check or by the database; or it failed with
one of the two errors that ask to start over; or its response has, in ascending order, all that
the other user had ever sent in the current revision after the cursor, at a moment of the run
when the poll was running. -/
theorem peer_journal_delivery (sv : CallService) (evs : List CallEvent) (hsteady : Steady evs)
    (i : ℕ) (actor : UserId) (device : String) (req : CallPeerEventsRequest)
    (result : Except RpcError Answer)
    (hdone : (sv.run evs).procs i = .finished (.peerEvents actor device req) result) :
    (∃ e, result = .error e ∧ ((sv.pollPre actor device req).CanFail e ∨ .crash i e ∈ evs)) ∨
    (result = .error journalExpired ∨ result = .error offerExpired) ∨
    ∃ resp, result = .ok (.events resp) ∧ ∃ evs1 evs2, evs = evs1 ++ evs2 ∧
      (∃ p, (sv.run evs1).procs i = .running (.peerEvents actor device req) p) ∧
      Delivers sv evs1 actor req resp := by
  have hf : Fated sv.prog (fun a => ∃ resp, a = .events resp ∧ ∃ evs1 evs2, evs = evs1 ++ evs2 ∧
      (∃ p, (sv.run evs1).procs i = .running (.peerEvents actor device req) p) ∧
        Delivers sv evs1 actor req resp)
      (fun e => (sv.prog (.peerEvents actor device req)).CanFail e ∨ .crash i e ∈ evs)
      (.peerEvents actor device req) i (sv.run evs) := by
    refine .run disciplined_timely (good_init dbOk_empty) hsteady.allowedRun (fun _ => id)
      (fun evs1 evs2 p he hp => ?_) (follows_free rfl)
    subst he
    exact reads_poll hsteady.of_append fun resp hd => ⟨resp, rfl, evs1, evs2, rfl, ⟨p, hp⟩, hd⟩
  cases result with
  | ok a =>
    obtain ⟨resp, rfl, hm⟩ := hf.finished _ hdone
    exact .inr (.inr ⟨resp, rfl, hm⟩)
  | error e =>
    rcases hf.finished _ hdone with h | h
    · rcases poll_canFail actor device req h with h | h
      · exact .inl ⟨e, rfl, .inl h⟩
      · exact .inr (.inl (h.imp (congrArg _) (congrArg _)))
    · exact .inl ⟨e, rfl, .inr h⟩

/-- User `2` polls from the start, after user `1` made an offer and sent a candidate. -/
def samplePollJob : Job := .peerEvents 2 "b" ⟨9, 0⟩

def samplePoll : List CallEvent :=
  sampleInvite ++ sampleAnswer ++
    sampleRun 2 (.peerSignal 1 "a" ⟨"c3", 9, 1, .offer, "offer"⟩) 6000 ++
    sampleRun 3 sampleIce 6000 ++ sampleRun 4 samplePollJob 7000

def samplePolled : CallPeerEventsResponse :=
  ⟨[⟨1, 1, .offer, "offer", 1⟩, ⟨2, 1, .ice, "candidate", 1⟩], 2⟩

set_option maxRecDepth 20000 in
lemma samplePoll_result : ((journalService.run samplePoll).procs 4).result.map Except.toOption =
    some (some (.events samplePolled)) := by
  decide

set_option maxRecDepth 20000 in
lemma samplePoll_job : ((journalService.run samplePoll).procs 4).job = some samplePollJob := by
  rfl

set_option maxRecDepth 20000 in
lemma samplePoll_steady : Steady samplePoll := by
  decide

theorem peer_journal_delivery_sample : ∃ evs1 evs2, samplePoll = evs1 ++ evs2 ∧
      Delivers journalService evs1 2 ⟨9, 0⟩ samplePolled := by
  obtain ⟨r, hr, he⟩ := Option.map_eq_some_iff.mp samplePoll_result
  obtain ⟨result, hdone⟩ := Slot.exists_finished samplePoll_job (by rw [hr]; rfl)
  have hres : result = .ok (.events samplePolled) := by
    rw [hdone] at hr
    obtain rfl := Option.some.inj hr
    cases result with
    | error e => cases he
    | ok a => exact congrArg Except.ok (Option.some.inj he)
  subst hres
  rcases peer_journal_delivery journalService samplePoll samplePoll_steady 4 2 "b" ⟨9, 0⟩ _ hdone
    with ⟨e, he, -⟩ | he | ⟨resp, hresp, evs1, evs2, happ, -, hd⟩
  · cases he
  · rcases he with he | he <;> cases he
  · cases hresp
    exact ⟨evs1, evs2, happ, hd⟩

end PrivChat.Call
