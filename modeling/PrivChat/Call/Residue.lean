import PrivChat.Call.Negotiation

/-!
What an ended call leaves in the peer tables: nothing.

The rows there belong to peer calls that go on. The commit that ends a call deletes them all, and
nobody may signal in an ended call.
-/

namespace PrivChat.Call

open PrivChat.Db CallService

variable {sv : CallService} {W : List LockKey → World → Prop} {d v : Db} {c : CallId}
  {s : StoredCall} {row : CallRow} {actor : UserId} {device : String}

/-- The call has an event in the journal, a recorded signal, or a count of attempts. -/
def PeerRow (d : Db) (c : CallId) : Prop :=
  (∃ n r, d.peerEvents.get (c, n) = some r) ∨ (∃ k r, d.peerCommands.get k = some r ∧ r.call = c) ∨
    ∃ k r, d.peerRates.get k = some r ∧ k.call = c

/-- The rows of the peer tables are of peer calls that go on. -/
def Tidy (d : Db) : Prop :=
  ∀ c, PeerRow d c → ∃ row, d.calls.get c = some row ∧ row.document.call.state ≠ .ended ∧
    row.document.call.transport = .webrtc

lemma Swept.peerRow (hs : Swept v d) (hp : PeerRow v c) : PeerRow d c := by
  rcases hp with ⟨n, r, hr⟩ | ⟨k, r, hr, hc⟩ | ⟨k, r, hr, hc⟩
  · exact .inl ⟨n, r, (hs.events _).eq_of_some hr⟩
  · exact .inr (.inl ⟨k, r, (hs.commands k).eq_of_some hr, hc⟩)
  · exact .inr (.inr ⟨k, r, (hs.rates k).eq_of_some hr, hc⟩)

lemma Tidy.swept (hd : Tidy d) (hs : Swept v d) (hv : v.calls = d.calls) : Tidy v :=
  fun c hp => hv ▸ hd c (hs.peerRow hp)

lemma Tidy.saveDb (hd : Tidy d) (ht : ∀ row, d.calls.get s.call.callId = some row →
    s.call.transport = row.document.call.transport) (notify : Bool) (t : Millis) :
    Tidy (saveDb s notify t d) := by
  intro c hp
  obtain ⟨row, hrow, hs, hweb⟩ := hd c ((swept_saveDb .refl).peerRow hp)
  by_cases hc : c = s.call.callId
  · subst hc
    have hweb := (ht row hrow).trans hweb
    refine ⟨⟨s.call.state, s, t⟩, by simp, fun he => ?_, hweb⟩
    rcases hp with ⟨n, r, hr⟩ | ⟨k, r, hr, hk⟩ | ⟨k, r, hr, hk⟩ <;> cases notify <;>
      simp_all [Call.saveDb, Db.clearPeer, Table.get_deleteWhere]
  · exact ⟨row, by simp [hc, hrow], hs, hweb⟩

lemma Tidy.touch (hd : Tidy d) {t : Millis} : Tidy (touch c t d) := by
  intro c' hp
  obtain ⟨row, hrow, hs⟩ := hd c' (Swept.refl.touch.peerRow hp)
  unfold CallService.touch
  split
  · next row' hrow' =>
    by_cases hc : c' = c <;> simp_all
  · exact ⟨row, hrow, hs⟩

lemma Tidy.putPeerRate {k : PeerRateKey} (hd : Tidy d) (hrow : d.calls.get k.call = some row)
    (ha : Authorized actor device row.document) {rate : PeerRateRow} :
    Tidy (d.putPeerRate k rate) := by
  intro c hp
  by_cases hc : c = k.call
  · exact ⟨row, hc ▸ hrow, ha.running, ha.webrtc⟩
  · refine hd c ?_
    rcases hp with hn | hk | ⟨k', r, hr, rfl⟩
    · exact .inl hn
    · exact .inr (.inl hk)
    · have hne : k' ≠ k := fun he => hc (he ▸ rfl)
      exact .inr (.inr ⟨k', r, by simpa [hne] using hr, rfl⟩)

lemma Expired.tidy (hok : CallsOk d) (hd : Tidy d) (hx : Expired sv W d c s v) : Tidy v := by
  cases hx with
  | same => exact hd
  | @expired row h o m t t' hrow hs _ _ _ hl =>
    have he := (Trans.expire row.document m o.now t hs hl).evolves
    obtain ⟨es, heq⟩ := removeLeftDb_eq sv d
    rw [heq]
    refine Tidy.saveDb (d := { d with effects := es }) hd (fun row' hrow' => ?_) true t'
    rw [he.callId, (hok c _ hrow).callId, hrow] at hrow'
    cases hrow'
    exact he.transport

lemma Signal.Made.tidy {x : Signal} {h : List LockKey} (hok : CallsOk d) (hd : Tidy d)
    (hx : x.Made sv W d h) : Tidy (x.db sv) := by
  obtain ⟨row, hrow, hdoc, -⟩ := (hx.rewrites hok).here
  intro c hp
  by_cases hc : c = x.req.callId
  · subst hc
    refine ⟨row, hrow, hdoc ▸ hx.running, ?_⟩
    rw [hdoc, hx.trans.evolves.transport]
    exact hx.authorized.webrtc
  · have hold : PeerRow d c := by
      rcases hp with ⟨n, r, hr⟩ | ⟨k, r, hr, rfl⟩ | ⟨k, r, hr, rfl⟩
      · rw [hx.peerEvents, if_neg fun he => hc (congrArg Prod.fst he)] at hr
        exact .inl ⟨n, r, (Option.filter_eq_some_iff.mp hr).1⟩
      · rw [hx.peerCommands] at hr
        split at hr
        · cases hr
          exact absurd rfl hc
        · exact .inr (.inl ⟨k, r, hr, rfl⟩)
      · rw [hx.peerRates, if_neg fun he => hc (congrArg PeerRateKey.call he)] at hr
        exact .inr (.inr ⟨k, r, hr, rfl⟩)
    obtain ⟨row', hrow', hs⟩ := hd c hold
    exact ⟨row', ((hx.rewrites hok).elsewhere c hc).trans hrow', hs⟩

lemma Committed.tidy {j : Job} {h : List LockKey} {code : CallTx Answer} (hok : CallsOk d)
    (hd : Tidy d) (hc : Committed sv W d j h v code) : Tidy v := by
  cases hc with
  | invite t _ hi => exact hd.saveDb (fun row hrow => nomatch hi.fresh.symm.trans hrow) true t
  | ended hx | get hx => exact hx.tidy hok hd
  | @mutate _ _ _ _ _ s _ final notify v' _ t _ hx _ _ _ hop =>
    have hv := hx.tidy hok hd
    have hv : Tidy v' := by
      obtain ⟨es, rfl⟩ := hop.view
      exact hv
    refine hv.saveDb (fun row hrow => ?_) notify t
    obtain ⟨⟨⟨row', hrow', rfl, -⟩, -⟩, hid⟩ := hx.rewrites hok
    rw [hop.calls, hop.trans.evolves.callId, hid, hrow'] at hrow
    cases hrow
    exact hop.trans.evolves.transport
  | sweepEvents =>
    exact hd.swept ⟨sameOrGone_deleteWhere, fun _ => .refl, fun _ => .refl⟩ rfl
  | sweepCommands =>
    exact hd.swept ⟨fun _ => .refl, sameOrGone_deleteWhere, fun _ => .refl⟩ rfl
  | sweepRates =>
    exact hd.swept ⟨fun _ => .refl, fun _ => .refl, sameOrGone_deleteWhere⟩ rfl
  | sweepOne t hx => exact (hx.tidy hok hd).touch
  | replay _ _ _ hx _ ha | events _ hx _ ha =>
    obtain ⟨⟨⟨row, hrow, rfl, -⟩, -⟩, -⟩ := hx.rewrites hok
    exact (hx.tidy hok hd).putPeerRate hrow ha
  | signal hx => exact hx.tidy hok hd

/-- **An ended call leaves no residue.** Once a call has ended in a run, neither the journal nor the
recorded signals nor the rates have a row of it, then or at any later point. -/
theorem ended_call_leaves_nothing (sv : CallService) (evs evs' : List CallEvent) (c : CallId)
    (call : CallSnapshot) (hcall : (sv.run evs).db.snapshot c = some call)
    (he : call.state = .ended) : ¬ PeerRow (sv.run (evs ++ evs')).db c := by
  intro hp
  have hd : Tidy (sv.run (evs ++ evs')).db := by
    refine run_invariant (fun _ _ _ _ _ _ _ => trivial) ?_
      (fun _ _ _ _ _ hok hc hd => hc.tidy hok.calls hd) _ (allowedRun_any _)
    intro c hp
    simp [PeerRow, Db.empty] at hp
  obtain ⟨row, hrow, rfl⟩ := Option.map_eq_some_iff.mp hcall
  obtain ⟨row', hrow', hev⟩ := calls_evolve c row hrow
  obtain ⟨row'', hrow'', hs, -⟩ := hd c hp
  obtain rfl := Option.some.inj (hrow'.symm.trans hrow'')
  exact hs (hev.state.eq_ended he)

/-- User `1` ends the call after the negotiation. -/
def sampleEnd : List CallEvent :=
  sampleNegotiation ++ sampleRun 4 (.mutate .end 1 "a" ⟨true, "c5", 9⟩) 8000

set_option maxRecDepth 20000 in
lemma sampleEnd_state :
    ((sampleService.run sampleEnd).db.snapshot 9).map (·.state) = some .ended := by
  decide

theorem ended_call_leaves_nothing_sample :
    ¬ PeerRow (sampleService.run (sampleEnd ++ [])).db 9 := by
  obtain ⟨call, hcall, he⟩ := Option.map_eq_some_iff.mp sampleEnd_state
  exact ended_call_leaves_nothing sampleService sampleEnd [] 9 call hcall he

end PrivChat.Call
