import PrivChat.Call.Claims
import PrivChat.Call.Journal

/-!
The outbox of the call service: what a commit has to tell the participants, the history and the
media server is in the table of effects.

The table drops an effect that is there already. `Fits` says what the table can hold while a call
is what it is, and `Covered` what it does hold. So whatever a change of the call has to tell is
there after it, and was not there before.
-/

namespace PrivChat.Call

open PrivChat.Db CallService

variable {sv : CallService} {W : List LockKey → World → Prop} {d d' d'' v v1 : Db} {c : CallId}
  {e : Effect} {s s' : StoredCall}

/-! ### The table of effects -/

lemma mem_addEffect {e f : Effect} : e ∈ (v.addEffect f).effects ↔ e ∈ v.effects ∨ e = f := by
  rw [Db.addEffect_effects]
  split
  · rename_i hf
    exact ⟨.inl, fun h => h.elim id fun he => he ▸ hf⟩
  · rw [List.mem_append, List.mem_singleton]

lemma nodup_addEffect (hn : v.effects.Nodup) {f : Effect} : (v.addEffect f).effects.Nodup := by
  rw [Db.addEffect_effects]
  split
  · exact hn
  · rename_i hf
    rw [List.nodup_append]
    refine ⟨hn, List.nodup_singleton f, fun a ha b hb hab => hf ?_⟩
    rwa [← List.mem_singleton.mp hb, ← hab]

lemma mem_saveDb {notify : Bool} {t : Millis} : e ∈ (saveDb s notify t v).effects ↔ e ∈ v.effects ∨
      notify = true ∧ e = ⟨s.call.callId, s.call.version, .state⟩ ∨
      s.call.state = .ended ∧ (e = ⟨s.call.callId, s.call.version, .history⟩ ∨
        s.call.transport = .livekit ∧ e = ⟨s.call.callId, s.call.version, .deleteRoom⟩) := by
  unfold saveDb Db.clearPeer
  cases notify <;> by_cases hs : s.call.state = .ended <;>
    by_cases hl : s.call.transport = .livekit <;>
    simp [hs, hl, mem_addEffect, or_assoc, -Db.addEffect_effects]

lemma nodup_addEffect_if {p : Prop} [Decidable p] (hn : v.effects.Nodup) {f : Effect} :
    (if p then v.addEffect f else v).effects.Nodup := by
  split
  · exact nodup_addEffect hn
  · exact hn

lemma nodup_saveDb {notify : Bool} {t : Millis}
    (hn : v.effects.Nodup) : (saveDb s notify t v).effects.Nodup := by
  have hput : ∀ r, (v.putCall s.call.callId r).effects.Nodup := fun _ => hn
  unfold saveDb
  dsimp only
  split
  · split
    · exact nodup_addEffect (nodup_addEffect (nodup_addEffect_if (hput _)))
    · exact nodup_addEffect (nodup_addEffect_if (hput _))
  · exact nodup_addEffect_if (hput _)

lemma mem_removeDb (sv : CallService) (s : StoredCall) (v : Db) (p : CallParticipant)
    (e : Effect) : e ∈ (removeDb sv s v p).effects ↔ e ∈ v.effects ∨
      ∃ claim, s.claims.get p.userId = some claim ∧ p.state = .left ∧
        s.call.transport = .livekit ∧ e = ⟨s.call.callId, s.call.version,
          .removeParticipant (sv.identity s.call.callId p.userId claim.device)⟩ := by
  unfold removeDb
  cases hc : s.claims.get p.userId with
  | none => simp
  | some claim =>
    by_cases hl : p.state = .left ∧ s.call.transport = .livekit
    · simp [hl, mem_addEffect, -Db.addEffect_effects]
    · simp only [hl, if_false, Option.some.injEq, exists_eq_left']
      exact ⟨.inl, fun h => h.elim id fun h => absurd ⟨h.1, h.2.1⟩ hl⟩

lemma mem_removeLeftDb : e ∈ (removeLeftDb sv s v).effects ↔ e ∈ v.effects ∨
      ∃ p ∈ s.call.participants, ∃ claim, s.claims.get p.userId = some claim ∧
        p.state = .left ∧ s.call.transport = .livekit ∧ e = ⟨s.call.callId, s.call.version,
          .removeParticipant (sv.identity s.call.callId p.userId claim.device)⟩ := by
  unfold removeLeftDb
  induction s.call.participants generalizing v with
  | nil => simp
  | cons p ps ih =>
    rw [List.foldl_cons, ih, mem_removeDb, or_assoc]
    simp

lemma nodup_removeLeftDb (hn : v.effects.Nodup) : (removeLeftDb sv s v).effects.Nodup := by
  unfold removeLeftDb
  induction s.call.participants generalizing v with
  | nil => exact hn
  | cons p ps ih =>
    refine ih ?_
    unfold removeDb
    split
    · exact nodup_addEffect_if hn
    · exact hn

/-! ### What is told -/

/-- The effect may be in the table while the call is `call`. -/
structure Effect.Fits (sv : CallService) (call : CallSnapshot) (e : Effect) : Prop where
  version : e.version ≤ call.version
  ended : e.kind = .history ∨ e.kind = .deleteRoom →
    call.state = .ended ∧ e.version = call.version
  gone : ∀ id, e.kind = .removeParticipant id →
    ∃ u device, id = sv.identity e.call u device ∧ stateOf u call.participants = some .left

structure Covered (sv : CallService) (d : Db) (c : CallId) (s : StoredCall) : Prop where
  state : ⟨c, s.call.version, .state⟩ ∈ d.effects
  ended : s.call.state = .ended → ⟨c, s.call.version, .history⟩ ∈ d.effects ∧
    (s.call.transport = .livekit → ⟨c, s.call.version, .deleteRoom⟩ ∈ d.effects)
  gone : s.call.transport = .livekit → s.call.state ≠ .ended → ∀ u claim,
    stateOf u s.call.participants = some .left → s.claims.get u = some claim →
    ∃ version, ⟨c, version, .removeParticipant (sv.identity c u claim.device)⟩ ∈ d.effects

/-- The table of effects is about the calls there are, and about all of them. -/
structure Outbox (sv : CallService) (d : Db) : Prop where
  nodup : d.effects.Nodup
  fits : ∀ e ∈ d.effects, ∃ row, d.calls.get e.call = some row ∧ e.Fits sv row.document.call
  covers : ∀ c row, d.calls.get c = some row → Covered sv d c row.document

/-- The effect is put in the table between `d` and `d'`: it was not there already. -/
def Inserted (d d' : Db) (e : Effect) : Prop := e ∉ d.effects ∧ e ∈ d'.effects

structure Told (sv : CallService) (d d' : Db) : Prop where
  /-- no effect is lost -/
  kept : ∀ e ∈ d.effects, e ∈ d'.effects
  /-- a new call or version is told to the participants -/
  state : ∀ c call', d'.snapshot c = some call' →
    (∀ call, d.snapshot c = some call → call.version ≠ call'.version) →
    Inserted d d' ⟨c, call'.version, .state⟩
  /-- a call that has ended is told to the history, and to the media server -/
  ended : ∀ c call', d'.snapshot c = some call' → call'.state = .ended →
    (∀ call, d.snapshot c = some call → call.state ≠ .ended) →
    ∃ version, Inserted d d' ⟨c, version, .history⟩ ∧
      (call'.transport = .livekit → Inserted d d' ⟨c, version, .deleteRoom⟩)
  /-- a participant who has left a call that goes on is told to the media server -/
  left : ∀ c call call' u claim, d.snapshot c = some call → d'.snapshot c = some call' →
    call.transport = .livekit → call'.state ≠ .ended →
    stateOf u call.participants = some .joined → stateOf u call'.participants = some .left →
    d.claimOf c u = some claim →
    ∃ version, Inserted d d' ⟨c, version, .removeParticipant (sv.identity c u claim.device)⟩

lemma snapshot_of_get {row : CallRow} (hrow : d.calls.get c = some row) :
    d.snapshot c = some row.document.call := by
  rw [Db.snapshot, hrow]
  rfl

lemma CallsEvolve.at {row row' : CallRow} (he : CallsEvolve d d') (hrow : d.calls.get c = some row)
    (hrow' : d'.calls.get c = some row') : Evolves row.document row'.document := by
  obtain ⟨row2, hrow2, hev⟩ := he c row hrow
  rw [hrow'] at hrow2
  rwa [Option.some.inj hrow2]

/-- With hashes that tell identities apart, what the tables hold at two points is what has to be
told between them. -/
lemma Outbox.told (hsha : Function.Injective sv.ext.sha256) (hb : Outbox sv d) (hb' : Outbox sv d')
    (hk : ∀ e ∈ d.effects, e ∈ d'.effects) (he : CallsEvolve d d') : Told sv d d' where
  kept := hk
  state c call' hcall' hnew := by
    obtain ⟨row', hrow', rfl⟩ := Option.map_eq_some_iff.mp hcall'
    refine ⟨fun hold => ?_, (hb'.covers c row' hrow').state⟩
    obtain ⟨row, hrow, hf⟩ := hb.fits _ hold
    have hle := hf.version
    rcases (he.at hrow hrow').version with hc | hlt
    · exact hnew _ (snapshot_of_get hrow) (by rw [hc])
    · exact absurd hle (Nat.not_le.mpr hlt)
  ended c call' hcall' hend hnew := by
    obtain ⟨row', hrow', rfl⟩ := Option.map_eq_some_iff.mp hcall'
    have hout : ∀ k, k = .history ∨ k = .deleteRoom →
        (⟨c, row'.document.call.version, k⟩ : Effect) ∉ d.effects := by
      intro k hk hold
      obtain ⟨row, hrow, hf⟩ := hb.fits _ hold
      exact hnew _ (snapshot_of_get hrow) (hf.ended hk).1
    obtain ⟨hist, hroom⟩ := (hb'.covers c row' hrow').ended hend
    exact ⟨_, ⟨hout _ (.inl rfl), hist⟩, fun hl => ⟨hout _ (.inr rfl), hroom hl⟩⟩
  left c call call' u claim hcall hcall' hl hend hj hleft hclaim := by
    obtain ⟨row, hrow, rfl⟩ := Option.map_eq_some_iff.mp hcall
    obtain ⟨row', hrow', rfl⟩ := Option.map_eq_some_iff.mp hcall'
    have hev := he.at hrow hrow'
    rw [Db.claimOf, hrow] at hclaim
    obtain ⟨claim', hclaim', hdev⟩ := hev.claims u claim hclaim
    obtain ⟨version, hin⟩ := (hb'.covers c row' hrow').gone (hev.transport.trans hl) hend u claim'
      hleft hclaim'
    refine ⟨version, fun hold => ?_, hdev ▸ hin⟩
    -- the table told only of those who were gone
    obtain ⟨row2, hrow2, hf⟩ := hb.fits _ hold
    rw [hrow] at hrow2
    obtain rfl := Option.some.inj hrow2
    obtain ⟨w, dev, hident, hgone⟩ := hf.gone _ rfl
    have hpre := hsha hident
    simp only [Preimage.identity.injEq] at hpre
    rw [← hpre.2.1, hj] at hgone
    cases hgone

/-- The change from `d` to `d'` loses no effect, and tells what it does. -/
structure Announces (sv : CallService) (d d' : Db) : Prop where
  kept : ∀ e ∈ d.effects, e ∈ d'.effects
  outbox : Outbox sv d → Outbox sv d'

lemma Announces.trans (h : Announces sv d d') (h' : Announces sv d' d'') : Announces sv d d'' :=
  ⟨fun e he => h'.kept e (h.kept e he), fun hd => h'.outbox (h.outbox hd)⟩

lemma Covered.mono (h : Covered sv d c s) (hk : ∀ e ∈ d.effects, e ∈ d'.effects) :
    Covered sv d' c s :=
  ⟨hk _ h.state, fun hs => ⟨hk _ (h.ended hs).1, fun hl => hk _ ((h.ended hs).2 hl)⟩,
    fun hl hs u claim hu hc => (h.gone hl hs u claim hu hc).imp fun _ => hk _⟩

lemma announces_of_eq (hc : d'.calls = d.calls) (heff : d'.effects = d.effects) :
    Announces sv d d' := by
  have hk : ∀ e ∈ d.effects, e ∈ d'.effects := fun e he => heff ▸ he
  refine ⟨hk, fun hb => ⟨heff ▸ hb.nodup, fun e he => ?_, fun c row hrow => ?_⟩⟩
  · rw [hc]
    exact hb.fits e (heff ▸ he)
  · rw [hc] at hrow
    exact (hb.covers c row hrow).mono hk

lemma Announces.refl (d : Db) : Announces sv d d := announces_of_eq rfl rfl

/-- One call is written. What the table held of it still fits, what it holds now does, and is all
there is to tell. -/
lemma announces_put (row' : CallRow)
    (hget : ∀ c1, d'.calls.get c1 = if c1 = c then some row' else d.calls.get c1)
    (hk : ∀ e ∈ d.effects, e ∈ d'.effects) (hn : d.effects.Nodup → d'.effects.Nodup)
    (hnew : ∀ e ∈ d'.effects, e ∈ d.effects ∨ e.call = c ∧ e.Fits sv row'.document.call)
    (hold : ∀ row, d.calls.get c = some row → ∀ e : Effect, e.Fits sv row.document.call →
      e.Fits sv row'.document.call)
    (hcov : (∀ row, d.calls.get c = some row → Covered sv d' c row.document) →
      Covered sv d' c row'.document) : Announces sv d d' := by
  refine ⟨hk, fun hb => ⟨hn hb.nodup, fun e he => ?_, fun c1 row hrow => ?_⟩⟩
  · rcases hnew e he with he | ⟨rfl, hf⟩
    · obtain ⟨row, hrow, hf⟩ := hb.fits e he
      by_cases hc : e.call = c
      · exact ⟨row', by rw [hget, if_pos hc], hold row (hc ▸ hrow) e hf⟩
      · exact ⟨row, by rw [hget, if_neg hc, hrow], hf⟩
    · exact ⟨row', by rw [hget, if_pos rfl], hf⟩
  · rw [hget] at hrow
    split at hrow
    · rename_i hc
      rw [hc, ← Option.some.inj hrow]
      exact hcov fun row hrow => (hb.covers c row hrow).mono hk
    · exact (hb.covers c1 row hrow).mono hk

/-! ### Saving a call that has changed -/

/-- The media server is told of those who part between the calls `s` and `s'`, and of nobody
else. -/
structure Departs (sv : CallService) (s s' : StoredCall) (v v1 : Db) : Prop where
  nodup : v.effects.Nodup → v1.effects.Nodup
  kept : ∀ e ∈ v.effects, e ∈ v1.effects
  only : ∀ e ∈ v1.effects, e ∈ v.effects ∨ e.call = s.call.callId ∧
    e.version ≤ s'.call.version ∧ ∃ u device,
      e.kind = .removeParticipant (sv.identity s.call.callId u device) ∧
      stateOf u s'.call.participants = some .left
  told : s'.call.transport = .livekit → s'.call.state ≠ .ended → ∀ u claim,
    stateOf u s'.call.participants = some .left → s'.claims.get u = some claim →
    stateOf u s.call.participants = some .left ∧ s.claims.get u = some claim ∨
    ∃ version, ⟨s.call.callId, version,
      .removeParticipant (sv.identity s.call.callId u claim.device)⟩ ∈ v1.effects

lemma Trans.running (h : Trans s s') : s.call.state ≠ .ended := by
  cases h with
  | expire _ _ _ hs | join _ _ _ _ _ hs | heartbeat _ _ _ hs | reject _ _ hs | leave _ _ _ hs
  | signal _ _ hs => exact hs
  | cancel _ hs => rw [hs]; decide

lemma Effect.Fits.trans (ht : Trans s s') (hf : e.Fits sv s.call) : e.Fits sv s'.call := by
  refine ⟨hf.version.trans ?_, fun hk => absurd (hf.ended hk).1 ht.running, fun id hid => ?_⟩
  · rcases ht.evolves.version with hc | hlt
    · rw [hc]
    · exact hlt.le
  · obtain ⟨u, device, he, hleft⟩ := hf.gone id hid
    obtain ⟨b, hb, hmove⟩ := moves_stateOf ht.evolves.participants hleft
    cases hmove with
    | refl => exact ⟨u, device, he, hb⟩
    | leave hlive => cases hlive

section Saving

variable {row : CallRow} (hrow : v.calls.get c = some row) (hid : row.document.call.callId = c)
  (ht : Trans row.document s') (hcalls : v1.calls = v.calls)

include hrow hid ht hcalls

omit hrow in
lemma get_saveDb {notify : Bool} {t : Millis} (c1 : CallId) :
    (saveDb s' notify t v1).calls.get c1 =
      if c1 = c then some ⟨s'.call.state, s', t⟩ else v.calls.get c1 := by
  rw [saveDb_calls, ht.evolves.callId, hid, hcalls]
  split
  · rename_i hc
    rw [hc, Table.get_put_self]
  · exact Table.get_put_of_ne _ ‹_›

lemma announces_saveDb (hdep : Departs sv row.document s' v v1) (t : Millis) :
    Announces sv v (saveDb s' true t v1) := by
  have hid' : s'.call.callId = c := ht.evolves.callId.trans hid
  have hmem : ∀ e, e ∈ v1.effects → e ∈ (saveDb s' true t v1).effects :=
    fun e he => mem_saveDb.mpr (.inl he)
  refine announces_put _ (get_saveDb hid ht hcalls) (fun e he => hmem e (hdep.kept e he))
    (fun hn => nodup_saveDb (hdep.nodup hn)) (fun e he => ?_) (fun row1 hrow1 e hf => ?_)
    fun hcov => ⟨?_, fun hend => ⟨?_, fun hl => ?_⟩, fun hl hs u claim hleft hclaim => ?_⟩
  · rcases mem_saveDb.mp he with he | ⟨-, rfl⟩ | ⟨hend, rfl | ⟨-, rfl⟩⟩
    · refine (hdep.only e he).imp_right ?_
      rintro ⟨hcall, hle, u, device, hk, hleft⟩
      refine ⟨hcall.trans hid, hle, fun h => ?_, fun id hid1 => ⟨u, device, ?_, hleft⟩⟩
      · rw [hk] at h
        rcases h with h | h <;> cases h
      · rw [hk] at hid1
        rw [hcall]
        exact (EffectKind.removeParticipant.inj hid1).symm
    · exact .inr ⟨hid', le_rfl, fun h => by simp at h, fun id h => by cases h⟩
    · exact .inr ⟨hid', le_rfl, fun _ => ⟨hend, rfl⟩, fun id h => by cases h⟩
    · exact .inr ⟨hid', le_rfl, fun _ => ⟨hend, rfl⟩, fun id h => by cases h⟩
  · rw [hrow] at hrow1
    obtain rfl := Option.some.inj hrow1
    exact hf.trans ht
  · exact mem_saveDb.mpr (.inr (.inl ⟨rfl, by rw [hid']⟩))
  · exact mem_saveDb.mpr (.inr (.inr ⟨hend, .inl (by rw [hid'])⟩))
  · exact mem_saveDb.mpr (.inr (.inr ⟨hend, .inr ⟨hl, by rw [hid']⟩⟩))
  · rcases hdep.told hl hs u claim hleft hclaim with ⟨hleft, hclaim⟩ | ⟨version, hin⟩
    · have hl' := ht.evolves.transport.symm.trans hl
      exact (hcov row hrow).gone hl' ht.running u claim hleft hclaim
    · exact ⟨version, hmem _ (hid ▸ hin)⟩

lemma announces_saveDb_quiet (hcall : s'.call = row.document.call)
    (hleft : SameLeft row.document s') (heff : v1.effects = v.effects) (t : Millis) :
    Announces sv v (saveDb s' false t v1) := by
  have hrun : s'.call.state ≠ .ended := hcall ▸ ht.running
  have hsame : (saveDb s' false t v1).effects = v.effects := by
    unfold saveDb
    simp only [hrun, if_false, Bool.false_eq_true]
    exact heff
  refine announces_put _ (get_saveDb hid ht hcalls) (fun e he => hsame ▸ he)
    (fun hn => hsame ▸ hn) (fun e he => .inl (hsame ▸ he)) (fun row1 hrow1 e hf => ?_)
    fun hcov => ?_
  · rw [hrow] at hrow1
    obtain rfl := Option.some.inj hrow1
    exact hf.trans ht
  · obtain ⟨hstate, hended, hgone⟩ := hcov row hrow
    rw [← hcall] at hstate hended hgone
    refine ⟨hstate, hended, fun hl hs u claim hu hclaim => ?_⟩
    obtain ⟨-, hsame⟩ := hleft u hu
    exact hgone hl hs u claim hu (hsame ▸ hclaim)

end Saving

lemma announces_new (hnone : d.calls.get s.call.callId = none) (hs : s.call.state ≠ .ended)
    (hstay : ∀ u, stateOf u s.call.participants ≠ some .left) (t : Millis) :
    Announces sv d (saveDb s true t d) := by
  have heff : ∀ e, e ∈ (saveDb s true t d).effects ↔
      e ∈ d.effects ∨ e = ⟨s.call.callId, s.call.version, .state⟩ := by
    intro e
    rw [mem_saveDb]
    simp [hs]
  refine announces_put (c := s.call.callId) ⟨s.call.state, s, t⟩ (fun c1 => ?_)
    (fun e he => (heff e).mpr (.inl he)) nodup_saveDb (fun e he => ?_) (fun row hrow => ?_)
    fun _ => ⟨(heff _).mpr (.inr rfl), fun hend => absurd hend hs,
      fun _ _ u claim hleft => absurd hleft (hstay u)⟩
  · rw [saveDb_calls]
    split
    · rename_i hc
      rw [hc, Table.get_put_self]
    · exact Table.get_put_of_ne _ ‹_›
  · refine ((heff e).mp he).imp_right ?_
    rintro rfl
    exact ⟨rfl, le_rfl, fun h => by simp at h, fun id h => by cases h⟩
  · rw [hnone] at hrow
    cases hrow

lemma departs_stays (s' : StoredCall) (hstay : s'.call.state ≠ .ended → SameLeft s s') (v : Db) :
    Departs sv s s' v v where
  nodup := id
  kept _ := id
  only _ := .inl
  told _ hs u claim hu hclaim := by
    obtain ⟨hleft, hsame⟩ := hstay hs u hu
    exact .inl ⟨hleft, hsame ▸ hclaim⟩

lemma departs_expire {m : Members} {current t : Millis} (hw : WellFormed s)
    (ht : Trans s (expireCall m current t s)) :
    Departs sv s (expireCall m current t s) v (removeLeftDb sv (expireCall m current t s) v) := by
  have hid := ht.evolves.callId
  refine ⟨nodup_removeLeftDb, fun e he => mem_removeLeftDb.mpr (.inl he),
    fun e he => ?_, fun hl _ u claim hleft hclaim => .inr ?_⟩
  · refine (mem_removeLeftDb.mp he).imp_right ?_
    rintro ⟨p, hp, claim, -, hleft, -, rfl⟩
    refine ⟨hid, le_rfl, p.userId, claim.device, by rw [hid], ?_⟩
    rw [stateOf_of_mem (ht.wellFormed hw).nodup hp, hleft]
  · obtain ⟨p, hp, rfl, hpl⟩ := stateOf_mem hleft
    exact ⟨_, mem_removeLeftDb.mpr (.inr ⟨p, hp, claim, hclaim, hpl, hl, by rw [hid]⟩)⟩

variable {actor : UserId} {device : String}

lemma departs_leave (hown : s.owns actor device = true)
    (hj : stateOf actor s.call.participants = some .joined) :
    Departs sv s ((s.setParticipant actor .left).bump true) v
      (v.addEffect ⟨s.call.callId, s.call.version,
        .removeParticipant (sv.identity s.call.callId actor device)⟩) := by
  have hset : ∀ u, stateOf u ((s.setParticipant actor .left).bump true).call.participants =
      if u = actor then some .left else stateOf u s.call.participants := by
    intro u
    refine stateOf_setState.trans ?_
    rw [hj]
    rfl
  refine ⟨fun hn => nodup_addEffect hn, fun e he => mem_addEffect.mpr (.inl he),
    fun e he => ?_, fun _ _ u claim hleft hclaim => ?_⟩
  · refine (mem_addEffect.mp he).imp_right ?_
    rintro rfl
    exact ⟨rfl, Nat.le_succ _, actor, device, rfl, by rw [hset, if_pos rfl]⟩
  · by_cases hu : u = actor
    · subst hu
      obtain ⟨claim', hclaim', rfl⟩ := owns_iff.mp hown
      have he : claim = claim' := Option.some.inj (hclaim.symm.trans hclaim')
      exact .inr ⟨_, mem_addEffect.mpr (.inr (by rw [he]))⟩
    · rw [hset, if_neg hu] at hleft
      exact .inl ⟨hleft, hclaim⟩

/-! ### One commit -/

lemma Expired.announces (hok : CallsOk d) (hx : Expired sv W d c s v) : Announces sv d v := by
  cases hx with
  | same => exact .refl d
  | @expired row h o m t t' hrow hs _ _ _ hl =>
    have ht := Trans.expire row.document m o.now t hs hl
    have hr := hok c row hrow
    exact announces_saveDb hrow hr.callId ht (removeLeftDb_calls _ _)
      (departs_expire hr.wellFormed ht) t'

variable {final : StoredCall} {h : List LockKey} {route : Route} {j : Job}

lemma Operates.announces {notify : Bool} (hok : CallsOk d) (hx : Expired sv W d c s v)
    (hp : Operates sv actor device s route final notify v v1) {k : CommandKey} {r : CommandRow}
    {t : Millis} : Announces sv d ((saveDb (final.bump notify) notify t v1).putCommand k r) := by
  obtain ⟨hr, hid⟩ := hx.rewrites hok
  obtain ⟨row, hrow, rfl, -⟩ := hr.here
  have hput : Announces sv (saveDb (final.bump notify) notify t v1)
      ((saveDb (final.bump notify) notify t v1).putCommand k r) := announces_of_eq rfl rfl
  refine (hx.announces hok).trans (Announces.trans ?_ hput)
  cases notify with
  | false =>
    obtain ⟨hcall, rfl⟩ := hp.quiet rfl
    refine announces_saveDb_quiet hrow hid hp.trans rfl hcall ?_ rfl t
    cases hp.parting with
    | stays _ hstay => exact hstay (hcall ▸ hp.trans.running)
    | leaves _ _ hj hf =>
      have hleft : stateOf actor final.call.participants = some .left := by
        rw [hf]
        exact stateOf_setState.trans (by rw [if_pos rfl, hj]; rfl)
      rw [hcall, hj] at hleft
      cases hleft
  | true =>
    refine announces_saveDb hrow hid hp.trans hp.calls ?_ t
    cases hp.parting with
    | stays hv hstay =>
      subst hv
      exact departs_stays (final.bump true) hstay v1
    | leaves hv hown hj hf =>
      subst hv hf
      exact departs_leave hown hj

lemma announces_touch {t : Millis} : Announces sv d (touch c t d) := by
  unfold CallService.touch
  split
  · rename_i row hrow
    refine announces_put (c := c) { row with updatedAt := t } (fun c1 => ?_)
      (fun _ => id) id (fun _ => .inl) (fun row1 hrow1 e hf => ?_) fun hcov => hcov row hrow
    · rw [Db.putCall_calls]
      split
      · rename_i hc
        rw [hc, Table.get_put_self]
      · exact Table.get_put_of_ne _ ‹_›
    · rw [hrow] at hrow1
      obtain rfl := Option.some.inj hrow1
      exact hf
  · exact .refl d

lemma Signal.Made.announces {x : Signal} (hok : CallsOk d) (hx : x.Made sv W d h) :
    Announces sv d (x.db sv) := by
  obtain ⟨hr, hid⟩ := hx.expired.rewrites hok
  obtain ⟨row, hrow, hdoc, -⟩ := hr.here
  obtain ⟨-, hcall, hclaims⟩ := hx.negotiates.same
  have hleft : SameLeft row.document x.stored := by
    rw [hdoc]
    exact fun u hu => ⟨hcall ▸ hu, congrArg (Table.get · u) hclaims⟩
  -- neither the calls nor the effects are in the tables that adding the signal changes
  refine (hx.expired.announces hok).trans (announces_saveDb_quiet hrow (hdoc ▸ hid)
    (hdoc ▸ hx.trans) ?_ (hdoc ▸ hcall) hleft ?_ x.saved) <;> rfl

lemma Committed.announces {code : CallTx Answer} (hok : CallsOk d)
    (hc : Committed sv W d j h v code) : Announces sv d v := by
  cases hc with
  | @invite actor device req _ s t t' hi =>
    obtain ⟨kind, m, t0, -, -, -, -, hs⟩ := hi.made
    have hstay : ∀ u, stateOf u s.call.participants ≠ some .left := by
      intro u hu
      obtain ⟨p, hp, -, hleft⟩ := stateOf_mem hu
      rw [hs] at hp
      obtain ⟨w, -, rfl⟩ := List.mem_map.mp hp
      dsimp only at hleft
      split at hleft <;> cases hleft
    exact (announces_new hi.fresh (by rw [hs]; nofun) hstay t).trans (announces_of_eq rfl rfl)
  | ended hx | get hx => exact hx.announces hok
  | mutate t t' hx _ _ _ hop => exact hop.announces hok hx
  | replay _ _ _ hx | events _ hx => exact (hx.announces hok).trans (announces_of_eq rfl rfl)
  | signal hx => exact hx.announces hok
  | sweepEvents | sweepCommands | sweepRates => exact announces_of_eq rfl rfl
  | sweepOne t hx => exact (hx.announces hok).trans announces_touch

/-! ### Whole runs -/

lemma announces_run (evs evs' : List CallEvent) :
    Announces sv (sv.run evs).db (sv.run (evs ++ evs')).db :=
  run_between Announces.refl Announces.trans fun _ _ _ _ _ hok hc => hc.announces hok.calls

lemma outbox_run (evs : List CallEvent) : Outbox sv (sv.run evs).db := by
  have hempty : Outbox sv (sv.run []).db :=
    ⟨List.nodup_nil, fun e he => (List.not_mem_nil he).elim, fun c row hrow => by cases hrow⟩
  exact (announces_run [] evs).outbox hempty

def Db.effectsOf (d : Db) (c : CallId) (kind : EffectKind) : List Effect :=
  d.effects.filter fun e => e.call = c ∧ e.kind = kind

lemma Outbox.history_unique (hb : Outbox sv d) {n : ℕ}
    (hn : (⟨c, n, .history⟩ : Effect) ∈ d.effects) :
    d.effectsOf c .history = [⟨c, n, .history⟩] := by
  have hall : ∀ e ∈ d.effectsOf c .history, e = ⟨c, n, .history⟩ := by
    intro e he
    have hmem := List.mem_filter.mp he
    have hk : e.call = c ∧ e.kind = .history := by simpa using hmem.2
    obtain ⟨row, hrow, hf⟩ := hb.fits e hmem.1
    obtain ⟨row', hrow', hf'⟩ := hb.fits _ hn
    rw [hk.1, hrow'] at hrow
    obtain rfl := Option.some.inj hrow
    have hv : e.version = n := (hf.ended (.inl hk.2)).2.trans (hf'.ended (.inl rfl)).2.symm
    cases e
    simp_all
  have hnd : (d.effectsOf c .history).Nodup := hb.nodup.filter _
  have hin : (⟨c, n, .history⟩ : Effect) ∈ d.effectsOf c .history :=
    List.mem_filter.mpr ⟨hn, by simp⟩
  have hrep := List.eq_replicate_of_mem hall
  have hlen : (d.effectsOf c .history).length = 1 := by
    have hle : (d.effectsOf c .history).length ≤ 1 := by
      rw [hrep] at hnd
      exact List.nodup_replicate.mp hnd
    have hpos := List.length_pos_of_mem hin
    omega
  rw [hrep, hlen]
  rfl

/-- **Effects are complete.** In every run with hashes that do not collide: what was committed of a
call at any point has its state effect, then and ever after; a call that has ended has one history
effect, and a call over the media server also one that deletes the room. Between any two points
of the run, what happened to a call was told by effects that were not in the table before, each
participant's departure from a call over the media server by one of their own. -/
theorem effects_complete (sv : CallService) (hsha : Function.Injective sv.ext.sha256)
    (evs evs' : List CallEvent) : (∀ c call, (sv.run evs).db.snapshot c = some call →
      ⟨c, call.version, .state⟩ ∈ (sv.run (evs ++ evs')).db.effects) ∧
    (∀ c call, (sv.run evs).db.snapshot c = some call → call.state = .ended →
      ((sv.run evs).db.effectsOf c .history).length = 1 ∧
      (call.transport = .livekit → (sv.run evs).db.effectsOf c .deleteRoom ≠ [])) ∧
    Told sv (sv.run evs).db (sv.run (evs ++ evs')).db ∧
    ∀ c u device u' device', sv.identity c u device = sv.identity c u' device' → u = u' := by
  have hb : Outbox sv (sv.run evs).db := outbox_run evs
  have hrun : Announces sv (sv.run evs).db (sv.run (evs ++ evs')).db := announces_run evs evs'
  refine ⟨fun c call hcall => ?_, fun c call hcall hend => ?_,
    hb.told hsha (hrun.outbox hb) hrun.kept calls_evolve, fun c u dev u' dev' he => ?_⟩
  · obtain ⟨row, hrow, rfl⟩ := Option.map_eq_some_iff.mp hcall
    exact hrun.kept _ (hb.covers c row hrow).state
  · obtain ⟨row, hrow, rfl⟩ := Option.map_eq_some_iff.mp hcall
    obtain ⟨hist, hroom⟩ := (hb.covers c row hrow).ended hend
    refine ⟨by rw [hb.history_unique hist]; rfl, fun hl he => ?_⟩
    have hin : (⟨c, row.document.call.version, .deleteRoom⟩ : Effect) ∈
        (sv.run evs).db.effectsOf c .deleteRoom := List.mem_filter.mpr ⟨hroom hl, by simp⟩
    rw [he] at hin
    cases hin
  · have hpre := hsha he
    simp only [Preimage.identity.injEq] at hpre
    exact hpre.2.1

/-- User `1` hangs up. -/
def sampleHangUp : List CallEvent :=
  sampleRun 2 (.mutate .leave 1 "a" ⟨true, "c3", 9⟩) 6000

set_option maxRecDepth 20000 in
lemma hashedService_ended : ((hashedService.run
    (sampleInvite ++ sampleAnswer ++ sampleHangUp)).db.snapshot 9).map
      (fun call => (call.state, call.version)) = some (.ended, 3) := by
  decide

theorem effects_complete_sample : ⟨9, 3, .state⟩ ∈ (hashedService.run
      ((sampleInvite ++ sampleAnswer ++ sampleHangUp) ++ sampleHangUp)).db.effects ∧
    ((hashedService.run (sampleInvite ++ sampleAnswer ++ sampleHangUp)).db.effectsOf 9
      .history).length = 1 := by
  obtain ⟨call, hcall, he⟩ := Option.map_eq_some_iff.mp hashedService_ended
  simp only [Prod.mk.injEq] at he
  obtain ⟨hstate, hhistory, -⟩ := effects_complete hashedService
    (Classical.choose_spec exists_injective_sha256)
    (sampleInvite ++ sampleAnswer ++ sampleHangUp) sampleHangUp
  exact ⟨he.2 ▸ hstate 9 call hcall, (hhistory 9 call hcall he.1).1⟩

end PrivChat.Call
