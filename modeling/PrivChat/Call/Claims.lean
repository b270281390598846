import PrivChat.Call.Lifecycle
import Mathlib.Tactic.DeriveCountable
import Mathlib.Logic.Equiv.List

/-!
One device for each user in a call.

The device is recorded by the invitation or by the first join. Each operation checks it in its
own way, and a command that was recorded before skips the check; what carries over to a replay
is that the record itself was made by the device of the claim.
-/

namespace PrivChat.Call

open PrivChat.Db CallService

variable {sv : CallService} {W : List LockKey → World → Prop} {d d' v : Db} {j : Job}
  {h : List LockKey} {code : CallTx Answer} {s s' : StoredCall} {c : CallId} {u : UserId}
  {dev : String}

def Db.claimOf (d : Db) (c : CallId) (u : UserId) : Option DeviceClaim :=
  (d.calls.get c).bind fun row => row.document.claims.get u

/-- The call records that device for that user. -/
def Owned (c : CallId) (u : UserId) (dev : String) (d : Db) : Prop :=
  ∃ claim, d.claimOf c u = some claim ∧ claim.device = dev

lemma owned_iff : Owned c u dev d ↔
    ∃ row, d.calls.get c = some row ∧ row.document.owns u dev = true := by
  unfold Owned Db.claimOf
  constructor
  · rintro ⟨claim, hc, hd⟩
    obtain ⟨row, hrow, hclaim⟩ := Option.bind_eq_some_iff.mp hc
    exact ⟨row, hrow, owns_iff.mpr ⟨claim, hclaim, hd⟩⟩
  · rintro ⟨row, hrow, hown⟩
    obtain ⟨claim, hclaim, hd⟩ := owns_iff.mp hown
    exact ⟨claim, by rw [hrow]; exact hclaim, hd⟩

lemma Evolves.owns (he : Evolves s s') (hs : s.owns u dev = true) : s'.owns u dev = true := by
  obtain ⟨claim, hc, hd⟩ := owns_iff.mp hs
  obtain ⟨claim', hc', hd'⟩ := he.claims u claim hc
  exact owns_iff.mpr ⟨claim', hc', hd'.trans hd⟩

lemma CallsEvolve.owned (he : CallsEvolve d d') (hd : Owned c u dev d) : Owned c u dev d' := by
  obtain ⟨row, hrow, hown⟩ := owned_iff.mp hd
  obtain ⟨row', hrow', he⟩ := he c row hrow
  exact owned_iff.mpr ⟨row', hrow', he.owns hown⟩

lemma Rewrites.owned (hr : Rewrites d v c s) (hs : s.owns u dev = true) : Owned c u dev v := by
  obtain ⟨row, hrow, rfl, -⟩ := hr.here
  exact owned_iff.mpr ⟨row, hrow, hs⟩

lemma plainPeer_evolves (he : Evolves s s') : sv.plainPeer s' u = sv.plainPeer s u := by
  unfold plainPeer
  rw [moves_userIds he.participants, he.initiatorId]

/-! ### Records -/

section Fingerprints

variable (hsha : Function.Injective sv.ext.sha256)

include hsha

lemma fingerprint_mutate_inj {r r' : Route} {q q' : CallMutationRequest}
    (he : sv.fingerprint (.mutate r) q.encode = sv.fingerprint (.mutate r') q'.encode) :
    r = r' ∧ q = q' := by
  have hp := hsha he
  obtain ⟨_ | _, i, c⟩ := q <;> obtain ⟨_ | _, i', c'⟩ := q' <;>
    simp_all [CallMutationRequest.encode, CommandBody.normalize]

lemma fingerprint_invite_ne {r : Route} {b b' : CommandBody} :
    sv.fingerprint .invite b ≠ sv.fingerprint (.mutate r) b' := by
  intro he
  have hp := hsha he
  simp at hp

end Fingerprints

/-- What the record of a mutation that needs the claim says about its call. -/
def Backed (sv : CallService) (d : Db) (k : CommandKey) (response : Response) (route : Route)
    (c : CallId) : Prop :=
  ∃ crow, d.calls.get c = some crow ∧ crow.document.owns k.user k.device = true ∧
    (route = .join → crow.document.call.transport = .webrtc →
      sv.config.peer.allowTurn = false →
      ∃ r, response = .join r ∧ sv.plainPeer crow.document k.user = r.peer)

def RecordsOk (sv : CallService) (d : Db) : Prop :=
  ∀ k row route req, d.commands.get k = some row →
    row.fingerprint = sv.fingerprint (.mutate route) (CallMutationRequest.encode req) →
    route.claimed = true → Backed sv d k row.response route req.callId

lemma Backed.evolves {k : CommandKey} {response : Response} {route : Route}
    (hb : Backed sv d k response route c) (he : CallsEvolve d d') :
    Backed sv d' k response route c := by
  obtain ⟨crow, hrow, hown, hpeer⟩ := hb
  obtain ⟨crow', hrow', he⟩ := he c crow hrow
  refine ⟨crow', hrow', he.owns hown, fun hj ht hturn => ?_⟩
  rw [plainPeer_evolves he]
  exact hpeer hj (he.transport ▸ ht) hturn

lemma bump_owns (s : StoredCall) (b : Bool) : (s.bump b).owns u dev = s.owns u dev := by
  cases b <;> rfl

lemma Committed.recordsOk (hsha : Function.Injective sv.ext.sha256) (hok : CallsOk d)
    (hrec : RecordsOk sv d) (hc : Committed sv W d j h v code) : RecordsOk sv v := by
  have he := hc.callsEvolve hok
  intro k row route req hrow hfp hcl
  -- a record that was there before is backed as before
  have hold : v.commands.get k = d.commands.get k → Backed sv v k row.response route req.callId :=
    fun h => (hrec k row route req (h ▸ hrow) hfp hcl).evolves he
  cases hc with
  | @invite actor device req' _ s t t' hi =>
    by_cases hk : k = ⟨actor, device, req'.commandId⟩
    · subst hk
      simp only [Db.putCommand_commands, Table.get_put_self, Option.some.injEq] at hrow
      subst hrow
      exact absurd hfp (fingerprint_invite_ne hsha)
    · exact hold (by simp [hk])
  | @mutate route' actor device req' _ s v0 final notify v' r t t' hx hl _ _ hop hr =>
    by_cases hk : k = ⟨actor, device, req'.commandId⟩
    · subst hk
      simp only [Db.putCommand_commands, Table.get_put_self, Option.some.injEq] at hrow
      subst hrow
      obtain ⟨rfl, rfl⟩ := fingerprint_mutate_inj hsha hfp
      obtain ⟨crow, hcrow, hdoc, -⟩ := (hop.rewrites hok hx).here
      refine ⟨crow, hcrow, ?_, fun hj ht hturn => ?_⟩
      · rw [hdoc, bump_owns]
        exact hop.owner hcl
      · rw [hdoc] at ht ⊢
        obtain ⟨jr, hjr, hpeer, -⟩ := hr.peer hj ht hturn
        exact ⟨jr, hjr, hpeer⟩
    · exact hold (by simp [hk, hop.commands, hx.commands])
  | ended hx | get hx | replay _ _ _ hx | events _ hx | sweepOne _ hx =>
    exact hold (by simp [hx.commands])
  | signal hx => exact hold (by rw [hx.commands])
  | sweepEvents | sweepCommands | sweepRates => exact hold rfl

lemma recordsOk_empty : RecordsOk sv .empty := by
  intro k row route req hrow
  simp [Db.empty] at hrow

/-! ### Answers -/

/-- The call, the user and the device of an operation that only the device of the claim can
do. -/
def Job.claimant : Job → Option (CallId × UserId × String)
  | .mutate route actor device req =>
    if route.claimed then some (req.callId, actor, device) else none
  | .peerSignal actor device req => some (req.callId, actor, device)
  | .peerEvents actor device req => some (req.callId, actor, device)
  | .invite .. | .get .. | .sweep => none

lemma Committed.owned (hok : CallsOk d) (hc : Committed sv W d j h v code)
    (hj : j.claimant = some (c, u, dev)) : Answered (fun _ => Owned c u dev) v code := by
  cases hc with
  | invite | get | sweepEvents | sweepCommands | sweepRates | sweepOne => cases hj
  | ended => trivial
  | @mutate route actor device req _ s v0 final notify v' r t t' hx hl _ _ hop hr =>
    simp only [Job.claimant] at hj
    split at hj
    · rename_i hcl
      cases hj
      refine ((hop.rewrites hok hx).congr rfl).owned ?_
      rw [bump_owns]
      exact hop.owner hcl
    · cases hj
  | replay _ _ _ hx _ ha | events _ hx _ ha =>
    cases hj
    exact ((hx.rewrites hok).1.congr rfl).owned ha.owns
  | signal hx =>
    cases hj
    exact (hx.rewrites hok).owned (hx.trans.evolves.owns hx.authorized.owns)

lemma Returned.owned {a : Answer} (hrec : RecordsOk sv d) (hr : Returned sv d j a)
    (hj : j.claimant = some (c, u, dev)) : Owned c u dev d := by
  cases hr with
  | invite => cases hj
  | @mutate route actor device req row hrow hfp hne =>
    simp only [Job.claimant] at hj
    split at hj
    · rename_i hcl
      cases hj
      obtain ⟨crow, hcrow, hown, -⟩ := hrec _ row route req hrow hfp hcl
      exact owned_iff.mpr ⟨crow, hcrow, hown⟩
    · cases hj
  | @join actor device req row crow r hrow hfp hcrow hown =>
    cases hj
    exact owned_iff.mpr ⟨crow, hcrow, hown⟩

variable {evs : List CallEvent}

lemma recordsOk_throughout (hsha : Function.Injective sv.ext.sha256) :
    Throughout sv.prog (RecordsOk sv) (sv.run []) evs :=
  run_throughout (fun _ _ _ _ _ hok hrec hc => hc.recordsOk hsha hok.calls hrec) recordsOk_empty

/-- An operation that needs the claim, and succeeded, came from the device of the claim. -/
lemma finished_owned (hsha : Function.Injective sv.ext.sha256) {i : ℕ}
    {a : Answer} (ha : (sv.run evs).procs i = .finished j (.ok a))
    (hj : j.claimant = some (c, u, dev)) : Owned c u dev (sv.run evs).db := by
  have hne : j ≠ .sweep := by
    rintro rfl
    cases hj
  exact run_answers hne
    (fun _ _ _ _ hok _ hc _ => hc.owned hok.calls hj) (fun _ _ _ hrec hr => hr.owned hrec hj)
    (fun _ _ _ _ _ _ hok _ _ hc hd => (hc.callsEvolve hok.calls).owned hd)
    [] evs (recordsOk_throughout hsha) rfl ha

/-- **One device.** Once a call has recorded a device for a user, it records that device for the
user at every later point of the run; and whenever a heartbeat, a departure, an end, a join, be
it a replay or not, a signal or a reading of the journal by that user in that call has
succeeded, it came from that device. -/
theorem single_device (sv : CallService) (hsha : Function.Injective sv.ext.sha256)
    (evs evs' : List CallEvent) (c : CallId) (u : UserId) (claim : DeviceClaim)
    (hclaim : (sv.run evs).db.claimOf c u = some claim) :
    (∃ claim', (sv.run (evs ++ evs')).db.claimOf c u = some claim' ∧ claim'.device = claim.device) ∧
    ∀ i j a dev, (sv.run (evs ++ evs')).procs i = .finished j (.ok a) →
      j.claimant = some (c, u, dev) → dev = claim.device := by
  have hown : Owned c u claim.device (sv.run (evs ++ evs')).db :=
    calls_evolve.owned ⟨claim, hclaim, rfl⟩
  refine ⟨hown, fun i j a dev ha hj => ?_⟩
  obtain ⟨claim1, h1, hd1⟩ := hown
  obtain ⟨claim2, h2, hd2⟩ := finished_owned hsha ha hj
  rw [h1] at h2
  obtain rfl := Option.some.inj h2
  exact hd2.symm.trans hd1

instance countable_char : Countable Char := Function.Injective.countable fun _ _ h
    =>
  Char.toNat_inj.mp h

instance countable_string : Countable String := Function.Injective.countable
    fun _ _ h =>
  String.toList_inj.mp h

deriving instance Countable for CallMediaKind, CallPeerSignalKind, Route, Operation, CommandBody,
  CallPeerSignalRequest, Preimage

lemma exists_injective_sha256 : ∃ f : Preimage → String, Function.Injective f := by
  obtain ⟨f, hf⟩ := Countable.exists_injective_nat Preimage
  refine ⟨fun p => String.ofList (List.replicate (f p) 'a'), fun a b h => hf ?_⟩
  simpa using congrArg String.length h

/-- The sample service with such a hash. -/
noncomputable def hashedService : CallService :=
  { sampleService with
    ext := { sampleService.ext with sha256 := Classical.choose exists_injective_sha256 } }

lemma hashedService_claim :
    (hashedService.run sampleInvite).db.claimOf 9 1 = some ⟨"a", 10000⟩ := by
  decide

theorem single_device_sample : ∃ claim,
    (hashedService.run (sampleInvite ++ sampleAnswer)).db.claimOf 9 1 = some claim ∧
      claim.device = "a" :=
  (single_device hashedService (Classical.choose_spec exists_injective_sha256) sampleInvite
    sampleAnswer 9 1 _ hashedService_claim).1

end PrivChat.Call
