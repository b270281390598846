import PrivChat.Call.Spec

/-!
What the jobs of the call service can commit.

`Committed` says, job by job, what the tables are at a commit and under which conditions;
`Returned` what a job can answer without a commit. Everything else about the service is
derived from these two.
-/

namespace PrivChat.Call

open PrivChat.Db Tx CallService

variable {β : Type} {sv : CallService} {W : List LockKey → World → Prop}

/-! ### One mutation -/

/-- The operations that only the device of the claim can do. -/
def Route.claimed : Route → Bool
  | .join | .heartbeat | .leave | .end => true
  | .reject | .cancel | .other _ => false

/-- The two numbers of the call's peer journal stay what they were. -/
def SameNumbers (s s' : StoredCall) : Prop :=
  s'.peerSeq = s.peerSeq ∧ s'.peerRevision = s.peerRevision

/-- Whoever has left had left before, with the same claim. -/
def SameLeft (s s' : StoredCall) : Prop :=
  ∀ u, stateOf u s'.call.participants = some .left →
    stateOf u s.call.participants = some .left ∧ s'.claims.get u = s.claims.get u

/-- Nobody leaves a call that goes on, or the actor does and the media server is to be told. -/
inductive Parting (sv : CallService) (actor : UserId) (device : String) (s final : StoredCall)
    (v v' : Db) : Prop
  | stays : v' = v → (final.call.state ≠ .ended → SameLeft s final) →
      Parting sv actor device s final v v'
  | leaves : v' = v.addEffect ⟨s.call.callId, s.call.version,
      .removeParticipant (sv.identity s.call.callId actor device)⟩ →
      s.owns actor device = true → stateOf actor s.call.participants = some .joined →
      final = s.setParticipant actor .left → Parting sv actor device s final v v'

/-- A mutation of `s` gives `final`, not yet versioned, and takes the tables from `v` to `v'`. It
has nothing to do with the journal, it tells of a departure, and a change that is not notified is
none of the snapshot. -/
structure Operates (sv : CallService) (actor : UserId) (device : String) (s : StoredCall)
    (route : Route) (final : StoredCall) (notify : Bool) (v v' : Db) : Prop where
  trans : Trans s (final.bump notify)
  owner : route.claimed = true → final.owns actor device = true
  answer : s.call.state = .ringing → final.call.state = .active →
    route = .join ∧ actor ≠ s.call.initiatorId
  numbers : SameNumbers s final
  parting : Parting sv actor device s final v v'
  quiet : notify = false → final.call = s.call ∧ v' = v

variable {st : CallParticipantState} {ps : List CallParticipant}

lemma stateOf_setState {u w : UserId} : stateOf u (setState w st ps) =
      if u = w then (stateOf w ps).map fun _ => st else stateOf u ps := by
  induction ps with
  | nil => simp [setState, stateOf, participantOf]
  | cons p ps ih =>
    by_cases hp : p.userId = w
    · by_cases hu : u = w
      · simp [setState, stateOf_cons, hp, hu]
      · have hwu : ¬ w = u := fun h => hu h.symm
        simp [setState, stateOf_cons, hp, hu, hwu]
    · by_cases hu : u = w
      · subst hu
        simp [setState, stateOf_cons, hp, ih]
      · simp [setState, stateOf_cons, hp, hu, ih]

lemma sameLeft_setParticipant {s s' : StoredCall} {w : UserId} (hst : st ≠ .left)
    (hp : s'.call.participants = setState w st s.call.participants)
    (hc : ∀ u, u ≠ w → s'.claims.get u = s.claims.get u) : SameLeft s s' := by
  intro u hu
  rw [hp, stateOf_setState] at hu
  split at hu
  · obtain ⟨-, -, he⟩ := Option.map_eq_some_iff.mp hu
    exact absurd he hst
  · exact ⟨hu, hc u ‹_›⟩

lemma sameNumbers_answer {s s0 : StoredCall} (h : SameNumbers s0 s) {actor : UserId} {t : Millis} :
    SameNumbers s0 (s.answer actor t) := by
  unfold StoredCall.answer
  split
  · exact h
  · exact h

lemma stateOf_isSome {u : UserId} : (stateOf u ps).isSome ↔ u ∈ ps.map (·.userId) := by
  induction ps with
  | nil => simp [stateOf, participantOf]
  | cons p ps ih =>
    rw [stateOf_cons]
    by_cases hu : p.userId = u
    · simp [hu]
    · simp only [hu, if_false, ih, List.map_cons, List.mem_cons]
      constructor
      · exact .inr
      · rintro (h | h)
        · exact absurd h.symm hu
        · exact h

lemma if_then_trivial {b : Bool} {p : Prop} (hp : b = true → p) : if b then p else True := by
  split
  · exact hp ‹_›
  · trivial

section Operations

variable {C : Db → List LockKey → CallTx β → Prop} {Q : β → Db → List LockKey → Prop} {v : Db}
  {h : List LockKey} {g : StoredCall × Bool → CallTx β} {actor : UserId} {device : String}
  {s : StoredCall}

lemma owns_setClaim {c : DeviceClaim} (hc : c.device = device) :
    (s.setClaim actor c).owns actor device = true := by
  simp [StoredCall.owns, StoredCall.setClaim, hc]

lemma owns_answer (s : StoredCall) (t : Millis) :
    (s.answer actor t).owns actor device = s.owns actor device := by
  unfold StoredCall.answer
  split <;> rfl

lemma answer_participants (s : StoredCall) (t : Millis) :
    (s.answer actor t).call.participants = s.call.participants ∧
      (s.answer actor t).claims = s.claims := by
  unfold StoredCall.answer
  split <;> exact ⟨rfl, rfl⟩

variable (sv W C Q v h g actor device s) in
/-- Whatever the mutation gives, the code that follows meets its specification. -/
def Follows (route : Route) : Prop :=
  ∀ final notify v' h', Operates sv actor device s route final notify v v' → h ⊆ h' →
    wp W C (fun _ => True) Q (g (final, notify)) v' h'

lemma owns_iff : s.owns actor device = true ↔
    ∃ c, s.claims.get actor = some c ∧ c.device = device := by
  simp [StoredCall.owns, Option.any_eq_true]

lemma wp_cancel (hg : Follows sv W C Q v h g actor device s .cancel) :
    wp W C (fun _ => True) Q (cancel actor device s >>= g) v h := by
  simp only [cancel, bind_assoc, wp_ensure]
  refine if_then_trivial fun h1 => asks_now.wp fun t => ?_
  simp only [Bool.and_eq_true, beq_iff_eq] at h1
  exact hg _ _ _ _ ⟨.cancel s t h1.2, fun h => absurd h (by decide),
    fun _ ha => absurd ha (by simp [finish]), ⟨rfl, rfl⟩,
    .stays rfl fun hne => absurd rfl hne, fun hn => by cases hn⟩ (List.Subset.refl _)

section Running

variable (hs : s.call.state ≠ .ended)
include hs

lemma wp_join {muted : Bool} {call : CallId}
    (hp : actor ∈ s.call.participants.map (·.userId))
    (hg : Follows sv W C Q v h g actor device s .join) :
    wp W C (fun _ => True) Q (sv.join actor device s muted call >>= g) v h := by
  simp only [join, bind_assoc, wp_ensure, wp_acquire, wp_query]
  split_ifs with h1 h2 h3 h4
  refine asks_notBlocked_forEach.wp fun _ => asks_now.wp fun t => asks_now.wp fun t' => ?_
  obtain ⟨a, ha⟩ := Option.isSome_iff_exists.mp (stateOf_isSome.mpr hp)
  have hlive : a.live = true := by
    cases a <;> simp_all [CallParticipantState.live]
  refine hg _ _ _ _ ⟨?_, fun _ => ?_, fun hr ha => ⟨rfl, fun hi => ?_⟩,
    sameNumbers_answer ⟨rfl, rfl⟩, .stays rfl fun _ => ?_, fun hn => by cases hn⟩
    (List.subset_cons_self _ _)
  · exact .join s actor device (sv.lease t) t' a hs ha hlive (by simpa using h2)
  · rw [owns_answer]
    exact owns_setClaim rfl
  · rw [StoredCall.answer, if_neg fun h => h.1 hi] at ha
    exact absurd (hr.symm.trans ha) (by decide)
  · obtain ⟨hp, hc⟩ := answer_participants ((s.setParticipant actor .joined).setClaim actor
      ⟨device, sv.lease t⟩) t'
    refine sameLeft_setParticipant (by decide) hp fun u hu => ?_
    rw [hc]
    exact Table.get_put_of_ne _ hu

lemma wp_heartbeat
    (hg : Follows sv W C Q v h g actor device s .heartbeat) :
    wp W C (fun _ => True) Q (sv.heartbeat actor device s >>= g) v h := by
  simp only [heartbeat, bind_assoc, wp_ensure]
  refine if_then_trivial fun h1 => asks_now.wp fun t => ?_
  simp only [Bool.and_eq_true, beq_iff_eq] at h1
  obtain ⟨c, hc, hd⟩ := owns_iff.mp h1.1
  simp only [hc]
  refine hg _ _ _ _ ⟨?_, fun _ => owns_setClaim hd, fun hr ha => ?_, ⟨rfl, rfl⟩,
    .stays rfl fun _ u hu => ⟨hu, Table.get_put_of_ne _ fun he => ?_⟩, fun _ => ⟨rfl, rfl⟩⟩
    (List.Subset.refl _)
  · exact .heartbeat s actor c (sv.lease t) hs hc h1.2
  · exact absurd (hr.symm.trans ha) (by decide)
  · rw [he] at hu
    cases h1.2.symm.trans hu

lemma wp_reject (hg : Follows sv W C Q v h g actor device s .reject) :
    wp W C (fun _ => True) Q (reject actor s >>= g) v h := by
  simp only [reject, bind_assoc, wp_ensure]
  refine if_then_trivial fun h1 => asks_now.wp fun t => ?_
  simp only [Bool.and_eq_true, bne_iff_ne, beq_iff_eq] at h1
  have ht := Trans.reject s actor t hs h1.1 h1.2
  by_cases hc : (s.setParticipant actor .rejected).rejectEnds = true
  · rw [if_pos hc] at ht
    rw [if_pos hc]
    exact hg _ _ _ _ ⟨ht, fun h => absurd h (by decide),
      fun _ ha => absurd ha (by simp [finish]), ⟨rfl, rfl⟩,
      .stays rfl fun hne => absurd rfl hne, fun hn => by cases hn⟩ (List.Subset.refl _)
  · rw [if_neg hc] at ht
    rw [if_neg hc]
    exact hg _ _ _ _ ⟨ht, fun h => absurd h (by decide),
      fun hr ha => absurd (hr.symm.trans ha) (by decide), ⟨rfl, rfl⟩,
      .stays rfl fun _ => sameLeft_setParticipant (by decide) rfl fun _ _ => rfl,
      fun hn => by cases hn⟩ (List.Subset.refl _)

lemma wp_leave {ends : Bool} {role : ℤ} {route : Route}
    (hg : Follows sv W C Q v h g actor device s route) :
    wp W C (fun _ => True) Q (sv.leave actor device s ends role >>= g) v h := by
  simp only [leave, bind_assoc, wp_ensure]
  refine if_then_trivial fun h1 => if_then_trivial fun _ => asks_now.wp fun t => ?_
  simp only [Bool.and_eq_true, beq_iff_eq] at h1
  have ht := Trans.leave s actor ends t hs h1.2
  by_cases hc : (s.setParticipant actor .left).leaveEnds ends = true
  · rw [if_pos hc] at ht
    rw [if_pos hc]
    exact hg _ _ _ _ ⟨ht, fun _ => h1.1, fun _ ha => absurd ha (by simp [finish]), ⟨rfl, rfl⟩,
      .stays rfl fun hne => absurd rfl hne, fun hn => by cases hn⟩ (List.Subset.refl _)
  · rw [if_neg hc] at ht
    rw [if_neg hc]
    exact hg _ _ _ _ ⟨ht, fun _ => h1.1, fun hr ha => absurd (hr.symm.trans ha) (by decide),
      ⟨rfl, rfl⟩, .leaves rfl h1.1 h1.2 rfl, fun hn => by cases hn⟩ (List.Subset.refl _)

lemma wp_operate {route : Route} {role : ℤ} {muted : Bool} {call : CallId} (hp : actor ∈ s.call.participants.map (·.userId))
    (hg : Follows sv W C Q v h g actor device s route) :
    wp W C (fun _ => True) Q (sv.operate actor device s route role muted call >>= g) v h := by
  cases route with
  | join => exact wp_join hs hp hg
  | heartbeat => exact wp_heartbeat hs hg
  | reject => exact wp_reject hs hg
  | cancel => exact wp_cancel hg
  | leave => exact wp_leave hs hg
  | «end» => exact wp_leave hs hg
  | other name => trivial

end Running

end Operations

/-! ### Answers -/

variable {actor : UserId} {call : CallSnapshot}

lemma asks_turnServers : Asks (sv.turnServers call actor) :=
  asks_ite (asks_orFail.bind fun _ => asks_now.bind fun _ =>
    asks_orFail.bind fun _ => .ret _) (.ret _)

lemma asks_peerConfig : Asks (sv.peerConfig call actor) :=
  asks_ensure.bind fun _ => asks_turnServers.bind fun _ => asks_orFail.bind fun _ => .ret _

def CallService.stunServers (sv : CallService) : List CallIceServer :=
  if sv.config.peer.stunUrls.isEmpty then [] else [⟨sv.config.peer.stunUrls, none, none⟩]

/-- The peer configuration of a call without relays: it depends on who is in the call only. -/
def CallService.plainPeer (sv : CallService) (s : StoredCall) (actor : UserId) :
    Option CallPeerConfig :=
  ((s.call.participants.map (·.userId)).find? (· != actor)).map fun u =>
    ⟨actor, u, actor == s.call.initiatorId, sv.stunServers, 0⟩

variable {C : Db → List LockKey → CallTx β → Prop} {Q : β → Db → List LockKey → Prop}
  {s : StoredCall}

lemma wp_plainPeer {v : Db} {h : List LockKey} {g : CallPeerConfig → CallTx β}
    (hturn : sv.config.peer.allowTurn = false)
    (hg : ∀ peer, sv.plainPeer s actor = some peer → wp W C (fun _ => True) Q (g peer) v h) :
    wp W C (fun _ => True) Q (sv.peerConfig s.call actor >>= g) v h := by
  simp only [peerConfig, turnServers, hturn, Bool.false_eq_true, if_false, bind_assoc, wp_ensure,
    pure_bind, wp_orFail, implies_true, and_true, List.append_nil]
  refine if_then_trivial fun _ p hp => hg _ ?_
  simp [plainPeer, Function.comp_def, hp, stunServers]

variable {device : String}

lemma asks_joinToken {expires : Millis} : Asks (sv.joinToken call actor device expires) :=
  asks_ensure.bind fun _ => asks_orFail.bind fun _ => asks_now.bind fun _ =>
    asks_orFail.bind fun _ => asks_orFail

lemma asks_respond {route : Route} : Asks (sv.respond actor device s route) :=
  asks_ite (asks_now.bind fun _ => asks_ite (asks_peerConfig.bind fun _ => .ret _)
    (asks_joinToken.bind fun _ => .ret _)) (.ret _)

/-- The response `r` to a mutation that gave `s`. A join of a peer call carries the peer
configuration. -/
structure Responds (sv : CallService) (actor : UserId) (s : StoredCall) (route : Route)
    (r : Response) : Prop where
  snapshot : route ≠ .join → r = .call s.call
  peer : route = .join → s.call.transport = .webrtc → sv.config.peer.allowTurn = false →
    ∃ j, r = .join j ∧ sv.plainPeer s actor = j.peer ∧ j.peer.isSome

lemma wp_respond {v : Db} {h : List LockKey} {g : Response → CallTx β} {route : Route}
    (hg : ∀ r, Responds sv actor s route r → wp W C (fun _ => True) Q (g r) v h) :
    wp W C (fun _ => True) Q (sv.respond actor device s route >>= g) v h := by
  unfold respond
  by_cases hr : route = .join
  · rw [if_pos hr, joinResponse, bind_assoc]
    refine asks_now.wp fun t => ?_
    by_cases ht : s.call.transport = .webrtc
    · rw [if_pos ht, bind_assoc]
      by_cases hturn : sv.config.peer.allowTurn = false
      · exact wp_plainPeer hturn fun peer hp =>
          hg _ ⟨fun h => absurd hr h, fun _ _ _ => ⟨_, rfl, hp, rfl⟩⟩
      · exact asks_peerConfig.wp fun peer =>
          hg _ ⟨fun h => absurd hr h, fun _ _ h => absurd h hturn⟩
    · rw [if_neg ht, bind_assoc]
      exact asks_joinToken.wp fun token => hg _ ⟨fun h => absurd hr h, fun _ h => absurd h ht⟩
  · rw [if_neg hr]
    exact hg _ ⟨fun _ => rfl, fun h => absurd h hr⟩

/-! ### Commits -/

def CallService.fingerprint (sv : CallService) (op : Operation) (body : CommandBody) : String :=
  sv.ext.sha256 (.command op body.normalize)

/-- The call `s` is what an invitation made: its users are members of the channel, locked, and
in no other call, and its id is new. -/
structure Invites (sv : CallService) (d : Db) (actor : UserId) (device : String)
    (req : CallInviteRequest) (h : List LockKey) (s : StoredCall) : Prop where
  made : ∃ kind m t, MembersOf kind m ∧ (m.get actor).isSome ∧
    (∀ u ∈ targets actor req m, (m.get u).isSome) ∧ targets actor req m ≠ [] ∧
    s = sv.newCall actor device req kind (btreeSet (actor :: targets actor req m))
      s.call.callId t
  fresh : d.calls.get s.call.callId = none
  row : .row s.call.callId ∈ h
  users : ∀ p ∈ s.call.participants, .user p.userId ∈ h ∧ busy p.userId (fun _ => true) d = false

structure Authorized (actor : UserId) (device : String) (s : StoredCall) : Prop where
  running : s.call.state ≠ .ended
  webrtc : s.call.transport = .webrtc
  direct : s.channelType = 0
  owns : s.owns actor device = true
  joined : ∃ p ∈ s.call.participants, p.userId = actor ∧ p.state = .joined

inductive Negotiates (actor : UserId) (req : CallPeerSignalRequest) (s : StoredCall) :
    StoredCall → Prop
  | offer : req.kind = .offer → actor = s.call.initiatorId → s.peerRevision + 1 = req.revision →
      Negotiates actor req s { s with peerRevision := req.revision, peerAnswered := false }
  | answer : req.kind = .answer → actor ≠ s.call.initiatorId → req.revision = s.peerRevision →
      s.peerAnswered = false → Negotiates actor req s { s with peerAnswered := true }
  | ice : req.kind = .ice → req.revision = s.peerRevision → Negotiates actor req s s

/-- A signal that is added to the journal: the call brought up to date with the tables then, the
call after the negotiation, the count of attempts, and the readings of the clock. -/
structure Signal where
  actor : UserId
  device : String
  req : CallPeerSignalRequest
  call : StoredCall
  tables : Db
  next : StoredCall
  rate : PeerRateRow
  now : Millis
  expires : Millis
  saved : Millis

namespace Signal

variable (x : Signal)

def key : CommandKey := ⟨x.actor, x.device, x.req.commandId⟩

/-- The event gets the next number. -/
def stored : StoredCall := { x.next with peerSeq := x.next.peerSeq + 1 }

def event : PeerEventRow := ⟨x.req.revision, x.req.kind, x.req.payload, x.actor, x.expires⟩

/-- The events that have expired are deleted first. -/
def purged : Db :=
  (x.tables.putPeerRate ⟨x.req.callId, x.actor, .signal⟩ x.rate).deletePeerEvents fun k r =>
    k.1 == x.req.callId && r.expiresAt ≤ x.now

def db (sv : CallService) : Db :=
  saveDb x.stored false x.saved
    ((x.purged.putPeerEvent (x.req.callId, x.stored.peerSeq) x.event).putPeerCommand x.key
      ⟨x.req.callId, sv.ext.sha256 (.peer x.req), x.stored.peerSeq, x.expires⟩)

/-- A signal that enters the journal has a revision, expires a lifetime after a reading of the
clock under the lock of the call, and finds room. -/
structure Files (sv : CallService) (W : List LockKey → World → Prop) : Prop where
  revision : x.req.revision ≠ 0
  clock : ∃ h o, .row x.req.callId ∈ h ∧ W h o ∧
    x.expires = o.now + sv.config.peer.journalTtlSeconds * 1000
  room : ∀ ns : List ℕ, ns.Nodup →
    (∀ n ∈ ns, (x.purged.peerEvents.get (x.req.callId, n)).isSome) → ns.length < 512

/-- The signal is made from the committed state `d` under the locks `h`. -/
structure Made (sv : CallService) (W : List LockKey → World → Prop) (d : Db) (h : List LockKey) :
    Prop where
  expired : Expired sv W d x.req.callId x.call x.tables
  row : .row x.req.callId ∈ h
  command : .command x.key ∈ h
  unused : Unused x.key d
  authorized : Authorized x.actor x.device x.call
  negotiates : Negotiates x.actor x.req x.call x.next
  files : x.Files sv W

end Signal

/-- From the committed state `d`, with answers that `W` allows, the job commits the tables
under these locks, and goes on with that code. -/
inductive Committed (sv : CallService) (W : List LockKey → World → Prop) (d : Db) :
    Job → List LockKey → Db → CallTx Answer → Prop
  | invite {actor device req h s} (t t' : Millis) : Invites sv d actor device req h s →
      .command ⟨actor, device, req.commandId⟩ ∈ h → Unused ⟨actor, device, req.commandId⟩ d →
      Committed sv W d (.invite actor device req) h
        ((saveDb s true t d).putCommand ⟨actor, device, req.commandId⟩
          ⟨sv.fingerprint .invite req.encode, .call s.call, t'⟩)
        (.ret (.response (.call s.call)))
  | ended {route actor device req h s v e} : Expired sv W d req.callId s v → .row req.callId ∈ h →
      Unused ⟨actor, device, req.commandId⟩ d →
      Committed sv W d (.mutate route actor device req) h v (.fail e)
  | mutate {route actor device req h s v final notify v' r} (t t' : Millis) :
      Expired sv W d req.callId s v → .row req.callId ∈ h →
      .command ⟨actor, device, req.commandId⟩ ∈ h → Unused ⟨actor, device, req.commandId⟩ d →
      Operates sv actor device s route final notify v v' →
      Responds sv actor (final.bump notify) route r →
      Committed sv W d (.mutate route actor device req) h
        ((saveDb (final.bump notify) notify t v').putCommand ⟨actor, device, req.commandId⟩
          ⟨sv.fingerprint (.mutate route) req.encode, r, t'⟩)
        (.ret (.response r))
  | get {actor c h s v} : Expired sv W d c s v → .row c ∈ h →
      Committed sv W d (.get actor c) h v (.ret (.snapshot s.call))
  | replay {actor device req h s v} (row : PeerCommandRow) (event : PeerEventRow)
      (rate : PeerRateRow) :
      Expired sv W d req.callId s v → .row req.callId ∈ h → Authorized actor device s →
      SameOrGone (d.peerCommands.get ⟨actor, device, req.commandId⟩) (some row) →
      SameOrGone (d.peerEvents.get (req.callId, row.seq)) (some event) →
      d.commands.get ⟨actor, device, req.commandId⟩ = none →
      row.fingerprint = sv.ext.sha256 (.peer req) → row.call = req.callId →
      Committed sv W d (.peerSignal actor device req) h
        (v.putPeerRate ⟨req.callId, actor, .signal⟩ rate)
        (.ret (.events ⟨[.ofRow row.seq event], row.seq⟩))
  | signal {h} {x : Signal} : x.Made sv W d h →
      Committed sv W d (.peerSignal x.actor x.device x.req) h (x.db sv)
        (.ret (.events ⟨[.ofRow x.stored.peerSeq x.event], x.stored.peerSeq⟩))
  | events {actor device req h s v a} (rate : PeerRateRow) : Expired sv W d req.callId s v →
      .row req.callId ∈ h → Authorized actor device s →
      Committed sv W d (.peerEvents actor device req) h
        (v.putPeerRate ⟨req.callId, actor, .events⟩ rate) (.ret (.events a))
  | sweepEvents {h c} (t : Millis) : Committed sv W d .sweep h
      (d.deletePeerEvents fun _ r => r.expiresAt ≤ t) c
  | sweepCommands {h c} (t : Millis) : Committed sv W d .sweep h
      (d.deletePeerCommands fun _ r => r.expiresAt ≤ t) c
  | sweepRates {h c} (b : ℤ) : Committed sv W d .sweep h
      (d.deletePeerRates fun _ r => r.bucket < b) c
  | sweepOne {id h s v c} (t : Millis) : Expired sv W d id s v → .row id ∈ h →
      Committed sv W d .sweep h (touch id t v) c

/-- From the committed state `d`, the job answers without a commit. -/
inductive Returned (sv : CallService) (d : Db) : Job → Answer → Prop
  | invite {actor device req row} : d.commands.get ⟨actor, device, req.commandId⟩ = some row →
      row.fingerprint = sv.fingerprint .invite req.encode →
      Returned sv d (.invite actor device req) (.response row.response)
  | mutate {route actor device req row} :
      d.commands.get ⟨actor, device, req.commandId⟩ = some row →
      row.fingerprint = sv.fingerprint (.mutate route) req.encode → route ≠ .join →
      Returned sv d (.mutate route actor device req) (.response row.response)
  | join {actor device req row crow r} :
      d.commands.get ⟨actor, device, req.commandId⟩ = some row →
      row.fingerprint = sv.fingerprint (.mutate .join) req.encode →
      d.calls.get req.callId = some crow → crow.document.owns actor device = true →
      (r = row.response ∨
        ∃ j, row.response = .join j ∧ r = .join { j with peer := sv.plainPeer crow.document actor }
          ∧
          crow.document.call.transport = .webrtc ∧ sv.config.peer.allowTurn = false) →
      Returned sv d (.mutate .join actor device req) (.response r)

/-- The specification of a job, run alone. -/
def JobSpec (sv : CallService) (W : List LockKey → World → Prop) (d : Db) (j : Job)
    (t : CallTx Answer) : Prop :=
  wp W (fun v h c => ∃ c', c = .commit c' ∧ Committed sv W d j h v c') (fun _ => True)
    (fun a _ _ => Returned sv d j a) t d []

end PrivChat.Call
