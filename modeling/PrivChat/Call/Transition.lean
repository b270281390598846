import PrivChat.Call.Peer

/-!
The life of a call.

`Trans` lists all that can happen to a stored call, each with the condition it happens under.
`Evolves` is what they have in common, and `WellFormed` what they keep.
-/

namespace PrivChat.Call

open PrivChat.Db CallService

/-! ### Moves of a participant and of a call -/

inductive CallParticipantState.Moves : CallParticipantState → CallParticipantState → Prop
  | refl (a) : Moves a a
  | join : Moves .invited .joined
  | reject : Moves .invited .rejected
  | leave {a} : a.live = true → Moves a .left

inductive CallState.Moves : CallState → CallState → Prop
  | refl (a) : Moves a a
  | answer : Moves .ringing .active
  | finish (a) : Moves a .ended

variable {a b : CallParticipantState}

lemma CallParticipantState.Moves.trans {c : CallParticipantState} (h : a.Moves b)
    (h' : b.Moves c) : a.Moves c := by
  cases h with
  | refl => exact h'
  | join =>
    cases h' with
    | refl => exact .join
    | leave _ => exact .leave rfl
  | reject =>
    cases h' with
    | refl => exact .reject
    | leave h => cases h
  | leave ha =>
    cases h' with
    | refl => exact .leave ha
    | leave _ => exact .leave ha

lemma CallState.Moves.trans {a b c : CallState} (h : a.Moves b) (h' : b.Moves c) : a.Moves c := by
  cases h with
  | refl => exact h'
  | answer =>
    cases h' with
    | refl => exact .answer
    | finish => exact .finish _
  | finish =>
    cases h' with
    | refl => exact .finish _
    | finish => exact .finish _

lemma CallState.Moves.eq_ended {a b : CallState} (h : a.Moves b) (ha : a = .ended) :
    b = .ended := by
  cases h with
  | refl => exact ha
  | answer => cases ha
  | finish => rfl

lemma CallState.Moves.eq_ringing {a b : CallState} (h : a.Moves b) (hb : b = .ringing) :
    a = .ringing := by
  cases h with
  | refl => exact hb
  | answer => rfl
  | finish => cases hb

lemma CallParticipantState.Moves.live (h : a.Moves b) (hb : b.live = true) : a.live = true := by
  cases h with
  | refl => exact hb
  | join => rfl
  | reject => cases hb
  | leave ha => exact ha

/-- The same user, whose state has moved. -/
def CallParticipant.Moves (p q : CallParticipant) : Prop :=
  p.userId = q.userId ∧ p.state.Moves q.state

lemma moves_refl {ps : List CallParticipant} : List.Forall₂ CallParticipant.Moves ps ps :=
  List.forall₂_same.mpr fun _ _ => ⟨rfl, .refl _⟩

variable {ps qs : List CallParticipant}

lemma moves_trans {rs : List CallParticipant} (h : List.Forall₂ CallParticipant.Moves ps qs)
    (h' : List.Forall₂ CallParticipant.Moves qs rs) : List.Forall₂ CallParticipant.Moves ps rs := by
  induction h generalizing rs with
  | nil => exact h'
  | cons hp _ ih =>
    cases h' with
    | cons hq hrest => exact .cons ⟨hp.1.trans hq.1, hp.2.trans hq.2⟩ (ih hrest)

lemma moves_map {f : CallParticipant → CallParticipant}
    (hf : ∀ p : CallParticipant, p.Moves (f p)) : List.Forall₂ CallParticipant.Moves ps (ps.map f)
    := by
  rw [List.forall₂_map_right_iff]
  exact List.forall₂_same.mpr fun p _ => hf p

lemma moves_userIds (h : List.Forall₂ CallParticipant.Moves ps qs) :
    qs.map (·.userId) = ps.map (·.userId) := by
  induction h with
  | nil => rfl
  | cons hp _ ih => simp [hp.1, ih]

lemma moves_live (h : List.Forall₂ CallParticipant.Moves ps qs) {q : CallParticipant} (hq : q ∈ qs)
    (hl : q.state.live = true) : ∃ p ∈ ps, p.userId = q.userId ∧ p.state.live = true := by
  induction h with
  | nil => cases hq
  | cons hp _ ih =>
    rcases List.mem_cons.mp hq with rfl | hq
    · exact ⟨_, List.mem_cons_self, hp.1, hp.2.live hl⟩
    · obtain ⟨p, hp', h⟩ := ih hq
      exact ⟨p, List.mem_cons_of_mem _ hp', h⟩

lemma stateOf_cons (u : UserId) (p : CallParticipant) (ps : List CallParticipant) :
    stateOf u (p :: ps) = if p.userId = u then some p.state else stateOf u ps := by
  by_cases h : p.userId = u <;> simp [stateOf, participantOf, h]

variable {u : UserId}

lemma stateOf_mem (hs : stateOf u ps = some a) : ∃ p ∈ ps, p.userId = u ∧ p.state = a := by
  induction ps with
  | nil => cases hs
  | cons p ps ih =>
    rw [stateOf_cons] at hs
    split at hs
    · exact ⟨p, List.mem_cons_self, ‹_›, Option.some.inj hs⟩
    · obtain ⟨q, hq, h⟩ := ih hs
      exact ⟨q, List.mem_cons_of_mem _ hq, h⟩

lemma stateOf_of_mem (hn : (ps.map (·.userId)).Nodup)
    {p : CallParticipant} (hp : p ∈ ps) : stateOf p.userId ps = some p.state := by
  induction ps with
  | nil => cases hp
  | cons q qs ih =>
    rw [List.map_cons, List.nodup_cons] at hn
    rw [stateOf_cons]
    rcases List.mem_cons.mp hp with rfl | hp
    · rw [if_pos rfl]
    · have hne : q.userId ≠ p.userId := fun he => hn.1 (he ▸ List.mem_map_of_mem hp)
      rw [if_neg hne]
      exact ih hn.2 hp

lemma moves_stateOf (h : List.Forall₂ CallParticipant.Moves ps qs) (hu : stateOf u ps = some a) :
    ∃ b, stateOf u qs = some b ∧ a.Moves b := by
  induction h with
  | nil => cases hu
  | @cons p q ps qs hp _ ih =>
    rw [stateOf_cons] at hu
    rw [stateOf_cons, ← hp.1]
    split at hu
    · rename_i he
      rw [if_pos he]
      exact ⟨q.state, rfl, Option.some.inj hu ▸ hp.2⟩
    · rename_i he
      rw [if_neg he]
      exact ih hu

lemma moves_setState (hab : a.Moves b) (h : stateOf u ps = some a) :
    List.Forall₂ CallParticipant.Moves ps (setState u b ps) := by
  induction ps with
  | nil => exact .nil
  | cons p ps ih =>
    rw [stateOf_cons] at h
    by_cases hu : p.userId = u
    · simp only [hu, if_true, Option.some.injEq] at h
      simp only [setState, hu, if_true]
      exact .cons ⟨by simp [hu], by rw [h]; exact hab⟩ moves_refl
    · simp only [hu, if_false] at h
      simp only [setState, hu, if_false]
      exact .cons ⟨rfl, .refl _⟩ (ih h)

lemma moves_finish (ps : List CallParticipant) :
    List.Forall₂ CallParticipant.Moves ps (ps.map finishParticipant) := by
  refine moves_map fun p => ?_
  unfold finishParticipant
  split
  · exact ⟨rfl, .leave (by simp_all [CallParticipantState.live])⟩
  · exact ⟨rfl, .refl _⟩

variable {t : Millis}

lemma moves_expire {m : Members} {claims : Table UserId DeviceClaim} :
    List.Forall₂ CallParticipant.Moves ps (ps.map (expireParticipant m claims t)) := by
  refine moves_map fun p => ?_
  unfold expireParticipant
  split
  · exact ⟨rfl, .leave (by simp_all)⟩
  · exact ⟨rfl, .refl _⟩

/-- The call brought up to date, with the readings of the clock for the leases and for the
end. -/
def expireCall (m : Members) (current t : Millis) (s : StoredCall) : StoredCall :=
  (if timedOut (lapse m current s) current then finish (lapse m current s) .timeout t
    else lapse m current s).bump true

def joinCall (actor : UserId) (device : String) (lease t : Millis) (s : StoredCall) : StoredCall :=
  (((s.setParticipant actor .joined).setClaim actor ⟨device, lease⟩).answer actor t).bump true

/-- The call after a participant took a state, perhaps ended by that. -/
def partCall (actor : UserId) (st : CallParticipantState) (ends : Option (CallEndReason × Millis))
    (s : StoredCall) : StoredCall :=
  (match ends with
    | some (reason, t) => finish (s.setParticipant actor st) reason t
    | none => s.setParticipant actor st).bump true

/-- All that can happen to a stored call. -/
inductive Trans : StoredCall → StoredCall → Prop
  | expire (s : StoredCall) (m : Members) (current t : Millis) : s.call.state ≠ .ended →
      (lapses m current s || timedOut (lapse m current s) current) = true →
      Trans s (expireCall m current t s)
  | join (s : StoredCall) (actor : UserId) (device : String) (lease t : Millis)
      (a : CallParticipantState) : s.call.state ≠ .ended →
      stateOf actor s.call.participants = some a → a.live = true →
      s.claimedElsewhere actor device = false →
      Trans s (joinCall actor device lease t s)
  | heartbeat (s : StoredCall) (actor : UserId) (c : DeviceClaim) (lease : Millis) :
      s.call.state ≠ .ended → s.claims.get actor = some c →
      stateOf actor s.call.participants = some .joined →
      Trans s (s.setClaim actor { c with leaseUntil := lease })
  | reject (s : StoredCall) (actor : UserId) (t : Millis) : s.call.state ≠ .ended →
      actor ≠ s.call.initiatorId → stateOf actor s.call.participants = some .invited →
      Trans s (partCall actor .rejected
        (if (s.setParticipant actor .rejected).rejectEnds then some (.rejected, t) else none) s)
  | cancel (s : StoredCall) (t : Millis) : s.call.state = .ringing →
      Trans s ((finish s .cancelled t).bump true)
  | leave (s : StoredCall) (actor : UserId) (ends : Bool) (t : Millis) :
      s.call.state ≠ .ended → stateOf actor s.call.participants = some .joined →
      Trans s (partCall actor .left
        (if (s.setParticipant actor .left).leaveEnds ends then some (.normal, t) else none) s)
  | signal (s : StoredCall) (revision : ℕ) (answered : Bool) : s.call.state ≠ .ended →
      Trans s { s with
        peerRevision := revision, peerAnswered := answered, peerSeq := s.peerSeq + 1 }

/-! ### What all of it has in common -/

/-- What a change leaves alone, and how it moves the rest; the version apart. -/
structure Alters (s s' : StoredCall) : Prop where
  callId : s'.call.callId = s.call.callId
  transport : s'.call.transport = s.call.transport
  channelId : s'.call.channelId = s.call.channelId
  initiatorId : s'.call.initiatorId = s.call.initiatorId
  channelType : s'.channelType = s.channelType
  participants : List.Forall₂ CallParticipant.Moves s.call.participants s'.call.participants
  state : s.call.state.Moves s'.call.state
  claims : ∀ u c, s.claims.get u = some c →
    ∃ c', s'.claims.get u = some c' ∧ c'.device = c.device

structure Evolves (s s' : StoredCall) : Prop extends Alters s s' where
  version : s'.call = s.call ∨ s.call.version < s'.call.version

lemma Alters.refl {s : StoredCall} : Alters s s :=
  ⟨rfl, rfl, rfl, rfl, rfl, moves_refl, .refl _, fun _ c h => ⟨c, h, rfl⟩⟩

variable {s s' : StoredCall}

lemma Alters.trans {s'' : StoredCall} (h : Alters s s') (h' : Alters s' s'') : Alters s s'' where
  callId := h'.callId.trans h.callId
  transport := h'.transport.trans h.transport
  channelId := h'.channelId.trans h.channelId
  initiatorId := h'.initiatorId.trans h.initiatorId
  channelType := h'.channelType.trans h.channelType
  participants := moves_trans h.participants h'.participants
  state := h.state.trans h'.state
  claims u c hc := by
    obtain ⟨c', hc', he⟩ := h.claims u c hc
    obtain ⟨c'', hc'', he'⟩ := h'.claims u c' hc'
    exact ⟨c'', hc'', he'.trans he⟩

lemma Evolves.refl : Evolves s s := ⟨.refl, .inl rfl⟩

lemma Evolves.trans {s'' : StoredCall} (h : Evolves s s') (h' : Evolves s' s'') :
    Evolves s s'' := by
  refine ⟨h.toAlters.trans h'.toAlters, ?_⟩
  rcases h.version with he | hl
  · rcases h'.version with he' | hl'
    · exact .inl (he'.trans he)
    · exact .inr (he ▸ hl')
  · rcases h'.version with he' | hl'
    · exact .inr (he' ▸ hl)
    · exact .inr (hl.trans hl')

lemma Alters.evolves_bump (h : Alters s s')
    (hv : s'.call.version = s.call.version) : Evolves s (s'.bump true) := by
  obtain ⟨h1, h2, h3, h4, h5, h6, h7, h8⟩ := h
  exact ⟨⟨h1, h2, h3, h4, h5, h6, h7, h8⟩, .inr (by simp [StoredCall.bump, hv])⟩

lemma alters_lapse (m : Members) (t : Millis) (s : StoredCall) : Alters s (lapse m t s) :=
  ⟨rfl, rfl, rfl, rfl, rfl, moves_expire, .refl _, fun _ c h => ⟨c, h, rfl⟩⟩

lemma alters_finish {r : CallEndReason} : Alters s (finish s r t) :=
  ⟨rfl, rfl, rfl, rfl, rfl, moves_finish _, .finish _, fun _ c h => ⟨c, h, rfl⟩⟩

lemma alters_setParticipant (h : stateOf u s.call.participants = some a) (hab : a.Moves b) :
    Alters s (s.setParticipant u b) :=
  ⟨rfl, rfl, rfl, rfl, rfl, moves_setState hab h, .refl _, fun _ c h => ⟨c, h, rfl⟩⟩

lemma alters_setClaim {c : DeviceClaim}
    (h : ∀ c', s.claims.get u = some c' → c'.device = c.device) : Alters s (s.setClaim u c) := by
  refine ⟨rfl, rfl, rfl, rfl, rfl, moves_refl, .refl _, fun u' c' hc => ?_⟩
  by_cases hu : u' = u
  · subst hu
    exact ⟨c, by simp [StoredCall.setClaim], (h c' hc).symm⟩
  · exact ⟨c', by simpa [StoredCall.setClaim, hu] using hc, rfl⟩

lemma alters_answer : Alters s (s.answer u t) := by
  unfold StoredCall.answer
  split
  · rename_i h
    exact ⟨rfl, rfl, rfl, rfl, rfl, moves_refl, by rw [h.2]; exact .answer,
      fun _ c h => ⟨c, h, rfl⟩⟩
  · exact .refl

@[simp] lemma answer_version : (s.answer u t).call.version = s.call.version := by
  unfold StoredCall.answer
  split <;> rfl

variable {ends : Option (CallEndReason × Millis)}

lemma evolves_partCall (h : stateOf u s.call.participants = some a) (hab : a.Moves b)
    : Evolves s (partCall u b ends s) := by
  have hset := alters_setParticipant h hab
  cases ends with
  | none => exact hset.evolves_bump rfl
  | some e => exact (hset.trans alters_finish).evolves_bump rfl

lemma Trans.evolves (h : Trans s s') : Evolves s s' := by
  cases h with
  | expire m current t =>
    have hl := alters_lapse m current s
    unfold expireCall
    split
    · exact (hl.trans alters_finish).evolves_bump rfl
    · exact hl.evolves_bump rfl
  | join actor device lease t a hs ha hlive hc =>
    have hset : Alters s (s.setParticipant actor .joined) := by
      refine alters_setParticipant ha ?_
      cases a with
      | invited => exact .join
      | joined => exact .refl _
      | rejected => cases hlive
      | left => cases hlive
    have hclaim : Alters (s.setParticipant actor .joined)
        ((s.setParticipant actor .joined).setClaim actor ⟨device, lease⟩) := by
      refine alters_setClaim fun c' hc' => ?_
      have hc' : s.claims.get actor = some c' := hc'
      simpa [StoredCall.claimedElsewhere, hc'] using hc
    exact ((hset.trans hclaim).trans alters_answer).evolves_bump (by simp; rfl)
  | heartbeat actor c lease hs hc hj =>
    refine ⟨alters_setClaim fun c' hc' => ?_, .inl rfl⟩
    rw [hc] at hc'
    obtain rfl := Option.some.inj hc'
    rfl
  | reject actor t hs hi ha => exact evolves_partCall ha .reject
  | cancel t hs => exact alters_finish.evolves_bump rfl
  | leave actor ends t hs ha => exact evolves_partCall ha (.leave rfl)
  | signal revision answered hs =>
    exact ⟨⟨rfl, rfl, rfl, rfl, rfl, moves_refl, .refl _, fun _ c h => ⟨c, h, rfl⟩⟩, .inl rfl⟩

/-! ### What all of it keeps -/

/-- The marks of the end are there exactly when the call has ended, and the mark of the
answer when it is active. -/
structure Marked (c : CallSnapshot) : Prop where
  ended : c.state = .ended → c.endedAtMs.isSome ∧ c.endReason.isSome
  unended : c.state ≠ .ended → c.endedAtMs = none ∧ c.endReason = none
  silent : c.state = .ended → ∀ p ∈ c.participants, p.state ≠ .joined
  answered : c.state = .active → c.answeredAtMs.isSome

structure WellFormed (s : StoredCall) : Prop extends Marked s.call where
  nodup : (s.call.participants.map (·.userId)).Nodup
  initiator : s.call.initiatorId ∈ s.call.participants.map (·.userId)
  direct : s.channelType = 0 → s.call.participants.length = 2

lemma marked_finish {r : CallEndReason} : Marked (finish s r t).call := by
  refine ⟨fun _ => ⟨rfl, rfl⟩, fun h => absurd rfl h, fun _ p hp => ?_, fun h => by cases h⟩
  simp only [finish, List.mem_map] at hp
  obtain ⟨q, -, rfl⟩ := hp
  unfold finishParticipant
  split <;> simp_all

/-- Whoever the participants are and whatever their states, a call that goes on keeps its
marks. -/
lemma Marked.withParticipants {c : CallSnapshot} (h : Marked c) (hs : c.state ≠ .ended)
    : Marked { c with participants := ps } :=
  ⟨fun he => absurd he hs, h.unended, fun he => absurd he hs, h.answered⟩

lemma Marked.bump (h : Marked s.call) {b : Bool} : Marked (s.bump b).call := by
  unfold StoredCall.bump
  split
  · exact ⟨h.ended, h.unended, h.silent, h.answered⟩
  · exact h

lemma Marked.partCall (h : Marked s.call) (hs : s.call.state ≠ .ended) {st : CallParticipantState} :
    Marked (partCall u st ends s).call := by
  refine Marked.bump ?_
  cases ends with
  | none => exact h.withParticipants hs
  | some e => exact marked_finish

lemma Trans.marked (h : Trans s s') (hm : Marked s.call) : Marked s'.call := by
  cases h with
  | expire m current t hs =>
    refine Marked.bump ?_
    split
    · exact marked_finish
    · exact hm.withParticipants hs
  | join actor device lease t a hs =>
    refine Marked.bump ?_
    unfold StoredCall.answer
    split
    · exact ⟨(nomatch ·), fun _ => hm.unended hs, (nomatch ·), fun _ => rfl⟩
    · exact hm.withParticipants hs
  | heartbeat => exact hm
  | reject actor t hs => exact hm.partCall hs
  | cancel t => exact marked_finish.bump
  | leave actor ends t hs => exact hm.partCall hs
  | signal => exact hm

lemma Trans.wellFormed (h : Trans s s') (hw : WellFormed s) : WellFormed s' := by
  have he := h.evolves
  have hu := moves_userIds he.participants
  refine ⟨h.marked hw.toMarked, ?_, ?_, fun hd => ?_⟩
  · rw [hu]
    exact hw.nodup
  · rw [hu, he.initiatorId]
    exact hw.initiator
  · rw [← he.participants.length_eq]
    exact hw.direct (he.channelType ▸ hd)

abbrev Steps := Relation.ReflTransGen Trans

lemma Steps.evolves (h : Steps s s') : Evolves s s' := by
  induction h with
  | refl => exact .refl
  | tail _ hstep ih => exact ih.trans hstep.evolves

lemma Steps.wellFormed (h : Steps s s') (hw : WellFormed s) : WellFormed s' := by
  induction h with
  | refl => exact hw
  | tail _ hstep ih => exact hstep.wellFormed ih

/-- What happens to a call leaves the mark of the answer alone, unless it is a signal. -/
lemma Trans.answered (h : Trans s s') :
    s'.peerSeq = s.peerSeq + 1 ∨ s'.peerSeq = s.peerSeq ∧ s'.peerAnswered = s.peerAnswered := by
  cases h with
  | signal => exact .inl rfl
  | expire => exact .inr (by unfold expireCall; split <;> exact ⟨rfl, rfl⟩)
  | join => exact .inr (by unfold joinCall StoredCall.answer; split <;> exact ⟨rfl, rfl⟩)
  | heartbeat | cancel => exact .inr ⟨rfl, rfl⟩
  | reject | leave => exact .inr (by unfold partCall; split <;> exact ⟨rfl, rfl⟩)

lemma Steps.answered (h : Steps s s') :
    s.peerSeq ≤ s'.peerSeq ∧ (s'.peerSeq = s.peerSeq → s'.peerAnswered = s.peerAnswered) := by
  induction h with
  | refl => exact ⟨le_rfl, fun _ => rfl⟩
  | tail _ hstep ih =>
    rcases hstep.answered with hseq | ⟨hseq, hans⟩
    · exact ⟨by omega, fun he => by omega⟩
    · exact ⟨by omega, fun he => hans.trans (ih.2 (hseq ▸ he))⟩

end PrivChat.Call
