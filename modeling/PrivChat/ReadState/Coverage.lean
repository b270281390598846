import PrivChat.ReadState.Service
import PrivChat.Tasks.Places
import Mathlib

/-!
What the cursor broadcasts cover.

A call that advances the cursor owes a broadcast of the range it has read. The range starts where
the first part of the upsert has found the cursor. If another call has stored its own in between,
the range reaches back over what that call reports. Where this does not happen, and no statement
fails, the ranges tile what was read.
-/

namespace PrivChat.ReadState

open Tasks
open Channels (UserId ChannelId ServerError)

/-- What a broadcast says was read. -/
def Broadcast.range (b : Broadcast) : Set ℕ := Set.Ioc b.previousPts b.lastReadPts

/-- The ranges have nothing in common. -/
def Broadcast.Apart (b b' : Broadcast) : Prop := Disjoint b.range b'.range

variable {b : Broadcast}

lemma Broadcast.Apart.symm {b' : Broadcast} (h : b.Apart b') : b'.Apart b := Disjoint.symm h

lemma apart_of_le {b' : Broadcast} (h : b.lastReadPts ≤ b'.previousPts) : b.Apart b' := by
  refine Set.disjoint_left.mpr fun p hp hp' => ?_
  have h1 : p ≤ b.lastReadPts := hp.2
  have h2 : b'.previousPts < p := hp'.1
  omega

variable {u : UserId} {c : ChannelId}

def Clearing.isOf (u : UserId) (c : ChannelId) : Clearing → Prop
  | .ensureUserChannel u' c' | .clearUnread u' c' | .clearCache u' c' => u' = u ∧ c' = c

instance (u : UserId) (c : ChannelId) (step : Clearing) : Decidable (step.isOf u c) :=
  match step with
  | .ensureUserChannel u' c' | .clearUnread u' c' | .clearCache u' c' =>
    inferInstanceAs (Decidable (u' = u ∧ c' = c))

/-- Nothing comes between: the upsert still finds the row as it was at its start, and from there
on no statement of the call fails. -/
def Undisturbed (u : UserId) (c : ChannelId) (_ : ℕ) (_ : Job) : Op → Moment → Shared → Prop
  | .upsertCursor u' c' _ existing, o, s =>
    u' = u ∧ c' = c → existing = s.lastReadPts u c ∧ o.outcome = .ok
  | .clearing step, o, _ => step.isOf u c → o.outcome = .ok
  | .currentPts _, _, _ | .deliveredPts _ _, _, _ | .forceSet _ _ _, _, _
  | .markReadMember _ _ _, _, _ | .readCursor _ _, _, _ | .broadcast _, _, _ => True

instance (i : ℕ) (j : Job) (op : Op) (o : Moment) (s : Shared) :
    Decidable (Undisturbed u c i j op o s) :=
  match op with
  | .upsertCursor u' c' _ existing =>
    inferInstanceAs (Decidable
      (u' = u ∧ c' = c → existing = s.lastReadPts u c ∧ o.outcome = .ok))
  | .clearing step => inferInstanceAs (Decidable (step.isOf u c → o.outcome = .ok))
  | .currentPts _ | .deliveredPts _ _ | .forceSet _ _ _ | .markReadMember _ _ _
  | .readCursor _ _ | .broadcast _ => inferInstanceAs (Decidable True)

/-! ### Broadcasts that are due -/

/-- An upsert that has advanced the cursor leaves a broadcast to be made. -/
def dueAfter (u : UserId) (c : ChannelId) : (op : Op) → op.Res → Option Broadcast
  | .upsertCursor u' c' _ _, r =>
    match (r : Except String UpsertCursorResult) with
    | .ok x =>
      if x.advanced = true ∧ u' = u ∧ c' = c then
        some ⟨u, c, x.previousPts, x.lastReadPts⟩
      else none
    | .error _ => none
  | .currentPts _, _ | .deliveredPts _ _, _ | .forceSet _ _ _, _ | .markReadMember _ _ _, _
  | .readCursor _ _, _ | .clearing _, _ | .broadcast _, _ => none

def broadcastBy (u : UserId) (c : ChannelId) : Op → Option Broadcast
  | .broadcast b => if b.readerId = u ∧ b.channelId = c then some b else none
  | .currentPts _ | .deliveredPts _ _ | .forceSet _ _ _ | .markReadMember _ _ _
  | .readCursor _ _ | .upsertCursor _ _ _ _ | .clearing _ => none

/-- A call owes no broadcast, or this one, or it has failed with one. -/
inductive Place
  | clear
  | due (b : Broadcast)
  | failed

def Place.owed : Place → Option Broadcast
  | .due b => some b
  | .clear | .failed => none

/-- A statement that clears a counter has failed. -/
def stops : (op : Op) → op.Res → Bool
  | .clearing _, r => (r : Except String Unit).toOption.isNone
  | .currentPts _, _ | .deliveredPts _ _, _ | .forceSet _ _ _, _ | .markReadMember _ _ _, _
  | .readCursor _ _, _ | .upsertCursor _ _ _ _, _ | .broadcast _, _ => false

def Place.next (u : UserId) (c : ChannelId) (op : Op) (r : op.Res) : Place → Place
  | .clear => ((dueAfter u c op r).map .due).getD .clear
  | .due b => if (broadcastBy u c op).isSome then .clear else if stops op r then .failed else .due b
  | .failed => .failed

/-- The calls of this reader in this channel. -/
def Job.isOf (u : UserId) (c : ChannelId) (j : Job) : Prop := j.readerId = u ∧ j.channelId = c

structure Place.Ready (u : UserId) (c : ChannelId) (j : Job) (op : Op) (p : Place) : Prop where
  mine : p.owed.isSome → j.isOf u c
  reports : ∀ b, broadcastBy u c op = some b → p = .due b
  advances : ∀ pts existing, op = .upsertCursor u c pts existing → p = .clear
  clears : ∀ step, op = .clearing step → p.owed.isSome → step.isOf u c

/-- No call ends with a broadcast that it owes. -/
def course (u : UserId) (c : ChannelId) :
    Course Op Op.Res Job ServerError ReadPtsUpdateResult Place where
  start _ := .clear
  next := Place.next u c
  ready := Place.Ready u c
  rest _ _ p := p.owed = none

section Code

variable {j : Job} {p : Place} {α β : Type}

lemma ready_clear {op : Op} (h : broadcastBy u c op = none) : Place.Ready u c j op .clear where
  mine := nofun
  reports b hb := by
    rw [h] at hb
    cases hb
  advances _ _ _ := rfl
  clears _ _ h := nomatch h

/-- Code that leaves a call without debts as it is. -/
abbrev Stays (u : UserId) (c : ChannelId) (j : Job) (t : ReadProg β) : Prop :=
  (course u c).Leads j (fun _ p => p = .clear) t .clear

abbrev Pays (u : UserId) (c : ChannelId) (j : Job) (t : ReadProg β) (p : Place) : Prop :=
  (course u c).Leads j (fun _ p => p.owed = none) t p

lemma Stays.bind {t : ReadProg β} {g : β → ReadProg α} (h : Stays u c j t)
    (hg : ∀ b, Pays u c j (g b) .clear) : Pays u c j (t >>= g) .clear :=
  Course.Leads.bind h (fun b _ hp => hp ▸ hg b) fun _ _ hp => hp ▸ rfl

lemma stays_currentPts {c' : ChannelId} : Stays u c j (currentPts c') := by
  refine ⟨ready_clear rfl, fun r => ?_⟩
  dsimp only
  split <;> rfl

lemma stays_alignDelivered {tracked : Bool} {u' : UserId} {c' : ChannelId} {pts : ℕ} :
    Stays u c j (alignDelivered tracked u' c' pts) := by
  unfold alignDelivered
  split
  · refine ⟨ready_clear rfl, fun r => ?_⟩
    dsimp only
    split
    · exact ⟨ready_clear rfl, fun _ => rfl⟩
    · rfl
  · rfl

lemma pays_clearing {step : Clearing} {error : String → ServerError} {g : Unit → ReadProg β}
    (hp : p.owed.isSome → j.isOf u c ∧ step.isOf u c) (hg : Pays u c j (g ()) p) :
    Pays u c j (clearing step error >>= g) p := by
  refine ⟨⟨fun h => (hp h).1, nofun, nofun, ?_⟩, fun r => ?_⟩
  · rintro _ ⟨⟩ h
    exact (hp h).2
  · match r with
    | .ok () => cases p <;> exact hg
    | .error e => cases p <;> rfl

lemma Place.next_report {op : Op} {r : op.Res} {b' : Broadcast} (h : broadcastBy u c op = some b) :
    Place.next u c op r (.due b') = .clear := by
  simp [Place.next, h]

lemma pays_broadcast (hj : j.isOf u c) (hu : b.readerId = u) (hc : b.channelId = c) {a : α} :
    Pays u c j (broadcastReadCursor b >>= fun _ => return a) (.due b) := by
  have hreport : broadcastBy u c (.broadcast b) = some b := if_pos ⟨hu, hc⟩
  have hnext : ∀ r, (course u c).next (.broadcast b) r (.due b) = .clear :=
    fun r => Place.next_report hreport
  refine ⟨⟨fun _ => hj, fun b' hb => ?_, nofun, nofun⟩, fun r => ?_⟩
  · rw [Option.some.inj (hreport.symm.trans hb)]
  · rw [hnext]
    match r with
    | .ok () => rfl
    | .error e => rfl

/-- Who has advanced the cursor makes the broadcast, if the counters can be cleared. -/
lemma pays_afterUpsert (j : Job) {x : UpsertCursorResult}
    (hp : p = if x.advanced = true ∧ j.readerId = u ∧ j.channelId = c then
      .due ⟨u, c, x.previousPts, x.lastReadPts⟩ else .clear) :
    Pays u c j (afterUpsert j.readerId j.channelId x) p := by
  have howes : p.owed.isSome → j.isOf u c := by
    intro h
    by_contra hj
    rw [hp, if_neg fun h => hj h.2] at h
    cases h
  unfold afterUpsert clearUserChannelUnread
  rw [bind_assoc]
  refine pays_clearing (fun h => ⟨howes h, howes h⟩) ?_
  refine pays_clearing (fun h => ⟨howes h, howes h⟩) ?_
  refine pays_clearing (fun h => ⟨howes h, howes h⟩) ?_
  by_cases ha : x.advanced = true
  · rw [if_pos ha]
    by_cases hj : j.isOf u c
    · rw [if_pos ⟨ha, hj⟩] at hp
      obtain ⟨rfl, rfl⟩ := hj
      subst hp
      exact pays_broadcast ⟨rfl, rfl⟩ rfl rfl
    · rw [if_neg fun h => hj h.2] at hp
      subst hp
      refine ⟨ready_clear (if_neg hj), fun r => ?_⟩
      match r with
      | .ok () => rfl
      | .error e => rfl
  · rw [if_neg fun h => ha h.1] at hp
    rw [if_neg ha]
    subst hp
    rfl

lemma pays_markRead {tracked : Bool} (j : Job) : Pays u c j
    (markReadPtsWithVisible tracked j.readerId j.channelId j.readPts j.clientVisiblePts)
    .clear := by
  refine stays_currentPts.bind fun current => ?_
  dsimp only
  split
  · rfl
  · split
    · rfl
    · refine stays_alignDelivered.bind fun _ => ⟨ready_clear rfl, fun o => ?_⟩
      match o with
      | none => rfl
      | some pts =>
        refine ⟨ready_clear rfl, fun existing => ⟨ready_clear rfl, fun r => ?_⟩⟩
        match r with
        | .error e => rfl
        | .ok x =>
          refine pays_afterUpsert j ?_
          change ((dueAfter u c (.upsertCursor _ _ pts existing) (.ok x)).map Place.due).getD
            Place.clear = _
          simp only [dueAfter]
          split <;> rfl

end Code

/-! ### The tiling -/

/-- The ranges that were reported and those that are due tile what was read since the cursor was
at `a`. -/
structure Tiling (u : UserId) (c : ChannelId) (a : ℕ) (s : Shared) (owed : ℕ → Option Broadcast) :
    Prop where
  reported : (s.broadcastsOf u c).Pairwise Broadcast.Apart
  due : ∀ i b, owed i = some b → ∀ b' ∈ s.broadcastsOf u c, b'.Apart b
  apart : ∀ i i' b b', i ≠ i' → owed i = some b → owed i' = some b' → b.Apart b'
  within : ∀ b, b ∈ s.broadcastsOf u c ∨ (∃ i, owed i = some b) →
    a ≤ b.previousPts ∧ b.lastReadPts ≤ s.cursor u c
  full : ∀ p, a < p → p ≤ s.cursor u c →
    ∃ b, (b ∈ s.broadcastsOf u c ∨ ∃ i, owed i = some b) ∧ p ∈ b.range

namespace Tiling

variable {a : ℕ} {s s' : Shared} {owed : ℕ → Option Broadcast}

lemma congr (h : Tiling u c a s owed) (hc : s'.cursor u c = s.cursor u c)
    (hb : s'.broadcastsOf u c = s.broadcastsOf u c) : Tiling u c a s' owed := by
  refine ⟨?_, ?_, h.apart, ?_, ?_⟩
  · rw [hb]
    exact h.reported
  · rw [hb]
    exact h.due
  · rw [hb, hc]
    exact h.within
  · rw [hb, hc]
    exact h.full

lemma incur (h : Tiling u c a s owed) {i : ℕ} (hi : owed i = none)
    (ha : a ≤ s.cursor u c) (hp : b.previousPts = s.cursor u c) (hl : b.lastReadPts = s'.cursor u c)
    (hle : s.cursor u c ≤ s'.cursor u c) (hb : s'.broadcastsOf u c = s.broadcastsOf u c) :
    Tiling u c a s' (Function.update owed i (some b)) := by
  -- what there was before ends where the new range starts
  have hold : ∀ b', b' ∈ s.broadcastsOf u c ∨ (∃ i, owed i = some b') → b'.Apart b :=
    fun b' hb' => apart_of_le (hp.symm ▸ (h.within b' hb').2)
  refine ⟨hb ▸ h.reported, ?_, ?_, ?_, ?_⟩
  · intro i' b' hi' b'' hb''
    rw [hb] at hb''
    rcases update_eq_some.mp hi' with ⟨-, ⟨⟩⟩ | ⟨-, ho⟩
    · exact hold b'' (.inl hb'')
    · exact h.due i' b' ho b'' hb''
  · intro i1 i2 b1 b2 hne h1 h2
    rcases update_eq_some.mp h1 with ⟨hi1, ⟨⟩⟩ | ⟨-, ho1⟩
    · rcases update_eq_some.mp h2 with ⟨hi2, -⟩ | ⟨-, ho2⟩
      · exact absurd (hi1.trans hi2.symm) hne
      · exact (hold b2 (.inr ⟨i2, ho2⟩)).symm
    · rcases update_eq_some.mp h2 with ⟨-, ⟨⟩⟩ | ⟨-, ho2⟩
      · exact hold b1 (.inr ⟨i1, ho1⟩)
      · exact h.apart i1 i2 b1 b2 hne ho1 ho2
  · intro b' hb'
    have hcases : b' = b ∨ (b' ∈ s.broadcastsOf u c ∨ ∃ i, owed i = some b') := by
      rcases hb' with hb' | ⟨i', hi'⟩
      · exact .inr (.inl (hb ▸ hb'))
      · rcases update_eq_some.mp hi' with ⟨-, ⟨⟩⟩ | ⟨-, ho⟩
        · exact .inl rfl
        · exact .inr (.inr ⟨i', ho⟩)
    rcases hcases with rfl | hb'
    · exact ⟨by omega, by omega⟩
    · have hw := h.within b' hb'
      exact ⟨hw.1, by omega⟩
  · intro p hap hpc
    by_cases hps : p ≤ s.cursor u c
    · obtain ⟨b', hb', hr⟩ := h.full p hap hps
      refine ⟨b', ?_, hr⟩
      rcases hb' with hb' | ⟨i', ho⟩
      · exact .inl (hb.symm ▸ hb')
      · have hne : i' ≠ i := by
          rintro rfl
          rw [hi] at ho
          cases ho
        exact .inr ⟨i', update_eq_some.mpr (.inr ⟨hne, ho⟩)⟩
    · exact ⟨b, .inr ⟨i, Function.update_self ..⟩, by omega, by omega⟩

lemma settle (h : Tiling u c a s owed) {i : ℕ} (hi : owed i = some b)
    (hc : s'.cursor u c = s.cursor u c) (hb : s'.broadcastsOf u c = s.broadcastsOf u c ++ [b]) :
    Tiling u c a s' (Function.update owed i none) := by
  have howed : ∀ i' b', Function.update owed i none i' = some b' → i' ≠ i ∧ owed i' = some b' :=
    fun i' b' hi' => (update_eq_some.mp hi').resolve_left nofun
  have hmem : ∀ b', b' ∈ s'.broadcastsOf u c ↔ b' ∈ s.broadcastsOf u c ∨ b' = b := by
    intro b'
    rw [hb, List.mem_append, List.mem_singleton]
  refine ⟨?_, ?_, ?_, ?_, ?_⟩
  · rw [hb, List.pairwise_append]
    refine ⟨h.reported, List.pairwise_singleton _ _, fun b1 h1 b2 h2 => ?_⟩
    rw [List.mem_singleton.mp h2]
    exact h.due i b hi b1 h1
  · intro i' b' hi' b'' hb''
    obtain ⟨hne, ho⟩ := howed i' b' hi'
    rcases (hmem b'').mp hb'' with hb'' | rfl
    · exact h.due i' b' ho b'' hb''
    · exact h.apart i i' b'' b' hne.symm hi ho
  · intro i1 i2 b1 b2 hne h1 h2
    exact h.apart i1 i2 b1 b2 hne (howed i1 b1 h1).2 (howed i2 b2 h2).2
  · intro b' hb'
    rw [hc]
    refine h.within b' ?_
    rcases hb' with hb' | ⟨i', hi'⟩
    · rcases (hmem b').mp hb' with hb' | rfl
      · exact .inl hb'
      · exact .inr ⟨i, hi⟩
    · exact .inr ⟨i', (howed i' b' hi').2⟩
  · intro p hap hpc
    rw [hc] at hpc
    obtain ⟨b', hb', hr⟩ := h.full p hap hpc
    rcases hb' with hb' | ⟨i', ho⟩
    · exact ⟨b', .inl ((hmem b').mpr (.inl hb')), hr⟩
    · by_cases he : i' = i
      · subst he
        rw [hi] at ho
        exact ⟨b', .inl ((hmem b').mpr (.inr (Option.some.inj ho).symm)), hr⟩
      · exact ⟨b', .inr ⟨i', update_eq_some.mpr (.inr ⟨he, ho⟩)⟩, hr⟩

end Tiling

variable {s : Shared}

lemma cursor_clear {step : Clearing} : (s.clear step).cursor u c = s.cursor u c := by
  unfold Shared.clear
  split
  · split <;> rfl
  · rfl
  · rfl

lemma broadcasts_clear {step : Clearing} : (s.clear step).broadcasts = s.broadcasts := by
  unfold Shared.clear
  split
  · split <;> rfl
  · rfl
  · rfl

lemma cursor_exec {op : Op} {o : Moment}
    (hop : ∀ pts existing, op ≠ .upsertCursor u c pts existing) :
    (Shared.exec op o s).2.cursor u c = s.cursor u c := by
  cases op with
  | currentPts | deliveredPts | readCursor | broadcast => rfl
  | forceSet | markReadMember =>
    simp only [Shared.exec]
    split <;> rfl
  | upsertCursor u' c' pts existing =>
    simp only [Shared.exec]
    split
    · rw [Shared.cursor_setCursor, if_neg]
      rintro ⟨rfl, rfl⟩
      exact hop pts existing rfl
    · rfl
  | clearing step =>
    simp only [Shared.exec]
    split
    · exact cursor_clear
    · rfl

lemma cursor_upsert (pts : ℕ) (existing : Option ℕ) (o : Moment) (s : Shared) :
    (Shared.exec (.upsertCursor u c pts existing) o s).2.cursor u c =
      if o.outcome.applied then max (s.cursor u c) pts else s.cursor u c := by
  simp only [Shared.exec]
  split
  · rw [Shared.cursor_setCursor, if_pos ⟨rfl, rfl⟩, Shared.greatest_eq]
  · rfl

lemma cursor_le_exec (op : Op) (o : Moment) (s : Shared) :
    s.cursor u c ≤ (Shared.exec op o s).2.cursor u c := by
  by_cases hop : ∃ pts existing, op = .upsertCursor u c pts existing
  · obtain ⟨pts, existing, rfl⟩ := hop
    rw [cursor_upsert]
    split
    · exact le_max_left _ _
    · exact le_rfl
  · push Not at hop
    exact (cursor_exec hop).ge

lemma cursor_outside (x : Outside) (s : Shared) : (s.outside x).cursor u c = s.cursor u c := by
  cases x <;> rfl

lemma broadcastsOf_exec (op : Op) (o : Moment) (s : Shared) :
    (Shared.exec op o s).2.broadcastsOf u c =
      s.broadcastsOf u c ++ (broadcastBy u c op).toList := by
  have hsame : ∀ s' : Shared, s'.broadcasts = s.broadcasts → broadcastBy u c op = none →
      s'.broadcastsOf u c = s.broadcastsOf u c ++ (broadcastBy u c op).toList := by
    intro s' hs' hop
    rw [hop, Option.toList_none, List.append_nil, Shared.broadcastsOf, hs']
    rfl
  cases op with
  | currentPts | deliveredPts | readCursor => exact hsame _ rfl rfl
  | forceSet | markReadMember | upsertCursor =>
    refine hsame _ ?_ rfl
    simp only [Shared.exec]
    split <;> rfl
  | clearing step =>
    refine hsame _ ?_ rfl
    simp only [Shared.exec]
    split
    · exact broadcasts_clear
    · rfl
  | broadcast b =>
    simp only [Shared.exec, Shared.broadcastsOf, broadcastBy, List.filter_append]
    by_cases hb : b.readerId = u ∧ b.channelId = c
    · simp [hb]
    · simp [hb]

/-! ### The books of the broadcasts -/

variable {i : ℕ} {j : Job} {o : Moment}

lemma upsert_undisturbed {pts : ℕ} {existing : Option ℕ}
    (hg : Undisturbed u c i j (.upsertCursor u c pts existing) o s) :
    (Shared.exec (.upsertCursor u c pts existing) o s).1 =
        .ok ⟨max (s.cursor u c) pts, (s.lastReadPts u c).all (· < pts), s.cursor u c⟩ ∧
      (Shared.exec (.upsertCursor u c pts existing) o s).2.cursor u c = max (s.cursor u c) pts := by
  obtain ⟨rfl, ho⟩ := hg ⟨rfl, rfl⟩
  constructor
  · simp only [Shared.exec, answer, ho, Shared.greatest_eq]
    rfl
  · rw [cursor_upsert, ho]
    rfl

variable {op : Op}

lemma cursor_of_not_due (hg : Undisturbed u c i j op o s)
    (hi : dueAfter u c op (Shared.exec op o s).1 = none) :
    (Shared.exec op o s).2.cursor u c = s.cursor u c := by
  by_cases hop : ∃ pts existing, op = .upsertCursor u c pts existing
  · obtain ⟨pts, existing, rfl⟩ := hop
    obtain ⟨hres, hcur⟩ := upsert_undisturbed hg
    rw [hcur]
    rw [hres] at hi
    -- the upsert has not advanced the cursor: there is a row, and it is further already
    have hadv : ¬ ((s.lastReadPts u c).all (· < pts) = true) := by
      intro ha
      simp only [dueAfter, ha, and_self, if_true] at hi
      cases hi
    unfold Shared.cursor
    cases hr : s.lastReadPts u c with
    | none => simp [hr] at hadv
    | some old =>
      have hle : pts ≤ old := by simpa [hr] using hadv
      exact max_eq_left hle
  · push Not at hop
    exact cursor_exec hop

lemma upsert_of_due {r : op.Res} (hi : dueAfter u c op r = some b) :
    ∃ pts existing, op = .upsertCursor u c pts existing := by
  cases op with
  | upsertCursor u' c' pts existing =>
    simp only [dueAfter] at hi
    split at hi
    · split at hi
      · rename_i h
        obtain ⟨-, rfl, rfl⟩ := h
        exact ⟨pts, existing, rfl⟩
      · cases hi
    · cases hi
  | currentPts | deliveredPts | forceSet | markReadMember | readCursor | clearing
  | broadcast => cases hi

/-- What is due after an operation starts where the cursor was, and ends where it is. -/
lemma due_of_incurs (hg : Undisturbed u c i j op o s)
    (hi : dueAfter u c op (Shared.exec op o s).1 = some b) :
    b.previousPts = s.cursor u c ∧ b.lastReadPts = (Shared.exec op o s).2.cursor u c := by
  obtain ⟨pts, existing, rfl⟩ := upsert_of_due hi
  obtain ⟨hres, hcur⟩ := upsert_undisturbed hg
  rw [hres] at hi
  simp only [dueAfter] at hi
  split at hi
  · obtain rfl := Option.some.inj hi
    exact ⟨rfl, hcur.symm⟩
  · cases hi

/-- What each call owes. -/
def owedAt (place : ℕ → Option Place) (i : ℕ) : Option Broadcast := (place i).bind Place.owed

lemma owedAt_update (place : ℕ → Option Place) (i : ℕ) (p : Place) :
    owedAt (Function.update place i (some p)) = Function.update (owedAt place) i p.owed := by
  funext i'
  by_cases hi : i' = i
  · rw [owedAt, hi, Function.update_self, Function.update_self, Option.bind_some]
  · rw [owedAt, Function.update_of_ne hi, Function.update_of_ne hi, owedAt]

lemma owed_next {p : Place} (hready : Place.Ready u c j op p)
    (hg : Undisturbed u c i j op o s) (hd : dueAfter u c op (Shared.exec op o s).1 = none)
    (hb : broadcastBy u c op = none) :
    (Place.next u c op (Shared.exec op o s).1 p).owed = p.owed := by
  cases p with
  | clear => rw [Place.next, hd]; rfl
  | failed => rfl
  | due b =>
    have hgo : stops op (Shared.exec op o s).1 = false := by
      cases op with
      | clearing step =>
        simp only [Shared.exec, answer, hg (hready.clears step rfl rfl)]
        rfl
      | currentPts | deliveredPts | forceSet | markReadMember | readCursor | upsertCursor
      | broadcast => rfl
    simp [Place.next, hb, hgo]

lemma guards {tracked : Bool} {a : ℕ} :
    (machine tracked).Guards (course u c) (Undisturbed u c) (fun _ _ _ _ => false)
      fun _ s place => a ≤ s.cursor u c ∧ Tiling u c a s (owedAt place) where
  prog := pays_markRead
  start n i j s place hI hi := by
    have hnone : owedAt place i = none := by rw [owedAt, hi]; rfl
    rw [owedAt_update, show (course u c).start j = Place.clear from rfl, Place.owed, ← hnone,
      Function.update_eq_self]
    exact hI
  call n i j op o s place p hI hi hready hg := by
    have howed : owedAt place i = p.owed := by rw [owedAt, hi]; rfl
    have hlog := broadcastsOf_exec (u := u) (c := c) op o s
    rw [owedAt_update]
    change a ≤ (Shared.exec op o s).2.cursor u c ∧ Tiling u c a (Shared.exec op o s).2
      (Function.update (owedAt place) i (Place.next u c op (Shared.exec op o s).1 p).owed)
    cases hd : dueAfter u c op (Shared.exec op o s).1 with
    | some b =>
      obtain ⟨pts, existing, rfl⟩ := upsert_of_due hd
      obtain rfl := hready.advances pts existing rfl
      obtain ⟨hp, hl⟩ := due_of_incurs hg hd
      have hle := cursor_le_exec (u := u) (c := c) (.upsertCursor u c pts existing) o s
      rw [Place.next, hd]
      exact ⟨hI.1.trans hle, hI.2.incur howed hI.1 hp hl hle (hlog.trans (List.append_nil _))⟩
    | none =>
      have hcur := cursor_of_not_due hg hd
      refine ⟨hI.1.trans hcur.ge, ?_⟩
      cases hb : broadcastBy u c op with
      | none =>
        rw [hb, Option.toList_none, List.append_nil] at hlog
        rw [owed_next hready hg hd hb, ← howed, Function.update_eq_self]
        exact hI.2.congr hcur hlog
      | some b =>
        obtain rfl := hready.reports b hb
        rw [Place.next_report hb]
        rw [hb] at hlog
        exact hI.2.settle howed hcur hlog
  env n x s place hI := by
    have hcur := cursor_outside (u := u) (c := c) x s
    refine ⟨hI.1.trans hcur.ge, hI.2.congr hcur ?_⟩
    exact congrArg (List.filter _) (by cases x <;> rfl)

/-! ### Whole runs -/

/-- The same state, with no broadcasts made yet. -/
def Shared.fresh (s : Shared) : Shared := { s with broadcasts := [] }

def run (tracked : Bool) (s : Shared) (evs : List ReadEvent) : ReadTasks :=
  (machine tracked).run (State.init s.fresh) evs

/-- No call of this reader in this channel is under way. -/
def Settled (u : UserId) (c : ChannelId) (s : ReadTasks) : Prop :=
  ∀ i j t, s.tasks i = .running j t → ¬ j.isOf u c

lemma owedAt_eq_none {x : Task Op Op.Res Job ServerError ReadPtsUpdateResult}
    {place : ℕ → Option Place} (h : (course u c).Stands x (place i))
    (hx : ∀ j t, x = .running j t → ¬ j.isOf u c) : owedAt place i = none := by
  match x, h with
  | .free, h => rw [owedAt, h]; rfl
  | .finished _ _, ⟨p, hp, hrest⟩ | .running _ (.ret _), ⟨p, hp, hrest⟩
  | .running _ (.fail _), ⟨p, hp, hrest⟩ =>
    rw [owedAt, hp]
    exact hrest
  | .running j (.call op k), ⟨p, hp, hready, _⟩ =>
    rw [owedAt, hp]
    exact Option.not_isSome_iff_eq_none.mp fun h => hx j _ rfl (hready.mine h)

/-- **What the broadcasts cover.** The stored cursor never decreases, in any interleaving of calls.
If in addition every upsert of the cursor finds the row as it was at its start, and the statements
from there on succeed, then the ranges that are broadcast have nothing in common, they lie between
the cursor at the start and the cursor now, and once the calls have ended they are all of it. -/
theorem read_cursor_broadcasts_tile (tracked : Bool) (s : Shared) (u : UserId) (c : ChannelId)
    (evs evs' : List ReadEvent) :
    (run tracked s evs).shared.cursor u c ≤ (run tracked s (evs ++ evs')).shared.cursor u c ∧
    (GivenRun (machine tracked) (Undisturbed u c) (State.init s.fresh) evs →
      ((run tracked s evs).shared.broadcastsOf u c).Pairwise Broadcast.Apart ∧
      (⋃ b ∈ (run tracked s evs).shared.broadcastsOf u c, b.range) ⊆
        Set.Ioc (s.cursor u c) ((run tracked s evs).shared.cursor u c) ∧
      (Settled u c (run tracked s evs) →
        (⋃ b ∈ (run tracked s evs).shared.broadcastsOf u c, b.range) =
          Set.Ioc (s.cursor u c) ((run tracked s evs).shared.cursor u c))) := by
  constructor
  · unfold run
    rw [Machine.run_append]
    exact Machine.shared_run (M := machine tracked)
      (R := fun s s' => s.cursor u c ≤ s'.cursor u c) (fun _ => le_rfl)
      (fun h h' => h.trans h') cursor_le_exec (fun x s => (cursor_outside x s).ge) _ evs'
  · intro hg
    have h0 : Tiling u c (s.cursor u c) s.fresh (owedAt fun _ => none) := by
      refine ⟨.nil, nofun, nofun, ?_, fun p h1 h2 => ?_⟩
      · rintro b (hb | ⟨i, hi⟩)
        · cases hb
        · cases hi
      · exact absurd h2 (Nat.not_le.mpr h1)
    obtain ⟨place, ⟨-, ht⟩, hstands⟩ := guards.run (n := 0)
      (s := State.init s.fresh) ⟨le_rfl, h0⟩ (fun _ => rfl) evs hg
    have hsub : (⋃ b ∈ (run tracked s evs).shared.broadcastsOf u c, b.range) ⊆
        Set.Ioc (s.cursor u c) ((run tracked s evs).shared.cursor u c) := by
      refine Set.iUnion₂_subset fun b hb => ?_
      have hw := ht.within b (.inl hb)
      exact Set.Ioc_subset_Ioc hw.1 hw.2
    refine ⟨ht.reported, hsub, fun hset => hsub.antisymm fun p hp => ?_⟩
    obtain ⟨b, hb | ⟨i, hi⟩, hr⟩ := ht.full p hp.1 hp.2
    · exact Set.mem_iUnion₂.mpr ⟨b, hb, hr⟩
    · rw [owedAt_eq_none (hstands i) (hset i)] at hi
      cases hi

/-! ### Two calls of one reader

User `1` is a member of channel `5`, which has ten commits, and has read nothing. -/

def sampleShared : Shared where
  messages := .empty
  channels _ := none
  channelTypes _ := none
  unread := .empty
  lastReadPts _ _ := none
  log := []
  currentPts _ := some 10
  cached u c := if u = 1 ∧ c = 5 then some 0 else none
  delivered _ _ := 0
  broadcasts := []

/-- Task `i` takes that many steps, and nothing fails. -/
def steps (i n : ℕ) : List ReadEvent := List.replicate n (.step i ⟨.ok, none⟩)

/-- One call reads up to `5`, and then another up to `7`. -/
def sampleCalls : List ReadEvent :=
  .start 0 ⟨1, 5, 5, none⟩ :: steps 0 9 ++ .start 1 ⟨1, 5, 7, none⟩ :: steps 1 9

lemma sampleCalls_settled : Settled 1 5 (run false sampleShared sampleCalls) := by
  intro i j t h
  match i with
  | 0 => cases h
  | 1 => cases h
  | i + 2 => cases h

theorem read_cursor_broadcasts_tile_sample :
    ((run false sampleShared sampleCalls).shared.broadcastsOf 1 5).Pairwise Broadcast.Apart ∧
    (⋃ b ∈ (run false sampleShared sampleCalls).shared.broadcastsOf 1 5, b.range) =
      Set.Ioc 0 7 := by
  have h := (read_cursor_broadcasts_tile false sampleShared 1 5 sampleCalls []).2 (by decide)
  exact ⟨h.1, h.2.2 sampleCalls_settled⟩

/-- The two calls at the same time: both upserts have started before one of them has stored its
cursor. -/
def overlappingCalls : List ReadEvent :=
  .start 0 ⟨1, 5, 5, none⟩ :: .start 1 ⟨1, 5, 7, none⟩ :: steps 0 3 ++ steps 1 3 ++ steps 0 6 ++
    steps 1 6

lemma overlappingCalls_broadcasts :
    (run false sampleShared overlappingCalls).shared.broadcastsOf 1 5 =
      [⟨1, 5, 0, 5⟩, ⟨1, 5, 0, 7⟩] := by
  decide

/-- No statement fails and both calls succeed, but what the first has reported is reported
again. -/
theorem overlapping_broadcasts :
    ((run false sampleShared overlappingCalls).tasks 0).result = some (.ok ⟨5, 5⟩) ∧
    ((run false sampleShared overlappingCalls).tasks 1).result = some (.ok ⟨5, 7⟩) ∧
    ¬ ((run false sampleShared overlappingCalls).shared.broadcastsOf 1 5).Pairwise
      Broadcast.Apart := by
  refine ⟨by decide, by decide, ?_⟩
  rw [overlappingCalls_broadcasts, List.pairwise_pair]
  intro h
  have h1 : 1 ∈ (⟨1, 5, 0, 5⟩ : Broadcast).range := ⟨by decide, by decide⟩
  have h2 : 1 ∈ (⟨1, 5, 0, 7⟩ : Broadcast).range := ⟨by decide, by decide⟩
  exact Set.disjoint_left.mp h h1 h2

end PrivChat.ReadState
