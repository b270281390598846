import Mathlib

/-!
Penalties for clients that misbehave.

A violation puts the client into a state for a while. Which state depends on the one in force, and
replaces it together with the time when it ends.
-/

namespace PrivChat.Security

inductive ClientState
  | normal | throttled | writeDisabled | shadowBanned | disconnected
  deriving DecidableEq

inductive ViolationType
  | rateLimit | authFailed | malformedRequest | suspiciousActivity | protocolAttack | spam
  | fanoutAbuse

/-- Seconds, in the nanoseconds of the clock. -/
def secs (n : ℕ) : ℕ := n * 10 ^ 9

structure ClientStateManager where
  state : ClientState := .normal
  stateExpiry : Option ℕ := none

namespace ClientStateManager

def currentState (m : ClientStateManager) (now : ℕ) : ClientState :=
  if m.stateExpiry.any (· ≤ now) then .normal else m.state

def transitionTo (now : ℕ) (state : ClientState) (duration : ℕ) : ClientStateManager :=
  ⟨state, some (now + duration)⟩

def autoEscalate (m : ClientStateManager) (now : ℕ) (v : ViolationType) : ClientStateManager :=
  match m.currentState now, v with
  | .normal, .rateLimit => transitionTo now .throttled (secs 60)
  | .throttled, .rateLimit => transitionTo now .writeDisabled (secs 300)
  | .writeDisabled, _ => transitionTo now .shadowBanned (secs 3600)
  | _, .protocolAttack => transitionTo now .disconnected (secs 1800)
  | _, .spam => transitionTo now .shadowBanned (secs 7200)
  | _, _ => transitionTo now .throttled (secs 30)

/-- A history of violations, each some time after the one before it. -/
def run (history : List (ℕ × ViolationType)) : ClientStateManager × ℕ :=
  history.foldl (fun (m, now) (gap, v) => (m.autoEscalate (now + gap) v, now + gap)) ({}, 0)

end ClientStateManager

def ClientState.severity : ClientState → ℕ
  | .normal => 0
  | .throttled => 1
  | .writeDisabled => 2
  | .shadowBanned => 3
  | .disconnected => 4

namespace ClientStateManager

/-- The violation does not take back the state in force: what follows is as severe, and what is left
of that state does not last longer. -/
def Escalates (m : ClientStateManager) (now : ℕ) (v : ViolationType) : Prop :=
  match m.currentState now, v with
  | .normal, _ | .writeDisabled, _ | .throttled, .rateLimit | .throttled, .protocolAttack
  | .throttled, .spam | .shadowBanned, .spam | .disconnected, .protocolAttack => True
  | .throttled, _ => ∀ e ∈ m.stateExpiry, e ≤ now + secs 30
  | .shadowBanned, .protocolAttack => ∀ e ∈ m.stateExpiry, e ≤ now + secs 1800
  | .shadowBanned, _ | .disconnected, _ => False

/-- The longest time that a state is given. -/
def longest : ClientState → ℕ
  | .normal => 0
  | .throttled => secs 60
  | .writeDisabled => secs 300
  | .shadowBanned => secs 7200
  | .disconnected => secs 1800

/-- What is in force ends, and not too late. -/
def Bounded (m : ClientStateManager) (now : ℕ) : Prop :=
  m.state ≠ .normal → ∃ e, m.stateExpiry = some e ∧ e ≤ now + longest m.state

variable {m : ClientStateManager} {now : ℕ}

lemma currentState_eq_normal :
    m.currentState now = .normal ↔ m.state = .normal ∨ ∃ e ∈ m.stateExpiry, e ≤ now := by
  cases h : m.stateExpiry with
  | none => simp [currentState, h]
  | some e => by_cases hle : e ≤ now <;> simp [currentState, h, hle]

lemma bounded_autoEscalate (v : ViolationType) : (m.autoEscalate now v).Bounded now := by
  intro _
  unfold autoEscalate
  split <;> exact ⟨_, rfl, Nat.add_le_add_left (Nat.mul_le_mul_right _ (by decide)) _⟩

lemma bounded_run (history : List (ℕ × ViolationType)) :
    (run history).1.Bounded (run history).2 := by
  induction history using List.reverseRecOn with
  | nil => exact fun h => absurd rfl h
  | append_singleton history e _ =>
    rw [run, List.foldl_append]
    exact bounded_autoEscalate e.2

/-- A state in force is covered by another one that is as severe and ends no earlier. -/
lemma covered_iff {e l : ℕ} {s : ClientState} (he : m.stateExpiry = some e) (hnow : now < e)
    (hs : m.state ≠ .normal) (hl : 0 < l) :
    (∀ d, (m.currentState (now + d)).severity ≤
      ((transitionTo now s l).currentState (now + d)).severity) ↔
    m.state.severity ≤ s.severity ∧ e ≤ now + l := by
  have hpos : 0 < m.state.severity := by
    cases h : m.state <;> simp_all [ClientState.severity]
  simp only [currentState, transitionTo, he, Option.any_some, decide_eq_true_eq]
  constructor
  · intro h
    have hstart := h 0
    rw [if_neg (by omega), if_neg (by omega)] at hstart
    refine ⟨hstart, ?_⟩
    by_contra hlt
    have hend := h l
    rw [if_neg (by omega), if_pos (Nat.le_refl _)] at hend
    exact absurd hpos (Nat.not_lt_of_ge hend)
  · rintro ⟨hsev, hle⟩ d
    split
    · exact Nat.zero_le _
    · rwa [if_neg (by omega)]

end ClientStateManager

open ClientStateManager in
/-- **One more violation never helps exactly if it does not take back the state in force**: a
violation that the table does not name throttles for half a minute, whatever is in force, and an
attack ends a ban that would last longer than half an hour. -/
theorem more_violations_never_help_iff (history : List (ℕ × ViolationType)) (gap : ℕ)
    (v : ViolationType) :
    let m := (run history).1
    let now := (run history).2 + gap
    (∀ d, (m.currentState (now + d)).severity ≤
      ((m.autoEscalate now v).currentState (now + d)).severity) ↔ m.Escalates now v := by
  intro m now
  have hb : m.Bounded (run history).2 := bounded_run history
  by_cases hn : m.currentState now = .normal
  · have hlater : ∀ d, m.currentState (now + d) = .normal := fun d =>
      currentState_eq_normal.mpr ((currentState_eq_normal.mp hn).imp_right
        fun ⟨e, he, hle⟩ => ⟨e, he, by omega⟩)
    simp [hlater, Escalates, hn, ClientState.severity]
  · have hforce := hn
    simp only [currentState_eq_normal, not_or, not_exists, not_and, Nat.not_le] at hforce
    obtain ⟨e, he, hle⟩ := hb hforce.1
    have hnow : now < e := hforce.2 e he
    have hstate : m.currentState now = m.state := by
      simp [currentState, he, Nat.not_le_of_gt hnow]
    replace hle : e ≤ now + longest m.state := by omega
    unfold autoEscalate Escalates
    rw [hstate]
    cases hs : m.state with
    | normal => exact absurd hs hforce.1
    | _ =>
      rw [hs, longest] at hle
      cases v <;> dsimp only <;> rw [covered_iff he hnow hforce.1 (by simp [secs]), hs] <;>
        simp only [ClientState.severity, he, Option.mem_some_iff, forall_eq', secs, iff_true,
          iff_false] at hle ⊢ <;> omega

/-- A client is banned for two hours for spam. A minute later it exceeds its rate, and is only
throttled. -/
theorem violation_lifts_ban :
    let m := (ClientStateManager.run [(0, .spam)]).1
    m.currentState (secs 60) = .shadowBanned ∧
      (m.autoEscalate (secs 60) .rateLimit).currentState (secs 60) = .throttled := by
  decide

end PrivChat.Security
