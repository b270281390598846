import PrivChat.Runs.Basic

/-!
Maps that tasks share, one step on a map at a time.

The tracker of presence keeps which devices of a user are online, and the limiter of typing events
when the last one was let through. A call is a few steps, each atomic on an entry of the map; the
steps of other calls come in between.
-/

namespace PrivChat.Infra

open Runs

/-! ### Devices that are online -/

abbrev DeviceId := String

/-- The entry of a user, and the devices whose calls have found it empty and will remove it. `last`
remembers whether the last call of a device was that it has connected. -/
structure PresenceTracker where
  onlineDevices : Option (List DeviceId)
  removing : List DeviceId
  last : DeviceId → Bool

namespace PresenceTracker

def new : PresenceTracker := ⟨none, [], fun _ => false⟩

inductive Step
  | addOnlineDevice (d : DeviceId)
  | removeOnlineDevice (d : DeviceId)
  | removeEntry (d : DeviceId)

/-- A device has one call at a time. -/
def step (s : PresenceTracker) : Step → PresenceTracker
  | .addOnlineDevice d =>
    if d ∈ s.removing then s
    else { s with
      onlineDevices := some ((s.onlineDevices.getD []).insert d)
      last := Function.update s.last d true }
  | .removeOnlineDevice d =>
    if d ∈ s.removing then s
    else
      let devices := s.onlineDevices.map (·.filter (· ≠ d))
      { onlineDevices := devices
        removing := if devices = some [] then d :: s.removing else s.removing
        last := Function.update s.last d false }
  | .removeEntry d =>
    if d ∈ s.removing then { s with onlineDevices := none, removing := s.removing.erase d } else s

def deviceCount (s : PresenceTracker) : ℕ := (s.onlineDevices.map (·.length)).getD 0

def isOnline (s : PresenceTracker) : Bool := 0 < s.deviceCount

/-- The devices that are tracked are those whose last call was that they have connected. -/
def Right (s : PresenceTracker) : Prop :=
  (∀ d, d ∈ s.onlineDevices.getD [] ↔ s.last d = true) ∧
    (s.isOnline = true ↔ ∃ d, s.last d = true)

/-- The entry that is removed is empty still. -/
def stillEmpty (s : PresenceTracker) : Step → Bool
  | .removeEntry d => d ∈ s.removing → s.onlineDevices.getD [] = []
  | .addOnlineDevice _ | .removeOnlineDevice _ => true

variable {s : PresenceTracker}

lemma right_of_mem (h : ∀ d, d ∈ s.onlineDevices.getD [] ↔ s.last d = true) : s.Right := by
  refine ⟨h, ?_⟩
  simp only [← h]
  rw [isOnline, decide_eq_true_iff, deviceCount]
  cases s.onlineDevices with
  | none => simp
  | some ds => exact List.length_pos_iff_exists_mem

lemma Right.step (h : s.Right) (st : Step) (hst : s.stillEmpty st = true) : (s.step st).Right := by
  cases st with
  | addOnlineDevice d =>
    simp only [PresenceTracker.step]
    split
    · exact h
    · refine right_of_mem fun d' => ?_
      by_cases hd : d' = d
      · simp [hd]
      · simp [hd, h.1 d']
  | removeOnlineDevice d =>
    simp only [PresenceTracker.step]
    split
    · exact h
    · refine right_of_mem fun d' => ?_
      have hmem := h.1 d'
      by_cases hd : d' = d
      · cases s.onlineDevices <;> simp [hd]
      · cases hs : s.onlineDevices <;> simpa [hd, hs] using hmem
  | removeEntry d =>
    simp only [PresenceTracker.step]
    split
    · rename_i hd
      refine right_of_mem fun d' => ?_
      rw [← h.1 d', of_decide_eq_true hst hd]
      rfl
    · exact h

end PresenceTracker

/-- **No device is lost, as long as an entry that is removed is empty still**: in every state that
the steps of any calls lead to, the devices that are online are those that are tracked. -/
theorem presence_loses_no_device (steps : List PresenceTracker.Step)
    (h : Given PresenceTracker.step (fun s st => s.stillEmpty st) .new steps) :
    (steps.foldl PresenceTracker.step .new).Right :=
  h.keeps (fun _ st hst hs => hs.step st hst)
    (PresenceTracker.right_of_mem fun d => by simp [PresenceTracker.new])

theorem presence_loses_no_device_sample :
    (List.foldl PresenceTracker.step .new [.addOnlineDevice "ios", .removeOnlineDevice "ios",
      .removeEntry "ios", .addOnlineDevice "web"]).Right :=
  presence_loses_no_device _ (by decide)

/-- The second device comes when the set is empty and the entry not yet removed. All calls are
complete then, and it is connected but not tracked. -/
theorem presence_loses_device :
    let s := List.foldl PresenceTracker.step .new [.addOnlineDevice "ios",
      .removeOnlineDevice "ios", .addOnlineDevice "web", .removeEntry "ios"]
    s.removing = [] ∧ s.last "web" = true ∧ s.isOnline = false ∧ ¬ s.Right := by
  refine ⟨by decide, by decide, by decide, fun h => ?_⟩
  have hmem := (h.1 "web").mpr (by decide)
  revert hmem
  decide

/-! ### Typing events -/

abbrev Key := ℕ × ℕ

def minInterval : ℕ := 500
def expireThreshold : ℕ := 10000
def cleanupBudget : ℕ := 256

/-- A call, and the reading of the clock it has started with. -/
inductive TypingCall
  | idle
  | checking (key : Key) (now : ℕ)
  | missing (key : Key) (now : ℕ)
  | scanning (now scanned : ℕ) (expired : List Key)
  | cleaning (now : ℕ) (expired : List Key)
  | removing (now : ℕ) (key : Key) (expired : List Key)

def TypingCall.reading : TypingCall → ℕ
  | .idle => 0
  | .checking _ now | .missing _ now | .scanning now _ _ | .cleaning now _
  | .removing now _ _ => now

/-- The times are in milliseconds. `admitted` remembers what has been let through. -/
structure TypingRateLimiter where
  lastAllowed : Key → Option ℕ
  clock : ℕ
  calls : ℕ → TypingCall
  admitted : List (Key × ℕ)

namespace TypingRateLimiter

def new : TypingRateLimiter := ⟨fun _ => none, 0, fun _ => .idle, []⟩

inductive Step
  | tick (ms : ℕ)
  | check (i : ℕ) (key : Key)
  | cleanup (i : ℕ)
  | scan (i : ℕ) (key : Key)
  | go (i : ℕ)

def setCall (s : TypingRateLimiter) (i : ℕ) (c : TypingCall) : TypingRateLimiter :=
  { s with calls := Function.update s.calls i c }

def allow (s : TypingRateLimiter) (i : ℕ) (key : Key) (now : ℕ) : TypingRateLimiter :=
  { s with
    lastAllowed := Function.update s.lastAllowed key (some now)
    calls := Function.update s.calls i .idle
    admitted := s.admitted ++ [(key, now)] }

def expired (s : TypingRateLimiter) (now : ℕ) (key : Key) : Bool :=
  (s.lastAllowed key).any fun t => expireThreshold ≤ now - t

def go (s : TypingRateLimiter) (i : ℕ) : TypingRateLimiter :=
  match s.calls i with
  | .idle => s
  | .checking key now =>
    match s.lastAllowed key with
    | some t => if now - t < minInterval then s.setCall i .idle else s.allow i key now
    | none => s.setCall i (.missing key now)
  | .missing key now => s.allow i key now
  | .scanning now _ keys => s.setCall i (.cleaning now keys)
  | .cleaning _ [] => s.setCall i .idle
  | .cleaning now (key :: keys) =>
    s.setCall i (if s.expired now key then .removing now key keys else .cleaning now keys)
  | .removing now key keys =>
    { s.setCall i (.cleaning now keys) with
      lastAllowed := Function.update s.lastAllowed key none }

def step (s : TypingRateLimiter) : Step → TypingRateLimiter
  | .tick ms => { s with clock := s.clock + ms }
  | .check i key =>
    match s.calls i with
    | .idle => s.setCall i (.checking key s.clock)
    | _ => s
  | .cleanup i =>
    match s.calls i with
    | .idle => s.setCall i (.scanning s.clock 0 [])
    | _ => s
  | .scan i key =>
    match s.calls i with
    | .scanning now n keys =>
      if n < cleanupBudget then
        s.setCall i (.scanning now (n + 1) (if s.expired now key then keys ++ [key] else keys))
      else s
    | _ => s
  | .go i => s.go i

/-- Any two events for a key that have been let through are the interval apart. -/
def Spaced (s : TypingRateLimiter) : Prop :=
  s.admitted.Pairwise fun a b => a.1 = b.1 → a.2 + minInterval ≤ b.2 ∨ b.2 + minInterval ≤ a.2

/-- A call that has found no entry comes to insert one while there is none, soon enough after it
has read the clock, and an entry that is removed has expired. -/
def undisturbed (s : TypingRateLimiter) : Step → Bool
  | .go i =>
    match s.calls i with
    | .missing key now =>
      s.lastAllowed key = none ∧ s.clock + minInterval ≤ now + expireThreshold
    | .removing now key _ => s.lastAllowed key = none ∨ s.expired now key
    | _ => true
  | _ => true

/-- What is in the map is the last event that was let through; if there is nothing, it was long
ago. -/
structure Inv (s : TypingRateLimiter) : Prop where
  latest : ∀ k t, s.lastAllowed k = some t → ∀ t', (k, t') ∈ s.admitted → t' ≤ t
  gone : ∀ k, s.lastAllowed k = none → ∀ t, (k, t) ∈ s.admitted → t + expireThreshold ≤ s.clock
  spaced : s.admitted.Pairwise fun a b => a.1 = b.1 → a.2 + minInterval ≤ b.2
  readings : ∀ i, (s.calls i).reading ≤ s.clock

variable {s : TypingRateLimiter} {i : ℕ}

lemma Inv.setCall (h : s.Inv) {c : TypingCall} (hc : c.reading ≤ s.clock) : (s.setCall i c).Inv :=
  { h with
    readings := fun j => by
      by_cases hj : j = i
      · simpa [TypingRateLimiter.setCall, hj] using hc
      · simpa [TypingRateLimiter.setCall, hj] using h.readings j }

lemma Inv.allow {key : Key} {now : ℕ} (h : s.Inv)
    (hnow : ∀ t, (key, t) ∈ s.admitted → t + minInterval ≤ now) : (s.allow i key now).Inv where
  latest k t ht t' ht' := by
    by_cases hk : k = key
    · have hnow' : now = t := by simpa [TypingRateLimiter.allow, hk] using ht
      rcases List.mem_append.mp ht' with hold | hnew
      · have := hnow t' (hk ▸ hold)
        omega
      · simp_all
    · refine h.latest k t ?_ t' ?_
      · simpa [TypingRateLimiter.allow, hk] using ht
      · simpa [TypingRateLimiter.allow, hk] using ht'
  gone k ht t ht' := by
    by_cases hk : k = key
    · simp [TypingRateLimiter.allow, hk] at ht
    · refine h.gone k ?_ t ?_
      · simpa [TypingRateLimiter.allow, hk] using ht
      · simpa [TypingRateLimiter.allow, hk] using ht'
  spaced := by
    refine List.pairwise_append.mpr ⟨h.spaced, List.pairwise_singleton _ _, ?_⟩
    rintro ⟨k, t⟩ ht b hb hk
    cases List.mem_singleton.mp hb
    obtain rfl : k = key := hk
    exact hnow t ht
  readings := (h.setCall (c := .idle) (Nat.zero_le _)).readings

lemma Inv.go (h : s.Inv) (hs : s.undisturbed (.go i) = true) : (s.go i).Inv := by
  have hi := h.readings i
  simp only [undisturbed] at hs
  unfold TypingRateLimiter.go
  cases hc : s.calls i with
  | idle => exact h
  | checking key now =>
    rw [hc] at hi
    dsimp only
    cases hl : s.lastAllowed key with
    | none => exact h.setCall hi
    | some t =>
      dsimp only
      split
      · exact h.setCall (Nat.zero_le _)
      · refine h.allow fun t' ht' => ?_
        have := h.latest key t hl t' ht'
        simp only [minInterval] at *
        omega
  | missing key now =>
    rw [hc, decide_eq_true_iff] at hs
    refine h.allow fun t ht => ?_
    have := h.gone key hs.1 t ht
    omega
  | scanning now n keys =>
    rw [hc] at hi
    exact h.setCall hi
  | cleaning now keys =>
    rw [hc] at hi
    cases keys with
    | nil => exact h.setCall (Nat.zero_le _)
    | cons key keys =>
      refine h.setCall ?_
      split <;> exact hi
  | removing now key keys =>
    rw [hc] at hi hs
    have hold := h.setCall (i := i) (c := .cleaning now keys) hi
    refine { hold with latest := fun k t ht => ?_, gone := fun k hk t ht => ?_ }
    · by_cases hkey : k = key
      · simp [hkey] at ht
      · exact h.latest k t (by simpa [hkey] using ht)
    · by_cases hkey : k = key
      · subst hkey
        rcases of_decide_eq_true hs with hnone | hexp
        · exact h.gone k hnone t ht
        · obtain ⟨t', ht', hle⟩ := (Option.any_eq_true _ _).mp hexp
          have := h.latest k t' ht' t ht
          have := of_decide_eq_true hle
          simp only [TypingCall.reading, expireThreshold] at *
          change t + 10000 ≤ s.clock
          omega
      · exact h.gone k (by simpa [hkey] using hk) t ht

lemma Inv.step (h : s.Inv) (st : Step) (hst : s.undisturbed st = true) : (s.step st).Inv := by
  cases st with
  | tick ms =>
    exact { h with
      gone := fun k hk t ht => Nat.le_add_right_of_le (h.gone k hk t ht)
      readings := fun i => Nat.le_add_right_of_le (h.readings i) }
  | check i key | cleanup i =>
    simp only [TypingRateLimiter.step]
    split
    · exact h.setCall (Nat.le_refl _)
    · exact h
  | scan i key =>
    simp only [TypingRateLimiter.step]
    split
    · rename_i now n keys hc
      split
      · have hi := h.readings i
        rw [hc] at hi
        exact h.setCall hi
      · exact h
    · exact h
  | go i => exact h.go hst

end TypingRateLimiter

/-- **Typing events for a key are the interval apart, as long as the calls do not disturb each
other between two steps on the map.** -/
theorem typing_events_spaced (steps : List TypingRateLimiter.Step)
    (h : Given TypingRateLimiter.step (fun s st => s.undisturbed st) .new steps) :
    (steps.foldl TypingRateLimiter.step .new).Spaced := by
  have hinv : (steps.foldl TypingRateLimiter.step .new).Inv := by
    refine h.keeps (fun _ st hst hs => hs.step st hst) ⟨?_, ?_, .nil, fun _ => Nat.le_refl _⟩
    · exact fun _ _ _ _ h => nomatch h
    · exact fun _ _ _ h => nomatch h
  exact hinv.spaced.imp fun h hk => .inl (h hk)

theorem typing_events_spaced_sample :
    (List.foldl TypingRateLimiter.step .new [.check 0 (1, 2), .go 0, .go 0, .tick 100,
      .check 1 (1, 2), .go 1, .tick 400, .check 0 (1, 2), .go 0]).Spaced :=
  typing_events_spaced _ (by decide)

/-- Two first events of a key come at the same time: neither call finds an entry. -/
theorem typing_events_not_spaced :
    let s := List.foldl TypingRateLimiter.step .new [.check 0 (1, 2), .check 1 (1, 2), .go 0, .go 1,
      .go 0, .go 1]
    s.admitted = [((1, 2), 0), ((1, 2), 0)] ∧ ¬ s.Spaced := by
  have hadmitted : (List.foldl TypingRateLimiter.step .new [.check 0 (1, 2), .check 1 (1, 2), .go 0,
      .go 1, .go 0, .go 1]).admitted = [((1, 2), 0), ((1, 2), 0)] := by decide
  refine ⟨hadmitted, ?_⟩
  rw [TypingRateLimiter.Spaced, hadmitted]
  decide

end PrivChat.Infra
