import Mathlib.Data.Nat.Notation
import PrivChat.Runs.Basic

/-!
A card that is shared, and the requests that rely on it.

Each server keeps a copy of the record, over one shared store. Whether the card is used is looked
up when a profile is opened or a friend is asked for by the card, and written when the request is
stored. A profile that was opened gives a grant, with which one asks without looking.
-/

namespace PrivChat.Friends

open Runs

/-- What a request has still to do. By the card it is checked; then a profile gives a grant, and a
friend request marks the card and is stored. -/
inductive Stage
  | checkLocal | checkShared | checkCopy (used : Bool)
  | saveGrant | redeemGrant
  | markLocal | markShared | markCopy (used : Bool) | setLocal | setShared
  | sendRequest | done
  deriving DecidableEq

/-- A request of the one the card is shared with, on one of the servers. -/
structure CardRequest where
  server : ℕ
  detail : Bool
  stage : Stage

/-- Of the record only whether it is used, in the store and on each server. -/
structure CardShare where
  shared : Option Bool
  copies : ℕ → Option Bool
  grants : ℕ
  requests : List CardRequest
  stored : ℕ

namespace CardShare

/-- After `createCardShare` on a server. The write to the store may have failed. -/
def created (server : ℕ) (written : Bool) : CardShare :=
  ⟨if written then some false else none, fun k => if k = server then some false else none, 0, [], 0⟩

/-- A request arrives, by the card or by a grant; request `i` makes its next step, and the store,
the other checks or the database let it; a copy or the record in the store runs out. -/
inductive Step
  | detail (server : ℕ)
  | apply (server : ℕ)
  | applyGrant (server : ℕ)
  | go (i : ℕ) (ok : Bool)
  | evict (server : ℕ)
  | expire

variable (s : CardShare)

def arrive (server : ℕ) (detail : Bool) (stage : Stage) : CardShare :=
  { s with requests := s.requests ++ [⟨server, detail, stage⟩] }

def setCopy (server : ℕ) (used : Option Bool) : CardShare :=
  { s with copies := fun k => if k = server then used else s.copies k }

/-- What follows the check of a record, if the other checks are passed. -/
def verdict (detail used ok : Bool) : Stage :=
  if used || !ok then .done else if detail then .saveGrant else .markLocal

/-- The next step of a request, and what it has to do then. -/
def advance (r : CardRequest) (ok : Bool) : CardShare × Stage :=
  match r.stage with
  | .checkLocal =>
    (s, match s.copies r.server with
      | some used => verdict r.detail used ok
      | none => .checkShared)
  | .checkShared =>
    (s, match s.shared with
      | some used => if ok then .checkCopy used else .done
      | none => .done)
  | .checkCopy used => (s.setCopy r.server (some used), verdict r.detail used ok)
  | .saveGrant => ({ s with grants := if ok then s.grants + 1 else s.grants }, .done)
  | .redeemGrant => (s, if ok && s.grants != 0 then .markLocal else .done)
  | .markLocal => (s, if (s.copies r.server).isSome then .setLocal else .markShared)
  | .markShared =>
    -- without the record the request goes on all the same
    (s, match s.shared with
      | some used => if ok then .markCopy used else .sendRequest
      | none => .sendRequest)
  | .markCopy used => (s.setCopy r.server (some used), .setLocal)
  | .setLocal => (s.setCopy r.server (some true), .setShared)
  | .setShared => ({ s with shared := if ok then some true else s.shared }, .sendRequest)
  | .sendRequest => ({ s with stored := if ok then s.stored + 1 else s.stored }, .done)
  | .done => (s, .done)

def step : Step → CardShare
  | .detail server => s.arrive server true .checkLocal
  | .apply server => s.arrive server false .checkLocal
  | .applyGrant server => s.arrive server false .redeemGrant
  | .go i ok =>
    match s.requests[i]? with
    | none => s
    | some r =>
      let (s', stage) := s.advance r ok
      { s' with requests := s.requests.set i { r with stage } }
  | .evict server => s.setCopy server none
  | .expire => { s with shared := none }

end CardShare

/-- The friend request has passed its check, or has its grant, and is not stored yet. -/
def CardRequest.passed (r : CardRequest) : Bool :=
  match r.stage with
  | .checkCopy used => !r.detail && !used
  | .markLocal | .markShared | .markCopy _ | .setLocal | .setShared | .sendRequest => true
  | _ => false

namespace CardShare

/-- The record in the store is unused, and no friend request has passed. -/
def isFree (s : CardShare) : Bool := s.shared = some false && !s.requests.any (·.passed)

/-- A friend request is let through only while the card is free, be it by a copy, by the store or
by a grant; and the store answers when the card is marked. -/
def careful (s : CardShare) : Step → Bool
  | .go i ok =>
    match s.requests[i]? with
    | none => true
    | some r =>
      match r.stage with
      | .checkLocal => r.detail || s.copies r.server != some false || s.isFree
      | .checkShared => r.detail || s.shared != some false || s.isFree
      | .redeemGrant => s.isFree
      | .markShared | .setShared => ok || s.shared != some false
      | _ => true
  | _ => true

/-- At most one request is stored or will be, and when it is, the record is not unused. -/
structure Once (s : CardShare) : Prop where
  le_one : s.requests.countP (·.passed) + s.stored ≤ 1
  stored : s.stored ≠ 0 → s.shared ≠ some false
  marked : ∀ r ∈ s.requests, r.stage = .sendRequest → s.shared ≠ some false

variable {s s' : CardShare} {i : ℕ} {r : CardRequest} {stage : Stage} {ok : Bool}

lemma countP_set (hr : s.requests[i]? = some r) (r' : CardRequest) :
    (s.requests.set i r').countP (·.passed) + r.passed.toNat =
      s.requests.countP (·.passed) + r'.passed.toNat := by
  obtain ⟨hi, rfl⟩ := List.getElem?_eq_some_iff.mp hr
  have hle : s.requests[i].passed.toNat ≤ s.requests.countP (·.passed) := by
    cases hp : s.requests[i].passed with
    | false => exact Nat.zero_le _
    | true => exact List.countP_pos_iff.mpr ⟨_, List.getElem_mem hi, hp⟩
  rw [List.countP_set hi]
  generalize s.requests[i].passed = x at hle ⊢
  cases x <;> cases r'.passed <;>
    simp only [Bool.toNat_true, Bool.toNat_false, Bool.false_eq_true, ↓reduceIte] at hle ⊢ <;> omega

lemma countP_of_isFree (h : s.isFree = true) : s.requests.countP (·.passed) = 0 := by
  simp only [isFree, Bool.and_eq_true, Bool.not_eq_true', List.any_eq_false] at h
  exact List.countP_eq_zero.mpr h.2

lemma Once.isFree (h : s.Once) (hfree : s.isFree = true) : s.stored = 0 := by
  by_contra hne
  simp only [CardShare.isFree, Bool.and_eq_true, decide_eq_true_eq] at hfree
  exact h.stored hne hfree.1

lemma Once.next (h : s.Once) (hr : s.requests[i]? = some r)
    (hcount : { r with stage }.passed.toNat + s'.stored ≤ r.passed.toNat + s.stored ∨
      s.isFree = true ∧ s'.stored = s.stored)
    (hshared : s'.shared = some false → s.shared = some false)
    (hstored : s'.stored ≠ s.stored → s'.shared ≠ some false)
    (hsend : stage = .sendRequest → s'.shared ≠ some false) :
    Once { s' with requests := s.requests.set i { r with stage } } := by
  refine ⟨?_, fun hne hs => ?_, fun r' hr' hst hs => ?_⟩
  · have hset := countP_set hr { r with stage }
    have hle := h.le_one
    dsimp only
    rcases hcount with hcount | ⟨hfree, he⟩
    · omega
    · have hzero := countP_of_isFree hfree
      have hpassed := Bool.toNat_le { r with stage }.passed
      have hstored := h.isFree hfree
      omega
  · by_cases he : s'.stored = s.stored
    · exact h.stored (he ▸ hne) (hshared hs)
    · exact hstored he hs
  · rcases List.mem_or_eq_of_mem_set hr' with hmem | rfl
    · exact h.marked r' hmem hst (hshared hs)
    · exact hsend hst hs

lemma Once.go (h : s.Once) (hc : s.careful (.go i ok) = true) : Once (s.step (.go i ok)) := by
  cases hr : s.requests[i]? with
  | none => simpa [step, hr] using h
  | some r =>
    have hmarked := h.marked r (List.mem_of_getElem? hr)
    simp only [careful, hr] at hc
    simp only [step, hr]
    obtain ⟨k, detail, stage⟩ := r
    -- one that passes does so while the card is free; one that is to be stored has marked it
    refine h.next hr ?_ ?_ ?_ ?_ <;> cases stage <;>
      grind [advance, verdict, CardRequest.passed, setCopy]

lemma Once.arrive (h : s.Once) {k : ℕ} {detail : Bool}
    (hp : (CardRequest.mk k detail stage).passed = false) (hst : stage ≠ .sendRequest) :
    (s.arrive k detail stage).Once := by
  refine ⟨?_, h.stored, fun r hr => ?_⟩
  · simpa [CardShare.arrive, hp] using h.le_one
  · rcases List.mem_append.mp hr with hr | hr
    · exact h.marked r hr
    · rw [List.mem_singleton.mp hr]
      exact fun he => absurd he hst

lemma Once.step (h : s.Once) (st : Step) (hc : s.careful st = true) : (s.step st).Once := by
  cases st with
  | detail | apply | applyGrant => exact h.arrive rfl nofun
  | go i ok => exact h.go hc
  | evict => exact ⟨h.le_one, h.stored, h.marked⟩
  | expire => exact ⟨h.le_one, fun _ => nofun, fun _ _ _ => nofun⟩

end CardShare

/-- **A shared card is spent at most once, as long as a friend request is let through only while the
card is free** and the store answers when it is marked. -/
theorem card_share_spent_once (server : ℕ) (written : Bool) (steps : List CardShare.Step)
    (h : Given CardShare.step (fun s st => s.careful st) (.created server written) steps) :
    (steps.foldl CardShare.step (.created server written)).stored ≤ 1 := by
  have hinv : (steps.foldl CardShare.step (.created server written)).Once :=
    h.keeps (fun _ st hst hs => hs.step st hst) ⟨Nat.zero_le _, absurd rfl, nofun⟩
  exact Nat.le_of_add_left_le hinv.le_one

theorem card_share_spent_once_sample :
    (List.foldl CardShare.step (.created 0 true) ([.apply 1] ++ List.replicate 7 (.go 0 true) ++
      [.apply 1, .go 1 true])).stored ≤ 1 :=
  card_share_spent_once 0 true _ (by decide)

/-- The profile is opened by the card, and two requests come with its grant, one after the other and
all on one server. -/
theorem card_share_spent_twice :
    (List.foldl CardShare.step (.created 0 true)
      ([.detail 0, .go 0 true, .go 0 true, .applyGrant 0] ++ List.replicate 5 (.go 1 true) ++
        [.applyGrant 0] ++ List.replicate 5 (.go 2 true))).stored = 2 := by
  decide

end PrivChat.Friends
