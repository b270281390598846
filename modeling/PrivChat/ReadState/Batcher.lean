import PrivChat.Channels.Model
import PrivChat.Runs.Basic
import Mathlib

/-!
Unread counters are raised in batches.

The batcher adds up what comes for each user of a channel, and from time to time hands it to the
database, with one call for the users of a channel for whom the same number has come. What a call
fails to write waits for the next time.
-/

namespace PrivChat.ReadState

open Db Channels Runs

structure UnreadIncrement where
  channelId : ChannelId
  userIds : List UserId
  count : ℕ

abbrev Pending := Table (ChannelId × UserId) ℕ

def u64Max : ℕ := 2 ^ 64 - 1
def i32Max : ℕ := 2 ^ 31 - 1

def mergeUnreadIncrement (pending : Pending) (item : UnreadIncrement) : Pending :=
  item.userIds.foldl (fun p u => p.put (item.channelId, u) ((p.get (item.channelId, u)).elim
    item.count fun n => min (n + item.count) u64Max)) pending

/-- What waits for the user. -/
def counter (p : Pending) (c : ChannelId) (u : UserId) : ℕ := (p.get (c, u)).getD 0

/-- What the increment is for the user. -/
def UnreadIncrement.amount (e : UnreadIncrement) (c : ChannelId) (u : UserId) : ℕ :=
  if e.channelId = c then e.count * e.userIds.count u else 0

/-- The calls for a batch. -/
def entries (batch : Pending) : List UnreadIncrement :=
  ((batch.select fun _ _ => true).map fun x => (x.1.1, x.2)).dedup.map fun (c, n) =>
    ⟨c, (batch.select fun k m => k.1 = c && m = n).map (·.1.2), n⟩

/-- What waits, what the calls have added in the database, and what was enqueued. -/
structure Batcher where
  pending : Pending
  applied : ChannelId → UserId → ℕ
  enqueued : ChannelId → UserId → ℕ

namespace Batcher

def new : Batcher := ⟨.empty, fun _ _ => 0, fun _ _ => 0⟩

/-- A request is taken from the queue, and the members of its channel are read or not. Or the batch
is flushed, and each of its statements is carried out or not. -/
inductive Step
  | receive (channelId : ChannelId) (senderId : UserId) (count : ℕ)
      (members : Except ServerError (List UserId))
  | tick (carriedOut : ChannelId → ℕ → Bool)

variable (s : Batcher)

/-- The call for an entry. If there is nothing to add, there is no statement that could fail. -/
def flush (carriedOut : ChannelId → ℕ → Bool) (e : UnreadIncrement) : Batcher :=
  if e.userIds = [] ∨ e.count = 0 ∨ carriedOut e.channelId e.count = true then
    let written := { e with count := min e.count i32Max }
    { s with applied := fun c u => s.applied c u + written.amount c u }
  else { s with pending := mergeUnreadIncrement s.pending e }

def enqueue (item : UnreadIncrement) : Batcher :=
  { s with
    pending := mergeUnreadIncrement s.pending item
    enqueued := fun c u => s.enqueued c u + item.amount c u }

def step : Step → Batcher
  | .receive c sender count (.ok members) => s.enqueue ⟨c, members.filter (· ≠ sender), count⟩
  | .receive _ _ _ (.error _) => s
  | .tick carriedOut => (entries s.pending).foldl (flush · carriedOut) { s with pending := .empty }

/-- No counter passes its bound: none of 64 bits where something is added, and none of 31 bits where
it is handed to the database. -/
def unsaturated : Step → Bool
  | .receive c sender count (.ok members) =>
    let item : UnreadIncrement := ⟨c, members.filter (· ≠ sender), count⟩
    item.userIds.all fun u => counter s.pending c u + item.amount c u ≤ u64Max
  | .receive _ _ _ (.error _) => true
  | .tick _ => !s.pending.any fun _ n => i32Max < n

end Batcher

variable {p : Pending} {c : ChannelId} {u : UserId} {e : UnreadIncrement} {n : ℕ}
  {l : List UnreadIncrement} {s : Batcher}

lemma counter_merge (h : ∀ c u, counter p c u + e.amount c u ≤ u64Max) :
    counter (mergeUnreadIncrement p e) c u = counter p c u + e.amount c u := by
  obtain ⟨c', us, n⟩ := e
  induction us generalizing p with
  | nil => simp [mergeUnreadIncrement, UnreadIncrement.amount]
  | cons v us ih =>
    -- the first user is raised; the others are still to come
    have hfirst (c : ChannelId) (u : UserId) : counter (mergeUnreadIncrement p ⟨c', [v], n⟩) c u +
        (UnreadIncrement.mk c' us n).amount c u =
          counter p c u + (UnreadIncrement.mk c' (v :: us) n).amount c u := by
      by_cases hv : (c, u) = (c', v)
      · obtain ⟨rfl, rfl⟩ := Prod.mk.inj hv
        have hle := h c u
        simp only [UnreadIncrement.amount, if_true, List.count_cons_self, Nat.mul_succ] at hle ⊢
        cases hp : p.get (c, u) <;> simp [counter, mergeUnreadIncrement, hp] at hle ⊢ <;> omega
      · have hcount : c' = c → (v :: us).count u = us.count u := fun hc =>
          List.count_cons_of_ne fun hu => hv (by rw [hc, hu])
        simp only [counter, mergeUnreadIncrement, List.foldl_cons, List.foldl_nil,
          Table.get_put_of_ne p hv, UnreadIncrement.amount]
        split <;> simp_all
    rw [← hfirst]
    exact ih fun c u => hfirst c u ▸ h c u

/-- What the calls are to write for the user. -/
def due (l : List UnreadIncrement) (c : ChannelId) (u : UserId) : ℕ := (l.map (·.amount c u)).sum

lemma amount_entry {c' : ChannelId} :
    (UnreadIncrement.mk c' ((p.select fun k m => k.1 = c' && m = n).map (·.1.2)) n).amount c u =
      if c' = c ∧ p.get (c, u) = some n then n else 0 := by
  have hnodup : ((p.select fun k m => k.1 = c' && m = n).map (·.1.2)).Nodup := by
    refine p.nodup_select.map_on fun x hx y hy he => ?_
    have hx' := (Table.mem_select.mp hx).2
    have hy' := (Table.mem_select.mp hy).2
    simp only [Bool.and_eq_true, decide_eq_true_eq] at hx' hy'
    exact Prod.ext (Prod.ext (hx'.1.trans hy'.1.symm) he) (hx'.2.trans hy'.2.symm)
  unfold UnreadIncrement.amount
  by_cases hc : c' = c
  · subst hc
    rw [if_pos rfl, hnodup.count]
    simp [Table.mem_select]
  · simp [hc]

lemma due_entries : due (entries p) c u = counter p c u := by
  rw [due, entries, List.map_map]
  simp only [Function.comp_def, amount_entry]
  cases hp : p.get (c, u) with
  | none => simp [counter, hp]
  | some m =>
    have hmem : (c, m) ∈ ((p.select fun _ _ => true).map fun x => (x.1.1, x.2)).dedup :=
      List.mem_dedup.mpr (List.mem_map.mpr ⟨((c, u), m), Table.mem_select.mpr ⟨hp, rfl⟩, rfl⟩)
    have hone := @List.count_eq_one_of_mem _ instBEqOfDecidableEq _ _ _ (List.nodup_dedup _) hmem
    rw [List.sum_map_eq_nsmul_single (c, m), hone]
    · simp [counter, hp]
    · exact fun x hx _ => if_neg fun h => hx (Prod.ext h.1 (Option.some.inj h.2).symm)

/-- Between two calls for a batch nothing is missing, and no counter can pass its bound. -/
structure Batcher.Balanced (s : Batcher) (l : List UnreadIncrement) : Prop where
  sum : ∀ c u, s.applied c u + counter s.pending c u + due l c u = s.enqueued c u
  bound : ∀ c u, counter s.pending c u + due l c u ≤ u64Max

lemma Batcher.Balanced.flush (h : s.Balanced (e :: l)) (he : e.count ≤ i32Max)
    (carriedOut : ChannelId → ℕ → Bool) : (s.flush carriedOut e).Balanced l := by
  have hs : ∀ c u, s.applied c u + counter s.pending c u + (e.amount c u + due l c u) =
    s.enqueued c u := h.sum
  have hb : ∀ c u, counter s.pending c u + (e.amount c u + due l c u) ≤ u64Max := h.bound
  unfold Batcher.flush
  split
  · have hw : { e with count := min e.count i32Max } = e := by rw [min_eq_left he]
    refine ⟨fun c u => ?_, fun c u => ?_⟩ <;> dsimp only
    · rw [hw]
      have := hs c u
      omega
    · have := hb c u
      omega
  · have hm (c : ChannelId) (u : UserId) := counter_merge (c := c) (u := u)
      fun c u => (Nat.add_le_add_left (Nat.le_add_right _ _) _).trans (hb c u)
    refine ⟨fun c u => ?_, fun c u => ?_⟩ <;> dsimp only <;> rw [hm]
    · have := hs c u
      omega
    · have := hb c u
      omega

lemma Batcher.Balanced.tick {carriedOut : ChannelId → ℕ → Bool} (h : s.Balanced l)
    (hl : ∀ e ∈ l, e.count ≤ i32Max) : (l.foldl (Batcher.flush · carriedOut) s).Balanced [] := by
  induction l generalizing s with
  | nil => exact h
  | cons e l ih =>
    exact ih (h.flush (hl e List.mem_cons_self) _) fun e he => hl e (List.mem_cons_of_mem _ he)

lemma Batcher.Balanced.enqueue (h : s.Balanced [])
    (he : ∀ u ∈ e.userIds, counter s.pending e.channelId u + e.amount e.channelId u ≤ u64Max) :
    (s.enqueue e).Balanced [] := by
  have hb (c : ChannelId) (u : UserId) : counter s.pending c u + e.amount c u ≤ u64Max := by
    by_cases hcu : e.channelId = c ∧ u ∈ e.userIds
    · exact hcu.1 ▸ he u hcu.2
    · have hzero : e.amount c u = 0 := by
        by_cases hc : e.channelId = c
        · simp [UnreadIncrement.amount, List.count_eq_zero_of_not_mem fun hu => hcu ⟨hc, hu⟩]
        · exact if_neg hc
      rw [hzero]
      exact h.bound c u
  refine ⟨fun c u => ?_, fun c u => ?_⟩ <;> dsimp only [Batcher.enqueue] <;> rw [counter_merge hb]
  · have hs : s.applied c u + counter s.pending c u + 0 = s.enqueued c u := h.sum c u
    change _ + (_ + _) + 0 = _ + _
    omega
  · exact hb c u

lemma Batcher.Balanced.step (h : s.Balanced []) (st : Batcher.Step)
    (hc : s.unsaturated st = true) : (s.step st).Balanced [] := by
  cases st with
  | tick carriedOut =>
    refine Balanced.tick ⟨fun c u => ?_, fun c u => ?_⟩ fun e he => ?_
    · rw [due_entries]
      exact h.sum c u
    · rw [due_entries]
      exact (Nat.zero_add _).le.trans (h.bound c u)
    · obtain ⟨x, hx, rfl⟩ := List.mem_map.mp he
      obtain ⟨y, hy, rfl⟩ := List.mem_map.mp (List.mem_dedup.mp hx)
      have hy' := Table.any_eq_false.mp (Bool.not_eq_true' _ ▸ hc) _ _ (Table.mem_select.mp hy).1
      exact Nat.not_lt.mp (of_decide_eq_false hy')
  | receive c sender count members =>
    cases members with
    | error e => exact h
    | ok members => exact h.enqueue fun u hu => of_decide_eq_true (List.all_eq_true.mp hc u hu)

end PrivChat.ReadState
