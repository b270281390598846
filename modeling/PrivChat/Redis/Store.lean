import Mathlib.Data.List.Sort
import Mathlib.Data.List.TakeWhile
import Mathlib.Data.Prod.Lex

/-!
A key-value store whose keys expire, with strings and sorted sets. What a client can see of it
is the value of each key that has not expired; each command is described by what it does to
that.
-/

namespace PrivChat.Redis

variable {ρ μ : Type} [LinearOrder ρ] [LinearOrder μ]

structure SortedSet (ρ μ : Type) [LinearOrder ρ] [LinearOrder μ] where
  entries : List (ρ ×ₗ μ)
  sorted : entries.Pairwise (· ≤ ·)
  once : (entries.map fun e => (ofLex e).2).Nodup

namespace SortedSet

def empty : SortedSet ρ μ := ⟨[], .nil, .nil⟩

instance : EmptyCollection (SortedSet ρ μ) := ⟨empty⟩

@[ext] lemma ext {z z' : SortedSet ρ μ} (h : z.entries = z'.entries) : z = z' := by
  cases z; cases z'; cases h; rfl

variable (z : SortedSet ρ μ)

def scores : List ρ := z.entries.map fun e => (ofLex e).1

def others (m : μ) : List (ρ ×ₗ μ) := z.entries.filter fun e => (ofLex e).2 ≠ m

variable {m : μ}

lemma pairwise_others : (z.others m).Pairwise (· ≤ ·) := z.sorted.filter _

/-- `ZADD`: the member gets the score, also if it had another one. -/
def add (s : ρ) (m : μ) : SortedSet ρ μ where
  entries := (z.others m).orderedInsert (· ≤ ·) (toLex (s, m))
  sorted := List.Pairwise.orderedInsert _ _ z.pairwise_others
  once := by
    have hp := (List.perm_orderedInsert (· ≤ ·) (toLex (s, m)) (z.others m)).map
      fun e => (ofLex e).2
    rw [hp.nodup_iff, List.map_cons, List.nodup_cons]
    refine ⟨by simp [others], ?_⟩
    exact z.once.sublist (List.filter_sublist.map _)

/-- Any part of a sorted set is one. -/
def part (l : List (ρ ×ₗ μ)) (h : l.Sublist z.entries) : SortedSet ρ μ :=
  ⟨l, z.sorted.sublist h, z.once.sublist (h.map _)⟩

/-- The place a rank stands for among `n`; a negative rank counts from the end. -/
def place (n : ℕ) (i : ℤ) : ℤ := if i < 0 then n + i else i

/-- `ZREMRANGEBYRANK`: the entries from one rank to another are removed. -/
def removeRangeByRank (start stop : ℤ) : SortedSet ρ μ :=
  let n := z.entries.length
  let a := (place n start).toNat
  let b := max a (place n stop + 1).toNat
  z.part (z.entries.take a ++ z.entries.drop b) <| by
    have hd : (z.entries.drop b).Sublist (z.entries.drop a) :=
      List.drop_sublist_drop_left _ (le_max_left _ _)
    simpa using (List.Sublist.refl (z.entries.take a)).append hd

/-- `ZRANGEBYSCORE`: the first members whose score is not less. -/
def rangeByScore (least : ρ) (limit : ℕ) : List μ :=
  ((z.entries.filter fun e => least ≤ (ofLex e).1).take limit).map fun e => (ofLex e).2

lemma entries_add (s : ρ) (m : μ) :
    (z.add s m).entries = (z.others m).orderedInsert (· ≤ ·) (toLex (s, m)) := rfl

variable {z}

lemma mem_add {s : ρ} {e : ρ ×ₗ μ} :
    e ∈ (z.add s m).entries ↔ e = toLex (s, m) ∨ e ∈ z.entries ∧ (ofLex e).2 ≠ m := by
  rw [entries_add, List.mem_orderedInsert, others, List.mem_filter, decide_eq_true_iff]

lemma eq_of_mem_iff {z' : SortedSet ρ μ} (h : ∀ e, e ∈ z.entries ↔ e ∈ z'.entries) : z = z' := by
  have hp : z.entries.Perm z'.entries :=
    (List.perm_ext_iff_of_nodup (z.once.of_map _) (z'.once.of_map _)).mpr h
  exact ext (hp.eq_of_pairwise' z.sorted z'.sorted)

lemma add_of_mem {s : ρ} (h : toLex (s, m) ∈ z.entries) : z.add s m = z := by
  refine eq_of_mem_iff fun e => mem_add.trans ⟨?_, fun he => ?_⟩
  · rintro (rfl | ⟨he, -⟩)
    · exact h
    · exact he
  · by_cases hm : (ofLex e).2 = m
    · -- the member has one entry only
      exact .inl (List.inj_on_of_nodup_map z.once he h hm)
    · exact .inr ⟨he, hm⟩

lemma add_last {s : ρ} (hm : ∀ e ∈ z.entries, (ofLex e).2 ≠ m)
    (hs : ∀ e ∈ z.entries, (ofLex e).1 < s) :
    (z.add s m).entries = z.entries ++ [toLex (s, m)] := by
  have ho : z.others m = z.entries := by simpa [others] using hm
  have hle : ∀ e ∈ z.entries, ¬ toLex (s, m) ≤ e := by
    intro e he h
    exact absurd (hs e he) (not_lt.mpr (Prod.Lex.monotone_fst _ _ h))
  rw [entries_add, ho, List.orderedInsert_eq_take_drop]
  have ht : z.entries.takeWhile (fun e => decide ¬ toLex (s, m) ≤ e) = z.entries :=
    List.takeWhile_eq_self_iff.mpr fun e he => by simpa using hle e he
  have hd : z.entries.dropWhile (fun e => decide ¬ toLex (s, m) ≤ e) = [] :=
    List.dropWhile_eq_nil_iff.mpr fun e he => by simpa using hle e he
  rw [ht, hd]

lemma removeRangeByRank_keep {n : ℕ} :
    (z.removeRangeByRank 0 (-(n + 1))).entries = z.entries.drop (z.entries.length - n) := by
  have hb : max 0 (place z.entries.length (-(n + 1)) + 1).toNat = z.entries.length - n := by
    rw [place, if_pos (by omega)]
    omega
  have ha : (place z.entries.length 0).toNat = 0 := rfl
  simp only [removeRangeByRank, part, ha, hb, List.take_zero, List.nil_append]

end SortedSet

/-! ### The store -/

structure Timed (α : Type) where
  value : α
  expiresAt : Option ℕ

section Timed

variable {α : Type} (now seconds : ℕ) (x : Option (Timed α)) (v : α)

/-- The value with its time, unless it has expired. -/
def live : Option (Timed α) := x.filter fun t => t.expiresAt.all (now < ·)

def read : Option α := (live now x).map (·.value)

lemma read_later : read (now + seconds) x = read now x ∨ read (now + seconds) x = none := by
  obtain _ | ⟨v, _ | t⟩ := x
  · exact .inl rfl
  · exact .inl rfl
  · by_cases h : now + seconds < t
    · have h' : now < t := by omega
      exact .inl (by simp [read, live, Option.filter_some, h, h'])
    · exact .inr (by simp [read, live, Option.filter_some, h])

variable {seconds} in
lemma read_due (h : 0 < seconds) : read now (some ⟨v, some (now + seconds)⟩) = some v := by
  simp [read, live, h]

lemma read_keep : read now (some ⟨v, (live now x).bind (·.expiresAt)⟩) = some v := by
  obtain _ | ⟨w, _ | t⟩ := x
  · rfl
  · rfl
  · by_cases h : now < t <;> simp [read, live, Option.filter_some, h]

variable {seconds} in
lemma read_expire (h : 0 < seconds) :
    read now ((live now x).map fun t => { t with expiresAt := some (now + seconds) }) =
      read now x := by
  cases hx : live now x with
  | none => rw [Option.map_none, read, read, hx]; rfl
  | some t =>
    rw [Option.map_some, read_due now t.value h]
    simp [read, hx]

end Timed

variable (κ υ ρ μ : Type) [LinearOrder ρ] [LinearOrder μ]

/-- The time in seconds, and the values. No key is used both for a string and for a set. -/
structure Store where
  now : ℕ
  strings : κ → Option (Timed υ)
  sets : κ → Option (Timed (SortedSet ρ μ))

inductive Command
  | get (k : κ)
  | setex (k : κ) (seconds : ℕ) (v : υ)
  | zadd (k : κ) (score : ρ) (member : μ)
  | zremrangebyrank (k : κ) (start stop : ℤ)
  | zrangebyscore (k : κ) (least : ρ) (limit : ℕ)
  | expire (k : κ) (seconds : ℕ)
  | del (k : κ)

variable {κ υ ρ μ}

/-- What the client is told when the command has run. -/
def Command.Reply : Command κ υ ρ μ → Type
  | .get _ => Option υ
  | .zrangebyscore _ _ _ => List μ
  | .setex _ _ _ | .zadd _ _ _ | .zremrangebyrank _ _ _ | .expire _ _ | .del _ => Unit

namespace Store

def empty : Store κ υ ρ μ := ⟨0, fun _ => none, fun _ => none⟩

variable (s : Store κ υ ρ μ)

def get (k : κ) : Option υ := read s.now (s.strings k)

/-- A key that is not there is an empty set. -/
def zset (k : κ) : SortedSet ρ μ := (read s.now (s.sets k)).getD ∅

def wait (seconds : ℕ) : Store κ υ ρ μ := { s with now := s.now + seconds }

def reply : (c : Command κ υ ρ μ) → c.Reply
  | .get k => s.get k
  | .zrangebyscore k least limit => (s.zset k).rangeByScore least limit
  | .setex _ _ _ | .zadd _ _ _ | .zremrangebyrank _ _ _ | .expire _ _ | .del _ => ()

lemma get_wait {seconds : ℕ} (k : κ) :
    (s.wait seconds).get k = s.get k ∨ (s.wait seconds).get k = none :=
  read_later s.now seconds (s.strings k)

lemma zset_wait {seconds : ℕ} {k : κ} :
    (s.wait seconds).zset k = s.zset k ∨ (s.wait seconds).zset k = ∅ := by
  rcases read_later s.now seconds (s.sets k) with h | h
  · exact .inl (congrArg (·.getD ∅) h)
  · exact .inr (congrArg (·.getD ∅) h)

variable [DecidableEq κ]

/-- The key gets another set. It keeps the time it expires, and goes when the set is empty. -/
def putSet (k : κ) (z : SortedSet ρ μ) : Store κ υ ρ μ :=
  { s with
    sets := Function.update s.sets k <|
      if z.entries.isEmpty then none
      else some ⟨z, (live s.now (s.sets k)).bind (·.expiresAt)⟩ }

def effect : Command κ υ ρ μ → Store κ υ ρ μ
  | .get _ | .zrangebyscore _ _ _ => s
  | .setex k seconds v =>
    { s with strings := Function.update s.strings k (some ⟨v, some (s.now + seconds)⟩) }
  | .zadd k score member => s.putSet k ((s.zset k).add score member)
  | .zremrangebyrank k start stop => s.putSet k ((s.zset k).removeRangeByRank start stop)
  | .expire k seconds =>
    let due := some (s.now + seconds)
    { s with
      strings := Function.update s.strings k <|
        (live s.now (s.strings k)).map fun t => { t with expiresAt := due }
      sets := Function.update s.sets k <|
        (live s.now (s.sets k)).map fun t => { t with expiresAt := due } }
  | .del k =>
    { s with
      strings := Function.update s.strings k none
      sets := Function.update s.sets k none }

variable (k : κ) {seconds : ℕ} (v : υ) (score : ρ) (member : μ) (start stop : ℤ)

lemma read_update {α : Type} (now : ℕ) (f : κ → Option (Timed α)) (x : Option (Timed α)) (k' : κ) :
    read now (Function.update f k x k') =
      Function.update (fun k => read now (f k)) k (read now x) k' := by
  by_cases h : k' = k
  · subst h
    rw [Function.update_self, Function.update_self]
  · rw [Function.update_of_ne h, Function.update_of_ne h]

lemma zset_putSet {z : SortedSet ρ μ} : (s.putSet k z).zset = Function.update s.zset k z := by
  funext k'
  rw [putSet, zset, read_update]
  by_cases h : k' = k
  · subst h
    rw [Function.update_self, Function.update_self]
    by_cases hz : z.entries.isEmpty
    · rw [if_pos hz]
      exact SortedSet.ext (List.isEmpty_iff.mp hz).symm
    · rw [if_neg hz, read_keep, Option.getD_some]
  · rw [Function.update_of_ne h, Function.update_of_ne h]
    rfl

lemma get_setex (h : 0 < seconds) :
    (s.effect (.setex k seconds v)).get = Function.update s.get k (some v) := by
  funext k'
  rw [effect, get, read_update, read_due s.now v h]
  rfl

lemma zset_zadd : (s.effect (.zadd k score member)).zset =
    Function.update s.zset k ((s.zset k).add score member) := s.zset_putSet k

lemma zset_zremrangebyrank : (s.effect (.zremrangebyrank k start stop)).zset =
    Function.update s.zset k ((s.zset k).removeRangeByRank start stop) := s.zset_putSet k

lemma get_expire (h : 0 < seconds) : (s.effect (.expire k seconds)).get = s.get := by
  funext k'
  rw [effect, get, read_update, read_expire _ _ h]
  exact congrFun (Function.update_eq_self k s.get) k'

lemma zset_expire (h : 0 < seconds) : (s.effect (.expire k seconds)).zset = s.zset := by
  funext k'
  rw [effect, zset, read_update, read_expire _ _ h]
  exact congrArg (·.getD ∅) (congrFun (Function.update_eq_self k fun k => read s.now (s.sets k)) k')

lemma get_del : (s.effect (.del k)).get = Function.update s.get k none := by
  funext k'
  rw [effect, get, read_update]
  rfl

lemma zset_del : (s.effect (.del k)).zset = Function.update s.zset k ∅ := by
  funext k'
  rw [effect, zset, read_update]
  by_cases h : k' = k
  · subst h
    rw [Function.update_self, Function.update_self]
    rfl
  · rw [Function.update_of_ne h, Function.update_of_ne h]
    rfl

end Store

end PrivChat.Redis
