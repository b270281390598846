import Mathlib.Data.Finset.Dedup
import Mathlib.Data.List.TakeWhile

/-!
Tables with a primary key.

A table is a partial function from keys to rows that is nothing outside a list of keys, so
that a scan of all its rows can be computed.
-/

namespace PrivChat.Db

variable {κ β : Type}

structure Table (κ β : Type) where
  keys : List κ
  get : κ → Option β
  complete : ∀ k b, get k = some b → k ∈ keys

namespace Table

def empty : Table κ β := ⟨[], fun _ => none, by simp⟩

@[simp] lemma get_empty (k : κ) : (empty : Table κ β).get k = none := rfl

def deleteWhere (t : Table κ β) (p : κ → β → Bool) : Table κ β where
  keys := t.keys
  get k := (t.get k).filter fun b => !p k b
  complete k b h := t.complete k b (Option.filter_eq_some_iff.mp h).1

lemma get_deleteWhere (t : Table κ β) (p : κ → β → Bool) (k : κ) :
    (t.deleteWhere p).get k = (t.get k).filter fun b => !p k b := rfl

variable {k : κ} {t : Table κ β} {p : κ → β → Bool} {b : β}

lemma get_of_get_deleteWhere (h : (t.deleteWhere p).get k = some b) : t.get k = some b :=
  (Option.filter_eq_some_iff.mp h).1

def mapRows (t : Table κ β) (f : κ → β → β) : Table κ β where
  keys := t.keys
  get k := (t.get k).map (f k)
  complete k b h := by
    obtain ⟨b', hb', -⟩ := Option.map_eq_some_iff.mp h
    exact t.complete k b' hb'

lemma get_mapRows (t : Table κ β) (f : κ → β → β) (k : κ) :
    (t.mapRows f).get k = (t.get k).map (f k) := rfl

def updateWhere (t : Table κ β) (p : κ → β → Bool) (f : β → β) : Table κ β :=
  t.mapRows fun k b => if p k b then f b else b

lemma get_updateWhere (t : Table κ β) (p : κ → β → Bool) (f : β → β) (k : κ) :
    (t.updateWhere p f).get k = (t.get k).map fun b => if p k b then f b else b := rfl

def any (t : Table κ β) (p : κ → β → Bool) : Bool :=
  t.keys.any fun k => (t.get k).any (p k)

lemma any_iff (t : Table κ β) (p : κ → β → Bool) :
    t.any p = true ↔ ∃ k b, t.get k = some b ∧ p k b = true := by
  simp only [any, List.any_eq_true, Option.any_eq_true]
  constructor
  · rintro ⟨k, -, b, hb, hp⟩
    exact ⟨k, b, hb, hp⟩
  · rintro ⟨k, b, hb, hp⟩
    exact ⟨k, t.complete k b hb, b, hb, hp⟩

lemma any_eq_false : t.any p = false ↔ ∀ k b, t.get k = some b → p k b = false := by
  rw [← Bool.not_eq_true, any_iff]
  simp

variable [DecidableEq κ]

/-- Insert a row, or overwrite the row with that key. -/
def put (t : Table κ β) (k : κ) (b : β) : Table κ β where
  keys := k :: t.keys
  get := Function.update t.get k (some b)
  complete k' b' h := by
    by_cases hk : k' = k
    · simp [hk]
    · rw [Function.update_of_ne hk] at h
      exact List.mem_cons_of_mem _ (t.complete k' b' h)

@[simp] lemma get_put_self : (t.put k b).get k = some b := by
  simp [put]

variable {k' : κ}

@[simp] lemma get_put_of_ne (t : Table κ β) (h : k' ≠ k) : (t.put k b).get k' = t.get k' := by
  simp [put, h]

lemma isSome_get_put (h : k' = k ∨ (t.get k').isSome) : ((t.put k b).get k').isSome := by
  by_cases hk : k' = k
  · rw [hk, get_put_self]
    rfl
  · rw [get_put_of_ne _ hk]
    exact h.resolve_left hk

/-- Change the row with that key, if there is one. -/
def modify (t : Table κ β) (k : κ) (f : β → β) : Table κ β :=
  match t.get k with
  | some b => t.put k (f b)
  | none => t

lemma get_modify (t : Table κ β) (k : κ) (f : β → β) (k' : κ) :
    (t.modify k f).get k' = if k' = k then (t.get k).map f else t.get k' := by
  unfold modify
  by_cases hk : k' = k
  · subst hk
    cases h : t.get k' <;> simp [h]
  · cases h : t.get k <;> simp [hk]

@[simp] lemma get_modify_self (t : Table κ β) (k : κ) (f : β → β) :
    (t.modify k f).get k = (t.get k).map f := by
  simp [get_modify]

@[simp] lemma get_modify_of_ne (t : Table κ β) {f : β → β} (h : k' ≠ k) :
    (t.modify k f).get k' = t.get k' := by
  simp [get_modify, h]

def erase (t : Table κ β) (k : κ) : Table κ β := t.deleteWhere fun k' _ => decide (k' = k)

lemma get_erase (t : Table κ β) (k k' : κ) :
    (t.erase k).get k' = if k' = k then none else t.get k' := by
  rw [erase, get_deleteWhere]
  by_cases hk : k' = k <;> cases t.get k' <;> simp [hk]

@[simp] lemma get_erase_self : (t.erase k).get k = none := by
  simp [get_erase]

@[simp] lemma get_erase_of_ne (t : Table κ β) (h : k' ≠ k) : (t.erase k).get k' = t.get k' := by
  simp [get_erase, h]

/-- The rows that satisfy the condition, in no particular order. -/
def select (t : Table κ β) (p : κ → β → Bool) : List (κ × β) :=
  t.keys.dedup.filterMap fun k => ((t.get k).filter (p k)).map (k, ·)

lemma mem_select : (k, b) ∈ t.select p ↔ t.get k = some b ∧ p k b = true := by
  simp only [select, List.mem_filterMap, List.mem_dedup, Option.map_eq_some_iff,
    Option.filter_eq_some_iff, Prod.mk.injEq]
  constructor
  · rintro ⟨k', -, b', ⟨hb, hp⟩, rfl, rfl⟩
    exact ⟨hb, hp⟩
  · rintro ⟨hb, hp⟩
    exact ⟨k, t.complete k b hb, b, ⟨hb, hp⟩, rfl, rfl⟩

lemma nodup_select (t : Table κ β) : (t.select p).Nodup := by
  refine (List.nodup_dedup t.keys).filterMap fun k k' x hx hx' => ?_
  obtain ⟨b, -, rfl⟩ := Option.map_eq_some_iff.mp hx
  obtain ⟨b', -, he⟩ := Option.map_eq_some_iff.mp hx'
  exact (congrArg Prod.fst he).symm

def keysWhere (t : Table κ β) (p : κ → β → Bool) : Finset κ :=
  (t.keys.filter fun k => (t.get k).any (p k)).toFinset

lemma mem_keysWhere : k ∈ t.keysWhere p ↔ ∃ b, t.get k = some b ∧ p k b = true := by
  simp only [keysWhere, List.mem_toFinset, List.mem_filter, Option.any_eq_true]
  constructor
  · exact fun h => h.2
  · rintro ⟨b, hb, hp⟩
    exact ⟨t.complete k b hb, b, hb, hp⟩

def size (t : Table κ β) : ℕ := (t.select fun _ _ => true).length

def keyList (t : Table κ β) : List κ := (t.select fun _ _ => true).map (·.1)

lemma mem_keyList : k ∈ t.keyList ↔ (t.get k).isSome := by
  simp [keyList, mem_select, Option.isSome_iff_exists]

lemma nodup_map_select : ((t.select p).map (·.1)).Nodup := by
  refine t.nodup_select.map_on fun x hx y hy he => ?_
  have hx' := (mem_select.mp hx).1
  have hy' := (mem_select.mp hy).1
  rw [he, hy'] at hx'
  exact Prod.ext he (Option.some.inj hx').symm

lemma nodup_keyList (t : Table κ β) : t.keyList.Nodup := nodup_map_select

lemma size_le_length {l : List κ} (h : ∀ k, (t.get k).isSome → k ∈ l) : t.size ≤ l.length := by
  have hsub : t.keyList ⊆ l := fun k hk => h k (mem_keyList.mp hk)
  have hle := (t.nodup_keyList.subperm hsub).length_le
  simpa [keyList, size] using hle

end Table

variable {ρ : Type} {l : List ρ}

lemma getElem?_append_of_some {i : ℕ} {a : ρ} (h : l[i]? = some a) {l' : List ρ} :
    (l ++ l')[i]? = some a := by
  rw [List.getElem?_append_left (List.getElem?_eq_some_iff.mp h).1, h]

end PrivChat.Db
