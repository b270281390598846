import PrivChat.Db.Table
import Mathlib.Data.List.Sort
import Mathlib.Data.Prod.Lex

/-!
Transactions that write the rows of one table, each row with a version from a sequence, and a
reader that follows the table by the versions, a page at a time.

A version is drawn when the row is written. Others see it when the transaction commits, which may be
after rows with later versions have become visible. What the reader has passed it never asks for
again, so a row that is committed with a version it has passed is lost; if none is, nothing is.
-/

namespace PrivChat.Db

variable {κ ρ : Type}

structure Versioned (ρ : Type) where
  row : ρ
  version : ℕ
  deriving DecidableEq

/-- The last value of the sequence, the table as it is committed, and what the open transactions
have written. -/
structure Writers (κ ρ : Type) where
  seq : ℕ
  table : Table κ (Versioned ρ)
  pending : Table (ℕ × κ) (Versioned ρ)

inductive Write (κ ρ : Type)
  | update (t : ℕ) (k : κ) (row : ρ)
  | commit (t : ℕ)
  | rollback (t : ℕ)

/-- The rows of the transaction over those of the table. -/
def Table.overlay (pending : Table (ℕ × κ) (Versioned ρ)) (t : ℕ)
    (table : Table κ (Versioned ρ)) : Table κ (Versioned ρ) where
  keys := pending.keys.map (·.2) ++ table.keys
  get k := (pending.get (t, k)).or (table.get k)
  complete k b h := by
    rcases Option.or_eq_some_iff.mp h with hp | ⟨-, ht⟩
    · exact List.mem_append_left _ (List.mem_map.mpr ⟨(t, k), pending.complete _ b hp, rfl⟩)
    · exact List.mem_append_right _ (table.complete k b ht)

namespace Writers

def empty : Writers κ ρ := ⟨0, .empty, .empty⟩

/-- What the other transactions have written. -/
def closed (w : Writers κ ρ) (t : ℕ) : Table (ℕ × κ) (Versioned ρ) :=
  w.pending.deleteWhere fun x _ => decide (x.1 = t)

section Step

variable [DecidableEq κ] (w : Writers κ ρ)

/-- Another transaction has written the row and is still open. -/
def isLocked (t : ℕ) (k : κ) : Bool :=
  w.pending.any fun x _ => decide (x.2 = k) && decide (x.1 ≠ t)

/-- A write of a locked row has to wait: nothing happens. -/
def step : Write κ ρ → Writers κ ρ
  | .update t k row =>
    if w.isLocked t k then w
    else { w with
      seq := w.seq + 1
      pending := w.pending.put (t, k) ⟨row, w.seq + 1⟩ }
  | .commit t => { w with table := .overlay w.pending t w.table, pending := w.closed t }
  | .rollback t => { w with pending := w.closed t }

end Step

/-- The row as it is committed, or as an open transaction has written it. -/
def place (w : Writers κ ρ) (k : κ) : Option ℕ → Option (Versioned ρ)
  | none => w.table.get k
  | some t => w.pending.get (t, k)

/-- No version is beyond the sequence, and none stands at two places. -/
structure Sound (w : Writers κ ρ) : Prop where
  drawn : ∀ k o b, w.place k o = some b → b.version ≤ w.seq
  unique : ∀ k o b k' o' b', w.place k o = some b → w.place k' o' = some b' →
    b.version = b'.version → k = k' ∧ o = o'

lemma sound_empty : (empty : Writers κ ρ).Sound := by
  constructor
  · rintro k (_ | t) b h <;> exact nomatch h
  · rintro k (_ | t) b k' o' b' h <;> exact nomatch h

variable {w : Writers κ ρ} {t : ℕ} {k : κ} {b : Versioned ρ}

lemma place_closed {s : ℕ} (h : (w.closed t).get (s, k) = some b) :
    s ≠ t ∧ w.place k (some s) = some b := by
  obtain ⟨hget, hne⟩ := Option.filter_eq_some_iff.mp h
  exact ⟨by simpa using hne, hget⟩

variable [DecidableEq κ] {o : Option ℕ}

/-- After a commit every row stands where it stood, or is one of the transaction that has taken its
place in the table. -/
lemma place_commit (h : (w.step (.commit t)).place k o = some b) :
    (w.place k o = some b ∧ o ≠ some t) ∨ (o = none ∧ w.place k (some t) = some b) := by
  cases o with
  | none =>
    rcases Option.or_eq_some_iff.mp h with hp | ⟨-, ht⟩
    · exact .inr ⟨rfl, hp⟩
    · exact .inl ⟨ht, nofun⟩
  | some s =>
    obtain ⟨hne, hat⟩ := place_closed h
    exact .inl ⟨hat, fun he => hne (Option.some.inj he)⟩

lemma place_rollback (h : (w.step (.rollback t)).place k o = some b) : w.place k o = some b := by
  cases o with
  | none => exact h
  | some s => exact (place_closed h).2

lemma Sound.commit (hs : w.Sound) : (w.step (.commit t)).Sound where
  drawn k o b h := by
    rcases place_commit h with ⟨h, -⟩ | ⟨-, h⟩
    · exact hs.drawn k o b h
    · exact hs.drawn k (some t) b h
  unique k o b k' o' b' h h' hv := by
    rcases place_commit h with ⟨hat, hne⟩ | ⟨rfl, hat⟩ <;>
      rcases place_commit h' with ⟨hat', hne'⟩ | ⟨rfl, hat'⟩
    · exact hs.unique _ _ _ _ _ _ hat hat' hv
    · exact absurd (hs.unique _ _ _ _ _ _ hat hat' hv).2 hne
    · exact absurd (hs.unique _ _ _ _ _ _ hat hat' hv).2.symm hne'
    · exact ⟨(hs.unique _ _ _ _ _ _ hat hat' hv).1, rfl⟩

variable {row : ρ}

lemma place_update (hl : w.isLocked t k = false) {k' : κ}
    (h : (w.step (.update t k row)).place k' o = some b) :
    (k' = k ∧ o = some t ∧ b = ⟨row, w.seq + 1⟩) ∨ w.place k' o = some b := by
  have hstep : w.step (.update t k row) = { w with
      seq := w.seq + 1
      pending := w.pending.put (t, k) ⟨row, w.seq + 1⟩ } := by
    simp [step, hl]
  rw [hstep] at h
  cases o with
  | none => exact .inr h
  | some s =>
    by_cases hk : (s, k') = (t, k)
    · obtain ⟨rfl, rfl⟩ := Prod.mk.inj hk
      have hb : some ⟨row, w.seq + 1⟩ = some b := by simpa [place] using h
      exact .inl ⟨rfl, rfl, (Option.some.inj hb).symm⟩
    · exact .inr (by simpa [place, hk] using h)

lemma seq_update (hl : w.isLocked t k = false) : (w.step (.update t k row)).seq = w.seq + 1 := by
  simp [step, hl]

lemma Sound.update (hs : w.Sound) : (w.step (.update t k row)).Sound := by
  cases hl : w.isLocked t k with
  | true => simpa [step, hl] using hs
  | false =>
    constructor
    · intro k' o b h
      rw [seq_update hl]
      rcases place_update hl h with ⟨-, -, rfl⟩ | h
      · exact le_refl _
      · exact (hs.drawn k' o b h).trans (Nat.le_succ _)
    · intro k1 o1 b1 k2 o2 b2 h1 h2 hv
      rcases place_update hl h1 with ⟨rfl, rfl, rfl⟩ | hat1 <;>
        rcases place_update hl h2 with ⟨rfl, rfl, rfl⟩ | hat2
      · exact ⟨rfl, rfl⟩
      · -- an older row does not have the version that has just been drawn
        have := hs.drawn k2 o2 b2 hat2
        simp only at hv
        omega
      · have := hs.drawn k1 o1 b1 hat1
        simp only at hv
        omega
      · exact hs.unique _ _ _ _ _ _ hat1 hat2 hv

/-- **Versions stay unique**, whatever the transactions do. -/
lemma Sound.step (hs : w.Sound) (a : Write κ ρ) : (w.step a).Sound := by
  cases a with
  | update t k row => exact hs.update
  | commit t => exact hs.commit
  | rollback t =>
    exact ⟨fun k o b h => hs.drawn k o b (place_rollback h), fun k o b k' o' b' h h' hv =>
      hs.unique k o b k' o' b' (place_rollback h) (place_rollback h') hv⟩

end Writers

variable {κ ρ ε α ι : Type}

/-- What a query shows of the table: the entries with their order, first by version, and the
greatest
number on a page for the number asked for. A row that is not shown has no part in any entry. -/
structure Listing (κ ρ ε ι : Type) [LinearOrder ι] where
  entries : Table κ (Versioned ρ) → List ε
  rank : ε → ℕ ×ₗ ι
  limit : ℕ → ℕ
  shows : κ → ρ → Bool
  limit_pos : ∀ n, 0 < limit n
  origin : ∀ T, ∀ e ∈ entries T, ∃ k b, T.get k = some b ∧ (ofLex (rank e)).1 = b.version
  distinct : ∀ T, (∀ k b k' b', T.get k = some b → T.get k' = some b' →
      b.version = b'.version → k = k') →
    ∀ e ∈ entries T, ∀ e' ∈ entries T, (ofLex (rank e)).1 = (ofLex (rank e')).1 → e = e'
  fresh : ∀ T T' n, (∀ k, T'.get k = T.get k ∨
      ∃ b, T'.get k = some b ∧ (shows k b.row = true → n < b.version)) →
    ∀ e ∈ entries T', e ∈ entries T ∨ n < (ofLex (rank e)).1

structure Answer (α : Type) where
  items : List α
  nextVersion : ℕ
  hasMore : Bool
  deriving DecidableEq

abbrev Endpoint (κ ρ α : Type) := Table κ (Versioned ρ) → ℕ → ℕ → Answer α

/-! ### One page -/

namespace Listing

variable [LinearOrder ι] (L : Listing κ ρ ε ι) (T : Table κ (Versioned ρ)) (since limit : ℕ)

def version (e : ε) : ℕ := (ofLex (L.rank e)).1

/-- The entries still to come, in order. -/
def rows : List ε :=
  ((L.entries T).filter fun e => decide (since < L.version e)).insertionSort
    fun a b => L.rank a ≤ L.rank b

def items : List ε := (L.rows T since).take (L.limit limit)

def next : ℕ := ((L.items T since limit).getLast?.map L.version).getD since

def hasMore : Bool := decide (L.limit limit < (L.rows T since).length)

/-- The endpoint answers with the pages of the listing, each entry in its form. -/
def Serves (item : ε → α) (answer : Endpoint κ ρ α) : Prop :=
  ∀ T since limit, answer T since limit =
    ⟨(L.items T since limit).map item, L.next T since limit, L.hasMore T since limit⟩

variable {L T since limit} {e : ε}

lemma mem_rows : e ∈ L.rows T since ↔ e ∈ L.entries T ∧ since < L.version e := by
  simp [rows, List.mem_insertionSort]

lemma pairwise_rows (L : Listing κ ρ ε ι) (T : Table κ (Versioned ρ)) (since : ℕ) :
    (L.rows T since).Pairwise fun a b => L.rank a ≤ L.rank b := by
  exact List.pairwise_insertionSort _ _

lemma mem_items (h : e ∈ L.items T since limit) : e ∈ L.entries T ∧ since < L.version e :=
  mem_rows.mp (List.mem_of_mem_take h)

lemma next_cases (L : Listing κ ρ ε ι) (T : Table κ (Versioned ρ)) (since limit : ℕ) :
    (L.items T since limit = [] ∧ L.next T since limit = since) ∨
      ∃ e ∈ L.items T since limit, (L.items T since limit).getLast? = some e ∧
        L.next T since limit = L.version e := by
  unfold next
  cases h : (L.items T since limit).getLast? with
  | none => exact .inl ⟨List.getLast?_eq_none_iff.mp h, rfl⟩
  | some e => exact .inr ⟨e, List.mem_of_getLast? h, rfl, rfl⟩

lemma mem_items_of_le_next (hT : ∀ k b k' b', T.get k = some b → T.get k' = some b' →
      b.version = b'.version → k = k') (he : e ∈ L.entries T) (hs : since < L.version e)
    (hn : L.version e ≤ L.next T since limit) : e ∈ L.items T since limit := by
  have hrow : e ∈ L.rows T since := mem_rows.mpr ⟨he, hs⟩
  rw [← List.take_append_drop (L.limit limit) (L.rows T since), List.mem_append] at hrow
  rcases hrow with hpage | hrest
  · exact hpage
  rcases next_cases L T since limit with
    ⟨-, h⟩ | ⟨x, hx, -, h⟩
  · omega
  -- the last of the page is no later than the rest, so it can only be the same entry
  have hsorted := pairwise_rows L T since
  rw [← List.take_append_drop (L.limit limit) (L.rows T since), List.pairwise_append] at hsorted
  have hle : L.version x ≤ L.version e := Prod.Lex.monotone_fst _ _ (hsorted.2.2 x hx e hrest)
  have hver : L.version e = L.version x := le_antisymm (h ▸ hn) hle
  have heq : e = x := L.distinct T hT e he x (mem_items hx).1 hver
  rw [heq]
  exact hx

lemma mem_items_of_not_hasMore (h : L.hasMore T since limit = false) (he : e ∈ L.entries T)
    (hs : since < L.version e) : e ∈ L.items T since limit := by
  have hlen : (L.rows T since).length ≤ L.limit limit := by simpa [hasMore] using h
  rw [items, List.take_of_length_le hlen]
  exact mem_rows.mpr ⟨he, hs⟩

def left (L : Listing κ ρ ε ι) (T : Table κ (Versioned ρ)) (since : ℕ) : ℕ :=
  ((L.entries T).filter fun e => decide (since < L.version e)).length

lemma length_rows : (L.rows T since).length = L.left T since := by
  rw [rows, List.length_insertionSort, left]

lemma hasMore_of_left (h : L.left T since = 0) : L.hasMore T since limit = false := by
  simp [hasMore, length_rows, h]

lemma left_next (L : Listing κ ρ ε ι) (T : Table κ (Versioned ρ)) (since limit : ℕ) :
    L.left T (L.next T since limit) ≤ L.left T since - 1 := by
  rcases next_cases L T since limit with
    ⟨hnil, h⟩ | ⟨x, hx, -, h⟩
  · have hrows : L.rows T since = [] := by
      rcases List.take_eq_nil_iff.mp hnil with hzero | hrows
      · have := L.limit_pos limit
        omega
      · exact hrows
    have : L.left T since = 0 := by rw [← length_rows, hrows, List.length_nil]
    rw [h, this]
  · obtain ⟨hmem, hlt⟩ := mem_items hx
    have hsub : (L.entries T).filter (fun e => decide (L.next T since limit < L.version e)) =
        ((L.entries T).filter fun e => decide (since < L.version e)).filter
          fun e => decide (L.next T since limit < L.version e) := by
      rw [List.filter_filter]
      apply List.filter_congr
      intro e _
      by_cases hn : L.next T since limit < L.version e
      · have hs : since < L.version e := by omega
        simp [hn, hs]
      · simp [hn]
    have hstrict : L.left T (L.next T since limit) < L.left T since := by
      unfold left
      rw [hsub, List.length_filter_lt_length_iff_exists]
      exact ⟨x, List.mem_filter.mpr ⟨hmem, by simpa using hlt⟩, by simp [h]⟩
    omega

end Listing

/-! ### Writers and the reader -/

/-- The writers, and of the reader the last version it got and all it has received. -/
structure Session (κ ρ α : Type) where
  writers : Writers κ ρ
  since : ℕ
  received : List α

namespace Session

inductive Event (κ ρ : Type)
  | write (a : Write κ ρ)
  | page (limit : ℕ)

variable (answer : Endpoint κ ρ α)

def start : Session κ ρ α := ⟨.empty, 0, []⟩

def page (limit : ℕ) (s : Session κ ρ α) : Session κ ρ α :=
  let r := answer s.writers.table s.since limit
  { s with since := r.nextVersion, received := s.received ++ r.items }

def step [DecidableEq κ] (s : Session κ ρ α) : Event κ ρ → Session κ ρ α
  | .write a => { s with writers := s.writers.step a }
  | .page limit => s.page answer limit

def run [DecidableEq κ] (s : Session κ ρ α) (evs : List (Event κ ρ)) : Session κ ρ α :=
  evs.foldl (step answer) s

/-- The reader asks for one page after the other. -/
def pages (s : Session κ ρ α) (limits : List ℕ) : Session κ ρ α :=
  limits.foldl (fun s l => s.page answer l) s

/-- Nothing that an open transaction has written and the query would show has a version below that
of an entry the query shows now. -/
def Orderly [DecidableEq κ] [LinearOrder ι] (L : Listing κ ρ ε ι) (s : Session κ ρ α) :
    Event κ ρ → Prop
  | .write _ => True
  | .page _ => ∀ x ∈ s.writers.pending.select fun x b => L.shows x.2 b.row,
      ∀ e ∈ L.entries s.writers.table, L.version e < x.2.version

/-- Whenever the reader asks for a page, the versions have come out in order. -/
def OrderlyRun [DecidableEq κ] [LinearOrder ι] (L : Listing κ ρ ε ι) (s : Session κ ρ α) :
    List (Event κ ρ) → Prop
  | [] => True
  | a :: evs => s.Orderly L a ∧ OrderlyRun L (s.step answer a) evs

instance decidableOrderly [DecidableEq κ] [LinearOrder ι] (L : Listing κ ρ ε ι)
    (s : Session κ ρ α) : ∀ a : Event κ ρ, Decidable (s.Orderly L a)
  | .write _ => inferInstanceAs (Decidable True)
  | .page _ => inferInstanceAs (Decidable (∀ x ∈ _, ∀ e ∈ _, _ < _))

instance decidableOrderlyRun [DecidableEq κ] [LinearOrder ι] (L : Listing κ ρ ε ι) :
    ∀ (s : Session κ ρ α) (evs : List (Event κ ρ)), Decidable (OrderlyRun answer L s evs)
  | _, [] => inferInstanceAs (Decidable True)
  | s, a :: evs =>
    have := decidableOrderlyRun L (s.step answer a) evs
    inferInstanceAs (Decidable (_ ∧ _))

/-- No transaction has anything left to commit. -/
def isQuiet (s : Session κ ρ α) : Bool := !s.writers.pending.any fun _ _ => true

variable [LinearOrder ι] {L : Listing κ ρ ε ι} {item : ε → α} {answer} {s : Session κ ρ α}

/-- The reader has all entries up to where it is, and none that is still to be committed belongs
there. -/
structure UpToDate (L : Listing κ ρ ε ι) (item : ε → α) (s : Session κ ρ α) : Prop where
  sound : s.writers.Sound
  passed : s.since ≤ s.writers.seq
  has : ∀ e ∈ L.entries s.writers.table, L.version e ≤ s.since → item e ∈ s.received
  ahead : ∀ t k b, s.writers.pending.get (t, k) = some b → L.shows k b.row = true →
    s.since < b.version

lemma upToDate_start : (start : Session κ ρ α).UpToDate L item where
  sound := Writers.sound_empty
  passed := le_refl _
  has e he _ := by
    obtain ⟨k, b, h, -⟩ := L.origin _ e he
    exact nomatch h
  ahead t k b h := nomatch h

lemma UpToDate.write [DecidableEq κ] (h : s.UpToDate L item) (a : Write κ ρ) :
    (s.step answer (.write a)).UpToDate L item := by
  have hsound : (s.writers.step a).Sound := h.sound.step a
  cases a with
  | update t k row =>
    cases hl : s.writers.isLocked t k with
    | true => simpa [step, Writers.step, hl] using h
    | false =>
      have hw : s.writers.step (.update t k row) = { s.writers with
          seq := s.writers.seq + 1
          pending := s.writers.pending.put (t, k) ⟨row, s.writers.seq + 1⟩ } := by
        simp [Writers.step, hl]
      refine ⟨hsound, ?_, ?_, ?_⟩
      · rw [step, hw]
        exact h.passed.trans (Nat.le_succ _)
      · rw [step, hw]
        exact h.has
      · intro t' k' b hb hshow
        rw [step, hw] at hb
        by_cases hk : (t', k') = (t, k)
        · -- a version that is drawn now is beyond all that have been read
          obtain rfl : ⟨row, s.writers.seq + 1⟩ = b := by simpa [hk] using hb
          exact Nat.lt_succ_of_le h.passed
        · exact h.ahead t' k' b (by simpa [hk] using hb) hshow
  | commit t =>
    refine ⟨hsound, h.passed, fun e he hv => ?_, fun t' k b hb hshow => ?_⟩
    · have hfresh := L.fresh s.writers.table (.overlay s.writers.pending t s.writers.table) s.since
        (fun k => ?_) e he
      · rcases hfresh with hold | hnew
        · exact h.has e hold hv
        · exact absurd hv (Nat.not_le.mpr hnew)
      · cases hp : s.writers.pending.get (t, k) with
        | none => exact .inl (by simp [Table.overlay, hp])
        | some b => exact .inr ⟨b, by simp [Table.overlay, hp], h.ahead t k b hp⟩
    · exact h.ahead t' k b (Writers.place_closed hb).2 hshow
  | rollback t =>
    exact ⟨hsound, h.passed, h.has, fun t' k b hb hshow =>
      h.ahead t' k b (Writers.place_closed hb).2 hshow⟩

lemma unique_table (h : s.writers.Sound) : ∀ k b k' b', s.writers.table.get k = some b →
    s.writers.table.get k' = some b' → b.version = b'.version → k = k' :=
  fun k b k' b' hb hb' hv => (h.unique k none b k' none b' hb hb' hv).1

variable (hL : L.Serves item answer)

include hL

lemma since_page (limit : ℕ) :
    (s.page answer limit).since = L.next s.writers.table s.since limit := by
  rw [page, hL]

lemma received_page (limit : ℕ) : (s.page answer limit).received =
      s.received ++ (L.items s.writers.table s.since limit).map item := by
  rw [page, hL]

variable {limit : ℕ}

lemma UpToDate.page (h : s.UpToDate L item)
    (ho : ∀ t k b, s.writers.pending.get (t, k) = some b → L.shows k b.row = true →
      ∀ e ∈ L.entries s.writers.table, L.version e < b.version) :
    (s.page answer limit).UpToDate L item := by
  refine ⟨h.sound, ?_, fun e he hv => ?_, fun t k b hb hshow => ?_⟩
  · rw [since_page hL]
    rcases L.next_cases s.writers.table s.since limit with ⟨-, hn⟩ | ⟨e, he, -, hn⟩
    · rw [hn]
      exact h.passed
    · rw [hn]
      obtain ⟨k, b, hb, hv⟩ := L.origin _ e (Listing.mem_items he).1
      rw [Listing.version, hv]
      exact h.sound.drawn k none b hb
  · rw [since_page hL] at hv
    rw [received_page hL, List.mem_append]
    by_cases hs : L.version e ≤ s.since
    · exact .inl (h.has e he hs)
    · exact .inr (List.mem_map_of_mem (Listing.mem_items_of_le_next (unique_table h.sound) he
        (Nat.not_le.mp hs) hv))
  · rw [since_page hL]
    rcases L.next_cases s.writers.table s.since limit with ⟨-, hn⟩ | ⟨e, he, -, hn⟩
    · rw [hn]
      exact h.ahead t k b hb hshow
    · rw [hn]
      exact ho t k b hb hshow e (Listing.mem_items he).1

lemma UpToDate.run [DecidableEq κ] {evs : List (Event κ ρ)} :
    ∀ s : Session κ ρ α, s.UpToDate L item → OrderlyRun answer L s evs →
      (s.run answer evs).UpToDate L item := by
  induction evs with
  | nil => exact fun _ h _ => h
  | cons a evs ih =>
    intro s h ho
    refine ih _ ?_ ho.2
    cases a with
    | write a => exact h.write a
    | page limit =>
      exact h.page hL fun t k b hb hshow => ho.1 ((t, k), b) (Table.mem_select.mpr ⟨hb, hshow⟩)

variable {limits : List ℕ}

omit hL in
lemma writers_pages : ∀ s : Session κ ρ α, (s.pages answer limits).writers = s.writers := by
  induction limits with
  | nil => exact fun _ => rfl
  | cons l limits ih => exact fun s => ih (s.page answer l)

omit hL in
lemma pending_of_isQuiet (hq : s.isQuiet = true) {x : ℕ × κ} {b : Versioned ρ} :
    s.writers.pending.get x ≠ some b := by
  intro hb
  simp only [isQuiet, Bool.not_eq_true', Table.any_eq_false] at hq
  exact nomatch hq x b hb

lemma UpToDate.pages (limits : List ℕ) : ∀ s : Session κ ρ α,
    s.UpToDate L item → s.isQuiet = true → (s.pages answer limits).UpToDate L item := by
  induction limits with
  | nil => exact fun _ h _ => h
  | cons l limits ih =>
    exact fun s h hq => ih _ (h.page hL fun t k b hb => absurd hb (pending_of_isQuiet hq)) hq

lemma left_pages (limits : List ℕ) : ∀ s : Session κ ρ α,
    L.left s.writers.table (s.pages answer limits).since ≤
      L.left s.writers.table s.since - limits.length := by
  induction limits with
  | nil => exact fun _ => le_refl _
  | cons l limits ih =>
    intro s
    have hrest := ih (s.page answer l)
    have hone := L.left_next s.writers.table s.since l
    have hsame : (s.page answer l).writers = s.writers := rfl
    rw [hsame, since_page hL] at hrest
    have hpages : s.pages answer (l :: limits) = (s.page answer l).pages answer limits := rfl
    rw [hpages, List.length_cons]
    omega

/-- **The reader gets to the end**: with as many pages as there are entries, there is no more. -/
lemma not_hasMore_pages (hlen : (L.entries s.writers.table).length ≤ limits.length) :
    (answer s.writers.table (s.pages answer limits).since limit).hasMore = false := by
  have hleft := left_pages hL limits s
  have hall : L.left s.writers.table s.since ≤ (L.entries s.writers.table).length :=
    List.length_filter_le _ _
  rw [hL]
  exact Listing.hasMore_of_left (by omega)

/-- **The reader has everything at the end**: once there is no more, every entry as it is now has
been received. -/
lemma UpToDate.complete (h : s.UpToDate L item) (hq : s.isQuiet = true)
    (hmore : (answer s.writers.table (s.pages answer limits).since limit).hasMore = false)
    {e : ε} (he : e ∈ L.entries s.writers.table) :
    item e ∈ ((s.pages answer limits).page answer limit).received := by
  have hpages := UpToDate.pages hL limits s h hq
  have hw : (s.pages answer limits).writers = s.writers := writers_pages s
  rw [received_page hL, hw, List.mem_append]
  rw [hL] at hmore
  by_cases hs : L.version e ≤ (s.pages answer limits).since
  · exact .inl (hpages.has e (hw ▸ he) hs)
  · exact .inr (List.mem_map_of_mem (Listing.mem_items_of_not_hasMore hmore he (Nat.not_le.mp hs)))

end Session

end PrivChat.Db
