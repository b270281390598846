import Mathlib.Data.List.Basic
import Mathlib.Order.Nat

/-!
Ranges of positions, and lists of them in the order of the positions.

Such a list is a chain when every range starts where the one before it ends, or later. Joining
the ranges that touch covers the same positions, and the gaps are the positions not covered.
-/

namespace PrivChat.Ranges

structure Range where
  offset : ℕ
  length : ℕ
  deriving DecidableEq

namespace Range

/-- The position after the last. -/
def stop (r : Range) : ℕ := r.offset + r.length

def Has (r : Range) (i : ℕ) : Prop := r.offset ≤ i ∧ i < r.stop

instance (r : Range) (i : ℕ) : Decidable (r.Has i) := inferInstanceAs (Decidable (_ ∧ _))

def Disjoint (r r' : Range) : Prop := r.stop ≤ r'.offset ∨ r'.stop ≤ r.offset

lemma Disjoint.symm {r r' : Range} (h : r.Disjoint r') : r'.Disjoint r := Or.symm h

end Range

def Covers (rs : List Range) (i : ℕ) : Prop := ∃ r ∈ rs, r.Has i

@[simp] lemma not_covers_nil {i : ℕ} : ¬ Covers [] i := by simp [Covers]

@[simp] lemma covers_cons {r : Range} {rs : List Range} {i : ℕ} :
    Covers (r :: rs) i ↔ r.Has i ∨ Covers rs i := by
  simp [Covers]

/-- Ranges with something in them, in order, none starting before `c`. -/
def Chain (c : ℕ) : List Range → Prop
  | [] => True
  | r :: rs => c ≤ r.offset ∧ 0 < r.length ∧ Chain r.stop rs

namespace Chain

variable {c c' i : ℕ} {r r' : Range} {rs : List Range}

lemma mono (h : Chain c rs) (hc : c' ≤ c) : Chain c' rs := by
  cases rs with
  | nil => trivial
  | cons r rs => exact ⟨hc.trans h.1, h.2⟩

lemma le_of_mem (h : Chain c rs) (hr : r ∈ rs) : c ≤ r.offset ∧ 0 < r.length := by
  induction rs generalizing c with
  | nil => cases hr
  | cons q rs ih =>
    rcases List.mem_cons.mp hr with rfl | hr
    · exact ⟨h.1, h.2.1⟩
    · have hq := ih h.2.2 hr
      have hs : c ≤ q.stop := h.1.trans (Nat.le_add_right _ _)
      exact ⟨hs.trans hq.1, hq.2⟩

lemma le_of_covers (h : Chain c rs) (hi : Covers rs i) : c ≤ i := by
  obtain ⟨r, hr, hri⟩ := hi
  exact (h.le_of_mem hr).1.trans hri.1

end Chain

variable {rs : List Range} {c : ℕ}

/-- Ranges sorted by where they start, with something in each and no position in two of them,
form a chain. -/
lemma chain_of_sorted (hc : ∀ r ∈ rs, c ≤ r.offset)
    (hpos : ∀ r ∈ rs, 0 < r.length) (hsorted : rs.Pairwise fun r r' => r.offset ≤ r'.offset)
    (hdisj : rs.Pairwise Range.Disjoint) : Chain c rs := by
  induction rs generalizing c with
  | nil => trivial
  | cons r rs ih =>
    obtain ⟨hle, hsorted⟩ := List.pairwise_cons.mp hsorted
    obtain ⟨hd, hdisj⟩ := List.pairwise_cons.mp hdisj
    have hstop : ∀ r' ∈ rs, r.stop ≤ r'.offset := by
      intro r' hr'
      have h1 := hle r' hr'
      have h2 := hpos r' (List.mem_cons_of_mem _ hr')
      have h3 := hd r' hr'
      unfold Range.Disjoint Range.stop at h3
      unfold Range.stop
      omega
    have hrest := ih hstop (fun r' hr' => hpos r' (List.mem_cons_of_mem _ hr')) hsorted hdisj
    exact ⟨hc r List.mem_cons_self, hpos r List.mem_cons_self, hrest⟩

/-- Go on from the range `last`, which grows as long as the next one starts where it ends. -/
def joinFrom (last : Range) : List Range → List Range
  | [] => [last]
  | r :: rs =>
    if last.offset + last.length = r.offset then
      joinFrom ⟨last.offset, last.length + r.length⟩ rs
    else last :: joinFrom r rs

def join : List Range → List Range
  | [] => []
  | r :: rs => joinFrom r rs

/-- A chain of which no two ranges touch. -/
def Apart (c : ℕ) : List Range → Prop
  | [] => True
  | r :: rs => c ≤ r.offset ∧ 0 < r.length ∧ Apart (r.stop + 1) rs

lemma Apart.chain (h : Apart c rs) : Chain c rs := by
  induction rs generalizing c with
  | nil => trivial
  | cons r rs ih => exact ⟨h.1, h.2.1, (ih h.2.2).mono (Nat.le_succ _)⟩

lemma covers_joinFrom (last : Range) (rs : List Range) (i : ℕ) :
    Covers (joinFrom last rs) i ↔ last.Has i ∨ Covers rs i := by
  induction rs generalizing last with
  | nil => simp [joinFrom]
  | cons r rs ih =>
    unfold joinFrom
    split
    · rename_i htouch
      rw [ih, covers_cons, ← or_assoc]
      refine or_congr_left ?_
      unfold Range.Has Range.stop
      simp only
      omega
    · rw [covers_cons, covers_cons, ih]

lemma apart_joinFrom {last : Range} (h : Chain c (last :: rs)) : Apart c (joinFrom last rs) := by
  induction rs generalizing last c with
  | nil => exact ⟨h.1, h.2.1, trivial⟩
  | cons r rs ih =>
    obtain ⟨hc, hpos, hr, hrpos, hrest⟩ := h
    unfold joinFrom
    split
    · rename_i htouch
      refine ih ⟨hc, by simp only; omega, ?_⟩
      refine hrest.mono ?_
      unfold Range.stop
      simp only
      omega
    · rename_i hgap
      refine ⟨hc, hpos, ih ⟨?_, hrpos, hrest⟩⟩
      unfold Range.stop at hr ⊢
      omega

lemma covers_join {i : ℕ} : Covers (join rs) i ↔ Covers rs i := by
  cases rs with
  | nil => rfl
  | cons r rs => rw [join, covers_joinFrom, covers_cons]

lemma apart_join (h : Chain c rs) : Apart c (join rs) := by
  cases rs with
  | nil => trivial
  | cons r rs => exact apart_joinFrom h

lemma Chain.stop_le {total : ℕ} {r : Range} (h : Chain c rs)
    (hin : ∀ i, Covers rs i → i < total) (hr : r ∈ rs) : r.stop ≤ total := by
  have hpos := (h.le_of_mem hr).2
  have hlast : r.Has (r.stop - 1) := by
    unfold Range.Has Range.stop
    omega
  have := hin _ ⟨r, hr, hlast⟩
  omega

lemma stop_le_of_mem_join {total : ℕ} {r : Range} (h : Chain c rs)
    (hin : ∀ r ∈ rs, r.stop ≤ total) (hr : r ∈ join rs) : r.stop ≤ total := by
  refine (apart_join h).chain.stop_le (fun i hi => ?_) hr
  obtain ⟨q, hq, hqi⟩ := covers_join.mp hi
  exact hqi.2.trans_le (hin q hq)

/-- Go on from the range `last`, which grows as long as the next one starts where it ends, or
earlier. -/
def mergeFrom (last : Range) : List Range → List Range
  | [] => [last]
  | r :: rs =>
    if r.offset ≤ last.offset + last.length then
      mergeFrom ⟨last.offset, max (last.offset + last.length) (r.offset + r.length) - last.offset⟩
        rs
    else last :: mergeFrom r rs

def merge : List Range → List Range
  | [] => []
  | r :: rs => mergeFrom r rs

/-- Sorted ranges, joined where they overlap, cover what they covered, with a gap between any
two. -/
lemma mergeFrom_spec {last : Range} (hc : c ≤ last.offset) (hpos : ∀ r ∈ last :: rs, 0 < r.length)
    (hs : (last :: rs).Pairwise fun r r' => r.offset ≤ r'.offset) : Apart c (mergeFrom last rs) ∧
      ∀ i, Covers (mergeFrom last rs) i ↔ last.Has i ∨ Covers rs i := by
  induction rs generalizing last c with
  | nil => exact ⟨⟨hc, hpos last (by simp), trivial⟩, fun i => by simp [mergeFrom]⟩
  | cons r rs ih =>
    obtain ⟨hle, hrest⟩ := List.pairwise_cons.mp hs
    have hr := hle r (by simp)
    have hlast := hpos last (by simp)
    rw [List.forall_mem_cons] at hpos
    unfold mergeFrom
    split
    · rename_i htouch
      have hnew := @ih c ⟨last.offset, max (last.offset + last.length) (r.offset + r.length) -
        last.offset⟩ hc (List.forall_mem_cons.mpr ⟨by simp only; omega, by simp_all⟩) (by simp_all)
      refine ⟨hnew.1, fun i => ?_⟩
      rw [hnew.2, covers_cons, ← or_assoc]
      refine or_congr_left ?_
      unfold Range.Has Range.stop
      simp only
      omega
    · have hnew := @ih (last.stop + 1) r (by unfold Range.stop; omega) hpos.2 hrest
      exact ⟨⟨hc, hlast, hnew.1⟩, fun i => by rw [covers_cons, covers_cons, hnew.2]⟩

lemma merge_spec (h : ∀ r ∈ rs, c ≤ r.offset ∧ 0 < r.length)
    (hs : rs.Pairwise fun r r' => r.offset ≤ r'.offset) :
    Apart c (merge rs) ∧ ∀ i, Covers (merge rs) i ↔ Covers rs i := by
  cases rs with
  | nil => exact ⟨trivial, fun _ => Iff.rfl⟩
  | cons r rs =>
    obtain ⟨ha, hcov⟩ := mergeFrom_spec (h r (by simp)).1 (fun q hq => (h q hq).2) hs
    exact ⟨ha, fun i => by rw [merge, hcov, covers_cons]⟩

/-! ### Gaps -/

/-- The gaps from `cursor` on. -/
def gaps (total cursor : ℕ) : List Range → List Range
  | [] => if cursor < total then [⟨cursor, total - cursor⟩] else []
  | r :: rs =>
    if cursor < r.offset then
      ⟨cursor, r.offset - cursor⟩ :: gaps total (max cursor (r.offset + r.length)) rs
    else gaps total (max cursor (r.offset + r.length)) rs

section Gaps

variable {total c i : ℕ} {rs : List Range}

lemma max_stop {r : Range} (h : Chain c (r :: rs)) : max c (r.offset + r.length) = r.stop := by
  have hc := h.1
  unfold Range.stop
  omega

variable (h : Chain c rs) (hin : ∀ r ∈ rs, r.stop ≤ total)

include h hin

lemma covers_gaps : Covers (gaps total c rs) i ↔ c ≤ i ∧ i < total ∧ ¬ Covers rs i := by
  induction rs generalizing c with
  | nil =>
    unfold gaps
    split
    · simp only [covers_cons, not_covers_nil, or_false, not_false_eq_true, and_true, Range.Has,
        Range.stop]
      omega
    · simp only [not_covers_nil, false_iff]
      omega
  | cons r rs ih =>
    have hrest := ih h.2.2 fun r' hr' => hin r' (List.mem_cons_of_mem _ hr')
    have hc := h.1
    have hr := hin r List.mem_cons_self
    have hlow : Covers rs i → r.stop ≤ i := fun hi => h.2.2.le_of_covers hi
    unfold gaps
    rw [max_stop h]
    unfold Range.stop at hr hlow hrest
    by_cases hcov : Covers rs i
    · have hge := hlow hcov
      split
      · simp only [covers_cons, Range.stop, hrest, hcov, Range.Has, or_true, not_true, and_false,
          or_false, iff_false]
        omega
      · simp [Range.stop, hrest, hcov]
    · split
      · simp only [covers_cons, Range.stop, hrest, hcov, Range.Has, or_false, not_false_eq_true,
          and_true]
        omega
      · simp only [covers_cons, Range.stop, hrest, hcov, Range.Has, or_false, not_false_eq_true,
          and_true]
        omega

lemma chain_gaps : Chain c (gaps total c rs) := by
  induction rs generalizing c with
  | nil =>
    unfold gaps
    split
    · exact ⟨le_refl _, by simp only; omega, trivial⟩
    · trivial
  | cons r rs ih =>
    have hrest := ih h.2.2 fun r' hr' => hin r' (List.mem_cons_of_mem _ hr')
    have hstop : r.offset ≤ r.stop := Nat.le_add_right _ _
    unfold gaps
    rw [max_stop h]
    split
    · refine ⟨le_refl _, by simp only; omega, hrest.mono ?_⟩
      unfold Range.stop
      simp only
      omega
    · exact hrest.mono (h.1.trans hstop)

lemma gaps_eq_nil : gaps total c rs = [] ↔ ∀ i, c ≤ i → i < total → Covers rs i := by
  constructor
  · intro hnil i hc hi
    by_contra hcov
    have := (covers_gaps h hin).mpr ⟨hc, hi, hcov⟩
    rw [hnil] at this
    exact not_covers_nil this
  · intro hall
    by_contra hne
    obtain ⟨g, hg⟩ := List.exists_mem_of_ne_nil _ hne
    have hpos := ((chain_gaps h hin).le_of_mem hg).2
    have hcov : Covers (gaps total c rs) g.offset := ⟨g, hg, le_refl _, by unfold Range.stop; omega⟩
    obtain ⟨hc, hi, hnot⟩ := (covers_gaps h hin).mp hcov
    exact hnot (hall _ hc hi)

omit h hin in
lemma eq_singleton_of_gaps_nil (h : Apart 0 rs) (hin : ∀ r ∈ rs, r.stop ≤ total)
    (htotal : 0 < total) (hnil : gaps total 0 rs = []) : rs = [⟨0, total⟩] := by
  have hall := (gaps_eq_nil h.chain hin).mp hnil
  cases rs with
  | nil => exact absurd (hall 0 (le_refl _) htotal) not_covers_nil
  | cons r rs =>
    obtain ⟨-, hpos, hrest⟩ := h
    have hstop := hin r List.mem_cons_self
    have hlow : ∀ i, Covers rs i → r.stop + 1 ≤ i := fun i hi => hrest.chain.le_of_covers hi
    have h0 : r.offset = 0 := by
      rcases covers_cons.mp (hall 0 (le_refl _) htotal) with h0 | h0
      · exact Nat.le_zero.mp h0.1
      · have := hlow 0 h0
        omega
    have hend : total ≤ r.stop := by
      by_contra hlt
      rcases covers_cons.mp (hall r.stop (Nat.zero_le _) (by omega)) with h1 | h1
      · exact absurd h1.2 (lt_irrefl _)
      · have := hlow r.stop h1
        omega
    have hnone : rs = [] := by
      cases rs with
      | nil => rfl
      | cons q rs =>
        have hq := hrest.1
        have hqpos := hrest.2.1
        have hqin := hin q (by simp)
        unfold Range.stop at hq hqin hend
        omega
    have hlen : r.length = total := by
      unfold Range.stop at hend hstop
      omega
    rw [hnone]
    congr 1
    cases r
    simp only at h0 hlen
    rw [h0, hlen]

end Gaps

section Content

variable {c total i : ℕ} {q r : Range} {rs : List Range}

/-- The first range of a chain that covers everything starts at the cursor, and the others
cover what comes after it. -/
lemma Chain.uncons (h : Chain c (q :: rs)) (hq : q.stop ≤ total)
    (hall : ∀ i, c ≤ i → i < total → Covers (q :: rs) i) :
    q.offset = c ∧ ∀ i, q.stop ≤ i → i < total → Covers rs i := by
  have hc := h.1
  have hpos := h.2.1
  have hlow : ∀ i, Covers rs i → q.stop ≤ i := fun i hi => h.2.2.le_of_covers hi
  constructor
  · unfold Range.stop at hq hlow
    rcases covers_cons.mp (hall c (le_refl _) (by omega)) with h0 | h0
    · exact le_antisymm h0.1 hc
    · have := hlow c h0
      omega
  · intro i hqi hi
    have hci : c ≤ i := by
      unfold Range.stop at hqi
      omega
    rcases covers_cons.mp (hall i hci hi) with h0 | h0
    · exact absurd h0.2 (by omega)
    · exact h0

variable {α : Type} {content : Range → List α}

lemma getElem?_flatMap_of_mem (h : Chain c rs) (hlen : ∀ r ∈ rs, (content r).length = r.length)
    (hin : ∀ r ∈ rs, r.stop ≤ total) (hall : ∀ i, c ≤ i → i < total → Covers rs i) (hr : r ∈ rs)
    (hi : r.Has i) : (rs.flatMap content)[i - c]? = (content r)[i - r.offset]? := by
  induction rs generalizing c with
  | nil => cases hr
  | cons q rs ih =>
    have hqlen := hlen q List.mem_cons_self
    obtain ⟨hstart, hrest⟩ := h.uncons (hin q List.mem_cons_self) hall
    rw [List.flatMap_cons]
    rcases List.mem_cons.mp hr with rfl | hr
    · have hlt : i - c < (content r).length := by
        unfold Range.Has Range.stop at hi
        omega
      rw [List.getElem?_append_left hlt, hstart]
    · have hle := (h.2.2.le_of_mem hr).1
      have hge : (content q).length ≤ i - c := by
        have hri := hi.1
        unfold Range.stop at hle
        omega
      have hsub : i - c - (content q).length = i - q.stop := by
        unfold Range.stop
        omega
      rw [List.getElem?_append_right hge, hsub]
      exact ih h.2.2 (fun r' h' => hlen r' (List.mem_cons_of_mem _ h'))
        (fun r' h' => hin r' (List.mem_cons_of_mem _ h')) hrest hr

lemma length_flatMap_of_covers (h : Chain c rs) (hc : c ≤ total)
    (hlen : ∀ r ∈ rs, (content r).length = r.length) (hin : ∀ r ∈ rs, r.stop ≤ total)
    (hall : ∀ i, c ≤ i → i < total → Covers rs i) : (rs.flatMap content).length = total - c := by
  induction rs generalizing c with
  | nil =>
    have hle : total ≤ c := by
      by_contra hlt
      exact not_covers_nil (hall c (le_refl _) (by omega))
    simp only [List.flatMap_nil, List.length_nil]
    omega
  | cons q rs ih =>
    have hq := hin q List.mem_cons_self
    have hqlen := hlen q List.mem_cons_self
    obtain ⟨hstart, hrest⟩ := h.uncons hq hall
    have hr := ih h.2.2 hq (fun r' h' => hlen r' (List.mem_cons_of_mem _ h'))
      (fun r' h' => hin r' (List.mem_cons_of_mem _ h')) hrest
    rw [List.flatMap_cons, List.length_append, hr, hqlen]
    unfold Range.stop at hq ⊢
    omega

end Content

end PrivChat.Ranges
