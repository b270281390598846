import PrivChat.Uploads.Parts
import Mathlib.Algebra.BigOperators.Group.Finset.Basic

/-!
The parts of an upload that goes to the storage directly.

The size of a part is computed from the size of the upload. A part that the storage lists counts as
received only if it has the length that its number calls for; the parts that count are put together
to ranges, and what is between them is missing.
-/

namespace PrivChat.Uploads

open Ranges

/-! ### The size of a part -/

/-- What does not fit into 64 bits is an overflow. -/
def u64 (n : ℕ) : Option ℕ := if n < 2 ^ 64 then some n else none

def divCeil (a b : ℕ) : Option ℕ := if 0 < a % b then u64 (a / b + 1) else some (a / b)

def s3PartGeometry (totalSize : ℕ) : Option (ℕ × ℕ) := do
  let byCount ← divCeil totalSize 10000
  let units ← divCeil (max (8 * 2 ^ 20) byCount) (2 ^ 20)
  let aligned ← u64 (units * 2 ^ 20)
  let partSize := max (5 * 2 ^ 20) (min aligned (5 * 2 ^ 30))
  let totalParts ← divCeil totalSize partSize
  return (partSize, totalParts % 2 ^ 32)

section Parts

variable (partNumber contentLength totalParts partSize totalSize : ℕ)

/-- The last part has what is left over. -/
def expectedLength : ℕ :=
  if partNumber = totalParts then
    if totalSize % partSize = 0 then partSize else totalSize % partSize
  else partSize

def checkPartGeometry : Except String Unit :=
  if partNumber = 0 ∨ totalParts < partNumber then
    .error s!"part_number 必须在 [1, {totalParts}]，收到 {partNumber}"
  else
    let expected := expectedLength partNumber totalParts partSize totalSize
    if contentLength ≠ expected then
      .error s!"part {partNumber} 长度必须是 {expected}，收到 {contentLength}"
    else .ok ()

lemma checkPartGeometry_ok_iff :
    checkPartGeometry partNumber contentLength totalParts partSize totalSize = .ok () ↔
      (1 ≤ partNumber ∧ partNumber ≤ totalParts) ∧
        contentLength = expectedLength partNumber totalParts partSize totalSize := by
  unfold checkPartGeometry
  dsimp only
  split_ifs with hn hl <;> simp <;> omega

end Parts

/-- Every part has something of the upload, and together they have all of it. -/
structure Geometry (totalSize partSize totalParts : ℕ) : Prop where
  pos : 0 < partSize
  enough : totalSize ≤ totalParts * partSize
  needed : ∀ k < totalParts, k * partSize < totalSize

section Geometry

variable {totalSize partSize totalParts k m : ℕ}

lemma divCeil_eq (a : ℕ) {b : ℕ} (hb : 0 < b) (ha : a < 2 ^ 64) :
    ∃ n, divCeil a b = some n ∧ Geometry a b n := by
  have hdiv := Nat.div_add_mod a b
  have hmod := Nat.mod_lt a hb
  have hbelow : ∀ k ≤ a / b, k * b ≤ b * (a / b) := by
    intro k hk
    rw [Nat.mul_comm b]
    exact Nat.mul_le_mul_right b hk
  unfold divCeil u64
  split_ifs with hr hlt
  · refine ⟨_, rfl, hb, by rw [Nat.succ_mul, Nat.mul_comm]; omega, fun k hk => ?_⟩
    have := hbelow k (by omega)
    omega
  · have : a / b < a := Nat.div_lt_self (by omega) (by by_contra hb1; simp_all; omega)
    omega
  · refine ⟨_, rfl, hb, by rw [Nat.mul_comm]; omega, fun k hk => ?_⟩
    have := hbelow (k + 1) hk
    rw [Nat.succ_mul] at this
    omega

lemma s3PartGeometry_eq (h1 : 1 ≤ totalSize) (h2 : totalSize ≤ 10000 * (5 * 2 ^ 30)) :
    ∃ units totalParts, s3PartGeometry totalSize = some (units * 2 ^ 20, totalParts) ∧
      8 ≤ units ∧ units ≤ 5120 ∧ 1 ≤ totalParts ∧ totalParts ≤ 10000 ∧
      Geometry totalSize (units * 2 ^ 20) totalParts := by
  obtain ⟨byCount, hc, hcount⟩ := divCeil_eq totalSize (b := 10000) (by omega) (by omega)
  have hc' : byCount ≤ 5 * 2 ^ 30 := by
    by_contra hlt
    have := hcount.needed (5 * 2 ^ 30) (by omega)
    omega
  have hc0 := hcount.enough
  obtain ⟨units, hu, halign⟩ := divCeil_eq (max (8 * 2 ^ 20) byCount) (b := 2 ^ 20) (by omega)
    (by omega)
  have hu' : units ≤ 5120 := by
    by_contra hlt
    have := halign.needed 5120 (by omega)
    omega
  have hu0 := halign.enough
  obtain ⟨n, hn, hg⟩ := divCeil_eq totalSize (b := units * 2 ^ 20) (by omega) (by omega)
  have hn' : n ≤ 10000 := by
    by_contra hlt
    have := hg.needed 10000 (by omega)
    omega
  have hn1 : n ≠ 0 := by
    rintro rfl
    have := hg.enough
    omega
  refine ⟨units, n, ?_, by omega, hu', by omega, hn', hg⟩
  have hfit : u64 (units * 2 ^ 20) = some (units * 2 ^ 20) := if_pos (by omega)
  have hclamp : max (5 * 2 ^ 20) (min (units * 2 ^ 20) (5 * 2 ^ 30)) = units * 2 ^ 20 := by omega
  have hcast : n % 2 ^ 32 = n := Nat.mod_eq_of_lt (by omega)
  unfold s3PartGeometry
  refine Option.bind_eq_some_iff.mpr ⟨_, hc, Option.bind_eq_some_iff.mpr ⟨_, hu,
    Option.bind_eq_some_iff.mpr ⟨_, hfit, ?_⟩⟩⟩
  rw [hclamp]
  exact Option.bind_eq_some_iff.mpr ⟨n, hn, by rw [hcast]; rfl⟩

/-- A part goes from where the one before it ends to its own end, or to the end of the upload. -/
lemma Geometry.expectedLength (hg : Geometry totalSize partSize totalParts) (hk : k < totalParts) :
    k * partSize + expectedLength (k + 1) totalParts partSize totalSize =
      min ((k + 1) * partSize) totalSize := by
  have hpos := hg.pos
  have hstart := hg.needed k hk
  rw [Nat.succ_mul]
  unfold Uploads.expectedLength
  split
  · rename_i hlast
    have hend := hg.enough
    rw [← hlast, Nat.succ_mul] at hend
    have hrest : totalSize % partSize = (totalSize - k * partSize) % partSize := by
      conv_lhs => rw [← Nat.add_sub_cancel' hstart.le, Nat.mul_add_mod_self_right]
    rcases Nat.lt_or_ge (totalSize - k * partSize) partSize with hlt | hge
    · rw [hrest, Nat.mod_eq_of_lt hlt, if_neg (by omega)]
      omega
    · have heq : totalSize - k * partSize = partSize := by omega
      rw [hrest, heq, Nat.mod_self, if_pos rfl]
      omega
  · have := hg.needed (k + 1) (by omega)
    rw [Nat.succ_mul] at this
    omega

lemma Geometry.sum_expectedLength (hg : Geometry totalSize partSize totalParts)
    (hm : m ≤ totalParts) :
    ∑ k ∈ Finset.range m, Uploads.expectedLength (k + 1) totalParts partSize totalSize =
      min (m * partSize) totalSize := by
  induction m with
  | zero => simp
  | succ m ih =>
    have hk := hg.needed m hm
    have hnext := hg.expectedLength hm
    rw [Finset.sum_range_succ, ih (by omega)]
    omega

end Geometry

/-- **The parts tile the upload.** For every size that ten thousand parts of five gigabytes can
hold, no computation overflows; the parts have a size within the limits of the storage, and there
are at least one and at most ten thousand of them. For each number of a part one length is
accepted, for other numbers none, and the accepted lengths add up to the size. -/
theorem s3_part_geometry_tiles (totalSize : ℕ) (h1 : 1 ≤ totalSize)
    (h2 : totalSize ≤ 10000 * (5 * 2 ^ 30)) :
    ∃ partSize totalParts, s3PartGeometry totalSize = some (partSize, totalParts) ∧
      2 ^ 20 ∣ partSize ∧ 5 * 2 ^ 20 ≤ partSize ∧ partSize ≤ 5 * 2 ^ 30 ∧
      1 ≤ totalParts ∧ totalParts ≤ 10000 ∧ ∃ accepted : ℕ → ℕ,
        (∀ n l, checkPartGeometry n l totalParts partSize totalSize = .ok () ↔
          (1 ≤ n ∧ n ≤ totalParts) ∧ l = accepted n) ∧
        ∑ k ∈ Finset.range totalParts, accepted (k + 1) = totalSize := by
  obtain ⟨units, n, heq, hu, hu', hn, hn', hg⟩ := s3PartGeometry_eq h1 h2
  refine ⟨_, n, heq, Dvd.intro_left units rfl, by omega, by omega, hn, hn',
    fun k => expectedLength k n (units * 2 ^ 20) totalSize,
    fun k l => checkPartGeometry_ok_iff k l n _ totalSize, ?_⟩
  rw [hg.sum_expectedLength le_rfl]
  exact Nat.min_eq_right hg.enough

theorem s3_part_geometry_tiles_one : ∃ partSize totalParts,
    s3PartGeometry 1 = some (partSize, totalParts) ∧ 1 ≤ totalParts := by
  obtain ⟨partSize, n, heq, -, -, -, hn, -⟩ := s3_part_geometry_tiles 1 (by decide) (by decide)
  exact ⟨partSize, n, heq, hn⟩

/-! ### What has been received -/

structure ListedPart where
  partNumber : ℕ
  size : ℕ

def ListedPart.range (partSize : ℕ) (p : ListedPart) : Range :=
  ⟨(p.partNumber - 1) * partSize, p.size⟩

def rangesFromParts (parts : List ListedPart) (partSize totalParts totalSize : ℕ) : List Range :=
  merge (sortByOffset ((parts.filter fun p =>
    (checkPartGeometry p.partNumber p.size totalParts partSize totalSize).isOk).map
      (ListedPart.range partSize)))

def missingComplement (received : List Range) (totalSize : ℕ) : List Range :=
  gaps totalSize 0 received

section Received

variable {totalSize partSize totalParts i : ℕ} {parts : List ListedPart} {p : ListedPart}

variable (hg : Geometry totalSize partSize totalParts)

include hg

/-- A part that counts has the positions of the upload from one multiple of the size on to the
next. -/
lemma Geometry.range_eq
    (h : checkPartGeometry p.partNumber p.size totalParts partSize totalSize = .ok ()) :
    0 < (p.range partSize).length ∧
      (p.range partSize).stop = min (p.partNumber * partSize) totalSize := by
  obtain ⟨⟨h1, hn⟩, hsize⟩ := (checkPartGeometry_ok_iff ..).mp h
  obtain ⟨k, hk⟩ := Nat.exists_eq_add_of_le' h1
  have hend := hg.expectedLength (k := k) (by omega)
  have hstart := hg.needed k (by omega)
  have hpos := hg.pos
  rw [Nat.succ_mul] at hend
  unfold ListedPart.range Range.stop
  simp only [hsize, hk, Nat.add_sub_cancel, Nat.succ_mul]
  omega

lemma rangesFromParts_spec
    : Apart 0 (rangesFromParts parts partSize totalParts totalSize) ∧
      ∀ i, Covers (rangesFromParts parts partSize totalParts totalSize) i ↔ ∃ p ∈ parts,
        checkPartGeometry p.partNumber p.size totalParts partSize totalSize = .ok () ∧
          (p.range partSize).Has i := by
  set rs := (parts.filter fun p =>
    (checkPartGeometry p.partNumber p.size totalParts partSize totalSize).isOk).map
      (ListedPart.range partSize) with hrs
  have hok : ∀ x : Except String Unit, x.isOk = true ↔ x = .ok () := by
    intro x
    cases x <;> simp [Except.isOk, Except.toBool]
  have hmem : ∀ r, r ∈ sortByOffset rs ↔ ∃ p ∈ parts,
      checkPartGeometry p.partNumber p.size totalParts partSize totalSize = .ok () ∧
        p.range partSize = r := by
    intro r
    rw [sortByOffset, (List.perm_insertionSort ..).mem_iff, hrs]
    simp [and_assoc, hok]
  have hsorted : (sortByOffset rs).Pairwise fun r r' => r.offset ≤ r'.offset :=
    List.pairwise_insertionSort _ _
  have hspec := merge_spec (c := 0) (fun r hr => ?_) hsorted
  · refine ⟨hspec.1, fun i => (hspec.2 i).trans ?_⟩
    constructor
    · rintro ⟨r, hr, hi⟩
      obtain ⟨p, hp, hcheck, rfl⟩ := (hmem r).mp hr
      exact ⟨p, hp, hcheck, hi⟩
    · rintro ⟨p, hp, hcheck, hi⟩
      exact ⟨_, (hmem _).mpr ⟨p, hp, hcheck, rfl⟩, hi⟩
  · obtain ⟨p, -, hp, rfl⟩ := (hmem r).mp hr
    exact ⟨Nat.zero_le _, (hg.range_eq hp).1⟩

lemma Geometry.part_lt (hi : i < totalSize) : i / partSize < totalParts :=
  (Nat.div_lt_iff_lt_mul hg.pos).mpr (hi.trans_le hg.enough)

lemma Geometry.lt_of_received
    (hi : Covers (rangesFromParts parts partSize totalParts totalSize) i) : i < totalSize := by
  obtain ⟨p, -, hp, hhas⟩ := ((rangesFromParts_spec hg).2 i).mp hi
  have hstop := hhas.2
  rw [(hg.range_eq hp).2] at hstop
  omega

lemma Geometry.received_start {k : ℕ}
    (h : Covers (rangesFromParts parts partSize totalParts totalSize) (k * partSize)) :
    ∃ p ∈ parts, p.partNumber = k + 1 ∧
      p.size = Uploads.expectedLength (k + 1) totalParts partSize totalSize := by
  obtain ⟨p, hmem, hp, hhas⟩ := ((rangesFromParts_spec hg).2 _).mp h
  obtain ⟨hstart, hstop⟩ := hhas
  rw [(hg.range_eq hp).2] at hstop
  obtain ⟨⟨h1, -⟩, hsize⟩ := (checkPartGeometry_ok_iff ..).mp hp
  have hle := Nat.le_of_mul_le_mul_right hstart hg.pos
  have hlt := Nat.lt_of_mul_lt_mul_right (lt_min_iff.mp hstop).1
  obtain rfl : k = p.partNumber - 1 := by omega
  rw [Nat.sub_add_cancel h1]
  exact ⟨p, hmem, rfl, hsize⟩

lemma Geometry.received_part (hi : i < totalSize) (hp : p ∈ parts)
    (hnumber : p.partNumber = i / partSize + 1)
    (hsize : p.size = Uploads.expectedLength p.partNumber totalParts partSize totalSize) :
    Covers (rangesFromParts parts partSize totalParts totalSize) i := by
  have hok : checkPartGeometry p.partNumber p.size totalParts partSize totalSize = .ok () := by
    refine (checkPartGeometry_ok_iff ..).mpr ⟨?_, hsize⟩
    rw [hnumber]
    exact ⟨Nat.succ_pos _, hg.part_lt hi⟩
  refine ((rangesFromParts_spec hg).2 i).mpr ⟨p, hp, hok, ?_, ?_⟩
  · rw [ListedPart.range, hnumber, Nat.add_sub_cancel]
    exact Nat.div_mul_le_self i partSize
  · rw [(hg.range_eq hok).2, hnumber, lt_min_iff]
    exact ⟨Nat.lt_mul_of_div_lt (Nat.lt_succ_self _) hg.pos, hi⟩

end Received

/-- **What a client is told to resume is exact.** Whatever parts the storage lists, the received
ranges are apart from each other and cover just what the parts of the right length cover. The
missing ranges cover the rest of the upload, and there are none just when every part is there. -/
theorem resume_ranges_exact (totalSize partSize totalParts : ℕ)
    (hg : Geometry totalSize partSize totalParts) (parts : List ListedPart)
    (received missing : List Range)
    (hreceived : received = rangesFromParts parts partSize totalParts totalSize)
    (hmissing : missing = missingComplement received totalSize) : Apart 0 received ∧
      (∀ i, Covers received i ↔ ∃ p ∈ parts,
        checkPartGeometry p.partNumber p.size totalParts partSize totalSize = .ok () ∧
          (p.range partSize).Has i) ∧
      Chain 0 missing ∧ (∀ i, Covers missing i ↔ i < totalSize ∧ ¬ Covers received i) ∧
      (missing = [] ↔ ∀ k, 1 ≤ k → k ≤ totalParts → ∃ p ∈ parts, p.partNumber = k ∧
        p.size = expectedLength k totalParts partSize totalSize) := by
  subst hmissing hreceived
  obtain ⟨hapart, hcovers⟩ := rangesFromParts_spec hg
  have hin : ∀ r ∈ rangesFromParts parts partSize totalParts totalSize, r.stop ≤ totalSize :=
    fun r hr => hapart.chain.stop_le (fun i hi => hg.lt_of_received hi) hr
  refine ⟨hapart, hcovers, chain_gaps hapart.chain hin, fun i => ?_, ?_⟩
  · rw [missingComplement, covers_gaps hapart.chain hin]
    exact and_iff_right (Nat.zero_le i)
  · rw [missingComplement, gaps_eq_nil hapart.chain hin]
    constructor
    · intro hall k h1 hk
      obtain ⟨k, rfl⟩ := Nat.exists_eq_add_of_le' h1
      exact hg.received_start (hall _ (Nat.zero_le _) (hg.needed k hk))
    · intro hall i _ hi
      obtain ⟨p, hp, hnumber, hsize⟩ := hall (i / partSize + 1) (Nat.succ_pos _) (hg.part_lt hi)
      exact hg.received_part hi hp hnumber (by rw [hnumber, hsize])

/-- Parts of an upload of 25 bytes: out of order, one of them twice, one with a wrong length and one
that does not exist. -/
def sampleParts : List ListedPart := [⟨3, 5⟩, ⟨1, 10⟩, ⟨2, 9⟩, ⟨1, 10⟩, ⟨4, 10⟩]

theorem resume_ranges_exact_sample : rangesFromParts sampleParts 10 3 25 = [⟨0, 10⟩, ⟨20, 5⟩] ∧
      Chain 0 (missingComplement (rangesFromParts sampleParts 10 3 25) 25) := by
  have hg : Geometry 25 10 3 := ⟨by omega, by omega, by omega⟩
  exact ⟨by decide, (resume_ranges_exact 25 10 3 hg sampleParts _ _ rfl rfl).2.2.1⟩

end PrivChat.Uploads
