import Mathlib

/-!
Numbers in texts: decimal digits, and how a text is taken apart to get them back.
-/

namespace PrivChat.Text

/-- The decimal digits, without leading zeros. -/
def decimal (n : ℕ) : List Char := Nat.toDigits 10 n

/-- A text that is an unsigned number of 64 bits: digits, perhaps after a plus sign. -/
def parseU64 (cs : List Char) : Option ℕ :=
  let digits := match cs with
    | '+' :: ds => ds
    | ds => ds
  if digits.isEmpty || !digits.all Char.isDigit then none
  else (some (Nat.ofDigitChars 10 digits 0)).filter (· < 2 ^ 64)

lemma isDigit_of_mem_decimal {n : ℕ} {c : Char} (h : c ∈ decimal n) : c.isDigit = true :=
  Nat.isDigit_of_mem_toDigits (by decide) (by decide) h

lemma parseU64_decimal {n : ℕ} (h : n < 2 ^ 64) : parseU64 (decimal n) = some n := by
  have hne : decimal n ≠ [] := Nat.toDigits_ne_nil
  have hall : (decimal n).all Char.isDigit = true :=
    List.all_eq_true.mpr fun c hc => isDigit_of_mem_decimal hc
  have hplus : ∀ ds, decimal n ≠ '+' :: ds := by
    intro ds he
    have hd : '+'.isDigit = true := isDigit_of_mem_decimal (by rw [he]; exact List.mem_cons_self)
    exact absurd hd (by decide)
  have hvalue : Nat.ofDigitChars 10 (decimal n) 0 = n :=
    Nat.ofDigitChars_toDigits (by decide) (by decide)
  unfold parseU64
  split
  next digits _ => exact absurd ‹_› (hplus _)
  next =>
    rw [if_neg (by simp [hne, hall]), hvalue]
    exact Option.filter_eq_some_iff.mpr ⟨rfl, decide_eq_true h⟩

/-- The text before the first `c`, and the text after it. -/
def splitOnce (c : Char) (cs : List Char) : Option (List Char × List Char) :=
  match cs.span (· != c) with
  | (before, _ :: after) => some (before, after)
  | (_, []) => none

lemma splitOnce_append {c : Char} {before : List Char} (h : c ∉ before) (after : List Char) :
    splitOnce c (before ++ c :: after) = some (before, after) := by
  have hp : ∀ x ∈ before, (x != c) = true := by
    intro x hx
    simp only [bne_iff_ne, ne_eq]
    rintro rfl
    exact h hx
  simp [splitOnce, List.span_eq_takeWhile_dropWhile, List.takeWhile_append_of_pos hp,
    List.dropWhile_append_of_pos hp]

/-- The text without the ending. -/
def stripSuffix (ending cs : List Char) : Option (List Char) :=
  if ending.isSuffixOf cs then some (cs.take (cs.length - ending.length)) else none

lemma stripSuffix_append (ending cs : List Char) : stripSuffix ending (cs ++ ending) = some cs := by
  have hs : ending.isSuffixOf (cs ++ ending) = true :=
    List.isSuffixOf_iff_suffix.mpr (List.suffix_append cs ending)
  simp [stripSuffix, hs]

lemma stripSuffix_eq_none {ending cs : List Char} (h : ¬ ending <:+ cs) :
    stripSuffix ending cs = none := by
  simp [stripSuffix, List.isSuffixOf_iff_suffix, h]

end PrivChat.Text
