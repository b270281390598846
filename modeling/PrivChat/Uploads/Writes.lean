import PrivChat.Uploads.Parts

/-!
What the directory of a session says about the parts received, and what a request to write a part
does to them.

Parts are received when they have their name. Their ranges lie on the grid, within the upload
and apart from each other, and the scan of the directory finds just them; files with other names
do not matter. Wherever a request crashes and whatever the system refuses, it adds its own part or
nothing, and never touches another one.
-/

namespace PrivChat.Uploads

open Db Tasks Ranges Text

lemma dash_notMem_decimal {n : ℕ} : '-' ∉ decimal n := fun h =>
  absurd (isDigit_of_mem_decimal h) (by decide)

lemma rangeOfName_partName {r : Range} (ho : r.offset < 2 ^ 64) (hl : r.length < 2 ^ 64) :
    rangeOfName (partName r) = some r := by
  unfold rangeOfName partName
  rw [stripSuffix_append]
  simp [stem, splitOnce_append dash_notMem_decimal, parseU64_decimal ho, parseU64_decimal hl]

lemma not_suffix_tmpName (r : Range) : ¬ partEnding <:+ tmpName r := by
  rintro ⟨front, h⟩
  have hpart : (front ++ partEnding).getLast? = some 't' := by simp [partEnding]
  have htmp : tmpName r = ('.' :: stem r ++ ['.', 't', 'm']) ++ ['p'] := by
    simp [tmpName, tmpEnding]
  rw [h, htmp, List.getLast?_concat] at hpart
  exact absurd hpart (by decide)

lemma rangeOfName_tmpName (r : Range) : rangeOfName (tmpName r) = none := by
  simp [rangeOfName, stripSuffix_eq_none (not_suffix_tmpName r)]

lemma partName_ne_tmpName (r r' : Range) : partName r ≠ tmpName r' := fun h =>
  not_suffix_tmpName r' (h ▸ List.suffix_append _ _)

lemma decimal_injective : Function.Injective decimal := by
  intro m n h
  calc m = Nat.ofDigitChars 10 (decimal m) 0 :=
        (Nat.ofDigitChars_toDigits (by decide) (by decide)).symm
    _ = Nat.ofDigitChars 10 (decimal n) 0 := by rw [h]
    _ = n := Nat.ofDigitChars_toDigits (by decide) (by decide)

lemma partName_injective : Function.Injective partName := by
  intro r r' h
  have hstem : stem r = stem r' := List.append_cancel_right h
  have hsplit := congrArg (splitOnce '-') hstem
  rw [stem, stem, splitOnce_append dash_notMem_decimal,
    splitOnce_append dash_notMem_decimal] at hsplit
  have hpair := Prod.mk.inj (Option.some.inj hsplit)
  have ho := decimal_injective hpair.1
  have hl := decimal_injective hpair.2
  cases r
  simp only at ho hl
  rw [ho, hl]

structure Part where
  offset : ℕ
  bytes : Bytes

def Part.range (p : Part) : Range := ⟨p.offset, p.bytes.length⟩

/-- The part is on the disk under its name. -/
def Accepted (d : Disk) (p : Part) : Prop := d.file (partName p.range) = some p.bytes

/-- The range has something in it, is within the upload, and starts and ends on the grid, but
for the end of the upload. -/
structure Fits (total : ℕ) (r : Range) : Prop where
  nonempty : 0 < r.length
  inside : r.stop ≤ total
  starts : r.offset % baseUnit = 0
  ends : r.stop = total ∨ r.length % baseUnit = 0

/-- The directory is there, a file that has the name of a part is one, and no two parts have a
byte of the upload in common. -/
structure Sound (total : ℕ) (d : Disk) : Prop where
  dir : d.parts.isSome
  named : ∀ n b, d.file n = some b → (∃ r, n = tmpName r) ∨
    ∃ p : Part, n = partName p.range ∧ b = p.bytes ∧ Fits total p.range
  disjoint : ∀ p p', Accepted d p → Accepted d p' → p ≠ p' → p.range.Disjoint p'.range

lemma sound_new {total : ℕ} : Sound total .new where
  dir := rfl
  named n b h := by cases h
  disjoint p p' h := by cases h

lemma Sound.fits {total : ℕ} {d : Disk} {p : Part} (h : Sound total d) (hp : Accepted d p) :
    Fits total p.range := by
  rcases h.named _ _ hp with ⟨r, hr⟩ | ⟨p', hname, -, hfits⟩
  · exact absurd hr (partName_ne_tmpName _ _)
  · rw [partName_injective hname]
    exact hfits

lemma accepted_congr {d d' : Disk} (h : ∀ r, d'.file (partName r) = d.file (partName r))
    (p : Part) : Accepted d' p ↔ Accepted d p := by
  unfold Accepted
  rw [h]

/-! ### What a scan finds -/

/-- The ranges that a scan of the directory finds. -/
def scanned (d : Disk) : List Range :=
  match d.parts with
  | none => []
  | some t => sortByOffset (t.keyList.filterMap rangeOfName)

section Scan

variable {total : ℕ} {d : Disk}

lemma file_eq {t : Table Name Bytes} (ht : d.parts = some t) (n : Name) : d.file n = t.get n := by
  simp [Disk.file, ht]

variable {r : Range}

lemma mem_scanned_iff_name : r ∈ scanned d ↔ ∃ n b, d.file n = some b ∧ rangeOfName n = some r := by
  cases ht : d.parts with
  | none => simp [scanned, Disk.file, ht]
  | some t =>
    simp only [scanned, ht, sortByOffset, (List.perm_insertionSort _ _).mem_iff,
      List.mem_filterMap, Table.mem_keyList, file_eq ht, Option.isSome_iff_exists]
    constructor
    · rintro ⟨n, ⟨b, hb⟩, hn⟩
      exact ⟨n, b, hb, hn⟩
    · rintro ⟨n, b, hb, hn⟩
      exact ⟨n, ⟨b, hb⟩, hn⟩

variable (htotal : total < 2 ^ 64) (h : Sound total d)

include htotal h

lemma rangeOfName_accepted {p : Part} (hp : Accepted d p) :
    rangeOfName (partName p.range) = some p.range := by
  have hin := (h.fits hp).inside
  unfold Range.stop at hin
  exact rangeOfName_partName (by omega) (by omega)

lemma accepted_of_name {n : Name} {b : Bytes} (hb : d.file n = some b)
    (hn : rangeOfName n = some r) :
    ∃ p : Part, Accepted d p ∧ n = partName p.range ∧ p.range = r := by
  rcases h.named n b hb with ⟨r', rfl⟩ | ⟨p, rfl, rfl, hfits⟩
  · rw [rangeOfName_tmpName] at hn
    cases hn
  · rw [rangeOfName_accepted htotal h hb] at hn
    exact ⟨p, hb, rfl, Option.some.inj hn⟩

lemma mem_scanned : r ∈ scanned d ↔ ∃ p, Accepted d p ∧ p.range = r := by
  rw [mem_scanned_iff_name]
  constructor
  · rintro ⟨n, b, hb, hn⟩
    obtain ⟨p, hp, -, hr⟩ := accepted_of_name htotal h hb hn
    exact ⟨p, hp, hr⟩
  · rintro ⟨p, hp, rfl⟩
    exact ⟨partName p.range, p.bytes, hp, rangeOfName_accepted htotal h hp⟩

lemma nodup_scanned : (scanned d).Nodup := by
  cases ht : d.parts with
  | none => simp [scanned, ht]
  | some t =>
    simp only [scanned, ht, sortByOffset]
    rw [(List.perm_insertionSort _ _).nodup_iff, List.Nodup, List.pairwise_filterMap]
    refine t.nodup_keyList.pairwise_of_forall_ne fun n hn n' hn' hne r hr r' hr' he => hne ?_
    obtain ⟨b, hb⟩ := Option.isSome_iff_exists.mp (Table.mem_keyList.mp hn)
    obtain ⟨b', hb'⟩ := Option.isSome_iff_exists.mp (Table.mem_keyList.mp hn')
    rw [← file_eq ht] at hb hb'
    obtain ⟨p, -, rfl, rfl⟩ := accepted_of_name htotal h hb hr
    obtain ⟨p', -, rfl, rfl⟩ := accepted_of_name htotal h hb' hr'
    rw [he]

lemma chain_scanned : Chain 0 (scanned d) := by
  have hfits : ∀ r ∈ scanned d, Fits total r := by
    intro r hr
    obtain ⟨p, hp, rfl⟩ := (mem_scanned htotal h).mp hr
    exact h.fits hp
  have hsorted : (scanned d).Pairwise fun r r' => r.offset ≤ r'.offset := by
    unfold scanned
    split
    · exact List.Pairwise.nil
    · exact List.pairwise_insertionSort _ _
  have hdisj : (scanned d).Pairwise Range.Disjoint := by
    refine (nodup_scanned htotal h).pairwise_of_forall_ne fun r hr r' hr' hne => ?_
    obtain ⟨p, hp, rfl⟩ := (mem_scanned htotal h).mp hr
    obtain ⟨p', hp', rfl⟩ := (mem_scanned htotal h).mp hr'
    exact h.disjoint p p' hp hp' fun he => hne (by rw [he])
  exact chain_of_sorted (fun _ _ => Nat.zero_le _) (fun r hr => (hfits r hr).nonempty) hsorted hdisj

lemma stop_le_of_mem_scanned (hr : r ∈ scanned d) : r.stop ≤ total := by
  obtain ⟨p, hp, rfl⟩ := (mem_scanned htotal h).mp hr
  exact (h.fits hp).inside

lemma covers_scanned {i : ℕ} : Covers (scanned d) i ↔ ∃ p, Accepted d p ∧ p.range.Has i := by
  constructor
  · rintro ⟨r, hr, hi⟩
    obtain ⟨p, hp, rfl⟩ := (mem_scanned htotal h).mp hr
    exact ⟨p, hp, hi⟩
  · rintro ⟨p, hp, hi⟩
    exact ⟨p.range, (mem_scanned htotal h).mpr ⟨p, hp, rfl⟩, hi⟩

end Scan

variable {ε : Type} {P : Op → Outcome → Disk → Prop} {I : Disk → Prop}

lemma perform_error {a : Act} {d d' : Disk} {e : IoError} (h : a.perform d = (.error e, d')) :
    d' = d := by
  cases a <;> simp only [Act.perform] at h
  case createNew n =>
    split at h
    · cases h; rfl
    · split at h <;> cases h
      rfl
  case rename n n' => split at h <;> cases h; rfl
  case remove n => split at h <;> cases h; rfl
  case removeBody => split at h <;> cases h; rfl
  all_goals cases h

variable {d : Disk} {wrap : IoError → ε} {a : Act}

/-- An operation on files is done, or it fails and leaves what it leaves when it is refused. -/
lemma gives_act {F : Unit → Disk → Prop}
    (hok : ∀ d', I d → a.perform d = (.ok (), d') → I d' ∧ F () d')
    (hleft : ∀ w, I d → I (a.leftBy d w)) : Gives exec P I F (act wrap a) d := by
  refine fun hI => ⟨hI, fun o _ => ?_⟩
  cases o with
  | refused e w => exact ⟨hleft w hI, nofun⟩
  | done =>
    change Throughout exec P I _ (orFail wrap (a.perform d).1) (a.perform d).2
    cases hp : a.perform d with
    | mk r d' =>
      cases r with
      | ok u => exact gives_ret (hok d' hI hp).2 (hok d' hI hp).1
      | error e =>
        rw [perform_error hp]
        exact gives_fail hI

lemma gives_quietly (hok : ∀ d', I d → a.perform d = (.ok (), d') → I d')
    (hleft : ∀ w, I d → I (a.leftBy d w)) :
    Gives exec P I (fun _ _ => True) (quietly a : Code ε Unit) d := by
  refine fun hI => ⟨hI, fun o _ => ?_⟩
  cases o with
  | refused e w => exact ⟨hleft w hI, fun _ _ => trivial⟩
  | done =>
    refine ⟨?_, fun _ _ => trivial⟩
    change I (a.perform d).2
    cases hp : a.perform d with
    | mk r d' =>
      cases r with
      | ok u => exact hok d' hI hp
      | error e => rwa [perform_error hp]

lemma gives_readFile {n : Name} :
    Gives exec P I (fun b d' => d' = d ∧ d.file n = some b) (readFile wrap n) d := by
  refine fun hI => ⟨hI, fun o _ => ?_⟩
  cases o with
  | refused e w => exact gives_fail hI
  | done =>
    change Throughout exec P I _ (orFail wrap (d.read n)) d
    unfold Disk.read
    cases hb : d.file n with
    | none => exact gives_fail hI
    | some b => exact gives_ret ⟨rfl, rfl⟩ hI

lemma partsOfNames_names (io : Channels.ServerError → ε) (d : Disk) :
    partsOfNames io d.names = .ret (scanned d) := by
  unfold Disk.names scanned
  cases d.parts <;> rfl

lemma gives_scanParts {io : Channels.ServerError → ε} :
    Gives exec P I (fun rs d' => d' = d ∧ rs = scanned d) (scanParts io) d := by
  refine fun hI => ⟨hI, fun o _ => ?_⟩
  cases o with
  | refused e w => exact gives_fail hI
  | done =>
    change Throughout exec P I _ (partsOfNames io d.names) d
    rw [partsOfNames_names]
    exact gives_ret ⟨rfl, rfl⟩ hI

section Temporary

variable {total : ℕ} {d : Disk} {r : Range} {f : Table Name Bytes → Table Name Bytes}

lemma file_modifyParts (d : Disk) (f : Table Name Bytes → Table Name Bytes) (n : Name) :
    (d.modifyParts f).file n = d.parts.bind fun t => (f t).get n := by
  cases hd : d.parts <;> simp [Disk.modifyParts, Disk.file, hd]

/-- A change to the file with a temporary name. -/
def OnlyTmp (r : Range) (f : Table Name Bytes → Table Name Bytes) : Prop :=
  ∀ t n, n ≠ tmpName r → (f t).get n = t.get n

lemma onlyTmp_put (r : Range) (b : Bytes) : OnlyTmp r (·.put (tmpName r) b) :=
  fun t _ hn => t.get_put_of_ne hn

lemma onlyTmp_modify {g : Bytes → Bytes} : OnlyTmp r (·.modify (tmpName r) g) :=
  fun t _ hn => t.get_modify_of_ne hn

lemma OnlyTmp.file_eq (hf : OnlyTmp r f) {n : Name} (hn : n ≠ tmpName r) :
    (d.modifyParts f).file n = d.file n := by
  rw [file_modifyParts, Disk.file]
  cases d.parts with
  | none => rfl
  | some t => exact hf t n hn

lemma OnlyTmp.accepted (hf : OnlyTmp r f) {p : Part} :
    Accepted (d.modifyParts f) p ↔ Accepted d p :=
  accepted_congr (fun r' => hf.file_eq (partName_ne_tmpName r' r)) p

lemma OnlyTmp.sound (hf : OnlyTmp r f) (h : Sound total d) : Sound total (d.modifyParts f) where
  dir := by simpa [Disk.modifyParts] using h.dir
  named n b hb := by
    by_cases hn : n = tmpName r
    · exact Or.inl ⟨r, hn⟩
    · rw [hf.file_eq hn] at hb
      exact h.named n b hb
  disjoint p p' hp hp' := h.disjoint p p' (hf.accepted.mp hp) (hf.accepted.mp hp')

end Temporary

section Rename

variable {total : ℕ} {d : Disk} {p : Part}

/-- The disk after the file with the temporary name of the part has been renamed. -/
def Disk.renamed (d : Disk) (p : Part) : Disk :=
  d.modifyParts fun t => (t.erase (tmpName p.range)).put (partName p.range) p.bytes

lemma file_renamed_of_ne {n : Name} (hn : n ≠ partName p.range) (hn' : n ≠ tmpName p.range) :
    (d.renamed p).file n = d.file n := by
  rw [Disk.renamed, file_modifyParts, Disk.file]
  cases d.parts with
  | none => rfl
  | some t => simp [hn, hn']

lemma file_renamed_self (h : Sound total d) : (d.renamed p).file (partName p.range) = some p.bytes
    := by
  obtain ⟨t, ht⟩ := Option.isSome_iff_exists.mp h.dir
  rw [Disk.renamed, file_modifyParts, ht]
  simp

lemma accepted_renamed (h : Sound total d) (hnew : ∀ q, Accepted d q → q.range.Disjoint p.range)
    (hpos : 0 < p.range.length) {q : Part} : Accepted (d.renamed p) q ↔ Accepted d q ∨ q = p := by
  by_cases hr : q.range = p.range
  · have hnot : ¬ Accepted d q := by
      intro hq
      have hd := hnew q hq
      rw [hr] at hd
      unfold Range.Disjoint Range.stop at hd
      omega
    have hoff : q.offset = p.offset := congrArg Range.offset hr
    unfold Accepted at hnot ⊢
    rw [hr, file_renamed_self h, Option.some.injEq]
    rw [hr] at hnot
    constructor
    · intro hb
      cases p
      cases q
      simp only at hoff hb
      exact Or.inr (by rw [hoff, hb])
    · rintro (hq | rfl)
      · exact absurd hq hnot
      · rfl
  · have hne : partName q.range ≠ partName p.range := fun he => hr (partName_injective he)
    unfold Accepted
    rw [file_renamed_of_ne hne (partName_ne_tmpName _ _)]
    constructor
    · exact Or.inl
    · rintro (hq | rfl)
      · exact hq
      · exact absurd rfl hr

lemma sound_renamed (h : Sound total d) (hnew : ∀ q, Accepted d q → q.range.Disjoint p.range)
    (hfits : Fits total p.range) : Sound total (d.renamed p) where
  dir := by simpa [Disk.renamed, Disk.modifyParts] using h.dir
  named n b hb := by
    by_cases hn : n = partName p.range
    · rw [hn, file_renamed_self h] at hb
      exact Or.inr ⟨p, hn, (Option.some.inj hb).symm, hfits⟩
    · by_cases hn' : n = tmpName p.range
      · exact Or.inl ⟨_, hn'⟩
      · rw [file_renamed_of_ne hn hn'] at hb
        exact h.named n b hb
  disjoint q q' hq hq' hne := by
    rw [accepted_renamed h hnew hfits.nonempty] at hq hq'
    rcases hq with hq | rfl <;> rcases hq' with hq' | rfl
    · exact h.disjoint q q' hq hq' hne
    · exact hnew q hq
    · exact (hnew q' hq').symm
    · exact absurd rfl hne

end Rename

/-! ### One request -/

/-- From `d` on, nothing has been lost, and nothing has come but perhaps the part `p`. -/
structure Grown (total : ℕ) (d : Disk) (p : Part) (d' : Disk) : Prop where
  sound : Sound total d'
  kept : ∀ q, Accepted d q → Accepted d' q
  only : ∀ q, Accepted d' q → Accepted d q ∨ q = p

section Request

variable {total : ℕ} {d : Disk} {p : Part}

lemma Grown.refl (h : Sound total d) : Grown total d p d :=
    ⟨h, fun _ hq => hq, fun _ hq => Or.inl hq⟩

variable {wrap : IoError → ε} {d' : Disk} {b : Bytes} {f : Table Name Bytes → Table Name Bytes}

lemma Grown.tmp {r : Range}
    (h : Grown total d p d') (hf : OnlyTmp r f) : Grown total d p (d'.modifyParts f) where
  sound := hf.sound h.sound
  kept q hq := hf.accepted.mpr (h.kept q hq)
  only q hq := h.only q (hf.accepted.mp hq)

/-- Before the rename: nothing has come yet, and the temporary file has these bytes. -/
structure Prepared (total : ℕ) (d : Disk) (p : Part) (b : Bytes) (d' : Disk) : Prop where
  grown : Grown total d p d'
  same : ∀ q, Accepted d' q → Accepted d q
  content : d'.file (tmpName p.range) = some b

lemma Prepared.tmp {b' : Bytes} (h : Prepared total d p b d') (hf : OnlyTmp p.range f)
    (hb : (d'.modifyParts f).file (tmpName p.range) = some b') :
    Prepared total d p b' (d'.modifyParts f) where
  grown := h.grown.tmp hf
  same q hq := h.same q (hf.accepted.mp hq)
  content := hb

lemma gives_createNew (h : Sound total d) :
    Gives exec P (Grown total d p) (fun _ => Prepared total d p [])
      (act wrap (.createNew (tmpName p.range))) d := by
  have hf := onlyTmp_put p.range []
  refine gives_act (fun d' hg hd' => ?_) fun _ => id
  obtain ⟨t, ht⟩ := Option.isSome_iff_exists.mp h.dir
  simp only [Act.perform, ht] at hd'
  split at hd'
  · cases hd'
  · cases hd'
    refine ⟨hg.tmp hf, hg.tmp hf, fun q hq => hf.accepted.mp hq, ?_⟩
    simp [file_modifyParts, ht]

lemma gives_writeAll (h : Prepared total d p [] d') :
    Gives exec P (Grown total d p) (fun _ => Prepared total d p b)
      (act wrap (.writeAll (tmpName p.range) b)) d' := by
  refine gives_act (fun d'' hg hd'' => ?_) fun w hg => hg.tmp onlyTmp_modify
  cases hd''
  refine ⟨hg.tmp onlyTmp_modify, h.tmp onlyTmp_modify ?_⟩
  have hb := h.content
  rw [Disk.file] at hb
  rw [file_modifyParts]
  cases ht : d'.parts with
  | none =>
    rw [ht] at hb
    cases hb
  | some t =>
    rw [ht] at hb
    simp only [Option.bind_some] at hb
    simp [hb]

lemma gives_rename (h : Prepared total d p p.bytes d')
    (hnew : ∀ q, Accepted d q → q.range.Disjoint p.range) (hfits : Fits total p.range) :
    Gives exec P (Grown total d p) (fun _ d'' => Accepted d'' p)
      (act wrap (.rename (tmpName p.range) (partName p.range))) d' := by
  have hnew' : ∀ q, Accepted d' q → q.range.Disjoint p.range := fun q hq => hnew q (h.same q hq)
  refine gives_act (fun d'' hg hd'' => ?_) fun _ => id
  simp only [Act.perform, h.content] at hd''
  cases hd''
  have hiff := fun q => accepted_renamed (q := q) hg.sound hnew' hfits.nonempty
  refine ⟨⟨sound_renamed hg.sound hnew' hfits, ?_, ?_⟩, (hiff p).mpr (Or.inr rfl)⟩
  · exact fun q hq => (hiff q).mpr (Or.inl (hg.kept q hq))
  · intro q hq
    rcases (hiff q).mp hq with hq | hq
    · exact Or.inl (h.same q hq)
    · exact Or.inr hq

lemma gives_sync {T : Disk → Prop} (hT : T d) (ha : a.perform d = (.ok (), d))
    (hw : ∀ w, a.leftBy d w = d) : Gives exec P I (fun _ => T) (act wrap a) d := by
  refine gives_act (fun d' hI hd' => ?_) fun w hI => by rwa [hw w]
  rw [ha] at hd'
  cases hd'
  exact ⟨hI, hT⟩

lemma gives_store (h : Sound total d) (hnew : ∀ q, Accepted d q → q.range.Disjoint p.range)
    (hfits : Fits total p.range) :
    Gives exec P (Grown total d p) (fun y d' => y = .written ∧ Accepted d' p)
      (store p.range p.bytes) d := by
  have hsteps : Gives exec P (Grown total d p) (fun _ d' => Accepted d' p)
      (storeSteps p.range p.bytes) d := by
    refine (gives_createNew h).bind fun _ _ h1 => (gives_writeAll h1).bind fun _ _ h2 => ?_
    refine (gives_sync h2 rfl fun _ => rfl).bind fun _ _ h3 => ?_
    refine (gives_rename h3 hnew hfits).bind fun _ _ h4 => ?_
    exact gives_sync h4 rfl fun _ => rfl
  refine hsteps.attempt.bind fun x d' hx => ?_
  cases x with
  | ok u => exact gives_ret ⟨rfl, hx u rfl⟩
  | error e =>
    refine (gives_quietly (fun d'' hg hd'' => ?_) fun _ => id).bind fun _ _ _ => gives_fail
    simp only [Act.perform] at hd''
    split at hd''
    · cases hd''
    · cases hd''
      exact hg.tmp (fun t _ hn => t.get_erase_of_ne hn)

variable {sha256Hex : Bytes → String}

lemma checkPart_ok {declared : String}
    (h : checkPart sha256Hex total p.offset p.bytes declared = .ok ()) : Fits total p.range := by
  unfold checkPart at h
  simp only at h
  split at h
  · cases h
  split at h
  · cases h
  split at h
  · cases h
  split at h
  · cases h
  rename_i hne hover hin hgrid
  have hstop : p.range.stop = p.offset + p.bytes.length := rfl
  refine ⟨?_, ?_, ?_, ?_⟩
  · exact Nat.pos_of_ne_zero hne
  · omega
  · change p.offset % baseUnit = 0
    omega
  · change p.range.stop = total ∨ p.bytes.length % baseUnit = 0
    omega

/-- The parts known so far are compared with the new one in turn: the new part is not stored
unless it is apart from all of them. -/
lemma gives_compareParts {ps : List Range} :
    Gives exec P I (fun known d' => d' = d ∧ (known = none → ∀ q ∈ ps, q.Disjoint p.range) ∧
        (∀ y, known = some y → y = .alreadyPresent ∧ ∃ b, d.file (partName p.range) = some b ∧
          sha256Hex b = sha256Hex p.bytes)) (compareParts sha256Hex p.range p.bytes ps) d := by
  induction ps with
  | nil => exact gives_ret ⟨rfl, fun _ q hq => (by cases hq), nofun⟩
  | cons q ps ih =>
    unfold compareParts
    split
    · refine gives_readFile.bind ?_
      rintro b _ ⟨rfl, hb⟩
      unfold compareContent
      split
      · rename_i hsame
        refine gives_ret ⟨rfl, nofun, ?_⟩
        rintro y ⟨⟩
        exact ⟨rfl, b, hb, hsame⟩
      · exact gives_fail
    · split
      · exact gives_fail
      · rename_i hapart
        refine ih.mono ?_
        rintro known d' ⟨rfl, hnone, hsome⟩
        refine ⟨rfl, fun hk q' hq' => ?_, hsome⟩
        rcases List.mem_cons.mp hq' with rfl | hq'
        · unfold Range.Disjoint
          omega
        · exact hnone hk q' hq'

/-- What an answer to the request says about the disk. -/
def Told (sha256Hex : Bytes → String) (p : Part) (d : Disk) : Except ChunkError PartOutcome → Prop
  | .ok .written => Accepted d p
  | .ok .alreadyPresent =>
    ∃ q, Accepted d q ∧ q.range = p.range ∧ sha256Hex q.bytes = sha256Hex p.bytes
  | .error _ => True

/-- **A request to write a part adds that part or nothing, wherever it stops, and what it answers
is so.** -/
theorem gives_writePart (htotal : total < 2 ^ 64) (h : Sound total d) {declared : String} :
    Gives exec P (Grown total d p) (fun y d' => Told sha256Hex p d' (.ok y))
      (writePart sha256Hex total p.offset p.bytes declared) d := by
  unfold writePart
  cases hcheck : checkPart sha256Hex total p.offset p.bytes declared with
  | error e => exact gives_fail
  | ok u =>
    have hfits : Fits total p.range := checkPart_ok hcheck
    refine gives_scanParts.bind ?_
    rintro _ _ ⟨rfl, rfl⟩
    refine gives_compareParts.bind ?_
    rintro known _ ⟨rfl, hnone, hsome⟩
    cases known with
    | some y =>
      obtain ⟨rfl, b, hb, hsha⟩ := hsome y rfl
      refine gives_ret ?_
      -- the file of that range is a part, so its content has the length of the range
      rcases h.named _ _ hb with ⟨r, hr⟩ | ⟨q, hq, rfl, -⟩
      · exact absurd hr (partName_ne_tmpName _ _)
      · have hrange : q.range = p.range := (partName_injective hq).symm
        exact ⟨q, by rw [Accepted, hrange]; exact hb, hrange, hsha⟩
    | none =>
      refine (gives_store h (fun q hq => ?_) hfits).mono ?_
      · exact hnone rfl _ ((mem_scanned htotal h).mpr ⟨q, hq, rfl⟩)
      · rintro _ d' ⟨rfl, hp⟩
        exact hp

end Request

end PrivChat.Uploads
