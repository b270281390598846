import PrivChat.Uploads.Writes

/-!
Chunked uploads are put together exactly.

After any requests to write parts, in any order, repeated, refused or crashed, the parts received
are apart from each other, on the grid and within the upload; the ranges received and missing share
out the upload; it can be put together when nothing is missing, and then every byte is that of the
part it came with.
-/

namespace PrivChat.Uploads

open Tasks Ranges

/-- The ranges received and the ranges missing share out the upload: all have something in
them, none has a byte of another or goes beyond the end, and each byte is in one of them. -/
structure SharesOut (total : ℕ) (st : Status) : Prop where
  received : Chain 0 st.received
  missing : Chain 0 st.missing
  inside : ∀ r ∈ st.received ++ st.missing, r.stop ≤ total
  either : ∀ i < total, Covers st.received i ↔ ¬ Covers st.missing i

section Status

variable {total : ℕ} {d : Disk} (htotal : total < 2 ^ 64) (h : Sound total d)

include htotal h

lemma covers_received {i : ℕ} :
    Covers (statusOf total (scanned d)).received i ↔ ∃ p, Accepted d p ∧ p.range.Has i := by
  rw [statusOf, covers_join, covers_scanned htotal h]

lemma sharesOut_status : SharesOut total (statusOf total (scanned d)) := by
  have hchain := chain_scanned htotal h
  have hapart := apart_join hchain
  have hin : ∀ r ∈ join (scanned d), r.stop ≤ total := fun r hr =>
    stop_le_of_mem_join hchain (fun q hq => stop_le_of_mem_scanned htotal h hq) hr
  have hgaps := chain_gaps hapart.chain hin
  have hcov := fun i => covers_gaps (i := i) hapart.chain hin
  refine ⟨hapart.chain, hgaps, fun r hr => ?_, fun i hi => ?_⟩
  · rcases List.mem_append.mp hr with hr | hr
    · exact hin r hr
    · -- the last byte of a gap is within the upload
      have hpos := (hgaps.le_of_mem hr).2
      have hlast : r.Has (r.stop - 1) := by
        unfold Range.Has Range.stop
        omega
      have hlt := ((hcov _).mp ⟨r, hr, hlast⟩).2.1
      omega
  · change Covers (join (scanned d)) i ↔ ¬ Covers (gaps total 0 (join (scanned d))) i
    rw [hcov]
    simp [hi]

lemma missing_eq_nil : (statusOf total (scanned d)).missing = [] ↔
    ∀ i < total, ∃ p, Accepted d p ∧ p.range.Has i := by
  have hchain := chain_scanned htotal h
  have hin : ∀ r ∈ join (scanned d), r.stop ≤ total := fun r hr =>
    stop_le_of_mem_join hchain (fun q hq => stop_le_of_mem_scanned htotal h hq) hr
  change gaps total 0 (join (scanned d)) = [] ↔ _
  rw [gaps_eq_nil (apart_join hchain).chain hin]
  constructor
  · intro hall i hi
    exact (covers_received htotal h).mp (hall i (Nat.zero_le _) hi)
  · intro hall i _ hi
    exact (covers_received htotal h).mpr (hall i hi)

lemma received_eq (hpos : 0 < total) (hmissing : (statusOf total (scanned d)).missing = []) :
    (statusOf total (scanned d)).received = [⟨0, total⟩] := by
  have hchain := chain_scanned htotal h
  exact eq_singleton_of_gaps_nil (apart_join hchain)
    (fun r hr => stop_le_of_mem_join hchain (fun q hq => stop_le_of_mem_scanned htotal h hq) hr)
    hpos hmissing

end Status

/-! ### What assemble writes -/

/-- The content of the file of a range. -/
def contentOf (d : Disk) (r : Range) : Bytes := (d.file (partName r)).getD []

/-- The bytes of the whole upload are those of its parts, each in its place. -/
structure MadeOf (total : ℕ) (d : Disk) (body : Bytes) : Prop where
  length : body.length = total
  bytes : ∀ p, Accepted d p → ∀ i, p.range.Has i → body[i]? = p.bytes[i - p.offset]?

section Assemble

variable {total : ℕ} {d : Disk} {P : Op → Outcome → Disk → Prop} {sha256Hex : Bytes → String}

lemma contentOf_accepted {p : Part} (hp : Accepted d p) : contentOf d p.range = p.bytes := by
  rw [contentOf, hp, Option.getD_some]

/-- Reading and appending leave the parts alone. -/
def Untouched (d d' : Disk) : Prop := d'.parts = d.parts

lemma Untouched.refl : Untouched d d := rfl

lemma Untouched.file {d' : Disk} (h : Untouched d d') (n : Name) : d'.file n = d.file n := by
  rw [Disk.file, Disk.file, h]

lemma gives_concatParts (ps : List Range) {sofar : Bytes} {d' : Disk}
    (hbody : d'.body = some sofar) :
    Gives exec P (Untouched d) (fun all d'' => all = sofar ++ ps.flatMap (contentOf d) ∧
      d''.body = some all) (concatParts sofar ps) d' := by
  induction ps generalizing sofar d' with
  | nil => exact gives_ret (by simpa using hbody)
  | cons p ps ih =>
    intro hd
    refine gives_readFile.bind ?_ hd
    rintro b _ ⟨rfl, hb⟩
    have hcontent : b = contentOf d p := by rw [contentOf, ← hd.file, hb, Option.getD_some]
    refine Gives.bind (F := fun _ d'' => d''.body = some (sofar ++ b))
      (gives_act ?_ fun _ => id) fun _ d'' hbody' => ?_
    · rintro _ hd' ⟨⟩
      exact ⟨hd', by simp [hbody]⟩
    · refine (ih hbody').mono ?_
      rintro all d'' ⟨hsum, hs⟩
      refine ⟨?_, hs⟩
      rw [hsum, hcontent, List.flatMap_cons, List.append_assoc]

lemma gives_concatSteps {ps : List Range} :
    Gives exec P (Untouched d) (fun all d' => all = ps.flatMap (contentOf d) ∧ d'.body = some all)
      (concatSteps ps) d := by
  refine Gives.bind (F := fun _ d' => d'.body = some []) (gives_act ?_ fun _ => id) ?_
  · rintro _ - ⟨⟩
    exact ⟨rfl, rfl⟩
  · intro _ d1 hbody
    refine (gives_concatParts ps hbody).bind ?_
    rintro all d2 ⟨hall, hbody2⟩
    refine (gives_sync (T := fun d' => d'.body = some all) hbody2 rfl fun _ => rfl).bind ?_
    exact fun _ _ hbody3 => gives_ret ⟨by simpa using hall, hbody3⟩

lemma madeOf_flatMap (htotal : total < 2 ^ 64) (h : Sound total d)
    (hall : ∀ i < total, ∃ p, Accepted d p ∧ p.range.Has i) :
    MadeOf total d ((scanned d).flatMap (contentOf d)) := by
  have hchain := chain_scanned htotal h
  have hin : ∀ r ∈ scanned d, r.stop ≤ total := fun r hr => stop_le_of_mem_scanned htotal h hr
  have hlen : ∀ r ∈ scanned d, (contentOf d r).length = r.length := by
    intro r hr
    obtain ⟨p, hp, rfl⟩ := (mem_scanned htotal h).mp hr
    rw [contentOf_accepted hp]
    rfl
  have hcov : ∀ i, 0 ≤ i → i < total → Covers (scanned d) i := fun i _ hi =>
    (covers_scanned htotal h).mpr (hall i hi)
  constructor
  · exact length_flatMap_of_covers hchain (Nat.zero_le _) hlen hin hcov
  · intro p hp i hi
    have hmem := (mem_scanned htotal h).mpr ⟨p, hp, rfl⟩
    have hget := getElem?_flatMap_of_mem hchain hlen hin hcov hmem hi
    rw [contentOf_accepted hp, Nat.sub_zero] at hget
    exact hget

variable {ε : Type} {io : Channels.ServerError → ε}

lemma gives_status {I : Disk → Prop} :
    Gives exec P I (fun st d' => d' = d ∧ st = statusOf total (scanned d)) (status io total) d := by
  refine gives_scanParts.bind ?_
  rintro _ _ ⟨rfl, rfl⟩
  exact gives_ret ⟨rfl, rfl⟩

/-- Whatever the system refuses: an upload that is said to be assembled has nothing missing, and
is made of its parts. -/
lemma gives_assemble (htotal : total < 2 ^ 64) (h : Sound total d) :
    Gives exec P (Untouched d) (fun x d' => (statusOf total (scanned d)).missing = [] ∧
        ∃ body, d'.body = some body ∧ MadeOf total d body ∧ x.1 = total ∧ x.2 = sha256Hex body)
      (assemble sha256Hex total) d := by
  refine gives_status.bind ?_
  rintro _ d1 ⟨hd1, rfl⟩
  subst d1
  split
  · exact gives_fail
  rename_i hmissing
  replace hmissing : (statusOf total (scanned d)).missing = [] := by simpa using hmissing
  split
  · exact gives_fail
  refine gives_scanParts.bind ?_
  rintro _ d1 ⟨hd1, rfl⟩
  subst d1
  refine gives_concatSteps.attempt.bind fun r d' hr => ?_
  cases r with
  | ok all =>
    obtain ⟨hall, hbody⟩ := hr all rfl
    refine gives_ret ⟨hmissing, all, hbody, ?_, rfl, rfl⟩
    rw [hall]
    exact madeOf_flatMap htotal h ((missing_eq_nil htotal h).mp hmissing)
  | error e =>
    refine (gives_quietly (fun d'' hd' hd'' => ?_) fun _ => id).bind fun _ _ _ => gives_fail
    simp only [Act.perform] at hd''
    split at hd''
    · cases hd''
    · cases hd''
      exact hd'

lemma evaluate_scanParts : (scanParts io).evaluate exec .done d = (.ok (scanned d), d) := by
  change (partsOfNames io d.names).evaluate exec .done d = _
  rw [partsOfNames_names]
  rfl

lemma evaluate_status :
    (status io total).evaluate exec .done d = (.ok (statusOf total (scanned d)), d) := by
  rw [status, Prog.evaluate_bind_ok evaluate_scanParts]
  rfl

lemma evaluate_concatParts {ps : List Range} (hps : ∀ p ∈ ps, (d.file (partName p)).isSome)
    (sofar : Bytes) (d' : Disk) (hd : Untouched d d') :
    ∃ all d'', (concatParts sofar ps).evaluate exec .done d' = (.ok all, d'') := by
  induction ps generalizing sofar d' with
  | nil => exact ⟨sofar, d', rfl⟩
  | cons p ps ih =>
    obtain ⟨b, hb⟩ := Option.isSome_iff_exists.mp (hps p List.mem_cons_self)
    have hread : (readFile assembleFailed (partName p)).evaluate exec .done d' = (.ok b, d') := by
      change (orFail assembleFailed (d'.read (partName p))).evaluate exec .done d' = _
      rw [Disk.read, hd.file, hb]
      rfl
    rw [concatParts, Prog.evaluate_bind_ok hread]
    exact ih (fun q hq => hps q (List.mem_cons_of_mem _ hq)) (sofar ++ b)
      { d' with body := d'.body.map (· ++ b) } hd

/-- When the system refuses nothing, an upload that is not empty can be put together just when
nothing is missing. -/
lemma evaluate_assemble (htotal : total < 2 ^ 64) (h : Sound total d) (hpos : 0 < total) :
    (∃ size digest d', (assemble sha256Hex total).evaluate exec .done d = (.ok (size, digest), d'))
    ↔ (statusOf total (scanned d)).missing = [] := by
  constructor
  · rintro ⟨size, digest, d', hok⟩
    by_contra hne
    rw [assemble, Prog.evaluate_bind_ok evaluate_status] at hok
    simp only [hne, Bool.not_eq_true', if_true, List.isEmpty_eq_false_iff, ne_eq,
      not_false_eq_true] at hok
    cases hok
  · intro hnil
    have hfiles : ∀ p ∈ scanned d, (d.file (partName p)).isSome := by
      intro r hr
      obtain ⟨p, hp, rfl⟩ := (mem_scanned htotal h).mp hr
      exact Option.isSome_iff_exists.mpr ⟨p.bytes, hp⟩
    obtain ⟨all, d', hall⟩ := evaluate_concatParts hfiles []
      { d with body := some [] } rfl
    have hsteps : (concatSteps (scanned d)).evaluate exec .done d = (.ok all, d') := by
      change (concatParts [] (scanned d) >>= fun all => act assembleFailed .syncBody >>= fun _ =>
        pure all).evaluate exec .done { d with body := some [] } = _
      rw [Prog.evaluate_bind_ok hall]
      rfl
    refine ⟨total, sha256Hex all, d', ?_⟩
    rw [assemble, Prog.evaluate_bind_ok evaluate_status]
    simp only [hnil, List.isEmpty_nil, Bool.not_true, Bool.false_eq_true, if_false,
      received_eq htotal h hpos hnil, ne_eq, not_true_eq_false]
    rw [Prog.evaluate_bind_ok evaluate_scanParts,
      Prog.evaluate_bind_ok (Prog.evaluate_attempt_ok hsteps)]
    rfl

end Assemble

/-! ### Any requests to write parts -/

structure WriteRequest where
  offset : ℕ
  bytes : Bytes
  declaredSha256 : String

def WriteRequest.part (w : WriteRequest) : Part := ⟨w.offset, w.bytes⟩

abbrev Log := List (WriteRequest × Option (Except ChunkError PartOutcome))

/-- The requests come one after the other, from the creation of the session on. -/
def received (sha256Hex : Bytes → String) (total : ℕ) (calls : List (WriteRequest × List Outcome)) :
    Log × Disk :=
  serve exec (fun w : WriteRequest => writePart sha256Hex total w.offset w.bytes w.declaredSha256)
    calls ([], Disk.new)

structure Exact (sha256Hex : Bytes → String) (total : ℕ) (log : Log) (d : Disk) : Prop where
  fits : ∀ p, Accepted d p → Fits total p.range
  disjoint : ∀ p p', Accepted d p → Accepted d p' → p ≠ p' → p.range.Disjoint p'.range
  /-- Every part was sent, and what was answered about it is so. -/
  sent : ∀ p, Accepted d p → ∃ e ∈ log, e.1.part = p
  told : ∀ e ∈ log, ∀ x, e.2 = some x → Told sha256Hex e.1.part d x
  /-- The ranges that status reports share out the upload, and those received are those of
  the parts. -/
  status : ∃ st, (Uploads.status id total).evaluate exec .done d = (.ok st, d) ∧
    SharesOut total st ∧ (∀ i, Covers st.received i ↔ ∃ p, Accepted d p ∧ p.range.Has i) ∧
    (0 < total → ((∃ size digest d',
      (assemble sha256Hex total).evaluate exec .done d = (.ok (size, digest), d')) ↔
        st.missing = []))
  /-- An upload that is said to be assembled is made of its parts, each byte in one of them. -/
  assembled : ∀ os size digest d',
    (assemble sha256Hex total).until exec os d = (some (.ok (size, digest)), d') →
    (∀ i < total, ∃ p, Accepted d p ∧ p.range.Has i) ∧
    ∃ body, d'.body = some body ∧ MadeOf total d body ∧ size = total ∧ digest = sha256Hex body

section Requests

variable {sha256Hex : Bytes → String} {total : ℕ}

lemma Told.mono {p : Part} {d d' : Disk} {x : Except ChunkError PartOutcome}
    (h : Told sha256Hex p d x) (hkept : ∀ q, Accepted d q → Accepted d' q) :
    Told sha256Hex p d' x := by
  cases x with
  | error e => trivial
  | ok y =>
    cases y with
    | written => exact hkept _ h
    | alreadyPresent =>
      obtain ⟨q, hq, hr, hs⟩ := h
      exact ⟨q, hkept q hq, hr, hs⟩

structure Kept (sha256Hex : Bytes → String) (total : ℕ) (log : Log) (d : Disk) : Prop where
  sound : Sound total d
  sent : ∀ p, Accepted d p → ∃ e ∈ log, e.1.part = p
  told : ∀ e ∈ log, ∀ x, e.2 = some x → Told sha256Hex e.1.part d x

lemma Kept.grown {log : Log} {d d' : Disk} {w : WriteRequest}
    {a : Option (Except ChunkError PartOutcome)}
    (h : Kept sha256Hex total log d) (hg : Grown total d w.part d')
    (ha : ∀ x, a = some x → Told sha256Hex w.part d' x) :
    Kept sha256Hex total (log ++ [(w, a)]) d' where
  sound := hg.sound
  sent p hp := by
    rcases hg.only p hp with hp | rfl
    · obtain ⟨e, he, hpart⟩ := h.sent p hp
      exact ⟨e, List.mem_append_left _ he, hpart⟩
    · exact ⟨(w, a), by simp, rfl⟩
  told e he x hx := by
    rcases List.mem_append.mp he with he | he
    · exact (h.told e he x hx).mono hg.kept
    · obtain rfl := List.mem_singleton.mp he
      exact ha x hx

lemma kept_received (htotal : total < 2 ^ 64) {calls : List (WriteRequest × List Outcome)} :
    Kept sha256Hex total (received sha256Hex total calls).1 (received sha256Hex total calls).2 := by
  refine serve_keeps (fun log c _ d h => ?_)
    (servesGiven_true _ _) ⟨sound_new, fun p hp => (by cases hp), fun e he => (by cases he)⟩
  refine (gives_writePart (p := c.1.part) htotal h.sound (.refl h.sound)).mono ?_ ?_
  · exact fun d' hg => h.grown hg nofun
  · intro r d' hg hr
    refine h.grown hg ?_
    rintro x ⟨⟩
    cases r with
    | error e => trivial
    | ok y => exact hr y rfl

lemma Kept.exact {log : Log} {d : Disk} (htotal : total < 2 ^ 64)
    (h : Kept sha256Hex total log d) : Exact sha256Hex total log d where
  fits p hp := h.sound.fits hp
  disjoint := h.sound.disjoint
  sent := h.sent
  told := h.told
  status := ⟨_, evaluate_status, sharesOut_status htotal h.sound,
    fun _ => covers_received htotal h.sound, fun hpos => evaluate_assemble htotal h.sound hpos⟩
  assembled os size digest d' hok := by
    have hQ := (gives_assemble htotal h.sound .refl).until_answer
      (Prog.meets_true _ _) (by rw [hok])
    rw [hok] at hQ
    obtain ⟨hmissing, hbody⟩ := hQ (size, digest) rfl
    exact ⟨(missing_eq_nil htotal h.sound).mp hmissing, hbody⟩

lemma MadeOf.unique {d d' : Disk} {body body' : Bytes} (h : MadeOf total d body)
    (h' : MadeOf total d' body') (hsame : ∀ p, Accepted d p ↔ Accepted d' p)
    (hall : ∀ i < total, ∃ p, Accepted d p ∧ p.range.Has i) : body = body' := by
  apply List.ext_getElem?
  intro i
  by_cases hi : i < total
  · obtain ⟨p, hp, hpi⟩ := hall i hi
    rw [h.bytes p hp i hpi, h'.bytes p ((hsame p).mp hp) i hpi]
  · rw [List.getElem?_eq_none (by rw [h.length]; omega),
      List.getElem?_eq_none (by rw [h'.length]; omega)]

end Requests

/-- **Chunked uploads are put together exactly, and in whatever order the same parts have come
the same upload is put together.** -/
theorem chunk_assembly_exact (sha256Hex : Bytes → String) (total : UInt64)
    (calls : List (WriteRequest × List Outcome)) :
    Exact sha256Hex total.toNat (received sha256Hex total.toNat calls).1
        (received sha256Hex total.toNat calls).2 ∧ ∀ calls' : List (WriteRequest × List Outcome),
        (∀ p, Accepted (received sha256Hex total.toNat calls).2 p ↔
          Accepted (received sha256Hex total.toNat calls').2 p) → ∀ os os' x x' d d',
          (assemble sha256Hex total.toNat).until exec os (received sha256Hex total.toNat calls).2 =
            (some (.ok x), d) →
          (assemble sha256Hex total.toNat).until exec os' (received sha256Hex total.toNat calls').2
            = (some (.ok x'), d') → x = x' ∧ d.body = d'.body := by
  have htotal : total.toNat < 2 ^ 64 := total.toNat_lt
  have hexact : ∀ calls, Exact sha256Hex total.toNat (received sha256Hex total.toNat calls).1
      (received sha256Hex total.toNat calls).2 := fun calls => (kept_received htotal).exact htotal
  refine ⟨hexact calls, ?_⟩
  rintro calls' hsame os os' ⟨size, digest⟩ ⟨size', digest'⟩ d d' hok hok'
  obtain ⟨hall, body, hbody, hmade, rfl, rfl⟩ := (hexact calls).assembled os size digest d hok
  obtain ⟨-, body', hbody', hmade', rfl, rfl⟩ := (hexact calls').assembled os' size' digest' d' hok'
  have heq := hmade.unique hmade' hsame hall
  rw [hbody, hbody', heq]
  exact ⟨rfl, rfl⟩

/-- The same part three times: the first request crashes before the rename, and the second finds
the temporary file it has left. -/
def retriedPart : List (WriteRequest × List Outcome) :=
  [(⟨0, [1, 2, 3], " AB "⟩, [.done, .done, .done]),
   (⟨0, [1, 2, 3], "ab"⟩, List.replicate 8 .done),
   (⟨0, [1, 2, 3], "ab"⟩, List.replicate 8 .done)]

theorem chunk_assembly_retried :
    (received (fun _ => "ab") (3 : UInt64).toNat retriedPart).1.map (·.2) =
        [none, some (.error (writeFailed .alreadyExists)), some (.ok .written)] ∧
      ((assemble (fun _ => "ab") (3 : UInt64).toNat).until exec (List.replicate 8 .done)
        (received (fun _ => "ab") (3 : UInt64).toNat retriedPart).2).1 = some (.ok (3, "ab")) ∧
      Exact (fun _ => "ab") (3 : UInt64).toNat
        (received (fun _ => "ab") (3 : UInt64).toNat retriedPart).1
        (received (fun _ => "ab") (3 : UInt64).toNat retriedPart).2 :=
  ⟨by decide +kernel, by decide +kernel, (chunk_assembly_exact _ 3 retriedPart).1⟩

end PrivChat.Uploads
