import PrivChat.Dedup.Model

/-!
Uploads and claims converge on one object per content.

No run makes two objects of one plaintext, whatever is declared: the lock on the digest is held
from before the object is looked for to the commit that puts one in. Whether a file refers to the
content that was declared for it rests on what is declared. An object is found by its digest, or by
its location, and its size is compared with nothing; so it needs that no two requests declare
different sizes of one digest, and no two uploads to one location different digests.
-/

namespace PrivChat.Dedup

open Db Db.Tx Uploads

structure Contents where
  sizeOf : String → ℕ
  digestAt : Location → String

/-- The object is what has been declared. -/
def Declared.Of (D : Declared) (o : ObjectRow) : Prop :=
  o.plaintextSha256 = D.plaintextSha256 ∧ ∀ n, D.plaintextSize = some n → o.plaintextSize = n

def Upload.Agrees (C : Contents) (u : Upload) : Prop :=
  u.plaintextSize = C.sizeOf u.plaintextSha256 ∧ u.plaintextSha256 = C.digestAt u.location

/-- The size that is declared with a token is that of the content it is bound to. -/
def Claim.Agrees (C : Contents) (c : Claim) : Prop :=
  ∀ t bound, checkToken c = .ok (t, bound) → ∀ n, (t.declared bound).plaintextSize = some n →
    n = C.sizeOf (t.declared bound).plaintextSha256

def Job.Agrees (C : Contents) : Job → Prop
  | .publish u | .recordS3 u _ => u.Agrees C
  | .claim c => c.Agrees C

/-- There is one object of each plaintext at most, and every file refers to an object. -/
structure Converged (d : Tables) : Prop where
  unique : ∀ id id' o o', d.objects.get id = some o → d.objects.get id' = some o' →
    o.plaintextSha256 = o'.plaintextSha256 → id = id'
  linked : ∀ f row, d.files.get f = some row → ∃ o, d.objects.get row.objectId = some o

/-- Every file refers to an object that is what was declared for the file. -/
def Truthful (d : Tables) : Prop :=
  ∀ f row o, d.files.get f = some row → d.objects.get row.objectId = some o → row.declared.Of o

/-- The objects agree with what is declared of them. -/
def Recorded (C : Contents) (d : Tables) : Prop :=
  ∀ id o, d.objects.get id = some o →
    o.plaintextSize = C.sizeOf o.plaintextSha256 ∧ o.plaintextSha256 = C.digestAt o.location

/-- The invariant. All requests agree with the contents, if any are given. -/
structure Inv (T : Option Contents) (d : Tables) : Prop where
  converged : Converged d
  truthful : ∀ C, T = some C → Truthful d ∧ Recorded C d

structure Grown (hashtext : String → ℤ) (h : List LockKey) (d d' : Tables) : Prop where
  objects : ∀ id, d'.objects.get id = d.objects.get id ∨
    d.objects.get id = none ∧ .objectId id ∈ h ∧
      ∀ o, d'.objects.get id = some o → .advisory (hashtext o.plaintextSha256) ∈ h
  files : ∀ f, d'.files.get f = d.files.get f ∨ d.files.get f = none ∧ .fileId f ∈ h

def pact (hashtext : String → ℤ) (T : Option Contents) : Pact Tables LockKey Job where
  inv := Inv T
  commits _ := Grown hashtext

section Lemmas

variable {hashtext : String → ℤ} {T : Option Contents} {j : Job} {h : List LockKey}
  {d d' : Tables}
  {oid : ObjectId} {f : FileId} {o : ObjectRow} {row : Reference}

lemma Grown.refl : Grown hashtext h d d := ⟨fun _ => .inl rfl, fun _ => .inl rfl⟩

lemma Grown.get_object (hg : Grown hashtext h d d') (ho : d.objects.get oid = some o) :
    d'.objects.get oid = some o := by
  rcases hg.objects oid with heq | ⟨hnone, -⟩
  · rwa [heq]
  · rw [hnone] at ho
    cases ho

lemma Grown.get_file (hg : Grown hashtext h d d') (hf : d.files.get f = some row) :
    d'.files.get f = some row := by
  rcases hg.files f with heq | ⟨hnone, -⟩
  · rwa [heq]
  · rw [hnone] at hf
    cases hf

lemma Grown.putFile (hg : Grown hashtext h d d') (hf : d'.files.get f = none)
    (hmem : .fileId f ∈ h) : Grown hashtext h d (d'.putFile f row) := by
  refine ⟨hg.objects, fun f' => ?_⟩
  by_cases hff : f' = f
  · subst hff
    rcases hg.files f' with heq | hnone
    · exact .inr ⟨heq ▸ hf, hmem⟩
    · exact .inr hnone
  · have hsame : (d'.putFile f row).files.get f' = d'.files.get f' := Table.get_put_of_ne _ hff
    rw [hsame]
    exact hg.files f'

lemma grown_putObject (hid : d.objects.get oid = none) (hmem : .objectId oid ∈ h)
    (hlock : .advisory (hashtext o.plaintextSha256) ∈ h) :
    Grown hashtext h d (d.putObject oid o) := by
  refine ⟨fun oid' => ?_, fun _ => .inl rfl⟩
  by_cases hii : oid' = oid
  · subst hii
    refine .inr ⟨hid, hmem, fun o' ho' => ?_⟩
    have hself : (d.putObject oid' o).objects.get oid' = some o := Table.get_put_self ..
    cases hself.symm.trans ho'
    exact hlock
  · exact .inl (Table.get_put_of_ne _ hii)

lemma stable_object : (pact hashtext T).Stable h fun d => d.objects.get oid = some o :=
  fun _ _ _ _ _ _ hg ho => hg.get_object ho

/-- No object has the plaintext. -/
def Fresh (sha256 : String) (d : Tables) : Prop :=
  ∀ oid o, d.objects.get oid = some o → o.plaintextSha256 ≠ sha256

lemma stable_fresh {sha256 : String} (hmem : .advisory (hashtext sha256) ∈ h) :
    (pact hashtext T).Stable h (Fresh sha256) := by
  intro _ h' d d' hdis _ hg hfresh oid o ho hsha
  rcases hg.objects oid with heq | ⟨-, -, hnew⟩
  · exact hfresh oid o (heq ▸ ho) hsha
  · -- who puts in an object of this plaintext has the lock
    have hlock := hnew o ho
    rw [hsha] at hlock
    exact hdis hmem hlock

lemma stable_noObject (hmem : .objectId oid ∈ h) :
    (pact hashtext T).Stable h fun d => d.objects.get oid = none := by
  intro _ h' d d' hdis _ hg hnone
  rcases hg.objects oid with heq | ⟨-, hlock, -⟩
  · exact heq.trans hnone
  · exact absurd hlock (hdis hmem)

lemma stable_noFile (hmem : .fileId f ∈ h) :
    (pact hashtext T).Stable h fun d => d.files.get f = none := by
  intro _ h' d d' hdis _ hg hnone
  rcases hg.files f with heq | ⟨-, hlock⟩
  · exact heq.trans hnone
  · exact absurd hlock (hdis hmem)

lemma Inv.putObject (hd : Inv T d) (hid : d.objects.get oid = none)
    (hfresh : Fresh o.plaintextSha256 d)
    (hag : ∀ C, T = some C → o.plaintextSize = C.sizeOf o.plaintextSha256 ∧
      o.plaintextSha256 = C.digestAt o.location) : Inv T (d.putObject oid o) := by
  have hget : ∀ oid' o', (d.putObject oid o).objects.get oid' = some o' →
      oid' = oid ∧ o' = o ∨ oid' ≠ oid ∧ d.objects.get oid' = some o' := by
    intro oid' o' ho'
    by_cases hii : oid' = oid
    · subst hii
      have hself : (d.putObject oid' o).objects.get oid' = some o := Table.get_put_self ..
      exact .inl ⟨rfl, (Option.some.inj (hself.symm.trans ho')).symm⟩
    · have hsame : (d.putObject oid o).objects.get oid' = d.objects.get oid' :=
        Table.get_put_of_ne _ hii
      exact .inr ⟨hii, hsame ▸ ho'⟩
  have hold : ∀ oid' o', d.objects.get oid' = some o' →
      (d.putObject oid o).objects.get oid' = some o' := by
    intro oid' o' ho'
    have hii : oid' ≠ oid := by
      rintro rfl
      rw [hid] at ho'
      cases ho'
    exact (Table.get_put_of_ne _ hii).trans ho'
  refine ⟨⟨fun i i' a a' ha ha' hsha => ?_, fun f row hf => ?_⟩, fun C hC => ⟨?_, ?_⟩⟩
  · rcases hget i a ha with ⟨rfl, rfl⟩ | ⟨-, hold1⟩
    · rcases hget i' a' ha' with ⟨rfl, rfl⟩ | ⟨-, hold2⟩
      · rfl
      · exact absurd hsha.symm (hfresh i' a' hold2)
    · rcases hget i' a' ha' with ⟨rfl, rfl⟩ | ⟨-, hold2⟩
      · exact absurd hsha (hfresh i a hold1)
      · exact hd.converged.unique i i' a a' hold1 hold2 hsha
  · obtain ⟨a, ha⟩ := hd.converged.linked f row hf
    exact ⟨a, hold _ a ha⟩
  · intro f row a hf ha
    obtain ⟨b, hb⟩ := hd.converged.linked f row hf
    cases (hold _ b hb).symm.trans ha
    exact (hd.truthful C hC).1 f row _ hf hb
  · intro i a ha
    rcases hget i a ha with ⟨-, rfl⟩ | ⟨-, ha⟩
    · exact hag C hC
    · exact (hd.truthful C hC).2 i a ha

lemma Inv.putFile (hd : Inv T d) (ho : d.objects.get row.objectId = some o)
    (hag : T.isSome → row.declared.Of o) : Inv T (d.putFile f row) := by
  have hget : ∀ f' row', (d.putFile f row).files.get f' = some row' →
      row' = row ∨ d.files.get f' = some row' := by
    intro f' row' hf'
    by_cases hff : f' = f
    · subst hff
      have hself : (d.putFile f' row).files.get f' = some row := Table.get_put_self ..
      exact .inl (Option.some.inj (hself.symm.trans hf')).symm
    · have hsame : (d.putFile f row).files.get f' = d.files.get f' := Table.get_put_of_ne _ hff
      exact .inr (hsame ▸ hf')
  refine ⟨⟨hd.converged.unique, fun f' row' hf' => ?_⟩, fun C hC => ⟨?_, (hd.truthful C hC).2⟩⟩
  · rcases hget f' row' hf' with rfl | hf'
    · exact ⟨o, ho⟩
    · exact hd.converged.linked f' row' hf'
  · intro f' row' a hf' ha
    rcases hget f' row' hf' with rfl | hf'
    · cases ho.symm.trans ha
      exact hag (by rw [hC]; rfl)
    · exact (hd.truthful C hC).1 f' row' a hf' ha

variable {p : ObjectRow → Bool}

lemma findObject_eq_some (hfind : d.findObject p = some (oid, o)) :
    d.objects.get oid = some o ∧ p o = true :=
  Table.mem_select.mp (List.mem_of_mem_head? hfind)

lemma findObject_eq_none (hfind : d.findObject p = none)
    (ho : d.objects.get oid = some o) : p o = false := by
  have hnil := List.head?_eq_none_iff.mp hfind
  by_contra hp
  have hmem : (oid, o) ∈ d.objects.select fun _ o => p o :=
    Table.mem_select.mpr ⟨ho, by simpa using hp⟩
  rw [hnil] at hmem
  cases hmem

/-! ### Converging -/

/-- What is known when an upload has got its place: the object was there, or it is put in by the
transaction. -/
def Placed (hashtext : String → ℤ) (T : Option Contents) (u : Upload) (p : ResolvedPlacement)
    (pend : Tables → Tables) (h : List LockKey) (K : Tables → Prop) : Prop :=
  (pend = id ∧ ∃ o, (∀ d, K d → d.objects.get p.objectId = some o) ∧
    (T.isSome → o.plaintextSha256 = u.plaintextSha256 ∧ o.plaintextSize = u.plaintextSize)) ∨
  (pend = (·.putObject p.objectId u.object) ∧ .objectId p.objectId ∈ h ∧
    .advisory (hashtext u.plaintextSha256) ∈ h ∧
    ∀ d, K d → d.objects.get p.objectId = none ∧ Fresh u.plaintextSha256 d)

variable {u : Upload} {K : Tables → Prop}

lemma sure_insertObject (hlock : .advisory (hashtext u.plaintextSha256) ∈ h)
    (hK : ∀ d, K d → Fresh u.plaintextSha256 d) :
    Sure (pact hashtext T) j (Placed hashtext T u) (insertObject u) id h K := by
  refine sure_query_any fun clash => ?_
  simp only [sure_ensure, sure_observe, sure_acquire]
  intro _ o
  refine sure_query fun used d _ _ hused => ?_
  cases used with
  | true => exact ⟨fun _ => True, trivial, Pact.stable_true, trivial⟩
  | false =>
    refine ⟨fun d => d.objects.get o.nextval = none, by simpa using hused,
      stable_noObject (by simp), ?_⟩
    exact .inr ⟨rfl, by simp, List.mem_cons_of_mem _ hlock, fun d hd => ⟨hd.2, hK d hd.1⟩⟩

/-! ### The row of the file -/

variable {pend : Tables → Tables} {p : ResolvedPlacement}

/-- The file refers to the object of the content that was uploaded. -/
def Refers (T : Option Contents) (u : Upload) (f : FileId) (d : Tables) : Prop :=
  ∃ row o, d.files.get f = some row ∧ d.objects.get row.objectId = some o ∧
    (T.isSome → o.plaintextSha256 = u.plaintextSha256 ∧ o.plaintextSize = u.plaintextSize)

lemma stable_refers : (pact hashtext T).Stable h (Refers T u f) := by
  rintro _ h' d d' - - hg ⟨row, o, hf, ho, hsame⟩
  exact ⟨row, o, hg.get_file hf, hg.get_object ho, hsame⟩

/-- What the answer to a job says of the committed state. -/
def Job.Post (T : Option Contents) : Job → Answer → Tables → Prop
  | .publish u, .file m, d | .recordS3 u _, .file m, d => m.fileId = u.fileId ∧ Refers T u m.fileId
    d
  | _, _, _ => True

/-- What a call that records an upload ends with. -/
def Answered (T : Option Contents) (u : Upload) (a : Answer) (_ : Tables → Tables)
    (_ : List LockKey) (K : Tables → Prop) : Prop :=
  ∀ d, Inv T d → K d → ∀ m, a = .file m → m.fileId = u.fileId ∧ Refers T u m.fileId d

/-- The row has been put in, or there is one. -/
def Inserted (hashtext : String → ℤ) (T : Option Contents) (u : Upload) (p : ResolvedPlacement)
    (b : Bool) (pend : Tables → Tables) (h : List LockKey) (K : Tables → Prop) : Prop :=
  match b with
  | true => ∃ pend0, pend = (·.putFile u.fileId (u.reference p.objectId)) ∘ pend0 ∧
      Placed hashtext T u p pend0 h K ∧ .fileId u.fileId ∈ h ∧
      ∀ d, K d → d.files.get u.fileId = none
  | false => Placed hashtext T u p pend h K

lemma metadata_eq_some {m : Metadata} (hm : d.metadata f = some m) :
    m.fileId = f ∧ d.files.get f = some m.row ∧ d.objects.get m.row.objectId = some m.object := by
  unfold Tables.metadata at hm
  cases hf : d.files.get f with
  | none => simp [hf] at hm
  | some row =>
    cases ho : d.objects.get row.objectId with
    | none => simp [hf, ho] at hm
    | some o =>
      simp only [hf, ho, Option.bind_eq_bind, Option.bind_some, Option.pure_def,
        Option.some.injEq] at hm
      subst hm
      exact ⟨rfl, rfl, ho⟩

section Placed

variable (hp : Placed hashtext T u p pend h K)
include hp

lemma Placed.mono {h' : List LockKey} {K' : Tables → Prop}
    (hsub : h ⊆ h') (hK : ∀ d, K' d → K d) : Placed hashtext T u p pend h' K' := by
  rcases hp with ⟨hid, o, ho, hsame⟩ | ⟨hput, hid, hlock, hnew⟩
  · exact .inl ⟨hid, o, fun d hd => ho d (hK d hd), hsame⟩
  · exact .inr ⟨hput, hsub hid, hsub hlock, fun d hd => hnew d (hK d hd)⟩

lemma Placed.files : (pend d).files = d.files := by
  rcases hp with ⟨rfl, -⟩ | ⟨rfl, -⟩ <;> rfl

lemma sure_insertWithin :
    Sure (pact hashtext T) j (Inserted hashtext T u p) (insertWithin u p.objectId) pend h K := by
  simp only [insertWithin, sure_acquire]
  refine sure_query fun present d _ _ hpresent => ?_
  cases present with
  | true =>
    refine ⟨fun _ => True, trivial, Pact.stable_true, ?_⟩
    exact hp.mono (List.subset_cons_self _ _) fun _ hK => hK.1
  | false =>
    refine ⟨fun d => d.files.get u.fileId = none, ?_, stable_noFile (by simp), ?_⟩
    · rw [hp.files] at hpresent
      simpa using hpresent
    · refine sure_query_any fun linked => ?_
      simp only [sure_ensure, sure_update]
      intro _
      exact ⟨pend, rfl, hp.mono (List.subset_cons_self _ _) fun _ hK => hK.1, by simp,
        fun _ hK => hK.2⟩

lemma sure_readBack :
    Sure (pact hashtext T) j (fun m pend' h' K' => Placed hashtext T u p pend' h' K' ∧
      m.fileId = u.fileId ∧ m.row.objectId = p.objectId ∧
      ∀ d, K' d → d.files.get u.fileId = some m.row) (readBack u p.objectId) pend h K := by
  refine sure_query fun existing d _ _ hexisting => ?_
  cases existing with
  | none => exact ⟨fun _ => True, trivial, Pact.stable_true, trivial⟩
  | some m =>
    obtain ⟨hid, hf, -⟩ := metadata_eq_some hexisting
    rw [hp.files] at hf
    refine ⟨fun d => d.files.get u.fileId = some m.row, hf,
      fun _ _ _ _ _ _ hg hf => hg.get_file hf, ?_⟩
    simp only [sure_orFail, sure_ensure]
    rintro _ ⟨⟩ hsame
    simp only [Bool.and_eq_true, beq_iff_eq] at hsame
    exact ⟨hp.mono (List.Subset.refl _) fun _ hK => hK.1, hid, hsame.1.2, fun _ hK => hK.2⟩

end Placed

section Upload

variable (hag : ∀ C, T = some C → u.Agrees C)
include hag

lemma Inv.same_size (hd : Inv T d)
    (ho : d.objects.get oid = some o) (hsha : o.plaintextSha256 = u.plaintextSha256) :
    T.isSome → o.plaintextSha256 = u.plaintextSha256 ∧ o.plaintextSize = u.plaintextSize := by
  intro hT
  obtain ⟨C, hC⟩ := Option.isSome_iff_exists.mp hT
  refine ⟨hsha, ?_⟩
  rw [((hd.truthful C hC).2 oid o ho).1, hsha, (hag C hC).1]

lemma Inv.same_content (hd : Inv T d)
    (ho : d.objects.get oid = some o) (hl : o.location = u.location) :
    T.isSome → o.plaintextSha256 = u.plaintextSha256 ∧ o.plaintextSize = u.plaintextSize := by
  intro hT
  obtain ⟨C, hC⟩ := Option.isSome_iff_exists.mp hT
  refine hd.same_size hag ho ?_ hT
  rw [((hd.truthful C hC).2 oid o ho).2, hl, ← (hag C hC).2]

lemma sure_readByLocation :
    Sure (pact hashtext T) j (Placed hashtext T u) (readByLocation u) id h K := by
  refine sure_query fun r d hd _ hfind => ?_
  cases r with
  | none => exact ⟨fun _ => True, trivial, Pact.stable_true, trivial⟩
  | some r =>
    obtain ⟨ho, hl⟩ := findObject_eq_some hfind
    refine ⟨fun d => d.objects.get r.1 = some r.2, ho, stable_object, ?_⟩
    exact .inl ⟨rfl, r.2, fun _ hK => hK.2, hd.same_content hag ho (by simpa using hl)⟩

lemma sure_registerObject
    (hlock : .advisory (hashtext u.plaintextSha256) ∈ h) (hK : ∀ d, K d → Fresh u.plaintextSha256 d)
    : Sure (pact hashtext T) j (Placed hashtext T u) (registerObject u) id h K := by
  simp only [registerObject, sure_ensure, sure_acquire]
  intro _
  refine sure_query_any fun taken => ?_
  cases taken with
  | true => exact sure_readByLocation hag
  | false => exact sure_insertObject (by simp [hlock]) hK

lemma sure_convergeUpload :
    Sure (pact hashtext T) j (Placed hashtext T u) (convergeUpload hashtext u) id [] K := by
  simp only [convergeUpload, sure_acquire]
  refine sure_query fun r d hd _ hfind => ?_
  cases r with
  | none =>
    refine ⟨Fresh u.plaintextSha256, ?_, stable_fresh (by simp), ?_⟩
    · intro oid o ho
      simpa using findObject_eq_none hfind ho
    · exact sure_registerObject hag (by simp) fun d hd => hd.2
  | some r =>
    obtain ⟨ho, hsha⟩ := findObject_eq_some hfind
    refine ⟨fun d => d.objects.get r.1 = some r.2, ho, stable_object, ?_⟩
    simp only [sure_acquire]
    refine sure_query fun a d' _ hK ha => ⟨fun _ => True, trivial, Pact.stable_true, ?_⟩
    -- the object is still there
    obtain rfl : some r.2 = a := hK.2.symm.trans ha
    exact .inl ⟨rfl, r.2, fun _ hK => hK.1.2, hd.same_size hag ho (by simpa using hsha)⟩

lemma Placed.commit
    (hp : Placed hashtext T u p pend h K) (hd : Inv T d)
    (hK : K d) : Inv T (pend d) ∧ Grown hashtext h d (pend d) ∧ (pend d).files = d.files ∧
      ∃ o, (pend d).objects.get p.objectId = some o ∧
        (T.isSome → o.plaintextSha256 = u.plaintextSha256 ∧ o.plaintextSize = u.plaintextSize) := by
  rcases hp with ⟨rfl, o, ho, hsame⟩ | ⟨rfl, hid, hlock, hnew⟩
  · exact ⟨hd, .refl, rfl, o, ho d hK, hsame⟩
  · obtain ⟨hnone, hfresh⟩ := hnew d hK
    exact ⟨hd.putObject hnone hfresh hag, grown_putObject hnone hid hlock, rfl, u.object,
      Table.get_put_self .., fun _ => ⟨rfl, rfl⟩⟩

lemma sure_recordFile (hp : Placed hashtext T u p pend h K) :
    Sure (pact hashtext T) j (Answered T u) (recordFile u p) pend h K := by
  refine sure_seq (sure_insertWithin hp) fun b pend h K hb => ?_
  cases b with
  | true =>
    obtain ⟨pend0, rfl, hp, hmem, hnone⟩ := hb
    refine sure_done (Refers T u u.fileId) (fun d hd hK => ?_) (fun d hd hK => ?_) stable_refers ?_
    · obtain ⟨hinv, hgrown, hfiles, o, ho, hsame⟩ := hp.commit hag hd hK
      refine ⟨hinv.putFile ho fun hT => ⟨(hsame hT).1, ?_⟩, hgrown.putFile ?_ hmem⟩
      · rintro n ⟨⟩
        exact (hsame hT).2
      · rw [hfiles]
        exact hnone d hK
    · obtain ⟨-, -, -, o, ho, hsame⟩ := hp.commit hag hd hK
      exact ⟨u.reference p.objectId, o, Table.get_put_self .., ho, hsame⟩
    · rintro d - hrefers _ ⟨⟩
      exact ⟨rfl, hrefers⟩
  | false =>
    refine sure_seq (sure_readBack hb) fun m pend h K hm => ?_
    obtain ⟨hp, hid, hobject, hrow⟩ := hm
    refine sure_done (Refers T u u.fileId) (fun d hd hK => ?_) (fun d hd hK => ?_) stable_refers ?_
    · obtain ⟨hinv, hgrown, -⟩ := hp.commit hag hd hK
      exact ⟨hinv, hgrown⟩
    · obtain ⟨-, -, hfiles, o, ho, hsame⟩ := hp.commit hag hd hK
      refine ⟨m.row, o, ?_, hobject ▸ ho, hsame⟩
      rw [hfiles]
      exact hrow d hK
    · rintro d - hrefers _ ⟨⟩
      exact ⟨hid, hid ▸ hrefers⟩

lemma sure_publishAndRecord :
    Sure (pact hashtext T) j (Answered T u) (publishAndRecord hashtext u) id [] fun _ => True := by
  refine sure_seq (sure_convergeUpload hag) fun p pend h K hp => ?_
  refine sure_seq ?_ fun _ pend h K hp => sure_recordFile hag hp
  unfold publishStaged
  split
  · exact hp
  · intro o
    change Sure _ _ _ (ensure o.published _) pend h K
    cases o.published with
    | false => trivial
    | true => exact hp

lemma sure_recordS3Published {allowDuplicate : Bool} :
    Sure (pact hashtext T) j (Answered T u) (recordS3Published hashtext u allowDuplicate) id []
      fun _ => True := by
  refine sure_seq (sure_convergeUpload hag) fun p pend h K hp => ?_
  split
  · rintro d - - m ⟨⟩
  · exact sure_recordFile hag hp

end Upload

/-! ### Claims -/

/-- What is known of a claim before its commit: the object is there, and the row is put in or
nothing is. -/
structure Claimed (f : FileId) (row : Reference) (o : ObjectRow) (pend : Tables → Tables)
    (h : List LockKey) (K : Tables → Prop) : Prop where
  object : ∀ d, K d → d.objects.get row.objectId = some o
  put : pend = id ∨ pend = (·.putFile f row) ∧ .fileId f ∈ h ∧ ∀ d, K d → d.files.get f = none

lemma sure_insertRow (hK : ∀ d, K d → d.objects.get row.objectId = some o) :
    Sure (pact hashtext T) j (fun _ => Claimed f row o) (insertReference.insertRow f row) id h K :=
    by
  simp only [insertReference.insertRow, sure_acquire]
  refine sure_query fun used d _ _ hused => ?_
  cases used with
  | true => exact ⟨fun _ => True, trivial, Pact.stable_true, trivial⟩
  | false =>
    refine ⟨fun d => d.files.get f = none, by simpa using hused, stable_noFile (by simp), ?_⟩
    simp only [sure_ensure]
    intro _
    refine sure_query_any fun linked => ?_
    simp only [sure_ensure]
    intro _
    exact ⟨fun d hd => hK d hd.1, .inr ⟨rfl, by simp, fun _ hd => hd.2⟩⟩

variable {key : Option String}

lemma sure_insertReference (hK : ∀ d, K d → d.objects.get row.objectId = some o) :
    Sure (pact hashtext T) j (fun _ => Claimed f row o) (insertReference f row key) id h K := by
  cases key with
  | none => exact sure_insertRow hK
  | some key =>
    simp only [insertReference, sure_acquire]
    refine sure_query_any fun taken => ?_
    cases taken with
    | true => exact ⟨hK, .inl rfl⟩
    | false => exact sure_insertRow hK

lemma Claimed.commit (hc : Claimed f row o pend h K) (hd : Inv T d) (hK : K d)
    (hag : T.isSome → row.declared.Of o) : Inv T (pend d) ∧ Grown hashtext h d (pend d) := by
  rcases hc.put with rfl | ⟨rfl, hmem, hnone⟩
  · exact ⟨hd, .refl⟩
  · exact ⟨hd.putFile (hc.object d hK) hag, Grown.refl.putFile (hnone d hK) hmem⟩

lemma sure_createReference {uploaderId : ℕ} {fileType : FileType} {D : Declared}
    (hK : ∀ d, K d → d.objects.get oid = some o) (hag : T.isSome → D.Of o) :
    Sure (pact hashtext T) j (fun _ _ _ _ => True)
      (createReference oid uploaderId fileType D key) id h K := by
  simp only [createReference, sure_observe, sure_acquire]
  intro out
  refine sure_query_any fun there => ?_
  cases there with
  | false => exact sure_undo trivial
  | true =>
    refine sure_seq (sure_insertReference hK) fun _ pend h K hc => ?_
    refine sure_seq (R := fun _ pend' h' K' => Claimed out.nextval
      ⟨oid, uploaderId, fileType, key, D⟩ o pend' h' K') ?_ fun f pend h K hc => ?_
    · cases key with
      | none => exact hc
      | some key => exact sure_query_any fun found => hc
    · exact sure_done (fun _ => True) (fun d hd hK => hc.commit hd hK hag)
        (fun _ _ _ => trivial) Pact.stable_true trivial

lemma sure_claimAnew {c : Claim} {key : String} (hag : ∀ C, T = some C → c.Agrees C) :
    Sure (pact hashtext T) j (fun _ _ _ _ => True) (claimAnew c key) id [] K := by
  unfold claimAnew
  cases hcheck : checkToken c with
  | error e => trivial
  | ok r =>
    refine sure_snapshot fun found d hd _ hfind => ?_
    cases found with
    | none => exact ⟨fun _ => True, trivial, Pact.stable_true, trivial⟩
    | some x =>
      obtain ⟨ho, hsha⟩ := findObject_eq_some hfind
      refine ⟨fun d => d.objects.get x.1 = some x.2, ho, stable_object, ?_⟩
      have hof : T.isSome → (r.1.declared r.2).Of x.2 := by
        intro hT
        obtain ⟨C, hC⟩ := Option.isSome_iff_exists.mp hT
        have hsha' : x.2.plaintextSha256 = (r.1.declared r.2).plaintextSha256 := by
          simpa [UploadToken.declared] using hsha
        refine ⟨hsha', fun n hn => ?_⟩
        rw [((hd.truthful C hC).2 _ _ ho).1, hsha', hag C hC r.1 r.2 hcheck n hn]
      rw [sure_orFail]
      rintro _ ⟨⟩
      refine sure_seq (sure_createReference (fun _ hK => hK) hof) fun f pend h K _ => ?_
      refine sure_snapshot fun m d _ _ _ => ⟨fun _ => True, trivial, Pact.stable_true, ?_⟩
      cases m with
      | none => trivial
      | some m => trivial

lemma sure_claimExistingFile {claimKeyHash : String → String} {c : Claim}
    (hag : ∀ C, T = some C → c.Agrees C) :
    Sure (pact hashtext T) j (fun _ _ _ _ => True) (claimExistingFile claimKeyHash c) id []
      fun _ => True := by
  refine sure_snapshot fun found d _ _ _ => ⟨fun _ => True, trivial, Pact.stable_true, ?_⟩
  cases found with
  | none => exact sure_claimAnew hag
  | some f =>
    refine sure_snapshot fun m d _ _ _ => ⟨fun _ => True, trivial, Pact.stable_true, ?_⟩
    cases m with
    | none => exact sure_claimAnew hag
    | some m => trivial

lemma sure_code {H : Hashes} (hag : ∀ C, T = some C → j.Agrees C) :
    SureOf (pact H.hashtext T) j (j.Post T) (j.code H) id [] fun _ => True := by
  cases j with
  | publish u =>
    refine sure_mono (fun a p h K ha d hd hK => ?_) (sure_publishAndRecord hag)
    cases a with
    | file m => exact ha d hd hK m rfl
    | duplicateObject => trivial
  | recordS3 u allowDuplicate =>
    refine sure_mono (fun a p h K ha d hd hK => ?_) (sure_recordS3Published hag)
    cases a with
    | file m => exact ha d hd hK m rfl
    | duplicateObject => trivial
  | claim c => exact sure_mono (fun _ _ _ _ _ _ _ _ => trivial) (sure_claimExistingFile hag)

lemma stable_post (j : Job) (a : Answer) : (pact hashtext T).Stable [] (j.Post T a) := by
  cases j with
  | publish u =>
    cases a with
    | file m => exact fun j h d d' hdis hd hg hm => ⟨hm.1, stable_refers j h d d' hdis hd hg hm.2⟩
    | duplicateObject => exact Pact.stable_true
  | recordS3 u allowDuplicate =>
    cases a with
    | file m => exact fun j h d d' hdis hd hg hm => ⟨hm.1, stable_refers j h d d' hdis hd hg hm.2⟩
    | duplicateObject => exact Pact.stable_true
  | claim c => exact Pact.stable_true

end Lemmas

abbrev System := Sys Tables LockKey Outside UploadError Answer Job

lemma kept_run (H : Hashes) {T : Option Contents} {d : Tables} (hd : Inv T d)
    {evs : List (Event Outside UploadError Job)}
    (hag : ∀ i j, .start i j ∈ evs → ∀ C, T = some C → j.Agrees C) :
    Kept (pact H.hashtext T) (Job.Post T) ((Sys.init d : System).run (Job.code H) evs) :=
  Kept.run (upheld_init hd) stable_post fun i j hj => sure_code (hag i j hj)

def Job.upload : Job → Option Upload
  | .publish u | .recordS3 u _ => some u
  | .claim _ => none

/-- **Deduplication converges.** There is one object of each plaintext at most and every file refers
to an object, in every run. If no two requests disagree on the size of a digest or the digest at a
location, every file refers to the content that was declared for it, and an upload that has been
answered to the one object of its digest. -/
theorem dedup_converges (H : Hashes) (d : Tables) (hd : Converged d)
    (evs : List (Event Outside UploadError Job)) :
    Converged ((Sys.init d : System).run (Job.code H) evs).db ∧
    ∀ C : Contents, Recorded C d → Truthful d → (∀ i j, .start i j ∈ evs → j.Agrees C) →
      Truthful ((Sys.init d : System).run (Job.code H) evs).db ∧
      ∀ i j u m, ((Sys.init d : System).run (Job.code H) evs).procs i =
          .finished j (.ok (.file m)) → j.upload = some u →
        ∃ row o, ((Sys.init d : System).run (Job.code H) evs).db.files.get u.fileId = some row ∧
          ((Sys.init d : System).run (Job.code H) evs).db.objects.get row.objectId = some o ∧
          o.plaintextSha256 = u.plaintextSha256 ∧ o.plaintextSize = u.plaintextSize := by
  constructor
  · exact (kept_run H (T := none) ⟨hd, by rintro _ ⟨⟩⟩ (by rintro _ _ _ _ ⟨⟩)).inv.converged
  · intro C hrec htrue hag
    have hkept := kept_run H (T := some C) ⟨hd, by rintro _ ⟨⟩; exact ⟨htrue, hrec⟩⟩
      (by rintro i j hj _ ⟨⟩; exact hag i j hj)
    refine ⟨(hkept.inv.truthful C rfl).1, fun i j u m hfin hu => ?_⟩
    have hpost := hkept.finished i j (.ok (.file m)) hfin (.file m) rfl
    have hrefers : m.fileId = u.fileId ∧ Refers (some C) u m.fileId
        ((Sys.init d : System).run (Job.code H) evs).db := by
      cases j with
      | publish u' =>
        cases hu
        exact hpost
      | recordS3 u' allowDuplicate =>
        cases hu
        exact hpost
      | claim c => cases hu
    obtain ⟨hid, row, o, hrow, ho, hsame⟩ := hrefers
    exact ⟨row, o, hid ▸ hrow, ho, hsame rfl⟩

def someHashes : Hashes := ⟨fun _ => 7, id⟩

/-- The digest of the content, of which the size is 3. -/
def someDigest : String := String.ofList (List.replicate 64 'a')

/-- Users seal one content differently. -/
def uploadBy (n : ℕ) : Upload :=
  ⟨n, n, .file, someDigest, 3, String.ofList (List.replicate 64 'b'), 35, ⟨0, toString n⟩, 1, 1⟩

def noTables : Tables := ⟨Table.empty, Table.empty⟩

lemma converged_noTables : Converged noTables := ⟨by rintro _ _ _ _ ⟨⟩, by rintro _ _ ⟨⟩⟩

def steps (i n nextval : ℕ) : List (Event Outside UploadError Job) :=
  List.replicate n (.step i ⟨nextval, true⟩)

/-- The second waits for the first to commit. -/
def bothUpload : List (Event Outside UploadError Job) :=
  [.start 0 (.publish (uploadBy 0)), .start 1 (.publish (uploadBy 1))] ++ steps 0 3 40 ++
    steps 1 3 41 ++ steps 0 20 40 ++ steps 1 20 41

theorem dedup_converges_for_two :
    (((Sys.init noTables : System).run (Job.code someHashes) bothUpload).db.files.get 1 =
      some ((uploadBy 1).reference 40)) ∧
    Converged ((Sys.init noTables : System).run (Job.code someHashes) bothUpload).db ∧
    Truthful ((Sys.init noTables : System).run (Job.code someHashes) bothUpload).db := by
  obtain ⟨hconv, htrue⟩ := dedup_converges someHashes noTables converged_noTables bothUpload
  refine ⟨by decide +kernel, hconv, ?_⟩
  refine (htrue ⟨fun _ => 3, fun _ => someDigest⟩ (by rintro _ _ ⟨⟩) (by rintro _ _ _ ⟨⟩) ?_).1
  intro i j hj
  have hjob : i = 0 ∧ j = .publish (uploadBy 0) ∨ i = 1 ∧ j = .publish (uploadBy 1) := by
    simpa [bothUpload, steps] using hj
  rcases hjob with ⟨-, rfl⟩ | ⟨-, rfl⟩
  · exact ⟨rfl, rfl⟩
  · exact ⟨rfl, rfl⟩

/-- A client declares 5 bytes, with the digest of a content of 3. -/
def wrongSize : Claim :=
  ⟨2, "token", some ⟨.claimExisting, 2, some someDigest, some 5, .file⟩, someDigest⟩

def uploadThenClaim : List (Event Outside UploadError Job) :=
  [.start 0 (.publish (uploadBy 0)), .start 1 (.claim wrongSize)] ++ steps 0 20 40 ++ steps 1 20 2

set_option maxRecDepth 20000 in
/-- The size that was declared is compared with nothing: the claim is granted. -/
theorem claim_of_wrong_size : Converged noTables ∧ Truthful noTables ∧
    ¬ Truthful ((Sys.init noTables : System).run (Job.code someHashes) uploadThenClaim).db := by
  refine ⟨converged_noTables, by rintro _ _ _ ⟨⟩, fun h => ?_⟩
  have hfile : ((Sys.init noTables : System).run (Job.code someHashes)
      uploadThenClaim).db.files.get 2 = some ⟨40, 2, .file, some "token", ⟨someDigest, some 5⟩⟩ :=
        by
    decide +kernel
  have hobject : ((Sys.init noTables : System).run (Job.code someHashes)
      uploadThenClaim).db.objects.get 40 = some (uploadBy 0).object := by
    decide +kernel
  have hsize : (uploadBy 0).object.plaintextSize = 5 := (h 2 _ _ hfile hobject).2 5 rfl
  revert hsize
  decide

end PrivChat.Dedup
