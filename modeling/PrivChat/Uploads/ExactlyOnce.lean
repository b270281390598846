import PrivChat.Uploads.Recovery

/-!
A chunked upload is completed exactly once, however often its completion is requested and wherever
the requests crash, as long as no body is written into that is the object of a committed row.

The lemmas follow the code: assembly, verification, the transaction with the publication inside it,
the tombstone. Each says that the invariant holds in every state on the way, and what else is known
where the code succeeds.
-/

namespace PrivChat.Uploads

open Db Tasks Ranges

/-! ### Rules for the steps of a request -/

/-- A request that keeps the invariant wherever it stops, with `F` where it succeeds. -/
abbrev Completes {α : Type} (S : Server) (c : Setting) (F : α → World → Prop) (t : Request α)
    (w : World) : Prop :=
  Gives execStep (Given c.solo) (Inv S c) F t w

section Rules

variable {S : Server} {c : Setting} {solo : Option SessionId} {w : World} {i : SessionId}
  {st : Step} {wrap : IoError → UploadError} {I : World → Prop}

lemma perform_of_execStep {o : Turn} {a : st.Answer} {w' : World}
    (h : execStep st o w = (.ok a, w')) : st.perform o.copies w = (.ok a, w') := by
  unfold execStep at h
  split at h
  · exact h
  · cases h
  · cases h

lemma gives_run {F : st.Answer → World → Prop} (hstep : ∀ o, I w → I (execStep st o w).2)
    (hok : ∀ copies a w', st.perform copies w = (.ok a, w') → F a w') :
    Gives execStep (Given solo) I F (st.run wrap) w := by
  refine fun hI => ⟨hI, fun o _ => ?_⟩
  have hI' := hstep o hI
  cases hr : execStep st o w with
  | mk r w' =>
    rw [hr] at hI'
    cases r with
    | ok a => exact gives_ret (hok _ a w' (perform_of_execStep hr)) hI'
    | error e => exact gives_fail hI'

lemma gives_quiet {F : World → Prop}
    (hstep : ∀ o, I w → I (execStep st o w).2 ∧ F (execStep st o w).2) :
    Gives execStep (Given solo) I (fun _ => F) st.quietly w :=
  fun hI => ⟨hI, fun o _ => gives_ret (hstep o hI).2 (hstep o hI).1⟩

/-- A step that changes nothing. -/
def Step.reads : Step → Prop
  | .disk _ .readDir | .disk _ (.readFile _) | .readCompleted _ | .readBody _ | .readObject _ =>
    True
  | _ => False

lemma step_reads (hst : st.reads) :
    (∀ copies, (st.perform copies w).2 = w) ∧ ∀ n, st.leftBy w n = w := by
  match st, hst with
  | .disk _ .readDir, _ | .disk _ (.readFile _), _ | .readCompleted _, _ | .readBody _, _
  | .readObject _, _ => exact ⟨fun _ => rfl, fun _ => rfl⟩

lemma gives_reads (hst : st.reads) :
    Gives execStep (Given solo) I (fun a w' => w' = w ∧ ∃ copies, (st.perform copies w).1 = .ok a)
      (st.run wrap) w := by
  obtain ⟨hdone, hleft⟩ := step_reads (w := w) hst
  refine gives_run (fun o hI => ?_) fun copies a w' hp => ⟨?_, copies, by rw [hp]⟩
  · exact execStep_state (by rwa [hdone]) fun n => by rwa [hleft]
  · rw [← hdone copies, hp]

variable {q : Sql}

lemma completes_statement (hq : q ≠ .commit) :
    Completes S c (fun a w' => w' = w.setDb w'.db ∧ w.db.perform q = (.ok a, w'.db) ∧ Same w w')
      ((Step.sql q).run wrap) w := by
  refine gives_run (fun o h => h.same (same_execStep hq)) fun copies a w' hp => ?_
  obtain rfl : (Step.perform copies w (.sql q)).2 = w' := by rw [hp]
  have ha : (w.db.perform q).1 = .ok a := congrArg Prod.fst hp
  exact ⟨rfl, Prod.ext ha rfl, same_perform hq⟩

/-- The statements of the transaction that only read, and its locks. -/
def Sql.reads : Sql → Prop
  | .begin | .insertObject _ | .insertFile _ _ | .commit => False
  | _ => True

lemma perform_reads (db : Database) (hq : q.reads) : (db.perform q).2 = db := by
  match q, hq with
  | .getFile _, _ => rfl
  | .setLockTimeout, _ | .lockContent _, _ | .lockObject _, _ | .selectByPlaintext _, _
  | .selectObject _, _ | .selectByLocation _, _ | .getFileWithin _, _ =>
    simp only [Database.perform, Database.within]
    split <;> rfl

lemma completes_query (hq : q.reads) :
    Completes S c (fun a w' => w' = w ∧ (w.db.perform q).1 = .ok a) ((Step.sql q).run wrap) w := by
  refine (completes_statement (by rintro rfl; exact hq)).mono ?_
  rintro a w' ⟨hw, hp, -⟩
  have hdb := perform_reads w.db hq
  rw [hp] at hdb ⊢
  exact ⟨hw.trans (congrArg w.setDb hdb), rfl⟩

lemma completes_dropStaging :
    Completes S c (fun _ w' => w'.db = w.db ∧ w'.objectAt = w.objectAt)
      (dropStaging i) w := by
  have hop : bodyOnly (.act .removeBody) := Or.inr (Or.inr (Or.inr rfl))
  refine gives_quiet fun o h => ⟨(h.disk hop rfl o).1, (h.disk hop rfl o).2, ?_⟩
  refine execStep_state (p := fun w' => w'.objectAt = w.objectAt) ?_ fun _ => rfl
  change (w.act i .removeBody).2.objectAt = _
  unfold World.act
  cases (w.sessions i).body <;> rfl

end Rules

/-! ### Assembly and verification -/

section Assembly

lemma only_concatParts (ps : List Range) (sofar : Bytes) :
    (concatParts sofar ps).Only bodyOnly := by
  induction ps generalizing sofar with
  | nil => trivial
  | cons p ps ih =>
    refine Prog.Only.bind ⟨trivial, ?_⟩ fun content => ?_
    · rintro (e | b) <;> trivial
    · refine Prog.Only.bind ⟨Or.inr (Or.inl ⟨content, rfl⟩), ?_⟩ fun _ => ih _
      rintro (e | b) <;> trivial

lemma only_concatSteps {ps : List Range} : (concatSteps ps).Only bodyOnly := by
  refine Prog.Only.bind ⟨Or.inl rfl, ?_⟩ fun _ => ?_
  · rintro (e | b) <;> trivial
  · refine (only_concatParts ps []).bind fun all => ?_
    refine Prog.Only.bind ⟨Or.inr (Or.inr (Or.inl rfl)), ?_⟩ fun _ => trivial
    rintro (e | b) <;> trivial

lemma only_scanParts : (scanParts AssembleError.io).Only bodyOnly := by
  refine ⟨trivial, fun r => ?_⟩
  match r with
  | .ok _ | .error .notFound | .error (.other _) => trivial
  | .error .alreadyExists => trivial

lemma only_assemble {sha256Hex : Bytes → String} {total : ℕ} :
    (assemble sha256Hex total).Only bodyOnly := by
  refine Prog.Only.bind (only_scanParts.bind fun _ => trivial) fun st => ?_
  split
  · trivial
  · split
    · trivial
    · refine only_scanParts.bind fun ps => only_concatSteps.attempt.bind fun r => ?_
      cases r with
      | ok all => trivial
      | error e => exact ⟨Or.inr (Or.inr (Or.inr rfl)), fun _ => trivial⟩

variable {S : Server} {c : Setting} {w : World} {i : SessionId}

lemma completes_assembleBody (hsolo : ∀ j, c.solo = some j → j = i)
    (hopen : w.db.files.get (S.reserved i) = none) :
    Completes S c (fun _ w' => w'.db.files.get (S.reserved i) = none)
      (assembleBody S i) w := by
  intro h
  have hwithin : Throughout execStep (Given c.solo)
      (fun w => Inv S c w ∧ w.db.files.get (S.reserved i) = none) (fun _ _ => True)
      (assembleBody S i) w := by
    refine throughout_within only_assemble ?_ w ⟨h, hopen⟩
    rintro op hop w' ⟨hw, hnone⟩
    refine ⟨⟨hw, hnone⟩, fun o ho => ?_⟩
    obtain ⟨hw', hdb⟩ := hw.disk hop (careful_disk hw hsolo hnone ho) o
    exact ⟨⟨hw', by rw [hdb, hnone]⟩, trivial⟩
  exact hwithin.mono (fun _ hw => hw.1) fun _ _ hw _ _ _ => hw.2

end Assembly

section Transaction

variable {S : Server} {c : Setting} {w : World} {i : SessionId} {content : Bytes}

structure Staged (S : Server) (i : SessionId) (content : Bytes) (w : World) : Prop where
  unrecorded : w.db.files.get (S.reserved i) = none
  body : ∃ x, (w.sessions i).body = some x ∧ w.contents x = content

lemma Staged.same {w' : World} (h : Staged S i content w) (hs : Same w w') :
    Staged S i content w' := by
  refine ⟨?_, ?_⟩
  · rw [hs.files]
    exact h.unrecorded
  · rw [hs.sessions, hs.contents]
    exact h.body

/-- Where the transaction has found the object, or put it. -/
def Placed (o : ObjectRow) (p : ResolvedPlacement) (db : Database) : Prop :=
  if p.duplicate then db.pending = some ⟨none, none⟩ ∧ (db.objects.get p.objectId).isSome
  else db.pending = some ⟨some (p.objectId, o), none⟩ ∧ p.objectId < db.nextObjectId

variable {o : ObjectRow}

lemma get_of_find {db : Database} {f : ObjectRow → Bool} {id : ObjectId}
    (h : db.find f = some (id, o)) : db.objects.get id = some o :=
  (Table.mem_select.mp (List.mem_of_mem_head? h)).1

lemma within_eq {α : Type} {db : Database} {t : Pending} {g : Pending → Except IoError α × Database}
    (h : db.pending = some t) : db.within g = g t := by
  rw [Database.within, h]

/-- The transaction has begun and changed nothing yet. -/
def Begun (S : Server) (i : SessionId) (content : Bytes) (w : World) : Prop :=
  Staged S i content w ∧ w.db.pending = some ⟨none, none⟩

lemma completes_registerObject (hw : Begun S i content w) :
    Completes S c (fun p w' => Staged S i content w' ∧ Placed o p w'.db)
      (registerObject o) w := by
  obtain ⟨hstaged, hpending⟩ := hw
  refine (completes_statement (by rintro ⟨⟩)).bind ?_
  rintro id w' ⟨-, hp, hs⟩
  have hstaged' := hstaged.same hs
  have hinsert : w.db.insertObject ⟨none, none⟩ o = (.ok id, w'.db) :=
    (within_eq hpending).symm.trans hp
  unfold Database.insertObject at hinsert
  split at hinsert
  · -- the place is taken by an object
    injection hinsert with hid hdb
    cases hid
    refine (completes_query (by trivial)).bind ?_
    rintro (_ | ⟨id, o'⟩) _ ⟨rfl, hr⟩
    · exact gives_fail
    · rw [← hdb] at hr
      have hfind := (congrArg Prod.fst (within_eq hpending)).symm.trans hr
      refine gives_ret ⟨hstaged', ?_⟩
      rw [← hdb]
      exact ⟨hpending, by rw [get_of_find (by injection hfind)]; rfl⟩
  · split at hinsert
    · injection hinsert with hid hdb
      cases hid
    · injection hinsert with hid hdb
      cases hid
      refine gives_ret ⟨hstaged', ?_⟩
      rw [← hdb]
      exact ⟨rfl, Nat.lt_succ_self _⟩

lemma completes_convergeUpload (hw : Begun S i content w) :
    Completes S c (fun p w' => Staged S i content w' ∧ Placed o p w'.db)
      (convergeUpload o) w := by
  refine (completes_query (by trivial)).bind ?_
  rintro _ _ ⟨rfl, -⟩
  refine (completes_query (by trivial)).bind ?_
  rintro _ _ ⟨rfl, -⟩
  refine (completes_query (by trivial)).bind ?_
  rintro (_ | ⟨id, o'⟩) _ ⟨rfl, -⟩
  · exact completes_registerObject hw
  · refine (completes_query (by trivial)).bind ?_
    rintro _ _ ⟨rfl, -⟩
    refine (completes_query (by trivial)).bind ?_
    rintro (_ | o'') _ ⟨rfl, hr⟩
    · exact completes_registerObject hw
    · have hget := (congrArg Prod.fst (within_eq hw.2)).symm.trans hr
      injection hget with hget
      exact gives_ret ⟨hw.1, hw.2, by rw [hget]; rfl⟩

structure Settled (S : Server) (i : SessionId) (o : ObjectRow) (p : ResolvedPlacement) (w : World) :
    Prop where
  unrecorded : w.db.files.get (S.reserved i) = none
  placed : Placed o p w.db
  published : p.duplicate = false → Published S w o

variable {written : ℕ}

lemma passed_objectOf {there : Bytes} (hv : S.verifies (S.manifest i).frozen content = true)
    (hthere : S.sha256Hex there = S.sha256Hex content) :
    Passed S (objectOf S i written content) there :=
  ⟨hthere, (S.manifest i).frozen, content, hv, rfl, rfl, rfl⟩

variable {p : ResolvedPlacement}

lemma completes_publishStaged {l : Location} (hstaged : Staged S i content w) :
    Completes S c
      (fun r w' => w'.db = w.db ∧ (r = .published → w'.objectAt l = some content))
      (publishStaged i l) w := by
  refine Gives.bind
    (F := fun r w' => w'.db = w.db ∧ (r = .published → w'.objectAt l = some content))
    (gives_run (fun o h => execStep_state h.publish fun _ => h) fun copies r w' hp => ?_) ?_
  · refine ⟨(publish_ok hp).1, fun hr => ?_⟩
    obtain ⟨x, hx, hat⟩ := (publish_ok hp).2 hr
    obtain ⟨y, hy, hcontent⟩ := hstaged.body
    rw [hx] at hy
    cases hy
    rw [hat, hcontent]
  · rintro (_ | _) w' hw
    · refine completes_dropStaging.bind ?_
      rintro _ w'' ⟨hdb, hat⟩
      refine gives_ret ?_
      rw [hdb, hat]
      exact hw
    · exact gives_ret hw

lemma completes_publishObject (hstaged : Staged S i content w)
    (hv : S.verifies (S.manifest i).frozen content = true)
    (hplaced : Placed (objectOf S i written content) p w.db) :
    Completes S c (fun _ => Settled S i (objectOf S i written content) p)
      (publishObject S i (objectOf S i written content)) w := by
  refine (completes_publishStaged hstaged).bind ?_
  rintro (_ | _) w' ⟨hdb, hat⟩
  · exact gives_ret ⟨by rw [hdb]; exact hstaged.unrecorded, by rw [hdb]; exact hplaced, fun _ =>
      ⟨content, hat rfl, passed_objectOf hv rfl⟩⟩
  · -- something is there already: it is used if it has the digest
    refine (gives_reads (by trivial)).bind ?_
    rintro there _ ⟨rfl, copies, hr⟩
    injection hr with hthere
    unfold ifSameObject
    split
    · rename_i hsame
      refine completes_dropStaging.mono ?_
      rintro _ w1 ⟨hdb1, hat1⟩
      cases there with
      | none => cases hsame
      | some b =>
        simp only [isSameObject, Bool.and_eq_true, beq_iff_eq] at hsame
        rw [← hdb1] at hdb
        refine ⟨by rw [hdb]; exact hstaged.unrecorded, by rw [hdb]; exact hplaced, fun _ =>
          ⟨b, ?_, passed_objectOf hv hsame.2⟩⟩
        rw [hat1]
        exact hthere
    · exact gives_fail

/-- The row of the session, and its object if it is a new one, are about to be committed. -/
def Recorded (S : Server) (i : SessionId) (w : World) : Prop :=
  w.db.files.get (S.reserved i) = none ∧ ∃ t row, w.db.pending = some t ∧
    t.file = some (S.reserved i, row) ∧
    (∀ id o, t.object = some (id, o) → id < w.db.nextObjectId ∧ Published S w o) ∧
    ((w.db.objects.get row.objectId).isSome ∨ ∃ o, t.object = some (row.objectId, o))

lemma completes_recordFile {o' : ObjectRow} {row : FileRow}
    (hw : Settled S i o p w) (hrow : row.objectId = p.objectId) :
    Completes S c (fun file w' => file.fileId = S.reserved i ∧ Recorded S i w')
      (recordFile (S.reserved i) row o') w := by
  -- the transaction has the object, or it is there
  obtain ⟨t, ht, hfile, hobject, hhas⟩ : ∃ t, w.db.pending = some t ∧ t.file = none ∧
      (∀ id o, t.object = some (id, o) → id < w.db.nextObjectId ∧ Published S w o) ∧
      ((w.db.objects.get row.objectId).isSome ∨ ∃ o, t.object = some (row.objectId, o)) := by
    have hplaced := hw.placed
    unfold Placed at hplaced
    rw [hrow]
    split at hplaced
    · exact ⟨_, hplaced.1, rfl, by rintro _ _ ⟨⟩, Or.inl hplaced.2⟩
    · rename_i hdup
      refine ⟨_, hplaced.1, rfl, ?_, Or.inr ⟨o, rfl⟩⟩
      rintro _ _ ⟨⟩
      exact ⟨hplaced.2, hw.published (by simpa using hdup)⟩
  refine (completes_statement (by rintro ⟨⟩)).bind ?_
  rintro r w' ⟨-, hp, hs⟩
  have hinsert : w.db.insertFile t (S.reserved i) row = (.ok r, w'.db) :=
    (within_eq ht).symm.trans hp
  unfold Database.insertFile at hinsert
  rw [hw.unrecorded] at hinsert
  simp only [Option.isSome_none, Bool.false_eq_true, if_false] at hinsert
  split at hinsert
  · injection hinsert with hr hdb
    cases hr
    have hpub : ∀ o, Published S w o → Published S w' o := by
      rintro o ⟨c, hc, hpassed⟩
      exact ⟨c, hs.objectAt.trans hc, hpassed⟩
    refine gives_ret ⟨rfl, ?_, { t with file := some (S.reserved i, row) }, row, ?_, rfl, ?_, ?_⟩
    · rw [hs.files]
      exact hw.unrecorded
    · rw [← hdb]
    · intro id o ho
      exact ⟨lt_of_lt_of_le (hobject id o ho).1 hs.ids, hpub o (hobject id o ho).2⟩
    · rw [hs.objects]
      exact hhas
  · injection hinsert with hr hdb
    cases hr

lemma completes_commit {wrap : IoError → UploadError} (hsolo : ∀ j, c.solo = some j → j = i)
    (hw : Recorded S i w) :
    Completes S c (fun _ w' => (w'.db.files.get (S.reserved i)).isSome)
      ((Step.sql .commit).run wrap) w := by
  obtain ⟨hnone, t, row, ht, hfile, hobject, hhas⟩ := hw
  have hdb : w.db.perform .commit = (.ok (), w.db.commit t) := within_eq ht
  have hsnd : ∀ copies, (Step.perform copies w (.sql .commit)).2 = w.setDb (w.db.commit t) := by
    intro copies
    change w.setDb (w.db.perform .commit).2 = _
    rw [hdb]
  refine gives_run (fun o h => execStep_state ?_ fun _ => ?_) fun copies a w' hp => ?_
  · rw [hsnd]
    exact h.commit hsolo hnone hfile hobject hhas
  · exact h.same (same_setDb rfl rfl rfl (le_refl _))
  · rw [show w' = w.setDb (w.db.commit t) by rw [← hsnd copies, hp]]
    change ((w.db.commit t).files.get (S.reserved i)).isSome
    simp [Database.commit, hfile]

variable {businessId : Option String}

lemma completes_recordAndCommit (hsolo : ∀ j, c.solo = some j → j = i)
    (hv : S.verifies (S.manifest i).frozen content = true) (hstaged : Staged S i content w)
    (hplaced : Placed (objectOf S i written content) p w.db) :
    Completes S c (fun file w' => file.fileId = S.reserved i ∧
        (w'.db.files.get (S.reserved i)).isSome)
      (recordAndCommit S i (objectOf S i written content) businessId p) w := by
  refine Gives.bind (F := fun _ => Settled S i (objectOf S i written content) p) ?_ ?_
  · unfold settleObject
    split
    · rename_i hdup
      refine completes_dropStaging.mono ?_
      rintro _ w' ⟨hdb, -⟩
      refine ⟨by rw [hdb]; exact hstaged.unrecorded, by rw [hdb]; exact hplaced, fun hnot => ?_⟩
      rw [hdup] at hnot
      cases hnot
    · exact completes_publishObject hstaged hv hplaced
  · intro _ w hw
    refine (completes_recordFile hw rfl).bind fun file w hw => ?_
    exact (completes_commit hsolo hw.2).bind fun _ w hrow => gives_ret ⟨hw.1, hrow⟩

lemma completes_commitChunkedUpload
    (hsolo : ∀ j, c.solo = some j → j = i) (hopen : w.db.files.get (S.reserved i) = none) :
    Completes S c (fun file w' => file.fileId = S.reserved i ∧
        (w'.db.files.get (S.reserved i)).isSome)
      (commitChunkedUpload S i written businessId) w := by
  refine (gives_reads (by trivial)).bind ?_
  rintro content w' ⟨hw, copies, hr⟩
  subst w'
  have hstaged : Staged S i content w := by
    refine ⟨hopen, ?_⟩
    change w.readBody i = .ok content at hr
    unfold World.readBody at hr
    split at hr
    · cases hr
    · rename_i x hb
      injection hr with hr
      exact ⟨x, hb, hr⟩
  unfold afterReadBody
  split
  · rename_i hv
    refine (completes_statement (by rintro ⟨⟩)).bind ?_
    rintro _ w' ⟨-, hp, hs⟩
    injection hp with _ hdb
    have hbegun : Begun S i content w' := ⟨hstaged.same hs, by rw [← hdb]⟩
    exact (completes_convergeUpload hbegun).bind fun p w hp =>
      completes_recordAndCommit hsolo hv hp.1 hp.2
  · exact gives_fail

end Transaction

/-! ### The tombstone -/

section Tombstone

variable {S : Server} {c : Setting} {w : World} {i : SessionId}

/-- The row of the session is committed. -/
def Done (S : Server) (i : SessionId) (w : World) : Prop :=
  (w.db.files.get (S.reserved i)).isSome

def InvDone (S : Server) (c : Setting) (i : SessionId) (w : World) : Prop := Inv S c w ∧ Done S i w

variable {f : FileId}

lemma perform_rename (hmark : (w.sessions i).completedTmp = some f) (copies : Bool) :
    Step.perform copies w (.completed i .rename) = (.ok (), w.setSession i
      { w.sessions i with completedTmp := none, completed := some f }) := by
  change w.completedAct i .rename = _
  unfold World.completedAct
  rw [hmark]
  rfl

lemma gives_writeCompleted : Gives execStep (Given c.solo) (InvDone S c i)
      (fun _ w' => (w'.sessions i).completed.isSome) (writeCompleted i (S.reserved i)) w := by
  have htmp : ∀ w tmp, Inv S c w → Inv S c
      (w.setSession i { w.sessions i with completedTmp := tmp }) := fun w tmp h =>
    h.setSession (fun _ hx => Or.inl hx) (h.tombstone i) (h.kept i)
  refine Gives.bind (F := fun _ w' => (w'.sessions i).completedTmp = some (S.reserved i))
    (gives_run (fun o h => ?_) ?_) fun _ w hmark => ?_
  · exact execStep_state ⟨htmp _ _ h.1, h.2⟩ fun _ => ⟨htmp _ _ h.1, h.2⟩
  · rintro copies a w' ⟨⟩
    simp [World.setSession]
  refine Gives.bind (F := fun _ w' => (w'.sessions i).completed.isSome)
    (gives_run (fun o h => execStep_state ?_ fun _ => h) fun copies a w' hp => ?_)
    fun _ w hmark => ?_
  · rw [perform_rename hmark]
    refine ⟨h.1.setSession (fun _ hx => Or.inl hx) ?_ fun _ _ _ => Or.inr rfl, h.2⟩
    rintro f ⟨⟩
    exact ⟨rfl, h.2⟩
  · rw [perform_rename hmark] at hp
    cases hp
    simp [World.setSession]
  · refine gives_run (fun o h => execStep_state h fun _ => h) ?_
    rintro copies a w' ⟨⟩
    exact hmark

lemma completes_writeCompleted (hdone : Done S i w) :
    Completes S c (fun r w' => Done S i w' ∧ ∀ a, r = .ok a →
      (w'.sessions i).completed.isSome) (writeCompleted i (S.reserved i)).attempt w := by
  intro h
  have hwritten : Throughout execStep (Given c.solo) (InvDone S c i)
      (fun r w' => ∀ x, r = .ok x → ∀ a, x = .ok a → (w'.sessions i).completed.isSome)
      (writeCompleted i (S.reserved i)).attempt w := gives_writeCompleted.attempt ⟨h, hdone⟩
  exact hwritten.mono (fun _ hw => hw.1) fun r w hw hr x hx => ⟨hw.2, hr x hx⟩

lemma completes_dropPayload (hdone : Done S i w) (hmark : (w.sessions i).completed.isSome) :
    Completes S c (fun _ => Done S i) (dropPayload i) w := by
  have hdrop : ∀ count, Inv S c w → Inv S c (w.dropParts i count) :=
    fun count h => h.setSession (fun _ hx => Or.inl hx) (h.tombstone i) fun _ _ _ => Or.inr hmark
  refine (gives_quiet (F := Done S i) fun o h => ?_).bind fun _ w hdone => ?_
  · exact execStep_state (p := fun w => Inv S c w ∧ Done S i w) ⟨hdrop none h, hdone⟩
      fun n => ⟨hdrop (some n) h, hdone⟩
  · refine completes_dropStaging.mono ?_
    rintro _ w' ⟨hdb, -⟩
    unfold Done
    rw [hdb]
    exact hdone

/-- What a success tells: the reserved file id, and its row is committed. -/
def Answered (S : Server) (i : SessionId) (file : FileMetadata) (w : World) : Prop :=
  file.fileId = S.reserved i ∧ Done S i w

variable {file : FileMetadata}

lemma completes_finish (hw : Answered S i file w) :
    Completes S c (Answered S i) (finish i file) w := by
  unfold finish
  rw [hw.1]
  refine (completes_writeCompleted hw.2).bind ?_
  rintro (e | a) w' ⟨hdone, hmark⟩
  · exact gives_ret ⟨hw.1, hdone⟩
  · exact (completes_dropPayload hdone (hmark a rfl)).bind fun _ w hdone =>
      gives_ret ⟨hw.1, hdone⟩

lemma get_of_metadata {db : Database}
    (h : db.metadata f = some file) : file.fileId = f ∧ (db.files.get f).isSome := by
  unfold Database.metadata at h
  cases hf : db.files.get f with
  | none =>
    rw [hf] at h
    cases h
  | some row =>
    rw [hf] at h
    cases ho : db.objects.get row.objectId with
    | none => simp [ho] at h
    | some o =>
      simp only [Option.bind_eq_bind, Option.bind_some, ho, Option.pure_def, Option.some.injEq] at h
      rw [← h]
      exact ⟨rfl, rfl⟩

lemma completes_getFileMetadata :
    Completes S c (fun r w' => w' = w ∧ r = w.db.metadata f)
      (getFileMetadata f) w := by
  refine (completes_query (by trivial)).mono ?_
  rintro r _ ⟨rfl, hr⟩
  injection hr with hr
  exact ⟨rfl, hr.symm⟩

lemma completes_completedResponse :
    Completes S c (Answered S i) (completedResponse S i (S.reserved i)) w := by
  refine completes_getFileMetadata.bind ?_
  rintro (_ | file) _ ⟨rfl, hr⟩
  · exact gives_fail
  · change Completes S c _ (if manifestMatches S i file then _ else _) _
    split
    · exact gives_ret (get_of_metadata hr.symm)
    · exact gives_fail

lemma completes_recoverCompleted (hdone : Done S i w) :
    Completes S c (Answered S i) (recoverCompleted S i file) w := by
  unfold recoverCompleted
  split
  · have hwritten : Completes S c
        (fun _ w' => Done S i w' ∧ (w'.sessions i).completed.isSome)
        (writeCompleted i (S.reserved i)) w := fun h =>
      (gives_writeCompleted ⟨h, hdone⟩).mono (fun _ hw => hw.1) fun r w hw hr a ha =>
        ⟨hw.2, hr a ha⟩
    refine hwritten.bind fun _ w hw => (completes_dropPayload hw.1 hw.2).bind fun _ w _ => ?_
    exact completes_completedResponse
  · exact gives_fail

variable {businessId : Option String}

lemma completes_completeAnew (hsolo : ∀ j, c.solo = some j → j = i)
    (hopen : w.db.files.get (S.reserved i) = none) :
    Completes S c (Answered S i) (completeAnew S i businessId) w := by
  unfold completeAnew
  split
  · refine (completes_assembleBody hsolo hopen).bind fun assembled w hopen => ?_
    exact (completes_commitChunkedUpload hsolo hopen).bind fun file w hw => completes_finish hw
  · exact gives_fail

lemma completes_completeUpload (hsolo : ∀ j, c.solo = some j → j = i) :
    Completes S c (Answered S i) (completeUpload S i businessId) w := by
  intro h
  refine (gives_reads (by trivial)).bind ?_ h
  rintro (_ | f) _ ⟨rfl, copies, hmark⟩
  · refine completes_getFileMetadata.bind ?_
    rintro (_ | file) _ ⟨rfl, hr⟩
    · refine completes_completeAnew hsolo ?_
      -- the row would have its object, so that it would be found
      by_contra hne
      obtain ⟨row, hrow⟩ := Option.ne_none_iff_exists'.mp hne
      obtain ⟨o, ho⟩ := Option.isSome_iff_exists.mp (h.linked _ row hrow)
      simp [Database.metadata, hrow, ho] at hr
    · exact completes_recoverCompleted (get_of_metadata hr.symm).2
  · injection hmark with hmark
    rw [(h.tombstone i f hmark).1]
    exact completes_completedResponse

end Tombstone

/-! ### Any requests -/

section Requests

/-- A request names its session. -/
abbrev Job := SessionId × Option String

abbrev Answers := List (Job × Option (Except UploadError FileMetadata))

def request (S : Server) (job : Job) : Request FileMetadata := completeUpload S job.1 job.2

def partsIn (w : World) : Uploaded := fun i n => (w.sessions i).parts.bind (·.get n)

/-- A state before the sessions are completed. There may be other files and objects. -/
structure Before (S : Server) (w : World) : Prop where
  stored : ∀ id o, w.db.objects.get id = some o → Published S w o
  fresh : ∀ l x, w.storage.get l = some x → x < w.nextInode
  ids : ∀ id, (w.db.objects.get id).isSome → id < w.db.nextObjectId
  linked : ∀ f row, w.db.files.get f = some row → (w.db.objects.get row.objectId).isSome
  unrecorded : ∀ i, w.db.files.get (S.reserved i) = none
  uncommitted : ∀ i, S.reserved i ∉ w.db.committed
  unassembled : ∀ i, (w.sessions i).body = none
  unmarked : ∀ i, (w.sessions i).completed = none

structure ExactlyOnce (S : Server) (before : World) (x : Answers × World) : Prop where
  once : ∀ i, x.2.db.committed.count (S.reserved i) ≤ 1
  answered : ∀ job file, (job, some (.ok file)) ∈ x.1 → file.fileId = S.reserved job.1 ∧
    (x.2.db.files.get (S.reserved job.1)).isSome
  pointed : ∀ i row, x.2.db.files.get (S.reserved i) = some row →
    ∃ o, x.2.db.objects.get row.objectId = some o ∧ Published S x.2 o
  tombstone : ∀ i f, (x.2.sessions i).completed = some f →
    f = S.reserved i ∧ (x.2.db.files.get f).isSome
  kept : ∀ i n b, partsIn before i n = some b → partsIn x.2 i n = some b ∨
    (x.2.sessions i).completed.isSome

variable {S : Server} {before : World} {solo : Option SessionId}

/-- The sessions that have been told of their success. -/
def ToldIn (log : Answers) (i : SessionId) : Prop :=
  ∃ job file, (job, some (.ok file)) ∈ log ∧ job.1 = i

structure Holds (S : Server) (before : World) (solo : Option SessionId) (log : Answers) (w : World)
    :
    Prop where
  inv : Inv S ⟨partsIn before, ToldIn log, solo⟩ w
  answered : ∀ job file, (job, some (.ok file)) ∈ log → file.fileId = S.reserved job.1

variable {w : World}

lemma Inv.told_mono {c : Setting} {told : SessionId → Prop} (h : Inv S c w)
    (ht : ∀ i, told i → (w.db.files.get (S.reserved i)).isSome) : Inv S { c with told } w :=
  { h with known := ht }

lemma Holds.snoc {log : Answers} {w' : World} {job : Job}
    {a : Option (Except UploadError FileMetadata)} (h : Holds S before solo log w)
    (hw : Inv S ⟨partsIn before, ToldIn log, solo⟩ w')
    (ha : ∀ file, a = some (.ok file) → Answered S job.1 file w') :
    Holds S before solo (log ++ [(job, a)]) w' := by
  have hlast : ∀ job' file, (job', some (.ok file)) ∈ log ++ [(job, a)] →
      (job', some (.ok file)) ∈ log ∨ job' = job ∧ Answered S job.1 file w' := by
    intro job' file hmem
    rcases List.mem_append.mp hmem with hold | hnew
    · exact Or.inl hold
    · obtain ⟨rfl, ha'⟩ := Prod.mk.inj (List.mem_singleton.mp hnew)
      exact Or.inr ⟨rfl, ha file ha'.symm⟩
  refine ⟨hw.told_mono ?_, ?_⟩
  · rintro i ⟨job', file, hmem, rfl⟩
    rcases hlast job' file hmem with hold | ⟨rfl, hnew⟩
    · exact hw.known job'.1 ⟨job', file, hold, rfl⟩
    · exact hnew.2
  · intro job' file hmem
    rcases hlast job' file hmem with hold | ⟨rfl, hnew⟩
    · exact h.answered job' file hold
    · exact hnew.1

lemma holds_before (h : Before S before) : Holds S before solo [] before where
  inv := {
    stored := h.stored
    fresh := h.fresh
    bodies := fun i x hx => by
      rw [h.unassembled i] at hx
      cases hx
    ids := h.ids
    linked := h.linked
    once := fun i => by
      rw [h.unrecorded i, List.count_eq_zero.mpr (h.uncommitted i)]
      rfl
    tombstone := fun i f hf => by
      rw [h.unmarked i] at hf
      cases hf
    kept := fun i n b hb => Or.inl hb
    known := by
      rintro i ⟨job, file, hmem, -⟩
      cases hmem
    alone := fun i _ id o x _ _ hx => by
      rw [h.unassembled i] at hx
      cases hx }
  answered job file hmem := by cases hmem

lemma Holds.exactlyOnce {log : Answers} (h : Holds S before solo log w) :
    ExactlyOnce S before (log, w) where
  once i := by
    rw [h.inv.once i]
    split <;> omega
  answered job file hmem := ⟨h.answered job file hmem, h.inv.known job.1 ⟨job, file, hmem, rfl⟩⟩
  pointed i row hrow := by
    obtain ⟨o, ho⟩ := Option.isSome_iff_exists.mp (h.inv.linked _ row hrow)
    exact ⟨o, ho, h.inv.stored _ o ho⟩
  tombstone := h.inv.tombstone
  kept := h.inv.kept

lemma holds_serve (h : Before S before) {calls : List (Job × List Turn)}
    (hsolo : ∀ i, solo = some i → ∀ c ∈ calls, c.1.1 = i)
    (hcalls : ServesGiven execStep (Given solo) (request S) calls before) :
    Holds S before solo (serve execStep (request S) calls ([], before)).1
      (serve execStep (request S) calls ([], before)).2 := by
  refine serve_keeps (fun log c hc w hw => ?_) hcalls (holds_before h)
  have hc' : ∀ j, solo = some j → j = c.1.1 := fun j hj => (hsolo j hj c hc).symm
  refine (completes_completeUpload hc' hw.inv).mono ?_ ?_
  · exact fun w' hw' => hw.snoc hw' (by rintro file ⟨⟩)
  · intro r w' hw' hr
    refine hw.snoc hw' ?_
    rintro file ⟨⟩
    exact hr file rfl

/-- **Completion is exactly once across crashes, as long as no body is written into that is the
object of a committed row.** Any requests come for any sessions, each crashes anywhere or goes
through, and any of its steps may fail or do its work without an answer. If the requests are all for
one session it needs no condition. -/
theorem completion_exactly_once (S : Server) (before : World) (h : Before S before)
    (calls : List (Job × List Turn)) :
    (ServesGiven execStep (fun st _ w => careful st w = true) (request S) calls before →
      ExactlyOnce S before (serve execStep (request S) calls ([], before))) ∧
    ∀ i, (∀ c ∈ calls, c.1.1 = i) →
      ExactlyOnce S before (serve execStep (request S) calls ([], before)) := by
  constructor
  · intro hcalls
    have hgiven : ServesGiven execStep (Given none) (request S) calls before :=
      hcalls.mono fun _ _ _ hc _ => hc
    exact (holds_serve h (by rintro i ⟨⟩) hgiven).exactlyOnce
  · intro i hi
    have hgiven : ServesGiven execStep (Given (some i)) (request S) calls before :=
      (servesGiven_true (request S) before).mono (by rintro _ _ _ - ⟨⟩)
    refine (holds_serve h ?_ hgiven).exactlyOnce
    rintro j ⟨⟩
    exact hi

/-- The sessions differ in who uploads. -/
def twoUploads : Server where
  sha256Hex b := if b = [1, 2, 3] then "5e" else "e3"
  verifies _ b := b == [1, 2, 3]
  hasKey _ := true
  storageSourceId := 0
  manifest i := ⟨i, 3, "0a", 3, 1, 1, 65536, .file, "message", "a.bin", i⟩
  reserved_injective _ _ h := h

def twoUploaded : World where
  sessions _ := ⟨some (Table.empty.put (partName ⟨0, 3⟩) [1, 2, 3]), none, none, none⟩
  contents _ := []
  nextInode := 0
  storage := Table.empty
  db := ⟨Table.empty, Table.empty, 0, none, []⟩

lemma before_twoUploaded : Before twoUploads twoUploaded where
  stored _ _ h := by cases h
  fresh _ _ h := by cases h
  ids _ h := by cases h
  linked _ _ h := by cases h
  unrecorded _ := rfl
  uncommitted _ h := by cases h
  unassembled _ := rfl
  unmarked _ := rfl

/-- Nothing goes wrong for so many steps. -/
def steps (n : ℕ) : List Turn := List.replicate n ⟨.none, false⟩

/-- The first crashes with its row committed and is repeated, after the second has been completed.
-/
def bothComplete : List (Job × List Turn) :=
  [((0, none), steps 18), ((1, none), steps 40), ((0, none), steps 40)]

theorem completion_repeated :
    (serve execStep (request twoUploads) bothComplete ([], twoUploaded)).1.map
        (fun e => (e.1.1, e.2.map fun r => r.toOption.map (·.fileId))) =
      [(0, none), (1, some (some 1)), (0, some (some 0))] ∧ ExactlyOnce twoUploads twoUploaded
      (serve execStep (request twoUploads) bothComplete ([], twoUploaded)) :=
  ⟨by decide +kernel, (completion_exactly_once twoUploads twoUploaded before_twoUploaded
    bothComplete).1 (by decide +kernel)⟩

/-- The first crashes when its body has been linked to the place of the object but is still there.
The second finds the object there and is completed. Then the first opens its body anew, and crashes
again. -/
def crashedAfterLink : List (Job × List Turn) :=
  [((0, none), steps 15), ((1, none), steps 40), ((0, none), steps 5)]

/-- The object of the file of the second session is empty then. -/
theorem committed_object_truncated :
    Before twoUploads twoUploaded ∧ ¬ ExactlyOnce twoUploads twoUploaded
      (serve execStep (request twoUploads) crashedAfterLink ([], twoUploaded)) := by
  refine ⟨before_twoUploaded, fun h => ?_⟩
  have hrow : (serve execStep (request twoUploads) crashedAfterLink
    ([], twoUploaded)).2.db.files.get
      (twoUploads.reserved 1) = some (rowOf twoUploads 1 1 none) := by decide +kernel
  obtain ⟨o, ho, content, hat, hsha, -⟩ := h.pointed 1 _ hrow
  have hobject : (serve execStep (request twoUploads) crashedAfterLink
      ([], twoUploaded)).2.db.objects.get 1 = some (objectOf twoUploads 1 3 [1, 2, 3]) := by
    decide +kernel
  have hempty : (serve execStep (request twoUploads) crashedAfterLink ([], twoUploaded)).2.objectAt
      (objectOf twoUploads 1 3 [1, 2, 3]).location = some [] := by decide +kernel
  cases hobject.symm.trans ho
  cases hempty.symm.trans hat
  revert hsha
  decide

end Requests

end PrivChat.Uploads
