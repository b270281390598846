import PrivChat.Uploads.Completion

/-!
What every step of a completion keeps.

Committed objects are published with content that has passed verification, rows are committed once,
tombstones stand for committed rows, and the parts are there until there is a tombstone. A step
that writes into a body could spoil an object that is the same file; the steps that do so are those
that open the body anew and append to it.
-/

namespace PrivChat.Uploads

open Db

section Statement

variable (S : Server)

/-- The content has the digest of the object, and content with this digest has passed the
verification of that plaintext. -/
def Passed (o : ObjectRow) (content : Bytes) : Prop :=
  S.sha256Hex content = o.sealedSha256 ∧
    ∃ frozen checked, S.verifies frozen checked = true ∧ S.sha256Hex checked = o.sealedSha256 ∧
      frozen.plaintextSha256 = o.plaintextSha256 ∧ frozen.plaintextSize = o.plaintextSize

def Published (w : World) (o : ObjectRow) : Prop :=
  ∃ content, w.objectAt o.location = some content ∧ Passed S o content

abbrev Uploaded := SessionId → Name → Option Bytes

/-- The parts uploaded, and the sessions that have been told that they are complete. With `solo`
only that one session has requests. -/
structure Setting where
  parts : Uploaded
  told : SessionId → Prop
  solo : Option SessionId

structure Inv (c : Setting) (w : World) : Prop where
  stored : ∀ id o, w.db.objects.get id = some o → Published S w o
  fresh : ∀ l x, w.storage.get l = some x → x < w.nextInode
  bodies : ∀ i x, (w.sessions i).body = some x → x < w.nextInode
  ids : ∀ id, (w.db.objects.get id).isSome → id < w.db.nextObjectId
  linked : ∀ f row, w.db.files.get f = some row → (w.db.objects.get row.objectId).isSome
  once : ∀ i, w.db.committed.count (S.reserved i) =
    if (w.db.files.get (S.reserved i)).isSome then 1 else 0
  tombstone : ∀ i f, (w.sessions i).completed = some f →
    f = S.reserved i ∧ (w.db.files.get f).isSome
  kept : ∀ i n b, c.parts i n = some b → (w.sessions i).parts.bind (·.get n) = some b ∨
    (w.sessions i).completed.isSome
  known : ∀ i, c.told i → (w.db.files.get (S.reserved i)).isSome
  alone : ∀ i, c.solo = some i → ∀ id o x, w.db.objects.get id = some o →
    w.storage.get o.location = some x → (w.sessions i).body = some x →
    (w.db.files.get (S.reserved i)).isSome

end Statement

/-- The file is the object of a committed row. -/
def World.backs (w : World) (x : Inode) : Bool :=
  w.db.objects.any fun _ o => w.storage.get o.location == some x

/-- A body is not written into as long as it is the object of a committed row. -/
def careful (st : Step) (w : World) : Bool :=
  match st with
  | .disk i (.act .createBody) | .disk i (.act (.appendBody _)) =>
    (w.sessions i).body.all fun x => !w.backs x
  | _ => true

/-- Steps are careful, unless there is one session alone. -/
def Given (solo : Option SessionId) (st : Step) (_ : Turn) (w : World) : Prop :=
  solo = none → careful st w = true

section Steps

variable {o : Turn}

lemma execStep_state {st : Step} {w : World} {p : World → Prop}
    (hdone : p (st.perform o.copies w).2) (hleft : ∀ n, p (st.leftBy w n)) :
    p (execStep st o w).2 := by
  unfold execStep
  split
  · exact hdone
  · exact hleft _
  · exact hdone

variable {S : Server} {c : Setting} {w : World} {i : SessionId} {x : Inode}

lemma backs_iff : w.backs x = true ↔
    ∃ id o, w.db.objects.get id = some o ∧ w.storage.get o.location = some x := by
  simp [World.backs, Table.any_iff]

/-- Nothing that matters has changed but what is pending in the database. -/
structure Same (w w' : World) : Prop where
  sessions : w'.sessions = w.sessions
  contents : w'.contents = w.contents
  nextInode : w'.nextInode = w.nextInode
  storage : w'.storage = w.storage
  objects : w'.db.objects = w.db.objects
  files : w'.db.files = w.db.files
  committed : w'.db.committed = w.db.committed
  ids : w.db.nextObjectId ≤ w'.db.nextObjectId

variable {w' : World}

lemma Same.objectAt (h : Same w w') {l : Location} : w'.objectAt l = w.objectAt l := by
  rw [World.objectAt, World.objectAt, h.storage, h.contents]

lemma Inv.same (h : Inv S c w) (hs : Same w w') : Inv S c w' := by
  obtain ⟨sessions, contents, nextInode, storage, objects, files, nextObjectId, pending,
      committed⟩ := w'
  obtain ⟨rfl, rfl, rfl, rfl, rfl, rfl, rfl, hids⟩ := hs
  exact { h with ids := fun id hid => lt_of_lt_of_le (h.ids id hid) hids }

variable {db : Database}

lemma same_setDb (ho : db.objects = w.db.objects) (hf : db.files = w.db.files)
    (hc : db.committed = w.db.committed) (hn : w.db.nextObjectId ≤ db.nextObjectId) :
    Same w (w.setDb db) := ⟨rfl, rfl, rfl, rfl, ho, hf, hc, hn⟩

lemma same_perform {q : Sql} (hq : q ≠ .commit) {copies : Bool} :
    Same w (Step.perform copies w (.sql q)).2 := by
  change Same w (w.setDb (w.db.perform q).2)
  cases q with
  | commit => exact absurd rfl hq
  | getFile f => exact same_setDb rfl rfl rfl (le_refl _)
  | begin => exact same_setDb rfl rfl rfl (le_refl _)
  | setLockTimeout | lockContent sha | lockObject id | selectByPlaintext sha | selectObject id
  | selectByLocation l | getFileWithin f =>
    simp only [Database.perform, Database.within]
    split <;> exact same_setDb rfl rfl rfl (le_refl _)
  | insertObject o =>
    simp only [Database.perform, Database.within, Database.insertObject]
    repeat' split
    all_goals exact same_setDb rfl rfl rfl (by simp)
  | insertFile f row =>
    simp only [Database.perform, Database.within, Database.insertFile]
    repeat' split
    all_goals exact same_setDb rfl rfl rfl (by simp)

lemma same_execStep {q : Sql} (hq : q ≠ .commit) : Same w (execStep (.sql q) o w).2 :=
  execStep_state (same_perform hq) fun _ => same_setDb rfl rfl rfl (le_refl _)

/-! #### Bodies -/

variable (h : Inv S c w)

include h

/-- A file that is not the object of a committed row may get any content. -/
lemma Inv.write (hx : w.backs x = false) (b : Bytes) :
    Inv S c { w with contents := Function.update w.contents x b } := by
  refine { h with stored := fun id o ho => ?_ }
  obtain ⟨content, hat, hpassed⟩ := h.stored id o ho
  refine ⟨content, ?_, hpassed⟩
  obtain ⟨y, hy, rfl⟩ := Option.map_eq_some_iff.mp hat
  have hne : y ≠ x := by
    rintro rfl
    have hback : w.backs y = true := backs_iff.mpr ⟨id, o, ho, hy⟩
    rw [hx] at hback
    cases hback
  simp [World.objectAt, hy, hne]

/-- A directory changes: to a body that is not the object of a committed row, with a tombstone only
for a committed row, and without its parts only if there is a tombstone. -/
lemma Inv.setSession {s : SessionDir} (hbody : ∀ x, s.body = some x →
      (w.sessions i).body = some x ∨ x < w.nextInode ∧ w.backs x = false)
    (hcompleted : ∀ f, s.completed = some f → f = S.reserved i ∧ (w.db.files.get f).isSome)
    (hkept : ∀ n b, c.parts i n = some b → s.parts.bind (·.get n) = some b ∨ s.completed.isSome) :
    Inv S c (w.setSession i s) := by
  have hself : (w.setSession i s).sessions i = s := Function.update_self ..
  have hother : ∀ j, j ≠ i → (w.setSession i s).sessions j = w.sessions j := fun j hj =>
    Function.update_of_ne hj ..
  have hbody' : ∀ j x, ((w.setSession i s).sessions j).body = some x →
      (w.sessions j).body = some x ∨ x < w.nextInode ∧ w.backs x = false := by
    intro j x hx
    by_cases hj : j = i
    · subst hj
      rw [hself] at hx
      exact hbody x hx
    · rw [hother j hj] at hx
      exact Or.inl hx
  exact { h with
    bodies := fun j x hx => (hbody' j x hx).elim (h.bodies j x) fun hx' => hx'.1
    tombstone := fun j f hf => by
      by_cases hj : j = i
      · subst hj
        rw [hself] at hf
        exact hcompleted f hf
      · rw [hother j hj] at hf
        exact h.tombstone j f hf
    kept := fun j n b hb => by
      by_cases hj : j = i
      · subst hj
        rw [hself]
        exact hkept n b hb
      · rw [hother j hj]
        exact h.kept j n b hb
    alone := fun j hj id o x ho hx hb => by
      rcases hbody' j x hb with hb' | ⟨-, hb'⟩
      · exact h.alone j hj id o x ho hx hb'
      · have hback : w.backs x = true := backs_iff.mpr ⟨id, o, ho, hx⟩
        rw [hb'] at hback
        cases hback }

lemma Inv.setBody {x : Option Inode} (hx : ∀ y, x = some y → y < w.nextInode ∧ w.backs y = false) :
    Inv S c (w.setSession i { w.sessions i with body := x }) :=
  h.setSession (fun y hy => Or.inr (hx y hy)) (h.tombstone i) (h.kept i)

lemma Inv.grow : Inv S c { w with nextInode := w.nextInode + 1 } :=
  { h with
    fresh := fun l x hx => Nat.lt_succ_of_lt (h.fresh l x hx)
    bodies := fun j x hx => Nat.lt_succ_of_lt (h.bodies j x hx) }

lemma not_backs_next : w.backs w.nextInode = false := by
  rw [← Bool.not_eq_true, backs_iff]
  rintro ⟨id, o, -, hx⟩
  exact absurd (h.fresh _ _ hx) (lt_irrefl _)

lemma Inv.createBody (hc : ∀ x, (w.sessions i).body = some x → w.backs x = false) :
    Inv S c (w.createBody i) ∧ (w.createBody i).db = w.db := by
  unfold World.createBody
  cases hb : (w.sessions i).body with
  | some x => exact ⟨h.write (hc x hb) [], rfl⟩
  | none =>
    have hnext := not_backs_next h
    have hw := (h.write hnext []).grow
    refine ⟨hw.setBody ?_, rfl⟩
    rintro y ⟨⟩
    exact ⟨Nat.lt_succ_self _, hnext⟩

lemma Inv.appendBody (hc : ∀ x, (w.sessions i).body = some x → w.backs x = false) {b : Bytes} :
    Inv S c (w.appendBody i b) ∧ (w.appendBody i b).db = w.db := by
  unfold World.appendBody
  cases hb : (w.sessions i).body with
  | some x => exact ⟨h.write (hc x hb) _, rfl⟩
  | none => exact ⟨h, rfl⟩

lemma Inv.dropBody : Inv S c (w.dropBody i) :=
  h.setBody (by rintro y ⟨⟩)

/-- Operations on the body of a session, and those that only read. -/
def bodyOnly : Op → Prop
  | .readDir | .readFile _ => True
  | .act a => a = .createBody ∨ (∃ b, a = .appendBody b) ∨ a = .syncBody ∨ a = .removeBody

lemma Inv.setSession_self {s : SessionDir} (hs : s = w.sessions i) :
    Inv S c (w.setSession i s) := by
  rw [World.setSession, hs, Function.update_eq_self]
  exact h

variable {op : Op}

lemma Inv.disk (hop : bodyOnly op) (hc : careful (.disk i op) w = true) (o : Turn) :
    Inv S c (execStep (.disk i op) o w).2 ∧ (execStep (.disk i op) o w).2.db = w.db := by
  have hbody : (w.sessions i).body.all (fun x => !w.backs x) = true →
      ∀ x, (w.sessions i).body = some x → w.backs x = false := by
    intro hall x hx
    rw [hx] at hall
    simpa using hall
  refine execStep_state (p := fun w' => Inv S c w' ∧ w'.db = w.db) ?_ fun n => ?_
  · match op, hop with
    | .readDir, _ | .readFile n, _ => exact ⟨h, rfl⟩
    | .act _, .inl rfl => exact h.createBody (hbody hc)
    | .act _, .inr (.inl ⟨b, rfl⟩) => exact h.appendBody (hbody hc)
    | .act _, .inr (.inr (.inl rfl)) => exact ⟨h.setSession_self rfl, rfl⟩
    | .act _, .inr (.inr (.inr rfl)) =>
      change Inv S c (w.act i .removeBody).2 ∧ (w.act i .removeBody).2.db = _
      unfold World.act
      cases (w.sessions i).body with
      | none => exact ⟨h, rfl⟩
      | some x => exact ⟨h.dropBody, rfl⟩
  · match op, hop with
    | .readDir, _ | .readFile n, _ => exact ⟨h, rfl⟩
    | .act _, .inr (.inl ⟨b, rfl⟩) => exact h.appendBody (hbody hc)
    | .act _, .inl rfl | .act _, .inr (.inr (.inl rfl)) | .act _, .inr (.inr (.inr rfl)) =>
      exact ⟨h.setSession_self rfl, rfl⟩

/-- Before the row of the session is committed its steps are careful, if it is alone. -/
lemma careful_disk
    (hsolo : ∀ j, c.solo = some j → j = i) (hopen : w.db.files.get (S.reserved i) = none)
    (hgiven : Given c.solo (.disk i op) o w) : careful (.disk i op) w = true := by
  cases hs : c.solo with
  | none => exact hgiven hs
  | some j =>
    obtain rfl := hsolo j hs
    have hbody : (w.sessions j).body.all (fun x => !w.backs x) = true := by
      rw [Option.all_eq_true]
      intro x hx
      rw [Bool.not_eq_true', ← Bool.not_eq_true, backs_iff]
      rintro ⟨id, r, hr, hl⟩
      have hrow := h.alone j hs id r x hr hl hx
      rw [hopen] at hrow
      cases hrow
    unfold careful
    split
    · rename_i heq
      cases heq
      exact hbody
    · rename_i heq
      cases heq
      exact hbody
    · rfl

variable {l : Location}

lemma Inv.place (hl : w.storage.get l = none) (hx : x < w.nextInode) :
    Inv S c { w with storage := w.storage.put l x } := by
  -- the place of a committed object is not free
  have hne : ∀ id o, w.db.objects.get id = some o → o.location ≠ l := by
    rintro id o ho rfl
    obtain ⟨content, hat, -⟩ := h.stored id o ho
    rw [World.objectAt, hl] at hat
    cases hat
  exact { h with
    stored := fun id o ho => by
      obtain ⟨content, hat, hpassed⟩ := h.stored id o ho
      refine ⟨content, ?_, hpassed⟩
      simpa [World.objectAt, hne id o ho] using hat
    fresh := fun l' y hy => by
      by_cases hl' : l' = l
      · subst hl'
        rw [Table.get_put_self] at hy
        cases hy
        exact hx
      · rw [Table.get_put_of_ne _ hl'] at hy
        exact h.fresh l' y hy
    alone := fun j hj id o y ho hy hbody => by
      rw [Table.get_put_of_ne _ (hne id o ho)] at hy
      exact h.alone j hj id o y ho hy hbody }

variable {copies : Bool}

lemma Inv.publish : Inv S c (w.publish i l copies).2 := by
  unfold World.publish
  cases hb : (w.sessions i).body with
  | none => exact h
  | some x =>
    dsimp only
    split
    · exact h
    · rename_i hl
      rw [Option.not_isSome_iff_eq_none] at hl
      split
      · exact ((h.write (not_backs_next h) _).grow).place hl (Nat.lt_succ_self _)
      · exact h.place hl (h.bodies i x hb)

omit h in
lemma publish_ok {r : PublishOutcome} (hp : w.publish i l copies = (.ok r, w')) : w'.db = w.db ∧
    (r = .published → ∃ x, (w.sessions i).body = some x ∧ w'.objectAt l = some (w.contents x)) := by
  unfold World.publish at hp
  cases hb : (w.sessions i).body with
  | none =>
    rw [hb] at hp
    cases hp
  | some x =>
    rw [hb] at hp
    dsimp only at hp
    split at hp
    · cases hp
      exact ⟨rfl, nofun⟩
    · split at hp <;> cases hp <;> exact ⟨rfl, fun _ => ⟨x, rfl, by simp [World.objectAt]⟩⟩

/-! #### The commit -/

variable {t : Pending}

omit h in
lemma objects_commit {id : ObjectId} {o : ObjectRow} (ho : (db.commit t).objects.get id = some o) :
    db.objects.get id = some o ∨ t.object = some (id, o) := by
  unfold Database.commit at ho
  rcases t with ⟨_ | ⟨id', o'⟩, file⟩
  · exact Or.inl ho
  · by_cases hid : id = id'
    · subst hid
      simp only [Table.get_put_self, Option.some.injEq] at ho
      rw [ho]
      exact Or.inr rfl
    · simp only [Table.get_put_of_ne _ hid] at ho
      exact Or.inl ho

omit h in
lemma isSome_objects_commit {id : ObjectId}
    (hid : (db.objects.get id).isSome) : ((db.commit t).objects.get id).isSome := by
  unfold Database.commit
  cases t.object with
  | none => exact hid
  | some r => exact Table.isSome_get_put (Or.inr hid)

lemma Inv.commit {row : FileRow} (hsolo : ∀ j, c.solo = some j → j = i)
    (hopen : w.db.files.get (S.reserved i) = none) (hfile : t.file = some (S.reserved i, row))
    (hobject : ∀ id o, t.object = some (id, o) → id < w.db.nextObjectId ∧ Published S w o)
    (hrow : (w.db.objects.get row.objectId).isSome ∨ ∃ o, t.object = some (row.objectId, o)) :
    Inv S c (w.setDb (w.db.commit t)) := by
  have hfiles : (w.db.commit t).files = w.db.files.put (S.reserved i) row := by
    simp [Database.commit, hfile]
  have hcommitted : (w.db.commit t).committed = w.db.committed ++ [S.reserved i] := by
    simp [Database.commit, hfile]
  have hsome : ∀ f, (w.db.files.get f).isSome → ((w.db.commit t).files.get f).isSome := by
    intro f hf
    rw [hfiles]
    exact Table.isSome_get_put (Or.inr hf)
  exact { h with
    stored := fun id o ho => (objects_commit ho).elim (h.stored id o) fun ht => (hobject id o ht).2
    ids := fun id hid => by
      obtain ⟨o, ho⟩ := Option.isSome_iff_exists.mp hid
      rcases objects_commit ho with ho' | ht
      · exact h.ids id (by rw [ho']; rfl)
      · exact (hobject id o ht).1
    linked := fun f r hr => by
      change (w.db.commit t).files.get f = some r at hr
      rw [hfiles] at hr
      by_cases hf : f = S.reserved i
      · rw [hf, Table.get_put_self] at hr
        cases hr
        rcases hrow with hold | ⟨o, ho⟩
        · exact isSome_objects_commit hold
        · change ((w.db.commit t).objects.get row.objectId).isSome
          simp [Database.commit, ho]
      · rw [Table.get_put_of_ne _ hf] at hr
        exact isSome_objects_commit (h.linked f r hr)
    once := fun j => by
      change (w.db.commit t).committed.count _ = if ((w.db.commit t).files.get _).isSome then 1 else
        0
      rw [hcommitted, hfiles, List.count_append, h.once j]
      by_cases hj : j = i
      · rw [hj, hopen]
        simp
      · have hne : S.reserved j ≠ S.reserved i := fun hr => hj (S.reserved_injective hr)
        rw [Table.get_put_of_ne _ hne]
        simp [hne.symm]
    tombstone := fun j f hf => ⟨(h.tombstone j f hf).1, hsome f (h.tombstone j f hf).2⟩
    known := fun j hj => hsome _ (h.known j hj)
    alone := fun j hj id o x ho hx hb => by
      rw [hsolo j hj]
      change ((w.db.commit t).files.get _).isSome
      rw [hfiles, Table.get_put_self]
      rfl }

end Steps

end PrivChat.Uploads
