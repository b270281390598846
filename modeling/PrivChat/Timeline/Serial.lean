import PrivChat.Timeline.Commit
import PrivChat.Db.Locking
import PrivChat.Db.Answers

/-!
The two transactions keep to two-phase locking, so that in every run of them, however
interleaved, each commit is one of those that `Committed` lists.
-/

namespace PrivChat.Timeline

open PrivChat.Db Tx

/-- What each lock guards. The log of a channel goes with the channel's number. -/
def timelineGuards : Guards LockKey Db where
  part
    | .dedup k => .ker (·.dedup k)
    | .pts c => .ker fun d => (d.pts c, d.log c)
    | .message id t => .ker (·.hasMessage id t)
    | .upload f => .ker (·.uploads f)
    | .fileRef k => .ker (·.fileRefs k)
    | .channel c => .ker (·.channels c)
    | .registry k => .ker (·.registry k)

lemma hasCommit_eq (d : Db) (c : ChannelId) (n : ℕ) :
    d.hasCommit c n = (d.log c).any (·.pts == n) := by
  simp [Db.hasCommit, Db.log, List.any_filter]

/-! ### Writes -/

lemma under_dedupDb {key : String} {row : DedupRow} :
    timelineGuards.Under (.dedup key) (dedupDb key row) := by
  refine .of_update (fun _ => some row) rfl (fun _ => Function.update_self ..) fun k d hk => ?_
  cases k with
  | dedup k' => exact Function.update_of_ne (fun h => hk (congrArg LockKey.dedup h)) _ _
  | _ => rfl

lemma under_ptsDb {c : ChannelId} {n : ℕ} : timelineGuards.Under (.pts c) (ptsDb c n) := by
  refine .of_update (fun l => (some n, l.2)) rfl (fun _ => by simp [ptsDb, Db.log]) fun k d hk => ?_
  cases k with
  | pts c' =>
    exact Prod.ext (Function.update_of_ne (fun h => hk (congrArg LockKey.pts h)) _ _) rfl
  | _ => rfl

lemma under_messageDb {row : Message} :
    timelineGuards.Under (.message row.messageId row.createdAt) (messageDb row) := by
  refine .of_update (fun _ => true) rfl (fun _ => by simp [messageDb, Db.hasMessage])
    fun k d hk => ?_
  cases k with
  | message id t =>
    have hne : row.messageId = id → row.createdAt ≠ t := by
      rintro rfl rfl
      exact hk rfl
    show (messageDb row d).hasMessage id t = d.hasMessage id t
    simpa [messageDb, Db.hasMessage] using fun h1 h2 => absurd h2 (hne h1)
  | _ => rfl

lemma under_uploadDb {f : FileId} {m : Message} :
    timelineGuards.Under (.upload f) (uploadDb f m) := by
  refine .of_update _ rfl (fun _ => Function.update_self ..) fun k d hk => ?_
  cases k with
  | upload f' => exact Function.update_of_ne (fun h => hk (congrArg LockKey.upload h)) _ _
  | _ => rfl

lemma under_fileRefDb {m : Message} {ref : MediaRef} :
    timelineGuards.Under (.fileRef (ref.key m)) (fileRefDb m ref) := by
  refine .of_update (fun r => some (r.getD _)) rfl (fun _ => Function.update_self ..)
    fun k d hk => ?_
  cases k with
  | fileRef k' => exact Function.update_of_ne (fun h => hk (congrArg LockKey.fileRef h)) _ _
  | _ => rfl

lemma under_headDb {c : ChannelId} {pts : ℕ} {id : MessageId} :
    timelineGuards.Under (.channel c) (headDb c pts id) := by
  refine .of_update (Option.map _) rfl (fun _ => Function.update_self ..) fun k d hk => ?_
  cases k with
  | channel c' => exact Function.update_of_ne (fun h => hk (congrArg LockKey.channel h)) _ _
  | _ => rfl

lemma under_commitDb {row : CommitRow} :
    timelineGuards.Under (.pts row.channelId) (commitDb row) := by
  refine .of_update (fun l => (l.1, l.2 ++ [row])) rfl (fun _ => by simp [Db.log, commitDb])
    fun k d hk => ?_
  cases k with
  | pts c' =>
    have hne : row.channelId ≠ c' := fun h => hk (h ▸ rfl)
    exact Prod.ext rfl (by simp [Db.log, commitDb, hne])
  | _ => rfl

/-- The rows of the outbox are guarded by no lock: nothing reads them here. -/
lemma under_outboxDb (k : LockKey) (row : OutboxRow) : timelineGuards.Under k (outboxDb row) := by
  refine .of_none fun k' d => ?_
  cases k' <;> rfl

lemma under_recipientsDb (k : LockKey) {eventId : ℕ} {users : List UserId} {now : Millis} :
    timelineGuards.Under k (recipientsDb eventId users now) := by
  refine .of_none fun k' d => ?_
  cases k' <;> rfl

lemma under_registryDb {key : RegistryKey} {row : RegistryRow} :
    timelineGuards.Under (.registry key) (registryDb key row) := by
  refine .of_update (fun _ => some row) rfl (fun _ => Function.update_self ..) fun k d hk => ?_
  cases k with
  | registry k' => exact Function.update_of_ne (fun h => hk (congrArg LockKey.registry h)) _ _
  | _ => rfl

/-! ### Statements -/

section Statements

variable {β : Type} {Q : β → List LockKey → Prop} {h : List LockKey} {pr : Protocol}

/-- Code under the locks, and more code after it with no fewer locks. -/
abbrev Safe (Q : β → List LockKey → Prop) (t : TimelineTx β) (h : List LockKey) : Prop :=
  Locked timelineGuards Q t h

variable {c : ChannelId}

lemma safe_allocatePts {g : ℕ → TimelineTx β}
    (hg : ∀ n, Safe Q (g n) (.pts c :: h)) : Safe Q (allocatePts c >>= g) h := by
  simp only [allocatePts, bind_assoc, locked_acquire]
  refine locked_query (fun d d' hd => ?_) fun n => locked_update under_ptsDb (by simp) (hg n)
  obtain ⟨hpts, -⟩ := Prod.mk.inj (hd (.pts c) (by simp))
  simp only [Db.nextPts, hpts]

variable {m : Message} {g : Unit → TimelineTx β}

lemma safe_insertMessage (hg : Safe Q (g ()) (.message m.messageId m.createdAt :: h)) :
    Safe Q (insertMessage pr m >>= g) h := by
  simp only [insertMessage, bind_assoc, locked_acquire]
  refine locked_query (fun d d' hd => hd (.message _ _) (by simp)) fun used => ?_
  rw [locked_ensure]
  exact fun _ => locked_update under_messageDb (by simp [Protocol.messageRow]) hg

lemma safe_bindAttachments {l : List FileId} (hg : ∀ h', h ⊆ h' → Safe Q (g ()) h') :
    Safe Q (forEach (bindAttachment m) l >>= g) h := by
  refine locked_forEach (fun f h' _ => ?_) hg
  refine locked_query (fun d d' hd => ?_) fun bindable => ?_
  · have hf : d'.uploads f = d.uploads f := hd (.upload f) (by simp)
    rw [hf]
  rw [locked_ensure]
  exact fun _ => locked_update under_uploadDb (by simp) (List.subset_cons_self _ _)

lemma safe_recordMediaRefs {l : List MediaRef} (hg : ∀ h', h ⊆ h' → Safe Q (g ()) h') :
    Safe Q (forEach (recordMediaRef m) l >>= g) h := by
  refine locked_forEach (fun ref h' _ => ?_) hg
  exact locked_update under_fileRefDb (by simp) (List.subset_cons_self _ _)

lemma safe_insertCommit {failure : String} {row : ℕ → CommitRow} {g : ℕ → TimelineTx β}
    (hrow : ∀ id, (row id).channelId = c) (hc : .pts c ∈ h)
    (hg : ∀ id, Safe Q (g id) h) : Safe Q (insertCommit failure row >>= g) h := by
  simp only [insertCommit, bind_assoc, locked_observe]
  intro o
  refine locked_query (fun d d' hd => ?_) fun used => ?_
  · rw [hasCommit_eq, hasCommit_eq, hrow, (Prod.mk.inj (hd (.pts c) hc)).2]
  rw [locked_ensure]
  exact fun _ => locked_update under_commitDb (hrow _ ▸ hc) (hg _)

lemma safe_createDispatchSnapshotInTx {eventId : ℕ} {wire : ℤ} {pts : ℕ} {sender : UserId}
    {kind : ℕ} {now : Millis} (hg : Safe Q (g ()) (.channel c :: h)) :
    Safe Q (createDispatchSnapshotInTx eventId c wire pts sender kind now >>= g) h := by
  simp only [createDispatchSnapshotInTx, bind_assoc, locked_acquire]
  refine locked_query (fun d d' hd => hd (.channel c) (by simp)) fun row => ?_
  simp only [locked_orFail, locked_ensure]
  intro channel _ ty _ _
  refine locked_update (under_outboxDb (.channel c) _) (by simp) fun o => ?_
  refine locked_update (under_recipientsDb (.channel c)) (by simp) ?_
  rw [locked_ensure]
  exact fun _ => hg

variable {g : Bool → TimelineTx β}

lemma safe_claimDedup {key : Option String}
    (hg : ∀ b h', h ⊆ h' → Safe Q (g b) h') : Safe Q (claimDedup m key >>= g) h := by
  cases key with
  | none => exact hg true h (List.Subset.refl h)
  | some key =>
    simp only [claimDedup, bind_assoc, locked_acquire]
    refine locked_query (fun d d' hd => hd (.dedup key) (by simp)) fun row => ?_
    split
    · exact hg false _ (List.subset_cons_self _ _)
    · rw [bind_assoc]
      exact locked_update under_dedupDb (by simp) (hg true _ (List.subset_cons_self _ _))

lemma safe_claimRegistry {row : RegistryRow} {key : Option RegistryKey}
    (hg : ∀ b h', h ⊆ h' → Safe Q (g b) h') : Safe Q (claimRegistry row key >>= g) h := by
  cases key with
  | none => exact hg true h (List.Subset.refl h)
  | some key =>
    simp only [claimRegistry, bind_assoc, locked_acquire]
    refine locked_query (fun d d' hd => hd (.registry key) (by simp)) fun taken => ?_
    split
    · exact hg false _ (List.subset_cons_self _ _)
    · rw [bind_assoc]
      exact locked_update under_registryDb (by simp) (hg true _ (List.subset_cons_self _ _))

lemma safe_liftExcept {α : Type} {x : Except String α} {g : α → TimelineTx β}
    (hg : ∀ a, Safe Q (g a) h) : Safe Q (liftExcept x >>= g) h := by
  cases x with
  | ok a => exact hg a
  | error e => trivial

end Statements

variable {pr : Protocol}

abbrev Final : Answer → List LockKey → Prop := fun _ _ => True

lemma safe_answerExisting {e : DatabaseError} {existing : Option Message} {h : List LockKey} :
    Safe Final (answerExisting e existing) h := by
  cases existing <;> trivial

lemma safe_lookup (r : AtomicMessageCommitRequest) : Safe Final (lookup r) [] := by
  rw [lookup_eq]
  exact fun d => safe_answerExisting

lemma safe_commitMessage {r : AtomicMessageCommitRequest} {legacy : String × String}
    {canonical : List UInt8} {h : List LockKey} :
    Safe Final (pr.commitMessage r legacy canonical >>= fun a => .ret (.message a)) h := by
  simp only [Protocol.commitMessage, bind_assoc, locked_observe]
  intro o
  refine safe_allocatePts fun n => safe_insertMessage (safe_bindAttachments fun h1 hs1 => ?_)
  refine safe_recordMediaRefs fun h2 hs2 => ?_
  refine locked_update under_headDb (by simp) ?_
  have hpts : .pts r.message.channelId ∈ h2 := hs2 (hs1 (by simp))
  refine safe_insertCommit (fun _ => rfl) (List.mem_cons_of_mem _ hpts) fun id => ?_
  refine safe_createDispatchSnapshotInTx (safe_claimRegistry fun b h' _ => ?_)
  cases b with
  | true => trivial
  | false => exact safe_lookup r

/-- **The jobs keep to two-phase locking.** -/
theorem safe_prog (j : Job) : Safe Final (pr.prog j) [] := by
  cases j with
  | createMessage r =>
    simp only [Protocol.prog, Protocol.createMessageAndCommitAtomic, bind_assoc, locked_ensure,
      locked_orFail]
    intro _ ty _ _
    refine safe_liftExcept fun x => safe_claimDedup fun b h' _ => ?_
    cases b with
    | true => exact safe_commitMessage
    | false =>
      simp only [Bool.false_eq_true, if_false, bind_assoc]
      exact locked_peek fun existing => safe_answerExisting
  | appendEvent r =>
    simp only [Protocol.prog, Protocol.appendTimelineEventAtomic, bind_assoc]
    refine safe_liftExcept fun x o => safe_allocatePts fun n => ?_
    refine safe_insertCommit (fun _ => rfl) (by simp) fun id => ?_
    exact safe_createDispatchSnapshotInTx trivial

abbrev TimelineSys := Sys Db LockKey World DatabaseError Answer Job
abbrev TimelineEvent := Event World DatabaseError Job

def Protocol.run (pr : Protocol) (d0 : Db) (evs : List TimelineEvent) : TimelineSys :=
  (Sys.init d0).run pr.prog evs

lemma Protocol.run_append (pr : Protocol) (d0 : Db) (evs evs' : List TimelineEvent) :
    pr.run d0 (evs ++ evs') = (pr.run d0 evs).run pr.prog evs' :=
  Sys.run_append _

/-- No reason to fail is one that others may take away. -/
abbrev timelineEnv : Env Db DatabaseError := ⟨fun _ => True, fun _ => False⟩

lemma disciplined {A : Allow Db LockKey World Job}
    (hA : ∀ j h o d d', timelineGuards.Agree h d d' → A j h d o → A j h d' o) :
    Disciplined pr.prog timelineEnv A :=
  disciplined_of_locked safe_prog (fun _ _ _ _ _ _ => trivial) hA

lemma disciplined_any : Disciplined pr.prog timelineEnv anyAnswer :=
  disciplined fun _ _ _ _ _ _ _ => trivial

lemma good_run {d0 : Db} {evs : List TimelineEvent} :
    Good pr.prog timelineEnv anyAnswer (pr.run d0 evs) :=
  (good_init trivial).run disciplined_any (allowedRun_any _)

lemma run_between {T : Db → Db → Prop} (hrefl : ∀ d, T d d)
    (htrans : ∀ {a b c}, T a b → T b c → T a c)
    (hT : ∀ j d d' code, Committed pr d d' j code → T d d') (d0 : Db)
    (evs evs' : List TimelineEvent) : T (pr.run d0 evs).db (pr.run d0 (evs ++ evs')).db := by
  rw [pr.run_append]
  refine good_run.db_run hrefl htrans disciplined_any ?_ evs' (allowedRun_any _)
  intro j h d d' _ hc
  obtain ⟨code, hc⟩ := Commits.committed hc
  exact hT j d d' code hc

end PrivChat.Timeline
