import PrivChat.Timeline.Repo
import PrivChat.Db.Interleave

/-!
What the two transactions do, alone: the rule for each statement, then what a transaction has
made of the tables when it commits, and when it gives up instead. A commit adds one row to the
commit log, with the number it has drawn, and one to the outbox; all other ways out leave nothing
behind.
-/

namespace PrivChat.Timeline

open PrivChat.Db Tx

variable {β : Type} {W : List LockKey → World → Prop}
  {C : Db → List LockKey → TimelineTx β → Prop} {F : DatabaseError → Prop}
  {Q : β → Db → List LockKey → Prop} {v : Db} {h : List LockKey} {pr : Protocol}

/-! ### The rule for each statement -/

variable {c : ChannelId}

lemma wp_allocatePts {g : ℕ → TimelineTx β}
    (hg : wp W C F Q (g (v.nextPts c)) (ptsDb c (v.nextPts c) v) (.pts c :: h)) :
    wp W C F Q (allocatePts c >>= g) v h := by
  simpa [allocatePts] using hg

variable {m : Message} {g : Unit → TimelineTx β}

lemma wp_insertMessage (hF : v.hasMessage m.messageId m.createdAt = true → ∀ e, F e)
    (hg : v.hasMessage m.messageId m.createdAt = false →
      wp W C F Q (g ()) (messageDb (pr.messageRow m) v) (.message m.messageId m.createdAt :: h)) :
    wp W C F Q (insertMessage pr m >>= g) v h := by
  simp only [insertMessage, bind_assoc, wp_acquire, wp_query, wp_ensure, wp_update]
  cases hu : v.hasMessage m.messageId m.createdAt
  · exact hg hu
  · exact hF hu _

/-- Only the rows about files differ. -/
def Attached (v v' : Db) : Prop :=
  ∃ uploads fileRefs, v' = { v with uploads := uploads, fileRefs := fileRefs }

lemma Attached.refl : Attached v v := ⟨v.uploads, v.fileRefs, rfl⟩

lemma Attached.trans {a b c : Db} (hab : Attached a b) (hbc : Attached b c) : Attached a c := by
  obtain ⟨u, r, rfl⟩ := hab
  obtain ⟨u', r', rfl⟩ := hbc
  exact ⟨u', r', rfl⟩

lemma wp_bindAttachments {l : List FileId}
    (hF : l ≠ [] → ∀ e, F e) (hg : ∀ v' h', Attached v v' → wp W C F Q (g ()) v' h') :
    wp W C F Q (forEach (bindAttachment m) l >>= g) v h := by
  refine wp_forEach (fun _ v' _ => Attached v v') .refl (fun f _ v' h' hf ha => ?_) hg
  have hl : l ≠ [] := List.ne_nil_of_mem hf
  simp only [bindAttachment, wp_acquire, wp_query, wp_ensure]
  split
  · exact ha.trans ⟨(uploadDb f m v').uploads, v'.fileRefs, rfl⟩
  · exact hF hl _

lemma wp_recordMediaRefs {l : List MediaRef} (hg : ∀ v' h', Attached v v' → wp W C F Q (g ()) v' h')
    : wp W C F Q (forEach (recordMediaRef m) l >>= g) v h := by
  refine wp_forEach (fun _ v' _ => Attached v v') .refl (fun ref _ v' h' _ ha => ?_) hg
  exact ha.trans ⟨v'.uploads, (fileRefDb m ref v').fileRefs, rfl⟩

variable {pts : ℕ}

lemma wp_insertCommit {failure : String} {row : ℕ → CommitRow} {g : ℕ → TimelineTx β}
    (hrow : ∀ id, (row id).channelId = c ∧ (row id).pts = pts)
    (hF : v.hasCommit c pts = true → ∀ e, F e)
    (hg : ∀ id, v.hasCommit c pts = false → wp W C F Q (g id) (commitDb (row id) v) h) :
    wp W C F Q (insertCommit failure row >>= g) v h := by
  simp only [insertCommit, bind_assoc, wp_observe, wp_query, wp_ensure, wp_update, hrow]
  intro o _
  cases hu : v.hasCommit c pts
  · exact hg _ hu
  · exact hF hu _

/-- The channel is there, and of the type that the wire says. -/
def Db.Carries (d : Db) (c : ChannelId) (wire : ℤ) (row : ChannelRow) : Prop :=
  d.channels c = some row ∧ expectedType wire = some row.channelType

lemma wp_createDispatchSnapshotInTx {eventId : ℕ} {wire : ℤ}
    {sender : UserId} {kind : ℕ} {now : Millis} (hF : (∀ row, v.Carries c wire row →
      ¬ ∀ h o, .channel c ∈ h → W h o → row.recipients o ≠ []) → ∀ e, F e)
    (hg : ∀ row o, v.Carries c wire row →
      wp W C F Q (g ()) (recipientsDb eventId (row.recipients o) now (outboxDb ⟨eventId, c,
        row.channelType, pts, sender, kind, row.membershipVersion, 0, now⟩ v)) (.channel c :: h)) :
    wp W C F Q (createDispatchSnapshotInTx eventId c wire pts sender kind now >>= g) v h := by
  simp only [createDispatchSnapshotInTx, bind_assoc, wp_acquire, wp_query, wp_orFail, wp_ensure,
    wp_update, wp_observe]
  refine ⟨fun row hrow => ⟨fun ty hty => ?_, fun hty => ?_⟩, fun hrow => ?_⟩
  · split
    · rename_i hb
      have hc : v.Carries c wire row := ⟨hrow, by rw [hty, eq_of_beq hb]⟩
      intro o ho
      split
      · exact hg row o hc
      · rename_i he
        refine hF (fun row' hc' hall => ?_) _
        have : row' = row := Option.some.inj (hc'.1.symm.trans hrow)
        subst this
        exact he (by simpa using hall _ o (by simp) ho)
    · rename_i hb
      refine hF (fun row' hc' _ => hb ?_) _
      have : row' = row := Option.some.inj (hc'.1.symm.trans hrow)
      subst this
      exact beq_iff_eq.mpr (Option.some.inj (hc'.2.symm.trans hty))
  · exact hF (fun row' hc' _ => absurd (hc'.2.symm.trans hty) (by simp)) _
  · exact hF (fun row' hc' _ => absurd hc'.1 (by simp [hrow])) _

variable {g : Bool → TimelineTx β}

lemma wp_claimDedup {key : Option String}
    (hnew : ∀ v' h', (∃ dedup, v' = { v with dedup := dedup }) →
      (∀ k, key = some k → v.dedup k = none) → wp W C F Q (g true) v' h')
    (hold : ∀ k h', key = some k → (v.dedup k).isSome → wp W C F Q (g false) v h') :
    wp W C F Q (claimDedup m key >>= g) v h := by
  cases key with
  | none => exact hnew v h ⟨v.dedup, rfl⟩ (by simp)
  | some k =>
    simp only [claimDedup, bind_assoc, wp_acquire, wp_query]
    split
    · rename_i hk
      exact hold k _ rfl hk
    · rename_i hk
      refine hnew _ _ ⟨_, rfl⟩ fun k' hk' => ?_
      cases hk'
      simpa using hk

/-- The client's number was free and is taken now, if there is one. -/
def Registers (key : Option RegistryKey) (row : RegistryRow) (v v' : Db) : Prop :=
  match key with
  | none => v' = v
  | some k => v.registry k = none ∧ v' = registryDb k row v

lemma wp_claimRegistry {row : RegistryRow} {key : Option RegistryKey}
    (hnew : ∀ v' h', Registers key row v v' → wp W C F Q (g true) v' h')
    (hold : ∀ k h', key = some k → (v.registry k).isSome → wp W C F Q (g false) v h') :
    wp W C F Q (claimRegistry row key >>= g) v h := by
  cases key with
  | none => exact hnew v h rfl
  | some k =>
    simp only [claimRegistry, bind_assoc, wp_acquire, wp_query]
    split
    · rename_i hk
      exact hold k _ rfl hk
    · rename_i hk
      exact hnew _ _ ⟨by simpa using hk, rfl⟩

lemma wp_liftExcept {α : Type} {x : Except String α} {g : α → TimelineTx β}
    (hF : (∀ a, x ≠ .ok a) → ∀ e, F e) (hg : ∀ a, x = .ok a → wp W C F Q (g a) v h) :
    wp W C F Q (liftExcept x >>= g) v h := by
  cases x with
  | ok a => exact hg a rfl
  | error e => exact hF (by simp) _

variable {pr : Protocol} {W : List LockKey → World → Prop} {d d' : Db} {h : List LockKey}

/-! ### A message -/

structure Sound (pr : Protocol) (r : AtomicMessageCommitRequest) : Prop where
  oneClaim : r.dedupKey = none ∨ r.clientRegistryClaim = none
  event : r.event.messageType? = some r.message.messageType
  encoded : ∃ x, pr.encode r.event r.message.channelId (asU8 r.channelType) = .ok x

/-- Nothing stands in the way of the request: it passes the checks and has no files, its key and
the number it will draw are free, and the channel is there and has members. -/
structure Clear (pr : Protocol) (W : List LockKey → World → Prop) (r : AtomicMessageCommitRequest)
    (d : Db) : Prop where
  sound : Sound pr r
  files : r.attachmentRefs = []
  fresh : d.hasMessage r.message.messageId r.message.createdAt = false
  number : d.hasCommit r.message.channelId (d.nextPts r.message.channelId) = false
  channel : ∃ row, d.Carries r.message.channelId r.channelType row ∧
    ∀ h o, .channel r.message.channelId ∈ h → W h o → row.recipients o ≠ []

/-- The message with the number it has drawn. -/
def AtomicMessageCommitRequest.numbered (r : AtomicMessageCommitRequest) (d : Db) : Message :=
  { r.message with pts := some (d.nextPts r.message.channelId) }

structure Created (pr : Protocol) (r : AtomicMessageCommitRequest) (d d' : Db)
    (a : AtomicMessageCommitResult) : Prop where
  sound : Sound pr r
  fresh : d.hasMessage r.message.messageId r.message.createdAt = false
  carries : ∃ row, d.Carries r.message.channelId r.channelType row
  pts : d'.pts = Function.update d.pts r.message.channelId (some (d.nextPts r.message.channelId))
  messages : d'.messages = d.messages ++ [pr.messageRow (r.numbered d)]
  commitLog : ∃ legacy canonical now id, d'.commitLog = d.commitLog ++
    [pr.messageCommit r legacy canonical now (d.nextPts r.message.channelId) id]
  outbox : ∃ row, row.channelId = r.message.channelId ∧
    row.pts = d.nextPts r.message.channelId ∧ d'.outbox = d.outbox ++ [row]
  channels : d'.channels = (headDb r.message.channelId (d.nextPts r.message.channelId)
    r.message.messageId d).channels
  registry : ∃ now, match r.registryKey with
    | none => d'.registry = d.registry
    | some k => d.registry k = none ∧ d'.registry = Function.update d.registry k
        (some (r.registryRow (d.nextPts r.message.channelId) now))
  message : a.message = r.numbered d
  inserted : a.inserted = true

/-- What the code does when the client's number is taken. -/
def lookup (r : AtomicMessageCommitRequest) : TimelineTx Answer := do
  return .message (← duplicateByRegistry r)

/-- The message found, if any, is the answer. -/
def answerExisting (e : DatabaseError) (existing : Option Message) : TimelineTx Answer := do
  let existing ← orFail existing e
  return .message (duplicate existing)

lemma lookup_eq (r : AtomicMessageCommitRequest) : lookup r = .snap fun d =>
      answerExisting (.database "client registry conflict without message projection")
        (r.registryKey.bind d.findMessageByClientRegistry) := by
  unfold lookup duplicateByRegistry answerExisting
  simp only [bind_assoc]
  rfl

/-- How the transaction for a message ends, unless it fails. -/
inductive Ending (pr : Protocol) (r : AtomicMessageCommitRequest) (d v : Db) :
    TimelineTx Answer → Prop
  | committed (a : AtomicMessageCommitResult) : Created pr r d v a →
      Ending pr r d v (.commit (.ret (.message a)))
  | known (key : String) (e : DatabaseError) (existing : Option Message) :
      r.dedupKey = some key → Ending pr r d v (.rollback (answerExisting e existing))
  | taken (key : RegistryKey) : r.registryKey = some key → (d.registry key).isSome →
      Ending pr r d v (.rollback (lookup r))

@[simp] lemma advance_channelType {row : ChannelRow} {id : MessageId} :
    (row.advance pts id).channelType = row.channelType := by
  unfold ChannelRow.advance
  split <;> rfl

@[simp] lemma advance_recipients (row : ChannelRow) (pts : ℕ) (id : MessageId) (w : World) :
    (row.advance pts id).recipients w = row.recipients w := by
  unfold ChannelRow.advance
  split <;> rfl

lemma headDb_carries {id : MessageId} {wire : ℤ} {row : ChannelRow} :
    (headDb c pts id d).Carries c wire row ↔
      ∃ row0, d.Carries c wire row0 ∧ row = row0.advance pts id := by
  simp only [Db.Carries, headDb, Function.update_self, Option.map_eq_some_iff]
  constructor
  · rintro ⟨⟨row0, h0, rfl⟩, hty⟩
    exact ⟨row0, ⟨h0, by simpa using hty⟩, rfl⟩
  · rintro ⟨row0, ⟨h0, hty⟩, rfl⟩
    exact ⟨⟨row0, h0, rfl⟩, by simpa using hty⟩

variable {r : AtomicMessageCommitRequest} {j : Job} {t c : TimelineTx Answer}

lemma commitMessage_spec (hs : Sound pr r) {legacy : String × String} {canonical : List UInt8} :
    wp W (fun v' _ c => Ending pr r v v' c) (fun _ => ¬ Clear pr W r v) (fun _ _ _ => False)
      (pr.commitMessage r legacy canonical >>= fun a => .ret (.message a)) v h := by
  simp only [Protocol.commitMessage, bind_assoc, wp_observe]
  intro o _
  refine wp_allocatePts (wp_insertMessage (fun hu _ hc => ?_) fun hfresh => ?_)
  · exact absurd (hc.fresh.symm.trans hu) (by simp)
  refine wp_bindAttachments (fun hne _ hc => hne (by rw [hc.files]; rfl)) ?_
  intro v1 _ h1
  refine wp_recordMediaRefs fun v2 _ h2 => ?_
  obtain ⟨uploads, fileRefs, rfl⟩ := h1.trans h2
  refine wp_insertCommit (fun id => ⟨rfl, rfl⟩) (fun hu _ hc => ?_) fun eventId _ => ?_
  · exact absurd (hc.number.symm.trans hu) (by simp)
  refine wp_createDispatchSnapshotInTx (fun hno _ hc => ?_) fun row o' hcar => ?_
  · obtain ⟨row, hcar, hall⟩ := hc.channel
    exact hno _ (headDb_carries.mpr ⟨row, hcar, rfl⟩) (by simpa using hall)
  obtain ⟨row0, hcar0, -⟩ := headDb_carries.mp hcar
  refine wp_claimRegistry (fun v' h' hreg => ?_) fun k h' hk hsome => .taken k hk hsome
  refine .committed _ ?_
  cases hk : r.registryKey with
  | none =>
    rw [hk] at hreg
    subst hreg
    exact ⟨hs, hfresh, ⟨row0, hcar0⟩, rfl, rfl, ⟨_, _, _, _, rfl⟩, ⟨_, rfl, rfl, rfl⟩, rfl,
      ⟨o.now, by rw [hk]; rfl⟩, rfl, rfl⟩
  | some k =>
    rw [hk] at hreg
    obtain ⟨hnone, rfl⟩ := hreg
    exact ⟨hs, hfresh, ⟨row0, hcar0⟩, rfl, rfl, ⟨_, _, _, _, rfl⟩, ⟨_, rfl, rfl, rfl⟩, rfl,
      ⟨o.now, by rw [hk]; exact ⟨hnone, rfl⟩⟩, rfl, rfl⟩

lemma Ending.of_dedup {v v' : Db}
    (hv : ∃ dedup, v = { d with dedup := dedup }) (he : Ending pr r v v' c) :
    Ending pr r d v' c := by
  obtain ⟨dedup, rfl⟩ := hv
  cases he with
  | committed a h =>
    exact .committed a ⟨h.sound, h.fresh, h.carries, h.pts, h.messages, h.commitLog, h.outbox,
      h.channels, h.registry, h.message, h.inserted⟩
  | known key e existing h => exact .known key e existing h
  | taken key h h' => exact .taken key h h'

/-- **The transaction for a message.** It fails only if something stands in its way. -/
lemma createMessage_spec :
    wp W (fun v _ c => Ending pr r d v c) (fun _ => ¬ Clear pr W r d) (fun _ _ _ => False)
      (pr.prog (.createMessage r)) d [] := by
  simp only [Protocol.prog, Protocol.createMessageAndCommitAtomic, bind_assoc, wp_ensure]
  split
  swap
  · rename_i hb
    exact fun hc => hb (by simpa using hc.sound.oneClaim)
  rename_i hone
  rw [wp_orFail]
  refine ⟨fun ty hty => ?_, fun hty hc => absurd (hc.sound.event.symm.trans hty) (by simp)⟩
  rw [wp_ensure]
  split
  swap
  · rename_i hb
    exact fun hc => hb (beq_iff_eq.mpr (Option.some.inj (hty.symm.trans hc.sound.event)))
  rename_i heq
  refine wp_liftExcept (fun hno _ hc => ?_) fun x hx => ?_
  · obtain ⟨x, hx⟩ := hc.sound.encoded
    exact hno x hx
  have hsound : Sound pr r := ⟨by simpa using hone, by rw [hty, eq_of_beq heq], x, hx⟩
  refine wp_claimDedup (fun v h hv _ => ?_) fun k h hk _ => ?_
  · refine wp_mono (fun _ _ _ => Ending.of_dedup hv) (fun _ hno hc => hno ?_) (fun _ _ _ => id) _ v
      h (commitMessage_spec hsound)
    obtain ⟨dedup, rfl⟩ := hv
    exact ⟨hc.sound, hc.files, hc.fresh, hc.number, hc.channel⟩
  · simp only [Bool.false_eq_true, if_false, bind_assoc, wp_peek, wp_undo]
    exact fun s _ => .known k _ _ hk

structure Appended (pr : Protocol) (r : AtomicTimelineEventRequest) (d d' : Db) : Prop where
  pts : d'.pts = Function.update d.pts r.channelId (some (d.nextPts r.channelId))
  messages : d'.messages = d.messages
  commitLog : ∃ legacy canonical now id, d'.commitLog = d.commitLog ++
    [pr.eventCommit r legacy canonical now (d.nextPts r.channelId) id]
  outbox : ∃ row, row.channelId = r.channelId ∧ row.pts = d.nextPts r.channelId ∧
    d'.outbox = d.outbox ++ [row]
  channels : d'.channels = d.channels
  registry : d'.registry = d.registry

lemma appendEvent_spec {r : AtomicTimelineEventRequest} :
    wp W (fun v _ c => ∃ a, c = .commit (.ret (.event a)) ∧ Appended pr r d v) (fun _ => True)
      (fun _ _ _ => False) (pr.prog (.appendEvent r)) d [] := by
  simp only [Protocol.prog, Protocol.appendTimelineEventAtomic, bind_assoc]
  refine wp_liftExcept (fun _ _ => trivial) fun x _ => ?_
  intro o _
  refine wp_allocatePts (wp_insertCommit (fun id => ⟨rfl, rfl⟩) (fun _ _ => trivial) ?_)
  intro eventId _
  refine wp_createDispatchSnapshotInTx (fun _ _ => trivial) fun row o' _ => ?_
  exact ⟨_, rfl, rfl, rfl, ⟨_, _, _, _, rfl⟩, ⟨_, rfl, rfl, rfl⟩, rfl, rfl⟩

/-- The code a job starts its transactions with. -/
inductive Segment (pr : Protocol) : Job → TimelineTx Answer → Prop
  | start (j : Job) : Segment pr j (pr.prog j)
  | answer (j : Job) (a : Answer) : Segment pr j (.ret a)
  | failure (j : Job) (e : DatabaseError) : Segment pr j (.fail e)
  | lookup (r : AtomicMessageCommitRequest) : Segment pr (.createMessage r) (lookup r)

/-- A commit of a job, and the answer that it goes on with. -/
inductive Committed (pr : Protocol) (d d' : Db) : Job → TimelineTx Answer → Prop
  | message (r : AtomicMessageCommitRequest) (a : AtomicMessageCommitResult) :
      Created pr r d d' a → Committed pr d d' (.createMessage r) (.ret (.message a))
  | event (r : AtomicTimelineEventRequest) (a : ServerCommit) :
      Appended pr r d d' → Committed pr d d' (.appendEvent r) (.ret (.event a))

lemma segment_answerExisting {e : DatabaseError} {existing : Option Message} :
    Segment pr j (answerExisting e existing) := by
  cases existing with
  | none => exact .failure _ _
  | some m => exact .answer _ _

lemma segment_spec (ht : Segment pr j t) :
    wp W (fun v _ c => (∀ c', c = .commit c' → Committed pr d v j c') ∧
        ∀ d' c', c.after d v = some (d', c') → Segment pr j c')
      (fun _ => True) (fun _ _ _ => True) t d [] := by
  cases ht with
  | start =>
    cases j with
    | createMessage r =>
      refine wp_mono (fun v h c he => ?_) (fun _ _ => trivial) (fun _ _ _ => False.elim) _ _ _
        createMessage_spec
      cases he with
      | committed a hc =>
        exact ⟨fun c' hc' => by cases hc'; exact .message r a hc,
          fun d' c' hc' => by cases hc'; exact .answer _ _⟩
      | known key e existing hk =>
        exact ⟨nofun, fun d' c' hc' => by cases hc'; exact segment_answerExisting⟩
      | taken key hk hsome => exact ⟨nofun, fun d' c' hc' => by cases hc'; exact .lookup r⟩
    | appendEvent r =>
      refine wp_mono (fun v h c he => ?_) (fun _ _ => trivial) (fun _ _ _ => False.elim) _ _ _
        appendEvent_spec
      obtain ⟨a, rfl, ha⟩ := he
      exact ⟨fun c' hc' => by cases hc'; exact .event r a ha,
        fun d' c' hc' => by cases hc'; exact .answer _ _⟩
  | answer => trivial
  | failure => trivial
  | lookup r =>
    rw [lookup_eq]
    exact ⟨nofun, fun d' c' hc' => by cases hc'; exact segment_answerExisting⟩

lemma Seg.segment (ht : Seg pr.prog j t) : Segment pr j t :=
  Seg.of_closed (S := Segment pr) .start
    (fun _ t d hS => wp_mono (fun _ _ _ h => h.2) (fun _ => id) (fun _ _ _ => id) t d []
      (segment_spec hS)) ht

/-- **Every commit is that of a message or of an event, and the answer follows it.** -/
lemma At.committed (hs : Seg pr.prog j t)
    (hat : At W d t (.commit c) d' h) : Committed pr d d' j c :=
  (wp_at (segment_spec (Seg.segment hs)) hat).1 c rfl

lemma Commits.committed {A : Allow Db LockKey World Job}
    (hc : Commits pr.prog A j h d d') : ∃ c, Committed pr d d' j c := by
  obtain ⟨t, c, hs, hat⟩ := hc
  exact ⟨c, At.committed hs hat⟩

end PrivChat.Timeline
