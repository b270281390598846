import PrivChat.Timeline.Serial

/-!
The numbers of a channel's commit log are 1, 2, 3 and so on up to the number drawn last, with
none left out and none used twice. So the newest message of a channel is the one that the channel's
row names.

A client that has no answer submits its message again, under the same number of its own. The
number is claimed as the last step of the transaction, so an attempt that comes second has gone
through all the others before it is told.
-/

namespace PrivChat.Timeline

open PrivChat.Db

variable {pr : Protocol} {d d' : Db} {j : Job} {code : TimelineTx Answer}

lemma currentPts_update {row : CommitRow}
    (hpts : d'.pts = Function.update d.pts row.channelId (some row.pts)) {c : ChannelId} :
    d'.currentPts c = if row.channelId = c then row.pts else d.currentPts c := by
  by_cases hc : row.channelId = c
  · rw [if_pos hc, Db.currentPts, hpts, hc, Function.update_self, Option.getD_some]
  · rw [if_neg hc, Db.currentPts, hpts, Function.update_of_ne (Ne.symm hc)]
    rfl

lemma nextPts_eq (d : Db) (c : ChannelId) : d.nextPts c = d.currentPts c + 1 := by
  unfold Db.nextPts Db.currentPts
  cases d.pts c <;> rfl

/-- The log of the channel is numbered from 1 to the number drawn last. -/
def GapFree (c : ChannelId) (d : Db) : Prop :=
  (d.log c).map (·.pts) = List.range' 1 (d.currentPts c)

variable {c : ChannelId} {row : ChannelRow} {n : ℕ}

section Commits

variable (h : Committed pr d d' j code)
include h

lemma Committed.appends :
    ∃ row : CommitRow, row.pts = d.nextPts row.channelId ∧ d'.commitLog = d.commitLog ++ [row] ∧
      d'.pts = Function.update d.pts row.channelId (some row.pts) := by
  cases h with
  | message r a h =>
    obtain ⟨legacy, canonical, now, id, hlog⟩ := h.commitLog
    exact ⟨_, rfl, hlog, h.pts⟩
  | event r a h =>
    obtain ⟨legacy, canonical, now, id, hlog⟩ := h.commitLog
    exact ⟨_, rfl, hlog, h.pts⟩

lemma Committed.code_eq : ∃ a, code = .ret a := by
  cases h with
  | message r a h => exact ⟨_, rfl⟩
  | event r a h => exact ⟨_, rfl⟩

lemma Committed.gapFree (hd : GapFree c d) : GapFree c d' := by
  obtain ⟨row, hrow, hlog, hpts⟩ := h.appends
  unfold GapFree at hd ⊢
  by_cases hc : row.channelId = c
  · have hn : row.pts = d.currentPts c + 1 := by rw [hrow, hc, nextPts_eq]
    have hcur : d'.currentPts c = d.currentPts c + 1 := by
      rw [currentPts_update hpts, if_pos hc, hn]
    have hl : d'.log c = d.log c ++ [row] := by simp [Db.log, hlog, hc]
    rw [hl, hcur, List.range'_concat, List.map_append, hd]
    simp only [List.map_cons, List.map_nil, hn]
    congr 2
    omega
  · -- the row is another channel's
    have hcur : d'.currentPts c = d.currentPts c := by
      rw [currentPts_update hpts, if_neg hc]
    have hl : d'.log c = d.log c := by simp [Db.log, hlog, hc]
    rw [hl, hcur, hd]

lemma Committed.currentPts_le (c : ChannelId) :
    d.currentPts c ≤ d'.currentPts c := by
  obtain ⟨row, hrow, -, hpts⟩ := h.appends
  rw [currentPts_update hpts]
  by_cases hc : row.channelId = c
  · rw [if_pos hc, hrow, hc, nextPts_eq]
    omega
  · rw [if_neg hc]

end Commits

lemma gapFree_run {d0 : Db} (h : GapFree c d0)
    {evs : List TimelineEvent} : GapFree c (pr.run d0 evs).db :=
  run_between (fun _ => id) (fun h h' hd => h' (h hd)) (fun _ _ _ _ hc => hc.gapFree) d0 [] evs h

lemma currentPts_run_le (pr : Protocol) (d0 : Db) (c : ChannelId) (evs evs' : List TimelineEvent) :
    (pr.run d0 evs).db.currentPts c ≤ (pr.run d0 (evs ++ evs')).db.currentPts c :=
  run_between (T := fun d d' => d.currentPts c ≤ d'.currentPts c) (fun _ => le_rfl) le_trans
    (fun _ _ _ _ hc => hc.currentPts_le c) d0 evs evs'

/-- **Gap-free log.** Whatever messages and events are written at the same time, and wherever
they fail: the rows of a channel's commit log are numbered from 1 to the number drawn last, in
the order of the commits; and a request that failed has changed nothing. -/
theorem gap_free_log (pr : Protocol) (d0 : Db) (c : ChannelId) (hpts : d0.pts c = none)
    (hlog : d0.log c = []) (evs : List TimelineEvent) : ((pr.run d0 evs).db.log c).map (·.pts) =
        List.range' 1 ((pr.run d0 evs).db.currentPts c) ∧
      ∀ i j e, (pr.run d0 evs).procs i = .finished j (.error e) →
        ∀ evs1 o evs2, evs = evs1 ++ .step i o :: evs2 →
          (pr.run d0 (evs1 ++ [.step i o])).db = (pr.run d0 evs1).db := by
  constructor
  · have h0 : GapFree c d0 := by simp [GapFree, hlog, Db.currentPts, hpts]
    exact gapFree_run h0
  · rintro i j e hf evs1 o evs2 rfl
    refine Good.failed_unchanged disciplined_any (good_init trivial) ?_ (allowedRun_any _) hf
    intro j W d v t code h hs hat
    exact (At.committed hs hat).code_eq

def Db.GrowsTo (d d' : Db) : Prop := ∃ ms rows outs, d'.messages = d.messages ++ ms ∧
  d'.commitLog = d.commitLog ++ rows ∧ d'.outbox = d.outbox ++ outs ∧
  outs.map (fun o => (o.channelId, o.pts)) = rows.map (fun r => (r.channelId, r.pts)) ∧
  (ms.map fun m => (m.channelId, m.messageId, m.pts)).Sublist
    (rows.map fun r => (r.channelId, r.serverMsgId, some r.pts))

/-- **Append-only, in step.** Nothing in the log, the outbox or the messages is changed or removed.
Each row added to the log has its outbox row, and each message its row in the log. -/
theorem tables_grow_in_step (d0 : Db) (evs evs' : List TimelineEvent) :
    (pr.run d0 evs).db.GrowsTo (pr.run d0 (evs ++ evs')).db := by
  refine run_between (fun d => ⟨[], [], [], by simp⟩) ?_ (fun j d d' code h => ?_) d0 evs evs'
  · rintro a b c ⟨ms, rows, outs, hm, hr, ho, h, hs⟩ ⟨ms', rows', outs', hm', hr', ho', h', hs'⟩
    exact ⟨ms ++ ms', rows ++ rows', outs ++ outs', by simp [*, hs.append hs']⟩
  · cases h with
    | message r a h =>
      obtain ⟨_, _, _, _, hlog⟩ := h.commitLog
      obtain ⟨row, hc, hp, ho⟩ := h.outbox
      exact ⟨_, _, _, h.messages, hlog, ho, by rw [List.map_singleton, hc, hp]; rfl, .refl _⟩
    | event r a h =>
      obtain ⟨_, _, _, _, hlog⟩ := h.commitLog
      obtain ⟨row, hc, hp, ho⟩ := h.outbox
      exact ⟨[], _, _, by simp [h.messages], hlog, ho, by rw [List.map_singleton, hc, hp]; rfl,
        by simp⟩

/-! ### The newest message -/

/-- The row of the channel names the message with the largest number, if there is one. -/
def HeadIsNewest (c : ChannelId) (d : Db) : Prop :=
  ∀ row, d.channels c = some row →
    (row.latestPts = none ∧ row.latestMessageId = none ∧ ∀ m ∈ d.messages, m.channelId ≠ c) ∨
    ∃ n, ∃ m ∈ d.messages, m.channelId = c ∧ m.pts = some n ∧
      row.latestPts = some n ∧ row.latestMessageId = some m.messageId ∧
      ∀ m' ∈ d.messages, m'.channelId = c → m' = m ∨ ∃ n' < n, m'.pts = some n'

/-- The messages of the channel have numbers that have been drawn. -/
def Numbered (c : ChannelId) (d : Db) : Prop :=
  ∀ m ∈ d.messages, m.channelId = c → ∃ n ≤ d.currentPts c, m.pts = some n

lemma behind_of_lt (h : ∀ k, row.latestPts = some k → k < n)
    (id : MessageId) : row.behind n id = true := by
  unfold ChannelRow.behind
  cases hr : row.latestPts with
  | none =>
    have : (-1 : ℤ) < n := by omega
    simp [this]
  | some k => simp [h k hr]

/-- The head of the channel does not go back. -/
def HeadUpTo (c : ChannelId) (d d' : Db) : Prop :=
  ∀ row n, d.channels c = some row → row.latestPts = some n →
    ∃ row' n', d'.channels c = some row' ∧ row'.latestPts = some n' ∧ n ≤ n'

lemma latestPts_advance (pts : ℕ) (id : MessageId)
    (hrow : row.latestPts = some n) : ∃ n', (row.advance pts id).latestPts = some n' ∧ n ≤ n' := by
  unfold ChannelRow.advance
  split
  · rename_i hb
    refine ⟨pts, rfl, ?_⟩
    simp only [ChannelRow.behind, hrow, Option.elim_some, Bool.or_eq_true, decide_eq_true_eq,
      Bool.and_eq_true, beq_iff_eq] at hb
    omega
  · exact ⟨n, hrow, le_rfl⟩

section Heads

variable (h : Committed pr d d' j code)
include h

lemma Committed.numbered (hd : Numbered c d) : Numbered c d' := by
  intro m hm hc
  have hle := h.currentPts_le c
  have hold : m ∈ d.messages → ∃ n ≤ d'.currentPts c, m.pts = some n := fun hm =>
    (hd m hm hc).imp fun _ hn => ⟨hn.1.trans hle, hn.2⟩
  cases h with
  | message r a h =>
    rw [h.messages] at hm
    rcases List.mem_append.mp hm with hm | hm
    · exact hold hm
    · obtain rfl := List.mem_singleton.mp hm
      have hr : r.message.channelId = c := hc
      refine ⟨_, le_of_eq ?_, rfl⟩
      rw [Db.currentPts, h.pts, hr, Function.update_self, Option.getD_some]
  | event r a h => exact hold (h.messages ▸ hm)

lemma Committed.headIsNewest (hn : Numbered c d)
    (hd : HeadIsNewest c d) : HeadIsNewest c d' := by
  cases h with
  | event r a h =>
    unfold HeadIsNewest
    rw [h.channels, h.messages]
    exact hd
  | message r a h =>
    intro row' hrow'
    rw [h.channels] at hrow'
    rw [h.messages]
    by_cases hc : r.message.channelId = c
    · obtain ⟨row, hrow, rfl⟩ : ∃ row, d.channels c = some row ∧
          row.advance (d.nextPts c) r.message.messageId = row' := by
        simpa [headDb, hc] using hrow'
      -- the number drawn is larger than those of the messages so far
      have hb : row.behind (d.nextPts c) r.message.messageId = true := by
        refine behind_of_lt (fun k hk => ?_) _
        rcases hd row hrow with ⟨hnone, -⟩ | ⟨n, m, hm, hmc, hpts, hlatest, -⟩
        · simp [hnone] at hk
        · obtain ⟨n', hle, hn'⟩ := hn m hm hmc
          have hk' : n = k := Option.some.inj (hlatest.symm.trans hk)
          have hn'' : n = n' := Option.some.inj (hpts.symm.trans hn')
          rw [nextPts_eq]
          omega
      refine .inr ⟨d.nextPts c, pr.messageRow (r.numbered d), by simp, hc, by rw [← hc]; rfl, ?_,
        ?_, fun m' hm' hmc => ?_⟩
      · simp [ChannelRow.advance, hb]
      · simp [ChannelRow.advance, hb, Protocol.messageRow, AtomicMessageCommitRequest.numbered]
      · rcases List.mem_append.mp hm' with hm' | hm'
        · obtain ⟨n', hle, hn'⟩ := hn m' hm' hmc
          exact .inr ⟨n', by rw [nextPts_eq]; omega, hn'⟩
        · exact .inl (List.mem_singleton.mp hm')
    · have hrow : d.channels c = some row' := by
        simpa [headDb, Function.update_of_ne (Ne.symm hc)] using hrow'
      have hother : ∀ m ∈ d.messages ++ [pr.messageRow (r.numbered d)], m.channelId = c →
          m ∈ d.messages := by
        intro m hm hmc
        rcases List.mem_append.mp hm with hm | hm
        · exact hm
        · obtain rfl := List.mem_singleton.mp hm
          exact absurd hmc hc
      rcases hd row' hrow with ⟨hp, hi, hno⟩ | ⟨n, m, hm, hmc, hpts, hp, hi, hmax⟩
      · exact .inl ⟨hp, hi, fun m hm hmc => hno m (hother m hm hmc) hmc⟩
      · exact .inr ⟨n, m, List.mem_append_left _ hm, hmc, hpts, hp, hi,
          fun m' hm' hmc' => hmax m' (hother m' hm' hmc') hmc'⟩

lemma Committed.headUpTo (c : ChannelId) : HeadUpTo c d d' := by
  intro row n hrow hn
  cases h with
  | event r a h => exact ⟨row, n, by rw [h.channels, hrow], hn, le_rfl⟩
  | message r a h =>
    rw [h.channels]
    by_cases hc : c = r.message.channelId
    · subst hc
      obtain ⟨n', hn', hle⟩ := latestPts_advance (d.nextPts r.message.channelId)
        r.message.messageId hn
      exact ⟨_, n', by simp [headDb, hrow], hn', hle⟩
    · exact ⟨row, n, by simp [headDb, Function.update_of_ne hc, hrow], hn, le_rfl⟩

end Heads

/-- **The head is the newest message.** Whatever messages and events are written at the same time,
and wherever they fail: in every committed state the row of the channel names the message of the
channel with the largest number, and it never goes back to a smaller one. -/
theorem head_is_newest (pr : Protocol) (d0 : Db) (c : ChannelId) (hhead : HeadIsNewest c d0)
    (hnum : Numbered c d0) (evs evs' : List TimelineEvent) : HeadIsNewest c (pr.run d0 evs).db ∧
      HeadUpTo c (pr.run d0 evs).db (pr.run d0 (evs ++ evs')).db := by
  constructor
  · have hkept : ∀ d d', (∃ j code, Committed pr d d' j code) →
        Numbered c d ∧ HeadIsNewest c d → Numbered c d' ∧ HeadIsNewest c d' :=
      fun _ _ ⟨_, _, hc⟩ ⟨hn, hd⟩ => ⟨hc.numbered hn, hc.headIsNewest hn hd⟩
    exact (run_between (fun _ => id) (fun h h' hd => h' (h hd))
      (fun j d d' code hc => hkept d d' ⟨j, code, hc⟩) d0 [] evs ⟨hnum, hhead⟩).2
  · refine run_between (fun _ row n h hn => ⟨row, n, h, hn, le_rfl⟩) ?_
      (fun _ _ _ _ hc => hc.headUpTo c) d0 evs evs'
    intro a b e hab hbe row n hrow hn
    obtain ⟨row1, n1, hrow1, hn1, hle1⟩ := hab row n hrow hn
    obtain ⟨row2, n2, hrow2, hn2, hle2⟩ := hbe row1 n1 hrow1 hn1
    exact ⟨row2, n2, hrow2, hn2, hle1.trans hle2⟩

def sampleProtocol : Protocol where
  asStr _ := "text"
  toLegacyCommit _ _ _ := .ok ("text", "\x7b\x7d")
  encodeFb _ := .ok [1]
  schemaVersion := 1
  readDetailRetentionDays := 7

/-- A group, channel 7. -/
def sampleDb : Db :=
  { Db.empty with channels := fun c => if c = 7 then some ⟨1, 1, none, none, none, none⟩ else none }

/-- User 1 writes to the group, from a phone, as their message number 5. -/
def sampleRequest (id : MessageId) (refs : List MediaRef) : AtomicMessageCommitRequest where
  message := ⟨id, 7, 1, none, some 5, "hello", .text, "\x7b\x7d", none, 1000, 1000, false, none,
    false, none, none, none⟩
  dedupKey := none
  clientRegistryClaim := some ⟨"phone", "accepted"⟩
  attachmentRefs := refs
  channelType := 2
  event := .newMessage .text "hello"
  senderUsername := none

/-- The message is taken back. -/
def sampleRevoke (id : MessageId) : AtomicTimelineEventRequest :=
  ⟨id, 7, 2, .revoke "hello", 1, none, 2000⟩

def sampleWorld (commitId : ℕ) : World := ⟨1500, commitId, [1, 2], []⟩

/-- A message is written; another loses its connection after it has drawn a number; then the
first is taken back. -/
def sampleRun : List TimelineEvent :=
  .start 0 (.createMessage (sampleRequest 100 [])) :: List.replicate 25 (.step 0 (sampleWorld 1)) ++
  .start 1 (.createMessage { sampleRequest 101 [] with clientRegistryClaim := none }) ::
    List.replicate 9 (.step 1 (sampleWorld 2)) ++
  .crash 1 (.database "Failed to save commit: connection closed") ::
  .start 2 (.appendEvent (sampleRevoke 100)) :: List.replicate 20 (.step 2 (sampleWorld 3))

theorem gap_free_log_sample : (sampleProtocol.run sampleDb sampleRun).db.currentPts 7 = 2 ∧
      ((sampleProtocol.run sampleDb sampleRun).procs 1).result =
        some (.error (.database "Failed to save commit: connection closed")) ∧
      ((sampleProtocol.run sampleDb sampleRun).db.log 7).map (·.pts) = [1, 2] := by
  have hcur : (sampleProtocol.run sampleDb sampleRun).db.currentPts 7 = 2 := by decide
  refine ⟨hcur, by decide, ?_⟩
  rw [(gap_free_log sampleProtocol sampleDb 7 rfl rfl sampleRun).1, hcur]
  rfl

theorem head_is_newest_sample : (sampleProtocol.run sampleDb sampleRun).db.channels 7 =
        some ⟨1, 1, none, none, some 1, some 100⟩ ∧
      HeadIsNewest 7 (sampleProtocol.run sampleDb sampleRun).db := by
  have hempty : ∀ m ∈ sampleDb.messages, m.channelId ≠ 7 := by
    intro m hm
    cases hm
  have hhead : HeadIsNewest 7 sampleDb := by
    intro row hrow
    obtain rfl : _ = row := Option.some.inj hrow
    exact .inl ⟨rfl, rfl, hempty⟩
  have hnum : Numbered 7 sampleDb := fun m hm hc => absurd hc (hempty m hm)
  exact ⟨by decide, (head_is_newest sampleProtocol sampleDb 7 hhead hnum sampleRun []).1⟩

variable {pr : Protocol} {d d' : Db} {j : Job} {code : TimelineTx Answer} {key : RegistryKey}
  {r r0 : AtomicMessageCommitRequest}

/-! ### What the commits do to the tables -/

/-- The client's key that a job carries. -/
def Job.registryKey : Job → Option RegistryKey
  | .createMessage r => r.registryKey
  | .appendEvent _ => none

lemma Created.registered {a : AtomicMessageCommitResult} (h : Created pr r d d' a)
    (hk : r.registryKey = some key) : d.registry key = none ∧ ∃ row, d'.registry key = some row ∧
      row.serverMsgId = r.message.messageId ∧ row.pts = d.nextPts r.message.channelId := by
  obtain ⟨now, hreg⟩ := h.registry
  rw [hk] at hreg
  exact ⟨hreg.1, _, by rw [hreg.2, Function.update_self], rfl, rfl⟩

section Commits

variable (h : Committed pr d d' j code)

include h

lemma Committed.channels :
    (d'.channels c).map (·.channelType) = (d.channels c).map (·.channelType) := by
  cases h with
  | event r a h => rw [h.channels]
  | message r a h =>
    have hch : d'.channels = Function.update d.channels r.message.channelId _ := h.channels
    rw [hch]
    by_cases hc : c = r.message.channelId
    · subst hc
      rw [Function.update_self, Option.map_map]
      exact congrArg (Option.map · _) (funext fun row => advance_channelType)
    · rw [Function.update_of_ne hc]

lemma Committed.registry_other (hk : j.registryKey ≠ some key) :
    d'.registry key = d.registry key := by
  cases h with
  | event r a h => rw [h.registry]
  | message r a h =>
    obtain ⟨now, hreg⟩ := h.registry
    cases hr : r.registryKey with
    | none =>
      rw [hr] at hreg
      exact congrFun hreg key
    | some k =>
      have hne : key ≠ k := fun he => hk (by rw [Job.registryKey, hr, he])
      rw [hr] at hreg
      rw [hreg.2, Function.update_of_ne hne]

lemma Committed.registry_kept {row : RegistryRow}
    (hd : d.registry key = some row) : d'.registry key = some row := by
  by_cases hk : j.registryKey = some key
  · cases h with
    | message r a h => exact absurd ((h.registered hk).1.symm.trans hd) (by simp)
    | event r a h => cases hk
  · rw [h.registry_other hk, hd]

lemma Committed.messages : d'.messages = d.messages ∨ ∃ r m, j = .createMessage r ∧
      m.messageId = r.message.messageId ∧ d'.messages = d.messages ++ [m] := by
  cases h with
  | message r a h => exact .inr ⟨r, pr.messageRow (r.numbered d), rfl, rfl, h.messages⟩
  | event r a h => exact .inl h.messages

/-- No number in the log is greater than the number drawn last. -/
def NumbersOk (d : Db) : Prop := ∀ row ∈ d.commitLog, row.pts ≤ d.currentPts row.channelId

lemma Committed.numbersOk (hd : NumbersOk d) : NumbersOk d' := by
  obtain ⟨row, hrow, hlog, hpts⟩ := h.appends
  have hn : row.pts = d.currentPts row.channelId + 1 := by rw [hrow, nextPts_eq]
  have hcur : ∀ c, d'.currentPts c = if c = row.channelId then row.pts else d.currentPts c := by
    intro c
    simp only [Db.currentPts, hpts, Function.update_apply]
    split <;> simp
  intro row' hmem
  rw [hlog, List.mem_append, List.mem_singleton] at hmem
  rw [hcur]
  rcases hmem with hmem | rfl
  · have hle := hd row' hmem
    split
    · rename_i hc
      rw [hc] at hle
      omega
    · exact hle
  · simp

end Commits

lemma NumbersOk.hasCommit (hd : NumbersOk d) (c : ChannelId) :
    d.hasCommit c (d.nextPts c) = false := by
  rw [Db.hasCommit, List.any_eq_false]
  rintro row hmem hrow
  simp only [Bool.and_eq_true, beq_iff_eq] at hrow
  have hle := hd row hmem
  rw [hrow.1, hrow.2, nextPts_eq] at hle
  omega

/-! ### Attempts -/

/-- The request is another attempt at the same submission: only its id and its times differ. -/
def Attempt (r0 r : AtomicMessageCommitRequest) : Prop :=
  r = { r0 with message := { r0.message with
      messageId := r.message.messageId
      createdAt := r.message.createdAt
      updatedAt := r.message.updatedAt
      readDetailExpiresAt := r.message.readDetailExpiresAt } }

lemma Attempt.congr {α : Type} (h : Attempt r0 r) (f : AtomicMessageCommitRequest → α)
    (hf : ∀ id t t' t'', f { r0 with message := { r0.message with
      messageId := id, createdAt := t, updatedAt := t', readDetailExpiresAt := t'' } } = f r0) :
    f r = f r0 :=
  (congrArg f h).trans (hf _ _ _ _)

lemma Attempt.channelId (h : Attempt r0 r) : r.message.channelId = r0.message.channelId :=
  h.congr (·.message.channelId) fun _ _ _ _ => rfl

lemma Attempt.sound (h : Attempt r0 r) : Sound pr r ↔ Sound pr r0 := by
  have he : Sound pr r = Sound pr r0 := h.congr (Sound pr) fun _ _ _ _ =>
    propext ⟨fun h => ⟨h.oneClaim, h.event, h.encoded⟩, fun h => ⟨h.oneClaim, h.event, h.encoded⟩⟩
  rw [he]

/-- The request can be committed: it passes the checks, and the channel is there. -/
structure Fit (pr : Protocol) (r : AtomicMessageCommitRequest) (d : Db) : Prop where
  sound : Sound pr r
  channel : ∃ row, d.Carries r.message.channelId r.channelType row

lemma Attempt.fit (h : Attempt r0 r) (hf : Fit pr r d) : Fit pr r0 d := by
  refine ⟨h.sound.mp hf.sound, ?_⟩
  have hty : r.channelType = r0.channelType := h.congr (·.channelType) fun _ _ _ _ => rfl
  rw [← h.channelId, ← hty]
  exact hf.channel

/-- Whether a request can be committed does not depend on the messages in the channel. -/
lemma Fit.congr (hf : Fit pr r d) (hc : (d'.channels r.message.channelId).map (·.channelType) =
      (d.channels r.message.channelId).map (·.channelType)) : Fit pr r d' := by
  obtain ⟨row, hrow, hty⟩ := hf.channel
  rw [hrow, Option.map_some, Option.map_eq_some_iff] at hc
  obtain ⟨row', hrow', hsame⟩ := hc
  exact ⟨hf.sound, row', hrow', by rw [hty, hsame]⟩

/-- When a job with the key holds the channel, to see whom to deliver to, there is someone. -/
def hasMembers (key : RegistryKey) : Allow Db LockKey World Job
  | .createMessage r, h, d, o => r.registryKey = some key → .channel r.message.channelId ∈ h →
      (d.channels r.message.channelId).all (fun row => !(row.recipients o).isEmpty) = true
  | .appendEvent _, _, _, _ => True

instance decidableHasMembers (key : RegistryKey) (j : Job) (h : List LockKey) (d : Db)
    (o : World) : Decidable (hasMembers key j h d o) :=
  match j with
  | .createMessage _ => inferInstanceAs (Decidable (_ → _ → _))
  | .appendEvent _ => .isTrue trivial

lemma hasMembers_agree (j : Job) (h : List LockKey) (o : World) (d d' : Db)
    (hd : timelineGuards.Agree h d d') (ha : hasMembers key j h d o) : hasMembers key j h d' o := by
  cases j with
  | appendEvent r => trivial
  | createMessage r =>
    intro hk hheld
    have hc : d'.channels r.message.channelId = d.channels r.message.channelId := hd _ hheld
    rw [hc]
    exact ha hk hheld

lemma Fit.clear (hf : Fit pr r0 d) (ha : Attempt r0 r) (hfiles : r0.attachmentRefs = [])
    (hfresh : d.hasMessage r.message.messageId r.message.createdAt = false) (hn : NumbersOk d)
    (hk : r.registryKey = some key) :
    Clear pr (fun h o => hasMembers key (.createMessage r) h d o) r d := by
  have hty : r.channelType = r0.channelType := ha.congr (·.channelType) fun _ _ _ _ => rfl
  obtain ⟨row, hcar⟩ := hf.channel
  rw [← ha.channelId, ← hty] at hcar
  refine ⟨ha.sound.mpr hf.sound, ?_, hfresh, hn.hasCommit _, row, hcar, fun h o hheld ho => ?_⟩
  · rw [ha.congr (·.attachmentRefs) fun _ _ _ _ => rfl]
    exact hfiles
  · have hall := ho hk hheld
    rw [hcar.1, Option.all_some] at hall
    simpa using hall

end PrivChat.Timeline
