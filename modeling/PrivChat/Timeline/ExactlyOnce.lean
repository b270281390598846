import PrivChat.Timeline.PtsLog

/-!
Exactly one message for a submission, and the same answer for all attempts at it.

That there is at most one message holds of all runs. That all attempts get its id and number
holds if the submission has no files: the guard on files turns an attempt away because the
attempt before it has taken them.
-/

namespace PrivChat.Timeline

open PrivChat.Db Tx

variable {pr : Protocol} {d0 d d' : Db} {key : RegistryKey} {evs : List TimelineEvent}
  {r r0 : AtomicMessageCommitRequest} {s : TimelineSys}

def Db.ids (d : Db) : List MessageId := d.messages.map (·.messageId)

/-- The runs in which all attempts at the submission `r0` are answered alike. -/
structure Orderly (pr : Protocol) (r0 : AtomicMessageCommitRequest) (key : RegistryKey) (d0 : Db)
    (evs : List TimelineEvent) : Prop where
  numbers : NumbersOk d0
  distinct : d0.ids.Nodup
  unused : d0.registry key = none
  /-- All requests with the key are attempts at the one submission. -/
  same : ∀ i r, .start i (.createMessage r) ∈ evs → r.registryKey = some key → Attempt r0 r
  files : r0.attachmentRefs = []
  /-- Every request brings a message id of its own. -/
  own : ∀ i i' r r', .start i (.createMessage r) ∈ evs → .start i' (.createMessage r') ∈ evs →
    r.message.messageId = r'.message.messageId → i = i'
  fresh : ∀ i r, .start i (.createMessage r) ∈ evs → r.message.messageId ∉ d0.ids
  members : AllowedRun pr.prog (hasMembers key) (Sys.init d0) evs

/-! ### An invariant of these runs -/

/-- What holds of every state of a run with these events: each new message is that of a request
about to be answered, and a key that is taken leads to a message. -/
structure Submitted (pr : Protocol) (r0 : AtomicMessageCommitRequest) (key : RegistryKey) (d0 : Db)
    (evs : List TimelineEvent) (s : TimelineSys) : Prop where
  started : ∀ i j, (s.procs i).job = some j → .start i j ∈ evs
  numbers : NumbersOk s.db
  distinct : s.db.ids.Nodup
  origin : ∀ id ∈ s.db.ids, id ∈ d0.ids ∨ ∃ i r a, .start i (.createMessage r) ∈ evs ∧
    r.message.messageId = id ∧ Settled s i (.createMessage r) a
  registered : ∀ row, s.db.registry key = some row → Fit pr r0 s.db ∧
    ∃ m ∈ s.db.messages, m.messageId = row.serverMsgId ∧ m.pts = some row.pts
  channel : (s.db.channels r0.message.channelId).map (·.channelType) =
    (d0.channels r0.message.channelId).map (·.channelType)

section Runs

variable (ho : Orderly pr r0 key d0 evs)

include ho

lemma Submitted.fresh_of_running (h : Submitted pr r0 key d0 evs s)
    {i : ℕ} (hstart : .start i (.createMessage r) ∈ evs)
    (hno : ∀ a, ¬ Settled s i (.createMessage r) a) (hjob : ∀ j, (s.procs i).job = some j →
      j = .createMessage r) : r.message.messageId ∉ s.db.ids := by
  intro hmem
  rcases h.origin _ hmem with h0 | ⟨i', r', a, hstart', hid, hset⟩
  · exact ho.fresh i r hstart h0
  · have hi : i = i' := ho.own i i' r r' hstart hstart' hid.symm
    subst hi
    have hj : (s.procs i).job = some (.createMessage r') := by
      rcases hset with ⟨p, hp, -⟩ | hp <;> rw [hp] <;> rfl
    rw [hjob _ hj] at hset
    exact hno a hset

lemma Submitted.init : Submitted pr r0 key d0 evs (Sys.init d0) where
  started i j hj := by simp [Sys.init, Slot.job] at hj
  numbers := ho.numbers
  distinct := ho.distinct
  origin id hid := .inl hid
  registered row hrow := absurd (ho.unused.symm.trans hrow) (by simp)
  channel := rfl

lemma Submitted.commit (h : Submitted pr r0 key d0 evs s) {s' : TimelineSys} {i : ℕ} {j : Job}
    {code : TimelineTx Answer} (hstarted : ∀ i j, (s'.procs i).job = some j → .start i j ∈ evs)
    (hset : ∀ i j a, Settled s i j a → Settled s' i j a) (hjob : (s.procs i).job = some j)
    (hno : ∀ a, ¬ Settled s i j a) (hc : Committed pr s.db s'.db j code)
    (hcode : ∀ a, code = .ret a → Settled s' i j a) : Submitted pr r0 key d0 evs s' := by
  have hstart := h.started i j hjob
  have hold : ∀ id ∈ s.db.ids, id ∈ d0.ids ∨ ∃ i r a, .start i (.createMessage r) ∈ evs ∧
      r.message.messageId = id ∧ Settled s' i (.createMessage r) a := by
    intro id hid
    rcases h.origin id hid with h0 | ⟨i', r', a, h1, h2, h3⟩
    · exact .inl h0
    · exact .inr ⟨i', r', a, h1, h2, hset _ _ _ h3⟩
  have hreg : ∀ row, s.db.registry key = some row → Fit pr r0 s'.db ∧
      ∃ m ∈ s'.db.messages, m.messageId = row.serverMsgId ∧ m.pts = some row.pts := by
    intro row hrow
    obtain ⟨hfit, m, hm, hm'⟩ := h.registered row hrow
    refine ⟨hfit.congr hc.channels, m, ?_, hm'⟩
    rcases hc.messages with he | ⟨r, m', -, -, he⟩ <;> simp [he, hm]
  cases hc with
  | event r a hcr =>
    have hids : s'.db.ids = s.db.ids := by simp only [Db.ids, hcr.messages]
    exact ⟨hstarted, Committed.numbersOk (.event r a hcr) h.numbers, hids ▸ h.distinct,
      hids ▸ hold, fun row hrow => hreg row (by rwa [hcr.registry] at hrow),
      by rw [hcr.channels, h.channel]⟩
  | message r a hcr =>
    have hnew : r.message.messageId ∉ s.db.ids :=
      h.fresh_of_running ho hstart hno fun j' hj' => Option.some.inj (hj'.symm.trans hjob)
    have hids : s'.db.ids = s.db.ids ++ [r.message.messageId] := by
      simp only [Db.ids, hcr.messages, List.map_append]
      rfl
    refine ⟨hstarted, Committed.numbersOk (.message r a hcr) h.numbers, ?_, fun id hid => ?_,
      fun row hrow => ?_, ?_⟩
    · rw [hids]
      exact h.distinct.append (List.nodup_singleton _) (by simpa using hnew)
    · rw [hids, List.mem_append, List.mem_singleton] at hid
      rcases hid with hid | rfl
      · exact hold id hid
      · exact .inr ⟨i, r, .message a, hstart, rfl, hcode _ rfl⟩
    · by_cases hk : r.registryKey = some key
      · obtain ⟨-, row', hrow', hid, hpts⟩ := hcr.registered hk
        have hrr : row' = row := Option.some.inj (hrow'.symm.trans hrow)
        subst hrr
        refine ⟨((ho.same i r hstart hk).fit ⟨hcr.sound, hcr.carries⟩).congr
          (Committed.channels (.message r a hcr)), pr.messageRow (r.numbered s.db), ?_, ?_⟩
        · simp [hcr.messages]
        · exact ⟨hid.symm, by rw [hpts]; rfl⟩
      · exact hreg row (by
          rwa [Committed.registry_other (.message r a hcr) (by simpa [Job.registryKey] using hk)]
            at hrow)
    · rw [Committed.channels (.message r a hcr), h.channel]

lemma Submitted.step {A : Allow Db LockKey World Job}
    (h : Submitted pr r0 key d0 evs s) (hg : Good pr.prog timelineEnv A s) {e : TimelineEvent}
    (he : e ∈ evs) : Submitted pr r0 key d0 evs (s.step pr.prog e) := by
  have hstarted : ∀ i j, ((s.step pr.prog e).procs i).job = some j → .start i j ∈ evs := by
    intro i j hj
    rcases s.step_job e i with hs | ⟨j', rfl, hs⟩
    · exact h.started i j (hs ▸ hj)
    · rw [hs, Option.some.injEq] at hj
      exact hj ▸ he
  have hset : ∀ i j a, Settled s i j a → Settled (s.step pr.prog e) i j a := fun i j a hs => hs.step
  rcases hg.commit_step e with hdb | ⟨i, o, j, p, c, rfl, hr, hcode, hr', hs, hat⟩
  · refine ⟨hstarted, hdb ▸ h.numbers, hdb ▸ h.distinct, fun id hid => ?_, hdb ▸ h.registered,
      hdb ▸ h.channel⟩
    rcases h.origin id (hdb ▸ hid) with h0 | ⟨i, r, a, h1, h2, h3⟩
    · exact .inl h0
    · exact .inr ⟨i, r, a, h1, h2, hset _ _ _ h3⟩
  · refine h.commit ho hstarted hset (by rw [hr]; rfl) (fun a hsa => ?_)
      (At.committed hs hat) fun a ha => .inl ⟨_, hr', ha⟩
    rcases hsa with ⟨p', hp', hc'⟩ | hp'
    · rw [hr, Slot.running.injEq] at hp'
      rw [← hp'.2, hcode] at hc'
      cases hc'
    · simp [hr] at hp'

lemma Submitted.run (evs1 evs2 : List TimelineEvent)
    (he : evs = evs1 ++ evs2) : Submitted pr r0 key d0 evs (pr.run d0 evs1) := by
  induction evs1 using List.reverseRecOn generalizing evs2 with
  | nil => exact .init ho
  | append_singleton l e ih =>
    have hl := ih ([e] ++ evs2) (by rw [he, List.append_assoc])
    rw [pr.run_append]
    exact hl.step ho good_run (by simp [he])

end Runs

/-! ### What an attempt is answered -/

structure Ready (pr : Protocol) (r0 : AtomicMessageCommitRequest) (key : RegistryKey) (d : Db) :
    Prop where
  numbers : NumbersOk d
  distinct : d.ids.Nodup
  fit : Fit pr r0 d
  registered : ∀ row, d.registry key = some row →
    ∃ m ∈ d.messages, m.messageId = row.serverMsgId ∧ m.pts = some row.pts

/-- The answer to an attempt: the id and the number of the message that holds the key. It says
that the message was new if it is the attempt's own. -/
def Agreed (key : RegistryKey) (r : AtomicMessageCommitRequest) (d : Db)
    (a : AtomicMessageCommitResult) : Prop :=
  ∃ row, d.registry key = some row ∧ a.message.messageId = row.serverMsgId ∧
    a.message.pts = some row.pts ∧ (a.inserted = true ↔ row.serverMsgId = r.message.messageId)

/-- An attempt is before its transaction, or before the look for the message that holds the key,
or about to answer; it does not fail. -/
def attemptPromise (pr : Protocol) (key : RegistryKey) (r : AtomicMessageCommitRequest) :
    Promise Db LockKey World DatabaseError Answer where
  known d t :=
    (r.message.messageId ∉ d.ids ∧
      (t = pr.prog (.createMessage r) ∨ t = lookup r ∧ (d.registry key).isSome)) ∨
    ∃ a, t = .ret (.message a) ∧ Agreed key r d a
  ends d res := ∃ a, res = .ok (.message a) ∧ Agreed key r d a

variable {a : AtomicMessageCommitResult}

lemma Agreed.of_created (h : Created pr r d d' a)
    (hk : r.registryKey = some key) : Agreed key r d' a := by
  obtain ⟨-, row, hrow, hid, hpts⟩ := h.registered hk
  refine ⟨row, hrow, ?_, ?_, ?_⟩
  · rw [h.message, hid]
    rfl
  · rw [h.message, hpts]
    rfl
  · simp [h.inserted, hid]

lemma hasMessage_eq_false {id : MessageId} {t : Millis} (h : id ∉ d.ids) :
    d.hasMessage id t = false := by
  rw [Db.hasMessage, List.any_eq_false]
  rintro m hm hid
  simp only [Bool.and_eq_true, beq_iff_eq] at hid
  exact h (List.mem_map.mpr ⟨m, hm, hid.1⟩)

lemma Ready.find (hr : Ready pr r0 key d) (hk : r.registryKey = some key)
    (hnew : r.message.messageId ∉ d.ids) (hsome : (d.registry key).isSome) :
    ∃ m, r.registryKey.bind d.findMessageByClientRegistry = some m ∧
      Agreed key r d (duplicate m) := by
  obtain ⟨row, hrow⟩ := Option.isSome_iff_exists.mp hsome
  obtain ⟨m, hm, hid, hpts⟩ := hr.registered row hrow
  have hfind : d.messages.find? (·.messageId == row.serverMsgId) = some m := by
    have hex : (d.messages.find? (·.messageId == row.serverMsgId)).isSome := by
      rw [List.find?_isSome]
      exact ⟨m, hm, by simp [hid]⟩
    obtain ⟨m', hm'⟩ := Option.isSome_iff_exists.mp hex
    have hid' : m'.messageId = row.serverMsgId := by simpa using List.find?_some hm'
    -- the ids are distinct, so it is the same message
    have hmm : m' = m := List.inj_on_of_nodup_map hr.distinct (List.mem_of_find?_eq_some hm') hm
      (hid'.trans hid.symm)
    rw [hm', hmm]
  refine ⟨m, by rw [hk, Option.bind_some, Db.findMessageByClientRegistry, hrow]; exact hfind,
    row, hrow, hid, hpts, ?_⟩
  simp only [duplicate, Bool.false_eq_true, false_iff]
  rintro he
  exact hnew (List.mem_map.mpr ⟨m, hm, hid.trans he⟩)

/-- A job that brings a message does so under another id. -/
def Apart (r : AtomicMessageCommitRequest) (j : Job) : Prop :=
  ∀ r', j = .createMessage r' → r'.message.messageId ≠ r.message.messageId

lemma Committed.ids_apart {j : Job} {code : TimelineTx Answer} (h : Committed pr d d' j code)
    (ho : Apart r j) (hd : r.message.messageId ∉ d.ids) : r.message.messageId ∉ d'.ids := by
  rcases h.messages with he | ⟨r', m, rfl, hm, he⟩
  · rwa [Db.ids, he]
  · rw [Db.ids, he, List.map_append, List.mem_append]
    rintro (h | h)
    · exact hd h
    · exact ho r' rfl (by simpa [hm, eq_comm] using h)

lemma attempt_keeps (ha : Attempt r0 r) (hfiles : r0.attachmentRefs = [])
    (hk : r.registryKey = some key) :
    Keeps pr.prog timelineEnv (hasMembers key) (Ready pr r0 key) (Apart r)
      (attemptPromise pr key r) (.createMessage r) where
  segment d t hr ht := by
    rcases ht with ⟨hnew, rfl | ⟨rfl, hsome⟩⟩ | ⟨a, rfl, hag⟩
    · refine wp_mono (fun v h c he d' c' hnext _ => ?_) (fun e hno => ?_) (fun _ _ _ => False.elim)
        _ d [] createMessage_spec
      · cases he with
        | committed a hc =>
          cases hnext
          exact .inr ⟨a, rfl, .of_created hc hk⟩
        | known k e existing hdk =>
          -- a request with a dedup key has no claim on the client's number
          have hone := (ha.sound.mpr hr.fit.sound).oneClaim
          simp only [hdk, reduceCtorEq, false_or] at hone
          simp [AtomicMessageCommitRequest.registryKey, hone] at hk
        | taken k hk' hsome =>
          cases hnext
          rw [hk, Option.some.injEq] at hk'
          exact .inl ⟨hnew, .inr ⟨rfl, hk' ▸ hsome⟩⟩
      · exact (hno (hr.fit.clear ha hfiles (hasMessage_eq_false hnew) hr.numbers hk)).elim
    · rw [lookup_eq]
      intro d' c' hnext _
      cases hnext
      obtain ⟨m, hm, hag⟩ := hr.find hk hnew hsome
      simp only [hm]
      exact .inr ⟨duplicate m, rfl, hag⟩
    · exact ⟨a, rfl, hag⟩
  known j h d d' t ho _ _ _ hc ht := by
    obtain ⟨code, hc⟩ := Commits.committed hc
    rcases ht with ⟨hnew, ht⟩ | ⟨a, rfl, row, hrow, hag⟩
    · refine .inl ⟨hc.ids_apart ho hnew, ht.imp_right fun ⟨ht, hsome⟩ => ⟨ht, ?_⟩⟩
      obtain ⟨row, hrow⟩ := Option.isSome_iff_exists.mp hsome
      rw [hc.registry_kept hrow]
      rfl
    · exact .inr ⟨a, rfl, row, hc.registry_kept hrow, hag⟩
  ends j h d d' res _ _ _ _ hc := by
    rintro ⟨a, rfl, row, hrow, hag⟩
    obtain ⟨code, hc⟩ := Commits.committed hc
    exact ⟨a, rfl, row, hc.registry_kept hrow, hag⟩
  letGo _ _ := False.elim

/-! ### All attempts -/

/-- In such a run an attempt that is not stopped is answered with the message of the key. -/
lemma Orderly.agreed (ho : Orderly pr r0 key d0 evs) (hfit : Fit pr r0 (pr.run d0 evs).db) {i : ℕ}
    {res : Except DatabaseError Answer} (hk : r.registryKey = some key)
    (hf : (pr.run d0 evs).procs i = .finished (.createMessage r) res) (hcr : ∀ e, .crash i e ∉ evs)
    : ∃ a, res = .ok (.message a) ∧ Agreed key r (pr.run d0 evs).db a := by
  have hlast := Submitted.run ho evs [] (List.append_nil evs).symm
  have hstart := hlast.started i (.createMessage r) (by rw [hf]; rfl)
  have ha := ho.same i r hstart hk
  have hready : Throughout pr.prog (Ready pr r0 key) (Sys.init d0) evs := by
    refine throughout_of_run fun evs1 evs2 he => ?_
    have hs := Submitted.run ho evs1 evs2 he
    exact ⟨hs.numbers, hs.distinct, hfit.congr (hs.channel.trans hlast.channel.symm),
      fun row hrow => (hs.registered row hrow).2⟩
  have hw : Watched pr.prog (attemptPromise pr key r) (Apart r) (.createMessage r) i
      (Sys.init d0) evs := by
    refine ⟨fun e _ hc => absurd hc (hcr e), fun evs1 evs2 he hfree => .inl ⟨?_, .inl rfl⟩,
      fun k j hki hj r' hr' hid => hki ?_⟩
    · refine (Submitted.run ho evs1 _ he).fresh_of_running ho hstart (fun a hset => ?_)
        fun j hj => ?_
      · rcases hset with ⟨p, hp, -⟩ | hp <;> exact absurd (hfree.symm.trans hp) (by simp)
      · exact absurd ((congrArg Slot.job hfree).symm.trans hj) (by simp [Slot.job])
    · subst hr'
      have hj' : .start k (.createMessage r') ∈ evs := by
        rcases hj with hj | hj
        · simp [Sys.init, Slot.job] at hj
        · exact hj
      exact ho.own k i r' r hj' hstart hid
  exact (Tells.run (disciplined hasMembers_agree) (attempt_keeps ha ho.files hk)
    (good_init trivial) (follows_free rfl) evs ho.members hw hready).finished res hf

lemma added_for_key {size : Db → ℕ} (hsize : ∀ r d d' a, Created pr r d d' a → size d' = size d + 1)
    (hunused : d0.registry key = none) :
    added pr.prog (fun j => j.registryKey == some key) size (Sys.init d0) evs =
      if (pr.run d0 evs).db.registry key = none then 0 else 1 := by
  have hg : Good pr.prog timelineEnv anyAnswer (Sys.init d0) := good_init trivial
  have hwho : ∀ (j : Job) h d d', (j.registryKey == some key) = true →
      Commits pr.prog anyAnswer j h d d' →
      d.registry key = none ∧ ¬ d'.registry key = none ∧ size d' = size d + 1 := by
    intro j h d d' hj hc
    obtain ⟨code, hc⟩ := Commits.committed hc
    cases hc with
    | message r a hcr =>
      have hk : r.registryKey = some key := by simpa [Job.registryKey] using hj
      obtain ⟨hfree, row, hrow, -⟩ := hcr.registered hk
      exact ⟨hfree, by simp [hrow], hsize r d d' a hcr⟩
    | event r a hcr => simp [Job.registryKey] at hj
  have hother : ∀ (j : Job) h d d', (j.registryKey == some key) = false →
      Commits pr.prog anyAnswer j h d d' → (d'.registry key = none ↔ d.registry key = none) := by
    intro j h d d' hj hc
    obtain ⟨code, hc⟩ := Commits.committed hc
    rw [hc.registry_other (by simpa using hj)]
  have h0 : (Sys.init d0 : TimelineSys).db.registry key = none := hunused
  rw [(added_once disciplined_any hwho hother hg (allowedRun_any _)).2]
  by_cases hn : (pr.run d0 evs).db.registry key = none
  · rw [if_pos hn, if_neg fun h => h.2 hn]
  · rw [if_neg hn, if_pos ⟨h0, hn⟩]

lemma Created.sizes (h : Created pr r d d' a) :
    d'.messages.length = d.messages.length + 1 ∧ d'.commitLog.length = d.commitLog.length + 1 ∧
      d'.outbox.length = d.outbox.length + 1 := by
  obtain ⟨legacy, canonical, now, id, hlog⟩ := h.commitLog
  obtain ⟨row, -, -, hout⟩ := h.outbox
  simp [h.messages, hlog, hout]

/-- **Exactly once.** Whatever attempts at a submission without files run at the same time, or
one after the other: they add one message, one row of the commit log and one of the outbox, or
none as long as none has committed; when one has, every attempt that is not stopped is answered
with its id and number, as a duplicate unless it is the one; and an attempt that need not wait
for a lock comes to an end. -/
theorem submit_exactly_once (pr : Protocol) (r0 : AtomicMessageCommitRequest) (key : RegistryKey)
    (d0 : Db) (evs : List TimelineEvent) (ho : Orderly pr r0 key d0 evs) :
    (∀ size ∈ [fun d : Db => d.messages.length, fun d => d.commitLog.length,
        fun d => d.outbox.length],
      added pr.prog (fun j => j.registryKey == some key) size (Sys.init d0) evs =
        if (pr.run d0 evs).db.registry key = none then 0 else 1) ∧
    (∀ row, (pr.run d0 evs).db.registry key = some row →
      (∃ m ∈ (pr.run d0 evs).db.messages, m.messageId = row.serverMsgId ∧ m.pts = some row.pts) ∧
      ∀ i r res, (pr.run d0 evs).procs i = .finished (.createMessage r) res →
        r.registryKey = some key → (∀ e, .crash i e ∉ evs) →
        ∃ a, res = .ok (.message a) ∧ a.message.messageId = row.serverMsgId ∧
          a.message.pts = some row.pts ∧
          (a.inserted = true ↔ row.serverMsgId = r.message.messageId)) ∧
    ∀ i r p, (pr.run d0 evs).procs i = .running (.createMessage r) p → Alone (pr.run d0 evs) i →
      ∀ o, Finishes pr.prog (pr.run d0 evs) i (.createMessage r) o := by
  refine ⟨fun size hsize => added_for_key (fun r d d' a hc => ?_) ho.unused,
    fun row hrow => ?_, fun i r p hr hl o => alone_finishes hr hl o⟩
  · have hs := hc.sizes
    simp only [List.mem_cons, List.not_mem_nil, or_false] at hsize
    rcases hsize with rfl | rfl | rfl
    · exact hs.1
    · exact hs.2.1
    · exact hs.2.2
  · obtain ⟨hfit, hm⟩ := (Submitted.run ho evs [] (List.append_nil evs).symm).registered row hrow
    refine ⟨hm, fun i r res hf hk hcr => ?_⟩
    obtain ⟨a, hres, row', hrow', hid, hpts, hins⟩ := ho.agreed hfit hk hf hcr
    have he : row' = row := Option.some.inj (hrow'.symm.trans hrow)
    subst he
    exact ⟨a, hres, hid, hpts, hins⟩

/-- Two attempts start, the first is done before the second comes to its first statement. -/
def twoAttempts (refs : List MediaRef) : List TimelineEvent :=
  .start 0 (.createMessage (sampleRequest 100 refs)) ::
  .start 1 (.createMessage (sampleRequest 101 refs)) ::
  List.replicate 32 (.step 0 (sampleWorld 1)) ++ List.replicate 32 (.step 1 (sampleWorld 2))

def sampleKey : RegistryKey := ⟨1, "phone", 5⟩

lemma mem_twoAttempts {refs : List MediaRef} {i : ℕ}
    (h : .start i (.createMessage r) ∈ twoAttempts refs) :
    i = 0 ∧ r = sampleRequest 100 refs ∨ i = 1 ∧ r = sampleRequest 101 refs := by
  simpa [twoAttempts] using h

lemma twoAttempts_orderly :
    Orderly sampleProtocol (sampleRequest 100 []) sampleKey sampleDb (twoAttempts []) where
  numbers _ hrow := by simp [sampleDb, Db.empty] at hrow
  distinct := by decide
  unused := rfl
  same i r h _ := by
    rcases mem_twoAttempts h with ⟨-, rfl⟩ | ⟨-, rfl⟩ <;> rfl
  files := rfl
  own i i' r r' h h' he := by
    rcases mem_twoAttempts h with ⟨rfl, rfl⟩ | ⟨rfl, rfl⟩ <;>
      rcases mem_twoAttempts h' with ⟨rfl, rfl⟩ | ⟨rfl, rfl⟩ <;>
      simp [sampleRequest] at he ⊢
  fresh i r h := by simp [sampleDb, Db.empty, Db.ids]
  members := by decide

set_option maxRecDepth 20000 in
theorem submit_exactly_once_sample :
    ∃ a, ((sampleProtocol.run sampleDb (twoAttempts [])).procs 1).result = some (.ok (.message a)) ∧
      a.message.messageId = 100 ∧ a.message.pts = some 1 ∧ a.inserted = false := by
  obtain ⟨-, hagree, -⟩ := submit_exactly_once sampleProtocol (sampleRequest 100 []) sampleKey
    sampleDb (twoAttempts []) twoAttempts_orderly
  have hreg : (sampleProtocol.run sampleDb (twoAttempts [])).db.registry sampleKey =
      some ⟨100, 1, 7, 2, "accepted", 1500⟩ := by decide
  have hjob : ((sampleProtocol.run sampleDb (twoAttempts [])).procs 1).job =
      some (.createMessage (sampleRequest 101 [])) := by decide
  obtain ⟨res, hres⟩ := Slot.exists_finished hjob (by decide)
  obtain ⟨a, rfl, hid, hpts, hins⟩ := (hagree _ hreg).2 1 _ res hres rfl (by simp [twoAttempts])
  refine ⟨a, by rw [hres]; rfl, hid, hpts, ?_⟩
  simpa [sampleRequest] using hins

/-- The group, and a picture that user 1 has uploaded. -/
def pictureDb : Db :=
  { sampleDb with uploads := fun f => if f = 9 then some ⟨1, some "message", none⟩ else none }

set_option maxRecDepth 20000 in
/-- With a file the second attempt fails although the first has committed, because the file is
bound to the first's message by then. -/
theorem second_attempt_rejected :
    Attempt (sampleRequest 100 [⟨0, 9, 0⟩]) (sampleRequest 101 [⟨0, 9, 0⟩]) ∧
      ((sampleProtocol.run pictureDb (twoAttempts [⟨0, 9, 0⟩])).db.registry sampleKey).map
        (·.serverMsgId) = some 100 ∧
      ((sampleProtocol.run pictureDb (twoAttempts [⟨0, 9, 0⟩])).procs 1).result =
        some (.error (bindingRejected 9 (sampleRequest 101 []).message)) := by
  refine ⟨rfl, by decide, by decide⟩

end PrivChat.Timeline
