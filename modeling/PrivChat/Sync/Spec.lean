import PrivChat.Sync.Service
import PrivChat.Tasks.Terms
import PrivChat.Timeline.PtsLog

/-!
What the service may count on, and what each of its functions does.

The number last used on a channel only grows, the log is numbered up to it without a gap, and
what stands in the cache for it is never more. Beyond that the functions are described for any
invariant that the operations of the service keep.
-/

namespace PrivChat.Sync

open Tasks
open Timeline (ChannelId Protocol CommitRow GapFree)

variable {pr : Protocol} {codec : Codec} {d0 : Timeline.Db} {s s' : Shared}

/-- The numbers of the channels only grow. -/
def Moves (s s' : Shared) : Prop := ∀ c, s.db.currentPts c ≤ s'.db.currentPts c

/-- The commit has a number that was given out. -/
def Shared.Committed (s : Shared) (commit : ServerCommit) : Prop :=
  commit.pts ≤ s.db.currentPts commit.channelId

lemma Shared.Committed.later {commit : ServerCommit} (h : s.Committed commit) (hs : Moves s s') :
    s'.Committed commit := le_trans h (hs _)

/-- The tables are those of a run of the repository, and nothing is cached or about to be cached
that was not committed. -/
structure Base (pr : Protocol) (d0 : Timeline.Db) (s : Shared) : Prop where
  repo : ∃ evs, s.repo = pr.run d0 evs
  pts : ∀ c n, s.redis.get (.pts c) = some n → n ≤ s.db.currentPts c
  queue : ∀ commit ∈ s.queue, s.Committed commit
  spawned : ∀ commits ∈ s.spawned, ∀ commit ∈ commits, s.Committed commit

/-- The operations that the service ever calls. -/
inductive Asked (codec : Codec) (s : Shared) : Op → Prop
  | get (c) : Asked codec s (.redis (.get (.pts c)))
  | setex {c n} (h : n ≤ s.db.currentPts c) : Asked codec s (.redis (.setex (.pts c) 10 n))
  | zadd {commit text} (h : s.Committed commit) (ht : codec.toJson commit = .ok text) :
      Asked codec s (.redis (.zadd (.commitLog commit.channelId) (asF64 commit.pts) text))
  | trim (c) : Asked codec s (.redis (.zremrangebyrank (.commitLog c) 0 (-101)))
  | expire (c) : Asked codec s (.redis (.expire (.commitLog c) 3600))
  | range (c least limit) : Asked codec s (.redis (.zrangebyscore (.commitLog c) least limit))
  | del (k) : Asked codec s (.redis (.del k))
  | getCurrentPts (c) : Asked codec s (.getCurrentPts c)
  | queryCommits (c lastPts limit) : Asked codec s (.queryCommits c lastPts limit)
  | trySend {commit} (h : s.Committed commit) : Asked codec s (.trySend commit)
  | recv : Asked codec s .recv
  | spawn {commits} (h : ∀ commit ∈ commits, s.Committed commit) :
      Asked codec s (.spawn commits)

lemma run_step (pr : Protocol) (d0 : Timeline.Db) (evs : List Timeline.TimelineEvent)
    (e : Timeline.TimelineEvent) : (pr.run d0 evs).step pr.prog e = pr.run d0 (evs ++ [e]) := by
  rw [pr.run_append]
  rfl

lemma Base.moves_repo (h : Base pr d0 s) (e : Timeline.TimelineEvent) :
    Moves s (s.outside pr (.repo e)) := by
  obtain ⟨evs, hevs⟩ := h.repo
  intro c
  have hle := Timeline.currentPts_run_le pr d0 c evs [e]
  rw [← run_step, ← hevs] at hle
  exact hle

lemma Base.gapFree (h : Base pr d0 s) (hd0 : ∀ c, GapFree c d0) {c : ChannelId} :
    GapFree c s.db := by
  obtain ⟨evs, hevs⟩ := h.repo
  rw [Shared.db, hevs]
  exact Timeline.gapFree_run (hd0 c)

variable {c : ChannelId}

lemma pts_le_of_mem (hg : GapFree c s.db) {row : CommitRow}
    (hr : row ∈ s.db.log c) : row.pts ≤ s.db.currentPts c := by
  have hm : row.pts ∈ (s.db.log c).map (·.pts) := List.mem_map_of_mem hr
  rw [hg, List.mem_range'_1] at hm
  omega

lemma filter_le_range' (a n m : ℕ) :
    (List.range' a n).filter (m ≤ ·) = List.range' (max a m) (a + n - max a m) := by
  induction n generalizing a with
  | zero =>
    have h : a + 0 - max a m = 0 := by omega
    rw [h]
    rfl
  | succ n ih =>
    rw [List.range'_succ, List.filter_cons, ih]
    by_cases h : m ≤ a
    · have h1 : max a m = a := by omega
      have h2 : max (a + 1) m = a + 1 := by omega
      have h3 : a + (n + 1) - a = n + 1 := by omega
      have h4 : a + 1 + n - (a + 1) = n := by omega
      rw [h1, h2, h3, h4, List.range'_succ, if_pos (by simpa using h)]
    · have h1 : max a m = m := by omega
      have h2 : max (a + 1) m = m := by omega
      have h3 : a + (n + 1) - m = a + 1 + n - m := by omega
      rw [h1, h2, h3, if_neg (by simpa using h)]

lemma take_range' (a n m : ℕ) : (List.range' a n).take m = List.range' a (min m n) := by
  rcases le_total m n with h | h
  · rw [min_eq_left h, List.take_range'_of_length_ge h]
  · rw [min_eq_right h, List.take_range'_of_length_le h]

lemma GapFree.sorted {d : Timeline.Db} (h : GapFree c d) :
    (d.log c).Pairwise fun a b => a.pts ≤ b.pts := by
  have hs : ((d.log c).map (·.pts)).Pairwise (· ≤ ·) := by
    rw [h]
    exact (List.pairwise_lt_range').imp fun h => h.le
  exact List.pairwise_map.mp hs

lemma pts_selectCommits {d : Timeline.Db} (h : GapFree c d) {lastPts limit : ℕ} :
    (selectCommits d c lastPts limit).map (·.pts) =
      List.range' (lastPts + 1) (min limit (d.currentPts c - lastPts)) := by
  have hsort := GapFree.sorted h
  have hrows := (hsort.filter fun row => lastPts < row.pts).insertionSort_eq
  have hpts : ((d.log c).filter fun row => lastPts < row.pts).map (·.pts) =
      ((d.log c).map (·.pts)).filter (lastPts + 1 ≤ ·) := by
    rw [List.filter_map]
    rfl
  have hmax : max 1 (lastPts + 1) = lastPts + 1 := by omega
  have hlen : 1 + d.currentPts c - (lastPts + 1) = d.currentPts c - lastPts := by omega
  rw [selectCommits, List.map_map]
  simp only [hrows]
  change List.map (fun row : CommitRow => row.pts) _ = _
  rw [List.map_take, hpts, h, filter_le_range', hmax, hlen, take_range']

lemma base_start : Base pr d0 (.start d0) := ⟨⟨[], rfl⟩, nofun, nofun, nofun⟩

/-! ### The terms -/

lemma exec_redis (command : RedisCommand) (o : Outcome) (s : Shared) :
    (Shared.exec (.redis command) o s).2 =
      if o.applied then { s with redis := s.redis.effect command } else s := by
  cases o <;> rfl

lemma Base.redis (h : Base pr d0 s) {r : SyncRedis}
    (hr : ∀ c n, r.get (.pts c) = some n → n ≤ s.db.currentPts c) :
    Base pr d0 { s with redis := r } :=
  ⟨h.repo, hr, h.queue, h.spawned⟩

lemma Base.effect (h : Base pr d0 s) {command : RedisCommand} {o : Outcome}
    (hr : ∀ c n, (s.redis.effect command).get (.pts c) = some n → n ≤ s.db.currentPts c) :
    Base pr d0 (Shared.exec (.redis command) o s).2 := by
  rw [exec_redis]
  cases o.applied with
  | true => exact h.redis hr
  | false => exact h

lemma Base.exec (h : Base pr d0 s) {op : Op} (hop : Asked codec s op) (o : Outcome) :
    Base pr d0 (Shared.exec op o s).2 := by
  cases hop with
  | get c => exact h.effect h.pts
  | @setex c n hn =>
    refine h.effect fun c' n' hget => ?_
    rw [Redis.Store.get_setex _ _ _ (by omega), Function.update_apply] at hget
    by_cases hc : Key.pts c' = Key.pts c
    · rw [if_pos hc] at hget
      cases hc
      cases hget
      exact hn
    · rw [if_neg hc] at hget
      exact h.pts c' n' hget
  | zadd _ _ => exact h.effect h.pts
  | trim c => exact h.effect h.pts
  | expire c =>
    refine h.effect fun c' n hget => h.pts c' n ?_
    rwa [Redis.Store.get_expire _ _ (by omega)] at hget
  | range c least limit => exact h.effect h.pts
  | del k =>
    refine h.effect fun c n hget => h.pts c n ?_
    rw [Redis.Store.get_del, Function.update_apply] at hget
    by_cases hk : Key.pts c = k
    · rw [if_pos hk] at hget
      exact nomatch hget
    · rwa [if_neg hk] at hget
  | getCurrentPts c => cases o <;> exact h
  | queryCommits c lastPts limit => cases o <;> exact h
  | @trySend commit hc =>
    rw [Shared.exec]
    split
    · refine ⟨h.repo, h.pts, fun commit' hm => ?_, h.spawned⟩
      rcases List.mem_append.mp hm with hm | hm
      · exact h.queue commit' hm
      · rw [List.mem_singleton.mp hm]
        exact hc
    · exact h
  | recv =>
    rw [Shared.exec]
    split
    · exact h
    · next commit rest hq =>
      refine ⟨h.repo, h.pts, fun commit' hm => h.queue commit' ?_, h.spawned⟩
      rw [hq]
      exact List.mem_cons_of_mem _ hm
  | @spawn commits hc =>
    refine ⟨h.repo, h.pts, h.queue, fun commits' hm => ?_⟩
    rcases List.mem_append.mp hm with hm | hm
    · exact h.spawned commits' hm
    · rw [List.mem_singleton.mp hm]
      exact hc

lemma db_exec (op : Op) (o : Outcome) (s : Shared) : (Shared.exec op o s).2.db = s.db := by
  cases op with
  | redis command =>
    rw [exec_redis]
    split <;> rfl
  | getCurrentPts c => cases o <;> rfl
  | queryCommits c lastPts limit => cases o <;> rfl
  | trySend commit =>
    rw [Shared.exec]
    split <;> rfl
  | recv =>
    rw [Shared.exec]
    split <;> rfl
  | spawn commits => rfl

lemma Base.outside (h : Base pr d0 s) (x : Outside) : Base pr d0 (s.outside pr x) := by
  cases x with
  | repo e =>
    have hs := h.moves_repo e
    obtain ⟨evs, hevs⟩ := h.repo
    refine ⟨⟨evs ++ [e], ?_⟩, fun c n hn => (h.pts c n hn).trans (hs c),
      fun commit hm => (h.queue commit hm).later hs,
      fun commits hm commit hc => (h.spawned commits hm commit hc).later hs⟩
    rw [← run_step, ← hevs]
    rfl
  | wait seconds =>
    refine h.redis fun c n hn => ?_
    rcases s.redis.get_wait (.pts c) with hw | hw
    · exact h.pts c n (hw ▸ hn)
    · rw [hw] at hn
      exact nomatch hn

/-- The terms, with more of an invariant and with what a run may be given. -/
def terms (pr : Protocol) (codec : Codec) (d0 : Timeline.Db) (I : Shared → Prop)
    (given : ℕ → Job → Op → Outcome → Shared → Prop) : Terms Shared Op Outcome Job where
  inv s := Base pr d0 s ∧ I s
  moves := Moves
  owes op s := Asked codec s op
  given := given
  refl _ _ := le_rfl
  trans h h' c := (h c).trans (h' c)

lemma upholds {I : Shared → Prop} {given : ℕ → Job → Op → Outcome → Shared → Prop}
    (hcall : ∀ i j op o s, Base pr d0 s → I s → Asked codec s op → given i j op o s →
      I (Shared.exec op o s).2) (henv : ∀ x s, Base pr d0 s → I s → I (s.outside pr x)) :
    (service pr codec).Upholds (terms pr codec d0 I given) where
  call i j op o s hI ho hg := by
    refine ⟨⟨hI.1.exec ho o, hcall i j op o s hI.1 hI.2 ho hg⟩, fun c => ?_⟩
    rw [show (service pr codec).exec = Shared.exec from rfl, db_exec]
  env x s hI := by
    refine ⟨⟨hI.1.outside x, henv x s hI.1 hI.2⟩, ?_⟩
    cases x with
    | repo e => exact hI.1.moves_repo e
    | wait seconds => exact fun c => le_rfl

/-! ### The functions of the service -/

/-- The client is not told to start the channel over. -/
def Calm {α : Type} (r : Except ServerError α) : Prop :=
  ∀ text, r ≠ .error (.channelResyncRequired text)

variable {α β : Type}

lemma calm_ok {a : α} : Calm (.ok a : Except ServerError α) := nofun

lemma Calm.error {e : ServerError} (h : Calm (.error e : Except _ α)) :
    Calm (.error e : Except _ β) := by
  intro text ht
  cases ht
  exact h text rfl

/-- What is answered is as `φ` says, and no error tells the client to start over. -/
def calmThen (φ : α → Shared → Prop) : Except ServerError α → Shared → Prop
  | .ok a, s => φ a s
  | .error e, _ => Calm (.error e : Except _ Unit)

section Functions

variable {I : Shared → Prop} {given : ℕ → Job → Op → Outcome → Shared → Prop}
  {i : ℕ} {j : Job}

abbrev Obeys (pr : Protocol) (codec : Codec) (d0 : Timeline.Db) (I : Shared → Prop)
    (given : ℕ → Job → Op → Outcome → Shared → Prop) (i : ℕ) (j : Job) {α : Type}
    (Q : Except ServerError α → Shared → Prop) (t : SyncProg α) (s : Shared) : Prop :=
  Keeps (service pr codec) (terms pr codec d0 I given) i j Q t s

/-- The code keeps to the terms, and answers as `φ` says or with an error that is calm. -/
abbrev Tells (pr : Protocol) (codec : Codec) (d0 : Timeline.Db) (I : Shared → Prop)
    (given : ℕ → Job → Op → Outcome → Shared → Prop) (i : ℕ) (j : Job) {α : Type}
    (φ : α → Shared → Prop) (t : SyncProg α) (s : Shared) : Prop :=
  Obeys pr codec d0 I given i j (calmThen φ) t s

variable {φ : α → Shared → Prop} {ψ : β → Shared → Prop} {t : SyncProg α} {command : RedisCommand}
  {commit : ServerCommit} {commits : List ServerCommit} {m lastPts limit : ℕ}
  {req : GetDifferenceRequest}

lemma tells_ret {a : α} (h : ∀ s', Moves s s' → φ a s') :
    Tells pr codec d0 I given i j φ (.ret a) s := fun s' hs _ => h s' hs

/-- What is cached for the channel is not less than `m`, where a run grants that. -/
def Fresh (given : ℕ → Job → Op → Outcome → Shared → Prop) (i : ℕ) (j : Job) (c : ChannelId)
    (m : ℕ) : Prop :=
  ∀ o s n, given i j (.redis (.get (.pts c))) o s → s.redis.get (.pts c) = some n → m ≤ n

lemma tells_getCurrentPts : Tells pr codec d0 I given i j
      (fun n s' => s.db.currentPts c ≤ n ∧ n ≤ s'.db.currentPts c) (getCurrentPts c) s := by
  intro s' hs hI
  refine ⟨.getCurrentPts c, fun o hg => ?_⟩
  cases o with
  | ok => exact fun s'' hs' _ => ⟨hs c, hs' c⟩
  | failed text applied => exact fun _ _ _ => nofun

structure FromLog (c : ChannelId) (lastPts limit n : ℕ) (commits : List ServerCommit) : Prop where
  channel : ∀ commit ∈ commits, commit.channelId = c
  pts : commits.map (·.pts) = List.range' (lastPts + 1) (min limit (n - lastPts))

lemma fromLog_selectCommits {d : Timeline.Db} (h : GapFree c d) :
    FromLog c lastPts limit (d.currentPts c) (selectCommits d c lastPts limit) where
  channel commit hm := by
    rw [selectCommits, List.mem_map] at hm
    obtain ⟨row, hr, rfl⟩ := hm
    have hr' := List.mem_of_mem_filter ((List.mem_insertionSort _).mp (List.mem_of_mem_take hr))
    exact eq_of_beq (List.mem_filter.mp hr').2
  pts := pts_selectCommits h

lemma FromLog.committed {n : ℕ} (h : FromLog c lastPts limit n commits) (hn : n ≤ s.db.currentPts c)
    : ∀ commit ∈ commits, s.Committed commit := by
  intro commit hm
  have hp : commit.pts ∈ commits.map (·.pts) := List.mem_map_of_mem hm
  rw [h.pts, List.mem_range'_1] at hp
  rw [Shared.Committed, h.channel commit hm]
  omega

lemma tells_queryCommits (hd0 : ∀ c, GapFree c d0) : Tells pr codec d0 I given i j
      (fun commits s' => ∃ n, s.db.currentPts c ≤ n ∧ n ≤ s'.db.currentPts c ∧
        FromLog c lastPts limit n commits) (queryCommits c lastPts limit) s := by
  intro s' hs hI
  refine ⟨.queryCommits c lastPts limit, fun o hg => ?_⟩
  cases o with
  | ok =>
    exact fun s'' hs' _ =>
      ⟨s'.db.currentPts c, hs c, hs' c, fromLog_selectCommits (hI.1.gapFree hd0)⟩
  | failed text applied => exact fun _ _ _ => nofun

/-- The commits that Redis holds after `lastPts`, as far as they can be read. -/
def Shared.cachedAfter (codec : Codec) (s : Shared) (c : ChannelId) (lastPts limit : ℕ) :
    List ServerCommit :=
  ((s.redis.zset (.commitLog c)).rangeByScore (asF64 (lastPts + 1)) limit).filterMap
    fun value => (codec.fromJson value).toOption

lemma checkWindow_cases {current : ℕ} :
    Codec.checkWindow req current commits = .ret () ∨
      ∃ text, Codec.checkWindow req current commits = .fail (.channelResyncRequired text) := by
  unfold Codec.checkWindow
  by_cases hlast : req.lastPts < current
  · simp only [if_pos hlast]
    cases commits.head? with
    | none => exact .inr ⟨_, rfl⟩
    | some first =>
      by_cases hfirst : first.pts ≠ req.lastPts + 1
      · exact .inr ⟨_, if_pos hfirst⟩
      · exact .inl (if_neg hfirst)
  · exact .inl (if_neg hlast)

lemma checkWindow_open {current : ℕ}
    (h : req.lastPts < current → commits.head?.map (·.pts) = some (req.lastPts + 1)) :
    Codec.checkWindow req current commits = .ret () := by
  unfold Codec.checkWindow
  by_cases hlast : req.lastPts < current
  · have hhead := h hlast
    simp only [if_pos hlast]
    cases hc : commits.head? with
    | none =>
      rw [hc] at hhead
      exact nomatch hhead
    | some first =>
      rw [hc, Option.map_some, Option.some_inj] at hhead
      exact if_neg (not_not.mpr hhead)
  · exact if_neg hlast

lemma committed_of_hasCommit (hB : Base pr d0 s) (hd0 : ∀ c, GapFree c d0)
    (h : s.hasCommit commit = true) : s.Committed commit := by
  rw [Shared.hasCommit, List.any_eq_true] at h
  obtain ⟨row, hr, heq⟩ := h
  rw [Bool.and_eq_true, beq_iff_eq, beq_iff_eq] at heq
  have hmem : row ∈ s.db.log commit.channelId := by
    rw [Timeline.Db.log, List.mem_filter]
    exact ⟨hr, beq_iff_eq.mpr heq.1⟩
  have hpts := pts_le_of_mem (hB.gapFree hd0) hmem
  rwa [heq.2] at hpts

variable {P : Except ServerError Answer → Prop}
  (hU : (service pr codec).Upholds (terms pr codec d0 I given))
include hU

lemma Tells.bind {g : α → SyncProg β} (h : Tells pr codec d0 I given i j φ t s)
    (hg : ∀ a s', Moves s s' → φ a s' → Tells pr codec d0 I given i j ψ (g a) s') :
    Tells pr codec d0 I given i j ψ (t >>= g) s :=
  Keeps.bind hU h (fun a s' hs _ => hg a s' hs) fun _ _ _ _ he => he

lemma Tells.attempt (h : Tells pr codec d0 I given i j φ t s) :
    Tells pr codec d0 I given i j (fun r s' => ∀ a, r = .ok a → φ a s') t.attempt s := by
  refine Keeps.attempt (h.mono hU fun r s' _ _ hr a ha => ?_)
  subst ha
  exact hr

lemma Tells.mapErr {f : ServerError → ServerError}
    (hf : ∀ e text, f e ≠ .channelResyncRequired text)
    (h : Tells pr codec d0 I given i j φ t s) : Tells pr codec d0 I given i j φ (t.mapErr f) s := by
  refine Keeps.mapErr (h.mono hU fun r s' _ _ hr => ?_)
  cases r with
  | ok a => exact hr
  | error e => exact fun text he => hf e text (Except.error.inj he)

lemma tells_redis {φ : command.Reply → Shared → Prop}
    (hask : ∀ s', Moves s s' → Asked codec s' (.redis command))
    (hok : ∀ o s' s'', Base pr d0 s' → I s' → given i j (.redis command) o s' → Moves s' s'' →
      φ (s'.redis.reply command) s'') : Tells pr codec d0 I given i j φ (redis command) s := by
  intro s' hs hI
  refine ⟨hask s' hs, fun o hg => ?_⟩
  have hm := (hU.call i j _ o s' hI (hask s' hs) hg).2
  cases o with
  | ok => exact fun s'' hs' _ => hok .ok s' s'' hI.1 hI.2 hg fun c => (hm c).trans (hs' c)
  | failed text applied => exact fun _ _ _ => nofun

lemma tells_redis_any (hask : ∀ s', Moves s s' → Asked codec s' (.redis command)) :
    Tells pr codec d0 I given i j (fun _ _ => True) (redis command) s :=
  tells_redis hU hask fun _ _ _ _ _ _ _ => trivial

lemma tells_cacheCommit (hc : s.Committed commit) :
    Tells pr codec d0 I given i j (fun _ _ => True) (codec.cacheCommit commit) s := by
  rw [Codec.cacheCommit]
  cases hj : codec.toJson commit with
  | error e => exact fun _ _ _ => nofun
  | ok text =>
    refine (tells_redis_any hU fun s' hs => .zadd (hc.later hs) hj).bind hU fun _ s1 _ _ => ?_
    refine (tells_redis_any hU fun _ _ => .trim _).bind hU fun _ s2 _ _ => ?_
    exact tells_redis_any hU fun _ _ => .expire _

lemma tells_cachePts {n : ℕ} (hn : n ≤ s.db.currentPts c) :
    Tells pr codec d0 I given i j (fun _ _ => True) (cachePts c n) s :=
  (tells_redis_any hU fun _ hs => .setex (hn.trans (hs c))).mapErr hU nofun

lemma tells_getPtsFromCache (hf : Fresh given i j c m) : Tells pr codec d0 I given i j
      (fun x s' => ∀ n, x = some n → m ≤ n ∧ n ≤ s'.db.currentPts c) (getPtsFromCache c) s := by
  have hget : Tells pr codec d0 I given i j
      (fun x s' => ∀ n : ℕ, x = some n → m ≤ n ∧ n ≤ s'.db.currentPts c)
      (redis (.get (.pts c))) s := by
    refine tells_redis hU (fun _ _ => .get c) fun o s' s'' hB _ hg hs n hn => ?_
    exact ⟨hf o s' n hg hn, (hB.pts c n hn).trans (hs c)⟩
  refine (hget.attempt hU).bind hU fun r s' _ h => ?_
  cases r with
  | ok value =>
    exact tells_ret fun s'' hs n hn => ⟨(h value rfl n hn).1, (h value rfl n hn).2.trans (hs c)⟩
  | error e => exact tells_ret fun _ _ => nofun

/-- The number is one that was given out, and not less than what is asked of the cache. -/
lemma tells_channelPts (hf : Fresh given i j c m) (hm : m ≤ s.db.currentPts c) :
    Tells pr codec d0 I given i j (fun n s' => m ≤ n ∧ n ≤ s'.db.currentPts c)
      (channelPts c) s := by
  refine (tells_getPtsFromCache hU hf).bind hU fun r s1 hs1 h => ?_
  cases r with
  | some cached =>
    obtain ⟨hle, hcur⟩ := h cached rfl
    exact tells_ret fun s2 hs2 => ⟨hle, hcur.trans (hs2 c)⟩
  | none =>
    refine tells_getCurrentPts.bind hU fun current s2 _ ⟨hlow, hhigh⟩ => ?_
    refine (tells_cachePts hU hhigh).bind hU fun _ s3 hs3 _ => tells_ret fun s4 hs4 => ?_
    exact ⟨(hm.trans (hs1 c)).trans hlow, (hhigh.trans (hs3 c)).trans (hs4 c)⟩

lemma tells_queryCommitsFromCache : Tells pr codec d0 I given i j
      (fun x _ => ∀ commits, x = some commits →
        ∃ s', Base pr d0 s' ∧ I s' ∧ commits = s'.cachedAfter codec c lastPts limit)
      (codec.queryCommitsFromCache c lastPts limit) s := by
  have hrange : Tells pr codec d0 I given i j (fun values _ => ∃ s', Base pr d0 s' ∧ I s' ∧
        values = (s'.redis.zset (.commitLog c)).rangeByScore (asF64 (lastPts + 1)) limit)
      (redis (.zrangebyscore (.commitLog c) (asF64 (lastPts + 1)) limit)) s :=
    tells_redis hU (fun _ _ => .range c _ _) fun o s' _ hB hI _ _ => ⟨s', hB, hI, rfl⟩
  refine (hrange.mapErr hU (by exact nofun)).bind hU fun values s1 _ ⟨s', hB, hI, hv⟩ => ?_
  dsimp only
  split
  · exact tells_ret fun _ _ => nofun
  · refine tells_ret fun _ _ commits hc => ⟨s', hB, hI, ?_⟩
    cases hc
    rw [Shared.cachedAfter, ← hv]

/-- What follows `lastPts` comes from the log, or from the cache with the next commit first. -/
lemma tells_commitsAfter (hd0 : ∀ c, GapFree c d0) {P : List ServerCommit → Prop}
    (hlog : ∀ n commits, s.db.currentPts c ≤ n → FromLog c lastPts limit n commits → P commits)
    (hcache : ∀ s', Base pr d0 s' → I s' →
      (s'.cachedAfter codec c lastPts limit).head?.map (·.pts) = some (lastPts + 1) →
      P (s'.cachedAfter codec c lastPts limit)) :
    Tells pr codec d0 I given i j (fun commits _ => P commits)
      (codec.commitsAfter c lastPts limit) s := by
  refine (tells_queryCommitsFromCache hU).bind hU fun x s1 hs1 h => ?_
  cases x with
  | none =>
    refine (tells_queryCommits hd0).bind hU fun commits s2 _ ⟨n, hlow, hhigh, hfrom⟩ => ?_
    have hP : P commits := hlog n commits ((hs1 c).trans hlow) hfrom
    dsimp only
    split
    · -- the batch is handed over before the answer
      intro s3 hs3 hI3
      refine ⟨.spawn fun commit hm => (hfrom.committed hhigh commit hm).later hs3, fun o hg => ?_⟩
      exact tells_ret fun _ _ => hP
    · exact tells_ret fun _ _ => hP
  | some cached =>
    obtain ⟨s2, hB, hI, hcached⟩ := h cached rfl
    dsimp only
    split
    · next hhead =>
      rw [hcached] at hhead ⊢
      exact tells_ret fun _ _ => hcache s2 hB hI hhead
    · refine (tells_queryCommits hd0).mono hU fun r s2 _ _ h => ?_
      cases r with
      | ok commits =>
        obtain ⟨n, hlow, -, hfrom⟩ := h
        exact hlog n commits ((hs1 c).trans hlow) hfrom
      | error e => exact h

/-- What becomes of a request for a difference. The commits are described by `P`, which may depend
on the number they are compared with. -/
lemma obeys_handleGetDifference (hd0 : ∀ c, GapFree c d0)
    (hf : Fresh given i j req.channelId m) (hm : m ≤ s.db.currentPts req.channelId)
    {P : ℕ → List ServerCommit → Prop} {R : Except ServerError GetDifferenceResponse → Prop}
    (hlog : ∀ current n commits, m ≤ current → current ≤ n →
      FromLog req.channelId req.lastPts (req.limit.getD 100) n commits → P current commits)
    (hcache : ∀ current s', Base pr d0 s' → I s' →
      (s'.cachedAfter codec req.channelId req.lastPts (req.limit.getD 100)).head?.map (·.pts) =
        some (req.lastPts + 1) →
      P current (s'.cachedAfter codec req.channelId req.lastPts (req.limit.getD 100)))
    (hahead : ∀ current text, m ≤ current → current < req.lastPts →
      R (.error (.channelResyncRequired text)))
    (hwindow : ∀ current commits text, P current commits →
      Codec.checkWindow req current commits = .fail (.channelResyncRequired text) →
      R (.error (.channelResyncRequired text)))
    (hcalm : ∀ r, Calm r → (∀ response, r = .ok response →
      ∃ current, P current response.commits) → R r) :
    Obeys pr codec d0 I given i j (fun r _ => R r) (codec.handleGetDifference req) s := by
  refine Keeps.bind hU (tells_channelPts hU hf hm) ?_ fun e _ _ _ he =>
    hcalm _ (Calm.error he) nofun
  intro current s1 _ _ ⟨hlow, hhigh⟩
  dsimp only
  split
  · next hlt => exact fun _ _ _ => hahead current _ hlow hlt
  have hafter : Tells pr codec d0 I given i j (fun commits _ => P current commits)
      (codec.commitsAfter req.channelId req.lastPts (req.limit.getD 100)) s1 :=
    tells_commitsAfter hU hd0 (fun n commits hn h => hlog current n commits hlow (hhigh.trans hn) h)
      fun s' hB hI hhead => hcache current s' hB hI hhead
  refine Keeps.bind hU hafter ?_ fun e _ _ _ he => hcalm _ (Calm.error he) nofun
  intro commits s2 _ _ hc
  rcases checkWindow_cases with hw | ⟨text, hw⟩
  · rw [hw]
    refine fun _ _ _ => hcalm _ calm_ok fun response hr => ⟨current, ?_⟩
    cases hr
    exact hc
  · have hR := hwindow current commits text hc hw
    rw [hw]
    exact fun _ _ _ => hR

lemma tells_cacheCommittedCommit (hc : s.Committed commit) :
    Tells pr codec d0 I given i j (fun _ _ => True) (codec.cacheCommittedCommit commit) s :=
  (tells_cachePts hU hc).bind hU fun _ _ hs _ => tells_cacheCommit hU (hc.later hs)

lemma tells_postCommitCacheWriter :
    Tells pr codec d0 I given i j (fun _ _ => True) codec.postCommitCacheWriter s := by
  intro s1 _ hI
  refine ⟨.recv, fun o _ => ?_⟩
  cases hq : s1.queue with
  | nil =>
    simp only [service, Shared.exec, hq]
    exact fun _ _ _ => trivial
  | cons commit rest =>
    have hc : s1.Committed commit := hI.1.queue commit (by simp [hq])
    simp only [service, Shared.exec, hq]
    refine Tells.bind hU ((tells_cachePts hU hc).attempt hU) fun _ s2 hs _ => ?_
    refine ((tells_cacheCommit hU (hc.later hs)).attempt hU).bind hU fun _ _ _ _ => ?_
    exact tells_ret fun _ _ => trivial

lemma tells_batchCacheCommits (hc : ∀ commit ∈ commits, s.Committed commit) :
    Tells pr codec d0 I given i j (fun _ _ => True) (codec.batchCacheCommits commits) s := by
  induction commits generalizing s with
  | nil => exact tells_ret fun _ _ => trivial
  | cons commit commits ih =>
    refine (tells_cacheCommit hU (hc commit (by simp))).bind hU fun _ s' hs _ => ih fun x hx => ?_
    exact (hc x (List.mem_cons_of_mem _ hx)).later hs

lemma tells_clearChannelCache :
    Tells pr codec d0 I given i j (fun _ _ => True) (clearChannelCache c) s := by
  refine ((tells_redis_any hU fun _ _ => .del _).attempt hU).bind hU fun _ s1 _ _ => ?_
  refine ((tells_redis_any hU fun _ _ => .del _).attempt hU).bind hU fun _ s2 _ _ => ?_
  exact tells_ret fun _ _ => trivial

lemma Tells.done {f : α → Answer} (hP : ∀ r, P r) (h : Tells pr codec d0 I given i j φ t s) :
    Obeys pr codec d0 I given i j (fun r _ => P r) (t >>= fun a => .ret (f a)) s :=
  Keeps.bind hU h (fun _ _ _ _ _ _ _ _ => hP _) fun _ _ _ _ _ => hP _

lemma obeys_prog (hd0 : ∀ c, GapFree c d0) (hB : Base pr d0 s) (ha : s.admits j = true)
    (hdiff : ∀ req, j = .getDifference req → Obeys pr codec d0 I given i j
      (fun r _ => P (r.map .difference)) (codec.handleGetDifference req) s)
    (hP : (∀ req, j ≠ .getDifference req) → ∀ r, P r) :
    Obeys pr codec d0 I given i j (fun r _ => P r) (codec.prog j) s := by
  cases j with
  | getDifference req =>
    exact (hdiff req rfl).bind hU (fun a _ _ _ h _ _ _ => h) fun e _ _ _ h => h
  | getChannelPts c =>
    exact (tells_channelPts hU (fun _ _ _ _ _ => Nat.zero_le _) (Nat.zero_le _)).done hU (hP nofun)
  | cacheCommittedCommit commit =>
    exact (tells_cacheCommittedCommit hU (committed_of_hasCommit hB hd0 ha)).done hU (hP nofun)
  | enqueue commit =>
    intro s' hs _
    refine ⟨.trySend ((committed_of_hasCommit hB hd0 ha).later hs), fun o _ => ?_⟩
    exact fun _ _ _ => hP nofun _
  | postCommitCacheWriter => exact (tells_postCommitCacheWriter hU).done hU (hP nofun)
  | batchCacheCommits commits =>
    have hc := hB.spawned commits (of_decide_eq_true ha)
    exact ((tells_batchCacheCommits hU hc).attempt hU).done hU (hP nofun)
  | clearChannelCache c => exact (tells_clearChannelCache hU).done hU (hP nofun)

lemma obeys_prog_any (hd0 : ∀ c, GapFree c d0) (hB : Base pr d0 s) (ha : s.admits j = true) :
    Obeys pr codec d0 I given i j (fun _ _ => True) (codec.prog j) s := by
  refine obeys_prog hU hd0 hB ha (fun req _ => ?_) fun _ _ => trivial
  exact obeys_handleGetDifference hU hd0 (fun _ _ _ _ _ => Nat.zero_le _) (Nat.zero_le _)
    (fun _ _ _ _ _ _ => trivial) (fun _ _ _ _ _ => trivial)
    (fun _ _ _ _ => trivial) (fun _ _ _ _ _ => trivial) fun _ _ _ => trivial

end Functions

lemma healthy_run (pr : Protocol) (codec : Codec) (hd0 : ∀ c, GapFree c d0) (evs : List SyncEvent) :
    Healthy (service pr codec) (terms pr codec d0 (fun _ => True) fun _ _ _ _ _ => True)
      (fun _ _ _ => True) (run pr codec d0 evs) := by
  have hU : (service pr codec).Upholds (terms pr codec d0 (fun _ => True) fun _ _ _ _ _ => True) :=
    upholds (fun _ _ _ _ _ _ _ _ _ => trivial) fun _ _ _ _ => trivial
  have h0 : (terms pr codec d0 (fun _ => True) fun _ _ _ _ _ => True).inv (.start d0) :=
    ⟨base_start, trivial⟩
  refine (healthy_init h0).run hU (fun i j s hI ha => obeys_prog_any hU hd0 hI.1 ha) evs ?_
  exact givenRun_true _ _

end PrivChat.Sync
