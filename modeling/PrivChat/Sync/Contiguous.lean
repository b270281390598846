import PrivChat.Sync.Spec

/-!
A difference has no hole, and when a client is told to start a channel over.

The database answers a piece of the log, which has none. The cache is another matter: of what it
answers only the first commit is looked at. If the commits of a channel are cached in their
order, then what is cached is at all times a piece of the log too, and so is the answer.

The number that the service compares with is read from the cache, where it may be older than the
one the client has. If it is not, then a client that has no more than was committed is always
given what follows.
-/

namespace PrivChat.Sync

open Tasks
open Redis
open Timeline (ChannelId Protocol GapFree)

variable {pr : Protocol} {codec : Codec} {d0 : Timeline.Db} {s : Shared}

/-- The numbers are those that follow `lastPts`, one after the other. -/
def Contiguous (lastPts : ℕ) (commits : List ServerCommit) : Prop :=
  commits.map (·.pts) = List.range' (lastPts + 1) commits.length

/-- Up to here every number is a double. -/
def maxExact : ℕ := 9007199254740992

variable {z : SortedSet ℕ String} {commits : List ServerCommit} {c : ChannelId} {n lastPts : ℕ}

lemma asF64_of_le (h : n ≤ maxExact) : asF64 n = n := by
  have hexact : ∀ u, n % u = 0 → 0 < u →
      (if 2 * (n % u) < u ∨ 2 * (n % u) = u ∧ n / u % 2 = 0 then n / u * u
        else (n / u + 1) * u) = n := by
    intro u hu hpos
    rw [if_pos (.inl (by omega))]
    exact Nat.div_mul_cancel (Nat.dvd_of_mod_eq_zero hu)
  rcases Nat.lt_or_ge n maxExact with hlt | hge
  · have hlog : n.log2 - 52 = 0 := by
      rcases Nat.eq_zero_or_pos n with rfl | hpos
      · rfl
      · have : n.log2 < 53 := (Nat.log2_lt (by omega)).mpr hlt
        omega
    rw [asF64, hlog]
    exact hexact 1 (Nat.mod_one n) Nat.one_pos
  · obtain rfl : n = maxExact := le_antisymm h hge
    decide +kernel

/-! ### The cache as a piece of the log -/

/-- The cached commits are consecutive, and each can be read. -/
structure Window (codec : Codec) (z : SortedSet ℕ String) : Prop where
  scores : ∃ a, z.scores = List.range' a z.entries.length
  read : ∀ e ∈ z.entries, ∃ commit, codec.fromJson (ofLex e).2 = .ok commit ∧
    commit.pts = (ofLex e).1

/-- What is added comes right after what is there, or is there already. -/
def Next (z : SortedSet ℕ String) (score : ℕ) (member : String) : Prop :=
  z.entries = [] ∨ toLex (score, member) ∈ z.entries ∨ z.scores.getLast?.map (· + 1) = some score

instance Next.decidable (z : SortedSet ℕ String) (score : ℕ) (member : String) :
    Decidable (Next z score member) := inferInstanceAs (Decidable (_ ∨ _ ∨ _))

lemma window_empty : Window codec ∅ := ⟨⟨0, rfl⟩, nofun⟩

lemma Window.drop {z' : SortedSet ℕ String} (h : Window codec z)
    (hz : z'.entries = z.entries.drop n) : Window codec z' where
  scores := by
    obtain ⟨a, ha⟩ := h.scores
    refine ⟨a + n, ?_⟩
    rw [SortedSet.scores, hz, List.map_drop, List.length_drop]
    rw [SortedSet.scores] at ha
    rw [ha, List.drop_range', Nat.mul_one]
  read e he := h.read e (List.mem_of_mem_drop (hz ▸ he))

lemma Window.next_eq (h : Window codec z) {score : ℕ}
    (hn : z.entries = [] ∨ z.scores.getLast?.map (· + 1) = some score) :
    ∃ a, z.scores = List.range' a z.entries.length ∧ score = a + z.entries.length := by
  obtain ⟨a, ha⟩ := h.scores
  rcases hn with hnil | hlast
  · refine ⟨score, ?_, ?_⟩
    · rw [SortedSet.scores, hnil]
      rfl
    · rw [hnil]
      rfl
  · refine ⟨a, ha, ?_⟩
    rw [ha, List.getLast?_range'] at hlast
    by_cases h0 : z.entries.length = 0
    · rw [if_pos h0] at hlast
      exact nomatch hlast
    · rw [if_neg h0, Option.map_some, Option.some_inj] at hlast
      omega

lemma Window.add (h : Window codec z) {commit : ServerCommit}
    {text : String} (ht : codec.toJson commit = .ok text) (hn : Next z commit.pts text) :
    Window codec (z.add commit.pts text) := by
  obtain ⟨commit', hread, hpts⟩ := codec.pts_fromJson commit text ht
  by_cases hmem : toLex (commit.pts, text) ∈ z.entries
  · rw [SortedSet.add_of_mem hmem]
    exact h
  have hnext : z.entries = [] ∨ z.scores.getLast?.map (· + 1) = some commit.pts := by
    rcases hn with hn | hn | hn
    · exact .inl hn
    · exact absurd hn hmem
    · exact .inr hn
  obtain ⟨a, ha, hscore⟩ := h.next_eq hnext
  have hlt : ∀ e ∈ z.entries, (ofLex e).1 < commit.pts := by
    intro e he
    have hm : (ofLex e).1 ∈ z.scores := List.mem_map_of_mem he
    rw [ha, List.mem_range'_1] at hm
    omega
  have hne : ∀ e ∈ z.entries, (ofLex e).2 ≠ text := by
    -- the text would be read with a smaller number
    intro e he heq
    obtain ⟨commit'', hread'', hpts''⟩ := h.read e he
    rw [heq, hread] at hread''
    cases hread''
    have := hlt e he
    omega
  have hentries := SortedSet.add_last hne hlt
  constructor
  · refine ⟨a, ?_⟩
    rw [SortedSet.scores] at ha ⊢
    rw [hentries, List.map_append, ha, List.length_append, List.length_singleton,
      List.range'_concat, hscore]
    simp
  · intro e he
    rw [hentries, List.mem_append, List.mem_singleton] at he
    rcases he with he | rfl
    · exact h.read e he
    · exact ⟨commit', hread, hpts⟩

lemma pts_filterMap_fromJson {l : List (ℕ ×ₗ String)}
    (h : ∀ e ∈ l, ∃ commit, codec.fromJson (ofLex e).2 = .ok commit ∧ commit.pts = (ofLex e).1) :
    ((l.map fun e => (ofLex e).2).filterMap fun value => (codec.fromJson value).toOption).map
      (·.pts) = l.map fun e => (ofLex e).1 := by
  induction l with
  | nil => rfl
  | cons e l ih =>
    obtain ⟨commit, hread, hpts⟩ := h e (by simp)
    have hl := ih fun e' he' => h e' (List.mem_cons_of_mem _ he')
    rw [List.map_cons, List.filterMap_cons_some (by rw [hread]; rfl), List.map_cons,
      List.map_cons, hl, hpts]

lemma Window.cachedAfter (h : Window codec (s.redis.zset (.commitLog c))) {lastPts limit : ℕ} :
    ∃ a k, (s.cachedAfter codec c lastPts limit).map (·.pts) = List.range' a k := by
  obtain ⟨a, ha⟩ := h.scores
  have hsub : ∀ e ∈ ((s.redis.zset (.commitLog c)).entries.filter
      fun e => asF64 (lastPts + 1) ≤ (ofLex e).1).take limit,
      e ∈ (s.redis.zset (.commitLog c)).entries :=
    fun e he => List.mem_of_mem_filter (List.mem_of_mem_take he)
  have hfilter : ((s.redis.zset (.commitLog c)).entries.filter
      fun e => asF64 (lastPts + 1) ≤ (ofLex e).1).map (fun e => (ofLex e).1) =
      (s.redis.zset (.commitLog c)).scores.filter (asF64 (lastPts + 1) ≤ ·) := by
    rw [SortedSet.scores, List.filter_map]
    rfl
  rw [Shared.cachedAfter, SortedSet.rangeByScore,
    pts_filterMap_fromJson fun e he => h.read e (hsub e he), List.map_take, hfilter, ha,
    filter_le_range', take_range']
  exact ⟨_, _, rfl⟩

lemma contiguous_of_head {a k : ℕ} (h : commits.map (·.pts) = List.range' a k)
    (hhead : commits.head?.map (·.pts) = some (lastPts + 1)) : Contiguous lastPts commits := by
  have hk : k = commits.length := by
    have hlen := congrArg List.length h
    rw [List.length_map, List.length_range'] at hlen
    exact hlen.symm
  have ha : a = lastPts + 1 := by
    rw [← List.head?_map, h] at hhead
    cases k with
    | zero => exact nomatch hhead
    | succ k =>
      rw [List.range'_succ, List.head?_cons, Option.some_inj] at hhead
      exact hhead
  rw [Contiguous, h, ha, hk]

lemma FromLog.contiguous {limit : ℕ}
    (h : FromLog c lastPts limit n commits) : Contiguous lastPts commits := by
  have hlen := congrArg List.length h.pts
  rw [List.length_map, List.length_range'] at hlen
  rw [Contiguous, hlen]
  exact h.pts

/-! ### Runs in which commits are cached in their order -/

/-- What an operation adds to the cached commits, and of which channel. -/
def Op.added : Op → Option (ChannelId × ℕ × String)
  | .redis (.zadd (.commitLog c) score member) => some (c, score, member)
  | _ => none

/-- Where a commit is added to the cache, the channel has no more commits than a double can tell
apart, and the commit comes right after those that are cached, or is cached already. -/
def InOrder (_ : ℕ) (_ : Job) (op : Op) (o : Outcome) (s : Shared) : Prop :=
  ∀ x ∈ op.added, o.applied = true →
    s.db.currentPts x.1 ≤ maxExact ∧ Next (s.redis.zset (.commitLog x.1)) x.2.1 x.2.2

instance InOrder.decidable (i : ℕ) (j : Job) (op : Op) (o : Outcome) (s : Shared) :
    Decidable (InOrder i j op o s) := inferInstanceAs (Decidable (∀ x ∈ op.added, _))

/-- The cache of every channel is consecutive. -/
def Windows (codec : Codec) (s : Shared) : Prop :=
  ∀ c, Window codec (s.redis.zset (.commitLog c))

lemma Windows.update (h : Windows codec s) {f : Key → SortedSet ℕ String} {k : Key}
    (hf : f = Function.update s.redis.zset k z) (hz : Window codec z)
    (c : ChannelId) : Window codec (f (.commitLog c)) := by
  rw [hf, Function.update_apply]
  split
  · exact hz
  · exact h c

lemma Windows.effect (h : Windows codec s) {command : RedisCommand} {o : Outcome}
    (hz : o.applied = true → ∀ c, Window codec ((s.redis.effect command).zset (.commitLog c))) :
    Windows codec (Shared.exec (.redis command) o s).2 := by
  rw [exec_redis]
  cases ho : o.applied with
  | true => exact hz ho
  | false => exact h

lemma Windows.exec (h : Windows codec s) {i : ℕ} {j : Job} {op : Op} {o : Outcome}
    (hop : Asked codec s op) (hg : InOrder i j op o s) : Windows codec (Shared.exec op o s).2 := by
  cases hop with
  | get c => exact h.effect fun _ => h
  | setex hn => exact h.effect fun _ => h
  | @zadd commit text hc ht =>
    refine h.effect fun ho => h.update (Redis.Store.zset_zadd _ _ _ _) ?_
    obtain ⟨hmax, hnext⟩ := hg _ rfl ho
    have hexact : asF64 commit.pts = commit.pts := asF64_of_le (hc.trans hmax)
    rw [hexact] at hnext ⊢
    exact (h commit.channelId).add ht hnext
  | trim c =>
    refine h.effect fun _ => h.update (Redis.Store.zset_zremrangebyrank _ _ _ _) ?_
    exact (h c).drop SortedSet.removeRangeByRank_keep
  | expire c =>
    refine h.effect fun _ => ?_
    rw [Redis.Store.zset_expire _ _ (by omega)]
    exact h
  | range c least limit => exact h.effect fun _ => h
  | del k => exact h.effect fun _ => h.update (Redis.Store.zset_del _ _) window_empty
  | getCurrentPts c => cases o <;> exact h
  | queryCommits c lastPts limit => cases o <;> exact h
  | trySend hc =>
    rw [Shared.exec]
    split <;> exact h
  | recv =>
    rw [Shared.exec]
    split <;> exact h
  | spawn hc => exact h

lemma Windows.outside (h : Windows codec s) (x : Outside) : Windows codec (s.outside pr x) := by
  cases x with
  | repo e => exact h
  | wait seconds =>
    intro c
    rcases s.redis.zset_wait with hw | hw
    · exact hw ▸ h c
    · exact hw ▸ window_empty

lemma upholds_inOrder : (service pr codec).Upholds (terms pr codec d0 (Windows codec) InOrder) :=
  upholds (fun _ _ _ _ _ _ hW ho hg => hW.exec ho hg) fun x _ _ hW => hW.outside x

variable {req : GetDifferenceRequest}

lemma obeys_handleGetDifference_contiguous (hd0 : ∀ c, GapFree c d0) {i : ℕ} {j : Job} :
    Obeys pr codec d0 (Windows codec) InOrder i j
      (fun r _ => ∀ response, r = .ok response → Contiguous req.lastPts response.commits)
      (codec.handleGetDifference req) s := by
  refine obeys_handleGetDifference upholds_inOrder hd0 (fun _ _ _ _ _ => Nat.zero_le _)
    (Nat.zero_le _)
    (fun _ n commits _ _ h => h.contiguous) ?_ (fun _ _ _ _ => nofun) (fun _ _ _ _ _ => nofun) ?_
  · intro _ s' _ hW hhead
    obtain ⟨a, k, hak⟩ := (hW req.channelId).cachedAfter
    exact contiguous_of_head hak hhead
  · intro r _ h response hr
    obtain ⟨_, hc⟩ := h response hr
    exact hc

/-- **A difference has no hole.** In a run in which the commits of each channel are cached in
their order, every difference that is given is the part of the log that follows what the client
has. -/
theorem difference_contiguous (pr : Protocol) (codec : Codec) (d0 : Timeline.Db)
    (hd0 : ∀ c, GapFree c d0) (evs : List SyncEvent)
    (hevs : GivenRun (service pr codec) InOrder (.init (.start d0)) evs)
    (i : ℕ) (req : GetDifferenceRequest) (response : GetDifferenceResponse)
    (hr : (run pr codec d0 evs).tasks i =
      .finished (.getDifference req) (.ok (.difference response))) : response.commits.map (·.pts) =
      List.range' (req.lastPts + 1) response.commits.length := by
  have hU : (service pr codec).Upholds (terms pr codec d0 (Windows codec) InOrder) :=
    upholds_inOrder
  have hP : Serves (service pr codec) (terms pr codec d0 (Windows codec) InOrder)
      fun _ j r => ∀ req response, j = .getDifference req → r = .ok (.difference response) →
        Contiguous req.lastPts response.commits := by
    intro i j s hI ha
    refine obeys_prog hU hd0 hI.1 ha ?_ fun hj r req _ hr _ => absurd hr (hj req)
    rintro req rfl
    refine (obeys_handleGetDifference_contiguous hd0).mono hU ?_
    rintro (e | response) s' - - h req' response' hreq hresponse
    · exact nomatch hresponse
    · cases hreq
      cases hresponse
      exact h response rfl
  have h0 : (terms pr codec d0 (Windows codec) InOrder).inv (.start d0) :=
    ⟨base_start, fun _ => window_empty⟩
  exact ((healthy_init h0).run hU hP evs hevs).finished i _ _ hr req response rfl rfl

/-! ### Two runs -/

open Timeline (sampleProtocol sampleDb sampleRequest sampleWorld)

/-- The commit with this number that the runs below write to channel 7. -/
def sampleCommit (pts : ℕ) : ServerCommit where
  eventId := some pts
  pts := pts
  serverMsgId := 99 + pts
  localMessageId := some 5
  channelId := 7
  channelType := 2
  messageType := "text"
  content := "\x7b\x7d"
  serverTimestamp := 1000
  senderId := 1
  eventSchemaVersion := some 1
  canonicalEvent := some [1]
  senderInfo := none

/-- A text that tells the number. -/
def sampleCodec : Codec where
  toJson commit := .ok (String.ofList (List.replicate commit.pts 'x'))
  fromJson text := .ok (sampleCommit text.length)
  pts_fromJson commit text h := by
    cases h
    exact ⟨_, rfl, by simp [sampleCommit]⟩

/-- The repository writes a message to channel 7. -/
def commitEvents (i : ℕ) : List SyncEvent :=
  let request := { sampleRequest (100 + i) [] with clientRegistryClaim := none }
  .env (.repo (.start i (.createMessage request))) ::
    List.replicate 22 (.env (.repo (.step i (sampleWorld (i + 1)))))

/-- The commit is cached, as far as Redis answers. -/
def cacheEvents (i pts : ℕ) (outcomes : List Outcome) : List SyncEvent :=
  .start i (.cacheCommittedCommit (sampleCommit pts)) :: outcomes.map (.step i ·)

/-- A client asks for all there is. -/
def differenceEvents (i lastPts : ℕ) : List SyncEvent :=
  .start i (.getDifference ⟨7, 2, lastPts, none⟩) :: List.replicate 4 (.step i .ok)

/-- Three messages are written. The second is not cached, because Redis did not answer in time;
then a client asks for what there is. -/
def holeRun : List SyncEvent :=
  commitEvents 0 ++ commitEvents 1 ++ commitEvents 2 ++
    cacheEvents 0 1 [.ok, .ok, .ok, .ok, .ok] ++
    cacheEvents 1 2 [.ok, .failed "Redis command timeout (5000ms)" false, .ok] ++
    cacheEvents 2 3 [.ok, .ok, .ok, .ok, .ok] ++ differenceEvents 3 0

set_option maxRecDepth 20000 in
/-- The client gets the first and the third commit, and is told that there is no more. -/
theorem difference_with_hole :
    ((run sampleProtocol sampleCodec sampleDb holeRun).shared.db.log 7).map (·.pts) = [1, 2, 3] ∧
      ((run sampleProtocol sampleCodec sampleDb holeRun).tasks 3).result =
        some (.ok (.difference ⟨[sampleCommit 1, sampleCommit 3], 3, false⟩)) := by
  decide

/-- All three are cached. -/
def inOrderRun : List SyncEvent :=
  commitEvents 0 ++ commitEvents 1 ++ commitEvents 2 ++
    cacheEvents 0 1 [.ok, .ok, .ok, .ok, .ok] ++ cacheEvents 1 2 [.ok, .ok, .ok, .ok, .ok] ++
    cacheEvents 2 3 [.ok, .ok, .ok, .ok, .ok] ++ differenceEvents 3 1

set_option maxRecDepth 20000 in
theorem difference_contiguous_sample :
    GivenRun (service sampleProtocol sampleCodec) InOrder (.init (.start sampleDb)) inOrderRun ∧
      (run sampleProtocol sampleCodec sampleDb inOrderRun).tasks 3 =
        .finished (.getDifference ⟨7, 2, 1, none⟩)
          (.ok (.difference ⟨[sampleCommit 2, sampleCommit 3], 3, false⟩)) ∧
      [sampleCommit 2, sampleCommit 3].map (·.pts) = List.range' 2 2 := by
  have hgap : ∀ c, GapFree c sampleDb := fun _ => rfl
  have hgiven : GivenRun (service sampleProtocol sampleCodec) InOrder (.init (.start sampleDb))
      inOrderRun := by decide
  have hdone : (run sampleProtocol sampleCodec sampleDb inOrderRun).tasks 3 =
      .finished (.getDifference ⟨7, 2, 1, none⟩)
        (.ok (.difference ⟨[sampleCommit 2, sampleCommit 3], 3, false⟩)) := rfl
  exact ⟨hgiven, hdone, difference_contiguous sampleProtocol sampleCodec sampleDb hgap inOrderRun
    hgiven 3 _ _ hdone⟩

/-! ### Starting over -/

variable {pr : Protocol} {codec : Codec} {d0 : Timeline.Db} {s : Shared}

/-- The channel whose number an operation reads from the cache. -/
def Op.readPts : Op → Option ChannelId
  | .redis (.get (.pts c)) => some c
  | _ => none

/-- Where this task reads the number of the channel from the cache, it is gone or not less than
what the client has. -/
def UpToDate (task : ℕ) (req : GetDifferenceRequest) (i : ℕ) (_ : Job) (op : Op) (_ : Outcome)
    (s : Shared) : Prop :=
  i = task → ∀ c ∈ op.readPts, ∀ n ∈ s.redis.get (.pts c), req.lastPts ≤ n

instance UpToDate.decidable (task : ℕ) (req : GetDifferenceRequest) (i : ℕ) (j : Job) (op : Op)
    (o : Outcome) (s : Shared) : Decidable (UpToDate task req i j op o s) :=
  inferInstanceAs (Decidable (i = task → ∀ c ∈ op.readPts, _))

/-- What the client has was committed. -/
def Reached (req : GetDifferenceRequest) (s : Shared) : Prop :=
  req.lastPts ≤ s.db.currentPts req.channelId

lemma upholds_reached {given : ℕ → Job → Op → Outcome → Shared → Prop}
    : (service pr codec).Upholds (terms pr codec d0 (Reached req) given) := by
  refine upholds (fun _ _ op o s _ h _ _ => ?_) fun x s hB h => ?_
  · rw [Reached, db_exec]
    exact h
  · cases x with
    | repo e => exact h.trans (hB.moves_repo e _)
    | wait seconds => exact h

lemma FromLog.head {lastPts limit n : ℕ}
    (h : FromLog c lastPts limit n commits) (hlimit : 0 < limit) (hn : lastPts < n) :
    commits.head?.map (·.pts) = some (lastPts + 1) := by
  have hpos : min limit (n - lastPts) ≠ 0 := by omega
  obtain ⟨k, hk⟩ := Nat.exists_eq_succ_of_ne_zero hpos
  rw [← List.head?_map, h.pts, hk, List.range'_succ, List.head?_cons]

lemma obeys_handleGetDifference_calm (hd0 : ∀ c, GapFree c d0) {i : ℕ} {j : Job}
    (hlimit : req.limit ≠ some 0) (hs : Reached req s) :
    Obeys pr codec d0 (Reached req) (UpToDate i req) i j (fun r _ => Calm r)
      (codec.handleGetDifference req) s := by
  have hpos : 0 < req.limit.getD 100 := by
    cases hl : req.limit with
    | none => simp
    | some n =>
      have : n ≠ 0 := fun h => hlimit (by rw [hl, h])
      rw [Option.getD_some]
      omega
  refine obeys_handleGetDifference upholds_reached hd0
    (fun o s n hg hn => hg rfl req.channelId rfl n hn) hs
    (P := fun current commits => req.lastPts < current →
      commits.head?.map (·.pts) = some (req.lastPts + 1)) ?_ ?_ ?_ ?_ fun r hr _ => hr
  · intro current n commits _ hn h hlt
    exact h.head hpos (hlt.trans_le hn)
  · exact fun _ _ _ _ hhead _ => hhead
  · intro current text hle hlt
    omega
  · intro current commits text hP hw
    rw [checkWindow_open hP] at hw
    exact nomatch hw

/-- **No false resync.** A client asks for what follows a number that was committed when it
asked, and for at least one commit. If the number of the channel is not found in the cache, or
found not less than what the client has, then the client is never told to start the channel
over. -/
theorem no_false_resync (pr : Protocol) (codec : Codec) (d0 : Timeline.Db)
    (hd0 : ∀ c, GapFree c d0) (evs evs' : List SyncEvent) (i : ℕ) (req : GetDifferenceRequest)
    (hfree : (run pr codec d0 evs).tasks i = .free)
    (hlast : req.lastPts ≤ (run pr codec d0 evs).shared.db.currentPts req.channelId)
    (hlimit : req.limit ≠ some 0)
    (hevs : GivenRun (service pr codec) (UpToDate i req) (run pr codec d0 evs)
      (.start i (.getDifference req) :: evs')) (text : String) :
    (run pr codec d0 (evs ++ .start i (.getDifference req) :: evs')).tasks i ≠
      .finished (.getDifference req) (.error (.channelResyncRequired text)) := by
  have hU : (service pr codec).Upholds (terms pr codec d0 (Reached req) (UpToDate i req)) :=
    upholds_reached
  have hbase := healthy_run pr codec hd0 evs
  -- from here on the number of the client stays committed
  have hmid : Healthy (service pr codec) (terms pr codec d0 (Reached req) (UpToDate i req))
      (fun i' j r => i' = i → j = .getDifference req → Calm r) (run pr codec d0 evs) := by
    refine ⟨⟨hbase.inv.1, hlast⟩, fun i' j t ht => ?_, fun i' j r hr hi => ?_⟩
    · have hne : i' ≠ i := by
        rintro rfl
        exact nomatch ht.symm.trans hfree
      have hk : Obeys pr codec d0 (Reached req) (UpToDate i req) i' j (fun _ _ => True) t
          (run pr codec d0 evs).shared :=
        (hbase.running i' j t ht).restrict (fun _ h => ⟨h.1, trivial⟩) (fun _ _ h => h)
          (fun _ _ _ h => h) fun _ _ _ _ => trivial
      exact hk.mono hU fun _ _ _ _ _ hi => absurd hi hne
    · subst hi
      exact nomatch hr.symm.trans hfree
  have hP : Serves (service pr codec) (terms pr codec d0 (Reached req) (UpToDate i req))
      fun i' j r => i' = i → j = .getDifference req → Calm r := by
    intro i' j s hI ha
    by_cases hi : i' = i ∧ j = .getDifference req
    · obtain ⟨rfl, rfl⟩ := hi
      refine obeys_prog hU hd0 hI.1 ha ?_ fun hj => absurd rfl (hj req)
      rintro req' hreq
      cases hreq
      refine (obeys_handleGetDifference_calm hd0 hlimit hI.2).mono hU ?_
      rintro (e | response) _ - - hr - -
      · exact hr.error
      · exact calm_ok
    · refine (obeys_prog_any hU hd0 hI.1 ha).mono hU fun _ _ _ _ _ hi' hj => ?_
      exact absurd ⟨hi', hj⟩ hi
  rw [run, Machine.run_append]
  intro hr
  exact (hmid.run hU hP _ hevs).finished i _ _ hr rfl rfl text rfl

/-- Two messages are written. The task that caches the first is slow: it puts its number in the
cache when the number of the second is there already. -/
def staleRun : List SyncEvent :=
  commitEvents 0 ++ commitEvents 1 ++ cacheEvents 0 1 [] ++
    cacheEvents 1 2 [.ok, .ok, .ok, .ok, .ok] ++ [.step 0 .ok]

/-- A client that has both messages is told that it is ahead of the server. -/
theorem false_resync :
    (run sampleProtocol sampleCodec sampleDb staleRun).shared.db.currentPts 7 = 2 ∧
      ((run sampleProtocol sampleCodec sampleDb (staleRun ++ differenceEvents 2 2)).tasks 2).result
        = some (.error (.channelResyncRequired
          "client last_pts 2 is ahead of server current_pts 1 for channel 7")) := by
  decide

/-- The cache has the number of the second message. -/
def freshRun : List SyncEvent :=
  commitEvents 0 ++ commitEvents 1 ++ cacheEvents 0 1 [.ok, .ok, .ok, .ok, .ok] ++
    cacheEvents 1 2 [.ok, .ok, .ok, .ok, .ok]

set_option maxRecDepth 20000 in
theorem no_false_resync_sample :
    (run sampleProtocol sampleCodec sampleDb freshRun).shared.db.currentPts 7 = 2 ∧
      ((run sampleProtocol sampleCodec sampleDb (freshRun ++ differenceEvents 2 2)).tasks 2).result
        = some (.ok (.difference ⟨[], 2, false⟩)) ∧
      ∀ text, (run sampleProtocol sampleCodec sampleDb (freshRun ++ differenceEvents 2 2)).tasks 2 ≠
        .finished (.getDifference ⟨7, 2, 2, none⟩) (.error (.channelResyncRequired text)) := by
  have hgap : ∀ c, GapFree c sampleDb := fun _ => rfl
  have hevs : GivenRun (service sampleProtocol sampleCodec) (UpToDate 2 ⟨7, 2, 2, none⟩)
      (run sampleProtocol sampleCodec sampleDb freshRun) (differenceEvents 2 2) := by decide
  refine ⟨by decide, by decide, fun text => ?_⟩
  exact no_false_resync sampleProtocol sampleCodec sampleDb hgap freshRun
    (List.replicate 4 (.step 2 .ok)) 2 ⟨7, 2, 2, none⟩ rfl (by decide) (by decide) hevs text

end PrivChat.Sync
