import Mathlib.Data.String.Basic
import PrivChat.Redis.Store
import PrivChat.Tasks.Prog
import PrivChat.Timeline.Serial

/-!
The sync service and its cache, operation by operation, and its data: the commits a client asks for,
and the two keys that Redis holds of each channel beside the tables of the database.
-/

namespace PrivChat.Sync

open Tasks
open Timeline (ChannelId UserId CommitRow TimelineSys TimelineEvent Protocol)

inductive ServerError
  | internal (text : String)
  | database (text : String)
  | channelResyncRequired (text : String)
  deriving DecidableEq

def ServerError.display : ServerError → String
  | .internal text => s!"Internal error: {text}"
  | .database text => s!"Database error: {text}"
  | .channelResyncRequired text => s!"Channel resync required: {text}"

structure SenderInfo where
  userId : UserId
  username : String
  nickname : Option String
  avatarUrl : Option String
  deriving DecidableEq

structure ServerCommit extends Timeline.ServerCommit where
  senderInfo : Option SenderInfo
  deriving DecidableEq

/-- The commit that a row of the commit log stands for. -/
def ServerCommit.ofRow (row : CommitRow) : ServerCommit where
  eventId := some row.id
  pts := row.pts
  serverMsgId := row.serverMsgId
  localMessageId := row.localMessageId
  channelId := row.channelId
  channelType := (row.channelType % 256).toNat
  messageType := row.messageType
  content := row.content
  serverTimestamp := row.serverTimestamp
  senderId := row.senderId
  senderInfo := row.senderUsername.map fun username => ⟨row.senderId, username, none, none⟩
  eventSchemaVersion := some row.eventSchemaVersion
  canonicalEvent := some row.canonicalEvent

/-- The JSON text of a commit. What is written is read back with the number it had. -/
structure Codec where
  toJson : ServerCommit → Except String String
  fromJson : String → Except String ServerCommit
  pts_fromJson : ∀ commit text, toJson commit = .ok text →
    ∃ commit', fromJson text = .ok commit' ∧ commit'.pts = commit.pts

/-- The number as a double: rounded to 53 bits, halves to even. -/
def asF64 (n : ℕ) : ℕ :=
  let unit := Nat.pow 2 (n.log2 - 52)
  let q := n / unit
  let r := n % unit
  if 2 * r < unit ∨ 2 * r = unit ∧ q % 2 = 0 then q * unit else (q + 1) * unit

inductive Key
  | commitLog (c : ChannelId)
  | pts (c : ChannelId)
  deriving DecidableEq

/-- A string here is a number in decimal. The members of the sets are JSON texts. -/
abbrev SyncRedis := Redis.Store Key ℕ ℕ String

abbrev RedisCommand := Redis.Command Key ℕ ℕ String

structure GetDifferenceRequest where
  channelId : ChannelId
  channelType : ℕ
  lastPts : ℕ
  limit : Option ℕ
  deriving DecidableEq

structure GetDifferenceResponse where
  commits : List ServerCommit
  currentPts : ℕ
  hasMore : Bool
  deriving DecidableEq

/-- What the tasks of the service are started for. `enqueue` hands a commit to the writer of
the cache, of which `postCommitCacheWriter` is one round. -/
inductive Job
  | getDifference (req : GetDifferenceRequest)
  | getChannelPts (c : ChannelId)
  | cacheCommittedCommit (commit : ServerCommit)
  | enqueue (commit : ServerCommit)
  | postCommitCacheWriter
  | batchCacheCommits (commits : List ServerCommit)
  | clearChannelCache (c : ChannelId)
  deriving DecidableEq

inductive Answer
  | difference (response : GetDifferenceResponse)
  | channelPts (currentPts : ℕ)
  | done
  deriving DecidableEq

/-- The processes of the message repository with the tables they work on, Redis, the commits
that wait for the writer of the cache, and the batches that are to be cached in the background. -/
structure Shared where
  repo : TimelineSys
  redis : SyncRedis
  queue : List ServerCommit
  spawned : List (List ServerCommit)

def Shared.db (s : Shared) : Timeline.Db := s.repo.db

/-- How an operation on Redis or the database went. One that failed may have been carried out
all the same, when only the answer was lost. -/
inductive Outcome
  | ok
  | failed (text : String) (applied : Bool)
  deriving DecidableEq

def Outcome.applied : Outcome → Bool
  | .ok => true
  | .failed _ applied => applied

inductive Op
  | redis (command : RedisCommand)
  | getCurrentPts (c : ChannelId)
  | queryCommits (c : ChannelId) (lastPts limit : ℕ)
  | trySend (commit : ServerCommit)
  | recv
  | spawn (commits : List ServerCommit)

def Op.Res : Op → Type
  | .redis command => Except String command.Reply
  | .getCurrentPts _ => Except String ℕ
  | .queryCommits _ _ _ => Except String (List ServerCommit)
  | .trySend _ => Unit
  | .recv => Option ServerCommit
  | .spawn _ => Unit

/-- The statement of `query_commits`. -/
def selectCommits (d : Timeline.Db) (c : ChannelId) (lastPts limit : ℕ) : List ServerCommit :=
  let rows := (d.log c).filter fun row => lastPts < row.pts
  ((rows.insertionSort fun a b => a.pts ≤ b.pts).take limit).map .ofRow

def postCommitCacheQueueCapacity : ℕ := 4096

def Shared.exec : (op : Op) → Outcome → Shared → op.Res × Shared
  | .redis command, o, s =>
    let s' := if o.applied then { s with redis := s.redis.effect command } else s
    match o with
    | .ok => (.ok (s.redis.reply command), s')
    | .failed text _ => (.error text, s')
  | .getCurrentPts c, o, s =>
    match o with
    | .ok => (.ok (s.db.currentPts c), s)
    | .failed text _ => (.error text, s)
  | .queryCommits c lastPts limit, o, s =>
    match o with
    | .ok => (.ok (selectCommits s.db c lastPts limit), s)
    | .failed text _ => (.error text, s)
  | .trySend commit, _, s =>
    -- a full queue drops the commit
    if s.queue.length < postCommitCacheQueueCapacity then
      ((), { s with queue := s.queue ++ [commit] })
    else ((), s)
  | .recv, _, s =>
    match s.queue with
    | [] => (none, s)
    | commit :: rest => (some commit, { s with queue := rest })
  | .spawn commits, _, s => ((), { s with spawned := s.spawned ++ [commits] })

/-- What happens beside the tasks of the service: the repository goes on, and time passes. -/
inductive Outside
  | repo (e : TimelineEvent)
  | wait (seconds : ℕ)

abbrev SyncProg := Prog Op Op.Res ServerError

def redis (command : RedisCommand) : SyncProg command.Reply :=
  .call (.redis command) fun r =>
    match (r : Except String command.Reply) with
    | .ok a => .ret a
    | .error text => .fail (.internal text)

def getCurrentPts (c : ChannelId) : SyncProg ℕ :=
  .call (.getCurrentPts c) fun r =>
    match (r : Except String ℕ) with
    | .ok n => .ret n
    | .error text => .fail (.database s!"Failed to get current pts: {text}")

def queryCommits (c : ChannelId) (lastPts limit : ℕ) : SyncProg (List ServerCommit) :=
  .call (.queryCommits c lastPts limit) fun r =>
    match (r : Except String (List ServerCommit)) with
    | .ok commits => .ret commits
    | .error text => .fail (.database s!"Failed to query commits: {text}")

namespace Codec

variable (codec : Codec)

/-- Only the last 100 commits of a channel are kept, for an hour. -/
def cacheCommit (commit : ServerCommit) : SyncProg Unit := do
  let key := Key.commitLog commit.channelId
  let value ← match codec.toJson commit with
    | .ok value => .ret value
    | .error e => .fail (.internal s!"Failed to serialize commit: {e}")
  redis (.zadd key (asF64 commit.pts) value)
  redis (.zremrangebyrank key 0 (-101))
  redis (.expire key 3600)

/-- A text that cannot be read is left out. -/
def queryCommitsFromCache (c : ChannelId) (lastPts limit : ℕ) :
    SyncProg (Option (List ServerCommit)) := do
  let values ← (redis (.zrangebyscore (.commitLog c) (asF64 (lastPts + 1)) limit)).mapErr
    fun e => .internal s!"Failed to query commits from cache: {e.display}"
  let commits := List.filterMap (fun value => (codec.fromJson value).toOption) values
  if commits.isEmpty then return none
  return some commits

def batchCacheCommits (commits : List ServerCommit) : SyncProg Unit :=
  commits.forM codec.cacheCommit

end Codec

/-- The number last used on the channel is kept for ten seconds. -/
def cachePts (c : ChannelId) (pts : ℕ) : SyncProg Unit :=
  (redis (.setex (.pts c) 10 pts)).mapErr fun e => .internal s!"Failed to cache pts: {e.display}"

/-- A cache that fails is an empty one. -/
def getPtsFromCache (c : ChannelId) : SyncProg (Option ℕ) := do
  let r ← (redis (.get (.pts c))).attempt
  match (r : Except ServerError (Option ℕ)) with
  | .ok value => return value
  | .error _ => return none

def clearChannelCache (c : ChannelId) : SyncProg Unit := do
  let _ ← (redis (.del (.commitLog c))).attempt
  let _ ← (redis (.del (.pts c))).attempt

/-! ### The service -/

/-- The number last used on the channel, from the cache if it is there. -/
def channelPts (c : ChannelId) : SyncProg ℕ := do
  match ← getPtsFromCache c with
  | some cached => return cached
  | none =>
    let current ← getCurrentPts c
    cachePts c current
    return current

namespace Codec

variable (codec : Codec)

def cacheCommittedCommit (commit : ServerCommit) : SyncProg Unit := do
  cachePts commit.channelId commit.pts
  codec.cacheCommit commit

/-- One round of the writer. What fails is only logged. -/
def postCommitCacheWriter : SyncProg Unit :=
  .call .recv fun r =>
    match (r : Option ServerCommit) with
    | none => .ret ()
    | some commit => do
      let _ ← (cachePts commit.channelId commit.pts).attempt
      let _ ← (codec.cacheCommit commit).attempt

/-- The commits after `lastPts`: from the cache, if the first it has is the next one. -/
def commitsAfter (c : ChannelId) (lastPts limit : ℕ) : SyncProg (List ServerCommit) := do
  match ← codec.queryCommitsFromCache c lastPts limit with
  | some cached =>
    if cached.head?.map (·.pts) = some (lastPts + 1) then return cached
    queryCommits c lastPts limit
  | none =>
    let commits ← queryCommits c lastPts limit
    if !commits.isEmpty then
      .call (.spawn commits) fun _ => .ret ()
    return commits

/-- A client that has fallen behind must be given the next commit. -/
def checkWindow (req : GetDifferenceRequest) (currentPts : ℕ) (commits : List ServerCommit) :
    SyncProg Unit :=
  let channel := req.channelId
  let last := req.lastPts
  let expected := last + 1
  if last < currentPts then
    match commits.head? with
    | none => .fail (.channelResyncRequired
        (s!"message history window unavailable: channel={channel} last_pts={last} " ++
          s!"current_pts={currentPts}"))
    | some first =>
      if first.pts ≠ expected then
        .fail (.channelResyncRequired
          (s!"non-contiguous difference: channel={channel} last_pts={last} " ++
            s!"first_pts={first.pts} expected={expected}"))
      else .ret ()
  else .ret ()

def handleGetDifference (req : GetDifferenceRequest) : SyncProg GetDifferenceResponse := do
  let limit := req.limit.getD 100
  let last := req.lastPts
  let current ← channelPts req.channelId
  if current < last then
    .fail (.channelResyncRequired
      (s!"client last_pts {last} is ahead of server current_pts {current} " ++
        s!"for channel {req.channelId}"))
  let commits ← codec.commitsAfter req.channelId last limit
  checkWindow req current commits
  let hasMore := match commits.getLast? with
    | some commit => decide (commit.pts < current)
    | none => false
  return ⟨commits, current, hasMore⟩

def prog : Job → SyncProg Answer
  | .getDifference req => do return .difference (← codec.handleGetDifference req)
  | .getChannelPts c => do return .channelPts (← channelPts c)
  | .cacheCommittedCommit commit => do codec.cacheCommittedCommit commit; return .done
  | .enqueue commit => .call (.trySend commit) fun _ => .ret .done
  | .postCommitCacheWriter => do codec.postCommitCacheWriter; return .done
  | .batchCacheCommits commits => do let _ ← (codec.batchCacheCommits commits).attempt; return .done
  | .clearChannelCache c => do clearChannelCache c; return .done

end Codec

def Shared.hasCommit (s : Shared) (commit : ServerCommit) : Bool :=
  s.db.commitLog.any fun row => row.channelId == commit.channelId && row.pts == commit.pts

/-- Only commits are cached, and in the background only what was handed over. -/
def Shared.admits (s : Shared) : Job → Bool
  | .cacheCommittedCommit commit | .enqueue commit => s.hasCommit commit
  | .batchCacheCommits commits => decide (commits ∈ s.spawned)
  | .getDifference _ | .getChannelPts _ | .postCommitCacheWriter | .clearChannelCache _ => true

def Shared.outside (pr : Protocol) (s : Shared) : Outside → Shared
  | .repo e => { s with repo := s.repo.step pr.prog e }
  | .wait seconds => { s with redis := s.redis.wait seconds }

/-- The service, beside the message repository. -/
def service (pr : Protocol) (codec : Codec) :
    Machine Shared Op Op.Res Outcome Outside Job ServerError Answer where
  prog := codec.prog
  exec := Shared.exec
  env x s := s.outside pr x
  admits j s := s.admits j

abbrev SyncState := State Shared Op Op.Res Job ServerError Answer
abbrev SyncEvent := Tasks.Event Outcome Outside Job

def Shared.start (d0 : Timeline.Db) : Shared := ⟨.init d0, .empty, [], []⟩

def run (pr : Protocol) (codec : Codec) (d0 : Timeline.Db) (evs : List SyncEvent) : SyncState :=
  (service pr codec).run (.init (.start d0)) evs

end PrivChat.Sync
