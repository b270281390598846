import PrivChat.Channels.Model
import PrivChat.Sync.Service

/-!
The outbox of committed timeline events: one row for each event, and one for each of its
recipients, which workers lease, try to deliver and write back.

A statement sees the tables as they were when it began. It changes rows as they are when it gets
to them, if they still satisfy its condition.
-/

namespace PrivChat.Delivery

open Db
open Channels (UserId Millis)
open Sync

abbrev EventId := ℕ
abbrev Key := EventId × UserId

def maxAttempts : ℕ := 8
def leaseDurationMs : Millis := 30000
def defaultChunkSize : ℕ := 100
def dispatchedRetentionMs : Millis := 24 * 60 * 60 * 1000
def deadRetentionMs : Millis := 7 * 24 * 60 * 60 * 1000

inductive RecipientState
  | pending | onlineSent | offlineQueued | dead
  deriving DecidableEq

structure RecipientRow where
  state : RecipientState
  leaseOwner : Option String
  leaseUntil : Option Millis
  leaseToken : ℕ
  attempts : ℕ
  nextAttemptAt : Millis
  lastError : Option String
  deriving DecidableEq

inductive OutboxStatus
  | pending | dispatched | dead
  deriving DecidableEq

structure OutboxRow where
  status : OutboxStatus
  createdAt : Millis
  dispatchedAt : Option Millis

/-- `nextEvent` is the next value of the sequence that events are numbered by. -/
structure Store where
  outbox : Table EventId OutboxRow
  recipients : Table Key RecipientRow
  nextEvent : EventId

variable (r : RecipientRow) (d view : Store) (q : ClaimQuery) (token : ℕ) (now : Millis)

def Store.isOpen (e : EventId) : Bool :=
  (d.outbox.get e).any fun o => decide (o.status = .pending)

structure ClaimedDispatchRecipient where
  eventId : EventId
  userId : UserId
  attempts : ℕ
  leaseToken : ℕ

def ClaimedDispatchRecipient.key (c : ClaimedDispatchRecipient) : Key := (c.eventId, c.userId)

structure ClaimQuery where
  owner : String
  now : Millis
  deadline : Millis
  limit : ℕ
  event : Option EventId

def RecipientRow.claimable : Bool :=
  decide (r.state = .pending) && decide (r.attempts < maxAttempts) &&
    decide (r.nextAttemptAt ≤ now) && r.leaseUntil.all fun u => decide (u < now)

/-- The condition under which a row is claimed. -/
def Store.eligible (key : Key) : Bool :=
  (d.recipients.get key).any (·.claimable now) && d.isOpen key.1

def keyLe (a b : Key) : Bool := decide (a.1 < b.1) || decide (a.1 = b.1) && decide (a.2 ≤ b.2)

def Store.candidates (event : Option EventId) : List Key :=
  ((d.recipients.select fun key _ =>
    d.eligible now key && event.all fun e => decide (e = key.1)).map Prod.fst).insertionSort
      fun a b => keyLe a b = true

/-- The rows that the statement locks and changes. Rows that others have locked are skipped. -/
def Store.claimed (locked : List Key) : List Key :=
  ((view.candidates q.now q.event).filter fun key =>
    decide (key ∉ locked) && (d.recipients.get key).any (·.claimable q.now)).take q.limit

def RecipientRow.lease : RecipientRow :=
  { r with
    leaseOwner := some q.owner, leaseUntil := some q.deadline, leaseToken := token,
    attempts := r.attempts + 1 }

def Store.lease (keys : List Key) : Store :=
  { d with
    recipients := d.recipients.updateWhere (fun key _ => decide (key ∈ keys)) fun r =>
      r.lease q token }

/-- What the statement returns. -/
def Store.leased (keys : List Key) : List ClaimedDispatchRecipient :=
  keys.filterMap fun key => (d.recipients.get key).map fun r =>
    ⟨key.1, key.2, r.attempts + 1, token⟩

structure CompletionRow where
  eventId : EventId
  userId : UserId
  leaseToken : ℕ
  state : RecipientState
  lastError : Option String
  nextAttemptAt : Millis

def CompletionRow.matches (u : CompletionRow) (key : Key) (r : RecipientRow) : Bool :=
  decide ((u.eventId, u.userId) = key) && decide (r.state = .pending) &&
    decide (r.leaseToken = u.leaseToken)

/-- The completion that is written to the row. It matches the row that the statement saw when it
began, and the row as it is. -/
def Store.completion (us : List CompletionRow) (key : Key) : Option CompletionRow :=
  ((view.recipients.get key).bind fun r => us.find? (·.matches key r)).filter fun u =>
    (d.recipients.get key).any (u.matches key)

def RecipientRow.complete (u : CompletionRow) : RecipientRow :=
  { r with
    state := u.state, lastError := u.lastError, nextAttemptAt := u.nextAttemptAt,
    leaseOwner := none, leaseUntil := none }

def Store.complete (us : List CompletionRow) : Store :=
  { d with recipients := d.recipients.mapRows fun key r =>
      ((d.completion view us key).map r.complete).getD r }

structure CloseQuery where
  now : Millis
  events : Option (List EventId)
  limit : Option ℕ

def Store.hasRecipient (e : EventId) (state : RecipientState) : Bool :=
  d.recipients.any fun key r => decide (key.1 = e) && decide (r.state = state)

/-- The events that the statement closes: open ones without a pending recipient. A statement
with a limit skips those that others have locked. -/
def Store.closed (q : CloseQuery) (locked : List EventId) : List EventId :=
  let events := (((view.outbox.select fun e _ => view.isOpen e && !view.hasRecipient e .pending &&
    q.events.all fun es => decide (e ∈ es)).map Prod.fst).insertionSort (· ≤ ·)).filter d.isOpen
  match q.limit with
  | none => events
  | some limit => (events.filter fun e => decide (e ∉ locked)).take limit

def OutboxRow.close (o : OutboxRow) (dead : Bool) (now : Millis) : OutboxRow :=
  if dead then { o with status := .dead }
  else { o with status := .dispatched, dispatchedAt := some (o.dispatchedAt.getD now) }

def Store.close (events : List EventId) : Store :=
  { d with outbox := d.outbox.mapRows fun e o =>
      if e ∈ events then o.close (view.hasRecipient e .dead) now else o }

def OutboxRow.expired (o : OutboxRow) (now : Millis) : Bool :=
  decide (o.status = .dispatched ∧ o.createdAt < now - dispatchedRetentionMs) ||
    decide (o.status = .dead ∧ o.createdAt < now - deadRetentionMs)

/-- The events that the statement deletes, the oldest first. -/
def Store.expired (limit : ℕ) (locked : List EventId) : List EventId :=
  ((((view.outbox.select fun _ o => o.expired now).insertionSort fun a b =>
    decide (a.2.createdAt < b.2.createdAt) || decide (a.2.createdAt = b.2.createdAt) &&
      decide (a.1 ≤ b.1)).map Prod.fst).filter fun e =>
    decide (e ∉ locked) && (d.outbox.get e).any (·.expired now)).take limit

/-- The rows of the recipients are deleted with their event. -/
def Store.remove (events : List EventId) : Store :=
  { d with
    outbox := d.outbox.deleteWhere fun e _ => decide (e ∈ events)
    recipients := d.recipients.deleteWhere fun key _ => decide (key.1 ∈ events) }

/-- A message or another event is committed, with a row for each recipient. -/
def Store.insert (users : List UserId) (now : Millis) : Store where
  outbox := d.outbox.put d.nextEvent ⟨.pending, now, none⟩
  recipients := users.foldl (fun t u =>
    t.put (d.nextEvent, u) ⟨.pending, none, none, 0, 0, now, none⟩) d.recipients
  nextEvent := d.nextEvent + 1

structure Shared where
  store : Store
  clock : Millis
  tokens : List ℕ

inductive DispatchRecipientState
  | onlineSent | offlineQueued | dead

/-- What became of an attempt: a final state or none, and an error. -/
abbrev Attempt := Option DispatchRecipientState × Option String

inductive Op
  | now
  | jitter
  | snapshot
  | claim (q : ClaimQuery) (view : Store)
  | deliver (claims : List ClaimedDispatchRecipient)
  | complete (us : List CompletionRow) (view : Store)
  | close (q : CloseQuery) (view : Store)
  | remove (now : Millis) (limit : ℕ) (view : Store)

def Op.Res : Op → Type
  | .now => Millis
  | .jitter => ℕ → ℕ
  | .snapshot => Store
  | .claim _ _ => Except String (List ClaimedDispatchRecipient)
  | .deliver _ => ClaimedDispatchRecipient → Attempt
  | .complete _ _ => Except String (List Bool)
  | .close _ _ => Except String ℕ
  | .remove _ _ _ => Except String ℕ

/-- What the surroundings bring to an operation: how long it took to come, how it went, which
rows others have locked, a random token, random delays, and what became of the deliveries. -/
structure Moment where
  elapsed : ℕ
  outcome : Outcome
  lockedKeys : List Key
  lockedEvents : List EventId
  token : ℕ
  jitter : ℕ → ℕ
  attempt : ClaimedDispatchRecipient → Attempt

namespace Shared

def elapse (s : Shared) (elapsed : ℕ) : Shared := { s with clock := s.clock + elapsed }

/-- The answer to a statement, and the tables that it leaves. -/
def reply {β : Type} (s : Shared) (o : Moment) (b : β) (d : Store) : Except String β × Shared :=
  (match o.outcome with
    | .ok => .ok b
    | .failed text _ => .error text,
    { s with store := if o.outcome.applied then d else s.store })

def answer : (op : Op) → Moment → Shared → op.Res × Shared
  | .now, _, s => (s.clock, s)
  | .jitter, o, s => (fun i => min (o.jitter i) 250, s)
  | .snapshot, _, s => (s.store, s)
  | .claim q view, o, s =>
    let keys := s.store.claimed view q o.lockedKeys
    { s with tokens := o.token :: s.tokens }.reply o (s.store.leased o.token keys)
      (s.store.lease q o.token keys)
  | .deliver _, o, s => (o.attempt, s)
  | .complete us view, o, s =>
    s.reply o (us.map fun u => (s.store.completion view us (u.eventId, u.userId)).isSome)
      (s.store.complete view us)
  | .close q view, o, s =>
    let events := s.store.closed view q o.lockedEvents
    s.reply o events.length (s.store.close view q.now events)
  | .remove now limit view, o, s =>
    let events := s.store.expired view now limit o.lockedEvents
    s.reply o events.length (s.store.remove events)

def exec (op : Op) (o : Moment) (s : Shared) : op.Res × Shared := answer op o (s.elapse o.elapsed)

end Shared

/-- What happens beside the workers: an event is committed. -/
inductive Outside
  | commit (users : List UserId)

def Shared.outside : Outside → Shared → Shared
  | .commit users, s => { s with store := s.store.insert users s.clock }

end PrivChat.Delivery
