import PrivChat.Delivery.Model

/-!
The workers that deliver committed events, statement by statement.
-/

namespace PrivChat.Delivery

open Tasks
open Channels (UserId Millis ServerError)

abbrev DeliveryProg := Prog Op Op.Res ServerError

/-! ### Statements -/

def now : DeliveryProg Millis := .call .now fun t => .ret t

def snapshot : DeliveryProg Store := .call .snapshot fun view => .ret view

/-- A random delay for each completion. -/
def jitter : DeliveryProg (ℕ → ℕ) := .call .jitter fun delay => .ret delay

/-- The claims are pushed to those who are online, and queued for those who are not. -/
def deliver (claims : List ClaimedDispatchRecipient) :
    DeliveryProg (ClaimedDispatchRecipient → Attempt) :=
  .call (.deliver claims) fun attempt => .ret attempt

/-- The result of a statement, or its error with a text before it. -/
def orError {β : Type} (text : String) : Except String β → DeliveryProg β
  | .ok b => .ret b
  | .error e => .fail (.database s!"{text}{e}")

def claim (owner : String) (limit : ℕ) (event : Option EventId) :
    DeliveryProg (List ClaimedDispatchRecipient) := do
  let now ← now
  let view ← snapshot
  .call (.claim ⟨owner, now, now + leaseDurationMs, min (max limit 1) 1000, event⟩ view)
    (orError "claim dispatch recipients failed: ")

inductive RecipientDeliveryOutcome
  | onlineSent
  | offlineQueued
  | retryScheduled (error : String)
  | dead (error : String)
  | fenced

structure DispatchCompletion where
  claim : ClaimedDispatchRecipient
  terminalState : Option DispatchRecipientState
  errorMessage : Option String

def retryBackoffMs (attempts jitter : ℕ) : Millis :=
  min (1000 * Nat.pow 2 (min (attempts - 1) 30) : ℕ) 30000 + jitter

/-- The state, the time of the next attempt and the outcome that a completion plans. -/
def completionValues (claim : ClaimedDispatchRecipient)
    (terminalState : Option DispatchRecipientState) (errorMessage : Option String) (now : Millis)
    (jitter : ℕ) : RecipientState × Millis × RecipientDeliveryOutcome :=
  match terminalState with
  | some .onlineSent => (.onlineSent, now, .onlineSent)
  | some .offlineQueued => (.offlineQueued, now, .offlineQueued)
  | some .dead => (.dead, now, .dead (errorMessage.getD "dispatch exhausted"))
  | none =>
    if maxAttempts ≤ claim.attempts then
      (.dead, now, .dead (errorMessage.getD "dispatch exhausted"))
    else
      (.pending, now + retryBackoffMs claim.attempts jitter,
        .retryScheduled (errorMessage.getD "dispatch failed"))

/-- The completion as its row, and the outcome that it plans. -/
def DispatchCompletion.plan (c : DispatchCompletion) (now : Millis) (jitter : ℕ) :
    CompletionRow × RecipientDeliveryOutcome :=
  let values := completionValues c.claim c.terminalState c.errorMessage now jitter
  (⟨c.claim.eventId, c.claim.userId, c.claim.leaseToken, values.1, c.errorMessage, values.2.1⟩,
    values.2.2)

def plans (completions : List DispatchCompletion) (now : Millis) (jitter : ℕ → ℕ) :
    List (CompletionRow × RecipientDeliveryOutcome) :=
  completions.zipIdx.map fun c => c.1.plan now (jitter c.2)

def completeMany (completions : List DispatchCompletion) :
    DeliveryProg (List RecipientDeliveryOutcome) :=
  if completions.isEmpty then .ret []
  else do
    let now ← now
    let delay ← jitter
    let planned := plans completions now delay
    let view ← snapshot
    let updated ← .call (.complete (planned.map Prod.fst) view)
      (orError "complete dispatch recipients failed: ")
    -- a completion whose row was not changed was fenced off
    return (updated.zip (planned.map Prod.snd)).map fun x => if x.1 then x.2 else .fenced

def reconcileTerminalParents (limit : ℕ) : DeliveryProg ℕ := do
  let now ← now
  let view ← snapshot
  .call (.close ⟨now, none, some (min (max limit 1) 1000)⟩ view)
    (orError "reconcile dispatch parents failed: ")

def reconcileEvents (events : List EventId) : DeliveryProg ℕ :=
  if events.isEmpty then .ret 0
  else do
    let now ← now
    let view ← snapshot
    .call (.close ⟨now, some events, none⟩ view) (orError "reconcile dispatch events failed: ")

def cleanupRetained (nowMs : Millis) (limit : ℕ) : DeliveryProg ℕ := do
  let view ← snapshot
  .call (.remove nowMs (min (max limit 1) 10000) view)
    (orError "cleanup dispatch outbox failed: ")

structure DispatchOutcome where
  eventId : EventId
  userId : UserId
  outcome : RecipientDeliveryOutcome

def dispatchClaims (claims : List ClaimedDispatchRecipient) :
    DeliveryProg (List DispatchOutcome) := do
  let attempt ← deliver claims
  let completions := claims.map fun c => ⟨c, (attempt c).1, (attempt c).2⟩
  let outcomes ← completeMany completions
  let _ ← reconcileEvents ((claims.map (·.eventId)).insertionSort (· ≤ ·)).dedup
  return (completions.zip outcomes).map fun x => ⟨x.1.claim.eventId, x.1.claim.userId, x.2⟩

/-- The jobs of the workers. An immediate dispatch of one event and a round of the worker differ
in what they claim. -/
inductive Job
  | dispatchEvent (owner : String) (event : EventId)
  | processOnce (owner : String)
  | reconcileTerminalParents (limit : ℕ)
  | cleanupRetained (nowMs : Millis) (limit : ℕ)

inductive Answer
  | outcomes (l : List DispatchOutcome)
  | count (n : ℕ)

def Job.prog : Job → DeliveryProg Answer
  | .dispatchEvent owner event => do
    let claims ← claim owner defaultChunkSize (some event)
    return .outcomes (← dispatchClaims claims)
  | .processOnce owner => do
    let claims ← claim owner defaultChunkSize none
    return .outcomes (← dispatchClaims claims)
  | .reconcileTerminalParents limit => return .count (← Delivery.reconcileTerminalParents limit)
  | .cleanupRetained nowMs limit => return .count (← Delivery.cleanupRetained nowMs limit)

abbrev DeliveryState := State Shared Op Op.Res Job ServerError Answer
abbrev DeliveryEvent := Event Moment Outside Job

def machine : Machine Shared Op Op.Res Moment Outside Job ServerError Answer where
  prog := Job.prog
  exec := Shared.exec
  env := Shared.outside
  admits _ _ := true

def Shared.empty (clock : Millis) : Shared := ⟨⟨Db.Table.empty, Db.Table.empty, 0⟩, clock, []⟩

end PrivChat.Delivery
