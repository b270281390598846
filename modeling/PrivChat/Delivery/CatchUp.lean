import PrivChat.Db.Table

/-!
Catching up on what was committed while a user was offline.

The delivery puts each commit into the offline queue of the user, the newest first. A message that
the server sends is also put into an index, under its number in the channel. What a session is
pushed of the queue is chosen by the ids in the index, which are compared with the numbers that
clients have given their messages.
-/

namespace PrivChat.Delivery.CatchUp

open Db

/-- A push, as far as it is read here. The local message id is `0` if no client has given one. -/
structure PushMessageRequest where
  channelId : ℕ
  messageSeq : ℕ
  serverMessageId : ℕ
  localMessageId : ℕ
  deriving DecidableEq

/-- The last number of each channel, what was committed, and of one user the index of message ids
by numbers and the offline queue. -/
structure Inbox where
  pts : ℕ → ℕ
  commits : List PushMessageRequest
  index : Table ℕ ℕ
  queue : List PushMessageRequest

def Inbox.empty : Inbox := ⟨fun _ => 0, [], .empty, []⟩

/-- A message or event is committed, the server adds one of its messages to the index, and a commit
is put into the queue. -/
inductive Step
  | commit (channelId serverMessageId localMessageId : ℕ)
  | addMessage (m : PushMessageRequest)
  | addBatchUsers (m : PushMessageRequest)

def Inbox.step (maxQueueSize : ℕ) (s : Inbox) : Step → Inbox
  | .commit c id l =>
    { s with
      pts := Function.update s.pts c (s.pts c + 1)
      commits := ⟨c, s.pts c + 1, id, l⟩ :: s.commits }
  | .addMessage m =>
    if m ∈ s.commits ∧ m.localMessageId = 0 then
      { s with index := s.index.put m.messageSeq m.serverMessageId }
    else s
  | .addBatchUsers m =>
    if m ∈ s.commits then { s with queue := (m :: s.queue).take maxQueueSize } else s

def getMessageIdsAbove (index : Table ℕ ℕ) (minPts : ℕ) : List ℕ :=
  (index.select fun pts _ => decide (minPts < pts)).map (·.2)

variable (routed : ℕ → Bool)

/-- What of the batch gets through. `routed` says it of each push, from the first of the session
on. Nothing of it has expired, since it was made a moment ago. -/
def pushMessageBatchToSession (n : ℕ) (batch : List PushMessageRequest) :
    List PushMessageRequest :=
  ((batch.zipIdx n).filter fun x => routed x.2).map (·.1)

/-- Batch by batch, until one does not get through as a whole. -/
def pushBatches : ℕ → List (List PushMessageRequest) → Except String ℕ × List PushMessageRequest
  | _, [] => (.ok 0, [])
  | n, batch :: batches =>
    let messages := pushMessageBatchToSession routed n batch
    let pushed := messages.length
    let expected := batch.length
    if pushed ≠ expected then
      (.error s!"partial offline push: pushed={pushed}, expected={expected}", messages)
    else
      let rest := pushBatches (n + expected) batches
      (rest.1.map (· + pushed), messages ++ rest.2)

def batches (messages : List PushMessageRequest) : List (List PushMessageRequest) :=
  (messages.toChunksAux 99 0).2

/-- A queue that cannot be read is taken for an empty one. -/
def deliverMessagesForSession (index : Table ℕ ℕ) (all : Except String (List PushMessageRequest))
    (clientPts : ℕ) : Except String ℕ × List PushMessageRequest :=
  let targets := getMessageIdsAbove index clientPts
  if targets.isEmpty then (.ok 0, [])
  else
    let messages := all.toOption.getD []
    let filtered := messages.filter fun m => decide (m.localMessageId ∈ targets)
    if filtered.isEmpty then (.ok 0, []) else pushBatches routed 0 (batches filtered)

/-! ### What is pushed -/

variable {routed} {l : List PushMessageRequest}

lemma flatten_batches : (batches l).flatten = l := by
  have haux : ∀ i, (l.toChunksAux 99 i).1 ++ (l.toChunksAux 99 i).2.flatten = l := by
    induction l with
    | nil => exact fun _ => rfl
    | cons m l ih =>
      intro i
      cases i with
      | zero => exact congrArg (m :: ·) (ih 99)
      | succ i => exact congrArg (m :: ·) (ih i)
  cases l with
  | nil => rfl
  | cons m l => exact haux 0

lemma pushMessageBatchToSession_eq {n : ℕ}
    (h : (pushMessageBatchToSession routed n l).length = l.length) :
    pushMessageBatchToSession routed n l = l := by
  have hall : ((l.zipIdx n).filter fun x => routed x.2) = l.zipIdx n := by
    refine List.filter_eq_self.mpr (List.length_filter_eq_length_iff.mp ?_)
    simpa [pushMessageBatchToSession] using h
  rw [pushMessageBatchToSession, hall, List.zipIdx_map_fst]

lemma pushBatches_ok {n k : ℕ} {bs : List (List PushMessageRequest)}
    (h : (pushBatches routed n bs).1 = .ok k) : (pushBatches routed n bs).2 = bs.flatten := by
  induction bs generalizing n k with
  | nil => rfl
  | cons b bs ih =>
    simp only [pushBatches] at h ⊢
    split at h
    · cases h
    · rename_i hlen
      rw [if_neg hlen, List.flatten_cons]
      have hb := pushMessageBatchToSession_eq (of_not_not hlen)
      cases hrest : (pushBatches routed (n + b.length) bs).1 with
      | error e =>
        rw [hrest] at h
        cases h
      | ok k' => rw [hb, ih hrest]

lemma deliver_ok {index : Table ℕ ℕ} {all : Except String (List PushMessageRequest)} {p k : ℕ}
    (h : (deliverMessagesForSession routed index all p).1 = .ok k) :
    (deliverMessagesForSession routed index all p).2 =
      (all.toOption.getD []).filter fun m => decide (m.localMessageId ∈ getMessageIdsAbove index p)
    := by
  unfold deliverMessagesForSession at h ⊢
  dsimp only at h ⊢
  split
  · rename_i hnone
    rw [List.isEmpty_iff.mp hnone]
    simp
  · rename_i hsome
    rw [if_neg hsome] at h
    split
    · rename_i hnone
      exact (List.isEmpty_iff.mp hnone).symm
    · rename_i hne
      rw [if_neg hne] at h
      rw [pushBatches_ok h, flatten_batches]

/-- The messages of each channel come in the order of their numbers. -/
def InOrder (l : List PushMessageRequest) : Prop :=
  l.Pairwise fun a b => a.channelId = b.channelId → a.messageSeq < b.messageSeq

lemma InOrder.nodup (h : InOrder l) : l.Nodup := by
  refine List.Pairwise.imp (fun hab he => ?_) h
  subst he
  exact absurd (hab rfl) (lt_irrefl _)

/-- All that was in the queue has been pushed once, each channel in its order. -/
structure CaughtUp (queue pushed : List PushMessageRequest) : Prop where
  once : ∀ m ∈ queue, pushed.count m = 1
  ordered : InOrder pushed

/-- The delivery to a fresh session. The queue may turn out not to be readable. -/
def catchUp (s : Inbox) (fault : Option String) (routed : ℕ → Bool) :
    Except String ℕ × List PushMessageRequest :=
  deliverMessagesForSession routed s.index (fault.elim (.ok s.queue) .error) 0

/-- **When the offline catch-up is complete and in order**, whatever steps have led to `s`. The
queue can be read, the local ids in it are ids in the index, and it has each channel in its order
from the newest entry on. -/
theorem offline_catch_up_iff (s : Inbox) (fault : Option String) (routed : ℕ → Bool) (n : ℕ)
    (hok : (catchUp s fault routed).1 = .ok n) : CaughtUp s.queue (catchUp s fault routed).2 ↔
      (fault = none ∨ s.queue = []) ∧
      (∀ m ∈ s.queue, m.localMessageId ∈ getMessageIdsAbove s.index 0) ∧ InOrder s.queue := by
  unfold catchUp at hok ⊢
  rw [deliver_ok hok]
  cases fault with
  | some e =>
    -- nothing is pushed
    constructor
    · intro h
      have hq : s.queue = [] := List.eq_nil_iff_forall_not_mem.mpr fun m hm => by
        simpa [Except.toOption] using h.once m hm
      simp [hq, InOrder]
    · rintro ⟨h | h, -⟩
      · cases h
      · exact ⟨by simp [h], by simp [Except.toOption, InOrder]⟩
  | none =>
    simp only [Option.elim_none, Except.toOption, Option.getD_some, true_or, true_and]
    have hall : (∀ m ∈ s.queue, m.localMessageId ∈ getMessageIdsAbove s.index 0) ↔
        s.queue.filter (fun m => decide (m.localMessageId ∈ getMessageIdsAbove s.index 0)) =
          s.queue := by
      simp
    constructor
    · intro h
      have hmem : ∀ m ∈ s.queue, m.localMessageId ∈ getMessageIdsAbove s.index 0 := fun m hm => by
        have hpos := List.count_pos_iff.mp ((h.once m hm).symm ▸ Nat.one_pos)
        simpa using (List.mem_filter.mp hpos).2
      exact ⟨hmem, hall.mp hmem ▸ h.ordered⟩
    · rintro ⟨hmem, horder⟩
      rw [hall.mp hmem]
      exact ⟨fun m hm => List.count_eq_one_of_mem horder.nodup hm, horder⟩

/-- The server sends message `7` in channel `1`, and then a client one in channel `2` under the
number `7`; the first is queued or the second. -/
def sampleInbox (queued : PushMessageRequest) : Inbox :=
  [.commit 1 7 0, .addMessage ⟨1, 1, 7, 0⟩, .commit 2 8 7, .addBatchUsers queued].foldl
    (Inbox.step 100) .empty

theorem offline_catch_up_iff_sample : CaughtUp (sampleInbox ⟨2, 1, 8, 7⟩).queue
    (catchUp (sampleInbox ⟨2, 1, 8, 7⟩) none fun _ => true).2 := by
  refine (offline_catch_up_iff _ none _ 1 (by decide)).mpr ⟨.inl rfl, by decide, ?_⟩
  exact List.pairwise_singleton _ _

/-- The message of the server is in the index and in the queue, the delivery succeeds, and nothing
is pushed. -/
theorem offline_message_not_pushed :
    (catchUp (sampleInbox ⟨1, 1, 7, 0⟩) none fun _ => true) = (.ok 0, []) ∧
      ¬ CaughtUp (sampleInbox ⟨1, 1, 7, 0⟩).queue [] := by
  refine ⟨rfl, fun h => ?_⟩
  exact absurd (h.once ⟨1, 1, 7, 0⟩ (by decide)) (by decide)

end PrivChat.Delivery.CatchUp
