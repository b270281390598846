import PrivChat.Timeline.PtsLog

/-!
The call by which a client submits a message, and what it does to the channel in memory.

Whether the message is new is decided in the service, from the registry. The handler above it
sees only the response, which for a message sent again is the response of the first time, and
brings the head of the channel up to date from it once more.
-/

namespace PrivChat.Timeline

open PrivChat.Db Tx

/-! ### The call -/

/-- The newest message of a channel and the number of its messages, as kept in memory. -/
structure ChannelHead where
  lastMessageId : Option MessageId
  lastMessageAt : Option Millis
  messageCount : ℕ
  deriving DecidableEq

def ChannelHead.updateLastMessage (head : ChannelHead) (id : MessageId) (now : Millis) :
    ChannelHead :=
  ⟨some id, some now, head.messageCount + 1⟩

structure Server where
  db : Db
  channels : ChannelId → Option ChannelHead

structure Payload where
  messageType : ContentMessageType
  content : String
  metadata : String
  replyToMessageId : Option MessageId
  attachmentRefs : List MediaRef
  body : String

/-- A submit, with the user and the device of its session. Command and payload are given as the
code reads them: whether it is a `forward`, the canonical event, and what the projection into
the messages makes of them. -/
structure ClientSubmitRequest where
  senderId : UserId
  deviceId : Option String
  channelId : ChannelId
  channelType : ℕ
  localMessageId : ℕ
  lastPts : ℕ
  forward : Bool
  payload : Except String Payload
  normalized : ContentMessageType × String × String

inductive ServerDecision
  | accepted
  | transformed (reason : String)
  | rejected (reason : String)
  deriving DecidableEq

structure ClientSubmitResponse where
  decision : ServerDecision
  pts : Option ℕ
  serverMsgId : Option MessageId
  serverTimestamp : Millis
  localMessageId : ℕ
  hasGap : Bool
  currentPts : ℕ
  deriving DecidableEq

inductive SubmitError
  | database (text : String)
  | validation (text : String)
  | protocol (text : String)
  | commit (error : DatabaseError)
  deriving DecidableEq

inductive RpcError
  | validation (text : String)
  | refused
  | unauthorized (text : String)
  | submit (error : SubmitError)
  deriving DecidableEq

structure Course where
  /-- The channel as it is loaded if it is not in memory. -/
  loaded : Option ChannelHead
  /-- Whether `authorize_send_to_channel` lets the message pass. -/
  authorized : Bool
  registryFault : Option String
  currentPts : Except String ℕ
  serverMsgId : MessageId
  now : Millis
  /-- What the statements of the transaction learn, and on what it breaks off if they are not
  enough. -/
  statements : List World
  broken : DatabaseError
  findFails : Bool
  createFails : Bool
  /-- The time at which the head is written. -/
  headAt : Millis

variable (pr : Protocol)

def RegistryRow.decided (row : RegistryRow) : ServerDecision :=
  if row.decision = "transformed" then .transformed "Server transformed the message"
  else if row.decision = "rejected" then .rejected "Message was rejected"
  else .accepted

def checkDuplicate (d : Db) (key : RegistryKey) : Option ClientSubmitResponse :=
  (d.registry key).map fun row =>
    ⟨row.decided, some row.pts, some row.serverMsgId, row.createdAt, key.localMessageId, false,
      row.pts⟩

def ClientSubmitRequest.key (r : ClientSubmitRequest) (device : String) : RegistryKey :=
  ⟨r.senderId, device, r.localMessageId⟩

def messageFromSubmit (r : ClientSubmitRequest) (device : String) (p : Payload) (w : Course) :
    AtomicMessageCommitRequest where
  message := ⟨w.serverMsgId, r.channelId, r.senderId, none, some r.localMessageId, p.content,
    p.messageType, p.metadata, p.replyToMessageId, w.now, w.now, false, none, false, none, none,
    none⟩
  dedupKey := none
  clientRegistryClaim := some ⟨device, "accepted"⟩
  attachmentRefs := p.attachmentRefs
  channelType := r.channelType
  event := .newMessage p.messageType p.body
  senderUsername := none

/-- The transaction, with nothing else going on. -/
def commitAlone (d : Db) (r : AtomicMessageCommitRequest) (w : Course) : TimelineSys :=
  pr.run d (.start 0 (.createMessage r) :: (w.statements.map (.step 0) ++ [.crash 0 w.broken]))

/-- The response to a transaction that has ended so. -/
def commitResponse (r : ClientSubmitRequest) (w : Course) (serverPts : ℕ) :
    Option (Except DatabaseError Answer) → Except SubmitError ClientSubmitResponse
  | some (.ok (.message a)) =>
    let pts := a.message.pts.getD 0
    .ok ⟨.accepted, some pts, some a.message.messageId, a.message.createdAt, r.localMessageId,
      r.lastPts < serverPts - 1, if a.inserted then serverPts else max serverPts pts⟩
  | some (.error e) => .error (.commit e)
  | _ => .error (.commit w.broken)

/-- The part of `handle_client_submit` for a message that is not in the registry. -/
def submitNew (d : Db) (r : ClientSubmitRequest) (device : String) (w : Course) :
    Except SubmitError ClientSubmitResponse × Db :=
  match w.currentPts, r.payload with
  | .error e, _ => (.error (.database e), d)
  | .ok _, .error e => (.error (.validation e), d)
  | .ok serverPts, .ok p =>
    match pr.toLegacyCommit (.newMessage p.messageType p.body) r.channelId r.channelType with
    | .error e => (.error (.protocol ("sync/submit legacy projection failed: " ++ e)), d)
    | .ok _ =>
      let s := commitAlone pr d (messageFromSubmit r device p w) w
      (commitResponse r w serverPts (s.procs 0).result, s.db)

def handleClientSubmit (d : Db) (r : ClientSubmitRequest) (device : String) (w : Course) :
    Except SubmitError ClientSubmitResponse × Db :=
  if r.localMessageId = 0 then submitNew pr d r device w
  else match w.registryFault with
    | some e => (.error (.database ("Failed to check duplicate: " ++ e)), d)
    | none =>
      match checkDuplicate d (r.key device) with
      | some existing => (.ok existing, d)
      | none => submitNew pr d r device w

def Server.updateLastMessage (s : Server) (c : ChannelId) (id : MessageId) (w : Course) : Server :=
  match (s.channels c).or w.loaded with
  | some head =>
    { s with channels := Function.update s.channels c (head.updateLastMessage id w.headAt) }
  | none => s

/-- The row that is written for a message which has none yet. -/
def projectedMessage (r : ClientSubmitRequest) (id : MessageId) (pts : ℕ) (t : Millis) : Message :=
  ⟨id, r.channelId, r.senderId, some pts, some r.localMessageId, r.normalized.2.1, r.normalized.1,
    r.normalized.2.2, none, t, t, false, none, false, none, none, none⟩

/-- Failures are logged, and the call goes on. -/
def projectSubmitToMessageViews (r : ClientSubmitRequest) (res : ClientSubmitResponse) (w : Course)
    (s : Server) : Server :=
  match res.decision, res.serverMsgId, res.pts with
  | .accepted, some id, some pts =>
    if w.findFails then s
    else match s.db.messageById id with
      | some _ => s.updateLastMessage r.channelId id w
      | none =>
        if w.createFails then s
        else
          let row := pr.messageRow (projectedMessage r id pts res.serverTimestamp)
          { s with db := messageDb row s.db }.updateLastMessage r.channelId id w
  | _, _, _ => s

def handleSubmitRpc (r : ClientSubmitRequest) (w : Course) (s : Server) :
    Except RpcError ClientSubmitResponse × Server :=
  if r.forward then (.error (.validation "forward 为保留类型"), s)
  else match (s.channels r.channelId).or w.loaded with
    | none => (.error (.validation ("频道不存在: " ++ toString r.channelId)), s)
    | some head =>
      let s := { s with channels := Function.update s.channels r.channelId head }
      if !w.authorized then (.error .refused, s)
      else match r.deviceId.filter (· != "") with
        | none => (.error (.unauthorized "会话缺少 device_id"), s)
        | some device =>
          match handleClientSubmit pr s.db r device w with
          | (.error e, d) => (.error (.submit e), { s with db := d })
          | (.ok res, d) => (.ok res, projectSubmitToMessageViews pr r res w { s with db := d })

def submits (s : Server) (calls : List (ClientSubmitRequest × Course)) : Server :=
  calls.foldl (fun s call => (handleSubmitRpc pr call.1 call.2 s).2) s

/-! ### What a call leaves in the registry -/

variable {pr} {d : Db} {s : Server} {r : ClientSubmitRequest} {w : Course} {device : String}
  {key : RegistryKey} {row : RegistryRow} {c : ChannelId}

lemma commitAlone_kept {m : AtomicMessageCommitRequest} (h : d.registry key = some row) :
    (commitAlone pr d m w).db.registry key = some row :=
  run_between
    (fun _ => id) (fun hab hbc h => hbc (hab h)) (fun _ _ _ _ hc => hc.registry_kept) d [] _ h

variable (pr) in
/-- What is promised of the transaction: when it has an answer, the key is taken. -/
def claims (m : AtomicMessageCommitRequest) (key : RegistryKey) :
    Promise Db LockKey World DatabaseError Answer where
  known d t := t = pr.prog (.createMessage m) ∧ d.registry key = none ∨
    Answered (fun _ d => ∃ row, d.registry key = some row ∧ row.decided = .accepted) d t
  ends d res := ∀ a, res = .ok a → ∃ row, d.registry key = some row ∧ row.decided = .accepted

variable {res : ClientSubmitResponse} {p : Payload}

lemma claims_kept (hid : r.localMessageId ≠ 0) :
    Keeps pr.prog timelineEnv anyAnswer (fun _ => True) (fun _ => False)
      (claims pr (messageFromSubmit r device p w) (r.key device))
      (.createMessage (messageFromSubmit r device p w)) where
  segment d t _ ht := by
    have hk : (messageFromSubmit r device p w).registryKey = some (r.key device) := by
      simp [AtomicMessageCommitRequest.registryKey, messageFromSubmit, hid, ClientSubmitRequest.key]
    rcases ht with ⟨rfl, hfree⟩ | ht
    · refine wp_mono (fun v h c he d' c' hnext _ => ?_) (fun _ _ _ h => by cases h)
        (fun _ _ _ => False.elim) _ d [] createMessage_spec
      cases he with
      | committed a hc =>
        cases hnext
        obtain ⟨now, hreg⟩ := hc.registry
        rw [hk] at hreg
        exact .inr ⟨_, by rw [hreg.2, Function.update_self], rfl⟩
      | known k e existing hdk => cases hdk
      | taken k hk' hsome =>
        rw [hk, Option.some.injEq] at hk'
        simp [← hk', hfree] at hsome
    · exact ht.wp
  known _ _ _ _ _ ho := ho.elim
  ends _ _ _ _ _ ho := ho.elim
  letGo _ _ _ _ h := by cases h

lemma commitAlone_claimed {a : Answer} (hid : r.localMessageId ≠ 0)
    (hfree : d.registry (r.key device) = none)
    (ha : ((commitAlone pr d (messageFromSubmit r device p w) w).procs 0).result = some (.ok a)) :
    ∃ row, (commitAlone pr d (messageFromSubmit r device p w) w).db.registry (r.key device) =
      some row ∧ row.decided = .accepted := by
  unfold commitAlone at ha ⊢
  set evs : List TimelineEvent := w.statements.map (.step 0) ++ [.crash 0 w.broken]
  set m := messageFromSubmit r device p w
  have hno : ∀ i j, .start i j ∉ evs := by simp [evs]
  have hjob : ((pr.run d (.start 0 (.createMessage m) :: evs)).procs 0).job =
      some (.createMessage m) := by
    rw [Protocol.run, show ∀ e, (Sys.init d).run pr.prog (e :: evs) =
      ((Sys.init d).step pr.prog e).run pr.prog evs from fun _ => rfl, Sys.run_job (hno 0)]
    rfl
  obtain ⟨res, hres⟩ := Slot.exists_finished hjob (by rw [ha]; rfl)
  have hw : Watched pr.prog (claims pr m (r.key device)) (fun _ => False)
      (.createMessage m) 0 (Sys.init d) (.start 0 (.createMessage m) :: evs) := by
    refine ⟨fun _ _ _ _ h => (by cases h), fun evs1 evs2 he _ => .inl ⟨rfl, ?_⟩,
      fun k j hk hj => ?_⟩
    · cases evs1 with
      | nil => exact hfree
      | cons e evs1 =>
        rw [List.cons_append, List.cons.injEq] at he
        exact absurd (he.2 ▸ by simp) (hno 0 (.createMessage m))
    · simp [Sys.init, Slot.job, hno, hk] at hj
  have ht := Tells.run disciplined_any (claims_kept hid) (good_init trivial) (follows_free rfl) _
    (allowedRun_any _) hw (throughout_of_run fun _ _ _ => trivial)
  rw [hres] at ha
  exact ht.finished res hres a (Option.some.inj ha)

/-! ### What a call leaves behind -/

/-- The key is taken by a message that was accepted, and the channel is in memory. -/
structure Known (key : RegistryKey) (c : ChannelId) (s : Server) : Prop where
  row : ∃ row, s.db.registry key = some row ∧ row.decided = .accepted
  head : ∃ head, s.channels c = some head

lemma Known.set (h : Known key c s) (c' : ChannelId) (head : ChannelHead) :
    Known key c { s with channels := Function.update s.channels c' (some head) } := by
  refine ⟨h.row, ?_⟩
  by_cases hc : c = c'
  · exact ⟨head, by simp [hc]⟩
  · exact h.head.imp fun _ hh => (Function.update_of_ne hc ..).trans hh

lemma Known.updateLastMessage (h : Known key c s) {c' : ChannelId} {id : MessageId} :
    Known key c (s.updateLastMessage c' id w) := by
  unfold Server.updateLastMessage
  split
  · exact h.set c' _
  · exact h

lemma Known.project (h : Known key c s) :
    Known key c (projectSubmitToMessageViews pr r res w s) := by
  unfold projectSubmitToMessageViews
  repeat' split
  any_goals exact h
  · exact h.updateLastMessage
  · refine Known.updateLastMessage ?_
    exact ⟨h.row, h.head⟩

lemma submitNew_kept (h : d.registry key = some row) :
    (submitNew pr d r device w).2.registry key = some row := by
  unfold submitNew
  repeat' split
  any_goals exact h
  exact commitAlone_kept h

lemma handleClientSubmit_kept (h : d.registry key = some row) :
    (handleClientSubmit pr d r device w).2.registry key = some row := by
  unfold handleClientSubmit
  repeat' split
  all_goals first
    | exact h
    | exact submitNew_kept h

lemma submitNew_claimed (hid : r.localMessageId ≠ 0)
    (hfree : d.registry (r.key device) = none) (h : (submitNew pr d r device w).1 = .ok res) :
    ∃ row, (submitNew pr d r device w).2.registry (r.key device) = some row ∧
      row.decided = .accepted := by
  unfold submitNew at h ⊢
  repeat' split at h
  any_goals cases h
  simp only [commitResponse] at h ⊢
  split at h
  · exact commitAlone_claimed hid hfree ‹_›
  all_goals cases h

lemma handleClientSubmit_claimed (hid : r.localMessageId ≠ 0)
    (h : (handleClientSubmit pr d r device w).1 = .ok res) (hres : res.decision = .accepted) :
    ∃ row, (handleClientSubmit pr d r device w).2.registry (r.key device) = some row ∧
      row.decided = .accepted := by
  unfold handleClientSubmit at h ⊢
  rw [if_neg hid] at h ⊢
  split at h
  · cases h
  split at h
  · rename_i existing hdup
    obtain ⟨row, hrow, rfl⟩ := Option.map_eq_some_iff.mp hdup
    cases h
    exact ⟨row, hrow, hres⟩
  · rename_i hdup
    exact submitNew_claimed hid (Option.map_eq_none_iff.mp hdup) h

lemma Known.handleSubmitRpc (h : Known key c s) : Known key c (handleSubmitRpc pr r w s).2 := by
  obtain ⟨row, hrow, hdec⟩ := h.row
  unfold Timeline.handleSubmitRpc
  split
  · exact h
  split
  · exact h
  rename_i head _
  have hset := h.set r.channelId head
  dsimp only
  split
  · exact hset
  split
  · exact hset
  rename_i device _
  have hkept : (handleClientSubmit pr s.db r device w).2.registry key = some row :=
    handleClientSubmit_kept hrow
  split
  all_goals
    rename_i hd
    rw [hd] at hkept
  · exact ⟨⟨row, hkept, hdec⟩, hset.head⟩
  · refine Known.project ?_
    exact ⟨⟨row, hkept, hdec⟩, hset.head⟩

lemma Known.submits (h : Known key c s) {calls : List (ClientSubmitRequest × Course)} :
    Known key c (submits pr s calls) := by
  induction calls generalizing s with
  | nil => exact h
  | cons call calls ih => exact ih h.handleSubmitRpc

lemma known_of_accepted (hid : r.localMessageId ≠ 0)
    (h : (handleSubmitRpc pr r w s).1 = .ok res) (hres : res.decision = .accepted) :
    ∃ device, r.deviceId.filter (· != "") = some device ∧
      Known (r.key device) r.channelId (handleSubmitRpc pr r w s).2 := by
  unfold handleSubmitRpc at h ⊢
  split at h
  · cases h
  split at h
  · cases h
  dsimp only at h ⊢
  split at h
  · cases h
  split at h
  · cases h
  rename_i device hdevice
  refine ⟨device, hdevice, ?_⟩
  split at h
  · cases h
  rename_i hsub
  cases h
  have hrow := handleClientSubmit_claimed hid (congrArg Prod.fst hsub) hres
  rw [hsub] at hrow
  simp only [*]
  exact Known.project ⟨hrow, _, Function.update_self ..⟩

/-! ### A message sent again -/

/-- The same message of the same device. -/
structure Retransmits (first again : ClientSubmitRequest) : Prop where
  sender : again.senderId = first.senderId
  device : again.deviceId = first.deviceId
  number : again.localMessageId = first.localMessageId
  channel : again.channelId = first.channelId

/-- Nothing stops the call on its way to the head of the channel, if its message is known. -/
def reachesHead (r : ClientSubmitRequest) (w : Course) (s : Server) : Bool :=
  !r.forward && w.authorized && w.registryFault.isNone && !w.findFails &&
    (!w.createFails || ((r.deviceId.bind fun device => s.db.registry (r.key device)).bind
      fun row => s.db.messageById row.serverMsgId).isSome)

/-- **A message sent again.** After a message was accepted, and whatever was submitted since, to
submit it again leaves the head of its channel as it was if and only if something stops the call
before it gets there. -/
theorem replay_leaves_head_iff (pr : Protocol) (s : Server) (first again : ClientSubmitRequest)
    (w w' : Course) (others : List (ClientSubmitRequest × Course)) (res : ClientSubmitResponse)
    (hok : (handleSubmitRpc pr first w s).1 = .ok res) (hres : res.decision = .accepted)
    (hid : first.localMessageId ≠ 0) (hsame : Retransmits first again) :
    let s' := submits pr (handleSubmitRpc pr first w s).2 others
    (handleSubmitRpc pr again w' s').2.channels first.channelId = s'.channels first.channelId ↔
      reachesHead again w' s' = false := by
  intro s'
  obtain ⟨device, hdevice, hknown⟩ := known_of_accepted hid hok hres
  obtain ⟨⟨row, hrow, hdec⟩, head, hhead⟩ : Known (first.key device) first.channelId s' :=
    hknown.submits
  have hne : ∀ id t, head.updateLastMessage id t ≠ head := fun id t he =>
    absurd (congrArg ChannelHead.messageCount he) (by simp [ChannelHead.updateLastMessage])
  have hkey : again.key device = first.key device := by
    simp [ClientSubmitRequest.key, hsame.sender, hsame.number]
  have hdup : checkDuplicate s'.db (again.key device) = some ⟨.accepted, some row.pts,
      some row.serverMsgId, row.createdAt, first.localMessageId, false, row.pts⟩ := by
    rw [hkey, checkDuplicate, hrow, Option.map_some, hdec]
    rfl
  have hagain : again.localMessageId ≠ 0 := by rwa [hsame.number]
  rw [← hsame.channel] at hhead ⊢
  rw [← hsame.device] at hdevice
  have hfind : (again.deviceId.bind fun device => s'.db.registry (again.key device)) =
      some row := by
    rw [(Option.filter_eq_some_iff.mp hdevice).1, Option.bind_some, hkey, hrow]
  unfold handleSubmitRpc reachesHead
  simp only [hhead, Option.some_or, hdevice, handleClientSubmit, if_neg hagain, hfind,
    Option.bind_some]
  cases again.forward <;> cases w'.authorized <;> cases w'.registryFault <;>
    cases hff : w'.findFails <;> cases hm : s'.db.messageById row.serverMsgId <;>
    cases hcf : w'.createFails <;>
    simp [hdup, hhead, projectSubmitToMessageViews, hff, hm, hcf, Server.updateLastMessage, hne]

/-- User 1 writes to the group from a phone, as their message number 5. -/
def sampleSubmit : ClientSubmitRequest where
  senderId := 1
  deviceId := some "phone"
  channelId := 7
  channelType := 2
  localMessageId := 5
  lastPts := 0
  forward := false
  payload := .ok ⟨.text, "hello", "\x7b\x7d", none, [], "hello"⟩
  normalized := (.text, "hello", "\x7b\x7d")

def sampleCourse (authorized : Bool) (t : Millis) : Course where
  loaded := some ⟨none, none, 0⟩
  authorized := authorized
  registryFault := none
  currentPts := .ok 0
  serverMsgId := 100
  now := t
  statements := List.replicate 32 (sampleWorld 1)
  broken := .database "connection closed"
  findFails := false
  createFails := false
  headAt := t

/-- The group after the message was submitted once. -/
def submittedOnce : Except RpcError ClientSubmitResponse × Server :=
  handleSubmitRpc sampleProtocol sampleSubmit (sampleCourse true 1000) ⟨sampleDb, fun _ => none⟩

/-- The message is counted again when it is sent again. -/
theorem replay_counted_twice :
    submittedOnce.1 = .ok ⟨.accepted, some 1, some 100, 1000, 5, false, 0⟩ ∧
      submittedOnce.2.channels 7 = some ⟨some 100, some 1000, 1⟩ ∧
      (handleSubmitRpc sampleProtocol sampleSubmit (sampleCourse true 3000)
        submittedOnce.2).2.channels 7 = some ⟨some 100, some 3000, 2⟩ := by
  decide

theorem replay_leaves_head_sample :
    (handleSubmitRpc sampleProtocol sampleSubmit (sampleCourse false 3000)
      submittedOnce.2).2.channels 7 = submittedOnce.2.channels 7 :=
  (replay_leaves_head_iff sampleProtocol ⟨sampleDb, fun _ => none⟩ sampleSubmit sampleSubmit
    (sampleCourse true 1000) (sampleCourse false 3000) []
    ⟨.accepted, some 1, some 100, 1000, 5, false, 0⟩ (by decide) rfl (by decide)
    ⟨rfl, rfl, rfl, rfl⟩).mpr rfl

end PrivChat.Timeline
