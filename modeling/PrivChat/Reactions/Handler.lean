import PrivChat.Channels.Model
import Mathlib.Data.List.Sort

/-!
Reactions to messages: a row per message and user, and an event on the timeline of the message's
channel for each that is added or removed.

The requests name a message. None of the handlers looks who may see it: the message is looked up
only to find the channel that the event goes to.
-/

namespace PrivChat.Reactions

open Db Channels

abbrev MessageId := ℕ

structure MessageRow where
  channelId : ChannelId
  revoked : Bool
  deleted : Bool

structure ReactionRow where
  emoji : String
  createdAt : Millis
  updatedAt : Millis
  deriving DecidableEq

inductive ReactionOperation
  | add | remove
  deriving DecidableEq

structure ReactionChange where
  channelId : ChannelId
  channelType : ℕ
  targetServerMessageId : MessageId
  actorId : UserId
  emoji : String
  operation : ReactionOperation
  deriving DecidableEq

/-- The tables, and the channels as `get_channel` gives them. -/
structure World where
  messages : MessageId → Option MessageRow
  channels : ChannelId → Option Channel
  reactions : Table (MessageId × UserId) ReactionRow
  commitLog : List ReactionChange

inductive Statement
  | insert | delete | selectOne | selectAll | findMessage | append

structure Outside where
  now : Millis
  fault : Statement → Option String

/-- An emoji is measured in bytes. -/
def validEmoji (emoji : String) : Bool :=
  decide (emoji.utf8ByteSize ≠ 0) && decide (emoji.utf8ByteSize ≤ 10)

def addedRow (o : Outside) (emoji : String) : Option ReactionRow → ReactionRow
  | none => ⟨emoji, o.now, o.now⟩
  | some row => { row with emoji := emoji, updatedAt := o.now }

def addReaction (o : Outside) (m : MessageId) (u : UserId) (emoji : String) (w : World) :
    Except ServerError World :=
  if !validEmoji emoji then .error (.validation "无效的 emoji")
  else match o.fault .insert with
    | some e => .error (.database s!"添加 Reaction 失败: {e}")
    | none => .ok { w with
      reactions := w.reactions.put (m, u) (addedRow o emoji (w.reactions.get (m, u))) }

/-- A failing select counts as no reaction. -/
def getUserReaction (o : Outside) (m : MessageId) (u : UserId) (w : World) : Option ReactionRow :=
  if (o.fault .selectOne).isSome then none else w.reactions.get (m, u)

def removeReaction (o : Outside) (m : MessageId) (u : UserId) (w : World) :
    Except ServerError (Option ReactionRow × World) :=
  match o.fault .delete with
  | some e => .error (.database s!"移除 Reaction 失败: {e}")
  | none => .ok (getUserReaction o m u w, { w with reactions := w.reactions.erase (m, u) })

structure ReactionStats where
  reactions : List (String × List UserId)
  totalCount : ℕ
  deriving DecidableEq

def getMessageReactions (o : Outside) (m : MessageId) (w : World) :
    Except ServerError ReactionStats :=
  match o.fault .selectAll with
  | some e => .error (.database s!"查询 Reaction 失败: {e}")
  | none =>
    let rows := (w.reactions.select fun k _ => decide (k.1 = m)).insertionSort
      fun x y => x.2.createdAt ≤ y.2.createdAt
    let of (emoji : String) := (rows.filter fun x => decide (x.2.emoji = emoji)).map (·.1.2)
    .ok ⟨(rows.map (·.2.emoji)).dedup.map fun emoji => (emoji, of emoji), rows.length⟩

/-- The event goes to the channel of the message, if the message is found. -/
def appendChange (o : Outside) (m : MessageId) (u : UserId) (emoji : String)
    (operation : ReactionOperation) (w : World) : World :=
  match o.fault .findMessage, w.messages m, o.fault .append with
  | none, some message, none =>
    let channelType := ((w.channels message.channelId).map (·.channelType)).getD .direct
    { w with commitLog := w.commitLog ++
        [⟨message.channelId, channelType.toWire, m, u, emoji, operation⟩] }
  | _, _, _ => w

inductive Request
  | add (emoji : String)
  | remove (emoji : String)
  | list
  | stats

inductive Reply
  | done
  | reactions (stats : ReactionStats)
  | internal (text : String)
  deriving DecidableEq

def handle (o : Outside) (u : UserId) (m : MessageId) : Request → World → Reply × World
  | .add emoji, w =>
    match addReaction o m u emoji w with
    | .ok w' => (.done, appendChange o m u emoji .add w')
    | .error e => let text := e.display; (.internal s!"添加 Reaction 失败: {text}", w)
  | .remove emoji, w =>
    match removeReaction o m u w with
    | .ok (removed, w') =>
      (.done, appendChange o m u ((removed.map (·.emoji)).getD emoji) .remove w')
    | .error e => let text := e.display; (.internal s!"移除 Reaction 失败: {text}", w)
  | .list, w =>
    match getMessageReactions o m w with
    | .ok stats => (.reactions stats, w)
    | .error e => let text := e.display; (.internal s!"获取 Reaction 列表失败: {text}", w)
  | .stats, w =>
    match getMessageReactions o m w with
    | .ok stats => (.reactions stats, w)
    | .error e => let text := e.display; (.internal s!"获取 Reaction 统计失败: {text}", w)

/-! ### What a request may do -/

/-- The message is there, and the user is a member of its channel. -/
def World.shows (w : World) (u : UserId) (m : MessageId) : Bool :=
  (w.messages m).any fun message =>
    (w.channels message.channelId).any fun channel => channel.isMember u

/-- The request is about a message that the user may see, and nobody reacts to a message that is
gone. -/
def World.permits (w : World) (u : UserId) (m : MessageId) (request : Request) : Bool :=
  w.shows u m && match request with
    | .add _ => (w.messages m).any fun message => !message.revoked && !message.deleted
    | .remove _ | .list | .stats => true

/-- Reactions have changed, an event has been appended, or reactions are returned. -/
def Touches (w w' : World) (reply : Reply) : Prop :=
  (∃ k, w'.reactions.get k ≠ w.reactions.get k) ∨ w'.commitLog ≠ w.commitLog ∨
    ∃ stats, reply = .reactions stats

/-- An event can be appended: the message is there, and nothing fails. -/
def World.logs (w : World) (o : Outside) (m : MessageId) : Bool :=
  (o.fault .findMessage).isNone && (w.messages m).isSome && (o.fault .append).isNone

/-- The request comes to nothing: it is not valid or its statement fails, or it leaves the row as it
is, with no message to append an event for. -/
def World.idle (w : World) (o : Outside) (u : UserId) (m : MessageId) : Request → Bool
  | .add emoji => !validEmoji emoji || (o.fault .insert).isSome ||
    (decide (w.reactions.get (m, u) = some (addedRow o emoji (w.reactions.get (m, u)))) &&
      !w.logs o m)
  | .remove _ => (o.fault .delete).isSome || ((w.reactions.get (m, u)).isNone && !w.logs o m)
  | .list | .stats => (o.fault .selectAll).isSome

variable {o : Outside} {u : UserId} {m : MessageId} {w w' : World}

lemma reactions_appendChange (emoji : String) (operation : ReactionOperation) :
    (appendChange o m u emoji operation w).reactions = w.reactions := by
  unfold appendChange
  split <;> rfl

lemma commitLog_appendChange (emoji : String) (operation : ReactionOperation) :
    (appendChange o m u emoji operation w).commitLog ≠ w.commitLog ↔ w.logs o m = true := by
  unfold appendChange World.logs
  cases o.fault .findMessage <;> cases w.messages m <;> cases o.fault .append <;> simp

/-- A change of one row, with its event, touches something unless it is the row there was. -/
lemma touches_appendChange {emoji : String} {operation : ReactionOperation}
    {row : Option ReactionRow} (hrow : w'.reactions.get (m, u) = row)
    (hother : ∀ k, k ≠ (m, u) → w'.reactions.get k = w.reactions.get k)
    (hlog : w'.commitLog = w.commitLog) (hlogs : w'.logs o m = w.logs o m) :
    Touches w (appendChange o m u emoji operation w') .done ↔
      w.reactions.get (m, u) ≠ row ∨ w.logs o m = true := by
  have hchanged : (∃ k, w'.reactions.get k ≠ w.reactions.get k) ↔ w.reactions.get (m, u) ≠ row := by
    constructor
    · rintro ⟨k, hk⟩ he
      by_cases hkm : k = (m, u)
      · exact hk (by rw [hkm, hrow, he])
      · exact hk (hother k hkm)
    · exact fun hne => ⟨(m, u), fun he => hne (by rw [← he, hrow])⟩
  rw [Touches, reactions_appendChange, hchanged, ← hlogs, ← hlog, commitLog_appendChange]
  simp

lemma touches_handle (request : Request) :
    Touches w (handle o u m request w).2 (handle o u m request w).1 ↔
      w.idle o u m request = false := by
  have hnothing : ∀ text, ¬ Touches w w (.internal text) := by
    rintro text (⟨k, hk⟩ | hk | ⟨stats, hs⟩)
    · exact hk rfl
    · exact hk rfl
    · cases hs
  have hreturns : ∀ stats, Touches w w (.reactions stats) := fun stats => .inr (.inr ⟨stats, rfl⟩)
  cases request with
  | add emoji =>
    simp only [handle, addReaction, World.idle]
    cases validEmoji emoji with
    | false => simpa using hnothing _
    | true =>
      cases o.fault .insert with
      | some e => simpa using hnothing _
      | none =>
        refine Iff.trans (touches_appendChange Table.get_put_self
          (fun k hk => Table.get_put_of_ne _ hk) rfl rfl) ?_
        simp [-ne_eq, ← Bool.not_eq_true, imp_iff_not_or]
  | remove emoji =>
    simp only [handle, removeReaction, World.idle]
    cases o.fault .delete with
    | some e => simpa using hnothing _
    | none =>
      refine Iff.trans (touches_appendChange Table.get_erase_self
        (fun k hk => Table.get_erase_of_ne _ hk) rfl rfl) ?_
      cases w.reactions.get (m, u) <;> cases w.logs o m <;> simp
  | list | stats =>
    simp only [handle, getMessageReactions, World.idle]
    cases o.fault .selectAll with
    | some e => simpa using hnothing _
    | none => simpa using hreturns _

/-- **Reactions are for members.** A request changes reactions, appends an event or returns
reactions only if it may, exactly if it may or comes to nothing. -/
theorem reactions_confined_iff (w : World) (o : Outside) (u : UserId) (m : MessageId)
    (request : Request) : (Touches w (handle o u m request w).2 (handle o u m request w).1 →
        w.permits u m request = true) ↔
      w.permits u m request = true ∨ w.idle o u m request = true := by
  rw [touches_handle]
  cases w.permits u m request <;> simp

/-- Users 1 and 2 are in the group 7. Message 100 is theirs, and message 101 has been revoked. -/
def sampleWorld : World where
  messages m := if m = 100 then some ⟨7, false, false⟩ else if m = 101 then some ⟨7, true, false⟩
    else none
  channels c := if c = 7 then
      some { Channel.newGroup 7 1 with
        members := (Channel.newGroup 7 1).members.put 2 (.new 2 .member) }
    else none
  reactions := Table.empty.put (100, 2) ⟨"ok", 5, 5⟩
  commitLog := []

def sampleOutside : Outside := ⟨10, fun _ => none⟩

/-- User 3, who is not in the group, reacts to its message, so that the group gets an event, and is
shown who else has. User 1 reacts to a message that is gone, and to one that never was. -/
theorem reactions_of_stranger :
    (handle sampleOutside 3 100 (.add "no") sampleWorld).2.commitLog =
        [⟨7, 2, 100, 3, "no", .add⟩] ∧
      sampleWorld.permits 3 100 (.add "no") = false ∧
      (handle sampleOutside 3 100 .list sampleWorld).1 = .reactions ⟨[("ok", [2])], 1⟩ ∧
      sampleWorld.permits 3 100 .list = false ∧
      (handle sampleOutside 1 101 (.add "no") sampleWorld).2.reactions.get (101, 1) =
        some ⟨"no", 10, 10⟩ ∧
      sampleWorld.permits 1 101 (.add "no") = false ∧
      (handle sampleOutside 1 999 (.add "no") sampleWorld).2.reactions.get (999, 1) =
        some ⟨"no", 10, 10⟩ ∧
      sampleWorld.permits 1 999 (.add "no") = false := by
  decide +kernel

end PrivChat.Reactions
