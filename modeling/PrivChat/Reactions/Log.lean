import PrivChat.Reactions.Handler
import PrivChat.Runs.Basic

/-!
The commit log and the table of reactions.

A request writes the table, and appends its event in another transaction. Requests of a user's
devices that overlap may append their events in another order than they have written the table.
-/

namespace PrivChat.Reactions

open Db Channels Runs

/-- A request that has written the table, and has yet to append its event. -/
structure Written where
  key : MessageId × UserId
  emoji : String
  operation : ReactionOperation

/-- The reaction that an operation leaves. -/
def ReactionOperation.leaves (emoji : String) : ReactionOperation → Option String
  | .add => some emoji
  | .remove => none

/-- The first part of a request, unless it fails. -/
def writes (o : Outside) (k : MessageId × UserId) (w : World) :
    Request → Option (World × Written)
  | .add emoji => (addReaction o k.1 k.2 emoji w).toOption.map (·, ⟨k, emoji, .add⟩)
  | .remove emoji => (removeReaction o k.1 k.2 w).toOption.map fun x =>
      (x.2, ⟨k, (x.1.map (·.emoji)).getD emoji, .remove⟩)
  | .list | .stats => none

structure Desk where
  world : World
  written : List Written

/-- A request writes the table, or one that has appends its event. -/
inductive Step
  | write (o : Outside) (k : MessageId × UserId) (request : Request)
  | append (n : ℕ) (o : Outside)

variable (w : World) (d : Desk) (k : MessageId × UserId)

def World.holds : Option String := (w.reactions.get k).map (·.emoji)

/-- The emoji of the last event of the user about the message, if that adds one. -/
def World.logged : Option String :=
  (w.commitLog.filter fun e => (e.targetServerMessageId, e.actorId) = k).getLast?.bind fun e =>
    e.operation.leaves e.emoji

namespace Desk

/-- The requests of the user about the message that are in progress. -/
def pending : List Written := d.written.filter fun x => x.key = k

def step : Step → Desk
  | .write o k request =>
    match writes o k d.world request with
    | some (w, x) => ⟨w, d.written ++ [x]⟩
    | none => d
  | .append n o =>
    match d.written.drop n with
    | x :: rest => ⟨appendChange o x.key.1 x.key.2 x.emoji x.operation d.world,
        d.written.take n ++ rest⟩
    | [] => d

/-- The condition: nobody writes the table while another request of the user about the message is in
progress, and messages are found. -/
def orderly : Step → Bool
  | .write _ k _ => (d.pending k).isEmpty
  | .append _ o => (o.fault .findMessage).isNone && (o.fault .append).isNone

/-- The table holds what the one request in progress has written, or what the log says. -/
def Sound : Prop :=
  (d.world.messages k.1).isSome = true ∧ match d.pending k with
    | [] => d.world.logged k = d.world.holds k
    | [x] => x.operation.leaves x.emoji = d.world.holds k
    | _ :: _ :: _ => False

end Desk

variable {w d k} {o : Outside} {w' : World}

lemma writes_spec {r : Request} {x : Written} (h : writes o k w r = some (w', x)) :
    x.key = k ∧ w'.messages = w.messages ∧ w'.commitLog = w.commitLog ∧
      w'.holds k = x.operation.leaves x.emoji ∧ ∀ k', k' ≠ k → w'.holds k' = w.holds k' := by
  cases r with
  | add emoji =>
    obtain ⟨w1, hw1, hx⟩ := Option.map_eq_some_iff.mp h
    cases hx
    unfold addReaction at hw1
    split at hw1
    · cases hw1
    · split at hw1
      · cases hw1
      · cases hw1
        refine ⟨rfl, rfl, rfl, ?_, fun k' hk => ?_⟩
        · rw [World.holds, Table.get_put_self]
          cases w.reactions.get (k.1, k.2) <;> rfl
        · rw [World.holds, Table.get_put_of_ne _ hk, World.holds]
  | remove emoji =>
    obtain ⟨y, hy, hx⟩ := Option.map_eq_some_iff.mp h
    cases hx
    unfold removeReaction at hy
    split at hy
    · cases hy
    · cases hy
      refine ⟨rfl, rfl, rfl, ?_, fun k' hk => ?_⟩
      · rw [World.holds, Table.get_erase_self]
        rfl
      · rw [World.holds, Table.get_erase_of_ne _ hk, World.holds]
  | list | stats => cases h

lemma logged_appendChange (x : Written) (hf : o.fault .findMessage = none)
    (ha : o.fault .append = none) (hm : (w.messages k.1).isSome = true) :
    (appendChange o x.key.1 x.key.2 x.emoji x.operation w).messages = w.messages ∧
      (appendChange o x.key.1 x.key.2 x.emoji x.operation w).logged k =
        if x.key = k then x.operation.leaves x.emoji else w.logged k := by
  unfold appendChange
  rw [hf, ha]
  cases hmessage : w.messages x.key.1 with
  | none =>
    refine ⟨rfl, (if_neg fun hk => ?_).symm⟩
    rw [← hk, hmessage] at hm
    cases hm
  | some message =>
    refine ⟨rfl, ?_⟩
    unfold World.logged
    rw [List.filter_append, List.filter_singleton]
    split
    · next hk => simp [hk]
    · next hk => simp [hk]

lemma Desk.Sound.step (h : d.Sound k) (st : Step) (hst : d.orderly st = true) :
    (d.step st).Sound k := by
  obtain ⟨hm, hsays⟩ := h
  cases st with
  | write o k' request =>
    simp only [Desk.step]
    split
    · next w x hw =>
      obtain ⟨rfl, hmessages, hlog, hself, hother⟩ := writes_spec hw
      refine ⟨hmessages ▸ hm, ?_⟩
      unfold Desk.pending at hsays ⊢
      rw [List.filter_append, List.filter_singleton]
      by_cases hk : x.key = k
      · -- no other is in progress
        subst hk
        have hnone : d.written.filter _ = [] := List.isEmpty_iff.mp hst
        rw [hnone, hself, decide_eq_true rfl]
        rfl
      · have hlogged : w.logged k = d.world.logged k := by
          unfold World.logged
          rw [hlog]
        rw [decide_eq_false hk, hother k (Ne.symm hk), hlogged]
        simpa using hsays
    · exact ⟨hm, hsays⟩
  | append n o =>
    simp only [Desk.orderly, Bool.and_eq_true, Option.isNone_iff_eq_none] at hst
    simp only [Desk.step]
    split
    · next x rest hdrop =>
      have hwritten : d.written = d.written.take n ++ x :: rest := by
        rw [← hdrop, List.take_append_drop]
      obtain ⟨hmessages, hlogged⟩ := logged_appendChange x hst.1 hst.2 hm
      refine ⟨hmessages ▸ hm, ?_⟩
      rw [hlogged, World.holds, reactions_appendChange, ← World.holds]
      unfold Desk.pending at hsays ⊢
      rw [hwritten, List.filter_append, List.filter_cons] at hsays
      rw [List.filter_append]
      generalize (d.written.take n).filter _ = before at hsays ⊢
      generalize rest.filter _ = after at hsays ⊢
      by_cases hk : x.key = k
      · -- the request was the only one
        rw [if_pos (decide_eq_true hk)] at hsays
        rw [if_pos hk]
        cases before with
        | nil =>
          cases after with
          | nil => exact hsays
          | cons y l => exact hsays.elim
        | cons y l => cases l <;> exact hsays.elim
      · rw [if_neg (by simpa using hk)] at hsays
        rwa [if_neg hk]
    · exact ⟨hm, hsays⟩

/-- **The log agrees with the table, if requests of a user about a message do not overlap and the
message is found**: with none of them in progress, their last event about the message adds the emoji
that the table holds, and if the table holds none there is no event or it removes one. -/
theorem reaction_log_agrees (w : World) (k : MessageId × UserId)
    (hm : (w.messages k.1).isSome = true) (hw : w.logged k = w.holds k) (steps : List Step)
    (h : Given Desk.step (fun d st => d.orderly st = true) ⟨w, []⟩ steps)
    (hdone : (steps.foldl Desk.step ⟨w, []⟩).pending k = []) :
    (steps.foldl Desk.step ⟨w, []⟩).world.logged k =
      (steps.foldl Desk.step ⟨w, []⟩).world.holds k := by
  have hsound := h.keeps (I := (Desk.Sound · k)) (fun _ st hst hs => hs.step st hst) ⟨hm, hw⟩
  have hsays := hsound.2
  rwa [hdone] at hsays

theorem reaction_log_agrees_sample :
    let steps : List Step := [.write sampleOutside (100, 1) (.add "a"), .append 0 sampleOutside,
      .write sampleOutside (100, 1) (.remove "a"), .write sampleOutside (100, 2) (.add "b"),
      .append 1 sampleOutside, .append 0 sampleOutside]
    (steps.foldl Desk.step ⟨sampleWorld, []⟩).world.logged (100, 1) =
      (steps.foldl Desk.step ⟨sampleWorld, []⟩).world.holds (100, 1) :=
  reaction_log_agrees sampleWorld (100, 1) rfl rfl _ (by decide +kernel) rfl

/-- Two devices of user 1 react, and the first to write is the last to append. -/
theorem reaction_log_out_of_order :
    let steps : List Step := [.write sampleOutside (100, 1) (.add "a"),
      .write sampleOutside (100, 1) (.add "b"), .append 1 sampleOutside, .append 0 sampleOutside]
    (steps.foldl Desk.step ⟨sampleWorld, []⟩).written.length = 0 ∧
      (steps.foldl Desk.step ⟨sampleWorld, []⟩).world.logged (100, 1) = some "a" ∧
      (steps.foldl Desk.step ⟨sampleWorld, []⟩).world.holds (100, 1) = some "b" := by
  decide +kernel

end PrivChat.Reactions
