import PrivChat.Subscriptions.Handler
import PrivChat.Runs.Basic

/-!
Subscriptions and the end of a membership.

Whether a user is a member of a group is looked at when a session asks to be listed. Leaving a group
and being removed from it change the members, and not the lists.
-/

namespace PrivChat.Subscriptions

open Channels Runs

/-- The users of the sessions, the roles of the members, and how the server is set up. -/
structure Setting where
  user : SessionId → Option UserId
  role : ChannelId → UserId → MemberRole
  tickets : Option RoomTicketConfig
  limits : Limits

variable (G : Setting)

namespace State

variable (s : State) (c : ChannelId) (u : UserId)

def onSessionDisconnect (i : SessionId) : State :=
  { s with
    channelRoutes := fun c =>
      if c ∈ s.sessionChannels i then (s.channelRoutes c).filter (· ≠ i) else s.channelRoutes c
    sessionChannels := Function.update s.sessionChannels i [] }

/-- The object loses the member before the transaction, which may fail. -/
def leaveChannel (commits : Bool) : Option Bool × State :=
  match s.channels c with
  | none => (some false, s)
  | some (type, members) =>
    if (u ∈ members ∧ G.role c u = .owner) ∨ type = .direct ∨ u ∉ members then (some false, s)
    else (if type = .group ∧ commits = false then none else some true,
      { s with channels := Function.update s.channels c (some (type, members.filter (· ≠ u))) })

/-- Whether the request to leave is done, and the state. -/
def leave (commits : Bool) : Bool × State :=
  if u ∈ s.members c ∧ G.role c u ≠ .owner then (s.leaveChannel G c u commits).map (·.isSome) id
  else (false, s)

/-- Whether the request to remove the user is done, and the state. -/
def kick (operator : UserId) (commits : Bool) : Bool × State :=
  if operator ∈ s.members c ∧ G.role c operator ≠ .member ∧
      ¬ (u ∈ s.members c ∧ G.role c u = .owner) then
    (s.leaveChannel G c u commits).map (·.isSome) id
  else (false, s)

def join : State :=
  { s with channels := Function.update s.channels c ((s.channels c).map fun x => (x.1, u :: x.2)) }

end State

inductive Operation
  | request (i : SessionId) (authenticated : Bool) (deviceId : Option String)
      (r : SubscribeRequest) (reads : Bool) (now : ℕ)
  | disconnect (i : SessionId)
  | leave (c : ChannelId) (u : UserId) (commits : Bool)
  | kick (operator : UserId) (c : ChannelId) (u : UserId) (commits : Bool)
  | join (c : ChannelId) (u : UserId)

namespace State

def after (s : State) : Operation → State
  | .request i authenticated d r reads now => (handle G.tickets G.limits s reads now
      ⟨i, if authenticated then some (G.user i) else none, d⟩ r).2
  | .disconnect i => s.onSessionDisconnect i
  | .leave c u commits => (s.leave G c u commits).2
  | .kick operator c u commits => (s.kick G c u operator commits).2
  | .join c u => s.join c u

/-- The condition: nobody asks for a group of others as if it were a room, and who leaves a group or
is removed from it has no session listed there. -/
def orderly (s : State) : Operation → Bool
  | .request i _ _ ⟨.subscribe, c, type, _⟩ _ _ =>
    fromWire type ≠ some .room || !(s.channels c).any (·.1 = .group) ||
      (G.user i).all (· ∈ s.members c)
  | .leave c u _ | .kick _ c u _ => (s.channelRoutes c).all (G.user · ≠ some u)
  | _ => true

/-- Nobody but members is listed under a group. -/
def Confined (s : State) : Prop :=
  ∀ c members, s.channels c = some (.group, members) → ∀ i ∈ s.channelRoutes c,
    ∀ u, G.user i = some u → u ∈ members

end State

variable {G} {s : State} {c : ChannelId} {u : UserId}

/-- The members change, and those of whom a session is listed stay. -/
lemma State.Confined.of_members (h : s.Confined G) {x : Option (ChannelType × List UserId)}
    (hx : ∀ members, x = some (.group, members) → ∃ old, s.channels c = some (.group, old) ∧
      ∀ u ∈ old, (∃ i ∈ s.channelRoutes c, G.user i = some u) → u ∈ members) :
    State.Confined G { s with channels := Function.update s.channels c x } := by
  intro c' members hc i hi u hu
  by_cases hcc : c' = c
  · subst hcc
    obtain ⟨old, hold, hstay⟩ := hx members (by simpa using hc)
    exact hstay u (h c' old hold i hi u hu) ⟨i, hi, hu⟩
  · exact h c' members (by simpa [hcc] using hc) i hi u hu

lemma State.Confined.leaveChannel (h : s.Confined G)
    (hnone : ∀ i ∈ s.channelRoutes c, G.user i ≠ some u) (commits : Bool) :
    (s.leaveChannel G c u commits).2.Confined G := by
  unfold State.leaveChannel
  split
  · exact h
  · next type members hc =>
    split
    · exact h
    · refine h.of_members fun members' hm => ?_
      cases hm
      refine ⟨members, hc, fun v hv ⟨i, hi, hiv⟩ => List.mem_filter.mpr ⟨hv, ?_⟩⟩
      rw [decide_eq_true_eq]
      rintro rfl
      exact hnone i hi hiv

lemma State.Confined.after (h : s.Confined G) (op : Operation) (hop : s.orderly G op = true) :
    (s.after G op).Confined G := by
  cases op with
  | request i authenticated d r reads now =>
    intro c members hc j hj u hu
    have hc' : s.channels c = some (.group, members) := listed_handle.1 ▸ hc
    obtain hold | ⟨⟨rfl, rfl⟩, hact, hauth⟩ := listed_handle.2 j c hj
    · exact h c members hc' j hold u hu
    · obtain ⟨action, c, type, token⟩ := r
      cases hact
      have hmembers : s.members c = members := by simp [State.members, hc']
      by_cases hroom : fromWire type = some .room
      · simpa [State.orderly, hroom, hc', hu, hmembers] using hop
      · obtain ⟨v, hv, hmem⟩ := member_of_authorize hauth hroom
        cases authenticated
        · cases hv
        · obtain rfl : u = v := Option.some.inj (hu.symm.trans hv)
          exact hmembers ▸ hmem
  | disconnect i =>
    intro c members hc j hj
    simp only [State.after, State.onSessionDisconnect] at hj
    split at hj
    · exact h c members hc j (List.mem_filter.mp hj).1
    · exact h c members hc j hj
  | leave c u commits =>
    simp only [State.after, State.leave]
    split
    · exact h.leaveChannel (by simpa [State.orderly] using hop) commits
    · exact h
  | kick operator c u commits =>
    simp only [State.after, State.kick]
    split
    · exact h.leaveChannel (by simpa [State.orderly] using hop) commits
    · exact h
  | join c u =>
    refine h.of_members fun members hm => ?_
    obtain ⟨⟨type, old⟩, hold, hx⟩ := Option.map_eq_some_iff.mp hm
    cases hx
    exact ⟨old, hold, fun v hv _ => List.mem_cons_of_mem u hv⟩

/-- **Subscriptions end with membership, if who leaves or is removed is not listed any more, and
groups are not asked for as rooms**: who is not a member of a group has no session listed there, and
no session of theirs is handed an event. -/
theorem subscriptions_end_with_membership (G : Setting)
    (channels : ChannelId → Option (ChannelType × List UserId)) (ops : List Operation)
    (h : Given (State.after G) (fun s op => s.orderly G op = true)
      ⟨channels, fun _ => [], fun _ => []⟩ ops) (c : ChannelId) (members : List UserId)
    (hgroup : (ops.foldl (State.after G) ⟨channels, fun _ => [], fun _ => []⟩).channels c =
      some (.group, members)) (u : UserId) (hu : u ∉ members) (i : SessionId)
    (hi : G.user i = some u) :
    i ∉ (ops.foldl (State.after G) ⟨channels, fun _ => [], fun _ => []⟩).channelRoutes c ∧
      ∀ allowed reached sender, i ∉ (typing (ops.foldl (State.after G)
        ⟨channels, fun _ => [], fun _ => []⟩) allowed reached sender c).1 := by
  have hconfined := h.keeps (I := State.Confined G) (fun _ op hop hs => hs.after op hop)
    fun _ _ _ _ hi => absurd hi List.not_mem_nil
  have hnot := fun hlisted => hu (hconfined c members hgroup i hlisted u hi)
  refine ⟨hnot, fun allowed reached sender hmem => ?_⟩
  unfold typing at hmem
  split at hmem
  · cases hmem
  · exact hnot (List.mem_filter.mp hmem).1

/-- Session `u + 10` is that of user `u`, and user 1 owns every group. -/
def someSetting : Setting :=
  ⟨fun i => some (i - 10), fun _ u => if u = 1 then .owner else .member, none, ⟨32, 100⟩⟩

/-- Users 1 and 2 have a group. -/
def someGroup : State := ⟨fun c => if c = 5 then some (.group, [1, 2]) else none, fun _ => [],
  fun _ => []⟩

/-- User 2 has a session listed under the group. -/
def listing (action : Action) : Operation :=
  .request 12 true none ⟨action, 5, 2, .empty⟩ true 0

theorem subscription_ended_in_time :
    12 ∉ ([listing .subscribe, listing .unsubscribe, .leave 5 2 true].foldl
      (State.after someSetting) someGroup).channelRoutes 5 :=
  (subscriptions_end_with_membership someSetting someGroup.channels _ (by decide +kernel) 5 [1] rfl
    2 (by decide) 12 rfl).1

/-- User 2 leaves or is removed by user 1, is not a member any more, and is handed the typing events
of user 1. -/
theorem subscription_outlives_membership :
    let s := someGroup.after someSetting (listing .subscribe)
    (s.leave someSetting 5 2 true).1 = true ∧ (s.leave someSetting 5 2 true).2.members 5 = [1] ∧
      12 ∈ (s.leave someSetting 5 2 true).2.channelRoutes 5 ∧
      12 ∈ (typing (s.leave someSetting 5 2 true).2 true (fun _ => true) 11 5).1 ∧
      (s.kick someSetting 5 2 1 true).1 = true ∧ (s.kick someSetting 5 2 1 true).2.members 5 = [1] ∧
      12 ∈ (s.kick someSetting 5 2 1 true).2.channelRoutes 5 := by
  decide +kernel

end PrivChat.Subscriptions
