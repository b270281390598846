import PrivChat.Channels.Model

/-!
Sessions subscribe to channels, and typing events go to the sessions that are listed.

For a direct chat or a group the handler looks whether the user of the session is a member. For a
room it wants a ticket, which the business side has signed for a user, a device and a room. Which of
the two it does is decided by the type of channel that the request names.
-/

namespace PrivChat.Subscriptions

open Channels

abbrev SessionId := ℕ

structure RoomTicketConfig where
  secret : Option String
  keys : List (String × String)
  defaultKid : String
  leewaySecs : ℕ

def RoomTicketConfig.resolveSecret (cfg : RoomTicketConfig) (kid : Option String) : Option String :=
  let kid := kid.getD cfg.defaultKid
  match cfg.keys.lookup kid with
  | some s => some s
  | none => if kid = cfg.defaultKid then cfg.secret else none

structure RoomTicketClaims where
  sub : String
  did : String
  cid : ChannelId
  ct : ℕ
  scope : String
  exp : ℕ

def ctRoom : ℕ := 2
def scopeSubscribe : String := "subscribe"

def RoomTicketClaims.forSubscribe (u : UserId) (deviceId : String) (c : ChannelId) (exp : ℕ) :
    RoomTicketClaims :=
  ⟨toString u, deviceId, c, ctRoom, scopeSubscribe, exp⟩

/-- The text of a ticket, as the library reads it: the algorithm and the key id of its header, the
secret it was signed with, and its claims if they can be read. -/
inductive Token
  | empty
  | malformed
  | jwt (hs256 : Bool) (kid : Option String) (secret : String) (claims : Option RoomTicketClaims)

def sign (cfg : RoomTicketConfig) (kid : String) (claims : RoomTicketClaims) : Option Token :=
  (cfg.resolveSecret (some kid)).map fun secret => .jwt true (some kid) secret (some claims)

inductive VerifyError
  | missing | malformedHeader | invalidSignature | expired | badScope | badChannelType
  | channelMismatch | deviceMismatch | unknownKid | other

def verify (cfg : RoomTicketConfig) (now : ℕ) (channelId : ChannelId) (deviceId : String) :
    Token → Except VerifyError RoomTicketClaims
  | .empty => .error .missing
  | .malformed | .jwt false _ _ _ => .error .malformedHeader
  | .jwt true kid secret claims =>
    match cfg.resolveSecret kid, claims with
    | none, _ => .error .unknownKid
    | some key, none => .error (if secret ≠ key then .invalidSignature else .other)
    | some key, some claims =>
      if secret ≠ key then .error .invalidSignature
      else if claims.exp + cfg.leewaySecs < now then .error .expired
      else if claims.scope ≠ scopeSubscribe then .error .badScope
      else if claims.ct ≠ ctRoom then .error .badChannelType
      else if claims.cid ≠ channelId then .error .channelMismatch
      else if claims.did ≠ deviceId then .error .deviceMismatch
      else .ok claims

/-! ### Subscribing -/

/-- The session of a request. The id of its user is a text, which may not be a number. -/
structure RequestContext where
  sessionId : SessionId
  userId : Option (Option UserId)
  deviceId : Option String

def RequestContext.user (ctx : RequestContext) : Option UserId := ctx.userId.join

inductive Action
  | subscribe | unsubscribe | unknown

structure SubscribeRequest where
  action : Action
  channelId : ChannelId
  channelType : ℕ
  param : Token

def fromWire : ℕ → Option ChannelType
  | 1 => some .direct
  | 2 => some .group
  | 3 => some .room
  | _ => none

/-- The members of a channel, and which of the lists of the manager a session is in. -/
structure State where
  channels : ChannelId → Option (ChannelType × List UserId)
  channelRoutes : ChannelId → List SessionId
  sessionChannels : SessionId → List ChannelId

structure Limits where
  maxSubscriptionsPerSession : ℕ
  maxChannelSubscribersOnline : ℕ

def State.members (s : State) (c : ChannelId) : List UserId := ((s.channels c).map (·.2)).getD []

def reasonOfTicket : Except VerifyError RoomTicketClaims → ℕ
  | .ok _ => 0
  | .error .missing => 9
  | .error .expired => 11
  | .error _ => 10

/-- The reason code. If `reads` is false, the members cannot be read. -/
def authorize (cfg : Option RoomTicketConfig) (s : State) (reads : Bool) (now : ℕ)
    (ctx : RequestContext) (r : SubscribeRequest) : ℕ :=
  match fromWire r.channelType with
  | some .direct | some .group =>
    match ctx.user with
    | none => 6
    | some u => if !reads then 5 else if u ∈ s.members r.channelId then 0 else 4
  | some .room =>
    match ctx.userId, cfg with
    | none, _ => 6
    | some _, some cfg =>
      reasonOfTicket (verify cfg now r.channelId (ctx.deviceId.getD "") r.param)
    | some _, none => 0
  | none => 2

/-- The session is put into the list, if it is not in it and there is room. -/
def State.subscribe (L : Limits) (s : State) (i : SessionId) (c : ChannelId) :
    Except String State :=
  if c ∈ s.sessionChannels i then .ok s
  else if max L.maxSubscriptionsPerSession 1 ≤ (s.sessionChannels i).length then
    .error "too many subscriptions"
  else if max L.maxChannelSubscribersOnline 1 ≤ (s.channelRoutes c).dedup.length then
    .error "channel is full"
  else
    let listed := s.channelRoutes c
    .ok { s with
      channelRoutes := Function.update s.channelRoutes c
        (if i ∈ listed then listed else listed ++ [i])
      sessionChannels := Function.update s.sessionChannels i (s.sessionChannels i ++ [c]) }

def State.unsubscribe (s : State) (i : SessionId) (c : ChannelId) : State :=
  if c ∈ s.sessionChannels i then
    { s with
      channelRoutes := Function.update s.channelRoutes c ((s.channelRoutes c).filter (· ≠ i))
      sessionChannels := Function.update s.sessionChannels i ((s.sessionChannels i).filter (· ≠ c))
        }
  else s

/-- The reason code of the answer, and the state. -/
def handle (cfg : Option RoomTicketConfig) (L : Limits) (s : State) (reads : Bool) (now : ℕ)
    (ctx : RequestContext) (r : SubscribeRequest) : ℕ × State :=
  match r.action with
  | .unknown => (1, s)
  | .unsubscribe => (0, s.unsubscribe ctx.sessionId r.channelId)
  | .subscribe =>
    match authorize cfg s reads now ctx r with
    | 0 =>
      match s.subscribe L ctx.sessionId r.channelId with
      | .ok s' => (0, s')
      | .error e => (if e = "too many subscriptions" then 8 else 3, s)
    | reason => (reason, s)

/-- A typing event of the user: the sessions it is handed to. Who cannot be reached is taken off the
list. -/
def typing (s : State) (allowed : Bool) (reached : SessionId → Bool) (sender : SessionId)
    (c : ChannelId) : List SessionId × State :=
  if !allowed then ([], s)
  else
    let sessions := (s.channelRoutes c).filter (· ≠ sender)
    (sessions, (sessions.filter (!reached ·)).foldl (fun s i => s.unsubscribe i c) s)

/-! ### The holder of a ticket -/

/-- A session of the user on the device asks for the room, with the ticket. -/
def authorizes (cfg : RoomTicketConfig) (s : State) (u : UserId) (deviceId : String) (i : SessionId)
    (now : ℕ) (c : ChannelId) (token : Token) : Bool :=
  authorize (some cfg) s true now ⟨i, some (some u), some deviceId⟩ ⟨.subscribe, c, 3, token⟩ == 0

lemma reasonOfTicket_eq_zero {x : Except VerifyError RoomTicketClaims} :
    reasonOfTicket x = 0 ↔ ∃ claims, x = .ok claims := by
  cases x with
  | ok claims => simp [reasonOfTicket]
  | error e => cases e <;> simp [reasonOfTicket]

lemma authorizes_iff {issuer cfg : RoomTicketConfig} {kid : String} {holder u : UserId}
    {d x : String} {c r : ChannelId} {exp now : ℕ} {token : Token}
    (hsign : sign issuer kid (.forSubscribe holder d c exp) = some token) (s : State)
    (i : SessionId) : authorizes cfg s u x i now r token = true ↔
      cfg.resolveSecret (some kid) = issuer.resolveSecret (some kid) ∧
        now ≤ exp + cfg.leewaySecs ∧ c = r ∧ d = x := by
  obtain ⟨secret, hsecret, rfl⟩ := Option.map_eq_some_iff.mp hsign
  simp only [authorizes, authorize, fromWire, beq_iff_eq, reasonOfTicket_eq_zero, Option.getD_some,
    verify, hsecret]
  cases hkey : cfg.resolveSecret (some kid) with
  | none => simp
  | some key =>
    simp only [RoomTicketClaims.forSubscribe, ne_eq, not_true_eq_false, if_false, Option.some.injEq]
    by_cases hk : secret = key
    · by_cases ht : exp + cfg.leewaySecs < now
      · simp [hk, ht]
      · by_cases hc : c = r <;> by_cases hd : d = x <;>
          simp [hk, hc, hd, Nat.not_lt.mp ht, Nat.not_lt.mpr (Nat.not_lt.mp ht)]
    · simp [hk, eq_comm]

/-- **A ticket lets in only its holder, unless another user has a device of the same id**: who is
named in the ticket is not compared with the user of the session. -/
theorem room_ticket_bound_iff (issuer cfg : RoomTicketConfig) (kid : String) (holder u : UserId)
    (d x : String) (c r : ChannelId) (exp now : ℕ) (token : Token)
    (hsign : sign issuer kid (.forSubscribe holder d c exp) = some token) (s : State)
    (i : SessionId) : (authorizes cfg s u x i now r token = true →
      holder = u ∧ d = x ∧ c = r ∧ now ≤ exp + cfg.leewaySecs) ↔
    (holder = u ∨ d ≠ x ∨ c ≠ r ∨ exp + cfg.leewaySecs < now ∨
      cfg.resolveSecret (some kid) ≠ issuer.resolveSecret (some kid)) := by
  rw [authorizes_iff hsign]
  constructor
  · intro h
    by_contra hnot
    push Not at hnot
    obtain ⟨hu, hd, hc, ht, hk⟩ := hnot
    exact hu (h ⟨hk, ht, hc, hd⟩).1
  · rintro (hu | hd | hc | ht | hk) ⟨hk', ht', hc', hd'⟩
    · exact ⟨hu, hd', hc', ht'⟩
    · exact absurd hd' hd
    · exact absurd hc' hc
    · omega
    · exact absurd hk' hk

def someTickets : RoomTicketConfig := ⟨some "key", [], "v1", 30⟩

def noChannels : State := ⟨fun _ => none, fun _ => [], fun _ => []⟩

def someTicket : Token := .jwt true (some "v1") "key" (some (.forSubscribe 100 "phone" 9001 1000))

theorem room_ticket_of_holder :
    authorizes someTickets noChannels 100 "phone" 0 1000 9001 someTicket = true ∧
    (authorizes someTickets noChannels 100 "phone" 0 1000 9001 someTicket = true →
      100 = 100 ∧ "phone" = "phone" ∧ 9001 = 9001 ∧ 1000 ≤ 1000 + someTickets.leewaySecs) :=
  ⟨by decide +kernel, (room_ticket_bound_iff someTickets someTickets "v1" 100 100 "phone" "phone"
    9001 9001 1000 1000 someTicket rfl noChannels 0).mpr (.inl rfl)⟩

/-- User 7 has given their device the same id. -/
theorem room_ticket_of_another :
    sign someTickets "v1" (.forSubscribe 100 "phone" 9001 1000) = some someTicket ∧
    authorizes someTickets noChannels 7 "phone" 0 1000 9001 someTicket = true :=
  ⟨rfl, by decide +kernel⟩

/-! ### Members only -/

inductive Event
  | subscribe (ctx : RequestContext) (r : SubscribeRequest) (reads : Bool) (now : ℕ)
  | typing (u : UserId) (sender : SessionId) (c : ChannelId) (allowed : Bool)
      (reached : SessionId → Bool)
  | channel (c : ChannelId) (x : Option (ChannelType × List UserId))

variable (cfg : Option RoomTicketConfig) (L : Limits)

def step (s : State) : Event → State
  | .subscribe ctx r reads now => (handle cfg L s reads now ctx r).2
  | .typing _ sender c allowed reached => (typing s allowed reached sender c).2
  | .channel c x => { s with channels := Function.update s.channels c x }

/-- The channel is a direct chat or a group. -/
def State.isPrivate (s : State) (c : ChannelId) : Bool :=
  (s.channels c).any fun x => x.1 ≠ .room

/-- Nobody is listed under a direct chat or group, or has a typing event handed out there, without
being a member then. -/
def MembersOnly (s : State) : Event → Prop
  | .subscribe ctx r reads now => ∀ c, s.isPrivate c = true → ctx.sessionId ∉ s.channelRoutes c →
      ctx.sessionId ∈ (handle cfg L s reads now ctx r).2.channelRoutes c →
      ∃ u, ctx.user = some u ∧ u ∈ s.members c
  | .typing u sender c allowed reached => s.isPrivate c = true →
      (typing s allowed reached sender c).1 ≠ [] → u ∈ s.members c
  | .channel _ _ => True

/-- The condition: a request for a room does not name a direct chat or group, except one of its
user, and a typing event is of a member. -/
def Permitted (s : State) : Event → Prop
  | .subscribe ctx r _ _ => fromWire r.channelType = some .room → s.isPrivate r.channelId = true →
      ∃ u, ctx.user = some u ∧ u ∈ s.members r.channelId
  | .typing u _ c _ _ => s.isPrivate c = true → u ∈ s.members c
  | .channel _ _ => True

def Throughout (P : State → Event → Prop) : State → List Event → Prop
  | _, [] => True
  | s, e :: evs => P s e ∧ Throughout P (step cfg L s e) evs

variable {cfg L} {s s' : State} {i : SessionId} {c c' : ChannelId}

lemma listed_subscribe (h : s.subscribe L i c = .ok s') : s'.channels = s.channels ∧
    ∀ j c', j ∈ s'.channelRoutes c' → j ∈ s.channelRoutes c' ∨ j = i ∧ c' = c := by
  unfold State.subscribe at h
  split at h
  · cases h
    exact ⟨rfl, fun _ _ hj => .inl hj⟩
  · split at h
    · cases h
    · split at h
      · cases h
      · cases h
        refine ⟨rfl, fun j c' hj => ?_⟩
        by_cases hc : c' = c
        · subst hc
          simp only [Function.update_self] at hj
          split at hj
          · exact .inl hj
          · exact (List.mem_append.mp hj).imp_right fun hj => ⟨List.mem_singleton.mp hj, rfl⟩
        · exact .inl (by simpa only [Function.update_of_ne hc] using hj)

lemma listed_unsubscribe (s : State) (i : SessionId) (c : ChannelId) :
    (s.unsubscribe i c).channels = s.channels ∧
      ∀ j c', j ∈ (s.unsubscribe i c).channelRoutes c' → j ∈ s.channelRoutes c' := by
  unfold State.unsubscribe
  split
  · refine ⟨rfl, fun j c' hj => ?_⟩
    by_cases hc : c' = c
    · subst hc
      simp only [Function.update_self] at hj
      exact (List.mem_filter.mp hj).1
    · simpa only [Function.update_of_ne hc] using hj
  · exact ⟨rfl, fun _ _ hj => hj⟩

lemma member_of_authorize {reads : Bool} {now : ℕ} {ctx : RequestContext} {r : SubscribeRequest}
    (h : authorize cfg s reads now ctx r = 0) (hroom : fromWire r.channelType ≠ some .room) :
    ∃ u, ctx.user = some u ∧ u ∈ s.members r.channelId := by
  unfold authorize at h
  split at h
  iterate 2
    cases hu : ctx.user with
    | none => simp [hu] at h
    | some u =>
      simp only [hu] at h
      split at h
      · simp at h
      · split at h
        · rename_i hmem
          exact ⟨u, rfl, hmem⟩
        · simp at h
  · rename_i htype
    exact absurd htype hroom
  · simp at h

/-- A request lists no session but its own, under the channel it names, if it is let through. -/
lemma listed_handle {reads : Bool} {now : ℕ} {ctx : RequestContext} {r : SubscribeRequest} :
    (handle cfg L s reads now ctx r).2.channels = s.channels ∧
      ∀ j c, j ∈ (handle cfg L s reads now ctx r).2.channelRoutes c → j ∈ s.channelRoutes c ∨
        (j = ctx.sessionId ∧ c = r.channelId) ∧ r.action = .subscribe ∧
          authorize cfg s reads now ctx r = 0 := by
  unfold handle
  split
  · exact ⟨rfl, fun _ _ hj => .inl hj⟩
  · obtain ⟨hch, hlisted⟩ := listed_unsubscribe s ctx.sessionId r.channelId
    exact ⟨hch, fun j c hj => .inl (hlisted j c hj)⟩
  · next hact =>
    split
    · next hauth =>
      split
      · next s' hsub =>
        obtain ⟨hch, hlisted⟩ := listed_subscribe hsub
        exact ⟨hch, fun j c hj => (hlisted j c hj).imp_right fun h => ⟨h, hact, hauth⟩⟩
      · exact ⟨rfl, fun _ _ hj => .inl hj⟩
    · exact ⟨rfl, fun _ _ hj => .inl hj⟩

lemma membersOnly_of_permitted {e : Event} (h : Permitted s e) : MembersOnly cfg L s e := by
  cases e with
  | channel => trivial
  | typing u sender c allowed reached => exact fun hp _ => h hp
  | subscribe ctx r reads now =>
    intro c hp hnot hlisted
    obtain hold | ⟨⟨-, rfl⟩, -, hauth⟩ := listed_handle.2 _ _ hlisted
    · exact absurd hold hnot
    · by_cases hroom : fromWire r.channelType = some .room
      · exact h hroom hp
      · exact member_of_authorize hauth hroom

/-- **Channel events reach and come from members only, if requests for rooms name no direct chats
or groups and typing events are of members.** -/
theorem channel_events_for_members_only (cfg : Option RoomTicketConfig) (L : Limits) (s : State)
    (evs : List Event) (h : Throughout cfg L Permitted s evs) :
    Throughout cfg L (MembersOnly cfg L) s evs := by
  induction evs generalizing s with
  | nil => trivial
  | cons e evs ih => exact ⟨membersOnly_of_permitted h.1, ih _ h.2⟩

/-- Users 1 and 2 have a direct chat, and session 5 is listed there. -/
def directChat : State :=
  ⟨fun c => if c = 10 then some (.direct, [1, 2]) else none, fun c => if c = 10 then [5] else [],
    fun i => if i = 5 then [10] else []⟩

def asked (u : UserId) (type : ℕ) : Event :=
  .subscribe ⟨u, some (some u), some "phone"⟩ ⟨.subscribe, 10, type, .empty⟩ true 0

theorem channel_events_of_member : Throughout none ⟨32, 100⟩ (MembersOnly none ⟨32, 100⟩) directChat
    [asked 2 1, .typing 2 2 10 true fun _ => true] := by
  refine channel_events_for_members_only none ⟨32, 100⟩ directChat _ ⟨?_, ?_, trivial⟩
  · exact fun hroom => by cases hroom
  · intro _
    decide +kernel

/-- User 7 asks for the direct chat as if it were a room, and types there. -/
theorem stranger_listed_and_typing :
    ¬ Throughout none ⟨32, 100⟩ (MembersOnly none ⟨32, 100⟩) directChat [asked 7 3] ∧
    ¬ Throughout none ⟨32, 100⟩ (MembersOnly none ⟨32, 100⟩) directChat
      [.typing 7 7 10 true fun _ => true] := by
  refine ⟨fun h => ?_, fun h => ?_⟩
  · obtain ⟨u, hu, hmem⟩ := h.1 10 (by decide +kernel) (by decide +kernel) (by decide +kernel)
    cases hu
    revert hmem
    decide +kernel
  · have hmem := h.1 (by decide +kernel) (by decide +kernel)
    revert hmem
    decide +kernel

end PrivChat.Subscriptions
