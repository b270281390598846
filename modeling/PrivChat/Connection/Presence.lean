import PrivChat.Connection.Consistency

/-!
What the manager tells of who is online.

It counts the sessions that have authenticated, it answers who is online, and it pushes to those
who are. The counter is the number of routes as long as no delivery gives up a session that a
route leads to: that one is closed by force first, and is then no longer authenticated when it is
unregistered. The answers agree as long as no session authenticates again after another one has
taken over from it, for the mark of that stays on its entry.
-/

namespace PrivChat.Connection

open Db

/-- The session of a call that authenticates, with its user and device. -/
def Call.binds : Call → Option (SessionId × UserId × DeviceId)
  | .authenticate _ s u d | .registerConnection _ u d s _ => some (s, u, d)
  | _ => none

lemma Call.authenticates_eq (c : Call) : c.authenticates = c.binds.map fun x => (x.1, x.2.1) := by
  cases c <;> rfl

structure DeviceConnection where
  userId : UserId
  deviceId : DeviceId
  sessionId : SessionId
  ownerNodeId : String
  connectedAt : Millis

namespace Manager

variable {m m' : Manager} {u u' : UserId} {d d' : DeviceId} {s t : SessionId} {now : Millis}

/-! ### The counter -/

/-- The users and devices that have a route. -/
def places (m : Manager) : List (UserId × DeviceId) := m.routes.map fun r => (r.1, r.2.1)

lemma mem_places : (u, d) ∈ m.places ↔ (m.route u d).isSome := by
  simp only [places, List.mem_map, Prod.exists, Prod.mk.injEq, mem_routes, Option.isSome_iff_exists]
  constructor
  · rintro ⟨u, d, s, hr, rfl, rfl⟩
    exact ⟨s, hr⟩
  · rintro ⟨s, hr⟩
    exact ⟨u, d, s, hr, rfl, rfl⟩

lemma nodup_places (m : Manager) : m.places.Nodup := by
  have hroutes : m.routes.Nodup := by
    refine List.nodup_flatMap.mpr ⟨fun x _ => x.2.nodup_select.map fun y z h => ?_, ?_⟩
    · cases y
      simpa using h
    · refine m.indexA.nodup_select.pairwise_of_forall_ne fun x hx y hy hne r hr hr' => ?_
      simp only [List.mem_map] at hr hr'
      obtain ⟨p, -, rfl⟩ := hr
      obtain ⟨q, -, he⟩ := hr'
      refine hne (Prod.ext (congrArg Prod.fst he).symm ?_)
      have hx' := (Table.mem_select.mp hx).1
      rw [← congrArg Prod.fst he, (Table.mem_select.mp hy).1] at hx'
      exact (Option.some.inj hx').symm
  refine hroutes.map_on fun x hx y hy he => ?_
  have hx' := m.mem_routes.mp hx
  have hy' := m.mem_routes.mp hy
  simp only [Prod.mk.injEq] at he
  rw [he.1, he.2, hy'] at hx'
  exact Prod.ext he.1 (Prod.ext he.2 (Option.some.inj hx').symm)

lemma length_routes_succ (hu : m.route u d = none)
    (h : ∀ u' d', (m'.route u' d').isSome ↔ u' = u ∧ d' = d ∨ (m.route u' d').isSome) :
    m'.routes.length = m.routes.length + 1 := by
  have hnot : (u, d) ∉ m.places := by simp [mem_places, hu]
  have hperm : m'.places.Perm ((u, d) :: m.places) := by
    refine (List.perm_ext_iff_of_nodup m'.nodup_places
      (List.nodup_cons.mpr ⟨hnot, m.nodup_places⟩)).mpr fun ⟨u', d'⟩ => ?_
    rw [mem_places, h, List.mem_cons, mem_places, Prod.mk.injEq]
  simpa [places] using hperm.length_eq

/-- The counter is the number of routes. -/
def Exact (m : Manager) : Prop := m.totalAuthenticated = UInt64.ofNat m.routes.length

variable {b : Bool}

lemma Exact.quiet (h : m.Exact) (hq : Quiet b s m m') (hb : b = true) : m'.Exact := by
  cases hq with
  | entry hA _ _ _ htotal =>
    rw [Exact, htotal hb, h, routes, routes, hA]
  | leave u d hr hA _ _ htotal =>
    have hroute : ∀ u' d', m'.route u' d' = if u' = u ∧ d' = d then none else m.route u' d' :=
      fun _ _ => route_dropRoute hA
    have hlen : m.routes.length = m'.routes.length + 1 := by
      refine length_routes_succ (u := u) (d := d) (by simp [hroute]) fun u' d' => ?_
      rw [hroute]
      by_cases hud : u' = u ∧ d' = d
      · simp [hud, hr]
      · simp [hud]
    rw [Exact, htotal hb, h, hlen, UInt64.ofNat_add]
    simp

lemma Exact.authenticate (h : m.Exact) (hm : m.Consistent) :
    (m.authenticate now s u d).2.Exact := by
  have htotal : (m.authenticate now s u d).2.totalAuthenticated =
      m.countAfter (m.indexB.put s (m.bindEntry now s u d)) s (m.route u d) := by
    rw [← route_getD]
    rfl
  have hroute : ∀ u' d', ((m.authenticate now s u d).2.route u' d').isSome ↔
      u' = u ∧ d' = d ∨ (m.route u' d').isSome := by
    intro u' d'
    rw [route_authenticate]
    by_cases hud : u' = u ∧ d' = d <;> simp [hud]
  rw [Exact, htotal]
  cases hr : m.route u d with
  | none =>
    rw [length_routes_succ hr hroute, UInt64.ofNat_add, ← h]
    simp [countAfter]
  | some o =>
    have hlen : (m.authenticate now s u d).2.routes.length = m.routes.length := by
      have hperm : (m.authenticate now s u d).2.places.Perm m.places := by
        refine (List.perm_ext_iff_of_nodup (nodup_places _) (nodup_places _)).mpr fun ⟨u', d'⟩ => ?_
        rw [mem_places, mem_places, hroute]
        refine ⟨fun hor => hor.elim ?_ id, .inr⟩
        rintro ⟨rfl, rfl⟩
        rw [hr]
        rfl
      simpa [places] using hperm.length_eq
    rw [hlen, ← h, countAfter]
    by_cases ho : o = s
    · simp [ho]
    · obtain ⟨e, he, hst, -⟩ := hm.route u d o hr
      simp [ho, he, hst]

/-- The call breaks no route, and gives up no session that a route leads to. -/
def KeepsCount (m : Manager) (c : Call) : Prop :=
  m.KeepsRoutes c ∧ ∀ a ∈ m.attemptsOf c, a.2.givesUp = true → ∀ r ∈ m.routes, r.2.2 ≠ a.1

instance KeepsCount.decidable (m : Manager) (c : Call) : Decidable (m.KeepsCount c) :=
  inferInstanceAs (Decidable (_ ∧ ∀ _ ∈ _, _))

lemma Exact.quiets (h : m.Exact) (hq : Quiets true m m') : m'.Exact :=
  hq.keeps (fun hstep h => h.quiet hstep rfl) h

lemma Exact.after (h : m.Exact) (hm : m.Consistent) {c : Call} (hc : m.KeepsCount c) :
    (m.after c).Exact := by
  by_cases hquiet : c.authenticates = none ∧ ∀ s, c ≠ .forceCloseSession s
  · exact h.quiets (quiets_after hquiet.1 hquiet.2 fun _ => ⟨hm, fun a ha hup u d hr =>
      hc.2 a ha hup (u, d, a.1) (m.mem_routes.mpr hr) rfl⟩)
  · cases c with
    | authenticate now s u d => exact h.authenticate hm
    | registerConnection now u d s registry =>
      exact (h.quiets quiets_registerConnecting).authenticate
        (hm.quiets (b := false) quiets_registerConnecting)
    | forceCloseSession s => exact h
    | _ => exact absurd ⟨rfl, nofun⟩ hquiet

/-- **The counter is exact.** In every run of calls that break no route and give up no session that
a route leads to, the counter is the number of routes, and it is zero once no session is left. -/
theorem counter_exact (node : String) (calls : List Call)
    (hc : Each KeepsCount (newWithNodeId node) calls) :
    ((newWithNodeId node).run calls).totalAuthenticated =
        UInt64.ofNat ((newWithNodeId node).run calls).routes.length ∧
      ((∀ s, ((newWithNodeId node).run calls).indexB.get s = none) →
        ((newWithNodeId node).run calls).totalAuthenticated = 0) := by
  obtain ⟨hm, h⟩ := hc.run (P := fun m => m.Consistent ∧ m.Exact) ⟨consistent_new, rfl⟩
    fun m c h hc => ⟨h.1.after hc.1, h.2.after h.1 hc⟩
  refine ⟨h, fun hnone => ?_⟩
  have hroutes : ((newWithNodeId node).run calls).routes = [] := by
    refine List.eq_nil_iff_forall_not_mem.mpr fun ⟨u, d, s⟩ hr => ?_
    obtain ⟨e, he, -⟩ := hm.route u d s (Manager.mem_routes _ |>.mp hr)
    rw [hnone] at he
    cases he
  rw [h, hroutes]
  rfl

theorem counter_exact_sample :
    ((newWithNodeId "local").run [.registerConnection 1 7 "phone" 1 none,
      .registerConnection 2 7 "tablet" 2 none, .registerConnection 3 7 "phone" 3 none,
      .disconnectDevice 7 "tablet", .unregisterConnection 1, .unregisterConnection 2,
      .unregisterConnection 3]).totalAuthenticated = 0 := by
  rw [(counter_exact "local" _ (by decide)).1]
  decide

/-- A delivery to the only session fails because its connection is dead. -/
def deadDelivery : List Call :=
  [.registerConnection 1 7 "phone" 1 none,
    .applyDeliveryAttempts [(1, "local")] [(1, .failure .deadConnection "gone")] {}]

/-- **The counter stays behind.** The route and the entry go, and the counter still says that there
is one. -/
theorem counter_left_behind :
    ((newWithNodeId "local").run deadDelivery).totalAuthenticated = 1 ∧
    ((newWithNodeId "local").run deadDelivery).routes = [] ∧
    ((newWithNodeId "local").run deadDelivery).indexB.get 1 = none := by
  decide

/-! ### Sessions that close late -/

variable {c : Call}

lemma route_binds (h : c.binds = some (s, u, d)) :
    (m.after c).route u' d' = if u' = u ∧ d' = d then some s else m.route u' d' := by
  cases c with
  | authenticate =>
    cases h
    exact route_authenticate
  | registerConnection =>
    cases h
    rw [Manager.after, registerConnection, route_authenticate,
      route_of_indexA indexA_registerConnecting]
  | _ => cases h

lemma route_run_ne (h : m.route u d ≠ some s) {calls : List Call}
    (hc : ∀ c ∈ calls, c.binds ≠ some (s, u, d)) : (m.run calls).route u d ≠ some s := by
  induction calls generalizing m with
  | nil => exact h
  | cons c calls ih =>
    refine ih ?_ fun x hx => hc x (List.mem_cons_of_mem c hx)
    cases hb : c.binds with
    | none => exact fun hr => h (fewer_after (by rw [c.authenticates_eq, hb]; rfl) u d s hr)
    | some x =>
      rw [route_binds hb]
      split
      · rename_i hud
        rintro ⟨⟩
        exact hc c (by simp) (by rw [hb, hud.1, hud.2])
      · exact h

lemma Quiet.frame (hq : Quiet b s m m') (hr : m.route u d ≠ some s) (ht : t ≠ s) :
    m'.route u d = m.route u d ∧ m'.indexB.get t = m.indexB.get t := by
  cases hq with
  | entry hA hothers => exact ⟨route_of_indexA hA, hothers t ht⟩
  | leave u1 d1 hr1 hA hothers =>
    refine ⟨?_, hothers t ht⟩
    rw [route_dropRoute hA, if_neg]
    rintro ⟨rfl, rfl⟩
    exact hr hr1

/-- **A session that closes late takes nothing from a newer one.** A session authenticates for a
user and a device, and another one does not do so any more. Whenever that one is then unregistered,
or given up because a delivery to it fails, the route and the entry of the newer session stay. -/
theorem late_close_keeps_newer (node : String) (before later : List Call) (s1 s2 : SessionId)
    (hne : s1 ≠ s2) (hc : c.binds = some (s2, u, d))
    (hlater : ∀ c ∈ later, c.binds ≠ some (s1, u, d)) :
    let m := (newWithNodeId node).run (before ++ c :: later)
    ((m.unregisterConnection s1).2.route u d = m.route u d ∧
      (m.unregisterConnection s1).2.indexB.get s2 = m.indexB.get s2) ∧
    ∀ owners report outcome,
      (applyAttempt owners (report, m) (s1, outcome)).2.route u d = m.route u d ∧
      (applyAttempt owners (report, m) (s1, outcome)).2.indexB.get s2 = m.indexB.get s2 := by
  intro m
  have hr : m.route u d ≠ some s1 := by
    have hm : m = (((newWithNodeId node).run before).after c).run later := List.foldl_append ..
    rw [hm]
    refine route_run_ne ?_ hlater
    rw [route_binds hc, if_pos ⟨rfl, rfl⟩]
    exact fun h => hne (Option.some.inj h).symm
  have hunregister : Quiet false s1 m (m.unregisterConnection s1).2 :=
    quiet_unregisterConnection rfl rfl (fun _ _ => rfl) (fun e he => ⟨e, he, rfl, rfl⟩) nofun
  refine ⟨hunregister.frame hr hne.symm, fun owners report outcome => ?_⟩
  unfold applyAttempt
  cases outcome with
  | success => exact ⟨rfl, rfl⟩
  | failure classification detail =>
    dsimp only
    split
    · exact (quiet_giveUp (b := false) nofun).frame hr hne.symm
    · exact ⟨rfl, rfl⟩

theorem late_close_keeps_newer_sample :
    ((((newWithNodeId "local").run [.registerConnection 1 7 "phone" 1 none,
      .registerConnection 2 7 "phone" 2 none]).unregisterConnection 1).2.route 7 "phone") =
      some 2 := by
  have h := late_close_keeps_newer "local" [.registerConnection 1 7 "phone" 1 none] [] 1 2
    (c := .registerConnection 2 7 "phone" 2 none) (by decide) rfl nofun
  exact h.1.1.trans (by decide)

/-! ### Who is online -/

def getUserConnections (m : Manager) (u : UserId) : List DeviceConnection :=
  (((m.indexA.get u).getD .empty).select fun _ _ => true).filterMap fun x =>
    ((m.indexB.get x.2).filter fun b => decide (b.state = .authenticated)).map fun b =>
      ⟨u, x.1, x.2, b.ownerNodeId, b.connectedAt⟩

def isDeviceOnline (m : Manager) (u : UserId) (d : DeviceId) : Bool :=
  (m.route u d).any fun s => (m.indexB.get s).any fun b => decide (b.state = .authenticated)

def hasAuthenticatedConnection (m : Manager) (u : UserId) : Bool :=
  (((m.indexA.get u).getD .empty).select fun _ _ => true).any fun x => (m.deliverable x.2).isSome

/-- No session has taken over from one that is authenticated. -/
def Unmarked (m : Manager) : Prop :=
  ∀ s e, m.indexB.get s = some e → e.state = .authenticated → e.supersededBy = none

/-- A session authenticates only if no other has taken over from it. -/
def KeepsUnmarked (m : Manager) (c : Call) : Prop :=
  ∀ x ∈ c.authenticates, ∀ e ∈ m.indexB.get x.1, e.supersededBy = none

instance KeepsUnmarked.decidable (m : Manager) (c : Call) : Decidable (m.KeepsUnmarked c) :=
  inferInstanceAs (Decidable (∀ x ∈ c.authenticates, ∀ e ∈ m.indexB.get x.1, e.supersededBy = none))

lemma Unmarked.entry (h : m.Unmarked) (hothers : ∀ t, t ≠ s → m'.indexB.get t = m.indexB.get t)
    (hself : ∀ e, m'.indexB.get s = some e → e.state ≠ .authenticated) : m'.Unmarked := by
  intro t e he hst
  have hts : t ≠ s := fun hts => hself e (hts ▸ he) hst
  rw [hothers t hts] at he
  exact h t e he hst

lemma Unmarked.quiets (h : m.Unmarked) (hq : Quiets b m m') : m'.Unmarked := by
  refine hq.keeps (fun hstep h => ?_) h
  cases hstep with
  | entry _ hothers hself | leave _ _ _ _ hothers hself => exact h.entry hothers hself

lemma Unmarked.authenticate (h : m.Unmarked)
    (hs : ∀ e, m.indexB.get s = some e → e.supersededBy = none) :
    (m.authenticate now s u d).2.Unmarked := by
  intro t e he hst
  rw [entry_authenticate] at he
  split at he
  · cases he
    cases hget : m.indexB.get s with
    | none => simp [bindEntry, hget, connecting]
    | some e => simpa [bindEntry, hget] using hs e hget
  · split at he
    · obtain ⟨e, -, rfl⟩ := Option.map_eq_some_iff.mp he
      unfold SessionEntry.supersede at hst
      split at hst
      · cases hst
      · contradiction
    · exact h t e he hst

lemma Unmarked.after (h : m.Unmarked) (hc : m.KeepsUnmarked c) : (m.after c).Unmarked := by
  by_cases hquiet : c.authenticates = none ∧ ∀ s, c ≠ .forceCloseSession s
  · exact h.quiets (b := false) (quiets_after hquiet.1 hquiet.2 nofun)
  · cases c with
    | authenticate now s u d => exact h.authenticate (hc (s, u) rfl)
    | registerConnection now u d s registry =>
      refine (h.quiets (b := false) quiets_registerConnecting).authenticate fun e he => ?_
      unfold registerConnecting at he
      split at he
      · exact hc (s, u) rfl e he
      · rw [Table.get_put_self, Option.some.injEq] at he
        rw [← he]
        rfl
    | forceCloseSession s =>
      exact h.entry (fun t ht => Table.get_modify_of_ne _ ht) fun e he => state_closing he
    | _ => exact absurd ⟨rfl, nofun⟩ hquiet

lemma isDeviceOnline_iff : m.isDeviceOnline u d = true ↔
    ∃ s e, m.route u d = some s ∧ m.indexB.get s = some e ∧ e.state = .authenticated := by
  simp [isDeviceOnline, Option.any_eq_true]

lemma mem_liveSessions : s ∈ (m.liveSessions u).map (·.1) ↔
    ∃ d, m.route u d = some s ∧ ∃ e, m.indexB.get s = some e ∧ e.state = .authenticated ∧
      e.supersededBy = none := by
  simp [liveSessions, deliverable, Table.mem_select, route_getD]

/-- **Those who are online are those whom a push goes to.** In every run in which a session
authenticates only if no other has taken over from it, the ways to ask who is online agree with
one another and with the targets of a push. -/
theorem online_views_agree (node : String) (calls : List Call)
    (hc : Each KeepsUnmarked (newWithNodeId node) calls) (u : UserId) :
    let m := (newWithNodeId node).run calls
    (∀ d, (m.isDeviceOnline u d = true ↔ ∃ x ∈ m.getUserConnections u, x.deviceId = d) ∧
      (m.isDeviceOnline u d = true ↔
        ∃ s, m.route u d = some s ∧ s ∈ (m.liveSessions u).map (·.1))) ∧
    (m.hasAuthenticatedConnection u = true ↔ m.liveSessions u ≠ []) := by
  intro m
  have h : m.Unmarked := hc.run (by simp [Unmarked, newWithNodeId]) fun _ _ h hc => h.after hc
  refine ⟨fun d => ⟨?_, ?_⟩, ?_⟩
  · simp [isDeviceOnline_iff, getUserConnections, Table.mem_select, route_getD]
  · simp only [isDeviceOnline_iff, mem_liveSessions]
    constructor
    · rintro ⟨s, e, hr, he, hst⟩
      exact ⟨s, hr, d, hr, e, he, hst, h s e he hst⟩
    · rintro ⟨s, hr, -, -, e, he, hst, -⟩
      exact ⟨s, e, hr, he, hst⟩
  · simp [hasAuthenticatedConnection, liveSessions, Option.isSome_iff_ne_none]

/-- The phone comes back with a new session, and the old one is unregistered. -/
def sampleReturn : List Call :=
  [.registerConnection 1 7 "phone" 1 none, .registerConnection 2 7 "phone" 2 none,
    .unregisterConnection 1]

theorem online_views_agree_sample :
    ∃ s, ((newWithNodeId "local").run sampleReturn).route 7 "phone" = some s ∧
      s ∈ (((newWithNodeId "local").run sampleReturn).liveSessions 7).map (·.1) :=
  (((online_views_agree "local" _ (by decide) 7).1 "phone").2).mp (by decide)

/-- A session authenticates again after another one has taken over from it. -/
def returnCalls : List Call :=
  [.registerConnection 1 7 "phone" 1 none, .registerConnection 2 7 "phone" 2 none,
    .authenticate 3 1 7 "phone"]

/-- **Online, and no push goes there.** -/
theorem online_without_target :
    ((newWithNodeId "local").run returnCalls).isDeviceOnline 7 "phone" = true ∧
    ((newWithNodeId "local").run returnCalls).liveSessions 7 = [] ∧
    ((newWithNodeId "local").run returnCalls).hasAuthenticatedConnection 7 = false := by
  decide

end Manager

end PrivChat.Connection
