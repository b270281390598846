import PrivChat.Connection.Manager

/-!
The two indexes agree.

Every route of index A leads to an authenticated entry of its own user and device, and every
authenticated entry that no other session has taken over from is led to. What can break this is
a session that authenticates while a route of another user or device leads to it, and a forced
close of a session that a route leads to. A push follows index A. A session is handed a frame for a
user only if it authenticated last as that user, as long as no session authenticates while a route
of another user leads to it.
-/

namespace PrivChat.Connection

open Db

/-- The session and the user of a call that authenticates. The manager refuses no
authentication: what may fail in `registerConnection` is the registry, after the fact. -/
def Call.authenticates : Call → Option (SessionId × UserId)
  | .authenticate _ s u _ | .registerConnection _ u _ s _ => some (s, u)
  | _ => none

/-- An attempt after which the connection is given up. -/
def SessionAttemptOutcome.givesUp : SessionAttemptOutcome → Bool
  | .success _ => false
  | .failure classification _ => classification.givesUp

namespace Manager

variable {m : Manager} {u u' : UserId} {d d' : DeviceId} {s t : SessionId} {now : Millis}

lemma route_getD : ((m.indexA.get u).getD .empty).get d = m.route u d := by
  unfold route
  cases m.indexA.get u <;> rfl

lemma route_authenticate : (m.authenticate now s u d).2.route u' d' =
      if u' = u ∧ d' = d then some s else m.route u' d' := by
  have hA : (m.authenticate now s u d).2.indexA =
      m.indexA.put u (((m.indexA.get u).getD .empty).put d s) := rfl
  unfold route
  rw [hA]
  by_cases hu : u' = u
  · subst hu
    rw [Table.get_put_self, Option.bind_some]
    by_cases hd : d' = d
    · simp [hd]
    · rw [Table.get_put_of_ne _ hd, route_getD]
      simp [hd, route]
  · simp [hu]

lemma entry_authenticate : (m.authenticate now s u d).2.indexB.get t =
      if t = s then some (m.bindEntry now s u d)
      else if m.route u d = some t then (m.indexB.get t).map (·.supersede s)
      else m.indexB.get t := by
  simp only [authenticate, route_getD]
  cases hr : m.route u d with
  | none => by_cases ht : t = s <;> simp [ht]
  | some o =>
    by_cases ho : o = s
    · subst ho
      by_cases ht : t = o <;> simp [ht, Ne.symm, Option.filter_some]
    · have hfilter : (some o).filter (fun o => decide (o ≠ s)) = some o := by simp [ho]
      simp only [hfilter, Table.get_modify, Option.some.injEq]
      by_cases hto : t = o
      · subst hto
        simp [ho]
      · by_cases ht : t = s <;> simp [ht, hto, Ne.symm ho, Ne.symm hto]

lemma route_dropRoute {m' : Manager} (hA : m'.indexA = m.dropRoute u d) :
    m'.route u' d' = if u' = u ∧ d' = d then none else m.route u' d' := by
  rw [route, route, hA, dropRoute]
  cases hu : m.indexA.get u with
  | none => by_cases he : u' = u ∧ d' = d <;> simp [he, hu]
  | some map =>
    -- a user without devices is as good as none
    have hempty : ((map.erase d).select fun _ _ => true).isEmpty = true →
        (map.erase d).get d' = none := by
      intro hempty
      rw [Option.eq_none_iff_forall_ne_some]
      intro x hx
      have hmem : (d', x) ∈ (map.erase d).select fun _ _ => true := Table.mem_select.mpr ⟨hx, rfl⟩
      rw [List.isEmpty_iff.mp hempty] at hmem
      simp at hmem
    have hmap : (map.erase d).get d' = if d' = d then none else map.get d' := Table.get_erase ..
    by_cases hu' : u' = u
    · subst hu'
      dsimp only
      split
      · rename_i he
        rw [hempty he] at hmap
        simpa [hu] using hmap
      · simp [hu, hmap]
    · dsimp only
      split <;> simp [hu']

lemma route_of_indexA {m' : Manager} (h : m'.indexA = m.indexA) : m'.route u d = m.route u d := by
  rw [route, route, h]

lemma indexA_registerConnecting : (m.registerConnecting now s).indexA = m.indexA := by
  unfold registerConnecting
  split <;> rfl

/-! ### Steps that authenticate nobody -/

/-- A step that authenticates nobody. The entry of the session comes or goes or changes and is not
authenticated, and the route of its user and device did not lead to it while it was; or the session
loses a route that led to it. What becomes of the counter is said if `b` asks for it. -/
inductive Quiet (b : Bool) (s : SessionId) (m m' : Manager) : Prop
  | entry (indexA : m'.indexA = m.indexA)
      (others : ∀ t, t ≠ s → m'.indexB.get t = m.indexB.get t)
      (self : ∀ e, m'.indexB.get s = some e → e.state ≠ .authenticated)
      (apart : ∀ u d e, m.route u d = some s → m.indexB.get s = some e →
        e.state = .authenticated → e.userId = some u → e.deviceId ≠ some d)
      (total : b = true → m'.totalAuthenticated = m.totalAuthenticated)
  | leave (u : UserId) (d : DeviceId) (route : m.route u d = some s)
      (indexA : m'.indexA = m.dropRoute u d)
      (others : ∀ t, t ≠ s → m'.indexB.get t = m.indexB.get t)
      (self : ∀ e, m'.indexB.get s = some e → e.state ≠ .authenticated)
      (total : b = true → m'.totalAuthenticated = m.totalAuthenticated - 1)

abbrev Quiets (b : Bool) : Manager → Manager → Prop :=
  Relation.ReflTransGen fun m m' => ∃ s, Quiet b s m m'

variable {b : Bool} {m' : Manager}

lemma Quiet.fewer (h : Quiet b t m m') (hr : m'.route u d = some s) : m.route u d = some s := by
  cases h with
  | entry hA => rwa [route_of_indexA hA] at hr
  | leave u1 d1 _ hA =>
    rw [route_dropRoute hA] at hr
    split at hr
    · cases hr
    · exact hr

variable {P : Manager → Prop}

lemma Quiets.keeps (h : Quiets b m m')
    (hP : ∀ {s m m'}, Quiet b s m m' → P m → P m') (hm : P m) : P m' := by
  induction h with
  | refl => exact hm
  | tail _ hstep ih =>
    obtain ⟨_, hstep⟩ := hstep
    exact hP hstep ih

lemma Quiets.fewer (h : Quiets b m m') (hr : m'.route u d = some s) : m.route u d = some s :=
  h.keeps (P := fun m' => m'.route u d = some s → m.route u d = some s)
    (fun hstep h hr => h (hstep.fewer hr)) id hr

lemma state_closing {b : Table SessionId SessionEntry} {e : SessionEntry}
    (h : (b.modify s SessionEntry.closing).get s = some e) : e.state ≠ .authenticated := by
  rw [Table.get_modify_self, Option.map_eq_some_iff] at h
  obtain ⟨e, -, rfl⟩ := h
  unfold SessionEntry.closing
  split
  · simp
  · assumption

lemma quiets_registerConnecting : Quiets b m (m.registerConnecting now s) := by
  unfold registerConnecting
  cases hs : m.indexB.get s with
  | some e => exact .refl
  | none =>
    refine .single ⟨s, .entry rfl (fun t ht => Table.get_put_of_ne _ ht) (fun e he => ?_)
      (fun u d e _ he => ?_) fun _ => rfl⟩
    · rw [Table.get_put_self, Option.some.injEq] at he
      subst he
      exact nofun
    · rw [hs] at he
      cases he

lemma quiets_disconnectDevice : Quiets b m (m.disconnectDevice u d) := by
  unfold disconnectDevice
  cases hr : m.route u d with
  | none => exact .refl
  | some s =>
    exact .single ⟨s, .leave u d hr rfl (fun t ht => Table.get_modify_of_ne _ ht)
      (fun e he => state_closing he) fun _ => rfl⟩

lemma quiets_closeStale {closes : SessionId → Bool} (x : ℕ × Manager) (s : SessionId) :
    Quiets b x.2 (closeStale closes x s).2 := by
  unfold closeStale
  cases hs : x.2.indexB.get s with
  | none => exact .refl
  | some e =>
    dsimp only
    split
    · rename_i hst
      refine .single ⟨s, .entry rfl (fun t ht => Table.get_put_of_ne _ ht) (fun e' he => ?_)
        (fun u d e' _ he hauth => ?_) fun _ => rfl⟩
      · rw [Table.get_put_self, Option.some.injEq] at he
        subst he
        exact nofun
      · rw [hs, Option.some.injEq] at he
        subst he
        rw [hst] at hauth
        cases hauth
    · exact .refl

/-- A session is unregistered from indexes that may have changed in the state of its entry. The
counter follows if the entry is still authenticated while a route leads to it. -/
lemma quiet_unregisterConnection {m1 : Manager} (hA : m1.indexA = m.indexA)
    (htotal : m1.totalAuthenticated = m.totalAuthenticated)
    (hothers : ∀ t, t ≠ s → m1.indexB.get t = m.indexB.get t) (hs : ∀ e, m.indexB.get s = some e →
      ∃ e1, m1.indexB.get s = some e1 ∧ e1.userId = e.userId ∧ e1.deviceId = e.deviceId)
    (hb : b = true → ∀ u d e, m.route u d = some s → m1.indexB.get s = some e →
      e.state = .authenticated) : Quiet b s m (m1.unregisterConnection s).2 := by
  have herase : ∀ t, t ≠ s → (m1.indexB.erase s).get t = m.indexB.get t :=
    fun t ht => (Table.get_erase_of_ne _ ht).trans (hothers t ht)
  have hgone : ∀ e, (m1.indexB.erase s).get s = some e → e.state ≠ .authenticated :=
    fun e he => by simp at he
  unfold unregisterConnection
  cases he1 : m1.indexB.get s with
  | none =>
    refine .entry hA hothers (fun e he => ?_) (fun u d e _ he => ?_) fun _ => htotal
    · rw [he1] at he
      cases he
    · obtain ⟨e1, he, -⟩ := hs e he
      rw [he1] at he
      cases he
  | some e1 =>
    -- what the route of the entry's user and device leads to decides
    have hentry : (∀ u d, e1.userId = some u → e1.deviceId = some d → m.route u d ≠ some s) →
        Quiet b s m { m1 with indexB := m1.indexB.erase s } := by
      refine fun hne => .entry hA herase hgone (fun u d e hr he _ hu hd => ?_) fun _ => htotal
      obtain ⟨e2, he2, hu2, hd2⟩ := hs e he
      rw [he1, Option.some.injEq] at he2
      subst he2
      exact hne u d (hu2.trans hu) (hd2.trans hd) hr
    rcases hu : e1.userId with _ | u
    · simp only [hu]
      exact hentry fun _ _ h => by simp [hu] at h
    rcases hd : e1.deviceId with _ | d
    · simp only [hu, hd]
      exact hentry fun _ _ _ h => by simp [hd] at h
    simp only [hu, hd, route_of_indexA hA]
    split
    · rename_i hr
      refine .leave u d hr (by simp only [dropRoute, hA]) herase hgone fun hb' => ?_
      rw [if_pos (hb hb' u d e1 hr he1), htotal]
    · rename_i hr
      refine hentry fun u' d' hu' hd' => ?_
      rw [hu, Option.some.injEq] at hu'
      rw [hd, Option.some.injEq] at hd'
      rwa [← hu', ← hd']

lemma quiet_giveUp (hb : b = true → ∀ u d, m.route u d ≠ some s) :
    Quiet b s m ((m.forceCloseSession s).unregisterConnection s).2 := by
  refine quiet_unregisterConnection rfl rfl (fun t ht => Table.get_modify_of_ne _ ht)
    (fun e he => ⟨e.closing, ?_, ?_⟩) fun hb' u d _ hr => absurd hr (hb hb' u d)
  · rw [forceCloseSession, Table.get_modify_self, he, Option.map_some]
  · unfold SessionEntry.closing
    split <;> exact ⟨rfl, rfl⟩

lemma quiets_applyDeliveryAttempts {owners : List (SessionId × String)}
    {attempts : List (SessionId × SessionAttemptOutcome)} {report : DeliveryReport}
    (hb : b = true → ∀ a ∈ attempts, a.2.givesUp = true → ∀ u d, m.route u d ≠ some a.1) :
    Quiets b m (m.applyDeliveryAttempts owners attempts report).2 := by
  induction attempts generalizing m report with
  | nil => exact .refl
  | cons a attempts ih =>
    have hstep : Quiets b m (applyAttempt owners (report, m) a).2 := by
      unfold applyAttempt
      cases ha : a.2 with
      | success acknowledged => exact .refl
      | failure classification detail =>
        dsimp only
        split
        · rename_i hup
          exact .single ⟨a.1, quiet_giveUp fun hb' => hb hb' a (by simp) (by rw [ha]; exact hup)⟩
        · exact .refl
    refine hstep.trans (ih fun hb' x hx hup u d hr => ?_)
    exact hb hb' x (List.mem_cons_of_mem _ hx) hup u d (hstep.fewer hr)

lemma Quiets.foldl {α β : Type} (view : β → Manager) {f : β → α → β}
    (hf : ∀ x a, Quiets b (view x) (view (f x a))) (l : List α) (x : β) :
    Quiets b (view x) (view (l.foldl f x)) := by
  induction l generalizing x with
  | nil => exact .refl
  | cons a l ih => exact (hf x a).trans (ih (f x a))

/-- The attempts to deliver of a call. -/
def attemptsOf (m : Manager) : Call → List (SessionId × SessionAttemptOutcome)
  | .applyDeliveryAttempts _ attempts _ => attempts
  | .sendPushToUser u (some w) => (m.liveSessions u).map fun x => (x.1, w.attempt x.1)
  | _ => []

lemma quiets_sendPushToUser {w : Option Wire}
    (hb : b = true → ∀ a ∈ m.attemptsOf (.sendPushToUser u w), a.2.givesUp = true →
      ∀ u d, m.route u d ≠ some a.1) : Quiets b m (m.sendPushToUser u w).manager := by
  unfold sendPushToUser
  dsimp only
  split
  · exact .refl
  · split
    · exact .refl
    · split
      · exact .refl
      · refine quiets_applyDeliveryAttempts fun hb' a ha => hb hb' a ?_
        obtain ⟨x, hx, rfl⟩ := List.mem_map.mp ha
        exact List.mem_map.mpr ⟨x, (List.mem_filter.mp hx).1, rfl⟩

lemma manager_sendPushToDevice (m : Manager) (u : UserId) (d : DeviceId) (w : Option Wire) :
    (m.sendPushToDevice u d w).manager = m := by
  unfold sendPushToDevice sendPushOnSession
  repeat' split
  all_goals rfl

/-! ### The invariant -/

structure Consistent (m : Manager) : Prop where
  route : ∀ u d s, m.route u d = some s → ∃ e, m.indexB.get s = some e ∧
    e.state = .authenticated ∧ e.userId = some u ∧ e.deviceId = some d
  entry : ∀ s e, m.indexB.get s = some e → e.state = .authenticated → e.supersededBy = none →
    ∃ u d, e.userId = some u ∧ e.deviceId = some d ∧ m.route u d = some s

lemma Consistent.once (h : m.Consistent) (hr : m.route u d = some s)
    (hr' : m.route u' d' = some s) : u = u' ∧ d = d' := by
  obtain ⟨e, he, -, hu, hd⟩ := h.route u d s hr
  obtain ⟨e', he', -, hu', hd'⟩ := h.route u' d' s hr'
  rw [he, Option.some.injEq] at he'
  subst he'
  rw [hu, Option.some.injEq] at hu'
  rw [hd, Option.some.injEq] at hd'
  exact ⟨hu', hd'⟩

lemma consistent_new {node : String} : (newWithNodeId node).Consistent where
  route u d s h := by simp [Manager.route, newWithNodeId] at h
  entry s e h := by simp [newWithNodeId] at h

lemma Consistent.quiet (h : m.Consistent) (hq : Quiet b s m m') : m'.Consistent := by
  cases hq with
  | entry hA hothers hself hapart _ =>
    have hfree : ∀ u d, m.route u d ≠ some s := by
      intro u d hr
      obtain ⟨e, he, hst, hu, hd⟩ := h.route u d s hr
      exact hapart u d e hr he hst hu hd
    constructor
    · intro u d t hr
      rw [route_of_indexA hA] at hr
      rw [hothers t fun hts => hfree u d (hts ▸ hr)]
      exact h.route u d t hr
    · intro t e he hst hsup
      rw [hothers t fun hts => hself e (hts ▸ he) hst] at he
      obtain ⟨u, d, hu, hd, hr⟩ := h.entry t e he hst hsup
      exact ⟨u, d, hu, hd, by rw [route_of_indexA hA, hr]⟩
  | leave u d hr hA hothers hself _ =>
    constructor
    · intro u' d' t hr'
      rw [route_dropRoute hA] at hr'
      split at hr'
      · cases hr'
      · rename_i hud
        rw [hothers t fun hts => hud (h.once (hts ▸ hr') hr)]
        exact h.route u' d' t hr'
    · intro t e he hst hsup
      have hts : t ≠ s := fun hts => hself e (hts ▸ he) hst
      rw [hothers t hts] at he
      obtain ⟨u', d', hu', hd', hr'⟩ := h.entry t e he hst hsup
      refine ⟨u', d', hu', hd', ?_⟩
      rw [route_dropRoute hA, if_neg, hr']
      rintro ⟨rfl, rfl⟩
      exact hts (Option.some.inj (hr'.symm.trans hr))

lemma Consistent.quiets (h : m.Consistent) (hq : Quiets b m m') : m'.Consistent :=
  hq.keeps (fun hstep h => h.quiet hstep) h

lemma Consistent.forceCloseSession (h : m.Consistent) (hs : ∀ u d, m.route u d ≠ some s) :
    (m.forceCloseSession s).Consistent :=
  h.quiet (b := false) (.entry rfl (fun _ ht => Table.get_modify_of_ne _ ht)
    (fun _ he => state_closing he) (fun u d _ hr => absurd hr (hs u d)) nofun)

lemma Consistent.authenticate (h : m.Consistent)
    (hs : ∀ u' d', m.route u' d' = some s → u' = u ∧ d' = d) :
    (m.authenticate now s u d).2.Consistent where
  route u' d' t hr := by
    rw [route_authenticate] at hr
    rw [entry_authenticate]
    by_cases hud : u' = u ∧ d' = d
    · obtain ⟨rfl, rfl⟩ := hud
      rw [if_pos ⟨rfl, rfl⟩, Option.some.injEq] at hr
      subst hr
      exact ⟨_, if_pos rfl, rfl, rfl, rfl⟩
    · rw [if_neg hud] at hr
      have hts : t ≠ s := fun hts => hud (hs u' d' (hts ▸ hr))
      have hold : m.route u d ≠ some t := fun ho => hud (h.once hr ho)
      rw [if_neg hts, if_neg hold]
      exact h.route u' d' t hr
  entry t e he hst hsup := by
    rw [entry_authenticate] at he
    by_cases hts : t = s
    · subst hts
      rw [if_pos rfl, Option.some.injEq] at he
      subst he
      exact ⟨u, d, rfl, rfl, by rw [route_authenticate, if_pos ⟨rfl, rfl⟩]⟩
    · rw [if_neg hts] at he
      by_cases hold : m.route u d = some t
      · rw [if_pos hold, Option.map_eq_some_iff] at he
        obtain ⟨b, -, rfl⟩ := he
        -- the session that had the place is superseded
        unfold SessionEntry.supersede at hsup
        split at hsup <;> cases hsup
      · rw [if_neg hold] at he
        obtain ⟨u', d', hu', hd', hr⟩ := h.entry t e he hst hsup
        refine ⟨u', d', hu', hd', ?_⟩
        rw [route_authenticate, if_neg, hr]
        rintro ⟨rfl, rfl⟩
        exact hold hr

/-! ### Runs -/

/-- The call breaks no route: a session authenticates only if no route of another user or device
leads to it, and is closed by force only if no route leads to it. -/
def KeepsRoutes (m : Manager) : Call → Prop
  | .authenticate _ s u d | .registerConnection _ u d s _ =>
    ∀ r ∈ m.routes, r.2.2 = s → r.1 = u ∧ r.2.1 = d
  | .forceCloseSession s => ∀ r ∈ m.routes, r.2.2 ≠ s
  | _ => True

instance KeepsRoutes.decidable (m : Manager) : (c : Call) → Decidable (m.KeepsRoutes c)
  | .authenticate _ s u d | .registerConnection _ u d s _ =>
    inferInstanceAs (Decidable (∀ r ∈ m.routes, r.2.2 = s → r.1 = u ∧ r.2.1 = d))
  | .forceCloseSession s => inferInstanceAs (Decidable (∀ r ∈ m.routes, r.2.2 ≠ s))
  | .registerConnecting .. | .unregisterConnection .. | .disconnectDevice ..
  | .disconnectOtherDevices .. | .cleanupStaleConnecting .. | .applyDeliveryAttempts ..
  | .sendPushToUser .. | .sendPushToDevice .. => inferInstanceAs (Decidable True)

/-- A call that authenticates nobody and closes nobody by force takes quiet steps. The counter
follows if the indexes agree and no session is given up that a route leads to. -/
lemma quiets_after {c : Call} (hauth : c.authenticates = none)
    (hforce : ∀ s, c ≠ .forceCloseSession s)
    (hb : b = true → m.Consistent ∧ ∀ a ∈ m.attemptsOf c, a.2.givesUp = true →
      ∀ u d, m.route u d ≠ some a.1) : Quiets b m (m.after c) := by
  cases c with
  | registerConnecting now s => exact quiets_registerConnecting
  | authenticate now s u d => cases hauth
  | registerConnection now u d s registry => cases hauth
  | unregisterConnection s =>
    refine .single ⟨s, quiet_unregisterConnection rfl rfl (fun _ _ => rfl)
      (fun e he => ⟨e, he, rfl, rfl⟩) fun hb' u d e hr he => ?_⟩
    obtain ⟨e', he', hst, -⟩ := (hb hb').1.route u d s hr
    rw [he, Option.some.injEq] at he'
    exact he' ▸ hst
  | disconnectDevice u d => exact quiets_disconnectDevice
  | disconnectOtherDevices u current =>
    exact Quiets.foldl (fun m => m)
      (fun m x => quiets_disconnectDevice) _ m
  | cleanupStaleConnecting now timeoutSecs closes =>
    simp only [Manager.after, cleanupStaleConnecting]
    split
    · exact .refl
    · exact Quiets.foldl (·.2) quiets_closeStale _ (0, m)
  | forceCloseSession s => exact absurd rfl (hforce s)
  | applyDeliveryAttempts owners attempts report =>
    exact quiets_applyDeliveryAttempts fun hb' => (hb hb').2
  | sendPushToUser u w => exact quiets_sendPushToUser fun hb' => (hb hb').2
  | sendPushToDevice u d w =>
    rw [Manager.after, manager_sendPushToDevice]

lemma Consistent.after (h : m.Consistent) {c : Call} (hc : m.KeepsRoutes c) :
    (m.after c).Consistent := by
  by_cases hquiet : c.authenticates = none ∧ ∀ s, c ≠ .forceCloseSession s
  · exact h.quiets (b := false) (quiets_after hquiet.1 hquiet.2 nofun)
  · cases c with
    | authenticate now s u d =>
      exact h.authenticate fun u' d' hr => hc (u', d', s) (m.mem_routes.mpr hr) rfl
    | registerConnection now u d s registry =>
      refine (h.quiets (b := false) quiets_registerConnecting).authenticate fun u' d' hr => ?_
      rw [route_of_indexA indexA_registerConnecting] at hr
      exact hc (u', d', s) (m.mem_routes.mpr hr) rfl
    | forceCloseSession s =>
      exact h.forceCloseSession fun u d hr => hc (u, d, s) (m.mem_routes.mpr hr) rfl
    | _ => exact absurd ⟨rfl, nofun⟩ hquiet

lemma Each.run {fits : Manager → Call → Prop} {calls : List Call}
    (hc : Each fits m calls) (h : P m) (hstep : ∀ m c, P m → fits m c → P (m.after c)) :
    P (m.run calls) := by
  induction calls generalizing m with
  | nil => exact h
  | cons c calls ih => exact ih hc.2 (hstep m c h hc.1)

/-- **The indexes agree.** In every run of calls that break no route, each route of index A leads
to an authenticated entry of its user and device, each authenticated entry that is not superseded
is led to by the route of its own user and device, and no session is led to twice. -/
theorem indexes_agree (node : String) (calls : List Call)
    (hc : Each KeepsRoutes (newWithNodeId node) calls) :
    (∀ u d s, ((newWithNodeId node).run calls).route u d = some s →
      ∃ e, ((newWithNodeId node).run calls).indexB.get s = some e ∧
        e.state = .authenticated ∧ e.userId = some u ∧ e.deviceId = some d) ∧
    (∀ s e, ((newWithNodeId node).run calls).indexB.get s = some e →
      e.state = .authenticated → e.supersededBy = none →
      ∃ u d, e.userId = some u ∧ e.deviceId = some d ∧
        ((newWithNodeId node).run calls).route u d = some s) ∧
    (∀ u d u' d' s, ((newWithNodeId node).run calls).route u d = some s →
      ((newWithNodeId node).run calls).route u' d' = some s → u = u' ∧ d = d') := by
  have h := hc.run consistent_new fun _ c h hc => h.after hc
  exact ⟨h.route, h.entry, fun u d u' d' s hr hr' => h.once hr hr'⟩

/-- Calls of all kinds: two devices, a session that takes over from another, a device that is
kicked, a session that times out, one that is closed by force before it authenticates, and a
delivery that fails. -/
def sampleCalls : List Call :=
  [.registerConnecting 0 1, .authenticate 5 1 7 "phone", .registerConnection 6 7 "tablet" 2 none,
    .registerConnection 9 7 "phone" 3 (some (.error "registry down")), .unregisterConnection 1,
    .registerConnecting 10 4, .forceCloseSession 4, .disconnectDevice 7 "tablet",
    .registerConnecting 11 5, .cleanupStaleConnecting 90000 30 fun _ => true,
    .authenticate 95000 3 7 "phone",
    .applyDeliveryAttempts [(3, "local")] [(3, .failure .deadConnection "gone")] {}]

theorem indexes_agree_sample : Each KeepsRoutes (newWithNodeId "local") sampleCalls ∧
    (∀ u d s, ((newWithNodeId "local").run sampleCalls).route u d = some s →
      ∃ e, ((newWithNodeId "local").run sampleCalls).indexB.get s = some e ∧
        e.state = .authenticated ∧ e.userId = some u ∧ e.deviceId = some d) := by
  have hc : Each KeepsRoutes (newWithNodeId "local") sampleCalls := by decide
  exact ⟨hc, (indexes_agree "local" sampleCalls hc).1⟩

/-- A session authenticates as one user and then as another. -/
def switchCalls : List Call :=
  [.registerConnecting 0 1, .authenticate 5 1 7 "phone", .authenticate 9 1 8 "phone"]

/-- **The indexes part.** The route of the first user still leads to the session, whose entry now
belongs to the second; and after a forced close the route leads to an entry that is closing. -/
theorem indexes_part :
    (((newWithNodeId "local").run switchCalls).route 7 "phone" = some 1 ∧
      (((newWithNodeId "local").run switchCalls).indexB.get 1).bind (·.userId) = some 8) ∧
    (((newWithNodeId "local").run [.authenticate 5 1 7 "phone", .forceCloseSession 1]).route 7
        "phone" = some 1 ∧
      (((newWithNodeId "local").run [.authenticate 5 1 7 "phone",
        .forceCloseSession 1]).indexB.get 1).map (·.state) = some .closing) := by
  decide

end Manager

/-- As whom each session authenticated last, after one more call. -/
def authAfter (a : SessionId → Option UserId) (c : Call) : SessionId → Option UserId :=
  match c.authenticates with
  | some (s, u) => Function.update a s (some u)
  | none => a

/-- As whom a session authenticated last in a run. -/
def lastAuth (calls : List Call) (s : SessionId) : Option UserId :=
  calls.foldl authAfter (fun _ => none) s

namespace Manager

variable {m m' : Manager} {u : UserId} {d : DeviceId} {s : SessionId}

/-- Every route was there before. -/
def Fewer (m m' : Manager) : Prop := ∀ u d s, m'.route u d = some s → m.route u d = some s

lemma fewer_of_indexA (h : m'.indexA = m.indexA) : Fewer m m' :=
  fun _ _ _ hr => by rwa [route_of_indexA h] at hr

/-- **Only authentication adds routes.** -/
theorem fewer_after {c : Call} (hc : c.authenticates = none) : Fewer m (m.after c) := by
  by_cases hforce : ∀ s, c ≠ .forceCloseSession s
  · exact fun u d s hr => (quiets_after (b := false) hc hforce nofun).fewer hr
  · obtain ⟨s, rfl⟩ := not_forall_not.mp hforce
    exact fewer_of_indexA rfl

/-- A session authenticates only if no route of another user leads to it. -/
def KeepsUsers (m : Manager) (c : Call) : Prop :=
  ∀ x ∈ c.authenticates, ∀ r ∈ m.routes, r.2.2 = x.1 → r.1 = x.2

instance KeepsUsers.decidable (m : Manager) (c : Call) : Decidable (m.KeepsUsers c) :=
  inferInstanceAs (Decidable (∀ x ∈ c.authenticates, ∀ r ∈ m.routes, r.2.2 = x.1 → r.1 = x.2))

/-- Every route leads to a session that authenticated last as the user of the route. -/
def Owned (a : SessionId → Option UserId) (m : Manager) : Prop :=
  ∀ u d s, m.route u d = some s → a s = some u

variable {a : SessionId → Option UserId}

lemma Owned.authenticate (h : Owned a m) {now : Millis}
    (hs : ∀ u' d', m.route u' d' = some s → u' = u) :
    Owned (Function.update a s (some u)) (m.authenticate now s u d).2 := by
  intro u' d' t hr
  rw [route_authenticate] at hr
  by_cases hud : u' = u ∧ d' = d
  · rw [if_pos hud, Option.some.injEq] at hr
    subst hr
    rw [Function.update_self, hud.1]
  · rw [if_neg hud] at hr
    by_cases hts : t = s
    · subst hts
      rw [Function.update_self, hs u' d' hr]
    · rw [Function.update_of_ne hts]
      exact h u' d' t hr

lemma Owned.after (h : Owned a m) (c : Call) (hc : m.KeepsUsers c) :
    Owned (authAfter a c) (m.after c) := by
  cases hauth : c.authenticates with
  | none =>
    have hsame : authAfter a c = a := by simp only [authAfter, hauth]
    rw [hsame]
    exact fun u d s hr => h u d s (fewer_after hauth u d s hr)
  | some x =>
    obtain ⟨s, u⟩ := x
    have hs : ∀ u' d', m.route u' d' = some s → u' = u :=
      fun u' d' hr => hc (s, u) hauth (u', d', s) (m.mem_routes.mpr hr) rfl
    cases c with
    | authenticate now s' u' d =>
      cases hauth
      exact h.authenticate hs
    | registerConnection now u' d s' registry =>
      cases hauth
      have hsame : (m.registerConnecting now s).indexA = m.indexA := indexA_registerConnecting
      have h' : Owned a (m.registerConnecting now s) :=
        fun u d t hr => h u d t (fewer_of_indexA hsame u d t hr)
      exact h'.authenticate fun u' d' hr => hs u' d' (fewer_of_indexA hsame u' d' s hr)
    | _ => cases hauth

lemma Owned.run (h : Owned a m) {calls : List Call} (hc : Each KeepsUsers m calls) :
    Owned (calls.foldl authAfter a) (m.run calls) := by
  induction calls generalizing a m with
  | nil => exact h
  | cons c calls ih => exact ih (h.after c hc.1) hc.2

/-! ### Pushes -/

lemma handed_sendPushToUser {w : Option Wire} (h : s ∈ (m.sendPushToUser u w).handed) :
    ∃ d, m.route u d = some s := by
  -- the frame goes to live sessions, and those are read off index A
  have hlive : s ∈ (m.liveSessions u).map (·.1) := by
    unfold sendPushToUser at h
    dsimp only at h
    split at h
    · simp at h
    · split at h
      · simp at h
      · split at h
        · simp at h
        · simp only [List.mem_map, List.mem_filter] at h ⊢
          obtain ⟨x, ⟨hx, -⟩, rfl⟩ := h
          exact ⟨x, hx, rfl⟩
  simp only [liveSessions, List.mem_map, List.mem_filterMap, Option.map_eq_some_iff] at hlive
  obtain ⟨-, ⟨⟨d, t⟩, hmem, b, -, rfl⟩, rfl⟩ := hlive
  exact ⟨d, by rw [← route_getD]; exact (Table.mem_select.mp hmem).1⟩

lemma handed_sendPushToDevice {w : Option Wire} (h : s ∈ (m.sendPushToDevice u d w).handed) :
    m.route u d = some s := by
  unfold sendPushToDevice at h
  cases hr : m.route u d with
  | none => simp [hr] at h
  | some t =>
    simp only [hr] at h
    split at h
    · simp at h
    · unfold sendPushOnSession at h
      split at h
      · simp at h
      · split at h
        · simp at h
        · split at h
          all_goals
            rw [List.mem_singleton] at h
            rw [h]

/-- **Pushes reach their own user.** In every run in which a session authenticates only while no
route of another user leads to it, a push to a user or to a device hands the frame to sessions
that authenticated last as that user. -/
theorem push_isolation (node : String) (calls : List Call)
    (hc : Each KeepsUsers (newWithNodeId node) calls) (u : UserId) (transport : Option Wire) :
    (∀ s ∈ (((newWithNodeId node).run calls).sendPushToUser u transport).handed,
      lastAuth calls s = some u) ∧
    ∀ d, ∀ s ∈ (((newWithNodeId node).run calls).sendPushToDevice u d transport).handed,
      lastAuth calls s = some u := by
  have hnew : Owned (fun _ => none) (newWithNodeId node) := by
    intro u d s hr
    simp [route, newWithNodeId] at hr
  have h := hnew.run hc
  refine ⟨fun s hs => ?_, fun d s hs => ?_⟩
  · obtain ⟨d, hr⟩ := handed_sendPushToUser hs
    exact h u d s hr
  · exact h u d s (handed_sendPushToDevice hs)

/-- A transport that takes every frame. -/
def sampleWire : Wire := ⟨.ok (), fun _ => .success true⟩

/-- A session authenticates again, on another device of the same user; another session closes
and its number is used again, by another user. -/
def reuseCalls : List Call :=
  [.registerConnection 1 7 "phone" 1 none, .authenticate 2 1 7 "tablet",
    .registerConnection 3 7 "watch" 2 none, .unregisterConnection 2,
    .registerConnection 4 8 "phone" 2 none]

theorem push_isolation_sample : Each KeepsUsers (newWithNodeId "local") reuseCalls ∧
    (((newWithNodeId "local").run reuseCalls).sendPushToUser 7 (some sampleWire)).handed = [1, 1] ∧
    (∀ s ∈ (((newWithNodeId "local").run reuseCalls).sendPushToUser 7 (some sampleWire)).handed,
      lastAuth reuseCalls s = some 7) := by
  have hc : Each KeepsUsers (newWithNodeId "local") reuseCalls := by decide
  exact ⟨hc, by decide, (push_isolation "local" reuseCalls hc 7 (some sampleWire)).1⟩

/-- **A push that reaches another user.** After a session has authenticated as user 7 and then as
user 8, a push to user 7, or to the device of user 7, hands it the frame. -/
theorem push_to_another_user :
    (((newWithNodeId "local").run switchCalls).sendPushToUser 7 (some sampleWire)).handed = [1] ∧
    (((newWithNodeId "local").run switchCalls).sendPushToDevice 7 "phone"
      (some sampleWire)).handed = [1] ∧ lastAuth switchCalls 1 = some 8 := by
  decide

end Manager

end PrivChat.Connection
