import PrivChat.Connection.Access

/-!
Sessions that come back after they were closed.

The calls of the manager take one step on each index, and between two steps of one call others may
run. A session that was unregistered, or closed by force, and is not registered again stays out of
index A and is not authenticated, as long as nothing else is under way for a session when it
authenticates, is unregistered or is closed by force.
-/

namespace PrivChat.Connection

open Db

/-- What is left of a call for a session. -/
inductive Rest
  /-- `authenticate` has bound the entry. -/
  | switch (u : UserId) (d : DeviceId)
  /-- `unregister_connection` has taken the entry out, which was in that state. -/
  | clear (u : UserId) (d : DeviceId) (state : SessionState)
  deriving DecidableEq

/-- What is left of `disconnect_device`: it has found the session, or has marked it too. -/
inductive Kick
  | mark (u : UserId) (d : DeviceId) (s : SessionId)
  | release (u : UserId) (d : DeviceId) (s : SessionId)
  deriving DecidableEq

/-- The manager, the calls under way, and the sessions for which `unregister_connection` or
`force_close_session` has completed and that were not registered again. -/
structure Desk where
  manager : Manager
  own : SessionId → List Rest
  kicks : List Kick
  closed : List SessionId

/-- A call begins, with its first step, or one under way takes its next. -/
inductive Move
  | registerConnecting (now : Millis) (s : SessionId)
  | authenticate (now : Millis) (s : SessionId) (u : UserId) (d : DeviceId)
  | unregisterConnection (s : SessionId)
  | disconnectDevice (u : UserId) (d : DeviceId)
  | forceCloseSession (s : SessionId)
  | goOn (s : SessionId) (r : Rest)
  | kickOn (k : Kick)

namespace Desk

def start (node : String) : Desk := ⟨.newWithNodeId node, fun _ => [], [], []⟩

def goOn (x : Desk) (s : SessionId) : Rest → Desk
  | .switch u d => { x with manager := (x.manager.switchStep s u d).2 }
  | .clear u d state =>
    { x with manager := x.manager.clearRoute u d s state, closed := s :: x.closed }

def kickOn (x : Desk) : Kick → Desk
  | .mark u d s =>
    { x with manager := x.manager.markClosing s, kicks := .release u d s :: x.kicks }
  | .release u d s => { x with manager := x.manager.releaseRoute u d s }

def step (x : Desk) : Move → Desk
  | .registerConnecting now s =>
    { x with
      manager := x.manager.registerConnecting now s
      closed := x.closed.filter fun t => decide (t ≠ s) }
  | .authenticate now s u d =>
    { x with
      manager := x.manager.bindStep now s u d
      own := Function.update x.own s (.switch u d :: x.own s) }
  | .unregisterConnection s =>
    let x' := { x with manager := x.manager.removeEntry s }
    match (x.manager.indexB.get s).bind fun e =>
        e.userId.bind fun u => e.deviceId.map fun d => (u, d, e.state) with
    | some (u, d, state) =>
      { x' with own := Function.update x.own s (.clear u d state :: x.own s) }
    | none => { x' with closed := s :: x.closed }
  | .disconnectDevice u d =>
    match x.manager.route u d with
    | some s => { x with kicks := .mark u d s :: x.kicks }
    | none => x
  | .forceCloseSession s =>
    { x with manager := x.manager.forceCloseSession s, closed := s :: x.closed }
  | .goOn s r =>
    if r ∈ x.own s then
      goOn { x with own := Function.update x.own s ((x.own s).erase r) } s r
    else x
  | .kickOn k => if k ∈ x.kicks then kickOn { x with kicks := x.kicks.erase k } k else x

/-- A session authenticates if it is not closed and no route of another user or device leads to it,
and is closed by force if no route leads to it. Nothing is under way for it then, nor when it is
unregistered. -/
def Orderly (x : Desk) : Move → Prop
  | .authenticate _ s u d =>
    s ∉ x.closed ∧ x.own s = [] ∧ ∀ r ∈ x.manager.routes, r.2.2 = s → r.1 = u ∧ r.2.1 = d
  | .unregisterConnection s => x.own s = []
  | .forceCloseSession s => x.own s = [] ∧ ∀ r ∈ x.manager.routes, r.2.2 ≠ s
  | .registerConnecting _ _ | .disconnectDevice _ _ | .goOn _ _ | .kickOn _ => True

/-- Every move finds the desk in order. -/
def AllOrderly : Desk → List Move → Prop
  | _, [] => True
  | x, a :: moves => x.Orderly a ∧ (x.step a).AllOrderly moves

def run (x : Desk) (moves : List Move) : Desk := moves.foldl step x

end Desk

namespace Manager

variable {m m' : Manager} {s t : SessionId} {u u' : UserId} {d d' : DeviceId}

/-- The entry of the session names the user and the device. -/
def Named (m : Manager) (s : SessionId) (u : UserId) (d : DeviceId) : Prop :=
  ∃ e, m.indexB.get s = some e ∧ e.userId = some u ∧ e.deviceId = some d

/-- The session is not authenticated. -/
def Idle (m : Manager) (s : SessionId) : Prop :=
  ∀ e, m.indexB.get s = some e → e.state ≠ .authenticated

/-- The step adds no route to the session, does not authenticate it, and its entry names whom it
named. -/
structure Milder (m m' : Manager) (s : SessionId) : Prop where
  route : ∀ u d, m'.route u d = some s → m.route u d = some s
  named : ∀ u d, m.Named s u d → m'.Named s u d
  idle : m.Idle s → m'.Idle s

lemma Milder.of_get (hroute : ∀ u d, m'.route u d = some s → m.route u d = some s)
    (h : m'.indexB.get s = m.indexB.get s) : Milder m m' s where
  route := hroute
  named u d hn := by rwa [Named, h]
  idle hi := by rwa [Idle, h]

lemma Milder.of_modify (hroute : ∀ u d, m'.route u d = some s → m.route u d = some s)
    {f : SessionEntry → SessionEntry} (h : m'.indexB = m.indexB.modify t f)
    (hf : ∀ e, (f e).userId = e.userId ∧ (f e).deviceId = e.deviceId ∧
      (f e).state ≠ .authenticated) : Milder m m' s := by
  by_cases hst : s = t
  · subst hst
    have hget : m'.indexB.get s = (m.indexB.get s).map f := by rw [h, Table.get_modify_self]
    refine ⟨hroute, fun u d ⟨e, he, hu, hd⟩ => ?_, fun _ e he => ?_⟩
    · exact ⟨f e, by rw [hget, he, Option.map_some], (hf e).1.trans hu, (hf e).2.1.trans hd⟩
    · rw [hget, Option.map_eq_some_iff] at he
      obtain ⟨e, -, rfl⟩ := he
      exact (hf e).2.2
  · exact .of_get hroute (by rw [h, Table.get_modify_of_ne _ hst])

lemma milder_markClosing : Milder m (m.markClosing s) t := by
  refine .of_modify (fun _ _ hr => hr) rfl fun e => ?_
  unfold SessionEntry.closing
  split
  · simp
  · exact ⟨rfl, rfl, ‹_›⟩

lemma indexB_switchStep : (m.switchStep s u d).2.indexB = m.indexB ∨
    ∃ o, o ≠ s ∧ (m.switchStep s u d).2.indexB = m.indexB.modify o (·.supersede s) := by
  cases ho : (((m.indexA.get u).getD .empty).get d).filter fun o => decide (o ≠ s) with
  | none => exact .inl (by simp only [switchStep, ho])
  | some o =>
    refine .inr ⟨o, ?_, by simp only [switchStep, ho]⟩
    simpa using (Option.filter_eq_some_iff.mp ho).2

lemma milder_switchStep (ht : t ≠ s) : Milder m (m.switchStep s u d).2 t := by
  have hroute : ∀ u' d', (m.switchStep s u d).2.route u' d' = some t → m.route u' d' = some t := by
    intro u' d' hr
    rw [route_switchStep] at hr
    split at hr
    · exact absurd (Option.some.inj hr).symm ht
    · exact hr
  obtain h | ⟨o, -, h⟩ := m.indexB_switchStep
  · exact .of_get hroute (by rw [h])
  · refine .of_modify hroute h fun e => ?_
    unfold SessionEntry.supersede
    split
    · simp
    · exact ⟨rfl, rfl, ‹_›⟩

lemma get_switchStep : (m.switchStep s u d).2.indexB.get s = m.indexB.get s := by
  obtain h | ⟨o, ho, h⟩ := m.indexB_switchStep
  · rw [h]
  · rw [h, Table.get_modify_of_ne _ ho.symm]

lemma milder_clearRoute {state : SessionState} : Milder m (m.clearRoute u d s state) t := by
  refine .of_get (fun u' d' hr => ?_) ?_
  · rw [route_clearRoute] at hr
    split at hr
    · cases hr
    · exact hr
  · unfold clearRoute
    split <;> rfl

lemma milder_registerConnecting {now : Millis} : Milder m (m.registerConnecting now s) t := by
  have hroute : ∀ u d, (m.registerConnecting now s).route u d = some t → m.route u d = some t :=
    fun u d hr => by rwa [route_of_indexA indexA_registerConnecting] at hr
  unfold registerConnecting at hroute ⊢
  cases hs : m.indexB.get s with
  | some e => exact .of_get (fun _ _ hr => hr) rfl
  | none =>
    simp only [hs] at hroute
    by_cases hts : t = s
    · subst hts
      refine ⟨hroute, fun u d ⟨e, he, _⟩ => ?_, fun _ e he => ?_⟩
      · rw [hs] at he
        cases he
      · rw [Table.get_put_self, Option.some.injEq] at he
        rw [← he]
        exact nofun
    · exact .of_get hroute (Table.get_put_of_ne _ hts)

end Manager

namespace Desk

open Manager

variable {x x' : Desk} {m m' : Manager} {s t : SessionId} {u : UserId} {d : DeviceId}
  {closed closed' : List SessionId} {l : List Rest}

/-- What holds of a session, by what is under way for it. -/
inductive Phase (m : Manager) (closed : List SessionId) (s : SessionId) : List Rest → Prop
  | quiet (route : ∀ u d, m.route u d = some s → m.Named s u d) : Phase m closed s []
  | switching (u : UserId) (d : DeviceId) (isOpen : s ∉ closed) (named : m.Named s u d)
      (route : ∀ u d, m.route u d = some s → m.Named s u d) : Phase m closed s [.switch u d]
  | clearing (u : UserId) (d : DeviceId) (state : SessionState) (idle : m.Idle s)
      (route : ∀ u' d', m.route u' d' = some s → u' = u ∧ d' = d) :
      Phase m closed s [.clear u d state]

structure Kept (m : Manager) (closed : List SessionId) (s : SessionId) (l : List Rest) : Prop where
  phase : Phase m closed s l
  out : s ∈ closed → m.Idle s ∧ ∀ u d, m.route u d ≠ some s

lemma Kept.milder (h : Kept m closed s l) (hm : Milder m m' s) (hc : s ∈ closed' → s ∈ closed) :
    Kept m' closed' s l where
  phase := by
    cases h.phase with
    | quiet hr => exact .quiet fun u d hr' => hm.named u d (hr u d (hm.route u d hr'))
    | switching u d ho hn hr =>
      exact .switching u d (fun h' => ho (hc h')) (hm.named u d hn)
        fun u d hr' => hm.named u d (hr u d (hm.route u d hr'))
    | clearing u d state hi hr =>
      exact .clearing u d state (hm.idle hi) fun u' d' hr' => hr u' d' (hm.route u' d' hr')
  out hs := ⟨hm.idle (h.out (hc hs)).1, fun u d hr => (h.out (hc hs)).2 u d (hm.route u d hr)⟩

lemma kept_of_out (hi : m.Idle s) (hr : ∀ u d, m.route u d ≠ some s) : Kept m closed s [] :=
  ⟨.quiet fun u d h => absurd h (hr u d), fun _ => ⟨hi, hr⟩⟩

/-- All sessions are. -/
def Sound (x : Desk) : Prop := ∀ s, Kept x.manager x.closed s (x.own s)

lemma Sound.change (h : x.Sound) (hown : ∀ t, t ≠ s → x'.own t = x.own t)
    (hm : ∀ t, t ≠ s → Milder x.manager x'.manager t)
    (hc : ∀ t, t ≠ s → t ∈ x'.closed → t ∈ x.closed)
    (hs : Kept x'.manager x'.closed s (x'.own s)) : x'.Sound := by
  intro t
  by_cases hts : t = s
  · exact hts ▸ hs
  · rw [hown t hts]
    exact (h t).milder (hm t hts) (hc t hts)

lemma Sound.goOn (h : x.Sound) {r : Rest} (hr : r ∈ x.own s) :
    (goOn { x with own := Function.update x.own s ((x.own s).erase r) } s r).Sound := by
  -- what is under way for a session is one call
  obtain ⟨hone, hs⟩ : x.own s = [r] ∧ Kept x.manager x.closed s [r] := by
    have hk := h s
    have hp := hk.phase
    generalize x.own s = l at hp hk hr ⊢
    cases hp <;> simp_all
  have herase : (x.own s).erase r = [] := by simp [hone]
  rw [herase]
  cases r with
  | switch u d =>
    refine h.change (fun t hts => Function.update_of_ne hts _ _)
      (fun t hts => milder_switchStep hts) (fun _ _ => id) ?_
    cases hs.phase with
    | switching _ _ ho hn hroute =>
      simp only [Desk.goOn, Function.update_self]
      refine ⟨.quiet fun u' d' hr' => ?_, fun hc => absurd hc ho⟩
      rw [Named, get_switchStep]
      rw [route_switchStep] at hr'
      split at hr'
      · rename_i hud
        rwa [hud.1, hud.2]
      · exact hroute u' d' hr'
  | clear u d state =>
    refine h.change (fun t hts => Function.update_of_ne hts _ _)
      (fun _ _ => milder_clearRoute) (fun _ hts hc => (List.mem_cons.mp hc).resolve_left hts) ?_
    cases hs.phase with
    | clearing _ _ _ hi hroute =>
      simp only [Desk.goOn, Function.update_self]
      refine kept_of_out (milder_clearRoute.idle hi) fun u' d' hr' => ?_
      obtain ⟨rfl, rfl⟩ := hroute u' d' (milder_clearRoute.route u' d' hr')
      rw [route_clearRoute] at hr'
      split at hr'
      · cases hr'
      · simp_all

lemma Sound.unregisterConnection (h : x.Sound) (hown : x.own s = []) :
    (x.step (.unregisterConnection s)).Sound := by
  have hgone : (x.manager.removeEntry s).Idle s := fun e he => by simp [removeEntry] at he
  have hmilder : ∀ t, t ≠ s → Milder x.manager (x.manager.removeEntry s) t :=
    fun t hts => .of_get (fun _ _ hr => hr) (Table.get_erase_of_ne _ hts)
  have hs := h s
  rw [hown] at hs
  cases hs.phase with
  | quiet hroute =>
    -- the entry names whom the routes lead from, and nobody else
    have hnamed : ∀ u d, x.manager.route u d = some s → ∃ state,
        ((x.manager.indexB.get s).bind fun e =>
          e.userId.bind fun u => e.deviceId.map fun d => (u, d, e.state)) = some (u, d, state) := by
      intro u d hr
      obtain ⟨e, he, hu, hd⟩ := hroute u d hr
      exact ⟨e.state, by simp [he, hu, hd]⟩
    unfold step
    dsimp only
    split
    · rename_i u d state he
      refine h.change (fun t hts => Function.update_of_ne hts _ _) hmilder (fun _ _ => id) ?_
      simp only [Function.update_self, hown]
      refine ⟨.clearing u d state hgone fun u' d' hr => ?_, fun hc => ⟨hgone, (hs.out hc).2⟩⟩
      obtain ⟨state', he'⟩ := hnamed u' d' hr
      simp_all
    · rename_i he
      refine h.change (fun _ _ => rfl) hmilder
        (fun _ hts hc => (List.mem_cons.mp hc).resolve_left hts) ?_
      simp only [hown]
      refine kept_of_out hgone fun u d hr => ?_
      obtain ⟨state, he'⟩ := hnamed u d hr
      rw [he] at he'
      cases he'

lemma Sound.step (h : x.Sound) (a : Move) (ha : x.Orderly a) : (x.step a).Sound := by
  cases a with
  | registerConnecting now s =>
    exact fun t => (h t).milder milder_registerConnecting fun hc => (List.mem_filter.mp hc).1
  | authenticate now s u d =>
    obtain ⟨hopen, hown, hroutes⟩ := ha
    refine h.change (fun t hts => Function.update_of_ne hts _ _)
      (fun t hts => .of_get (fun _ _ hr => hr) (Table.get_put_of_ne _ hts)) (fun _ _ => id) ?_
    have hnamed : (x.manager.bindStep now s u d).Named s u d :=
      ⟨x.manager.bindEntry now s u d, Table.get_put_self .., rfl, rfl⟩
    simp only [Desk.step, Function.update_self, hown]
    refine ⟨.switching u d hopen hnamed fun u' d' hr => ?_, fun hc => absurd hc hopen⟩
    obtain ⟨rfl, rfl⟩ := hroutes (u', d', s) (x.manager.mem_routes.mpr hr) rfl
    exact hnamed
  | unregisterConnection s => exact h.unregisterConnection ha
  | disconnectDevice u d =>
    unfold Desk.step
    dsimp only
    split <;> exact h
  | forceCloseSession s =>
    obtain ⟨hown, hroutes⟩ := ha
    refine h.change (fun _ _ => rfl) (fun _ _ => milder_markClosing)
      (fun _ hts hc => (List.mem_cons.mp hc).resolve_left hts) ?_
    simp only [Desk.step, hown]
    exact kept_of_out (fun e he => state_closing he) fun u d hr =>
      hroutes (u, d, s) (x.manager.mem_routes.mpr hr) rfl
  | goOn s r =>
    unfold Desk.step
    dsimp only
    split
    · exact h.goOn ‹_›
    · exact h
  | kickOn k =>
    unfold Desk.step
    dsimp only
    split
    · cases k with
      | mark u d s => exact fun t => (h t).milder milder_markClosing id
      | release u d s =>
        refine fun t => (h t).milder ?_ id
        simp only [Desk.kickOn, releaseRoute_eq]
        exact milder_clearRoute
    · exact h

lemma Sound.run (h : x.Sound) {moves : List Move} (hm : x.AllOrderly moves) :
    (x.run moves).Sound := by
  induction moves generalizing x with
  | nil => exact h
  | cons a moves ih => exact ih (h.step a hm.1) hm.2

/-- **No session comes back.** In every run of steps of which each finds the desk in order, a
session that was unregistered or closed by force, and was not registered again, is not
authenticated and no route leads to it. -/
theorem closed_stays_out (node : String) (moves : List Move)
    (hm : (start node).AllOrderly moves) (s : SessionId)
    (hs : s ∈ ((start node).run moves).closed) :
    (∀ e, ((start node).run moves).manager.indexB.get s = some e → e.state ≠ .authenticated) ∧
      ∀ u d, ((start node).run moves).manager.route u d ≠ some s := by
  have hstart : (start node).Sound := fun s =>
    kept_of_out (fun e he => by simp [start, newWithNodeId] at he)
      fun u d hr => by simp [start, newWithNodeId, Manager.route] at hr
  exact (hstart.run hm s).out hs

/-- A session takes over from another one, which then is unregistered. -/
def sampleMoves : List Move :=
  [.registerConnecting 0 1, .authenticate 1 1 7 "phone", .goOn 1 (.switch 7 "phone"),
    .registerConnecting 2 2, .authenticate 3 2 7 "phone", .unregisterConnection 1,
    .goOn 2 (.switch 7 "phone"), .goOn 1 (.clear 7 "phone" .authenticated)]

theorem closed_stays_out_sample :
    1 ∈ ((start "local").run sampleMoves).closed ∧
      ∀ u d, ((start "local").run sampleMoves).manager.route u d ≠ some 1 := by
  refine ⟨by decide, (closed_stays_out "local" sampleMoves ?_ 1 (by decide)).2⟩
  simp only [sampleMoves, AllOrderly, Orderly]
  decide

/-- A session is unregistered between the two steps in which it authenticates. -/
def crossedMoves : List Move :=
  [.registerConnecting 0 1, .authenticate 1 1 7 "phone", .unregisterConnection 1,
    .goOn 1 (.clear 7 "phone" .authenticated), .goOn 1 (.switch 7 "phone")]

/-- **A session comes back**, and index A leads to it for good. -/
theorem closed_comes_back :
    1 ∈ ((start "local").run crossedMoves).closed ∧
    ((start "local").run crossedMoves).manager.route 7 "phone" = some 1 := by
  decide

end Desk

end PrivChat.Connection
