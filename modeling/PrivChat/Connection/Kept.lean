import PrivChat.Connection.Access
import PrivChat.Auth.Trail

/-!
Who still deals with the sessions of a kicked device.

What a handler of a connect or a kick has called and was answered decides what it still has to do: a
connect past the check of its device has a route to register, a kick past its update has routes to
take away. A session that came in before its device was kicked has to be found by the kick: by the
route of the device, under the text that the kick knows it by. The invariant says that as long as
such a session is bound or has its route, some task has it before it.
-/

namespace PrivChat.Connection

open Db Tasks

/-! ### Where a task stands -/

/-- The devices of a user whose routes are still to be taken away. -/
inductive Scope
  | listed (ds : List DeviceId)
  | others (current : DeviceId)

def Scope.has : Scope → DeviceId → Prop
  | .listed ds, d => d ∈ ds
  | .others current, d => d ≠ current

/-- What a kick has in its hands: the session it has found, or taken out of the routes. -/
inductive Held
  | nothing
  | found (d : DeviceId) (s : SessionId)
  | released (s : SessionId)

def Held.session : Held → Option SessionId
  | .nothing => none
  | .found _ s | .released s => some s

inductive Place
  /-- Nothing is left to be done. -/
  | plain
  /-- A connect handler past the check of the device, without its route. -/
  | opening (a : Admission)
  /-- A kick that has not changed anything. -/
  | kick (u : UserId) (scope : Scope)
  | picked (u : UserId) (current : DeviceId) (ds : List Auth.DeviceId)
  /-- A kick past its update. -/
  | due (u : UserId) (scope : Scope) (held : Held)
  | leaving (s : SessionId)

namespace Place

def checked (a : Admission) (p : Place) : Auth.Answer (Option Auth.DeviceRow) → Place
  | .ok row => if (Auth.verifySession row a.version).isValid then .opening a else p
  | .error _ => p

def struck (p : Place) : Auth.Answer Bool → Place
  | .ok true =>
    match p with
    | .kick u scope => .due u scope .nothing
    | p => p
  | .ok false | .error _ => p

def chosen (p : Place) : Auth.Answer (List (Auth.DeviceId × ℤ)) → Place
  | .ok devices =>
    match p with
    | .kick u (.others current) =>
      if devices.isEmpty then .due u (.others current) .nothing
      else .picked u current (devices.map (·.1))
    | p => p
  | .error _ => p

def struckOthers (p : Place) : Auth.Answer Unit → Place
  | .ok _ =>
    match p with
    | .picked u current _ => .due u (.others current) .nothing
    | p => p
  | .error _ => p

def listing (p : Place) (ds : List DeviceId) : Place :=
  match p with
  | .due u _ held => .due u (.listed ds) held
  | p => p

def looked (p : Place) (d : DeviceId) (r : Option SessionId) : Place :=
  match p with
  | .due u (.listed ds) _ =>
    .due u (.listed (ds.filter (· ≠ d))) (match r with | some s => .found d s | none => .nothing)
  | p => p

def holding (p : Place) (held : Held) : Place :=
  match p with
  | .due u scope _ => .due u scope held
  | p => p

def next : (op : Op) → op.Res → Place → Place
  | .selectDevice a _, r, p => p.checked a r
  | .switchRoute _, _, _ => .plain
  | .auth (.kick _ _), r, p => p.struck r
  | .auth (.selectActiveOthers _ _), r, p => p.chosen r
  | .auth (.kickOthers _ _), r, p => p.struckOthers r
  | .otherDevices _ _, ds, p => p.listing ds
  | .route _ d, r, p => p.looked d r
  | .releaseRoute _ _ s, _, p => p.holding (.released s)
  | .closeSession _, _, p => p.holding .nothing
  | .unbindSession s, _, _ => .leaving s
  | _, _, p => p

def isDue : Place → Bool
  | .due _ _ _ => true
  | .plain | .opening _ | .kick _ _ | .picked _ _ _ | .leaving _ => false

end Place

variable (cfg : Auth.Config)

def readyAt (j : Job) : Op → Place → Prop
  | .auth (.verify _ _), _ => True
  | .auth (.kick u d), p =>
    ∃ current target, j = .kickDevice u current target ∧ cfg.parseUuid target = some d ∧
      p = .kick u (.listed [target])
  | .auth (.selectActiveOthers u d), p =>
    ∃ current, cfg.parseUuid current = some d ∧ p = .kick u (.others current)
  | .auth (.kickOthers u ds), p => ∃ current, p = .picked u current ds
  | .auth _, _ => False
  | .isRevoked _, _ | .registerConnecting _, _ | .bindEntry _, _ | .markClosing _, _
  | .removeEntry _, _ => True
  | .selectDevice a d, p => cfg.parseUuid a.device = some d ∧ p = .plain
  | .bindSession a, p | .switchRoute a, p => p = .opening a
  | .otherDevices u current, p => p = .due u (.others current) .nothing
  | .route u _, p => ∃ ds, p = .due u (.listed ds) .nothing
  | .releaseRoute u d s, p => ∃ scope, p = .due u scope (.found d s)
  | .closeSession s, p => ∃ u scope, p = .due u scope (.released s)
  | .unbindSession _, p => p = .plain
  | .clearRoute _ _ s _, p => p = .leaving s

/-- A task may end where it has nothing left to do. -/
def atRest : Place → Prop
  | .plain | .kick _ _ | .picked _ _ _ | .leaving _ => True
  | .opening _ => False
  | .due _ scope held => scope = .listed [] ∧ held = .nothing

def startPlace : Job → Place
  | .connect _ _ _ | .onDisconnected _ => .plain
  | .kickDevice u _ target => .kick u (.listed [target])
  | .kickOtherDevices u current => .kick u (.others (current.getD ""))

def course : Course Op Op.Res Job Auth.AuthError Reply Place where
  start := startPlace
  next := Place.next
  ready j op p := readyAt cfg j op p ∧ (p.isDue = true → j.isKick = true)
  rest _ _ := atRest

/-! ### The handlers keep to their course -/

section Programs

variable {cfg} {j : Job}

abbrev Rests (cfg : Auth.Config) (j : Job) (t : HubProg Reply) (p : Place) : Prop :=
  (course cfg).Leads j (fun _ => atRest) t p

lemma rests_openSession (a : Admission) : Rests cfg j (openSession a) (.opening a) :=
  ⟨⟨rfl, nofun⟩, fun _ => ⟨⟨trivial, nofun⟩, fun _ => ⟨⟨trivial, nofun⟩, fun _ =>
    ⟨⟨rfl, nofun⟩, fun _ => trivial⟩⟩⟩⟩

lemma rests_afterDevice {a : Admission} {r : Auth.Answer (Option Auth.DeviceRow)} :
    Rests cfg j (afterDevice a r) (Place.plain.checked a r) := by
  cases r with
  | error e => exact trivial
  | ok row =>
    simp only [afterDevice, Place.checked]
    cases Auth.verifySession row a.version with
    | valid c => exact rests_openSession a
    | deviceNotFound | sessionInactive _ _ | versionMismatch _ _ => exact trivial

lemma rests_connect {s : SessionId} {token : Option Auth.UnifiedTokenClaims}
    {requestDeviceId : DeviceId} : Rests cfg j (connect cfg s token requestDeviceId) .plain := by
  cases token with
  | none => exact trivial
  | some token =>
    refine ⟨⟨trivial, nofun⟩, fun r => ?_⟩
    match r with
    | .error .expired => exact trivial
    | .error .invalid => exact trivial
    | .ok signed =>
      refine ⟨⟨trivial, nofun⟩, fun revoked => ?_⟩
      unfold afterRevocation
      split
      · exact trivial
      · split
        · exact trivial
        · unfold verifyDevice
          split
          · next d hd => exact ⟨⟨⟨hd, rfl⟩, nofun⟩, fun r => rests_afterDevice⟩
          · exact trivial

lemma leads_disconnectDevice (hj : j.isKick = true) (u : UserId) (d : DeviceId) (ds : List DeviceId)
    : (course cfg).Leads j
      (fun r p => r = .ok () ∧ p = .due u (.listed (ds.filter (· ≠ d))) .nothing)
      (disconnectDevice u d) (.due u (.listed ds) .nothing) := by
  refine ⟨⟨⟨ds, rfl⟩, fun _ => hj⟩, fun r => ?_⟩
  match r with
  | none => exact ⟨rfl, rfl⟩
  | some s =>
    exact ⟨⟨trivial, fun _ => hj⟩, fun _ => ⟨⟨⟨_, rfl⟩, fun _ => hj⟩, fun _ =>
      ⟨⟨⟨_, _, rfl⟩, fun _ => hj⟩, fun _ => ⟨rfl, rfl⟩⟩⟩⟩

lemma leads_disconnectAll (hj : j.isKick = true) (u : UserId) (ds : List DeviceId) :
    (course cfg).Leads j (fun r p => r = .ok () ∧ p = .due u (.listed []) .nothing)
      (disconnectAll u ds) (.due u (.listed ds) .nothing) := by
  suffices h : ∀ all : List DeviceId, all ⊆ ds →
      (course cfg).Leads j (fun r p => r = .ok () ∧ p = .due u (.listed []) .nothing)
        (disconnectAll u ds) (.due u (.listed all) .nothing) from h ds (List.Subset.refl ds)
  -- what is left is always among the devices still to come
  induction ds with
  | nil =>
    intro all hall
    rw [List.subset_nil.mp hall]
    exact ⟨rfl, rfl⟩
  | cons d ds ih =>
    intro all hall
    refine (leads_disconnectDevice hj u d all).bind ?_ fun _ _ h => nomatch h.1
    rintro _ _ ⟨-, rfl⟩
    refine ih _ fun x hx => ?_
    obtain ⟨hmem, hne⟩ := List.mem_filter.mp hx
    exact (List.mem_cons.mp (hall hmem)).resolve_left (by simpa using hne)

lemma leads_disconnectOtherDevices (hj : j.isKick = true) (u : UserId) (current : DeviceId) :
    (course cfg).Leads j (fun r p => r = .ok () ∧ p = .due u (.listed []) .nothing)
      (disconnectOtherDevices u current) (.due u (.others current) .nothing) :=
  ⟨⟨rfl, fun _ => hj⟩, fun ds => leads_disconnectAll hj u ds⟩

/-- What the change in the database comes to: the routes are to be taken away, or the kick is over.
-/
def Hands {β : Type} (u : UserId) (scope : Scope) : Except Auth.AuthError β → Place → Prop
  | .ok _, p => p = .due u scope .nothing
  | .error _, p => atRest p

variable {u : UserId}

lemma leads_kickDevice {current target : DeviceId} :
    (course cfg).Leads (.kickDevice u (some current) target) (Hands u (.listed [target]))
      (fromAuth (Auth.kickDevice cfg u target (some current))) (.kick u (.listed [target])) := by
  unfold Auth.kickDevice Auth.deviceUuid Auth.checkKicker
  cases htarget : cfg.parseUuid target with
  | none => exact trivial
  | some d =>
    simp only [Auth.deviceUuid]
    cases hcurrent : cfg.parseUuid current with
    | none => exact trivial
    | some c =>
      refine ⟨⟨⟨some current, target, rfl, htarget, rfl⟩, nofun⟩, fun r => ?_⟩
      match r with
      | .ok true => exact rfl
      | .ok false => exact trivial
      | .error e => exact trivial

lemma leads_kickOtherDevices {current : DeviceId} : (course cfg).Leads j (Hands u (.others current))
      (fromAuth (Auth.kickOtherDevices cfg u current)) (.kick u (.others current)) := by
  unfold Auth.kickOtherDevices Auth.deviceUuid
  cases hcurrent : cfg.parseUuid current with
  | none => exact trivial
  | some d =>
    refine ⟨⟨⟨current, hcurrent, rfl⟩, nofun⟩, fun r => ?_⟩
    match r with
    | .error e => exact trivial
    | .ok [] => exact rfl
    | .ok (x :: devices) =>
      refine ⟨⟨⟨current, rfl⟩, nofun⟩, fun r => ?_⟩
      match r with
      | .ok () => exact rfl
      | .error e => exact trivial

lemma rests_kick {β : Type} {t : HubProg β} {k : HubProg Unit} {scope : Scope}
    {p : Place} {text : String} {reply : β → Reply} (ht : (course cfg).Leads j (Hands u scope) t p)
    (hk : (course cfg).Leads j (fun r p => r = .ok () ∧ p = .due u (.listed []) .nothing) k
      (.due u scope .nothing)) :
    Rests cfg j (t.mapErr (Auth.reported text) >>= fun b => k >>= fun _ => .ret (reply b)) p := by
  refine Course.Leads.bind (Q := Hands u scope) (.mapErr (ht.mono ?_)) ?_ fun _ _ h => h
  · rintro (e | b) p h
    · exact h
    · exact h
  · rintro b p rfl
    refine hk.bind ?_ fun _ _ h => nomatch h.1
    rintro _ _ ⟨-, rfl⟩
    exact ⟨rfl, rfl⟩

lemma rests_progOf (j : Job) : Rests cfg j (progOf cfg j) (startPlace j) := by
  cases j with
  | connect s token requestDeviceId => exact rests_connect
  | onDisconnected s =>
    refine ⟨⟨rfl, nofun⟩, fun _ => ⟨⟨trivial, nofun⟩, fun r => ?_⟩⟩
    unfold clearEntry
    split
    · exact trivial
    · split
      · exact ⟨⟨rfl, nofun⟩, fun _ => trivial⟩
      · exact trivial
      · exact trivial
  | kickDevice u current target =>
    cases current with
    | none => exact trivial
    | some current =>
      simp only [progOf, kickDevice, requireDevice]
      split
      · exact trivial
      · refine rests_kick leads_kickDevice ?_
        simpa using leads_disconnectDevice rfl u target [target]
  | kickOtherDevices u current =>
    cases current with
    | none => exact trivial
    | some current =>
      exact rests_kick leads_kickOtherDevices (leads_disconnectOtherDevices rfl u current)

end Programs

variable (cfg : Auth.Config)

/-- The token is one of these devices of the user. -/
def Admission.among (a : Admission) (u : UserId) (ds : List Auth.DeviceId) : Bool :=
  decide (a.user = u) && (cfg.parseUuid a.device).any (· ∈ ds)

lemma Admission.among_iff {cfg : Auth.Config} {a : Admission} {u : UserId} {ds : List Auth.DeviceId}
    : a.among cfg u ds = true ↔ a.user = u ∧ ∃ d ∈ ds, cfg.parseUuid a.device = some d := by
  simp only [among, Bool.and_eq_true, decide_eq_true_eq, Option.any_eq_true]
  constructor
  · rintro ⟨hu, d, hd, hmem⟩
    exact ⟨hu, d, hmem, hd⟩
  · rintro ⟨hu, d, hmem, hd⟩
    exact ⟨hu, d, hd, hmem⟩

/-- The text a kick knows its device by. The other kick asks the routes. -/
def Job.names : Job → DeviceId → Bool
  | .kickDevice _ _ target, d => decide (d = target)
  | .kickOtherDevices _ _, _ | .connect _ _ _, _ | .onDisconnected _, _ => true

namespace Hub

/-- Every session of these devices that has passed the check has got its route, is led to by it if
it is bound, and has its route under a text the kick knows. -/
def Settled (h : Hub) (j : Job) (u : UserId) (ds : List Auth.DeviceId) : Prop :=
  ∀ a ∈ h.admitted, a.among cfg u ds = true →
    a.session ∈ h.opened ∧
    ((h.bound.get a.session).isSome → h.manager.route a.user a.device = some a.session) ∧
    (h.manager.route a.user a.device = some a.session → j.names a.device = true)

instance Settled.decidable (h : Hub) (j : Job) (u : UserId) (ds : List Auth.DeviceId) :
    Decidable (h.Settled cfg j u ds) :=
  inferInstanceAs (Decidable (∀ _ ∈ _, _))

end Hub

/-- When a kick changes the devices, no connect handler is between its check and its route for one
of them, and the answer is not lost. A session is checked once, it is not bound after the transport
has reported it closed, and a close comes back after that report has unbound the session. -/
def orderly (j : Job) (o : Auth.Moment) (h : Hub) : Op → Bool
  | .auth (.kick u d) => (o.fault.isNone || !o.applied) && decide (h.Settled cfg j u [d])
  | .auth (.kickOthers u ds) => (o.fault.isNone || !o.applied) && decide (h.Settled cfg j u ds)
  | .selectDevice a _ => h.admitted.all fun b => decide (b.session ≠ a.session)
  | .bindSession a => decide (a.session ∉ h.gone)
  | .closeSession s => (h.bound.get s).isNone
  | _ => true

/-! ### The invariant -/

namespace Hub

/-- The device of the token is not active any more. -/
def Kicked (h : Hub) (a : Admission) : Prop :=
  ∃ row, h.row cfg a = some row ∧ row.sessionState ≠ 0

/-- The session is bound, or its route leads to it. -/
def Present (h : Hub) (a : Admission) : Prop :=
  (h.bound.get a.session).isSome ∨ h.manager.route a.user a.device = some a.session

/-- The session has passed the check as this user and device, and has got its route. -/
def Known (h : Hub) (u : UserId) (d : DeviceId) (s : SessionId) : Prop :=
  s ∈ h.opened ∧ ∃ a ∈ h.admitted, a.session = s ∧ a.user = u ∧ a.device = d

structure Sound (h : Hub) : Prop where
  single : ∀ a ∈ h.admitted, ∀ b ∈ h.admitted, a.session = b.session → a = b
  current : ∀ a ∈ h.admitted, ∀ row, h.row cfg a = some row → row.sessionState = 0 →
    row.sessionVersion ≤ a.version
  bound : ∀ s info, h.bound.get s = some info → ⟨s, info.jwtClaims⟩ ∈ h.admitted
  gone : ∀ s ∈ h.gone, h.bound.get s = none
  opened : ∀ s ∈ h.opened, ∃ a ∈ h.admitted, a.session = s
  routed : ∀ u d s, h.manager.route u d = some s → h.Known u d s

/-- What is known where a task stands. -/
def Fits (h : Hub) : Place → Prop
  | .plain | .kick _ _ | .due _ _ .nothing => True
  | .opening a => a ∈ h.admitted ∧ a.session ∉ h.opened ∧
      ∃ row, h.row cfg a = some row ∧ row.sessionState = 0
  | .picked _ current ds => ∀ d ∈ ds, cfg.parseUuid current ≠ some d
  | .due u _ (.found d s) => h.Known u d s
  | .due _ _ (.released s) => s ∈ h.opened ∧ ∀ u d, h.manager.route u d ≠ some s
  | .leaving s => s ∈ h.gone

variable {cfg} in
lemma Known.mono {h h' : Hub} {u : UserId} {d : DeviceId} {s : SessionId} (hk : h.Known u d s)
    (hadm : ∀ a ∈ h.admitted, a ∈ h'.admitted) (hopened : ∀ s ∈ h.opened, s ∈ h'.opened) :
    h'.Known u d s := by
  obtain ⟨hs, a, ha, hkey⟩ := hk
  exact ⟨hopened s hs, a, hadm a ha, hkey⟩

/-- A task at this place still deals with the session. -/
def Covers (h : Hub) (a : Admission) : Place → Prop
  | .due u scope held =>
    (u = a.user ∧ scope.has a.device ∧ h.manager.route a.user a.device = some a.session) ∨
      held.session = some a.session
  | _ => False

variable {a : Admission} {p : Place}

lemma isDue_of_covers {h : Hub} (hcov : h.Covers a p) : p.isDue = true := by
  cases p with
  | due u scope held => rfl
  | plain | opening _ | kick _ _ | picked _ _ _ | leaving _ => exact hcov.elim

lemma not_covers_of_atRest {h : Hub} (hp : atRest p) : ¬ h.Covers a p := by
  intro hcov
  cases p with
  | due u scope held =>
    obtain ⟨rfl, rfl⟩ := hp
    rcases hcov with ⟨-, hmem, -⟩ | hheld
    · exact absurd hmem List.not_mem_nil
    · cases hheld
  | plain | opening _ | kick _ _ | picked _ _ _ | leaving _ => exact hcov

variable {cfg} in
lemma not_kicked {h : Hub} (hactive : ∃ row, h.row cfg a = some row ∧ row.sessionState = 0) :
    ¬ h.Kicked cfg a := by
  rintro ⟨row, hrow, hne⟩
  obtain ⟨row', hrow', hstate⟩ := hactive
  cases hrow.symm.trans hrow'
  exact hne hstate

lemma Covers.congr {h h' : Hub} (hcov : h.Covers a p)
    (hr : h'.manager.route a.user a.device = h.manager.route a.user a.device) : h'.Covers a p := by
  cases p with
  | due u scope held =>
    unfold Covers at hcov ⊢
    rwa [hr]
  | plain | opening _ | kick _ _ | picked _ _ _ | leaving _ => exact hcov

end Hub

structure Kept (h : Hub) (place : ℕ → Option Place) : Prop where
  sound : h.Sound cfg
  fits : ∀ i p, place i = some p → h.Fits cfg p
  alone : ∀ i i' a a', place i = some (.opening a) → place i' = some (.opening a') →
    a.session = a'.session → i = i'
  covered : ∀ a ∈ h.admitted, h.Kicked cfg a → h.Present a →
    ∃ i p, place i = some p ∧ h.Covers a p

namespace Kept

variable {cfg} {h h' : Hub} {place : ℕ → Option Place} {i : ℕ} {p p' : Place}

variable (hK : Kept cfg h place)

include hK

lemma replace {x : Option Place} (hfits : ∀ p', x = some p' → h.Fits cfg p')
    (halone : ∀ a, x = some (.opening a) → ∀ i' a', place i' = some (.opening a') →
      a.session = a'.session → i' = i) (hcovers : ∀ a ∈ h.admitted, h.Kicked cfg a → h.Present a →
      ∀ p, place i = some p → h.Covers a p → ∃ p', x = some p' ∧ h.Covers a p') :
    Kept cfg h (Function.update place i x) where
  sound := hK.sound
  fits i' q hq := by
    rcases update_eq_some.mp hq with ⟨-, hq⟩ | ⟨-, hq⟩
    · exact hfits q hq
    · exact hK.fits i' q hq
  alone i1 i2 a1 a2 h1 h2 hs := by
    rcases update_eq_some.mp h1 with ⟨hi1, h1'⟩ | ⟨-, h1'⟩ <;>
      rcases update_eq_some.mp h2 with ⟨hi2, h2'⟩ | ⟨-, h2'⟩
    · exact hi1.trans hi2.symm
    · exact hi1.trans (halone a1 h1' i2 a2 h2' hs).symm
    · exact (halone a2 h2' i1 a1 h1' hs.symm).trans hi2.symm
    · exact hK.alone i1 i2 a1 a2 h1' h2' hs
  covered a ha hkicked hpresent := by
    obtain ⟨i', q, hq, hcov⟩ := hK.covered a ha hkicked hpresent
    by_cases hii : i' = i
    · subst hii
      obtain ⟨p', hp', hcov'⟩ := hcovers a ha hkicked hpresent q hq hcov
      exact ⟨i', p', update_eq_some.mpr (.inl ⟨rfl, hp'⟩), hcov'⟩
    · exact ⟨i', q, update_eq_some.mpr (.inr ⟨hii, hq⟩), hcov⟩

lemma move (hi : place i = some p) (hfits : h.Fits cfg p') (hne : ∀ a, p' ≠ .opening a)
    (hcovers : ∀ a ∈ h.admitted, h.Kicked cfg a → h.Present a → h.Covers a p → h.Covers a p') :
    Kept cfg h (Function.update place i (some p')) := by
  refine hK.replace ?_ ?_ ?_
  · rintro _ ⟨⟩
    exact hfits
  · rintro a ha
    exact absurd (Option.some.inj ha) (hne a)
  · intro a ha hkicked hpresent q hq hcov
    rw [hi, Option.some.injEq] at hq
    subst hq
    exact ⟨p', rfl, hcovers a ha hkicked hpresent hcov⟩

lemma start (hi : place i = none) (j : Job) :
    Kept cfg h (Function.update place i (some (startPlace j))) := by
  refine hK.replace ?_ ?_ ?_
  · rintro _ ⟨⟩
    cases j <;> trivial
  · intro a ha
    cases j <;> cases ha
  · intro a _ _ _ q hq
    rw [hi] at hq
    cases hq

/-! ### The server changes -/

/-- What is known of the tasks does not get lost, as long as nobody waits in vain for a route and
a session that had its route gets no other. -/
lemma change (hsound : h'.Sound cfg) (hadm : h.admitted ⊆ h'.admitted)
    (hopened : h.opened ⊆ h'.opened) (hgone : h.gone ⊆ h'.gone)
    (hroute : ∀ u d s, s ∈ h.opened → h'.manager.route u d = some s → h.manager.route u d = some s)
    (hopening : ∀ i a, place i = some (.opening a) → a.session ∉ h'.opened ∧
      ∃ row, h'.row cfg a = some row ∧ row.sessionState = 0)
    (hcovered : ∀ a ∈ h'.admitted, h'.Kicked cfg a → h'.Present a →
      ∃ i p, place i = some p ∧ h'.Covers a p) : Kept cfg h' place where
  sound := hsound
  fits i p hp := by
    match p, hp, hK.fits i p hp with
    | .plain, _, _ | .kick _ _, _, _ | .due _ _ .nothing, _, _ => trivial
    | .opening a, hp, hfits => exact ⟨hadm hfits.1, hopening i a hp⟩
    | .picked _ _ _, _, hfits => exact hfits
    | .due u _ (.found d s), _, hfits => exact hfits.mono hadm hopened
    | .due u scope (.released s), _, hfits =>
      exact ⟨hopened hfits.1, fun u d hr => hfits.2 u d (hroute u d s hfits.1 hr)⟩
    | .leaving s, _, hfits => exact hgone hfits
  alone := hK.alone
  covered := hcovered

lemma still {a : Admission} (ha : a ∈ h.admitted) (hkicked : h.Kicked cfg a)
    (hpresent : h'.Present a) (hbound : h'.bound.get a.session = h.bound.get a.session)
    (hr : h'.manager.route a.user a.device = h.manager.route a.user a.device) :
    ∃ i p, place i = some p ∧ h'.Covers a p := by
  unfold Hub.Present at hpresent
  rw [hbound, hr] at hpresent
  obtain ⟨i, p, hp, hcov⟩ := hK.covered a ha hkicked hpresent
  exact ⟨i, p, hp, hcov.congr hr⟩

lemma congr (hdev : h'.server.devices = h.server.devices) (hbound : h'.bound = h.bound)
    (hroute : ∀ u d, h'.manager.route u d = h.manager.route u d) (hadm : h'.admitted = h.admitted)
    (hopened : h'.opened = h.opened) (hgone : h'.gone = h.gone) : Kept cfg h' place := by
  have hrow : ∀ a, h'.row cfg a = h.row cfg a := fun a => by simp only [Hub.row, hdev]
  obtain ⟨server, blacklist, bound, manager, admitted, opened, gone⟩ := h'
  subst hbound hadm hopened hgone
  refine hK.change { hK.sound with current := ?_, routed := ?_ } (fun _ => id) (fun _ => id)
    (fun _ => id) (fun u d s _ hr => (hroute u d).symm.trans hr) (fun i a hp => ?_) ?_
  · intro a ha row hr
    exact hK.sound.current a ha row ((hrow a).symm.trans hr)
  · exact fun u d s hr => hK.sound.routed u d s ((hroute u d).symm.trans hr)
  · rw [hrow]
    exact (hK.fits i _ hp).2
  · intro a ha hkicked hpresent
    simp only [Hub.Kicked, hrow] at hkicked
    exact hK.still ha hkicked hpresent rfl (hroute _ _)

variable {a : Admission} {u : UserId}

lemma letIn {d : Auth.DeviceId}
    (hnew : ∀ b ∈ h.admitted, b.session ≠ a.session) (hd : cfg.parseUuid a.device = some d)
    (hvalid : (Auth.verifySession (h.server.devices.get (a.user, d)) a.version).isValid = true)
    (hi : place i = some .plain) : Kept cfg { h with admitted := h.admitted ++ [a] }
      (Function.update place i (some (.opening a))) := by
  obtain ⟨row, hget, hstate, hle⟩ := Auth.isValid_verifySession.mp hvalid
  have hrow : h.row cfg a = some row := by rw [Hub.row, hd, Option.bind_some, hget]
  have hold : h.admitted ⊆ h.admitted ++ [a] := List.subset_append_left _ _
  have hunopened : a.session ∉ h.opened := by
    intro hs
    obtain ⟨b, hb, hbs⟩ := hK.sound.opened _ hs
    exact hnew b hb hbs
  have hsound : Hub.Sound cfg { h with admitted := h.admitted ++ [a] } := by
    refine { hK.sound with
      single := fun b hb c hc hs => ?_
      current := fun b hb row' hr hs => ?_
      bound := fun s info hb => hold (hK.sound.bound s info hb)
      opened := fun s hs => ?_
      routed := fun u d s hr => (hK.sound.routed u d s hr).mono hold fun _ hs => hs }
    · rcases List.mem_append.mp hb with hb | hb <;> rcases List.mem_append.mp hc with hc | hc
      · exact hK.sound.single b hb c hc hs
      · rw [List.mem_singleton.mp hc] at hs
        exact absurd hs (hnew b hb)
      · rw [List.mem_singleton.mp hb] at hs
        exact absurd hs.symm (hnew c hc)
      · rw [List.mem_singleton.mp hb, List.mem_singleton.mp hc]
    · rcases List.mem_append.mp hb with hb | hb
      · exact hK.sound.current b hb row' hr hs
      · rw [List.mem_singleton.mp hb] at hr ⊢
        have hsame : row' = row := Option.some.inj (hr.symm.trans hrow)
        exact hsame ▸ hle
    · obtain ⟨b, hb, hbs⟩ := hK.sound.opened s hs
      exact ⟨b, hold hb, hbs⟩
  have hK' : Kept cfg { h with admitted := h.admitted ++ [a] } place := by
    refine hK.change hsound hold (fun _ => id) (fun _ => id) (fun _ _ _ _ => id)
      (fun i b hp => (hK.fits i _ hp).2) fun b hb hkicked hpresent => ?_
    rcases List.mem_append.mp hb with hb | hb
    · exact hK.covered b hb hkicked hpresent
    · rw [List.mem_singleton.mp hb] at hkicked
      exact absurd hkicked (Hub.not_kicked ⟨row, hrow, hstate⟩)
  refine hK'.replace ?_ ?_ ?_
  · rintro _ ⟨⟩
    exact ⟨by simp, hunopened, row, hrow, hstate⟩
  · rintro _ ⟨⟩ i' b hb hs
    exact absurd hs.symm (hnew b (hK.fits i' _ hb).1)
  · intro b _ _ _ q hq hcov
    rw [hi, Option.some.injEq] at hq
    subst hq
    exact hcov.elim

lemma bind (hi : place i = some (.opening a))
    (hgone : a.session ∉ h.gone) : Kept cfg (h.bind a) place := by
  obtain ⟨ha, -, hactive⟩ := hK.fits i _ hi
  have hget : ∀ s, (h.bind a).bound.get s =
      if s = a.session then some ⟨a.user, a.device, a.claims⟩ else h.bound.get s := by
    intro s
    by_cases hs : s = a.session
    · simp [Hub.bind, hs]
    · simp [Hub.bind, hs]
  refine hK.change { hK.sound with bound := fun s info hb => ?_, gone := fun s hs => ?_ }
    (fun _ => id) (fun _ => id) (fun _ => id) (fun _ _ _ _ => id)
    (fun i b hp => (hK.fits i _ hp).2) fun b hb hkicked hpresent => ?_
  · rw [hget] at hb
    split at hb
    · next hs =>
      cases hb
      subst hs
      exact ha
    · exact hK.sound.bound s info hb
  · rw [hget, if_neg]
    · exact hK.sound.gone s hs
    · rintro rfl
      exact hgone hs
  · -- the device of the session that is bound is active
    have hne : b.session ≠ a.session := by
      intro hs
      rw [hK.sound.single b hb a ha hs] at hkicked
      exact Hub.not_kicked hactive hkicked
    exact hK.still hb hkicked hpresent (by rw [hget, if_neg hne]) rfl

lemma unbind {s : SessionId} : Kept cfg (h.unbind s) place := by
  have hget : ∀ s', (h.unbind s).bound.get s' = if s' = s then none else h.bound.get s' :=
    fun s' => Table.get_erase ..
  refine hK.change { hK.sound with bound := fun s' info hb => ?_, gone := fun s' hs => ?_ }
    (fun _ => id) (fun _ => id) (List.subset_append_left _ _) (fun _ _ _ _ => id)
    (fun i b hp => (hK.fits i _ hp).2) fun a ha hkicked hpresent => ?_
  · rw [hget] at hb
    split at hb
    · cases hb
    · exact hK.sound.bound s' info hb
  · rw [hget]
    split
    · rfl
    · next hne =>
      rcases List.mem_append.mp hs with hs | hs
      · exact hK.sound.gone s' hs
      · exact absurd (List.mem_singleton.mp hs) hne
  · refine hK.covered a ha hkicked ?_
    rcases hpresent with hb | hr
    · rw [hget] at hb
      split at hb
      · cases hb
      · exact .inl hb
    · exact .inr hr

lemma switch (hi : place i = some (.opening a)) :
    Kept cfg (h.switch a) (Function.update place i (some .plain)) := by
  obtain ⟨ha, hunopened, hactive⟩ := hK.fits i _ hi
  have hK' : Kept cfg h (Function.update place i (some .plain)) :=
    hK.move hi trivial (by simp) fun _ _ _ _ hcov => hcov.elim
  have hroute : ∀ u d, (h.switch a).manager.route u d =
      if u = a.user ∧ d = a.device then some a.session else h.manager.route u d :=
    fun u d => Manager.route_switchStep
  have hopened : h.opened ⊆ (h.switch a).opened := List.subset_append_left _ _
  refine hK'.change { hK.sound with opened := fun s hs => ?_, routed := fun u d s hr => ?_ }
    (fun _ => id) hopened (fun _ => id) (fun u d s hs hr => ?_) (fun i' b hb => ?_)
    fun b hb hkicked hpresent => ?_
  · rcases List.mem_append.mp hs with hs | hs
    · exact hK.sound.opened s hs
    · exact ⟨a, ha, (List.mem_singleton.mp hs).symm⟩
  · rw [hroute] at hr
    split at hr
    · next hkey =>
      cases hr
      exact ⟨List.mem_append_right _ (List.mem_singleton_self _), a, ha, rfl, hkey.1.symm,
        hkey.2.symm⟩
    · exact (hK.sound.routed u d s hr).mono (fun _ hb => hb) hopened
  · rw [hroute] at hr
    split at hr
    · cases hr
      exact absurd hs hunopened
    · exact hr
  · -- the session that gets its route is the only one that waited for it
    obtain ⟨-, hb', hrow'⟩ := hK'.fits i' _ hb
    refine ⟨fun hs => ?_, hrow'⟩
    rcases List.mem_append.mp hs with hs | hs
    · exact hb' hs
    · rcases update_eq_some.mp hb with ⟨-, ⟨⟩⟩ | ⟨hii, hb⟩
      exact hii (hK.alone i' i b a hb hi (List.mem_singleton.mp hs))
  · -- the device that gets the route is active
    have hother : ¬ (b.user = a.user ∧ b.device = a.device) := by
      rintro ⟨hu, hd⟩
      have hsame : h.row cfg b = h.row cfg a := by simp only [Hub.row, hu, hd]
      exact Hub.not_kicked (hsame ▸ hactive) hkicked
    exact hK'.still hb hkicked hpresent rfl (by rw [hroute, if_neg hother])

lemma dropped {m : Manager} {d : DeviceId} {s : SessionId} (hroute : ∀ u' d', m.route u' d' =
      if u' = u ∧ d' = d ∧ h.manager.route u d = some s then none else h.manager.route u' d')
    (hheld : (h.bound.get s).isSome → ∃ i u scope held,
      place i = some (.due u scope held) ∧ held.session = some s) :
    Kept cfg { h with manager := m } place := by
  have hfewer : ∀ u' d' s', m.route u' d' = some s' → h.manager.route u' d' = some s' := by
    intro u' d' s' hr
    rw [hroute] at hr
    split at hr
    · cases hr
    · exact hr
  refine hK.change
    { hK.sound with routed := fun u' d' s' hr => hK.sound.routed u' d' s' (hfewer u' d' s' hr) }
    (fun _ => id) (fun _ => id) (fun _ => id) (fun u d s _ => hfewer u d s)
    (fun i b hp => (hK.fits i _ hp).2) fun a ha hkicked hpresent => ?_
  by_cases hgoes : a.user = u ∧ a.device = d ∧ h.manager.route u d = some s
  · -- the route of this session is the one that goes
    obtain ⟨hu, hd, hr⟩ := hgoes
    have hnone : m.route a.user a.device = none := by rw [hroute, if_pos ⟨hu, hd, hr⟩]
    have hbound : (h.bound.get a.session).isSome := by
      rcases hpresent with hb | hr'
      · exact hb
      · rw [hnone] at hr'
        cases hr'
    by_cases hs : a.session = s
    · obtain ⟨i, u', scope, held, hp, hheld'⟩ := hheld (hs ▸ hbound)
      exact ⟨i, _, hp, .inr (by rw [hs, hheld'])⟩
    · obtain ⟨i, p, hp, hcov⟩ := hK.covered a ha hkicked (.inl hbound)
      refine ⟨i, p, hp, ?_⟩
      cases p with
      | due u' scope held =>
        rcases hcov with ⟨-, -, hr'⟩ | hheld'
        · rw [hu, hd, hr] at hr'
          exact absurd (Option.some.inj hr').symm hs
        · exact .inr hheld'
      | plain | opening _ | kick _ _ | picked _ _ _ | leaving _ => exact hcov
  · exact hK.still ha hkicked hpresent rfl (by rw [hroute, if_neg hgoes])

lemma strike {j : Job} {ds : List Auth.DeviceId}
    {server : Auth.Server} (hdevices : server.devices = h.server.devices.kick u ds)
    (hsettled : h.Settled cfg j u ds) (hdue : ∀ a ∈ h.admitted, a.among cfg u ds = true →
      (∃ row, h.row cfg a = some row ∧ row.sessionState = 0) → j.names a.device = true →
      ∃ i scope held, place i = some (.due a.user scope held) ∧ scope.has a.device) :
    Kept cfg { h with server := server } place := by
  have hrow : ∀ a, Hub.row cfg { h with server := server } a = (h.row cfg a).map fun row =>
      if a.among cfg u ds = true ∧ row.sessionState = 0 then ⟨row.sessionVersion + 1, 1⟩
      else row := by
    intro a
    unfold Hub.row Admission.among
    rw [hdevices]
    cases cfg.parseUuid a.device with
    | none => rfl
    | some d =>
      simp only [Option.bind_some, Auth.Devices.kick, Auth.Devices.get_bumpWhere]
      simp [and_assoc]
  refine hK.change { hK.sound with current := fun a ha row hr hstate => ?_ } (fun _ => id)
    (fun _ => id) (fun _ => id) (fun _ _ _ _ => id) (fun i a hp => ?_) ?_
  · rw [hrow, Option.map_eq_some_iff] at hr
    obtain ⟨row0, hr0, rfl⟩ := hr
    split at hstate
    · cases hstate
    · next hne =>
      rw [if_neg hne]
      exact hK.sound.current a ha row0 hr0 hstate
  · -- a session that waits for its route is not one of these devices
    obtain ⟨ha, hunopened, row, hr, hstate⟩ := hK.fits i _ hp
    have hnot : ¬ a.among cfg u ds = true := fun hmem => hunopened (hsettled a ha hmem).1
    refine ⟨hunopened, row, ?_, hstate⟩
    rw [hrow, hr, Option.map_some, if_neg fun hc => hnot hc.1]
  · rintro a ha ⟨row, hr, hstate⟩ hpresent
    by_cases hkicked : h.Kicked cfg a
    · exact hK.covered a ha hkicked hpresent
    · rw [hrow, Option.map_eq_some_iff] at hr
      obtain ⟨row0, hr0, rfl⟩ := hr
      split at hstate
      · next hmem =>
        obtain ⟨-, hbound, hnames⟩ := hsettled a ha hmem.1
        have hroute : h.manager.route a.user a.device = some a.session := hpresent.elim hbound id
        obtain ⟨i, scope, held, hp, hhas⟩ := hdue a ha hmem.1 ⟨row0, hr0, hmem.2⟩ (hnames hroute)
        exact ⟨i, _, hp, .inl ⟨rfl, hhas, hroute⟩⟩
      · exact absurd ⟨row0, hr0, hstate⟩ hkicked

end Kept

end PrivChat.Connection
