import PrivChat.Connection.Kept
import PrivChat.Auth.Signing

/-!
What a kick leaves of a device.

Once a kick has raised the version of a device, a session that came in with the old one is neither
led to nor bound, provided that the kick finds it. A connect handler that has checked the device
before and registers the session later is not found.
-/

namespace PrivChat.Connection

open Db Tasks

namespace Kept

variable {cfg : Auth.Config} {h : Hub} {place : ℕ → Option Place} {i : ℕ} {p : Place}

/-! ### One step -/

variable (hK : Kept cfg h place) (hi : place i = some p)

include hK hi

lemma stay : Kept cfg h (Function.update place i (some p)) := by
  rwa [← hi, Function.update_eq_self]

variable {j : Job} {o : Auth.Moment}

variable {u : UserId} {d : Auth.DeviceId}

/-- The update of a kick that fails has changed nothing, if its answer is not lost. Otherwise some
task has the routes of the devices that were active. -/
lemma update_devices {op : Auth.Op} {ds : List Auth.DeviceId} {α : Type} {x : α}
    {next : Auth.Answer α → Place}
    (hop : ∀ s : Auth.Server, s.devicesAfter op = s.devices.kick u ds)
    (hgiven : ((o.fault.isNone || !o.applied) && decide (h.Settled cfg j u ds)) = true)
    (hfailed : ∀ e, next (.error e) = p)
    (hK' : Kept cfg h (Function.update place i (some (next (.ok x)))))
    (hdue : ∀ a, a.among cfg u ds = true →
      (∃ row, h.row cfg a = some row ∧ row.sessionState = 0) → j.names a.device = true →
      ∃ scope held, next (.ok x) = .due u scope held ∧ scope.has a.device) :
    Kept cfg (h.after cfg o (.auth op)) (Function.update place i (some (next (o.answer x)))) := by
  simp only [Bool.and_eq_true, Bool.or_eq_true, decide_eq_true_eq] at hgiven
  cases hfault : o.fault with
  | some e =>
    have hlost : o.applied = false := by simpa [hfault] using hgiven.1
    rw [Auth.Moment.answer_error hfault, hfailed]
    refine (hK.stay hi).congr ?_ rfl (fun _ _ => rfl) rfl rfl rfl
    simp [Hub.after, Auth.Server.exec, Auth.Server.after, Auth.Moment.takesEffect, hfault, hlost]
  | none =>
    rw [Auth.Moment.answer_ok hfault]
    refine hK'.strike ?_ hgiven.2 fun a _ hmem hrow hnames => ?_
    · simp [Auth.Server.exec, Auth.Server.after, Auth.Moment.takesEffect, hfault, hop]
    · obtain ⟨scope, held, hp, hhas⟩ := hdue a hmem hrow hnames
      refine ⟨i, scope, held, ?_, hhas⟩
      rw [Function.update_self, hp, (Admission.among_iff.mp hmem).1]

lemma call_kick (hready : readyAt cfg j (.auth (.kick u d)) p)
    (hgiven : orderly cfg j o h (.auth (.kick u d)) = true) :
    Kept cfg (h.after cfg o (.auth (.kick u d))) (Function.update place i (some (p.struck
        (o.answer (0 < h.server.devices.activeCount u (· = d)))))) := by
  obtain ⟨current, target, rfl, hparse, rfl⟩ := hready
  by_cases hactive : 0 < h.server.devices.activeCount u (· = d)
  · rw [decide_eq_true hactive]
    refine hK.update_devices hi (fun _ => rfl) hgiven (fun _ => rfl)
      (hK.move hi trivial (by simp [Place.struck]) fun _ _ _ _ hcov => hcov.elim)
      fun a _ _ hnames => ?_
    exact ⟨_, _, rfl, by simpa [Scope.has, Job.names] using hnames⟩
  · rw [decide_eq_false hactive]
    -- there is no active device that could have been changed
    refine hK.update_devices hi (fun _ => rfl) hgiven (fun _ => rfl) (hK.stay hi)
      fun a hmem hrow _ => ?_
    obtain ⟨hu, d', hd', hparse'⟩ := Admission.among_iff.mp hmem
    obtain ⟨row, hr, hstate⟩ := hrow
    rw [Hub.row, hparse', Option.bind_some, hu] at hr
    exact absurd (Auth.Devices.activeCount_pos hr (by simpa using hd') hstate) hactive

lemma call_select (hready : readyAt cfg j (.auth (.selectActiveOthers u d)) p) :
    Kept cfg (h.after cfg o (.auth (.selectActiveOthers u d)))
      (Function.update place i (some (p.chosen (o.answer (h.server.devices.activeOthers u d))))) :=
        by
  obtain ⟨current, hparse, rfl⟩ := hready
  have hK' : Kept cfg (h.after cfg o (.auth (.selectActiveOthers u d))) place := by
    refine hK.congr ?_ rfl (fun _ _ => rfl) rfl rfl rfl
    simp [Hub.after, Auth.Server.exec, Auth.Server.after, Auth.Server.devicesAfter]
  cases hfault : o.fault with
  | some e =>
    rw [Auth.Moment.answer_error hfault]
    exact hK'.stay hi
  | none =>
    rw [Auth.Moment.answer_ok hfault]
    simp only [Place.chosen]
    split
    · exact hK'.move hi trivial (by simp) fun _ _ _ _ hcov => hcov.elim
    · refine hK'.move hi ?_ (by simp) fun _ _ _ _ hcov => hcov.elim
      intro d' hd' hparse'
      rw [hparse, Option.some.injEq] at hparse'
      subst hparse'
      exact Auth.Devices.not_mem_activeOthers hd'

lemma call_kickOthers
    {ds : List Auth.DeviceId} (hready : readyAt cfg j (.auth (.kickOthers u ds)) p)
    (hgiven : orderly cfg j o h (.auth (.kickOthers u ds)) = true) :
    Kept cfg (h.after cfg o (.auth (.kickOthers u ds)))
      (Function.update place i (some (p.struckOthers (o.answer ())))) := by
  obtain ⟨current, rfl⟩ := hready
  have hpicked : ∀ d ∈ ds, cfg.parseUuid current ≠ some d := hK.fits i _ hi
  refine hK.update_devices hi (fun _ => rfl) hgiven (fun _ => rfl)
    (hK.move hi trivial (by simp [Place.struckOthers]) fun _ _ _ _ hcov => hcov.elim)
    fun a hmem _ _ => ⟨_, _, rfl, ?_⟩
  obtain ⟨-, d, hd, hparse⟩ := Admission.among_iff.mp hmem
  rintro rfl
  exact hpicked d hd hparse

lemma call_selectDevice {a : Admission} (hready : readyAt cfg j (.selectDevice a d) p)
    (hgiven : orderly cfg j o h (.selectDevice a d) = true) :
    Kept cfg (h.after cfg o (.selectDevice a d)) (Function.update place i
        (some (p.checked a (o.answer (h.server.devices.get (a.user, d)))))) := by
  obtain ⟨hd, rfl⟩ := hready
  have hnew : ∀ b ∈ h.admitted, b.session ≠ a.session := by simpa [orderly] using hgiven
  cases hfault : o.fault with
  | some e =>
    rw [Auth.Moment.answer_error hfault]
    simp only [Hub.after, hfault]
    exact hK.stay hi
  | none =>
    rw [Auth.Moment.answer_ok hfault]
    simp only [Hub.after, hfault, Option.isNone_none, if_true, Hub.letIn, Place.checked]
    split
    · next hvalid => exact hK.letIn hnew hd hvalid hi
    · exact hK.stay hi

lemma call_route {d : DeviceId} (hready : readyAt cfg j (.route u d) p) :
    Kept cfg h (Function.update place i (some (p.looked d (h.manager.route u d)))) := by
  obtain ⟨ds, rfl⟩ := hready
  refine hK.move hi ?_ (by simp [Place.looked]) ?_
  · cases hr : h.manager.route u d with
    | none => trivial
    | some s => exact hK.sound.routed u d s hr
  · rintro a - - - (⟨rfl, hmem, hr⟩ | hheld)
    · by_cases hd : a.device = d
      · subst hd
        rw [hr]
        exact .inr rfl
      · exact .inl ⟨rfl, List.mem_filter.mpr ⟨hmem, by simpa using hd⟩, hr⟩
    · cases hheld

lemma call_otherDevices {current : DeviceId} (hready : readyAt cfg j (.otherDevices u current) p) :
    Kept cfg h (Function.update place i
      (some (p.listing (h.respond cfg o (.otherDevices u current))))) := by
  obtain rfl := hready
  refine hK.move hi trivial (by simp [Place.listing]) ?_
  rintro a - - - (⟨rfl, hne, hr⟩ | hheld)
  · refine .inl ⟨rfl, List.mem_map.mpr ⟨(a.device, a.session), ?_, rfl⟩, hr⟩
    refine Table.mem_select.mpr ⟨?_, decide_eq_true hne⟩
    rw [Manager.route_getD, hr]
  · cases hheld

lemma call_releaseRoute
    {d : DeviceId} {s : SessionId} (hready : readyAt cfg j (.releaseRoute u d s) p) :
    Kept cfg (h.after cfg o (.releaseRoute u d s))
      (Function.update place i (some (p.holding (.released s)))) := by
  obtain ⟨scope, rfl⟩ := hready
  obtain ⟨hopened, a, ha, hs, hu, hd⟩ := hK.fits i _ hi
  have hK' := hK.dropped (m := h.manager.releaseRoute u d s)
    (fun u' d' => by rw [Manager.releaseRoute_eq, Manager.route_clearRoute]) fun _ =>
      ⟨i, u, scope, .found d s, hi, rfl⟩
  refine hK'.move hi ⟨hopened, fun u' d' hr => ?_⟩ (by simp [Place.holding]) fun b _ _ _ hcov =>
    hcov
  -- a session has only the route of its own device, and that one is gone
  rw [Manager.releaseRoute_eq, Manager.route_clearRoute] at hr
  split at hr
  · cases hr
  · next hkept =>
    obtain ⟨-, b, hb, hs', hu', hd'⟩ := hK.sound.routed u' d' s hr
    obtain rfl := hK.sound.single b hb a ha (hs'.trans hs.symm)
    obtain rfl := hu.symm.trans hu'
    obtain rfl := hd.symm.trans hd'
    exact hkept ⟨rfl, rfl, hr⟩

lemma call_closeSession {s : SessionId} (hready : readyAt cfg j (.closeSession s) p)
    (hgiven : orderly cfg j o h (.closeSession s) = true) :
    Kept cfg h (Function.update place i (some (p.holding .nothing))) := by
  obtain ⟨u, scope, rfl⟩ := hready
  have hunbound : h.bound.get s = none := by simpa [orderly] using hgiven
  have hunrouted := (hK.fits i _ hi).2
  refine hK.move hi trivial (by simp [Place.holding]) ?_
  rintro a - - hpresent (hcov | hheld)
  · exact .inl hcov
  · obtain rfl := Option.some.inj hheld
    rcases hpresent with hb | hr
    · rw [hunbound] at hb
      cases hb
    · exact absurd hr (hunrouted _ _)

lemma call {op : Op} (hready : readyAt cfg j op p) (hgiven : orderly cfg j o h op = true) :
    Kept cfg (h.after cfg o op)
      (Function.update place i (some (Place.next op (h.respond cfg o op) p))) := by
  cases op with
  | auth op =>
    match op, hready, hgiven with
    | .verify token typ, _, _ =>
      refine (hK.stay hi).congr ?_ rfl (fun _ _ => rfl) rfl rfl rfl
      simp [Hub.after, Auth.Server.exec, Auth.Server.after, Auth.Server.devicesAfter]
    | .kick u d, hready, hgiven => exact hK.call_kick hi hready hgiven
    | .selectActiveOthers u d, hready, _ => exact hK.call_select hi hready
    | .kickOthers u ds, hready, hgiven => exact hK.call_kickOthers hi hready hgiven
  | isRevoked jti => exact hK.stay hi
  | selectDevice a d => exact hK.call_selectDevice hi hready hgiven
  | bindSession a =>
    obtain rfl := hready
    exact (hK.bind hi (by simpa [orderly] using hgiven)).stay hi
  | registerConnecting s =>
    refine (hK.stay hi).congr rfl rfl (fun u d => ?_) rfl rfl rfl
    exact Manager.route_of_indexA Manager.indexA_registerConnecting
  | bindEntry a => exact (hK.stay hi).congr rfl rfl (fun _ _ => rfl) rfl rfl rfl
  | switchRoute a =>
    obtain rfl := hready
    exact hK.switch hi
  | route u d => exact hK.call_route hi hready
  | otherDevices u current => exact hK.call_otherDevices hi hready
  | markClosing s => exact (hK.stay hi).congr rfl rfl (fun _ _ => rfl) rfl rfl rfl
  | releaseRoute u d s => exact hK.call_releaseRoute hi hready
  | closeSession s => exact hK.call_closeSession hi hready hgiven
  | unbindSession s =>
    obtain rfl := hready
    change Kept cfg (h.unbind s) (Function.update place i (some (.leaving s)))
    refine hK.unbind.move hi ?_ (by simp) fun _ _ _ _ hcov => hcov.elim
    exact List.mem_append_right _ (List.mem_singleton_self s)
  | removeEntry s => exact (hK.stay hi).congr rfl rfl (fun _ _ => rfl) rfl rfl rfl
  | clearRoute u d s state =>
    obtain rfl := hready
    refine (hK.dropped (fun u' d' => Manager.route_clearRoute) fun hbound => ?_).stay hi
    rw [hK.sound.gone s (hK.fits i _ hi)] at hbound
    cases hbound

end Kept

/-! ### Runs -/

section Runs

variable (cfg : Auth.Config)

lemma guards : (machine cfg).Guards (course cfg) (fun _ j op o h => orderly cfg j o h op = true)
    (fun _ _ _ _ => false) (fun _ => Kept cfg) where
  prog := rests_progOf
  start _ _ j _ _ hK hi := hK.start hi j
  call _ i j op o h place p hK hi hready hgiven := by
    exact hK.call hi hready.1 hgiven
  env _ _ _ _ hK := hK.congr rfl rfl (fun _ _ => rfl) rfl rfl rfl

lemma kept_start {devices : Auth.Devices} {tokens : List Auth.Signed} {blacklist : List Auth.Jti}
    {node : String} : Kept cfg (Hub.start devices tokens blacklist node) fun _ => none where
  sound := by
    constructor
    · exact fun _ ha => absurd ha List.not_mem_nil
    · exact fun _ ha => absurd ha List.not_mem_nil
    · exact nofun
    · exact fun _ hs => absurd hs List.not_mem_nil
    · exact fun _ hs => absurd hs List.not_mem_nil
    · exact nofun
  fits _ _ h := nomatch h
  alone _ _ _ _ h := nomatch h
  covered _ ha := absurd ha List.not_mem_nil

variable {a : Admission}

variable {cfg} in
lemma Kept.not_present {s : HubState} {place : ℕ → Option Place} (hK : Kept cfg s.shared place)
    (hstands : ∀ i, (course cfg).Stands (s.tasks i) (place i))
    (hdone : ∀ i j t, s.tasks i = .running j t → j.isKick = false)
    (ha : a ∈ s.shared.admitted) (hkicked : s.shared.Kicked cfg a) : ¬ s.shared.Present a := by
  intro hpresent
  obtain ⟨i, p, hp, hcov⟩ := hK.covered a ha hkicked hpresent
  have hi := hstands i
  rw [hp] at hi
  cases ht : s.tasks i with
  | free =>
    rw [ht] at hi
    cases hi
  | finished j r =>
    rw [ht] at hi
    obtain ⟨_, ⟨⟩, hrest⟩ := hi
    exact Hub.not_covers_of_atRest hrest hcov
  | running j t =>
    rw [ht] at hi
    obtain ⟨_, ⟨⟩, hleads⟩ := hi
    cases t with
    | ret r => exact Hub.not_covers_of_atRest hleads hcov
    | fail e => exact Hub.not_covers_of_atRest hleads hcov
    | call op k =>
      have hkick := hleads.1.2 (Hub.isDue_of_covers hcov)
      rw [hdone i j _ ht] at hkick
      cases hkick

variable {cfg} in
lemma Hub.Sound.not_live {h : Hub} (hS : h.Sound cfg) (ha : a ∈ h.admitted)
    (hpresent : ¬ h.Present a) : h.live a.session = false := by
  rw [Hub.live_eq_false]
  constructor
  · intro u d hr
    obtain ⟨-, b, hb, hs, hu, hd⟩ := hS.routed u d _ hr
    obtain rfl := hS.single b hb a ha hs
    exact hpresent (.inr (by rw [hu, hd, hr]))
  · by_contra hb
    exact hpresent (.inl (Option.isSome_iff_ne_none.mpr hb))

variable {cfg} in
lemma Hub.Sound.kicked {h : Hub} (hS : h.Sound cfg) (ha : a ∈ h.admitted)
    (hstale : h.stale cfg a = true) : h.Kicked cfg a := by
  rw [Hub.stale, Option.any_eq_true] at hstale
  obtain ⟨row, hrow, hlt⟩ := hstale
  refine ⟨row, hrow, fun hstate => ?_⟩
  have hle := hS.current a ha row hrow hstate
  have hlt' : a.version < row.sessionVersion := by simpa using hlt
  omega

def runFrom (h : Hub) (evs : List HubEvent) : HubState := (machine cfg).run (.init h) evs

def OrderlyRun (h : Hub) (evs : List HubEvent) : Prop :=
  GivenRun (machine cfg) (fun _ j op o h => orderly cfg j o h op = true) (.init h) evs

instance OrderlyRun.decidable (h : Hub) (evs : List HubEvent) : Decidable (OrderlyRun cfg h evs) :=
  GivenRun.decidable ..

/-- **A kicked device has no live route.** If every step is orderly, then whenever no kick is under
way, a session that came in with a version below that of its device is neither led to by a route
nor bound. -/
theorem stale_session_not_live (devices : Auth.Devices) (tokens : List Auth.Signed)
    (blacklist : List Auth.Jti) (node : String) (evs : List HubEvent)
    (horderly : OrderlyRun cfg (.start devices tokens blacklist node) evs)
    (hdone : ∀ i j t, (runFrom cfg (.start devices tokens blacklist node) evs).tasks i =
      .running j t → j.isKick = false) :
    ∀ a ∈ (runFrom cfg (.start devices tokens blacklist node) evs).shared.admitted,
      (runFrom cfg (.start devices tokens blacklist node) evs).shared.stale cfg a = true →
      (runFrom cfg (.start devices tokens blacklist node) evs).shared.live a.session = false := by
  obtain ⟨place, hK, hstands⟩ := (guards cfg).run (n := 0) (s := .init _)
    (kept_start cfg) (fun _ => rfl) evs horderly
  intro a ha hstale
  have hkicked := hK.sound.kicked ha hstale
  exact hK.sound.not_live ha (hK.not_present hstands hdone ha hkicked)

end Runs

/-- A token of the first version. -/
def sampleClaims : Auth.UnifiedTokenClaims :=
  Auth.sampleConfig.claimsOf .access ⟨1, "phone", 1, ["user"], ["im"], "business", "app"⟩ 1 "uuid-0"

/-- One user with one device that is active. -/
def sampleHub : Hub :=
  .start (Table.empty.put (1, 1) ⟨1, 0⟩) [⟨sampleClaims, none⟩] [] "node"

def steps (i n : ℕ) : List HubEvent := List.replicate n (.step i Auth.sampleMoment)

/-- The device connects and is kicked by another one, and the transport reports the session closed
before the kick goes on. -/
def sampleKick : List HubEvent :=
  .start 0 (.connect 7 (some sampleClaims) "phone") :: steps 0 8 ++
    .start 1 (.kickDevice 1 (some "tablet") "phone") :: steps 1 4 ++
    .start 2 (.onDisconnected 7) :: steps 2 4 ++ steps 1 2

lemma sampleKick_done : ∀ i j t, (runFrom Auth.sampleConfig sampleHub sampleKick).tasks i =
    .running j t → j.isKick = false := by
  intro i j t h
  match i with
  | 0 => cases h
  | 1 => cases h
  | 2 => cases h
  | i + 3 => cases h

theorem stale_session_not_live_sample :
    (runFrom Auth.sampleConfig sampleHub sampleKick).shared.stale Auth.sampleConfig
        ⟨7, sampleClaims⟩ = true ∧
      (runFrom Auth.sampleConfig sampleHub sampleKick).shared.live 7 = false := by
  have hstale : (runFrom Auth.sampleConfig sampleHub sampleKick).shared.stale Auth.sampleConfig
      ⟨7, sampleClaims⟩ = true := by decide +kernel
  exact ⟨hstale, stale_session_not_live Auth.sampleConfig _ _ _ _ sampleKick (by decide +kernel)
    sampleKick_done ⟨7, sampleClaims⟩ (by decide +kernel) hstale⟩

/-- The kick comes after the check of the device, and before the session is bound. -/
def overtakingKick : List HubEvent :=
  .start 0 (.connect 7 (some sampleClaims) "phone") :: steps 0 3 ++
    .start 1 (.kickDevice 1 (some "tablet") "phone") :: steps 1 3 ++ steps 0 5

/-- No step fails, the kick and the connect handler both succeed, and the session that came in with
the old version is bound and has the route of the device. -/
theorem connect_outlives_kick :
    ((runFrom Auth.sampleConfig sampleHub overtakingKick).tasks 0).result = some (.ok .connected) ∧
      ((runFrom Auth.sampleConfig sampleHub overtakingKick).tasks 1).result = some (.ok .kicked) ∧
      ⟨7, sampleClaims⟩ ∈ (runFrom Auth.sampleConfig sampleHub overtakingKick).shared.admitted ∧
      (runFrom Auth.sampleConfig sampleHub overtakingKick).shared.stale Auth.sampleConfig
        ⟨7, sampleClaims⟩ = true ∧
      (runFrom Auth.sampleConfig sampleHub overtakingKick).shared.manager.route 1 "phone" =
        some 7 ∧
      ((runFrom Auth.sampleConfig sampleHub overtakingKick).shared.bound.get 7).isSome = true := by
  refine ⟨?_, ?_, ?_, ?_, ?_, ?_⟩ <;> decide +kernel

end PrivChat.Connection
