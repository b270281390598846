import PrivChat.Auth.Signing

/-!
A login opens a session and closes the one before.

Requests are served one after the other here. A device that is registered gets a version above
all versions that were signed for it, and is active again unless it was frozen or is to be
verified. The built-in login registers a device that is not there, but takes one that is there as
it finds it.
-/

namespace PrivChat.Auth

open Db Tasks Server
open Channels

variable {cfg : Config} {β γ : Type} {s s' : Server} {P : Moment → Prop}

/-- If the code, with nobody beside it, returns something, then as `φ` says. -/
def Returns (cfg : Config) (P : Moment → Prop) (φ : β → Server → Prop) (t : AuthProg β)
    (s : Server) : Prop :=
  (machine cfg).Alone P (fun r s' => ∀ b, r = .ok b → φ b s') t s

namespace Returns

variable {φ : β → Server → Prop} {ψ : γ → Server → Prop} {t : AuthProg β}

lemma ret {b : β} (h : φ b s) : Returns cfg P φ (.ret b) s := by
  rintro _ ⟨⟩
  exact h

lemma fail {e : AuthError} : Returns cfg P φ (.fail e) s := nofun

lemma bind {g : β → AuthProg γ} (h : Returns cfg P φ t s)
    (hg : ∀ b s', φ b s' → Returns cfg P ψ (g b) s') : Returns cfg P ψ (t >>= g) s :=
  Machine.Alone.bind h (fun b s' hb => hg b s' (hb b rfl)) fun _ _ _ => nofun

lemma call {op : Op} {k : op.Res → AuthProg β}
    (h : ∀ o, P o → Returns cfg P φ (k (s.respond cfg o op)) (s.after cfg o op)) :
    Returns cfg P φ (.call op k) s := h

lemma mapErr {f : AuthError → AuthError} (h : Returns cfg P φ t s) :
    Returns cfg P φ (t.mapErr f) s := by
  refine Machine.Alone.mapErr (Machine.Alone.mono h fun r s' hr b hb => ?_)
  cases r with
  | ok a =>
    cases hb
    exact hr _ rfl
  | error e => cases hb

lemma orFail {r : Answer β} {error : String → ServerError} (h : ∀ b, r = .ok b → φ b s) :
    Returns cfg P φ (orFail error r) s := by
  cases r with
  | ok b => exact ret (h b rfl)
  | error e => exact fail

end Returns

open Returns

/-! ### What the requests do when nobody is beside them -/

lemma Server.devices_after {o : Moment} {op : Op} (h : s.devicesAfter op = s.devices) :
    (s.after cfg o op).devices = s.devices := by
  unfold after
  rw [h, ite_self]

variable {deviceId : String}

lemma returns_deviceUuid : Returns cfg P (fun d s' => cfg.parseUuid deviceId = some d ∧ s' = s)
      (deviceUuid cfg deviceId) s := by
  unfold deviceUuid
  split
  · rename_i d hd
    exact ret ⟨hd, rfl⟩
  · exact fail

variable {u : UserId}

lemma returns_selectDevice : Returns cfg P (fun found s' => s'.devices = s.devices ∧
        ∃ d, cfg.parseUuid deviceId = some d ∧ found.row = s.devices.get (u, d))
      (selectDevice cfg u deviceId) s := by
  refine returns_deviceUuid.bind fun d s1 ⟨hd, hs1⟩ => ?_
  subst hs1
  refine call fun o _ => Returns.orFail fun found hfound => ?_
  obtain ⟨-, rfl⟩ := Moment.answer_eq_ok hfound
  exact ⟨devices_after rfl, d, hd, rfl⟩

/-- The device was registered, and has this version now. -/
def Server.Registers (cfg : Config) (s s' : Server) (u : UserId) (deviceId : String) (v : ℤ) :
    Prop :=
  ∃ d, cfg.parseUuid deviceId = some d ∧ s'.devices = s.devices.registerOrUpdate u d ∧
    v = (Devices.registered (s.devices.get (u, d))).sessionVersion

lemma returns_registerOrUpdateDevice :
    Returns cfg P (fun device s' => s.Registers cfg s' u deviceId device.sessionVersion)
      (registerOrUpdateDevice cfg u deviceId) s := by
  refine returns_deviceUuid.bind fun d s1 ⟨hd, hs1⟩ => ?_
  subst hs1
  refine call fun o _ => Returns.orFail fun device hdevice => ?_
  obtain ⟨hfault, rfl⟩ := Moment.answer_eq_ok hdevice
  refine ⟨d, hd, ?_, rfl⟩
  simp [Server.after, Moment.takesEffect, hfault, devicesAfter]

def Signed.For (params : IssueClaims) (t : Signed) : Prop :=
  t.claims.sub = params.userId ∧ t.claims.deviceId = params.deviceId ∧
    t.claims.sessionVersion = params.sessionVersion

variable {readAt : Option ℕ}

lemma returns_sign {typ : TokenType} {params : IssueClaims} :
    Returns cfg P (fun t s' => t.For params ∧ s'.devices = s.devices) (sign typ params readAt) s :=
  call fun _ _ => ret ⟨⟨rfl, rfl, rfl⟩, devices_after rfl⟩

lemma returns_now : Returns cfg P (fun _ s' => s'.devices = s.devices) now s :=
  call fun _ _ => ret (devices_after rfl)

structure Opened where
  userId : UserId
  deviceId : String
  access : UnifiedTokenClaims
  refresh : UnifiedTokenClaims

structure Opened.Carries (x : Opened) (v : ℤ) : Prop where
  access : x.access.sub = x.userId ∧ x.access.deviceId = x.deviceId ∧ x.access.sessionVersion = v
  refresh :
    x.refresh.sub = x.userId ∧ x.refresh.deviceId = x.deviceId ∧ x.refresh.sessionVersion = v

def IssueResult.opened (r : IssueResult) : Opened :=
  ⟨r.userId, r.deviceId, r.accessToken, r.refreshToken⟩

def IssueTokenResponse.opened (u : UserId) (r : IssueTokenResponse) : Opened :=
  ⟨u, r.deviceId, r.imToken, r.imRefreshToken⟩

def AuthResponse.opened (r : AuthResponse) : Opened :=
  ⟨r.userId, r.deviceId, r.token, r.refreshToken⟩

lemma returns_chooseDeviceId {deviceId : Option String} :
    Returns cfg P (fun d s' => (cfg.parseUuid d).isSome ∧ s'.devices = s.devices)
      (chooseDeviceId cfg deviceId) s := by
  unfold chooseDeviceId
  split
  · exact call fun o _ => ret ⟨cfg.parse_uuidText o.uuid, devices_after rfl⟩
  · split
    · rename_i d hd
      exact ret ⟨Option.isSome_of_eq_some hd, rfl⟩
    · exact fail

lemma returns_issue {p : IssueParams} :
    Returns cfg P (fun r s' => ∃ v, r.opened.Carries v ∧ s.Registers cfg s' r.userId r.deviceId v)
      (issue cfg p) s := by
  unfold issue
  split
  · exact fail
  · refine returns_chooseDeviceId.bind fun deviceId s1 ⟨_, hs1⟩ => ?_
    refine returns_registerOrUpdateDevice.bind fun device s2 ⟨d, hd, hs2, hv⟩ => ?_
    refine returns_sign.bind fun access s3 ⟨haccess, hs3⟩ => ?_
    refine returns_sign.bind fun refresh s4 ⟨hrefresh, hs4⟩ => ?_
    refine returns_now.bind fun nowMs s5 hs5 => call fun o _ => ?_
    refine (Returns.orFail (φ := fun _ s' => s'.devices = s5.devices)
      fun _ _ => devices_after rfl).bind fun _ s6 hs6 => ret ?_
    refine ⟨device.sessionVersion, ⟨haccess, hrefresh⟩, d, hd, ?_, ?_⟩
    · rw [hs6, hs5, hs4, hs3, hs2, hs1]
    · rw [hv, hs1]

lemma returns_registerOrAssume (hP : ∀ o, P o → o.fault = none)
    (hd : (cfg.parseUuid deviceId).isSome) :
    Returns cfg P (fun x s' => s.Registers cfg s' u deviceId x.sessionVersion)
      (registerOrAssume cfg u deviceId) s := by
  obtain ⟨d, hd⟩ := Option.isSome_iff_exists.mp hd
  unfold registerOrAssume
  rw [registerOrUpdateDevice_eq hd]
  refine call fun o ho => ?_
  have hanswer : ∀ device : Registered, o.answer device = .ok device := fun device => by
    simp [Moment.answer, hP o ho]
  change Returns cfg P _ ((orFail _ (o.answer _)).attempt >>= _) _
  rw [hanswer]
  refine ret ⟨d, hd, ?_, rfl⟩
  simp [Server.after, Moment.takesEffect, hP o ho, devicesAfter]

lemma returns_verify {token : UnifiedTokenClaims} {typ : TokenType}
    {error : VerifyError → AuthError} :
    Returns cfg P (fun _ s' => s'.devices = s.devices) (verify token typ error) s := by
  refine call fun o _ => ?_
  cases hr : cfg.verify s.tokens token typ (o.now / 1000) with
  | error e =>
    simp only [respond, hr, orRefuse]
    exact fail
  | ok signed =>
    simp only [respond, hr, orRefuse]
    exact ret (devices_after rfl)

lemma returns_issueToken (hP : ∀ o, P o → o.fault = none) {r : IssueTokenRequest} :
    Returns cfg P (fun x s' => ∃ v, (x.opened r.userId).Carries v ∧
        s.Registers cfg s' r.userId x.deviceId v) (issueToken cfg r) s := by
  unfold issueToken
  split
  · exact fail
  · split
    · exact fail
    · refine returns_chooseDeviceId.bind fun deviceId s1 ⟨hd, hs1⟩ => ?_
      refine (returns_registerOrAssume hP hd).bind fun standing s2 ⟨d, hd, hs2, hv⟩ => ?_
      refine returns_sign.bind fun access s3 ⟨haccess, hs3⟩ => ?_
      refine returns_sign.bind fun refresh s4 ⟨hrefresh, hs4⟩ => ?_
      refine returns_verify.bind fun _ s5 hs5 => returns_now.bind fun _ s6 hs6 => ret ?_
      refine ⟨standing.sessionVersion, ⟨haccess, hrefresh⟩, d, hd, ?_, ?_⟩
      · rw [hs6, hs5, hs4, hs3, hs2, hs1]
      · rw [hv, hs1]

variable {r : LoginRequest}

lemma returns_openSession {v : ℤ} :
    Returns cfg P (fun x s' => x.opened.Carries v ∧ x.userId = u ∧ x.deviceId = r.deviceId ∧
        s'.devices = s.devices) (openSession cfg r u v readAt) s := by
  refine returns_sign.bind fun access s1 ⟨haccess, hs1⟩ => ?_
  refine returns_now.bind fun _ s2 hs2 => ?_
  refine returns_sign.bind fun refresh s3 ⟨hrefresh, hs3⟩ => ret ?_
  refine ⟨⟨haccess, hrefresh⟩, rfl, rfl, ?_⟩
  rw [hs3, hs2, hs1]

lemma returns_registerNew {d : DeviceId}
    (hd : cfg.parseUuid deviceId = some d) (hnone : s.devices.get (u, d) = none) :
    Returns cfg P (fun _ s' => s.Registers cfg s' u deviceId 1) (registerNew cfg u deviceId) s := by
  refine returns_registerOrUpdateDevice.mapErr.bind fun device s1 ⟨d', hd', hs1, _⟩ => ret ?_
  cases hd.symm.trans hd'
  refine ⟨d, hd, hs1, ?_⟩
  rw [hnone]
  rfl

lemma returns_login : Returns cfg P (fun x s' => r.user = .ok x.userId ∧ x.deviceId = r.deviceId ∧
        ∃ v, x.opened.Carries v ∧ (s.Registers cfg s' x.userId x.deviceId v ∨
          ∃ d row, cfg.parseUuid r.deviceId = some d ∧ s.devices.get (x.userId, d) = some row ∧
            v = row.sessionVersion ∧ s'.devices = s.devices)) (login cfg r) s := by
  unfold login withUser requireUuid
  split
  · exact fail
  · split
    · exact fail
    · rename_i u hu
      split
      · exact fail
      · refine returns_selectDevice.mapErr.bind fun device s1 ⟨hs1, d, hd, hrow⟩ => ?_
        cases hdevice : device.row with
        | some row =>
          refine Machine.Alone.mono returns_openSession fun x s2 hx b hb => ?_
          obtain ⟨hcarries, rfl, hid, hs2⟩ := hx b hb
          refine ⟨hu, hid, row.sessionVersion, hcarries, Or.inr ⟨d, row, hd, ?_, rfl, ?_⟩⟩
          · rw [← hrow, hdevice]
          · rw [hs2, hs1]
        | none =>
          have hnone : s1.devices.get (u, d) = none := by rw [hs1, ← hrow, hdevice]
          refine (returns_registerNew hd hnone).bind fun _ s2 ⟨d', hd', hs2, hv⟩ => ?_
          refine Machine.Alone.mono returns_openSession fun x s3 hx b hb => ?_
          obtain ⟨hcarries, rfl, hid, hs3⟩ := hx b hb
          refine ⟨hu, hid, 1, hcarries, Or.inl ⟨d', hid ▸ hd', ?_, ?_⟩⟩
          · rw [hs3, hs2, hs1]
          · rw [hv, hs1]

lemma returns_register (hnew : ∀ u, r.user = .ok u → ∀ d, s.devices.get (u, d) = none) :
    Returns cfg P (fun x s' => ∃ v, x.opened.Carries v ∧ s.Registers cfg s' x.userId x.deviceId v)
      (register cfg r) s := by
  unfold register withUser requireUuid
  split
  · exact fail
  · split
    · exact fail
    · rename_i d hd
      split
      · exact fail
      · rename_i u hu
        refine (returns_registerNew hd (hnew u hu d)).bind fun _ s1 ⟨d', hd', hs1, hv⟩ => ?_
        refine Machine.Alone.mono returns_openSession fun x s2 hx b hb => ?_
        obtain ⟨hcarries, rfl, hid, hs2⟩ := hx b hb
        exact ⟨1, hcarries, d', hid ▸ hd', by rw [hs2, hs1], hv⟩

/-! ### Requests one after the other -/

def Job.opened : Job → Reply → Option Opened
  | .issue _, .issued r => some r.opened
  | .issueToken q, .imToken r => some (r.opened q.userId)
  | .login _, .session r => some r.opened
  | .register _, .session r => some r.opened
  | _, _ => none

def Signed.IsOf (cfg : Config) (t : Signed) (u : UserId) (d : DeviceId) : Prop :=
  t.claims.sub = u ∧ cfg.parseUuid t.claims.deviceId = some d

/-- The built-in login does not meet a device that is not active, nor one of which a token is out
that has the current version. -/
def Job.MayOpen (cfg : Config) : Job → Server → Prop
  | .login r, s => ∀ u d row, r.user = .ok u → cfg.parseUuid r.deviceId = some d →
      s.devices.get (u, d) = some row → row.sessionState = 0 ∧
        ∀ t ∈ s.tokens, t.IsOf cfg u d → t.claims.sessionVersion < row.sessionVersion
  | _, _ => True

/-- `TokenIssueService` gets an answer from the database. -/
def Job.Answered : Job → Moment → Prop
  | .issueToken _, o => o.fault = none
  | _, _ => True

/-- The requests of a history that meet both conditions have led from one state to the other. -/
inductive Reaches (cfg : Config) (s : Server) : Server → Prop
  | refl : Reaches cfg s s
  | serve {s1 s2 : Server} (j : Job) (r : Except AuthError Reply) : Reaches cfg s s1 →
      j.admits s1 = true → j.MayOpen cfg s1 →
      (machine cfg).EndsIn j.Answered (progOf cfg j) s1 r s2 → Reaches cfg s s2

lemma Reaches.sound (h : Reaches cfg s s') (hs : s.Sound cfg true) : s'.Sound cfg true := by
  induction h with
  | refl => exact hs
  | serve j r _ hadmits _ hend ih =>
    have hgiven : ∀ op o (s : Server), j.Answered o → (terms cfg true).given 0 j op o s := by
      intro op o _ ho
      change Given true j op o
      unfold Given
      split
      · exact fun _ => ho
      · trivial
    exact (Keeps.endsIn (upholds cfg true) (behaves_progOf hadmits) ih hgiven hend).2.1

lemma Server.Sound.le_of_isOf (h : s.Sound cfg true) {t : Signed} (ht : t ∈ s.tokens)
    {d : DeviceId} (hof : t.IsOf cfg u d) :
    ∃ row, s.devices.get (u, d) = some row ∧ t.claims.sessionVersion ≤ row.sessionVersion := by
  obtain ⟨hu, hd⟩ := hof
  have hv := h.vouched t ht
  obtain ⟨k, hk⟩ := Option.ne_none_iff_exists'.mp (hv.read rfl)
  obtain ⟨row, ⟨tab, d', htab, hd', hrow⟩, hle⟩ := hv.backed k hk
  cases hd.symm.trans hd'
  obtain ⟨row', hrow', hle'⟩ := (h.grows_now htab).kept _ _ hrow
  exact ⟨row', hu ▸ hrow', hle.trans hle'⟩

/-- The device is active afterwards, above all versions that were signed for it before. -/
def Server.Reopens (cfg : Config) (s s' : Server) (u : UserId) (deviceId : String) (v : ℤ) : Prop :=
  ∃ d, cfg.parseUuid deviceId = some d ∧ s'.devices.get (u, d) = some ⟨v, 0⟩ ∧
    ∀ t ∈ s.tokens, t.IsOf cfg u d → t.claims.sessionVersion < v

lemma Server.Registers.reopens {v : ℤ} (h : s.Registers cfg s' u deviceId v) (hS : s.Sound cfg true)
    (hstate : ∀ d row, cfg.parseUuid deviceId = some d → s.devices.get (u, d) = some row →
      row.sessionState = 0 ∨ row.sessionState = 1 ∨ row.sessionState = 3) :
    s.Reopens cfg s' u deviceId v := by
  obtain ⟨d, hd, hs', rfl⟩ := h
  refine ⟨d, hd, ?_, fun t ht hof => ?_⟩
  · rw [hs', Devices.registerOrUpdate, Table.get_put_self]
    cases hrow : s.devices.get (u, d) with
    | none => rfl
    | some row =>
      have hback : (Devices.registered (some row)).sessionState = 0 := by
        rcases hstate d row hd hrow with h0 | h1 | h3
        · simp [Devices.registered, h0]
        · simp [Devices.registered, h1]
        · simp [Devices.registered, h3]
      rw [← hback]
  · obtain ⟨row, hrow, hle⟩ := hS.le_of_isOf ht hof
    rw [hrow]
    exact Int.lt_add_one_of_le hle

lemma reopens_of_opened (hS : s.Sound cfg true) {j : Job} (hadmits : j.admits s = true)
    (hmay : j.MayOpen cfg s) {reply : Reply}
    (hend : (machine cfg).EndsIn j.Answered (progOf cfg j) s (.ok reply) s') {x : Opened}
    (hx : j.opened reply = some x)
    (hstate : ∀ d row, cfg.parseUuid x.deviceId = some d → s.devices.get (x.userId, d) = some row →
      row.sessionState = 0 ∨ row.sessionState = 1 ∨ row.sessionState = 3) :
    ∃ v, x.Carries v ∧ s.Reopens cfg s' x.userId x.deviceId v := by
  have hfinish : Returns cfg j.Answered (fun y s' => ∀ x, j.opened y = some x →
      ∃ v, x.Carries v ∧ s.Registers cfg s' x.userId x.deviceId v) (progOf cfg j) s →
      ∃ v, x.Carries v ∧ s.Reopens cfg s' x.userId x.deviceId v := by
    intro hret
    obtain ⟨v, hcarries, hreg⟩ := hret.endsIn hend reply rfl x hx
    exact ⟨v, hcarries, hreg.reopens hS hstate⟩
  cases j with
  | issue p =>
    refine hfinish (returns_issue.bind fun r _ hr => ret ?_)
    rintro x ⟨⟩
    exact hr
  | issueToken q =>
    refine hfinish ((returns_issueToken fun _ ho => ho).bind fun r _ hr => ret ?_)
    rintro x ⟨⟩
    exact hr
  | register q =>
    have hnew : ∀ u, q.user = .ok u → ∀ d, s.devices.get (u, d) = none :=
      fun u hu => Job.admits_register hadmits hu
    refine hfinish ((returns_register hnew).bind fun r _ hr => ret ?_)
    rintro x ⟨⟩
    exact hr
  | login q =>
    have hret : Returns cfg (Job.login q).Answered (fun y s' => ∃ r, y = .session r ∧
        q.user = .ok r.userId ∧ r.deviceId = q.deviceId ∧
        ∃ v, r.opened.Carries v ∧ (s.Registers cfg s' r.userId r.deviceId v ∨
          ∃ d row, cfg.parseUuid q.deviceId = some d ∧ s.devices.get (r.userId, d) = some row ∧
            v = row.sessionVersion ∧ s'.devices = s.devices)) (progOf cfg (.login q)) s :=
      returns_login.bind fun r _ hr => ret ⟨r, rfl, hr⟩
    obtain ⟨r, rfl, hu, hid, v, hcarries, hreg | ⟨d, row, hd, hrow, rfl, hsame⟩⟩ :=
      hret.endsIn hend reply rfl
    · cases hx
      exact ⟨v, hcarries, hreg.reopens hS hstate⟩
    · cases hx
      obtain ⟨hactive, hbelow⟩ := hmay r.userId d row hu hd hrow
      have hid' : r.opened.deviceId = q.deviceId := hid
      refine ⟨row.sessionVersion, hcarries, d, hid' ▸ hd, ?_, hbelow⟩
      change s'.devices.get (r.userId, d) = _
      rw [hsame, hrow, ← hactive]
  | _ => cases hx

/-- **A login opens a usable session and closes the one before**, in every history in which the
built-in login only meets devices that are not there, or active with all their tokens outdated,
and in which `TokenIssueService` is able to write the device. The tokens that a request has
returned pass as long as the row stays as the request has left it, and all that were signed before
for the device fail. -/
theorem session_opens_and_supersedes (cfg : Config) (devices : Devices)
    (records : Table Jti RefreshTokenRecord) (s s1 s2 : Server)
    (hreach : Reaches cfg (start devices records []) s) (j : Job) (hadmits : j.admits s = true)
    (hmay : j.MayOpen cfg s) (reply : Reply)
    (hend : (machine cfg).EndsIn j.Answered (progOf cfg j) s (.ok reply) s1) (x : Opened)
    (hx : j.opened reply = some x)
    (hstate : ∀ d row, cfg.parseUuid x.deviceId = some d → s.devices.get (x.userId, d) = some row →
      row.sessionState = 0 ∨ row.sessionState = 1 ∨ row.sessionState = 3)
    (huntouched : ∀ d, cfg.parseUuid x.deviceId = some d →
      s2.devices.get (x.userId, d) = s1.devices.get (x.userId, d)) :
    s2.passes cfg x.access = true ∧ s2.passes cfg x.refresh = true ∧
      ∀ t ∈ s.tokens, t.claims.sub = x.userId →
        cfg.parseUuid t.claims.deviceId = cfg.parseUuid x.deviceId →
        s2.passes cfg t.claims = false := by
  have hS : s.Sound cfg true := hreach.sound (sound_start nofun)
  obtain ⟨v, hcarries, d, hd, hrow, hbelow⟩ := reopens_of_opened hS hadmits hmay hend hx hstate
  rw [← huntouched d hd] at hrow
  have hpasses : ∀ token : UnifiedTokenClaims, token.sub = x.userId ∧
      token.deviceId = x.deviceId ∧ token.sessionVersion = v → s2.passes cfg token = true := by
    rintro token ⟨hsub, hid, hv⟩
    unfold passes
    rw [hid, hd, hsub, hv]
    exact isValid_verifySession.mpr ⟨⟨v, 0⟩, hrow, rfl, le_rfl⟩
  refine ⟨hpasses _ hcarries.access, hpasses _ hcarries.refresh, fun t ht hsub hid => ?_⟩
  rw [hd] at hid
  exact passes_eq_false_of_lt hid (hsub ▸ hrow) (hbelow t ht ⟨hsub, hid⟩)

/-- A request is served with nobody beside it, and nothing goes wrong. -/
def sampleServe (uuid : ℕ) (j : Job) (s : Server) : Except AuthError Reply × Server :=
  (machine sampleConfig).evalIn ⟨1000, uuid, none, false⟩ (progOf sampleConfig j) s

def sampleOpened (uuid : ℕ) (j : Job) (s : Server) : Option Opened :=
  (sampleServe uuid j s).1.toOption.bind j.opened

def sampleStart : Server := (sampleServe 0 (.issue sampleIssue) (start .empty .empty [])).2

theorem session_opens_and_supersedes_sample :
    sampleStart.tokens.length = 2 ∧ ∃ x, sampleOpened 1 (.issue sampleIssue) sampleStart = some x ∧
      (sampleServe 1 (.issue sampleIssue) sampleStart).2.passes sampleConfig x.access = true ∧
      ∀ t ∈ sampleStart.tokens,
        (sampleServe 1 (.issue sampleIssue) sampleStart).2.passes sampleConfig t.claims = false :=
          by
  have hopened : (sampleOpened 1 (.issue sampleIssue) sampleStart).isSome = true := by
    decide +kernel
  obtain ⟨x, hx⟩ := Option.isSome_iff_exists.mp hopened
  have hfor : ∀ x ∈ sampleOpened 1 (.issue sampleIssue) sampleStart,
      x.userId = 1 ∧ x.deviceId = "phone" := by
    decide +kernel
  obtain ⟨hu, hid⟩ := hfor x hx
  obtain ⟨reply, hreply, hx'⟩ := Option.bind_eq_some_iff.mp hx
  have hok : (sampleServe 1 (.issue sampleIssue) sampleStart).1 = .ok reply := by
    cases hr : (sampleServe 1 (.issue sampleIssue) sampleStart).1 with
    | ok a =>
      rw [hr] at hreply
      cases hreply
      rfl
    | error e =>
      rw [hr] at hreply
      cases hreply
  have hreach : Reaches sampleConfig (start .empty .empty []) sampleStart :=
    .serve (.issue sampleIssue) _ .refl rfl trivial (Machine.endsIn_evalIn trivial _ _)
  have hend := Machine.endsIn_evalIn (M := machine sampleConfig)
    (P := (Job.issue sampleIssue).Answered) (o := ⟨1000, 1, none, false⟩) trivial
    (progOf sampleConfig (.issue sampleIssue)) sampleStart
  change (machine sampleConfig).EndsIn _ _ _ (sampleServe 1 (.issue sampleIssue) sampleStart).1 _
    at hend
  rw [hok] at hend
  have hrow : ∀ row ∈ sampleStart.devices.get (1, 1), row.sessionState = 0 := by decide +kernel
  have htokens : ∀ t ∈ sampleStart.tokens, t.claims.sub = 1 ∧ t.claims.deviceId = "phone" := by
    decide +kernel
  obtain ⟨haccess, -, hold⟩ := session_opens_and_supersedes sampleConfig .empty .empty sampleStart
    _ _ hreach (.issue sampleIssue) rfl trivial reply hend x hx' (fun d row hd hget => by
      rw [hid] at hd
      cases hd
      rw [hu] at hget
      exact Or.inl (hrow row hget)) fun _ _ => rfl
  refine ⟨by decide +kernel, x, hx, haccess, fun t ht => hold t ht ?_ ?_⟩
  · rw [hu, (htokens t ht).1]
  · rw [hid, (htokens t ht).2]

/-- A user that logs in with the built-in account. -/
def sampleLogin : Job := .login ⟨.ok 1, "phone", "app"⟩

/-- The server after a first login, and after the device was kicked then. -/
def sampleLoggedIn : Server := (sampleServe 0 sampleLogin (start .empty .empty [])).2

def sampleKicked : Server := (sampleServe 0 (.kickDevice 1 "phone" none) sampleLoggedIn).2

/-- After a second login on a device, the tokens of the first pass as before. After a login on a
device that was kicked, the tokens it has returned do not pass. -/
theorem login_keeps_old_session_and_kick :
    ((sampleOpened 0 sampleLogin (start .empty .empty [])).any fun x =>
      (sampleOpened 1 sampleLogin sampleLoggedIn).isSome &&
        (sampleServe 1 sampleLogin sampleLoggedIn).2.passes sampleConfig x.access) = true ∧
    ((sampleOpened 1 sampleLogin sampleKicked).any fun x =>
      !(sampleServe 1 sampleLogin sampleKicked).2.passes sampleConfig x.access) = true := by
  decide +kernel

end PrivChat.Auth
