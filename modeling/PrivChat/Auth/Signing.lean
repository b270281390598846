import PrivChat.Auth.Trail

/-!
Whatever signs a token has read the version it signs: every request keeps to the terms. So a
token of an old version never passes again.
-/

namespace PrivChat.Auth

open Db Tasks Server
open Channels

variable {cfg : Config} {strict : Bool} {i : ℕ} {j : Job} {β γ : Type} {s : Server}

variable {T : Terms Server Op Moment Job}

lemma yields_orFail {φ : β → Server → Prop} {r : Answer β}
    {error : String → ServerError} (h : ∀ b, r = .ok b → ∀ s', T.moves s s' → T.inv s' → φ b s') :
    Tasks.Yields (machine cfg) T i j φ (orFail error r) s := by
  cases r with
  | ok b => exact Tasks.Yields.ret (h b rfl)
  | error e => exact Tasks.Yields.fail

lemma yields_orRefuse {φ : Signed → Server → Prop}
    {r : Except VerifyError Signed} {error : VerifyError → AuthError}
    (h : ∀ b, r = .ok b → ∀ s', T.moves s s' → T.inv s' → φ b s') :
    Tasks.Yields (machine cfg) T i j φ (orRefuse error r) s := by
  cases r with
  | ok b => exact Tasks.Yields.ret (h b rfl)
  | error e => exact Tasks.Yields.fail

/-- The code keeps to the terms, and what it returns is as `φ` says. -/
def Gives (cfg : Config) (strict : Bool) (i : ℕ) (j : Job) (φ : β → Server → Prop)
    (t : AuthProg β) (s : Server) : Prop :=
  Tasks.Yields (machine cfg) (terms cfg strict) i j φ t s

namespace Gives

variable {φ : β → Server → Prop} {ψ : γ → Server → Prop} {t : AuthProg β}

lemma bind {g : β → AuthProg γ} (h : Gives cfg strict i j φ t s)
    (hg : ∀ b s', s.Follows s' → s'.Sound cfg strict → φ b s' → Gives cfg strict i j ψ (g b) s') :
    Gives cfg strict i j ψ (t >>= g) s :=
  Tasks.Yields.bind (upholds cfg strict) h hg

lemma call {op : Op} {k : op.Res → AuthProg β}
    (ho : ∀ s', s.Follows s' → s'.Sound cfg strict → Owes cfg strict op s')
    (hk : ∀ o s', s.Follows s' → s'.Sound cfg strict → Given strict j op o →
      Gives cfg strict i j φ (k (s'.respond cfg o op)) (s'.after cfg o op)) :
    Gives cfg strict i j φ (.call op k) s :=
  Tasks.Yields.call (upholds cfg strict) ho hk

lemma mapErr {f : AuthError → AuthError} (h : Gives cfg strict i j φ t s) :
    Gives cfg strict i j φ (t.mapErr f) s := Tasks.Yields.mapErr (upholds cfg strict) h

lemma attempt (h : Gives cfg strict i j φ t s) :
    Gives cfg strict i j (fun r s' => ∀ b, r = .ok b → φ b s') t.attempt s :=
  Tasks.Yields.attempt (upholds cfg strict) h

lemma any (h : Gives cfg strict i j φ t s) : Gives cfg strict i j (fun _ _ => True) t s :=
  Tasks.Yields.mono (upholds cfg strict) h fun _ _ _ _ _ => trivial

end Gives

open Gives
open Yields (ret fail)

abbrev Behaves (cfg : Config) (strict : Bool) (i : ℕ) (j : Job) (t : AuthProg β) (s : Server) :
    Prop :=
  Gives cfg strict i j (fun _ _ => True) t s

lemma behaves_ret {b : β} : Behaves cfg strict i j (.ret b) s := ret fun _ _ _ => trivial

variable {o : Moment}

lemma Moment.answer_eq_ok {b b' : β} (h : o.answer b = .ok b') : o.fault = none ∧ b' = b := by
  unfold Moment.answer at h
  split at h
  · rename_i hf
    cases h
    exact ⟨hf, rfl⟩
  · cases h

lemma behaves_now : Behaves cfg strict i j now s :=
  call (fun _ _ _ => trivial) fun _ _ _ _ _ => behaves_ret

variable {typ : TokenType} {readAt : Option ℕ}

lemma behaves_sign {params : IssueClaims}
    (h : s.Vouched cfg strict readAt params.userId params.deviceId params.sessionVersion) :
    Behaves cfg strict i j (sign typ params readAt) s :=
  call (fun _ hs _ => h.later hs) fun _ _ _ _ _ => behaves_ret

variable {token : UnifiedTokenClaims}

lemma Config.verify_eq_ok {tokens : List Signed}
    {now : Seconds} {signed : Signed} (h : cfg.verify tokens token typ now = .ok signed) :
    signed ∈ tokens ∧ signed.claims = token ∧ token.tokenType = typ := by
  unfold Config.verify at h
  split at h
  · cases h
  · rename_i found hfind
    split_ifs at h with _ _ _ htyp
    cases h
    exact ⟨List.mem_of_find?_eq_some hfind, by simpa using List.find?_some hfind, not_not.mp htyp⟩

lemma yields_verify {error : VerifyError → AuthError} :
    Gives cfg strict i j (fun signed s' => signed ∈ s'.tokens) (verify token typ error) s := by
  refine call (fun _ _ _ => trivial) fun o s1 _ _ _ => yields_orRefuse fun signed hr s2 hs2 _ => ?_
  exact hs2.tokens ((s1.follows_after o _).tokens (Config.verify_eq_ok hr).1)

/-! ### Devices -/

variable {deviceId : String}

lemma yields_deviceUuid : Gives cfg strict i j (fun d _ => cfg.parseUuid deviceId = some d)
      (deviceUuid cfg deviceId) s := by
  unfold deviceUuid
  split
  · rename_i d hd
    exact ret fun _ _ _ => hd
  · exact fail

variable {u : UserId}

lemma yields_selectDevice :
    Gives cfg strict i j (fun found s' => s'.Seen cfg found.readAt u deviceId found.row)
      (selectDevice cfg u deviceId) s := by
  refine yields_deviceUuid.bind fun d s1 _ _ hd => call (fun _ _ _ => trivial) ?_
  intro o s2 _ _ _
  refine yields_orFail fun found hfound s3 hs3 _ => ?_
  obtain ⟨-, rfl⟩ := Moment.answer_eq_ok hfound
  exact Seen.later ⟨s2.devices, d, s2.getElem?_trail_now, hd, rfl⟩
    ((s2.follows_after o _).trans hs3)

variable {v : ℤ}

lemma yields_verifyDeviceSession : Gives cfg strict i j
      (fun x s' => ∃ row, s'.Seen cfg x.2 u deviceId row ∧ x.1 = verifySession row v)
      (verifyDeviceSession cfg u deviceId v) s :=
  yields_selectDevice.bind fun found _ _ _ hseen =>
    ret fun _ hs _ => ⟨found.row, hseen.later hs, rfl⟩

variable {kickedBy : Option String} {d : DeviceId}

lemma Server.seen_registered (hd : cfg.parseUuid deviceId = some d)
    (hfault : o.fault = none) : (s.after cfg o (.upsertDevice u d)).Seen cfg (s.past.length + 1) u
      deviceId (some (Devices.registered (s.devices.get (u, d)))) := by
  refine ⟨_, d, s.getElem?_trail_after, hd, ?_⟩
  simp [Server.after, Moment.takesEffect, hfault, devicesAfter, Devices.registerOrUpdate]

/-- The device is found with the version that is answered, in a table that is not older than the
call. -/
lemma yields_registerOrUpdateDevice : Gives cfg strict i j
      (fun device s' => s.trail.length ≤ device.readAt ∧
        ∃ row, s'.Seen cfg device.readAt u deviceId (some row) ∧
          row.sessionVersion = device.sessionVersion)
      (registerOrUpdateDevice cfg u deviceId) s := by
  refine yields_deviceUuid.bind fun d s1 hs1 _ hd => call (fun _ _ _ => trivial) ?_
  intro o s2 hs2 _ _
  refine yields_orFail fun device hdevice s3 hs3 _ => ?_
  obtain ⟨hfault, rfl⟩ := Moment.answer_eq_ok hdevice
  have hlen : s.trail.length ≤ s2.past.length + 1 := by
    have := (hs1.trans hs2).trail.length_le
    simpa [trail] using this
  exact ⟨hlen, _, (Server.seen_registered hd hfault).later hs3, rfl⟩

/-- A device that was not there has at least the first version once it is registered. -/
lemma yields_registerNew {k : ℕ} (hnone : s.Seen cfg k u deviceId none) :
    Gives cfg strict i j (fun readAt s' => s'.Backed cfg readAt u deviceId 1)
      (registerNew cfg u deviceId) s := by
  refine yields_registerOrUpdateDevice.mapErr.bind fun device s1 hs1 hI ⟨hlen, row, hseen, _⟩ => ?_
  have hk : k ≤ device.readAt := by
    obtain ⟨t, d, ht, -, -⟩ := hnone
    have := (List.getElem?_eq_some_iff.mp ht).1
    omega
  have hback := hI.backed_one hk (hnone.later hs1) hseen
  exact ret fun s2 hs2 _ => hback.later hs2

lemma behaves_statement {op : Op} {k : op.Res → AuthProg β} (ho : ∀ s', Owes cfg strict op s')
    (hk : ∀ r s', s.Follows s' → s'.Sound cfg strict → Behaves cfg strict i j (k r) s') :
    Behaves cfg strict i j (.call op k) s :=
  call (fun s' _ _ => ho s') fun o s' hs hI _ => (hk _ s' hs hI).later (s'.follows_after o op)

lemma behaves_orFail {r : Answer β} {error : String → ServerError} :
    Behaves cfg strict i j (orFail error r) s := yields_orFail fun _ _ _ _ _ => trivial

lemma behaves_kickOtherDevices : Behaves cfg strict i j (kickOtherDevices cfg u deviceId) s := by
  refine yields_deviceUuid.bind fun d s1 _ _ _ => behaves_statement (fun _ => trivial) ?_
  intro r s2 _ _
  refine behaves_orFail.bind fun devices s3 _ _ _ => ?_
  cases devices with
  | nil => exact behaves_ret
  | cons x xs =>
    exact behaves_statement (fun _ => trivial) fun _ _ _ _ =>
      behaves_orFail.bind fun _ _ _ _ _ => behaves_ret

lemma behaves_checkKicker : Behaves cfg strict i j (checkKicker cfg kickedBy) s := by
  cases kickedBy with
  | none => exact behaves_ret
  | some deviceId => exact yields_deviceUuid.bind fun _ _ _ _ _ => behaves_ret

lemma behaves_kickDevice : Behaves cfg strict i j (kickDevice cfg u deviceId kickedBy) s := by
  refine yields_deviceUuid.bind fun d s1 _ _ _ => behaves_checkKicker.bind fun _ s2 _ _ _ => ?_
  refine behaves_statement (fun _ => trivial) fun r s3 _ _ => ?_
  refine behaves_orFail.bind fun found s4 _ _ _ => ?_
  cases found with
  | true => exact behaves_ret
  | false => exact fail

lemma behaves_incrementSessionVersion :
    Behaves cfg strict i j (incrementSessionVersion cfg u deviceId) s :=
  yields_deviceUuid.bind fun _ _ _ _ _ =>
    behaves_statement (fun _ => trivial) fun _ _ _ _ => behaves_orFail

lemma behaves_logout {deviceId : Option String} :
    Behaves cfg strict i j (logout cfg u deviceId) s := by
  cases deviceId with
  | none => exact behaves_ret
  | some deviceId =>
    exact behaves_incrementSessionVersion.attempt.bind fun _ _ _ _ _ => behaves_ret

lemma yields_chooseDeviceId {deviceId : Option String} :
    Gives cfg strict i j (fun d _ => (cfg.parseUuid d).isSome) (chooseDeviceId cfg deviceId) s := by
  cases deviceId with
  | none =>
    exact call (fun _ _ _ => trivial) fun o _ _ _ _ => ret fun _ _ _ => cfg.parse_uuidText o.uuid
  | some d =>
    cases hd : cfg.parseUuid d with
    | none =>
      simp only [chooseDeviceId, hd]
      exact fail
    | some d' =>
      simp only [chooseDeviceId, hd]
      exact ret fun _ _ _ => Option.isSome_of_eq_some hd

lemma behaves_issue {p : IssueParams} : Behaves cfg strict i j (issue cfg p) s := by
  unfold issue
  split
  · exact fail
  · refine yields_chooseDeviceId.bind fun deviceId s1 _ _ _ => ?_
    refine yields_registerOrUpdateDevice.bind fun device s2 _ _ ⟨_, row, hseen, hv⟩ => ?_
    have hback : s2.Backed cfg device.readAt p.userId deviceId device.sessionVersion :=
      ⟨row, hseen, hv.ge⟩
    refine (behaves_sign hback.vouched).bind fun _ s3 hs3 _ _ => ?_
    refine (behaves_sign (hback.later hs3).vouched).bind fun _ s4 _ _ _ => ?_
    refine behaves_now.bind fun _ s5 _ _ _ => ?_
    exact behaves_statement (fun _ => trivial) fun _ _ _ _ =>
      behaves_orFail.bind fun _ _ _ _ _ => behaves_ret

lemma registerOrUpdateDevice_eq
    (hd : cfg.parseUuid deviceId = some d) : registerOrUpdateDevice cfg u deviceId =
      .call (.upsertDevice u d) (orFail fun e => .database s!"注册设备失败: {e}") := by
  unfold registerOrUpdateDevice deviceUuid
  rw [hd]
  rfl

variable {r : IssueTokenRequest}

lemma yields_registerOrAssume (hd : (cfg.parseUuid deviceId).isSome) :
    Gives cfg strict i (.issueToken r)
      (fun x s' => s'.Vouched cfg strict x.readAt u deviceId x.sessionVersion)
      (registerOrAssume cfg u deviceId) s := by
  obtain ⟨d, hd⟩ := Option.isSome_iff_exists.mp hd
  rw [registerOrAssume, registerOrUpdateDevice_eq hd]
  refine call (fun _ _ _ => trivial) fun o s1 _ _ hg => ?_
  cases hf : o.fault with
  | none =>
    have hback : (s1.after cfg o (.upsertDevice u d)).Backed cfg (s1.past.length + 1) u deviceId
        (Devices.registered (s1.devices.get (u, d))).sessionVersion :=
      ⟨_, Server.seen_registered hd hf, le_rfl⟩
    simp only [respond, Moment.answer, hf, orFail]
    exact ret fun s2 hs2 _ => (hback.later hs2).vouched
  | some e =>
    simp only [respond, Moment.answer, hf, orFail]
    refine ret fun _ _ _ => ⟨fun _ h => (by cases h), fun hs => ?_⟩
    have hok : o.fault = none := hg hs
    rw [hf] at hok
    cases hok

lemma behaves_issueToken : Behaves cfg strict i (.issueToken r) (issueToken cfg r) s := by
  unfold issueToken
  split
  · exact fail
  · split
    · exact fail
    · refine yields_chooseDeviceId.bind fun deviceId s1 _ _ hd => ?_
      refine (yields_registerOrAssume hd).bind fun standing s2 _ _ hv => ?_
      refine (behaves_sign hv).bind fun _ s3 hs3 _ _ => ?_
      refine (behaves_sign (hv.later hs3)).bind fun _ s4 _ _ _ => ?_
      exact yields_verify.bind fun _ _ _ _ _ => behaves_now.bind fun _ _ _ _ _ => behaves_ret

variable {r : LoginRequest}

lemma behaves_openSession (h : s.Vouched cfg strict readAt u r.deviceId v) :
    Behaves cfg strict i j (openSession cfg r u v readAt) s := by
  refine (behaves_sign h).bind fun _ s1 hs1 _ _ => behaves_now.bind fun _ s2 hs2 _ _ => ?_
  exact (behaves_sign (h.later (hs1.trans hs2))).bind fun _ _ _ _ _ => behaves_ret

lemma behaves_login : Behaves cfg strict i j (login cfg r) s := by
  unfold login withUser requireUuid
  split
  · exact fail
  · split
    · exact fail
    · rename_i u _
      split
      · exact fail
      · refine yields_selectDevice.mapErr.bind fun device s1 _ _ hseen => ?_
        cases hrow : device.row with
        | some row =>
          have hback : s1.Backed cfg device.readAt u r.deviceId row.sessionVersion :=
            ⟨row, hrow ▸ hseen, le_rfl⟩
          exact behaves_openSession hback.vouched
        | none =>
          refine (yields_registerNew (hrow ▸ hseen)).bind fun readAt s2 _ _ hback => ?_
          exact behaves_openSession hback.vouched

lemma behaves_register (hnew : ∀ u, r.user = .ok u → ∀ d, s.devices.get (u, d) = none) :
    Behaves cfg strict i j (register cfg r) s := by
  unfold register withUser requireUuid
  split
  · exact fail
  · split
    · exact fail
    · rename_i d hd
      split
      · exact fail
      · rename_i u hu
        have hnone : s.Seen cfg s.past.length u r.deviceId none :=
          ⟨s.devices, d, s.getElem?_trail_now, hd, hnew u hu d⟩
        refine (yields_registerNew hnone).bind fun readAt s2 _ _ hback => ?_
        exact behaves_openSession hback.vouched

variable {claims : UnifiedTokenClaims} {jti : Jti}

lemma behaves_findByJti : Behaves cfg strict i j (findByJti jti) s :=
  behaves_statement (fun _ => trivial) fun _ _ _ _ => behaves_orFail

lemma behaves_liveRecord : Behaves cfg strict i j (liveRecord cfg token) s := by
  refine behaves_findByJti.bind fun record s1 _ _ _ => ?_
  cases record with
  | none => exact fail
  | some record =>
    dsimp only
    split_ifs
    · exact fail
    · exact fail
    · refine behaves_now.bind fun _ _ _ _ _ => ?_
      split_ifs
      · exact fail
      · exact behaves_ret

lemma Server.Vouched.renewed {k : ℕ} {c : ℤ}
    (h : s.Vouched cfg strict readAt u deviceId v) {row : Option DeviceRow}
    (hseen : s.Seen cfg k u deviceId row) (hvalid : verifySession row v = .valid c) :
    s.Vouched cfg strict (some (readAt.getD k)) u deviceId c := by
  obtain ⟨device, rfl, -, rfl, hle⟩ := verifySession_eq_valid.mp hvalid
  apply Backed.vouched
  cases readAt with
  | none => exact ⟨device, hseen, le_rfl⟩
  | some k' =>
    obtain ⟨row, hrow, hv⟩ := h.backed k' rfl
    exact ⟨row, hrow, hle.trans hv⟩

lemma behaves_refresh : Behaves cfg strict i j (refresh cfg token deviceId) s := by
  refine yields_verify.bind fun signed s1 _ hI1 hsigned => ?_
  split_ifs
  · exact fail
  · refine behaves_liveRecord.bind fun live s2 hs2 _ _ => ?_
    refine yields_verifyDeviceSession.bind fun check s3 hs3 _ ⟨row, hseen, hcheck⟩ => ?_
    have hv := (hI1.vouched signed hsigned).later (hs2.trans hs3)
    obtain ⟨result, k⟩ := check
    cases result with
    | valid c =>
      refine (behaves_sign (hv.renewed hseen hcheck.symm)).bind fun _ _ _ _ _ => ?_
      exact behaves_statement (fun _ => trivial) fun _ _ _ _ =>
        behaves_orFail.bind fun _ _ _ _ _ => behaves_ret
    | deviceNotFound | sessionInactive _ _ | versionMismatch _ _ => exact fail

lemma behaves_refreshRpc : Behaves cfg strict i j (refreshRpc cfg token deviceId) s := by
  unfold refreshRpc requireUuid
  split
  · exact fail
  · split
    · exact fail
    · refine yields_verify.bind fun signed s1 _ hI1 hsigned => ?_
      split_ifs
      · exact fail
      · refine yields_verifyDeviceSession.mapErr.bind fun check s2 hs2 _ _ => ?_
        have hv := (hI1.vouched signed hsigned).later hs2
        cases check.1 with
        | valid c =>
          exact (behaves_sign hv).bind fun _ _ _ _ _ =>
            behaves_now.bind fun _ _ _ _ _ => behaves_ret
        | deviceNotFound | sessionInactive _ _ | versionMismatch _ _ => exact fail

lemma behaves_introspectVerify : Behaves cfg strict i j (introspectVerify token) s := by
  refine behaves_statement (fun _ => trivial) fun r s1 _ _ => ?_
  split
  · exact behaves_ret
  · exact behaves_ret
  · refine behaves_statement (fun _ => trivial) fun r s2 _ _ => ?_
    split <;> exact behaves_ret

lemma behaves_introspectSession : Behaves cfg strict i j (introspectSession cfg claims) s := by
  refine yields_verifyDeviceSession.attempt.bind fun r s1 _ _ _ => ?_
  split <;> exact behaves_ret

lemma behaves_introspectRecord : Behaves cfg strict i j (introspectRecord jti) s := by
  refine behaves_findByJti.attempt.bind fun r s1 _ _ _ => ?_
  split
  · split
    · exact behaves_ret
    · refine behaves_now.bind fun _ _ _ _ _ => ?_
      split <;> exact behaves_ret
  · exact behaves_ret
  · exact behaves_ret

lemma behaves_introspectKind : Behaves cfg strict i j (introspectKind claims) s := by
  unfold introspectKind
  split
  · exact behaves_ret
  · refine behaves_introspectRecord.bind fun r s1 _ _ _ => ?_
    split <;> exact behaves_ret

lemma behaves_introspect : Behaves cfg strict i j (introspect cfg token) s := by
  refine behaves_introspectVerify.bind fun r s1 _ _ _ => ?_
  split
  · exact behaves_ret
  · refine behaves_introspectSession.bind fun r s2 _ _ _ => ?_
    split
    · exact behaves_ret
    · exact behaves_introspectKind

lemma behaves_revoke {req : RevokeRequest} : Behaves cfg strict i j (revoke req) s :=
  behaves_now.bind fun _ _ _ _ _ =>
    behaves_statement (fun _ => trivial) fun _ _ _ _ => behaves_orFail

lemma Job.admits_register (h : (Job.register r).admits s = true)
    (hu : r.user = .ok u) (d : DeviceId) : s.devices.get (u, d) = none := by
  simp only [Job.admits, hu] at h
  simp only [Bool.not_eq_true', Table.any_eq_false, decide_eq_false_iff_not] at h
  cases hrow : s.devices.get (u, d) with
  | none => rfl
  | some row => exact absurd rfl (h (u, d) row hrow)

lemma behaves_progOf (hadmits : j.admits s = true) : Behaves cfg strict i j (progOf cfg j) s := by
  have hthen : ∀ {γ : Type} {t : AuthProg γ} {f : γ → Reply}, Behaves cfg strict i j t s →
      Behaves cfg strict i j (t >>= fun b => pure (f b)) s :=
    fun h => h.bind fun _ _ _ _ _ => behaves_ret
  cases j with
  | issue p => exact hthen behaves_issue
  | issueToken r => exact hthen behaves_issueToken
  | login r => exact hthen behaves_login
  | register r => exact hthen (behaves_register fun u hu => Job.admits_register hadmits hu)
  | refresh token deviceId => exact hthen behaves_refresh
  | refreshRpc token deviceId => exact hthen behaves_refreshRpc
  | introspect token => exact hthen behaves_introspect
  | revoke req => exact hthen behaves_revoke
  | registerOrUpdateDevice u deviceId => exact hthen yields_registerOrUpdateDevice.any
  | verifyDeviceSession u deviceId v => exact hthen yields_verifyDeviceSession.any
  | kickOtherDevices u deviceId => exact hthen behaves_kickOtherDevices
  | kickDevice u deviceId kickedBy => exact hthen behaves_kickDevice
  | bumpUserSessions u =>
    exact hthen (behaves_statement (fun _ => trivial) fun _ _ _ _ => behaves_orFail)
  | revokeAllDevices u =>
    exact hthen (behaves_statement (fun _ => trivial) fun _ _ _ _ => behaves_orFail)
  | logout u deviceId => exact hthen behaves_logout

lemma serves (cfg : Config) (strict : Bool) :
    Serves (machine cfg) (terms cfg strict) fun _ _ _ => True := by
  intro i j s _ hadmits
  exact Keeps.mono (upholds cfg strict) (behaves_progOf hadmits) fun _ _ _ _ _ => trivial

/-! ### The fence -/

variable {s' : Server}

lemma Server.passes_eq_false_of_lt {row : DeviceRow}
    (hd : cfg.parseUuid token.deviceId = some d) (hrow : s.devices.get (token.sub, d) = some row)
    (hlt : token.sessionVersion < row.sessionVersion) : s.passes cfg token = false := by
  unfold passes
  rw [hd]
  refine Bool.eq_false_iff.mpr fun hvalid => ?_
  obtain ⟨device, hdevice, -, hle⟩ := isValid_verifySession.mp hvalid
  rw [hrow] at hdevice
  cases hdevice
  omega

/-- The version that was read stays below, once an update has taken the session away. -/
lemma Server.Sound.lt_of_revokes {op : Op} (hop : op.revokes = true)
    (hchanged : (s.after cfg o op).devices.get (u, d) ≠ s.devices.get (u, d))
    (hS' : s'.Sound cfg strict) (hfollows : (s.after cfg o op).Follows s') {k : ℕ}
    (hk : k ≤ s.past.length) (hd : cfg.parseUuid deviceId = some d)
    (hback : s'.Backed cfg k u deviceId v) :
    ∃ row, s'.devices.get (u, d) = some row ∧ v < row.sessionVersion := by
  obtain ⟨rowBefore, rowAfter, hbefore, hafter, hlt⟩ := Server.lt_of_revokes hop hchanged
  obtain ⟨rowRead, ⟨t, d', ht, hd', hread⟩, hle⟩ := hback
  cases hd.symm.trans hd'
  have hnow : s'.trail[s.past.length]? = some s.devices :=
    ((s.follows_after o op).trans hfollows).getElem? s.getElem?_trail_now
  obtain ⟨row1, hrow1, hle1⟩ := (hS'.grows_of_le hk ht hnow).kept _ _ hread
  rw [hbefore] at hrow1
  cases hrow1
  obtain ⟨row2, hrow2, hle2⟩ :=
    (hS'.grows_now (hfollows.getElem? s.getElem?_trail_after)).kept _ _ hafter
  refine ⟨row2, hrow2, ?_⟩
  calc v ≤ rowRead.sessionVersion := hle
    _ ≤ rowBefore.sessionVersion := hle1
    _ < rowAfter.sessionVersion := hlt
    _ ≤ row2.sessionVersion := hle2

/-- **A revocation fences the tokens of before.** A kick, a bump, the revocation of all devices or
a logout changes the row of a device at some point of a run. At every later point, no token whose
version was read before, and none that was minted from such a token, passes. -/
theorem old_tokens_never_pass_again (cfg : Config) (devices : Devices)
    (records : Table Jti RefreshTokenRecord) (tokens : List Signed)
    (htokens : ∀ t ∈ tokens, t.readAt = some 0 ∧ (start devices records tokens).Backed cfg 0
      t.claims.sub t.claims.deviceId t.claims.sessionVersion)
    (evs evs' : List AuthEvent) (i : ℕ) (o : Moment) (j : Job) (op : Op)
    (before after later : AuthTasks)
    (hbefore : before = (machine cfg).run (State.init (start devices records tokens)) evs)
    (hafter : after = (machine cfg).step before (.step i o))
    (hlater : later = (machine cfg).run after evs')
    (hnext : (before.tasks i).next = some (j, op)) (hop : op.revokes = true)
    (u : UserId) (d : DeviceId)
    (hchanged : after.shared.devices.get (u, d) ≠ before.shared.devices.get (u, d))
    (token : Signed) (htoken : token ∈ later.shared.tokens) (hu : token.claims.sub = u)
    (hd : cfg.parseUuid token.claims.deviceId = some d) (k : ℕ) (hread : token.readAt = some k)
    (hk : k ≤ before.shared.past.length) : later.shared.passes cfg token.claims = false := by
  have hU := upholds cfg false
  have hP := serves cfg false
  -- the terms hold before the update, after it and later
  have hinit : Healthy (machine cfg) (terms cfg false) (fun _ _ _ => True)
      (State.init (start devices records tokens)) := healthy_init (sound_start htokens)
  have hgiven : ∀ (S : AuthTasks) (es : List AuthEvent),
      GivenRun (machine cfg) (terms cfg false).given S es := by
    intro S es
    have hall : (terms cfg false).given = fun _ _ _ _ _ => True := by
      funext _ j op o _
      refine propext (iff_true_intro ?_)
      change Given false j op o
      unfold Given
      split
      · exact nofun
      · trivial
    rw [hall]
    exact givenRun_true ..
  have hHbefore := hinit.run hU hP evs (hgiven _ _)
  rw [← hbefore] at hHbefore
  have hHafter := hHbefore.run hU hP [.step i o] (hgiven _ _)
  change Healthy _ _ _ ((machine cfg).step before (.step i o)) at hHafter
  rw [← hafter] at hHafter
  have hHlater := hHafter.run hU hP evs' (hgiven _ _)
  have hfollows := hHafter.moves_run hU hP evs' (hgiven _ _)
  rw [← hlater] at hHlater hfollows
  have hshared : after.shared = before.shared.after cfg o op := by
    rw [hafter, Machine.shared_step_of_next hnext o]
    rfl
  rw [hshared] at hchanged hfollows
  have hback := (hHlater.inv.vouched token htoken).backed k hread
  rw [hu] at hback
  obtain ⟨row, hrow, hlt⟩ :=
    Server.Sound.lt_of_revokes hop hchanged hHlater.inv hfollows hk hd hback
  exact passes_eq_false_of_lt hd (hu ▸ hrow) hlt

/-- A server on which every text is the id of a device. -/
def sampleConfig : Config where
  issuer := "privchat"
  defaultAudience := ["im"]
  accessTtlSecs := 3600
  refreshTtlSecs := 86400
  isBuiltin := true
  parseUuid text := if text = "phone" then some 1 else some 2
  uuidText n := if n = 0 then "uuid-0" else "uuid-1"
  parse_uuidText n := by split <;> rfl
  hashRefreshToken token := token.jti

def sampleMoment : Moment := ⟨1000, 0, none, false⟩

def sampleIssue : IssueParams := ⟨1, some "phone", "app", none, none, none⟩

/-- A session is opened on the phone of the user, and a kick is about to take it away. -/
def sampleKick : List AuthEvent :=
  [.start 0 (.issue sampleIssue), .step 0 sampleMoment, .step 0 sampleMoment,
    .step 0 sampleMoment, .step 0 sampleMoment, .step 0 sampleMoment, .step 0 sampleMoment,
    .start 1 (.kickDevice 1 "phone" none)]

def sampleTasks (evs : List AuthEvent) : AuthTasks :=
  (machine sampleConfig).run (State.init (start .empty .empty [])) evs

theorem old_tokens_never_pass_again_sample :
    (sampleTasks (sampleKick ++ [.step 1 sampleMoment])).shared.tokens.length = 2 ∧
      ∀ t ∈ (sampleTasks (sampleKick ++ [.step 1 sampleMoment])).shared.tokens,
        (sampleTasks (sampleKick ++ [.step 1 sampleMoment])).shared.passes sampleConfig t.claims =
          false := by
  refine ⟨by decide +kernel, fun t ht => ?_⟩
  have hfacts : ∀ t ∈ (sampleTasks (sampleKick ++ [.step 1 sampleMoment])).shared.tokens,
      t.claims.sub = 1 ∧ sampleConfig.parseUuid t.claims.deviceId = some 1 ∧ t.readAt = some 1 := by
    decide +kernel
  obtain ⟨hu, hd, hread⟩ := hfacts t ht
  have hstep : sampleTasks (sampleKick ++ [.step 1 sampleMoment]) =
      (machine sampleConfig).step (sampleTasks sampleKick) (.step 1 sampleMoment) :=
    Machine.run_append ..
  exact old_tokens_never_pass_again sampleConfig .empty .empty [] nofun sampleKick [] 1 sampleMoment
    (.kickDevice 1 "phone" none) (.kick 1 1) (sampleTasks sampleKick) _ _ rfl hstep rfl
    (by decide +kernel) rfl 1 1 (by decide +kernel) t ht hu hd 1 hread (by decide +kernel)

end PrivChat.Auth
