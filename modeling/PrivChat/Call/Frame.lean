import PrivChat.Call.Jobs

/-!
What one commit can change, and under which locks.
-/

namespace PrivChat.Call

open PrivChat.Db CallService

structure Swept (v d : Db) : Prop where
  events : ∀ k, SameOrGone (v.peerEvents.get k) (d.peerEvents.get k)
  commands : ∀ k, SameOrGone (v.peerCommands.get k) (d.peerCommands.get k)
  rates : ∀ k, SameOrGone (v.peerRates.get k) (d.peerRates.get k)

/-- What a commit under the locks `h` does to the peer tables: it takes rows away, counts an
attempt, or adds a signal. -/
inductive PeerStep (sv : CallService) (W : List LockKey → World → Prop) (d : Db)
    (h : List LockKey) : Db → Prop
  | sweeps {v} : Swept v d → PeerStep sv W d h v
  | counts {actor device c s v} (op : PeerOperation) (rate : PeerRateRow) : Expired sv W d c s v →
      .row c ∈ h → Authorized actor device s →
      PeerStep sv W d h (v.putPeerRate ⟨c, actor, op⟩ rate)
  | signals {x : Signal} : x.Made sv W d h → PeerStep sv W d h (x.db sv)

variable {sv : CallService} {W : List LockKey → World → Prop} {d v : Db} {h : List LockKey}
  {j : Job} {code : CallTx Answer}

/-! ### Rows of calls -/

structure RowOk (c : CallId) (row : CallRow) : Prop where
  state : row.state = row.document.call.state
  callId : row.document.call.callId = c
  wellFormed : WellFormed row.document

def CallsOk (d : Db) : Prop := ∀ c row, d.calls.get c = some row → RowOk c row

/-- What a commit under the locks `h` makes of the row of call `c`. -/
inductive CallStep (sv : CallService) (d : Db) (h : List LockKey) (c : CallId) :
    Option CallRow → Option CallRow → Prop
  | none : CallStep sv d h c .none .none
  | same (row : CallRow) : CallStep sv d h c (some row) (some row)
  | new {actor device req} {row : CallRow} : Invites sv d actor device req h row.document →
      row.document.call.callId = c → row.state = row.document.call.state →
      CallStep sv d h c .none (some row)
  | steps {row row' : CallRow} : .row c ∈ h → Steps row.document row'.document →
      row'.state = row'.document.call.state → CallStep sv d h c (some row) (some row')

/-- Only the row of call `c` is not what it was; it holds the call `s`. -/
structure Rewrites (d v : Db) (c : CallId) (s : StoredCall) : Prop where
  here : ∃ row, v.calls.get c = some row ∧ row.document = s ∧ row.state = s.call.state
  elsewhere : ∀ c' ≠ c, v.calls.get c' = d.calls.get c'

lemma CallStep.refl {c : CallId} {o : Option CallRow} : CallStep sv d h c o o := by
  cases o with
  | none => exact .none
  | some row => exact .same row

variable {s s' : StoredCall} {c : CallId} {t : Millis}

lemma rewrites_saveDb (hv : ∀ c ≠ s.call.callId, v.calls.get c = d.calls.get c) {notify : Bool}
    : Rewrites d (saveDb s notify t v) s.call.callId s := by
  refine ⟨⟨⟨s.call.state, s, t⟩, by simp, rfl, rfl⟩, fun c hc => ?_⟩
  simp only [saveDb_calls, ne_eq, hc, not_false_eq_true, Table.get_put_of_ne]
  exact hv c hc

lemma Rewrites.saveDb (hr : Rewrites d v c s) (hc : s'.call.callId = c) {notify : Bool}
    : Rewrites d (saveDb s' notify t v) c s' :=
  hc ▸ rewrites_saveDb (hc.symm ▸ hr.elsewhere)

variable {v' : Db}

lemma Rewrites.congr (hr : Rewrites d v c s) (hv : v'.calls = v.calls) : Rewrites d v' c s :=
  ⟨by rw [hv]; exact hr.here, by rw [hv]; exact hr.elsewhere⟩

lemma Rewrites.callStep {row : CallRow} (hr : Rewrites d v c s)
    (hrow : d.calls.get c = some row) (hst : Steps row.document s) (hl : .row c ∈ h)
    (c' : CallId) : CallStep sv d h c' (d.calls.get c') (v.calls.get c') := by
  by_cases hc : c' = c
  · subst hc
    obtain ⟨row', hrow', rfl, hs⟩ := hr.here
    rw [hrow, hrow']
    exact .steps hl hst hs
  · rw [hr.elsewhere c' hc]
    exact .refl

lemma Expired.rewrites (hok : CallsOk d)
    (hx : Expired sv W d c s v) : Rewrites d v c s ∧ s.call.callId = c := by
  cases hx with
  | same hrow =>
    have hr := hok c _ hrow
    exact ⟨⟨⟨_, hrow, rfl, hr.state⟩, fun _ _ => rfl⟩, hr.callId⟩
  | @expired row h o m t t' hrow hs _ _ _ hl =>
    have hr := hok c _ hrow
    have hid : (expireCall m o.now t row.document).call.callId = c :=
      (Trans.expire row.document m o.now t hs hl).evolves.callId.trans hr.callId
    have hbase : Rewrites d d c row.document := ⟨⟨row, hrow, rfl, hr.state⟩, fun _ _ => rfl⟩
    exact ⟨(hbase.congr (removeLeftDb_calls _ _)).saveDb hid, hid⟩

/-- What a call is after it was brought up to date and one more thing happened to it. -/
lemma Expired.callStep
    (hx : Expired sv W d c s v) (hl : .row c ∈ h) (hst : Steps s s') (hr : Rewrites d v' c s')
    (c' : CallId) : CallStep sv d h c' (d.calls.get c') (v'.calls.get c') := by
  obtain ⟨row, hrow, hst0⟩ := hx.steps
  exact hr.callStep hrow (hst0.trans hst) hl c'

variable {actor : UserId} {device : String} {final : StoredCall} {route : Route} {notify : Bool}

lemma Operates.view (ho : Operates sv actor device s route final notify v v') :
    ∃ es, v' = { v with effects := es } := by
  cases ho.parting with
  | stays h => exact ⟨_, h⟩
  | leaves h => exact ⟨_, h⟩

lemma Operates.calls (ho : Operates sv actor device s route final notify v v') :
    v'.calls = v.calls := by
  obtain ⟨es, rfl⟩ := ho.view
  rfl

lemma Rewrites.touch (hr : Rewrites d v c s) : Rewrites d (touch c t v) c s := by
  obtain ⟨row, hrow, rfl, hs⟩ := hr.here
  simp only [CallService.touch, hrow]
  refine ⟨⟨{ row with updatedAt := t }, by simp, rfl, hs⟩, fun c' hc' => ?_⟩
  simp only [Db.putCall_calls, ne_eq, hc', not_false_eq_true, Table.get_put_of_ne]
  exact hr.elsewhere c' hc'

variable {x : Signal}

lemma Negotiates.same {req : CallPeerSignalRequest} (hn : Negotiates actor req s s') :
    s'.peerSeq = s.peerSeq ∧ s'.call = s.call ∧ s'.claims = s.claims := by
  cases hn <;> exact ⟨rfl, rfl, rfl⟩

lemma Negotiates.trans {req : CallPeerSignalRequest} (hn : Negotiates actor req s s')
    (hs : s.call.state ≠ .ended) : Trans s { s' with peerSeq := s'.peerSeq + 1 } := by
  cases hn with
  | offer => exact .signal s _ _ hs
  | answer => exact .signal s s.peerRevision true hs
  | ice => exact .signal s s.peerRevision s.peerAnswered hs

lemma Signal.Made.trans (hx : x.Made sv W d h) : Trans x.call x.stored :=
  hx.negotiates.trans hx.authorized.running

lemma Operates.rewrites (hok : CallsOk d) (hx : Expired sv W d c s v)
    (hop : Operates sv actor device s route final notify v v') :
    Rewrites d (saveDb (final.bump notify) notify t v') c (final.bump notify) := by
  obtain ⟨hr, hid⟩ := hx.rewrites hok
  exact (hr.congr hop.calls).saveDb (hop.trans.evolves.callId.trans hid)

lemma Signal.Made.rewrites (hok : CallsOk d) (hx : x.Made sv W d h) :
    Rewrites d (x.db sv) x.req.callId x.stored := by
  obtain ⟨hr, hid⟩ := hx.expired.rewrites hok
  refine Rewrites.saveDb (s := x.call) ?_ (hx.trans.evolves.callId.trans hid)
  exact hr.congr rfl

lemma Committed.one_row (hok : CallsOk d) (hc : Committed sv W d j h v code) :
    ∃ c, ∀ c' ≠ c, v.calls.get c' = d.calls.get c' := by
  cases hc with
  | @invite _ _ _ _ s => exact ⟨s.call.callId, fun c' hc' => by simp [hc']⟩
  | ended hx | get hx | replay _ _ _ hx | events _ hx =>
    exact ⟨_, (hx.rewrites hok).1.elsewhere⟩
  | mutate t t' hx hl _ _ hop => exact ⟨_, (hop.rewrites hok hx).elsewhere⟩
  | signal hx => exact ⟨_, (hx.rewrites hok).elsewhere⟩
  | sweepEvents | sweepCommands | sweepRates => exact ⟨0, fun _ _ => rfl⟩
  | sweepOne t hx => exact ⟨_, ((hx.rewrites hok).1.touch).elsewhere⟩

/-- **What a commit makes of each call.** -/
theorem Committed.callStep (hok : CallsOk d) (hc : Committed sv W d j h v code) (c : CallId) :
    CallStep sv d h c (d.calls.get c) (v.calls.get c) := by
  cases hc with
  | @invite actor device req _ s t t' hi =>
    by_cases hcs : c = s.call.callId
    · subst hcs
      simp only [Db.putCommand_calls, saveDb_calls, Table.get_put_self, hi.fresh]
      exact .new hi rfl rfl
    · simp only [Db.putCommand_calls, saveDb_calls, ne_eq, hcs, not_false_eq_true,
        Table.get_put_of_ne]
      exact .refl
  | ended hx hl => exact hx.callStep hl .refl (hx.rewrites hok).1 c
  | mutate t t' hx hl _ _ hop =>
    exact hx.callStep hl (.single hop.trans) ((hop.rewrites hok hx).congr rfl) c
  | get hx hl => exact hx.callStep hl .refl (hx.rewrites hok).1 c
  | replay row event rate hx hl =>
    exact hx.callStep hl .refl ((hx.rewrites hok).1.congr rfl) c
  | signal hx => exact hx.expired.callStep hx.row (.single hx.trans) (hx.rewrites hok) c
  | events rate hx hl => exact hx.callStep hl .refl ((hx.rewrites hok).1.congr rfl) c
  | sweepEvents | sweepCommands | sweepRates => exact .refl
  | sweepOne t hx hl => exact hx.callStep hl .refl ((hx.rewrites hok).1.touch) c

lemma newCall_userIds (actor : UserId) (device : String) (req : CallInviteRequest) (kind : ℤ)
    (all : List UserId) (id : CallId) (t : Millis) :
    (sv.newCall actor device req kind all id t).call.participants.map (·.userId) = all := by
  simp [newCall, Function.comp_def]

lemma length_eq_two {l : List ℕ} {a b x y : ℕ} (hl : l.Nodup) (hsub : ∀ u ∈ l, u = a ∨ u = b)
    (hx : x ∈ l) (hy : y ∈ l) (hxy : x ≠ y) : l.length = 2 := by
  have hle : l.length ≤ [a, b].length :=
    (List.subperm_of_subset hl fun u hu => by simpa using hsub u hu).length_le
  have hge : [x, y].length ≤ l.length := by
    refine (List.subperm_of_subset (by simpa using hxy) fun u hu => ?_).length_le
    rcases List.mem_pair.mp hu with rfl | rfl
    · exact hx
    · exact hy
  simp only [List.length_cons, List.length_nil] at hle hge
  omega

variable {u : UserId} {req : CallInviteRequest}

lemma mem_targets_ne {m : Members} (hu : u ∈ targets actor req m) : u ≠ actor := by
  simpa using (List.mem_filter.mp hu).2

lemma Invites.wellFormed (hi : Invites sv d actor device req h s) : WellFormed s := by
  obtain ⟨kind, m, t, hm, ha, hall, hne, hs⟩ := hi.made
  rw [hs]
  refine ⟨⟨nofun, fun _ => ⟨rfl, rfl⟩, nofun, nofun⟩, ?_, ?_, fun hk => ?_⟩
  · rw [newCall_userIds]
    exact nodup_btreeSet
  · rw [newCall_userIds]
    simp [newCall]
  · -- a direct channel has two members, and both are in the call
    obtain ⟨a, b, hab⟩ := hm.2 hk
    obtain ⟨u, hu⟩ := List.exists_mem_of_ne_nil _ hne
    rw [← List.length_map, newCall_userIds]
    refine length_eq_two nodup_btreeSet (fun w hw => hab w ?_)
      (by simp) (by simp [hu]) (mem_targets_ne hu).symm
    rcases List.mem_cons.mp (mem_btreeSet.mp hw) with rfl | hw
    · exact ha
    · exact hall w hw

lemma CallStep.rowOk {o : Option CallRow} {row : CallRow} (hs : CallStep sv d h c o (some row))
    (ho : ∀ row, o = some row → RowOk c row) : RowOk c row := by
  cases hs with
  | same => exact ho _ rfl
  | new hi hid hst => exact ⟨hst, hid, hi.wellFormed⟩
  | @steps row0 _ _ hst hs =>
    have hr := ho _ rfl
    exact ⟨hs, hst.evolves.callId.trans hr.callId, hst.wellFormed hr.wellFormed⟩

/-- **The rows of calls stay well-formed.** -/
theorem Committed.callsOk (hok : CallsOk d) (hc : Committed sv W d j h v code) : CallsOk v := by
  intro c row hrow
  have hs := hc.callStep hok c
  rw [hrow] at hs
  exact hs.rowOk (hok c)

/-! ### The other tables -/

variable {β : Type}

lemma SameOrGone.refl {o : Option β} : SameOrGone o o := .inl rfl

lemma SameOrGone.trans {o o' o'' : Option β} (h : SameOrGone o o')
    (h' : SameOrGone o' o'') : SameOrGone o o'' := by
  rcases h with rfl | h
  · exact h'
  · exact .inr h

lemma sameOrGone_filter {o : Option β} {p : β → Bool} : SameOrGone (o.filter p) o := by
  cases o with
  | none => exact .refl
  | some b => cases h : p b <;> simp [SameOrGone, h]

lemma sameOrGone_deleteWhere {κ : Type} {t : Table κ β} {p : κ → β → Bool} (k : κ) :
    SameOrGone ((t.deleteWhere p).get k) (t.get k) := by
  rw [Table.get_deleteWhere]
  exact sameOrGone_filter

lemma Swept.refl : Swept d d := ⟨fun _ => .refl, fun _ => .refl, fun _ => .refl⟩

lemma swept_saveDb (hv : Swept v d) : Swept (saveDb s notify t v) d := by
  refine ⟨fun k => ?_, fun k => ?_, fun k => ?_⟩
  all_goals
    simp only [saveDb, Db.clearPeer]
    split_ifs
  all_goals first
    | exact hv.events k
    | exact hv.commands k
    | exact hv.rates k
    | exact (sameOrGone_deleteWhere k).trans (hv.events k)
    | exact (sameOrGone_deleteWhere k).trans (hv.commands k)
    | exact (sameOrGone_deleteWhere k).trans (hv.rates k)

lemma Expired.swept (hx : Expired sv W d c s v) : Swept v d := by
  cases hx with
  | same => exact .refl
  | expired =>
    refine swept_saveDb ⟨fun k => ?_, fun k => ?_, fun k => ?_⟩ <;>
      simp [SameOrGone.refl]

lemma Operates.swept (ho : Operates sv actor device s route final notify v v')
    (hv : Swept v d) : Swept v' d := by
  obtain ⟨es, rfl⟩ := ho.view
  exact ⟨hv.events, hv.commands, hv.rates⟩

lemma Operates.commands (ho : Operates sv actor device s route final notify v v') :
    v'.commands = v.commands := by
  obtain ⟨es, rfl⟩ := ho.view
  rfl

@[simp] lemma touch_commands (c : CallId) (t : Millis) (s : Db) :
    (touch c t s).commands = s.commands := by
  unfold CallService.touch
  split <;> rfl

lemma Swept.touch (hv : Swept v d) : Swept (CallService.touch c t v) d := by
  unfold CallService.touch
  split
  · exact ⟨hv.events, hv.commands, hv.rates⟩
  · exact hv

lemma SameOrGone.none {o o' : Option β} (h : SameOrGone o o') (ho : o' = .none) : o = .none := by
  rcases h with h | h
  · exact h.trans ho
  · exact h

section Signals

variable (hx : x.Made sv W d h)

include hx

lemma Signal.Made.running : x.stored.call.state ≠ .ended := by
  rw [Signal.stored, hx.negotiates.same.2.1]
  exact hx.authorized.running

lemma Signal.Made.commands : (x.db sv).commands = d.commands := by
  rw [← hx.expired.commands]
  exact saveDb_commands _ _ _ _

/-- The journal has the event under its number, and of the others those that have not expired. -/
lemma Signal.Made.peerEvents {n : ℕ} : (x.db sv).peerEvents.get (c, n) =
    if (c, n) = (x.req.callId, x.stored.peerSeq) then some x.event
    else (d.peerEvents.get (c, n)).filter fun r =>
      !(c == x.req.callId && decide (r.expiresAt ≤ x.now)) := by
  rw [Signal.db, (saveDb_peer hx.running false _).1, ← (hx.expired.peer hx.authorized.running).1]
  by_cases hk : (c, n) = (x.req.callId, x.stored.peerSeq)
  · rw [if_pos hk, hk]
    exact Table.get_put_self
  · rw [if_neg hk]
    exact Table.get_put_of_ne _ hk

lemma Signal.Made.peerCommands (k : CommandKey) : (x.db sv).peerCommands.get k =
    if k = x.key then some ⟨x.req.callId, sv.ext.sha256 (.peer x.req), x.stored.peerSeq, x.expires⟩
    else d.peerCommands.get k := by
  rw [Signal.db, (saveDb_peer hx.running false _).2.1,
    ← (hx.expired.peer hx.authorized.running).2.1]
  by_cases hk : k = x.key
  · rw [if_pos hk, hk]
    exact Table.get_put_self
  · rw [if_neg hk]
    exact Table.get_put_of_ne _ hk

lemma Signal.Made.peerRates (k : PeerRateKey) : (x.db sv).peerRates.get k =
    if k = ⟨x.req.callId, x.actor, .signal⟩ then some x.rate else d.peerRates.get k := by
  rw [Signal.db, (saveDb_peer hx.running false _).2.2,
    ← (hx.expired.peer hx.authorized.running).2.2]
  by_cases hk : k = ⟨x.req.callId, x.actor, .signal⟩
  · rw [if_pos hk, hk]
    exact Table.get_put_self
  · rw [if_neg hk]
    exact Table.get_put_of_ne _ hk

end Signals

/-- No key is in both tables of commands. -/
def KeysOk (d : Db) : Prop := ∀ k, d.commands.get k = none ∨ d.peerCommands.get k = none

structure DbOk (d : Db) : Prop where
  calls : CallsOk d
  keys : KeysOk d

section Commits

variable (hc : Committed sv W d j h v code)
include hc

lemma Committed.commands {k : CommandKey} :
    v.commands.get k = d.commands.get k ∨
      .command k ∈ h ∧ Unused k d ∧ v.peerCommands.get k = none := by
  cases hc with
  | @invite actor device req _ s t t' hi hl hn =>
    by_cases hk : k = ⟨actor, device, req.commandId⟩
    · subst hk
      exact .inr ⟨hl, hn, ((swept_saveDb .refl).commands _).none hn.2⟩
    · exact .inl (by simp [hk])
  | @mutate route actor device req _ s v0 final notify v' r t t' hx hl hcl hn hop =>
    by_cases hk : k = ⟨actor, device, req.commandId⟩
    · subst hk
      have hs : Swept (saveDb (final.bump notify) notify t v') d :=
        swept_saveDb (hop.swept hx.swept)
      exact .inr ⟨hcl, hn, (hs.commands _).none hn.2⟩
    · exact .inl (by simp [hk, hop.commands, hx.commands])
  | ended hx | get hx | replay _ _ _ hx | events _ hx | sweepOne _ hx =>
    exact .inl (by simp [hx.commands])
  | signal hx => exact .inl (by rw [hx.commands])
  | sweepEvents | sweepCommands | sweepRates => exact .inl rfl

lemma Committed.peerStep : PeerStep sv W d h v := by
  cases hc with
  | invite t =>
    obtain ⟨he, hk, hr⟩ := swept_saveDb .refl
    exact .sweeps ⟨he, hk, hr⟩
  | mutate t _ hx _ _ _ hop =>
    obtain ⟨he, hk, hr⟩ := swept_saveDb (hop.swept hx.swept)
    exact .sweeps ⟨he, hk, hr⟩
  | ended hx | get hx => exact .sweeps hx.swept
  | sweepOne t hx => exact .sweeps hx.swept.touch
  | sweepEvents => exact .sweeps ⟨sameOrGone_deleteWhere, fun _ => .refl, fun _ => .refl⟩
  | sweepCommands => exact .sweeps ⟨fun _ => .refl, sameOrGone_deleteWhere, fun _ => .refl⟩
  | sweepRates => exact .sweeps ⟨fun _ => .refl, fun _ => .refl, sameOrGone_deleteWhere⟩
  | replay _ _ rate hx hl ha => exact .counts .signal rate hx hl ha
  | events rate hx hl ha => exact .counts .events rate hx hl ha
  | signal hx => exact .signals hx

/-- Peer commands are recorded under their lock, for the first time, and otherwise only
deleted. -/
lemma Committed.peerCommands {k : CommandKey} :
    SameOrGone (v.peerCommands.get k) (d.peerCommands.get k) ∨ .command k ∈ h ∧ Unused k d := by
  cases hc.peerStep with
  | sweeps hs => exact .inl (hs.commands k)
  | counts _ _ hx => exact .inl (hx.swept.commands k)
  | @signals x hx =>
    rw [hx.peerCommands]
    split
    · rename_i hk
      exact .inr (hk ▸ ⟨hx.command, hx.unused⟩)
    · exact .inl .refl

lemma Committed.peerEvents {n : ℕ} :
    SameOrGone (v.peerEvents.get (c, n)) (d.peerEvents.get (c, n)) ∨ .row c ∈ h := by
  cases hc.peerStep with
  | sweeps hs => exact .inl (hs.events _)
  | counts _ _ hx => exact .inl (hx.swept.events _)
  | signals hx =>
    rw [hx.peerEvents]
    split
    · rename_i hk
      exact .inr ((Prod.mk.inj hk).1 ▸ hx.row)
    · exact .inl sameOrGone_filter

lemma Committed.peerRates (k : PeerRateKey) :
    SameOrGone (v.peerRates.get k) (d.peerRates.get k) ∨ .row k.call ∈ h := by
  cases hc.peerStep with
  | sweeps hs => exact .inl (hs.rates _)
  | @counts actor _ c _ _ op rate hx hl =>
    by_cases hk : k = ⟨c, actor, op⟩
    · exact .inr (by rw [hk]; exact hl)
    · exact .inl (by simpa [hk] using hx.swept.rates k)
  | signals hx =>
    rw [hx.peerRates]
    split
    · rename_i hk
      exact .inr (by rw [hk]; exact hx.row)
    · exact .inl .refl

lemma Committed.keysOk (hok : KeysOk d) : KeysOk v := by
  intro k
  rcases hc.commands with he | ⟨-, -, hn⟩
  · rcases hc.peerCommands with hp | ⟨-, hn⟩
    · rcases hok k with h | h
      · exact .inl (he.trans h)
      · exact .inr (hp.none h)
    · exact .inl (he.trans hn.1)
  · exact .inr hn

lemma Committed.dbOk (hok : DbOk d) : DbOk v :=
  ⟨hc.callsOk hok.calls, hc.keysOk hok.keys⟩

end Commits

lemma dbOk_empty : DbOk .empty := ⟨(fun c row h => by simp [Db.empty] at h), fun _ => .inl rfl⟩

/-- The user is invited or joined in call `c`, and the call has not ended. -/
def LiveIn (d : Db) (u : UserId) (c : CallId) : Prop :=
  ∃ row, d.calls.get c = some row ∧ row.state ≠ .ended ∧
    ∃ p ∈ row.document.call.participants, p.userId = u ∧ p.state.live = true

lemma not_busy_iff {calls : CallId → Bool} :
    busy u calls d = false ↔ ∀ c, calls c = true → ¬ LiveIn d u c := by
  rw [busy_eq_false]
  constructor
  · rintro hb c hc ⟨row, hrow, hs, p, hp, hu, hl⟩
    exact absurd hl (by simp [hb c row hrow hc hs p hp hu])
  · intro hb c row hrow hc hs p hp hu
    refine Bool.eq_false_iff.mpr fun hl => hb c hc ⟨row, hrow, hs, p, hp, hu, hl⟩

/-- **Nobody is in a call that they were not in**, unless it is a new call: then they were in
none, under their lock. -/
theorem Committed.liveIn (hok : CallsOk d) (hc : Committed sv W d j h v code) (hl : LiveIn v u c) :
    LiveIn d u c ∨ .user u ∈ h ∧ d.calls.get c = none ∧ ∀ c', ¬ LiveIn d u c' := by
  obtain ⟨row, hrow, hs, p, hp, hu, hlive⟩ := hl
  have hstep := hc.callStep hok c
  rw [hrow] at hstep
  generalize ho : d.calls.get c = o at hstep
  cases hstep with
  | same => exact .inl ⟨row, ho, hs, p, hp, hu, hlive⟩
  | new hi =>
    obtain ⟨hlock, hfree⟩ := hi.users p hp
    subst hu
    exact .inr ⟨hlock, rfl, fun c' => not_busy_iff.mp hfree c' rfl⟩
  | @steps row0 _ _ hst hs' =>
    obtain ⟨q, hq, hqu, hql⟩ := moves_live hst.evolves.participants hp hlive
    refine .inl ⟨row0, ho, ?_, q, hq, hqu.trans hu, hql⟩
    rw [(hok c _ ho).state]
    exact fun he => (hs' ▸ hs) (hst.evolves.state.eq_ended he)

end PrivChat.Call
