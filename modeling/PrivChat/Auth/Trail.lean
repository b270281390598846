import PrivChat.Auth.Service
import PrivChat.Tasks.Terms

/-!
What the server keeps to, whatever is requested at the same time.

The version of a device only grows, and a device never goes away. So a version that was read from
one of the tables so far is at most the version of the device in every later one. The tokens carry
versions of this kind.
-/

namespace PrivChat.Auth

open Db Tasks
open Channels

/-! ### Device tables -/

namespace Devices

/-- Rows stay, versions do not fall, and a new row has at least the first version. -/
structure Grows (t t' : Devices) : Prop where
  kept : ∀ k row, t.get k = some row →
    ∃ row', t'.get k = some row' ∧ row.sessionVersion ≤ row'.sessionVersion
  fresh : ∀ k row, t.get k = none → t'.get k = some row → 1 ≤ row.sessionVersion

lemma Grows.refl {t : Devices} : t.Grows t where
  kept _ row h := ⟨row, h, le_rfl⟩
  fresh _ _ h h' := by
    rw [h] at h'
    cases h'

variable {t : Devices}

lemma Grows.trans {t' t'' : Devices} (h : t.Grows t') (h' : t'.Grows t'') : t.Grows t'' where
  kept k row hrow := by
    obtain ⟨row', hrow', hle⟩ := h.kept k row hrow
    obtain ⟨row'', hrow'', hle'⟩ := h'.kept k row' hrow'
    exact ⟨row'', hrow'', hle.trans hle'⟩
  fresh k row'' hnone hrow'' := by
    cases hmid : t'.get k with
    | none => exact h'.fresh k row'' hmid hrow''
    | some row' =>
      obtain ⟨row, hrow, hle⟩ := h'.kept k row' hmid
      rw [hrow''] at hrow
      cases hrow
      exact (h.fresh k row' hnone hmid).trans hle

lemma get_bumpWhere (t : Devices) (u : UserId) (p : DeviceId → DeviceRow → Bool) (f : ℤ → ℤ)
    (k : UserId × DeviceId) : (t.bumpWhere u p f).get k = (t.get k).map fun row =>
      if k.1 = u ∧ p k.2 row then ⟨row.sessionVersion + 1, f row.sessionState⟩ else row := by
  unfold bumpWhere
  rw [Table.get_updateWhere]
  simp

lemma grows_bumpWhere (t : Devices) (u : UserId) (p : DeviceId → DeviceRow → Bool) (f : ℤ → ℤ) :
    t.Grows (t.bumpWhere u p f) where
  kept k row h := by
    rw [get_bumpWhere, h, Option.map_some]
    refine ⟨_, rfl, ?_⟩
    split
    · exact Int.le_add_one le_rfl
    · exact le_rfl
  fresh k row h h' := by
    rw [get_bumpWhere, h] at h'
    cases h'

variable {u : UserId}

lemma lt_of_bumpWhere_ne {p : DeviceId → DeviceRow → Bool}
    {f : ℤ → ℤ} {k : UserId × DeviceId} (h : (t.bumpWhere u p f).get k ≠ t.get k) :
    ∃ row row', t.get k = some row ∧ (t.bumpWhere u p f).get k = some row' ∧
      row.sessionVersion < row'.sessionVersion := by
  rw [get_bumpWhere] at h ⊢
  cases hrow : t.get k with
  | none =>
    rw [hrow] at h
    exact absurd rfl h
  | some row =>
    rw [hrow, Option.map_some] at h
    rw [Option.map_some]
    refine ⟨row, _, rfl, rfl, ?_⟩
    split
    · exact Int.lt_succ _
    · rename_i hp
      rw [if_neg hp] at h
      exact absurd rfl h

lemma activeCount_pos {d : DeviceId} {p : DeviceId → Bool} {row : DeviceRow}
    (h : t.get (u, d) = some row)
    (hp : p d = true) (hstate : row.sessionState = 0) : 0 < t.activeCount u p := by
  refine List.length_pos_of_mem (Table.mem_select.mpr ⟨h, ?_⟩)
  simp [hp, hstate]

lemma not_mem_activeOthers {d : DeviceId} : d ∉ (t.activeOthers u d).map (·.1) := by
  intro hmem
  simp only [activeOthers, List.map_map, List.mem_map, Function.comp_apply, Prod.exists] at hmem
  obtain ⟨u', d', row, hsel, rfl⟩ := hmem
  have hne := (Table.mem_select.mp hsel).2
  simp at hne

lemma grows_registerOrUpdate (t : Devices) (u : UserId) (d : DeviceId) :
    t.Grows (t.registerOrUpdate u d) where
  kept k row h := by
    unfold registerOrUpdate
    by_cases hk : k = (u, d)
    · subst hk
      rw [Table.get_put_self, h]
      exact ⟨_, rfl, Int.le_add_one le_rfl⟩
    · rw [Table.get_put_of_ne _ hk]
      exact ⟨row, h, le_rfl⟩
  fresh k row h h' := by
    unfold registerOrUpdate at h'
    by_cases hk : k = (u, d)
    · subst hk
      rw [Table.get_put_self, h] at h'
      cases h'
      exact le_rfl
    · rw [Table.get_put_of_ne _ hk, h] at h'
      cases h'

end Devices

/-- The updates that take a session away: kicks, bumps, the revocation of all devices and what a
logout does. -/
def Op.revokes : Op → Bool
  | .kickOthers _ _ | .kick _ _ | .incrementVersion _ _ | .bumpActive _ | .revokeActive _ => true
  | _ => false

namespace Server

variable {cfg : Config} {s s' : Server} {o : Moment} {op : Op}

/-- An update that takes sessions away counts up the versions of the rows it is about. -/
lemma devicesAfter_of_revokes (s : Server) (hop : op.revokes = true) :
    ∃ u p f, s.devicesAfter op = s.devices.bumpWhere u p f := by
  cases op with
  | kickOthers u ds => exact ⟨u, fun d row => d ∈ ds ∧ row.sessionState = 0, fun _ => 1, rfl⟩
  | kick u d => exact ⟨u, fun d' row => d' ∈ [d] ∧ row.sessionState = 0, fun _ => 1, rfl⟩
  | incrementVersion u d => exact ⟨u, fun d' _ => d' = d, id, rfl⟩
  | bumpActive u => exact ⟨u, fun _ row => row.sessionState = 0, id, rfl⟩
  | revokeActive u => exact ⟨u, fun _ row => row.sessionState = 0, fun _ => 3, rfl⟩
  | _ => cases hop

lemma grows_devicesAfter (s : Server) (op : Op) : s.devices.Grows (s.devicesAfter op) := by
  cases hop : op.revokes with
  | true =>
    obtain ⟨u, p, f, h⟩ := s.devicesAfter_of_revokes hop
    rw [h]
    exact Devices.grows_bumpWhere ..
  | false =>
    cases op with
    | upsertDevice u d => exact Devices.grows_registerOrUpdate ..
    | kickOthers _ _ | kick _ _ | incrementVersion _ _ | bumpActive _ | revokeActive _ =>
      cases hop
    | _ => exact Devices.Grows.refl

lemma grows_after (s : Server) : s.devices.Grows (s.after cfg o op).devices := by
  unfold after
  split
  · exact s.grows_devicesAfter op
  · exact Devices.Grows.refl

lemma lt_of_revokes (hop : op.revokes = true) {k : UserId × DeviceId}
    (h : (s.after cfg o op).devices.get k ≠ s.devices.get k) :
    ∃ row row', s.devices.get k = some row ∧ (s.after cfg o op).devices.get k = some row' ∧
      row.sessionVersion < row'.sessionVersion := by
  unfold after at h ⊢
  split at h
  · rename_i he
    obtain ⟨u, p, f, hafter⟩ := s.devicesAfter_of_revokes hop
    rw [hafter] at h
    rw [if_pos he, hafter]
    exact Devices.lt_of_bumpWhere_ne h
  · exact absurd rfl h

/-! ### The trail -/

lemma trail_after (s : Server) (o : Moment) (op : Op) :
    (s.after cfg o op).trail = s.trail ++ [(s.after cfg o op).devices] := rfl

lemma getElem?_trail_now (s : Server) : s.trail[s.past.length]? = some s.devices := by
  simp [trail]

lemma getElem?_trail_after (s : Server) :
    (s.after cfg o op).trail[s.past.length + 1]? = some (s.after cfg o op).devices := by
  have hlen : (s.after cfg o op).past.length = s.past.length + 1 := by simp [after]
  rw [← hlen]
  exact getElem?_trail_now _

structure Follows (s s' : Server) : Prop where
  trail : s.trail <+: s'.trail
  tokens : s.tokens ⊆ s'.tokens

lemma Follows.refl (s : Server) : s.Follows s := ⟨List.prefix_rfl, List.Subset.refl _⟩

lemma Follows.trans {s s' s'' : Server} (h : s.Follows s') (h' : s'.Follows s'') : s.Follows s'' :=
  ⟨h.trail.trans h'.trail, List.Subset.trans h.tokens h'.tokens⟩

lemma tokens_subset_tokensAfter : s.tokens ⊆ s.tokensAfter cfg o op := by
  cases op with
  | sign typ params readAt => exact List.subset_append_left ..
  | _ => exact List.Subset.refl _

lemma follows_after (s : Server) (o : Moment) (op : Op) : s.Follows (s.after cfg o op) where
  trail := List.prefix_append ..
  tokens := tokens_subset_tokensAfter

variable {k : ℕ} {t : Devices}

lemma Follows.getElem? (h : s.Follows s') (ht : s.trail[k]? = some t) : s'.trail[k]? = some t := by
  obtain ⟨l, hl⟩ := h.trail
  have hk : k < s.trail.length := (List.getElem?_eq_some_iff.mp ht).1
  rw [← hl, List.getElem?_append_left hk, ht]

/-- The row of the device in the table of that number. -/
def Seen (cfg : Config) (s : Server) (k : ℕ) (u : UserId) (deviceId : String)
    (row : Option DeviceRow) : Prop :=
  ∃ t d, s.trail[k]? = some t ∧ cfg.parseUuid deviceId = some d ∧ t.get (u, d) = row

/-- The version is at most that of the device in the table of that number. -/
def Backed (cfg : Config) (s : Server) (k : ℕ) (u : UserId) (deviceId : String) (v : ℤ) : Prop :=
  ∃ row, s.Seen cfg k u deviceId (some row) ∧ v ≤ row.sessionVersion

variable {u : UserId} {deviceId : String}

lemma Seen.later {row : Option DeviceRow}
    (h : s.Seen cfg k u deviceId row) (hs : s.Follows s') : s'.Seen cfg k u deviceId row := by
  obtain ⟨t, d, ht, hd, hrow⟩ := h
  exact ⟨t, d, hs.getElem? ht, hd, hrow⟩

variable {v : ℤ}

lemma Backed.later
    (h : s.Backed cfg k u deviceId v) (hs : s.Follows s') : s'.Backed cfg k u deviceId v := by
  obtain ⟨row, hseen, hle⟩ := h
  exact ⟨row, hseen.later hs, hle⟩

/-- A version that was read was at most that of the device. In the strict form, it was read. -/
structure Vouched (cfg : Config) (strict : Bool) (s : Server) (readAt : Option ℕ) (u : UserId)
    (deviceId : String) (v : ℤ) : Prop where
  backed : ∀ k, readAt = some k → s.Backed cfg k u deviceId v
  read : strict = true → readAt ≠ none

variable {strict : Bool}

lemma Backed.vouched
    (h : s.Backed cfg k u deviceId v) : s.Vouched cfg strict (some k) u deviceId v where
  backed k' hk := by
    cases hk
    exact h
  read _ := Option.some_ne_none k

lemma Vouched.later {readAt : Option ℕ}
    (h : s.Vouched cfg strict readAt u deviceId v) (hs : s.Follows s') :
    s'.Vouched cfg strict readAt u deviceId v where
  backed k hk := (h.backed k hk).later hs
  read := h.read

structure Sound (cfg : Config) (strict : Bool) (s : Server) : Prop where
  grows : s.trail.Pairwise Devices.Grows
  vouched : ∀ t ∈ s.tokens, s.Vouched cfg strict t.readAt t.claims.sub t.claims.deviceId
    t.claims.sessionVersion

lemma Sound.grows_of_le (h : s.Sound cfg strict) {l : ℕ} (hkl : k ≤ l) {t' : Devices}
    (ht : s.trail[k]? = some t) (ht' : s.trail[l]? = some t') : t.Grows t' := by
  obtain ⟨hk, rfl⟩ := List.getElem?_eq_some_iff.mp ht
  obtain ⟨hl, rfl⟩ := List.getElem?_eq_some_iff.mp ht'
  rcases hkl.lt_or_eq with hlt | rfl
  · exact List.pairwise_iff_getElem.mp h.grows k l hk hl hlt
  · exact Devices.Grows.refl

lemma Sound.grows_now (h : s.Sound cfg strict) (ht : s.trail[k]? = some t) : t.Grows s.devices := by
  refine h.grows_of_le ?_ ht s.getElem?_trail_now
  have hk := (List.getElem?_eq_some_iff.mp ht).1
  simp only [trail, List.length_append, List.length_singleton] at hk
  omega

lemma Sound.backed_one (h : s.Sound cfg strict) {l : ℕ} (hkl : k ≤ l)
    (hnone : s.Seen cfg k u deviceId none) {row : DeviceRow}
    (hrow : s.Seen cfg l u deviceId (some row)) : s.Backed cfg l u deviceId 1 := by
  refine ⟨row, hrow, ?_⟩
  obtain ⟨t, d, ht, hd, hget⟩ := hnone
  obtain ⟨t', d', ht', hd', hget'⟩ := hrow
  cases hd.symm.trans hd'
  exact (h.grows_of_le hkl ht ht').fresh _ _ hget hget'

/-- Who signs a version has read it. -/
def Owes (cfg : Config) (strict : Bool) : Op → Server → Prop
  | .sign _ params readAt, s =>
    s.Vouched cfg strict readAt params.userId params.deviceId params.sessionVersion
  | _, _ => True

/-- In the strict form, `TokenIssueService` is able to write the device. -/
def Given (strict : Bool) : Job → Op → Moment → Prop
  | .issueToken _, .upsertDevice _ _, o => strict = true → o.fault = none
  | _, _, _ => True

def terms (cfg : Config) (strict : Bool) : Terms Server Op Moment Job where
  inv := Sound cfg strict
  moves := Follows
  owes := Owes cfg strict
  given _ j op o _ := Given strict j op o
  refl := Follows.refl
  trans := Follows.trans

lemma Sound.grows_trail_after (h : s.Sound cfg strict) :
    (s.after cfg o op).trail.Pairwise Devices.Grows := by
  rw [trail_after, List.pairwise_append]
  refine ⟨h.grows, List.pairwise_singleton .., fun t ht t' ht' => ?_⟩
  rw [List.mem_singleton.mp ht']
  obtain ⟨k, hk⟩ := List.mem_iff_getElem?.mp ht
  exact (h.grows_now hk).trans s.grows_after

lemma Sound.after (h : s.Sound cfg strict) (howes : Owes cfg strict op s) (o : Moment) :
    (s.after cfg o op).Sound cfg strict := by
  have hold : ∀ t ∈ s.tokens, (s.after cfg o op).Vouched cfg strict t.readAt t.claims.sub
      t.claims.deviceId t.claims.sessionVersion :=
    fun t ht => (h.vouched t ht).later (s.follows_after o op)
  cases op with
  | sign typ params readAt =>
    refine ⟨h.grows_trail_after, fun t ht => ?_⟩
    rcases List.mem_append.mp ht with ht | ht
    · exact hold t ht
    · cases List.mem_singleton.mp ht
      exact howes.later (s.follows_after o _)
  | _ => exact ⟨h.grows_trail_after, hold⟩

lemma upholds (cfg : Config) (strict : Bool) : (machine cfg).Upholds (terms cfg strict) where
  call _ _ op o s hI howes _ := ⟨Sound.after hI howes o, s.follows_after o op⟩
  env x := nomatch x

/-- Before anything has happened the tokens carry versions of the devices that are there. -/
lemma sound_start {devices : Devices} {records : Table Jti RefreshTokenRecord}
    {tokens : List Signed} (htokens : ∀ t ∈ tokens, t.readAt = some 0 ∧
      (start devices records tokens).Backed cfg 0 t.claims.sub t.claims.deviceId
        t.claims.sessionVersion) : (start devices records tokens).Sound cfg strict where
  grows := List.pairwise_singleton ..
  vouched t ht := by
    rw [(htokens t ht).1]
    exact (htokens t ht).2.vouched

end Server

end PrivChat.Auth
