import PrivChat.Delivery.Service
import PrivChat.Tasks.Terms

/-!
What the tables of the outbox keep to, whatever the workers do and however late they come.

An event is closed for good, without a pending recipient, and a recipient that is done stays as
it is. A statement that closes an event relies on the rows that it saw when it began; what it saw
is still true, because recipients that are done do not change and none are added.
-/

namespace PrivChat.Delivery

open Tasks Db
open Channels (UserId Millis ServerError)

structure Inv (d : Store) : Prop where
  event_known : ∀ e o, d.outbox.get e = some o → e < d.nextEvent
  row_event : ∀ key r, d.recipients.get key = some r → ∃ o, d.outbox.get key.1 = some o
  attempts : ∀ key r, d.recipients.get key = some r → r.attempts ≤ maxAttempts
  closed : ∀ e o, d.outbox.get e = some o → o.status ≠ .pending →
    ∀ u r, d.recipients.get (e, u) = some r → r.state ≠ .pending
  dead : ∀ e o, d.outbox.get e = some o → o.status ≠ .pending →
    (o.status = .dead ↔ ∃ u r, d.recipients.get (e, u) = some r ∧ r.state = .dead)

structure RowMoves (r r' : RecipientRow) : Prop where
  attempts : r.attempts ≤ r'.attempts
  state : r.state ≠ .pending → r'.state = r.state

/-- How the tables may change. Of what was known, all that is there was there before: events that
are gone do not come back, and recipients go with their event. -/
structure Moves (d d' : Store) : Prop where
  events : d.nextEvent ≤ d'.nextEvent
  event : ∀ e < d.nextEvent, ∀ o', d'.outbox.get e = some o' → ∃ o, d.outbox.get e = some o ∧
    (o.status ≠ .pending → o'.status = o.status) ∧
    ∀ u r, d.recipients.get (e, u) = some r → ∃ r', d'.recipients.get (e, u) = some r'
  row : ∀ key : Key, key.1 < d.nextEvent → ∀ r', d'.recipients.get key = some r' →
    ∃ r, d.recipients.get key = some r ∧ RowMoves r r'

lemma RowMoves.refl {r : RecipientRow} : RowMoves r r := ⟨Nat.le_refl _, fun _ => rfl⟩

variable {r r' r'' : RecipientRow} {e : EventId} {key : Key} {d d' d'' : Store}

lemma RowMoves.trans (h : RowMoves r r') (h' : RowMoves r' r'') : RowMoves r r'' where
  attempts := Nat.le_trans h.attempts h'.attempts
  state hr := by
    have hr' := h.state hr
    exact (h'.state (hr' ▸ hr)).trans hr'

lemma Moves.refl : Moves d d where
  events := Nat.le_refl _
  event _ _ o h := ⟨o, h, fun _ => rfl, fun _ r hr => ⟨r, hr⟩⟩
  row _ _ r h := ⟨r, h, .refl⟩

lemma Moves.trans (h : Moves d d') (h' : Moves d' d'') : Moves d d'' where
  events := Nat.le_trans h.events h'.events
  event e he o'' ho'' := by
    obtain ⟨o', ho', hs', hheld'⟩ := h'.event e (Nat.lt_of_lt_of_le he h.events) o'' ho''
    obtain ⟨o, ho, hs, hheld⟩ := h.event e he o' ho'
    refine ⟨o, ho, fun hp => (hs' (hs hp ▸ hp)).trans (hs hp), fun u r hr => ?_⟩
    obtain ⟨r', hr'⟩ := hheld u r hr
    exact hheld' u r' hr'
  row key hk r'' hr'' := by
    obtain ⟨r', hr', hm'⟩ := h'.row key (Nat.lt_of_lt_of_le hk h.events) r'' hr''
    obtain ⟨r, hr, hm⟩ := h.row key hk r' hr'
    exact ⟨r, hr, hm.trans hm'⟩

lemma Inv.row_known (h : Inv d)
    (hr : d.recipients.get key = some r) : key.1 < d.nextEvent := by
  obtain ⟨o, ho⟩ := h.row_event key r hr
  exact h.event_known _ _ ho

lemma Moves.row_of (h : Moves d d') (hI : Inv d) (hr : d.recipients.get key = some r)
    (hr' : d'.recipients.get key = some r') : RowMoves r r' := by
  obtain ⟨r0, hr0, hm⟩ := h.row key (hI.row_known hr) r' hr'
  cases hr.symm.trans hr0
  exact hm

/-! ### What a statement does -/

/-- What a statement does to the tables. An event stays with its recipients, is closed for good
while it is open, or is new; a row of a recipient changes as a row may, or belongs to a new
event. -/
structure Advances (d d' : Store) : Prop where
  events : d.nextEvent ≤ d'.nextEvent
  event : ∀ e o', d'.outbox.get e = some o' →
    (∃ o, d.outbox.get e = some o ∧
      (o'.status = o.status ∨ o.status = .pending ∧
        (∀ u r, d'.recipients.get (e, u) = some r → r.state ≠ .pending) ∧
        (o'.status = .dead ↔ ∃ u r, d'.recipients.get (e, u) = some r ∧ r.state = .dead)) ∧
      ∀ u r, d.recipients.get (e, u) = some r → ∃ r', d'.recipients.get (e, u) = some r') ∨
    d.nextEvent ≤ e ∧ e < d'.nextEvent ∧ o'.status = .pending
  row : ∀ key r', d'.recipients.get key = some r' →
    r'.attempts ≤ maxAttempts ∧ (∃ o', d'.outbox.get key.1 = some o') ∧
      ((∃ r, d.recipients.get key = some r ∧ RowMoves r r') ∨ d.nextEvent ≤ key.1)

section

variable {view : Store} {now : Millis} {locked : List EventId} {users : List UserId}
  {us : List CompletionRow}

lemma Moves.advances (h : Advances d d') : Moves d d' where
  events := h.events
  event e he o' ho' := by
    obtain ⟨o, ho, hs, hheld⟩ | ⟨hle, -⟩ := h.event e o' ho'
    · exact ⟨o, ho, fun hne => hs.resolve_right fun hc => hne hc.1, hheld⟩
    · exact absurd he (Nat.not_lt.mpr hle)
  row key hk r' hr' := (h.row key r' hr').2.2.resolve_right (Nat.not_le.mpr hk)

lemma claimable_of_claimed {q : ClaimQuery} {locked : List Key}
    (hk : key ∈ d.claimed view q locked) (hr : d.recipients.get key = some r) :
    r.state = .pending ∧ r.attempts < maxAttempts := by
  have hk := (List.mem_filter.mp (List.mem_of_mem_take hk)).2
  simp only [hr, Option.any_some, RecipientRow.claimable, Bool.and_eq_true, decide_eq_true_eq]
    at hk
  exact ⟨hk.2.1.1.1, hk.2.1.1.2⟩

lemma matches_of_completion {u : CompletionRow}
    (hu : d.completion view us key = some u) (hr : d.recipients.get key = some r) :
    u ∈ us ∧ (u.eventId, u.userId) = key ∧ r.state = .pending ∧ r.leaseToken = u.leaseToken := by
  obtain ⟨hfind, hmatch⟩ := Option.filter_eq_some_iff.mp hu
  obtain ⟨r0, -, hfind⟩ := Option.bind_eq_some_iff.mp hfind
  simp only [hr, Option.any_some, CompletionRow.matches, Bool.and_eq_true, decide_eq_true_eq]
    at hmatch
  exact ⟨List.mem_of_find?_eq_some hfind, hmatch.1.1, hmatch.1.2, hmatch.2⟩

lemma isOpen_iff : d.isOpen e = true ↔ ∃ o, d.outbox.get e = some o ∧ o.status = .pending := by
  unfold Store.isOpen
  cases d.outbox.get e <;> simp

lemma hasRecipient_iff {state : RecipientState} :
    d.hasRecipient e state = true ↔ ∃ u r, d.recipients.get (e, u) = some r ∧ r.state = state := by
  rw [Store.hasRecipient, Table.any_iff]
  constructor
  · rintro ⟨⟨e', u⟩, r, hr, h⟩
    simp only [Bool.and_eq_true, decide_eq_true_eq] at h
    obtain ⟨rfl, h⟩ := h
    exact ⟨u, r, hr, h⟩
  · rintro ⟨u, r, hr, h⟩
    exact ⟨(e, u), r, hr, by simp [h]⟩

/-- An event that is closed was open without a pending recipient when the statement began, and
is still open. -/
lemma of_mem_closed {q : CloseQuery} (he : e ∈ d.closed view q locked) :
    view.isOpen e = true ∧ view.hasRecipient e .pending = false ∧ d.isOpen e = true := by
  have he : e ∈ (((view.outbox.select fun e _ => view.isOpen e && !view.hasRecipient e .pending &&
      q.events.all fun es => decide (e ∈ es)).map Prod.fst).insertionSort (· ≤ ·)).filter
      d.isOpen := by
    unfold Store.closed at he
    cases hlimit : q.limit with
    | none => simpa only [hlimit] using he
    | some limit =>
      simp only [hlimit] at he
      exact (List.mem_filter.mp (List.mem_of_mem_take he)).1
  obtain ⟨hmem, hopen⟩ := List.mem_filter.mp he
  rw [List.mem_insertionSort, List.mem_map] at hmem
  obtain ⟨⟨e', o⟩, hsel, rfl⟩ := hmem
  have hp := (Table.mem_select.mp hsel).2
  simp only [Bool.and_eq_true, Bool.not_eq_true'] at hp
  exact ⟨hp.1.1, hp.1.2, hopen⟩

lemma of_mem_expired {limit : ℕ} (he : e ∈ d.expired view now limit locked) :
    ∃ o, d.outbox.get e = some o ∧ o.status ≠ .pending := by
  have he := (List.mem_filter.mp (List.mem_of_mem_take he)).2
  simp only [Bool.and_eq_true, Option.any_eq_true] at he
  obtain ⟨-, o, ho, hexp⟩ := he
  refine ⟨o, ho, fun hs => ?_⟩
  simp [OutboxRow.expired, hs] at hexp

lemma get_insert_of_ne (hk : key.1 ≠ d.nextEvent) :
    (d.insert users now).recipients.get key = d.recipients.get key := by
  unfold Store.insert
  generalize d.recipients = t
  induction users generalizing t with
  | nil => rfl
  | cons u users ih =>
    refine (ih _).trans (Table.get_put_of_ne _ ?_)
    rintro rfl
    exact hk rfl

lemma get_insert_new {u : UserId}
    (h : (d.insert users now).recipients.get (d.nextEvent, u) = some r) :
    r = ⟨.pending, none, none, 0, 0, now, none⟩ ∨
      d.recipients.get (d.nextEvent, u) = some r := by
  unfold Store.insert at h
  generalize d.recipients = t at h ⊢
  induction users generalizing t with
  | nil => exact .inr h
  | cons v users ih =>
    rcases ih _ h with h | h
    · exact .inl h
    · by_cases hv : u = v
      · subst hv
        rw [Table.get_put_self] at h
        exact .inl (Option.some.inj h).symm
      · rw [Table.get_put_of_ne _ (by simpa using hv)] at h
        exact .inr h

variable (hI : Inv d)
include hI

lemma Inv.advances (h : Advances d d') : Inv d' where
  event_known e o' ho' := by
    obtain ⟨o, ho, -⟩ | ⟨-, hlt, -⟩ := h.event e o' ho'
    · exact Nat.lt_of_lt_of_le (hI.event_known e o ho) h.events
    · exact hlt
  row_event key r' hr' := (h.row key r' hr').2.1
  attempts key r' hr' := (h.row key r' hr').1
  closed e o' ho' hs u r' hr' := by
    obtain ⟨o, ho, hstatus | ⟨-, hnone, -⟩, -⟩ | ⟨-, -, hp⟩ := h.event e o' ho'
    · obtain ⟨r, hr, hmoves⟩ | hnew := (h.row (e, u) r' hr').2.2
      · have hne := hI.closed e o ho (hstatus ▸ hs) u r hr
        rw [hmoves.state hne]
        exact hne
      · exact absurd (hI.event_known e o ho) (Nat.not_lt.mpr hnew)
    · exact hnone u r' hr'
    · exact absurd hp hs
  dead e o' ho' hs := by
    obtain ⟨o, ho, hstatus | ⟨-, -, hdead⟩, hheld⟩ | ⟨-, -, hp⟩ := h.event e o' ho'
    · rw [hstatus] at hs ⊢
      -- the recipients of a closed event are those that it had, in the states that they had
      have hsame : ∀ u r', d'.recipients.get (e, u) = some r' →
          ∃ r, d.recipients.get (e, u) = some r ∧ r'.state = r.state := by
        intro u r' hr'
        obtain ⟨r, hr, hmoves⟩ | hnew := (h.row (e, u) r' hr').2.2
        · exact ⟨r, hr, hmoves.state (hI.closed e o ho hs u r hr)⟩
        · exact absurd (hI.event_known e o ho) (Nat.not_lt.mpr hnew)
      rw [hI.dead e o ho hs]
      constructor
      · rintro ⟨u, r, hr, hdead⟩
        obtain ⟨r', hr'⟩ := hheld u r hr
        obtain ⟨r1, hr1, heq⟩ := hsame u r' hr'
        cases hr.symm.trans hr1
        exact ⟨u, r', hr', heq.trans hdead⟩
      · rintro ⟨u, r', hr', hdead⟩
        obtain ⟨r, hr, heq⟩ := hsame u r' hr'
        exact ⟨u, r, hr, heq.symm.trans hdead⟩
    · exact hdead
    · exact absurd hp hs

lemma Advances.mapRows {f : Key → RecipientRow → RecipientRow}
    (hf : ∀ key r, d.recipients.get key = some r →
      RowMoves r (f key r) ∧ (f key r).attempts ≤ maxAttempts) :
    Advances d { d with recipients := d.recipients.mapRows f } where
  events := Nat.le_refl _
  event e o ho := .inl ⟨o, ho, .inl rfl, fun u r hr =>
    ⟨f (e, u) r, by rw [Table.get_mapRows, hr]; rfl⟩⟩
  row key r' h := by
    obtain ⟨r, hr, rfl⟩ := Option.map_eq_some_iff.mp h
    exact ⟨(hf key r hr).2, hI.row_event key r hr, .inl ⟨r, hr, (hf key r hr).1⟩⟩

lemma Advances.lease {q : ClaimQuery} {token : ℕ} {locked : List Key} :
    Advances d (d.lease q token (d.claimed view q locked)) := by
  refine .mapRows hI fun key r hr => ?_
  by_cases hk : key ∈ d.claimed view q locked
  · obtain ⟨-, hlt⟩ := claimable_of_claimed hk hr
    simp only [hk, decide_true, if_true]
    exact ⟨⟨Nat.le_succ _, fun _ => rfl⟩, hlt⟩
  · simp only [hk, decide_false, Bool.false_eq_true, if_false]
    exact ⟨.refl, hI.attempts key r hr⟩

lemma Advances.complete :
    Advances d (d.complete view us) := by
  refine .mapRows hI fun key r hr => ?_
  cases hu : d.completion view us key with
  | none => exact ⟨.refl, hI.attempts key r hr⟩
  | some u =>
    obtain ⟨-, -, hpending, -⟩ := matches_of_completion hu hr
    exact ⟨⟨Nat.le_refl _, fun hne => absurd hpending hne⟩, hI.attempts key r hr⟩

/-! ### Statements on events -/

lemma Advances.close (hview : Inv view) (hmoves : Moves view d) {q : CloseQuery}
    : Advances d (d.close view q.now (d.closed view q locked)) := by
  -- of an event that is closed no recipient is pending, and the dead ones are those seen
  have hclosed : ∀ e ∈ d.closed view q locked,
      (∀ u r, d.recipients.get (e, u) = some r → r.state ≠ .pending) ∧
      (view.hasRecipient e .dead = true ↔
        ∃ u r, d.recipients.get (e, u) = some r ∧ r.state = .dead) := by
    intro e he
    obtain ⟨hopen, hno, hopen'⟩ := of_mem_closed he
    obtain ⟨o, ho, -⟩ := isOpen_iff.mp hopen
    obtain ⟨o', ho', -⟩ := isOpen_iff.mp hopen'
    have hdone : ∀ u r0, view.recipients.get (e, u) = some r0 → r0.state ≠ .pending := by
      intro u r0 hr0 hp
      have := hasRecipient_iff.mpr ⟨u, r0, hr0, hp⟩
      rw [hno] at this
      cases this
    have he' := hview.event_known e o ho
    refine ⟨fun u r hr => ?_, ?_⟩
    · obtain ⟨r0, hr0, hm⟩ := hmoves.row (e, u) he' r hr
      exact hm.state (hdone u r0 hr0) ▸ hdone u r0 hr0
    · rw [hasRecipient_iff]
      constructor
      · rintro ⟨u, r0, hr0, hdead⟩
        obtain ⟨-, -, -, hheld⟩ := hmoves.event e he' o' ho'
        obtain ⟨r, hr⟩ := hheld u r0 hr0
        exact ⟨u, r, hr, ((hmoves.row_of hview hr0 hr).state (hdone u r0 hr0)).trans hdead⟩
      · rintro ⟨u, r, hr, hdead⟩
        obtain ⟨r0, hr0, hm⟩ := hmoves.row (e, u) he' r hr
        exact ⟨u, r0, hr0, (hm.state (hdone u r0 hr0)).symm.trans hdead⟩
  refine ⟨Nat.le_refl _, fun e o' h => .inl ?_, fun key r hr => ?_⟩
  · obtain ⟨o, ho, rfl⟩ := Option.map_eq_some_iff.mp h
    refine ⟨o, ho, ?_, fun u r hr => ⟨r, hr⟩⟩
    dsimp only
    split
    · rename_i he
      obtain ⟨hnone, hdead⟩ := hclosed e he
      obtain ⟨o1, ho1, hs1⟩ := isOpen_iff.mp (of_mem_closed he).2.2
      cases ho.symm.trans ho1
      refine .inr ⟨hs1, hnone, Iff.trans ?_ hdead⟩
      cases view.hasRecipient e .dead <;> simp [OutboxRow.close]
    · exact .inl rfl
  · obtain ⟨o, ho⟩ := hI.row_event key r hr
    exact ⟨hI.attempts key r hr, ⟨_, congrArg (Option.map _) ho⟩, .inl ⟨r, hr, .refl⟩⟩

lemma Advances.remove (events : List EventId) : Advances d (d.remove events) := by
  have hrow : ∀ key r, (d.remove events).recipients.get key = some r ↔
      key.1 ∉ events ∧ d.recipients.get key = some r := by
    intro key r
    by_cases he : key.1 ∈ events <;> cases h : d.recipients.get key <;>
      simp [Store.remove, Table.get_deleteWhere, h, he]
  have hevent : ∀ e o, (d.remove events).outbox.get e = some o ↔
      e ∉ events ∧ d.outbox.get e = some o := by
    intro e o
    by_cases he : e ∈ events <;> cases h : d.outbox.get e <;>
      simp [Store.remove, Table.get_deleteWhere, h, he]
  refine ⟨Nat.le_refl _, fun e o h => .inl ?_, fun key r h => ?_⟩
  · obtain ⟨he, ho⟩ := (hevent e o).mp h
    exact ⟨o, ho, .inl rfl, fun u r hr => ⟨r, (hrow (e, u) r).mpr ⟨he, hr⟩⟩⟩
  · obtain ⟨hk, hr⟩ := (hrow key r).mp h
    obtain ⟨o, ho⟩ := hI.row_event key r hr
    exact ⟨hI.attempts key r hr, ⟨o, (hevent _ o).mpr ⟨hk, ho⟩⟩, .inl ⟨r, hr, .refl⟩⟩

lemma Advances.insert : Advances d (d.insert users now) := by
  have hold : ∀ e, e ≠ d.nextEvent → (d.insert users now).outbox.get e = d.outbox.get e :=
    fun e he => Table.get_put_of_ne _ he
  have hnew : (d.insert users now).outbox.get d.nextEvent = some ⟨.pending, now, none⟩ :=
    Table.get_put_self
  refine ⟨Nat.le_succ _, fun e o h => ?_, fun ⟨e, u⟩ r h => ?_⟩
  · by_cases he : e = d.nextEvent
    · subst he
      cases hnew.symm.trans h
      exact .inr ⟨Nat.le_refl _, Nat.lt_succ_self _, rfl⟩
    · rw [hold e he] at h
      exact .inl ⟨o, h, .inl rfl, fun u r hr => ⟨r, by rw [get_insert_of_ne he, hr]⟩⟩
  · by_cases he : e = d.nextEvent
    · subst he
      rcases get_insert_new h with rfl | h
      · exact ⟨Nat.zero_le _, ⟨_, hnew⟩, .inr (Nat.le_refl _)⟩
      · exact absurd (hI.row_known h) (Nat.lt_irrefl _)
    · rw [get_insert_of_ne he] at h
      obtain ⟨o, ho⟩ := hI.row_event _ r h
      exact ⟨hI.attempts _ r h, ⟨o, (hold e he).trans ho⟩, .inl ⟨r, h, .refl⟩⟩

lemma Inv.insert :
    Inv (d.insert users now) ∧ Moves d (d.insert users now) :=
  ⟨hI.advances (.insert hI), .advances (.insert hI)⟩

end

/-! ### Operations -/

/-- A statement that closes events has seen the tables as they were. -/
def owes : Op → Shared → Prop
  | .close _ view, s => Inv view ∧ Moves view s.store
  | .now, _ | .jitter, _ | .snapshot, _ | .claim _ _, _ | .deliver _, _ | .complete _ _, _
  | .remove _ _ _, _ => True

variable {o : Moment} {op : Op} {s : Shared}

lemma store_exec (hI : Inv s.store) (ho : owes op s) :
    Inv (Shared.exec op o s).2.store ∧ Moves s.store (Shared.exec op o s).2.store := by
  have hstays : Inv s.store ∧ Moves s.store s.store := ⟨hI, .refl⟩
  -- a statement that was not carried out leaves the tables as they are
  have hite : ∀ d, Advances s.store d → Inv (if o.outcome.applied then d else s.store) ∧
      Moves s.store (if o.outcome.applied then d else s.store) := by
    intro d hd
    split
    · exact ⟨hI.advances hd, .advances hd⟩
    · exact hstays
  cases op with
  | now | jitter | snapshot | deliver _ => exact hstays
  | claim q view => exact hite _ (.lease hI)
  | complete us view => exact hite _ (.complete hI)
  | close q view => exact hite _ (.close hI ho.1 ho.2)
  | remove now limit view => exact hite _ (.remove hI _)

/-- What an operation may have done to the row of a recipient. -/
inductive RowStep (o : Moment) (key : Key) (r : RecipientRow) : Op → RecipientRow → Prop
  | same (op : Op) : RowStep o key r op r
  | lease {q : ClaimQuery} {view : Store} (pending : r.state = .pending)
      (attempts : r.attempts < maxAttempts) : RowStep o key r (.claim q view) (r.lease q o.token)
  | complete {us : List CompletionRow} {view : Store} {u : CompletionRow} (mem : u ∈ us)
      (key_eq : (u.eventId, u.userId) = key) (pending : r.state = .pending)
      (token : r.leaseToken = u.leaseToken) : RowStep o key r (.complete us view) (r.complete u)

lemma row_exec {r' : RecipientRow}
    (h : (Shared.exec op o s).2.store.recipients.get key = some r') :
    ∃ r, s.store.recipients.get key = some r ∧ RowStep o key r op r' := by
  -- a statement that was not carried out leaves the row as it is
  have hite : ∀ d : Store, (if o.outcome.applied then d else s.store).recipients.get key = some r' →
      d.recipients.get key = some r' ∨ s.store.recipients.get key = some r' := by
    intro d hd
    split at hd
    · exact .inl hd
    · exact .inr hd
  cases op with
  | now | jitter | snapshot | deliver _ => exact ⟨r', h, .same _⟩
  | claim q view =>
    rcases hite _ h with h | h
    · obtain ⟨r, hr, rfl⟩ := Option.map_eq_some_iff.mp h
      refine ⟨r, hr, ?_⟩
      dsimp only
      split
      · rename_i hk
        obtain ⟨hp, hlt⟩ := claimable_of_claimed (of_decide_eq_true hk) hr
        exact .lease hp hlt
      · exact .same _
    · exact ⟨r', h, .same _⟩
  | complete us view =>
    rcases hite (s.store.complete view us) h with h | h
    · obtain ⟨r, hr, rfl⟩ := Option.map_eq_some_iff.mp h
      refine ⟨r, hr, ?_⟩
      dsimp only
      cases hu : s.store.completion view us key with
      | none => exact .same _
      | some u =>
        obtain ⟨hm, hk, hp, ht⟩ := matches_of_completion hu hr
        exact .complete hm hk hp ht
    · exact ⟨r', h, .same _⟩
  | close q view =>
    rcases hite _ h with h | h
    · exact ⟨r', h, .same _⟩
    · exact ⟨r', h, .same _⟩
  | remove now limit view =>
    rcases hite _ h with h | h
    · exact ⟨r', Table.get_of_get_deleteWhere h, .same _⟩
    · exact ⟨r', h, .same _⟩

lemma event_exec {row : OutboxRow}
    (hrow : s.store.outbox.get e = some row)
    (h : (Shared.exec op o s).2.store.outbox.get e = none) : row.status ≠ .pending := by
  have hite : ∀ d : Store, (if o.outcome.applied then d else s.store).outbox.get e = none →
      d.outbox.get e = none := by
    intro d hd
    split at hd
    · exact hd
    · rw [hrow] at hd
      cases hd
  have hstays : s.store.outbox.get e ≠ none := by simp [hrow]
  cases op with
  | now | jitter | snapshot | deliver _ => exact absurd h hstays
  | claim q view => exact absurd (hite _ h) hstays
  | complete us view => exact absurd (hite _ h) hstays
  | close q view =>
    have h := hite _ h
    exact absurd (Option.map_eq_none_iff.mp h) hstays
  | remove now limit view =>
    have h := hite _ h
    have hmem : e ∈ s.store.expired view now limit o.lockedEvents := by
      by_contra hne
      have hkeep := (Option.filter_eq_none_iff.mp h) row hrow
      simp only [Bool.not_eq_true', decide_eq_false_iff_not, not_not] at hkeep
      exact hne hkeep
    obtain ⟨row', hrow', hs⟩ := of_mem_expired hmem
    cases hrow.symm.trans hrow'
    exact hs

/-! ### Workers -/

/-- Terms under which the workers work: what they may count on of a claim that they hold, and
that it is enough for the completion. -/
structure Bound (T : Terms Shared Op Moment Job)
    (holds : ClaimedDispatchRecipient → Shared → Prop) : Prop where
  upholds : machine.Upholds T
  inv : ∀ s, T.inv s → Inv s.store
  moves : ∀ s s', T.moves s s' → Moves s.store s'.store
  owes : ∀ op s, (∀ us view, op ≠ .complete us view) → owes op s → T.owes op s
  stable : ∀ c s s', T.moves s s' → holds c s → holds c s'
  claims : ∀ i j q view o s claims, T.inv s → T.given i j (.claim q view) o s →
    (Shared.exec (.claim q view) o s).1 = (.ok claims : Except String _) →
    ∀ c ∈ claims, holds c (Shared.exec (.claim q view) o s).2
  completes : ∀ completions now jitter view s, T.inv s →
    (∀ c ∈ completions, holds c.claim s) →
    T.owes (.complete ((plans completions now jitter).map Prod.fst) view) s

namespace Bound

variable {T : Terms Shared Op Moment Job} {holds : ClaimedDispatchRecipient → Shared → Prop}
  (hT : Bound T holds) {i : ℕ} {j : Job} {s : Shared} {β : Type}
  {Q : Except ServerError β → Shared → Prop}

include hT

lemma owes_of_ne (hop : ∀ us view, op ≠ .complete us view)
    (ho : ∀ s', T.moves s s' → T.inv s' → Delivery.owes op s') :
    ∀ s', T.moves s s' → T.inv s' → T.owes op s' :=
  fun s' hs hI => hT.owes op s' hop (ho s' hs hI)

lemma keeps_ask {g : op.Res → DeliveryProg β} (hop : ∀ us view, op ≠ .complete us view)
    (ho : ∀ s, Delivery.owes op s)
    (hg : ∀ a s', T.moves s s' → T.inv s' → Keeps machine T i j Q (g a) s') :
    Keeps machine T i j Q (Prog.call op .ret >>= g) s := by
  refine keeps_call hT.upholds (hT.owes_of_ne hop fun s' _ _ => ho s') ?_
  exact fun o s' hs _ _ hs' hI' => hg _ _ (T.trans hs hs') hI'

lemma keeps_snapshot {g : Store → DeliveryProg β}
    (hg : ∀ view s', T.moves s s' → T.inv s' → Inv view → Moves view s'.store →
      Keeps machine T i j Q (g view) s') :
    Keeps machine T i j Q (snapshot >>= g) s := by
  refine keeps_call hT.upholds (hT.owes_of_ne nofun fun _ _ _ => trivial) ?_
  intro o s' hs hI _ hs' hI'
  exact hg s'.store _ (T.trans hs hs') hI' (hT.inv _ hI) (hT.moves _ _ hs')

omit hT in
lemma keeps_orError {text : String} {r : Except String β}
    (hok : ∀ b, r = .ok b → ∀ s', T.moves s s' → T.inv s' → Q (.ok b) s')
    (herr : ∀ e s', T.moves s s' → T.inv s' → Q (.error e) s') :
    Keeps machine T i j Q (orError text r) s := by
  cases r with
  | ok b => exact hok b rfl
  | error e => exact herr _

lemma keeps_then {γ : Type} {t : DeliveryProg γ} {g : γ → DeliveryProg β}
    (ht : Keeps machine T i j (fun _ _ => True) t s)
    (hg : ∀ c s', T.moves s s' → Keeps machine T i j (fun _ _ => True) (g c) s') :
    Keeps machine T i j (fun _ _ => True) (t >>= g) s :=
  Keeps.bind hT.upholds ht (fun c s' hs _ _ => hg c s' hs) fun _ _ _ _ _ => trivial

omit hT in
lemma keeps_fallible {text : String} {r : Except String β} :
    Keeps machine T i j (fun _ _ => True) (orError text r) s :=
  keeps_orError (fun _ _ _ _ _ => trivial) fun _ _ _ _ => trivial

lemma keeps_claim {owner : String} {limit : ℕ} {event : Option EventId} :
    Keeps machine T i j (fun r s => ∀ claims, r = .ok claims → ∀ c ∈ claims, holds c s)
      (claim owner limit event) s := by
  refine hT.keeps_ask nofun (fun _ => trivial) fun t s1 _ _ => ?_
  refine hT.keeps_snapshot fun view s2 _ _ _ _ => ?_
  refine keeps_call hT.upholds (hT.owes_of_ne nofun fun _ _ _ => trivial) ?_
  intro o s3 _ hI hg _ _
  refine keeps_orError (fun claims hclaims s4 hs _ claims' hok c hc => ?_) fun _ _ _ _ => nofun
  cases hok
  exact hT.stable c _ s4 hs (hT.claims i j _ view o s3 claims hI hg hclaims c hc)

lemma keeps_completeMany {completions : List DispatchCompletion}
    (hc : ∀ c ∈ completions, holds c.claim s) :
    Keeps machine T i j (fun _ _ => True) (completeMany completions) s := by
  unfold completeMany
  split
  · exact fun _ _ _ => trivial
  · refine hT.keeps_ask nofun (fun _ => trivial) fun t s1 hs1 _ => ?_
    refine hT.keeps_ask nofun (fun _ => trivial) fun delay s2 hs2 _ => ?_
    refine hT.keeps_snapshot fun view s3 hs3 _ _ _ => ?_
    have hs := T.trans (T.trans hs1 hs2) hs3
    refine keeps_call hT.upholds (fun s4 hs4 hI => ?_) ?_
    · exact hT.completes _ _ _ _ s4 hI fun c hm =>
        hT.stable c.claim s s4 (T.trans hs hs4) (hc c hm)
    · exact fun _ _ _ _ _ _ _ => hT.keeps_then keeps_fallible fun _ _ _ _ _ _ => trivial

lemma keeps_close (q : Millis → CloseQuery) (text : String) :
    Keeps machine T i j (fun _ _ => True) (do
      let now ← now
      let view ← snapshot
      .call (.close (q now) view) (orError text)) s := by
  refine hT.keeps_ask nofun (fun _ => trivial) fun t s1 _ _ => ?_
  refine hT.keeps_snapshot fun view s2 _ _ hview hmoves => ?_
  refine keeps_call hT.upholds (hT.owes_of_ne nofun fun s3 hs _ => ?_) ?_
  · exact ⟨hview, hmoves.trans (hT.moves _ _ hs)⟩
  · exact fun _ _ _ _ _ _ _ => keeps_fallible

lemma keeps_reconcileEvents {events : List EventId} :
    Keeps machine T i j (fun _ _ => True) (reconcileEvents events) s := by
  unfold reconcileEvents
  split
  · exact fun _ _ _ => trivial
  · exact hT.keeps_close (fun now => ⟨now, some events, none⟩) _

lemma keeps_dispatchClaims {claims : List ClaimedDispatchRecipient} (hc : ∀ c ∈ claims, holds c s) :
    Keeps machine T i j (fun _ _ => True) (dispatchClaims claims) s := by
  refine hT.keeps_ask nofun (fun _ => trivial) fun attempt s1 hs1 _ => ?_
  refine hT.keeps_then (hT.keeps_completeMany fun c hm => ?_) fun outcomes s2 _ => ?_
  · obtain ⟨c', hm', rfl⟩ := List.mem_map.mp hm
    exact hT.stable c' s s1 hs1 (hc c' hm')
  · exact hT.keeps_then hT.keeps_reconcileEvents fun _ _ _ _ _ _ => trivial

lemma serves : Serves machine T fun _ _ _ => True := by
  have hwork : ∀ i j s (owner : String) (event : Option EventId),
      Keeps machine T i j (fun _ _ => True) (do
        let claims ← claim owner defaultChunkSize event
        return Answer.outcomes (← dispatchClaims claims)) s := by
    intro i j s owner event
    refine Keeps.bind hT.upholds hT.keeps_claim ?_ fun _ _ _ _ _ => trivial
    intro claims s1 _ _ hclaims
    exact hT.keeps_then (hT.keeps_dispatchClaims (hclaims claims rfl)) fun _ _ _ _ _ _ => trivial
  intro i j s _ _
  cases j with
  | dispatchEvent owner event => exact hwork i _ s owner (some event)
  | processOnce owner => exact hwork i _ s owner none
  | reconcileTerminalParents limit =>
    exact hT.keeps_then (hT.keeps_close (fun now => ⟨now, none, some (min (max limit 1) 1000)⟩) _)
      fun _ _ _ _ _ _ => trivial
  | cleanupRetained nowMs limit =>
    refine hT.keeps_snapshot fun view s1 _ _ _ _ => ?_
    refine keeps_call hT.upholds (hT.owes_of_ne nofun fun _ _ _ => trivial) ?_
    exact fun _ _ _ _ _ _ _ => hT.keeps_then keeps_fallible fun _ _ _ _ _ _ => trivial

end Bound

/-- Nothing is given beyond what the tables keep to. -/
def terms : Terms Shared Op Moment Job where
  inv s := Inv s.store
  moves s s' := Moves s.store s'.store
  owes := owes
  given _ _ _ _ _ := True
  refl _ := .refl
  trans := .trans

lemma bound : Bound terms fun _ _ => True where
  upholds := {
    call := fun _ _ _ _ _ hI ho _ => store_exec hI ho
    env := fun x s hI => by
      obtain ⟨users⟩ := x
      exact hI.insert }
  inv _ h := h
  moves _ _ h := h
  owes _ _ _ h := h
  stable _ _ _ _ _ := trivial
  claims _ _ _ _ _ _ _ _ _ _ _ _ := trivial
  completes _ _ _ _ _ _ _ := trivial

variable (clock : Millis) (evs : List DeliveryEvent)

lemma inv_empty : Inv (Shared.empty clock).store where
  event_known _ _ h := nomatch h
  row_event _ _ h := nomatch h
  attempts _ _ h := nomatch h
  closed _ _ h := nomatch h
  dead _ _ h := nomatch h

lemma healthy_run : Healthy machine terms (fun _ _ _ => True)
      (machine.run (.init (Shared.empty clock)) evs) :=
  (healthy_init (inv_empty clock)).run bound.upholds bound.serves evs (givenRun_true machine _)

lemma inv_run :
    Inv (machine.run (.init (Shared.empty clock)) evs).shared.store := (healthy_run clock evs).inv

lemma moves_run (evs' : List DeliveryEvent) :
    Moves (machine.run (.init (Shared.empty clock)) evs).shared.store
      (machine.run (.init (Shared.empty clock)) (evs ++ evs')).shared.store := by
  rw [Machine.run_append]
  exact (healthy_run clock evs).moves_run bound.upholds bound.serves evs'
    (givenRun_true machine _)

/-- **Recipients are frozen.** An event has the recipients that it was created with for as long as
it is there, and no recipient is without its event. -/
theorem recipients_frozen (evs' : List DeliveryEvent) :
    let d := (machine.run (.init (Shared.empty clock)) evs).shared.store
    let d' := (machine.run (.init (Shared.empty clock)) (evs ++ evs')).shared.store
    (∀ key, (d.recipients.get key).isSome → (d.outbox.get key.1).isSome) ∧
    ∀ e < d.nextEvent, (d'.outbox.get e).isSome → ∀ u,
      ((d.recipients.get (e, u)).isSome ↔ (d'.recipients.get (e, u)).isSome) := by
  have hm := moves_run clock evs evs'
  simp only [Option.isSome_iff_exists]
  refine ⟨fun key ⟨r, h⟩ => (inv_run clock evs).row_event key r h, fun e he ⟨o', ho⟩ u => ⟨?_, ?_⟩⟩
  · rintro ⟨r, hr⟩
    obtain ⟨_, _, _, hkept⟩ := hm.event e he o' ho
    exact hkept u r hr
  · rintro ⟨r', hr⟩
    obtain ⟨r, hr, _⟩ := hm.row (e, u) he r' hr
    exact ⟨r, hr⟩

end PrivChat.Delivery
