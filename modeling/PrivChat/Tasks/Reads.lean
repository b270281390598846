import PrivChat.Tasks.Prog

/-!
Code that only reads. What an operation answers is fixed, so the code is a function of the
answers, and which operations it calls can be read off.
-/

namespace PrivChat.Tasks.Prog

variable {Op : Type} {Res : Op → Type} {ε α β : Type} (answer : (op : Op) → Res op)

/-- What the code ends with. -/
def answered : Prog Op Res ε α → Except ε α
  | ret a => .ok a
  | fail e => .error e
  | call op k => (k (answer op)).answered

def asked : Prog Op Res ε α → List Op
  | ret _ | fail _ => []
  | call op k => op :: (k (answer op)).asked

variable {answer}

@[simp] lemma answered_ret (a : α) : (ret a : Prog Op Res ε α).answered answer = .ok a := rfl

@[simp] lemma answered_fail (e : ε) : (fail e : Prog Op Res ε α).answered answer = .error e := rfl

@[simp] lemma asked_ret (a : α) : (ret a : Prog Op Res ε α).asked answer = [] := rfl

@[simp] lemma asked_fail (e : ε) : (fail e : Prog Op Res ε α).asked answer = [] := rfl

lemma answered_bind (t : Prog Op Res ε α) (g : α → Prog Op Res ε β) :
    (t >>= g).answered answer = t.answered answer >>= fun a => (g a).answered answer := by
  induction t with
  | ret a => rfl
  | fail e => rfl
  | call op k ih => exact ih (answer op)

variable {t : Prog Op Res ε α}

lemma asked_bind_ok {a : α} (h : t.answered answer = .ok a)
    (g : α → Prog Op Res ε β) : (t >>= g).asked answer = t.asked answer ++ (g a).asked answer := by
  induction t with
  | ret b =>
    cases h
    rfl
  | fail e => cases h
  | call op k ih => exact congrArg (op :: ·) (ih (answer op) h)

variable (answer) in
/-- The code ends well only if everything it has asked was answered well. -/
def Heeds (good : Op → Prop) (t : Prog Op Res ε α) : Prop :=
  ∀ a, t.answered answer = .ok a → ∀ op ∈ t.asked answer, good op

lemma Heeds.bind {good : Op → Prop} {g : α → Prog Op Res ε β}
    (ht : t.Heeds answer good) (hg : ∀ a, (g a).Heeds answer good) :
    (t >>= g).Heeds answer good := by
  intro b hb op hop
  rw [answered_bind] at hb
  cases h : t.answered answer with
  | error e =>
    rw [h] at hb
    cases hb
  | ok a =>
    rw [h] at hb
    rw [asked_bind_ok h, List.mem_append] at hop
    rcases hop with hop | hop
    · exact ht a h op hop
    · exact hg a b hb op hop

end PrivChat.Tasks.Prog
