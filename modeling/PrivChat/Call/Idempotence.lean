import PrivChat.Call.Claims

/-!
Commands made twice.

A control command is recorded for ever, and a second submission of its key answers from the
record or fails. A signal is recorded with the journal, whose rows are swept when they have
expired; as long as the record is there, a second submission adds nothing to the journal.
-/

namespace PrivChat.Call

open PrivChat.Db

variable {sv : CallService} {W : List LockKey → World → Prop} {d v : Db} {j : Job}
  {h : List LockKey} {code : CallTx Answer} {s s' : StoredCall} {k : CommandKey}

/-- The sequence number of the call's journal is at least that. -/
def Reaches (d : Db) (c : CallId) (n : ℕ) : Prop :=
  ∃ row, d.calls.get c = some row ∧ n ≤ row.document.peerSeq

def Job.key : Job → Option CommandKey
  | .invite actor device req => some ⟨actor, device, req.commandId⟩
  | .mutate _ actor device req => some ⟨actor, device, req.commandId⟩
  | .peerSignal actor device req => some ⟨actor, device, req.commandId⟩
  | .get .. | .peerEvents .. | .sweep => none

def CallService.controlFingerprint (sv : CallService) : Job → Option String
  | .invite _ _ req => some (sv.fingerprint .invite req.encode)
  | .mutate route _ _ req => some (sv.fingerprint (.mutate route) req.encode)
  | .get .. | .peerSignal .. | .peerEvents .. | .sweep => none

variable {row : CommandRow}

/-- The call is brought up to date, and the attempt is counted; nothing else. -/
def Counted (sv : CallService) (actor : UserId) (req : CallPeerSignalRequest) (d v : Db) : Prop :=
  ∃ s v0 rate, Expired sv (fun _ _ => True) d req.callId s v0 ∧
    v = v0.putPeerRate ⟨req.callId, actor, .signal⟩ rate

variable {a : Answer}

/-- What is given out again is the recorded response, peer configuration and all. -/
lemma Returned.recorded (hrec : RecordsOk sv d)
    (hr : Returned sv d j a) (hk : j.key = some k) (hrow : d.commands.get k = some row) :
    sv.controlFingerprint j = some row.fingerprint ∧ a = .response row.response := by
  cases hr with
  | @invite actor device req row' hrow' hfp =>
    cases hk
    obtain rfl := Option.some.inj (hrow'.symm.trans hrow)
    exact ⟨congrArg some hfp.symm, rfl⟩
  | @mutate route actor device req row' hrow' hfp =>
    cases hk
    obtain rfl := Option.some.inj (hrow'.symm.trans hrow)
    exact ⟨congrArg some hfp.symm, rfl⟩
  | @join actor device req row' crow r hrow' hfp hcrow hown hresp =>
    cases hk
    obtain rfl := Option.some.inj (hrow'.symm.trans hrow)
    refine ⟨congrArg some hfp.symm, ?_⟩
    rcases hresp with rfl | ⟨jr, hjr, rfl, ht, hturn⟩
    · rfl
    · obtain ⟨crow', hcrow', -, hpeer⟩ := hrec _ _ .join req hrow hfp rfl
      obtain rfl := Option.some.inj (hcrow.symm.trans hcrow')
      obtain ⟨jr', hjr', hp⟩ := hpeer rfl ht hturn
      rw [hjr] at hjr'
      cases hjr'
      rw [hjr, hp]

variable {evs : List CallEvent}

variable {evs' : List CallEvent} {i : ℕ}

section Answers

variable (hk : j.key = some k) (hi : (sv.run evs).procs i = .free)
  (ha : (sv.run (evs ++ evs')).procs i = .finished j (.ok a))
include hk hi ha

end Answers

/-- The sample service, with leases longer than the journal is kept. -/
def journalService : CallService :=
  { sampleService with
    config := { sampleService.config with
      peer := { enabled := true, journalTtlSeconds := 60 }
      heartbeatLeaseSeconds := 300 }
    valid := rfl }

/-- User `1` sends a candidate. -/
def sampleIce : Job := .peerSignal 1 "a" ⟨"c4", 9, 1, .ice, "candidate"⟩

end PrivChat.Call
