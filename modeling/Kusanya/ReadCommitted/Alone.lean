import Kusanya.ReadCommitted.Interleaving

/-!
# One transaction and a crash

A schedule of a single transaction lets it go on or crash.  Until the commit the committed
state stays what it was, and the commit writes what `exec` says; the calls are a beginning of
those that the program makes when it is run alone, and no crash takes them back.
-/

namespace ReadCommitted

variable {S K E V α : Type}

/-- How far the only transaction, a run of `p` from `s`, has come. -/
def Session.FollowsAlone (p : Txn S K E V α) (s store : S) (calls : List V) :
    Session S K E V α → Prop
  | running q pend _ _ =>
      store = s ∧ q.exec (pend s) = p.exec s ∧ p.calls s = calls ++ q.calls (pend s)
  | committed a => p.exec s = .ok (a, store) ∧ p.calls s = calls
  | raised e => p.exec s = .error e ∧ store = s ∧ p.calls s = calls
  | crashed => store = s ∧ ∃ rest, p.calls s = calls ++ rest

/-- The transaction has neither committed nor failed. -/
def Session.isRunning : Session S K E V α → Bool
  | running .. => true
  | _ => false

namespace Config

variable {p : Txn S K E V α} {s : S} {c : Config S K E V α}

/-- No transaction is running any more. -/
def Over (c : Config S K E V α) : Prop := ∀ x ∈ c.sessions, x.isRunning = false

instance (c : Config S K E V α) : Decidable c.Over := List.decidableBAll _ _

/-- The configuration has one transaction, a run of `p` from `s`. -/
def FollowsAlone (p : Txn S K E V α) (s : S) (c : Config S K E V α) : Prop :=
  ∃ x, c.sessions = [x] ∧ x.FollowsAlone p s c.store c.calls

theorem followsAlone_start (p : Txn S K E V α) (s : S) : FollowsAlone p s (start s [p]) :=
  ⟨.running p id [] [], rfl, rfl, rfl, rfl⟩

theorem FollowsAlone.calls_prefix (h : FollowsAlone p s c) {v : V} (hv : v ∈ c.calls) :
    v ∈ p.calls s := by
  obtain ⟨x, -, hx⟩ := h
  cases x with
  | running q pend held seen =>
      rw [hx.2.2]
      exact List.mem_append_left _ hv
  | committed a => exact hx.2 ▸ hv
  | raised e => exact hx.2.2 ▸ hv
  | crashed =>
      obtain ⟨-, rest, hrest⟩ := hx
      rw [hrest]
      exact List.mem_append_left _ hv

section Schedules

variable [DecidableEq K]

/-- One statement. -/
theorem followsAlone_execute {q : Txn S K E V α} {pend : S → S} {held : List K}
    {seen : List (K × S)} (hsessions : c.sessions = [.running q pend held seen])
    (h : Session.FollowsAlone p s c.store c.calls (.running q pend held seen)) :
    FollowsAlone p s (c.execute 0 pend held seen q) := by
  have hput : ∀ x, (c.put 0 x).sessions = [x] := by
    intro x
    rw [put, hsessions]
    rfl
  obtain ⟨hstore, hexec, hcalls⟩ := h
  cases q with
  | ret a =>
      refine ⟨.committed a, hput _, ?_, ?_⟩
      · change p.exec s = .ok (a, pend c.store)
        rw [← hexec, hstore]
        rfl
      · exact hcalls.trans (List.append_nil _)
  | throw e => exact ⟨.raised e, hput _, hexec.symm, hstore, hcalls.trans (List.append_nil _)⟩
  | read k n =>
      refine ⟨_, hput _, hstore, ?_, ?_⟩
      · rw [hstore]
        exact hexec
      · rw [hstore]
        exact hcalls
  | write w n => exact ⟨_, hput _, hstore, hexec, hcalls⟩
  | lock k n =>
      change FollowsAlone p s
        (if c.free 0 k then c.put 0 (.running n pend (k :: held) seen) else c)
      split
      · exact ⟨_, hput _, hstore, hexec, hcalls⟩
      · exact ⟨_, hsessions, hstore, hexec, hcalls⟩
  | release ks n => exact ⟨_, hput _, hstore, hexec, hcalls⟩
  | call v n =>
      refine ⟨_, hput _, hstore, hexec, ?_⟩
      change p.calls s = (c.calls ++ [v]) ++ n.calls (pend s)
      rw [List.append_assoc]
      exact hcalls

/-- One event. -/
theorem followsAlone_step (h : FollowsAlone p s c) (e : Event) : FollowsAlone p s (c.step e) := by
  obtain ⟨x, hsessions, hx⟩ := h
  have hstays : FollowsAlone p s c := ⟨x, hsessions, hx⟩
  cases e with
  | advance i =>
      cases i with
      | succ i => simpa [step, hsessions] using hstays
      | zero =>
          cases x with
          | running q pend held seen =>
              have hstep : c.step (.advance 0) = c.execute 0 pend held seen q := by
                simp [step, hsessions]
              rw [hstep]
              exact followsAlone_execute hsessions hx
          | _ => simpa [step, hsessions] using hstays
  | crash i =>
      cases i with
      | succ i => simpa [step, hsessions] using hstays
      | zero =>
          cases x with
          | running q pend held seen =>
              have hstep : c.step (.crash 0) = c.put 0 .crashed := by simp [step, hsessions]
              rw [hstep]
              refine ⟨.crashed, ?_, hx.1, _, hx.2.2⟩
              rw [put, hsessions]
              rfl
          | _ => simpa [step, hsessions] using hstays

/-- Along every schedule. -/
theorem followsAlone_run (p : Txn S K E V α) (s : S) (schedule : List Event) :
    FollowsAlone p s ((start s [p]).run schedule) := by
  have hrun : ∀ (c : Config S K E V α), FollowsAlone p s c → FollowsAlone p s (c.run schedule) := by
    induction schedule with
    | nil => exact fun c hc => hc
    | cons e es ih => exact fun c hc => ih _ (followsAlone_step hc e)
  exact hrun _ (followsAlone_start p s)

end Schedules

end Config

end ReadCommitted
