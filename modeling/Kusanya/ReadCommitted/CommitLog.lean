import Kusanya.ReadCommitted.Interleaving

/-!
# The log of commits

What the transactions of a schedule ended with, in the order of their commits.  Where every
commit has an effect that depends on its transaction and its result, the log tells the committed
states from the first to the last (`run_tells`).
-/

namespace ReadCommitted

variable {S K E V α ι : Type}

/-- The effects of a log, one after the other. -/
inductive Tells (Eff : ι → S → S → Prop) : S → List ι → S → Prop where
  | nil (s : S) : Tells Eff s [] s
  | cons {s t u : S} {x : ι} {log : List ι} (first : Eff x s t) (rest : Tells Eff t log u) :
      Tells Eff s (x :: log) u

/-- What holds at first and is kept by every effect; `I` may speak about the log so far. -/
theorem Tells.invariant {Eff : ι → S → S → Prop} {I : List ι → S → Prop} {s t : S}
    {log : List ι} (h : Tells Eff s log t) {before : List ι} (hs : I before s)
    (hstep : ∀ earlier x s t, I earlier s → Eff x s t → I (earlier ++ [x]) t) :
    I (before ++ log) t := by
  induction h generalizing before with
  | nil => rwa [List.append_nil]
  | @cons _ _ _ x log first _ ih =>
      have hrest := ih (hstep before x _ _ hs first)
      rwa [List.append_assoc] at hrest

/-- The state between two parts of a log. -/
theorem Tells.split {Eff : ι → S → S → Prop} {s u : S} {log log' : List ι}
    (h : Tells Eff s (log ++ log') u) : ∃ t, Tells Eff s log t ∧ Tells Eff t log' u := by
  induction log generalizing s with
  | nil => exact ⟨s, .nil s, h⟩
  | cons x log ih =>
      cases h with
      | cons first rest =>
          obtain ⟨t, hlog, hlog'⟩ := ih rest
          exact ⟨t, .cons first hlog, hlog'⟩

namespace Config

variable [DecidableEq K]

/-- The transaction that the event commits, and what it ends with. -/
def commitOf (c : Config S K E V α) : Event → Option (ℕ × α)
  | .advance i =>
      match c.sessions[i]? with
      | some (.running (.ret a) _ _ _) => some (i, a)
      | _ => none
  | .crash _ => none

/-- The commits of a schedule, in order. -/
def commits (c : Config S K E V α) : List Event → List (ℕ × α)
  | [] => []
  | e :: es => (c.commitOf e).toList ++ commits (c.step e) es

/-- Where `i` is no running transaction it never is one again. -/
theorem step_ended {c : Config S K E V α} {i : ℕ} (e : Event)
    (h : ∀ program pend held seen, c.sessions[i]? ≠ some (.running program pend held seen)) :
    ∀ program pend held seen, (c.step e).sessions[i]? ≠ some (.running program pend held seen) := by
  have hput : ∀ (j : ℕ) (x : Session S K E V α),
      (∃ program pend held seen, c.sessions[j]? = some (.running program pend held seen)) →
      ∀ program pend held seen,
        (c.sessions.set j x)[i]? ≠ some (.running program pend held seen) := by
    rintro j x ⟨program, pend, held, seen, hj⟩
    have hne : j ≠ i := by
      rintro rfl
      exact h program pend held seen hj
    rw [List.getElem?_set_ne hne]
    exact h
  cases e with
  | advance j =>
      cases hj : c.sessions[j]? with
      | none => simpa [step, hj] using h
      | some x =>
          cases x with
          | running program pend held seen =>
              have hrunning := fun x => hput j x ⟨program, pend, held, seen, hj⟩
              simp only [step, hj]
              cases program with
              | ret a => exact hrunning (.committed a)
              | throw e => exact hrunning (.raised e)
              | read k n => exact hrunning _
              | write w n => exact hrunning _
              | lock k n =>
                  simp only [execute]
                  split
                  · exact hrunning _
                  · exact h
              | release ks n => exact hrunning _
              | call v n => exact hrunning _
          | committed a => simpa [step, hj] using h
          | raised e => simpa [step, hj] using h
          | crashed => simpa [step, hj] using h
  | crash j =>
      cases hj : c.sessions[j]? with
      | none => simpa [step, hj] using h
      | some x =>
          cases x with
          | running program pend held seen =>
              simp only [step, hj]
              exact hput j .crashed ⟨program, pend, held, seen, hj⟩
          | committed a => simpa [step, hj] using h
          | raised e => simpa [step, hj] using h
          | crashed => simpa [step, hj] using h

theorem commits_ended {c : Config S K E V α} (schedule : List Event) {i : ℕ}
    (h : ∀ program pend held seen, c.sessions[i]? ≠ some (.running program pend held seen)) :
    i ∉ (c.commits schedule).map Prod.fst := by
  induction schedule generalizing c with
  | nil => exact List.not_mem_nil
  | cons e es ih =>
      rw [commits, List.map_append, List.mem_append, not_or]
      refine ⟨fun hnow => ?_, ih (step_ended e h)⟩
      obtain ⟨x, hx, rfl⟩ := List.mem_map.mp hnow
      have hcommit := Option.mem_toList.mp hx
      cases e with
      | crash j => cases hcommit
      | advance j =>
          simp only [commitOf] at hcommit
          split at hcommit
          · next program pend held seen hj =>
              obtain rfl := Option.some.inj hcommit
              exact h _ _ _ _ hj
          · cases hcommit

/-- What an event commits is no running transaction any more. -/
theorem commitOf_ended {c : Config S K E V α} {e : Event} {x : ℕ × α}
    (h : c.commitOf e = some x) :
    ∀ program pend held seen,
      (c.step e).sessions[x.1]? ≠ some (.running program pend held seen) := by
  cases e with
  | crash j => cases h
  | advance j =>
      simp only [commitOf] at h
      split at h
      · next a pend held seen hj =>
          obtain rfl := Option.some.inj h
          obtain ⟨hlt, -⟩ := List.getElem?_eq_some_iff.mp hj
          simp only [step, hj, execute, put]
          rw [List.getElem?_set_self hlt]
          exact fun program pend held seen hrunning => by cases hrunning
      · cases h

/-- A transaction commits at most once. -/
theorem commits_nodup (c : Config S K E V α) (schedule : List Event) :
    ((c.commits schedule).map Prod.fst).Nodup := by
  induction schedule generalizing c with
  | nil => exact List.nodup_nil
  | cons e es ih =>
      rw [commits, List.map_append]
      cases hcommit : c.commitOf e with
      | none => exact ih (c.step e)
      | some x => exact List.nodup_cons.mpr ⟨commits_ended es (commitOf_ended hcommit), ih _⟩

variable {J : S → Prop} {C : S → (S → S) → List (K × S) → Prop} {Eff : ℕ × α → S → S → Prop}
  {programs : List (Txn S K E V α)}

/-- An event without a commit leaves the committed state alone. -/
theorem step_store {c : Config S K E V α} {e : Event} (h : c.commitOf e = none) :
    (c.step e).store = c.store := by
  cases e with
  | advance j =>
      simp only [commitOf] at h
      simp only [step]
      split
      · next program pend held seen hj =>
          rw [hj] at h
          cases program with
          | ret a => cases h
          | lock k n =>
              simp only [execute]
              split
              · rfl
              · rfl
          | _ => rfl
      · rfl
  | crash j =>
      simp only [step]
      split
      · rfl
      · rfl

/-- What a commit applies. -/
theorem commitOf_some {c : Config S K E V α} {e : Event} {i : ℕ} {a : α}
    (h : c.commitOf e = some (i, a)) :
    ∃ pend held seen, c.sessions[i]? = some (.running (.ret a) pend held seen) ∧
      c.committing e = some (pend, seen) ∧ (c.step e).store = pend c.store := by
  cases e with
  | crash j => cases h
  | advance j =>
      simp only [commitOf] at h
      split at h
      · next a' pend held seen hj =>
          obtain ⟨rfl, rfl⟩ := Prod.mk.inj (Option.some.inj h)
          refine ⟨pend, held, seen, hj, ?_, ?_⟩
          · simp only [committing, hj]
          · simp only [step, hj, execute]
      · cases h

/-- Along every schedule whose commits meet the condition, the log tells the committed states. -/
theorem run_tells {c : Config S K E V α}
    (hcommit : ∀ i p, programs[i]? = some p → ∀ s pend seen a, J s → (∀ x ∈ seen, J x.2) →
      p.Leaves seen (.ret a) pend → C s pend seen → J (pend s) ∧ Eff (i, a) s (pend s))
    (hc : Sound J (fun _ _ => True) programs c) (schedule : List Event)
    (hmeets : CommitsMeet C c schedule) :
    Tells Eff c.store (c.commits schedule) (c.run schedule).store := by
  induction schedule generalizing c with
  | nil => exact .nil _
  | cons e es ih =>
      obtain ⟨hmeet, hlater⟩ := hmeets
      have hsound : Sound J (fun _ _ => True) programs (c.step e) := by
        refine sound_step (fun p hp s pend seen a hs hseen hleaves hC => ⟨?_, trivial⟩) hc e hmeet
        obtain ⟨i, hi⟩ := List.getElem?_of_mem hp
        exact (hcommit i p hi s pend seen a hs hseen hleaves hC).1
      have hrest := ih hsound hlater
      rw [commits]
      cases hnow : c.commitOf e with
      | none =>
          rw [step_store hnow] at hrest
          exact hrest
      | some x =>
          obtain ⟨i, a⟩ := x
          obtain ⟨pend, held, seen, hsession, hcommitting, hstore⟩ := commitOf_some hnow
          obtain ⟨p, -, hp, hleaves, hseen⟩ := forall₂_get hc.sessions hsession
          have heffect := (hcommit i p hp c.store pend seen a
            (hc.committed _ c.store_mem_history) hseen hleaves (hmeet pend seen hcommitting)).2
          rw [← hstore] at heffect
          exact .cons heffect hrest

end Config

end ReadCommitted
