import Kusanya.ReadCommitted.Logic
import Mathlib.Data.List.Chain

/-!
# Requests processed one at a time

A system is a handler for each request.  A request that ends normally commits; a
request that raises leaves the state as it was.  `after` is the state when a list
of requests has been processed, and `Ever` speaks about the states on the way.
-/

namespace ReadCommitted

variable {S K E V ι : Type}

/-- A request processed alone: all of it or nothing. -/
def Txn.commit (p : Txn S K E V Unit) (s : S) : S :=
  match p.exec s with
  | .ok (_, t) => t
  | .error _ => s

theorem Txn.commit_ok {p : Txn S K E V Unit} {s t : S} (h : p.exec s = .ok ((), t)) :
    p.commit s = t := by
  rw [commit, h]

theorem Txn.commit_error {p : Txn S K E V Unit} {s : S} {e : E} (h : p.exec s = .error e) :
    p.commit s = s := by
  rw [commit, h]

/-- A request either raised and changed nothing, or ended normally. -/
theorem Txn.commit_cases (p : Txn S K E V Unit) (s : S) :
    ((∃ e, p.exec s = .error e) ∧ p.commit s = s) ∨ p.exec s = .ok ((), p.commit s) := by
  cases h : p.exec s with
  | error e => exact Or.inl ⟨⟨e, rfl⟩, commit_error h⟩
  | ok r =>
      obtain ⟨⟨⟩, t⟩ := r
      rw [commit_ok h]
      exact Or.inr rfl

/-! ## What a program leaves alone -/

/-- Run alone, `p` leaves `f` of the state alone when it ends normally. -/
def Txn.Keeps {α X : Type} (f : S → X) (p : Txn S K E V α) : Prop :=
  ∀ s a t, p.exec s = .ok (a, t) → f t = f s

namespace Txn

variable {α β X Y : Type} {f : S → X} {p : Txn S K E V α} {g : α → Txn S K E V β}

theorem keeps_ret (a : α) : Keeps f (ret a : Txn S K E V α) := by
  intro s b t h
  rw [(Prod.mk.inj (Except.ok.inj h)).2]

theorem keeps_throw (e : E) : Keeps f (throw e : Txn S K E V α) := fun _ _ _ h => by cases h

theorem keeps_fetch (k : K) (q : S → α) : Keeps f (fetch k q : Txn S K E V α) := by
  intro s b t h
  rw [(Prod.mk.inj (Except.ok.inj h)).2]

theorem keeps_modify {w : S → S} (hw : ∀ s, f (w s) = f s) :
    Keeps f (modify w : Txn S K E V Unit) := by
  intro s b t h
  rw [← (Prod.mk.inj (Except.ok.inj h)).2]
  exact hw s

theorem keeps_acquire (k : K) : Keeps f (acquire k : Txn S K E V Unit) := by
  intro s b t h
  rw [(Prod.mk.inj (Except.ok.inj h)).2]

theorem keeps_invoke (v : V) : Keeps f (invoke v : Txn S K E V Unit) := by
  intro s b t h
  rw [(Prod.mk.inj (Except.ok.inj h)).2]

theorem keeps_bind (hp : Keeps f p) (hg : ∀ a, Keeps f (g a)) : Keeps f (p >>= g) := by
  intro s b t h
  obtain ⟨a, u, hfirst, hsecond⟩ := (exec_bind_ok s).mp h
  exact (hg a u b t hsecond).trans (hp s a u hfirst)

theorem keeps_ite {c : Prop} [Decidable c] {q : Txn S K E V α} (hp : Keeps f p)
    (hq : Keeps f q) : Keeps f (if c then p else q) := by
  split
  · exact hp
  · exact hq

end Txn

section System

variable (handler : ι → Txn S K E V Unit)

/-- The state after a list of requests, the first one first. -/
def after (s : S) (requests : List ι) : S :=
  requests.foldl (fun s r => (handler r).commit s) s

@[simp] theorem after_nil (s : S) : after handler s [] = s := rfl

theorem after_cons (s : S) (r : ι) (rs : List ι) :
    after handler s (r :: rs) = after handler ((handler r).commit s) rs := rfl

theorem after_append (s : S) (rs rs' : List ι) :
    after handler s (rs ++ rs') = after handler (after handler s rs) rs' :=
  List.foldl_append

theorem after_concat (s : S) (rs : List ι) (r : ι) :
    after handler s (rs ++ [r]) = (handler r).commit (after handler s rs) :=
  after_append handler s rs [r]

variable {handler}

/-- What holds at first and is kept by every request holds after every run. -/
theorem after_invariant {I : S → Prop} {s : S} (h0 : I s)
    (hstep : ∀ s r, I s → I ((handler r).commit s)) (rs : List ι) : I (after handler s rs) := by
  induction rs generalizing s with
  | nil => exact h0
  | cons r rs ih => exact ih (hstep s r h0)

variable (handler)

/-- The states that a list of requests passes through, the first and the last included. -/
def trace (s : S) : List ι → List S
  | [] => [s]
  | r :: rs => s :: trace ((handler r).commit s) rs

theorem trace_concat (s : S) (rs : List ι) (r : ι) :
    trace handler s (rs ++ [r]) = trace handler s rs ++ [after handler s (rs ++ [r])] := by
  induction rs generalizing s with
  | nil => rfl
  | cons r' rs ih => exact congrArg (s :: ·) (ih _)

/-- Some state on the way has `P`. -/
def Ever (s : S) (rs : List ι) (P : S → Prop) : Prop :=
  ∃ t ∈ trace handler s rs, P t

instance (s : S) (rs : List ι) (P : S → Prop) [DecidablePred P] :
    Decidable (Ever handler s rs P) :=
  inferInstanceAs (Decidable (∃ t ∈ trace handler s rs, P t))

theorem ever_nil (s : S) (P : S → Prop) : Ever handler s [] P ↔ P s := by
  simp [Ever, trace]

theorem ever_concat (s : S) (rs : List ι) (r : ι) (P : S → Prop) :
    Ever handler s (rs ++ [r]) P ↔
      Ever handler s rs P ∨ P (after handler s (rs ++ [r])) := by
  simp only [Ever, trace_concat, List.mem_append, List.mem_singleton, or_and_right, exists_or,
    exists_eq_left]

/-- What is observed on the way, where there is something to observe. -/
def history {O : Type} (observe : S → Option O) (s : S) (rs : List ι) : List O :=
  (trace handler s rs).filterMap observe

variable {handler}

/-- A relation that each request keeps, and that the first observation has to `first`, makes the
whole history a path. -/
theorem history_isChain {O : Type} {observe : S → Option O} {first : O} {R : O → O → Prop}
    {I : S → Prop} {s : S} (h0 : I s) (hnone : observe s = none)
    (hstep : ∀ s r, I s → I ((handler r).commit s))
    (hkept : ∀ s r x, I s → observe s = some x →
      ∃ y, observe ((handler r).commit s) = some y ∧ R x y)
    (hfirst : ∀ s r y, I s → observe s = none → observe ((handler r).commit s) = some y →
      R first y) (rs : List ι) : (first :: history handler observe s rs).IsChain R := by
  have hone : ∀ t, [t].filterMap observe = (observe t).toList := by
    intro t
    cases h : observe t <;> simp [h]
  suffices hboth : (first :: history handler observe s rs).IsChain R ∧
      (first :: history handler observe s rs).getLast? =
        some ((observe (after handler s rs)).getD first) from hboth.1
  induction rs using List.reverseRecOn with
  | nil => simp [history, trace, hnone]
  | append_singleton rs r ih =>
      obtain ⟨hchain, hlast⟩ := ih
      have hI := after_invariant h0 hstep rs
      have hafter : after handler s (rs ++ [r]) = (handler r).commit (after handler s rs) :=
        after_concat handler s rs r
      have hhistory : history handler observe s (rs ++ [r]) = history handler observe s rs ++
          (observe (after handler s (rs ++ [r]))).toList := by
        rw [history, trace_concat, List.filterMap_append, hone]
        rfl
      cases hy : observe (after handler s (rs ++ [r])) with
      | none =>
          have hx : observe (after handler s rs) = none := by
            cases hx : observe (after handler s rs) with
            | none => rfl
            | some x =>
                obtain ⟨y, hy', -⟩ := hkept _ r x hI hx
                rw [hafter, hy'] at hy
                cases hy
          rw [hhistory, hy, Option.toList_none, List.append_nil]
          rw [hx] at hlast
          exact ⟨hchain, hlast⟩
      | some y =>
          rw [hhistory, hy, Option.toList_some, ← List.cons_append]
          refine ⟨?_, List.getLast?_concat⟩
          refine List.isChain_append.mpr ⟨hchain, List.isChain_singleton y, fun a ha c hc => ?_⟩
          obtain rfl : y = c := by simpa using hc
          rw [hlast] at ha
          obtain rfl := Option.some.inj ha
          rw [hafter] at hy
          cases hx : observe (after handler s rs) with
          | none => exact hfirst _ r y hI hx hy
          | some x =>
              obtain ⟨y', hy', hR⟩ := hkept _ r x hI hx
              obtain rfl := Option.some.inj (hy.symm.trans hy')
              exact hR

end System

end ReadCommitted
