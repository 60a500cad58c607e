import Kusanya.ReadCommitted.Disciplined

/-!
# Transactions that replay

A transaction replays when running it again at the moment of its commit, with nothing
else going on, would give the result it has and the state it leaves.  A schedule of such
transactions does what the committed ones do one after the other, in the order of their
commits (`Config.run_serial`).

Reads that find what cannot change any more replay by themselves (`Steady`); for the
others the locks must give the reason.
-/

namespace ReadCommitted

variable {S K E V α β : Type}

namespace Txn

section Replays

variable [DecidableEq K]

/-- Run again from `l` on, `p` gives `a` and the pending writes of `l'`, whatever state is
committed by then. -/
def Repeats (D : Discipline S K) (p : Txn S K E V α) (l : Local S K) (a : α) (l' : Local S K) :
    Prop :=
  ∀ s, l'.Sees D s → l.Sees D s ∧ p.exec (l.pend s) = .ok (a, l'.pend s)

/-- Wherever `p` ends, it repeats there and `Q` holds; it raises only in `R`. -/
def Replays (D : Discipline S K) (p : Txn S K E V α) (l : Local S K)
    (Q : α → Local S K → Prop) (R : E → Local S K → Prop) : Prop :=
  p.lwp D l (fun a l' => p.Repeats D l a l' ∧ Q a l') R

variable {D : Discipline S K} {l l' : Local S K} {R : E → Local S K → Prop}

theorem Replays.consequence {p : Txn S K E V α} {Q Q' : α → Local S K → Prop}
    {R' : E → Local S K → Prop} (h : p.Replays D l Q R) (hQ : ∀ a l', Q a l' → Q' a l')
    (hR : ∀ e l', R e l' → R' e l') : p.Replays D l Q' R' :=
  lwp_consequence h (fun a l' h => ⟨h.1, hQ a l' h.2⟩) hR

theorem replays_ret {Q : α → Local S K → Prop} {a : α} (h : Q a l) :
    (ret a : Txn S K E V α).Replays D l Q R :=
  ⟨fun _ hs => ⟨hs, rfl⟩, h⟩

theorem replays_throw {Q : α → Local S K → Prop} {e : E} (h : R e l) :
    (throw e : Txn S K E V α).Replays D l Q R := h

theorem replays_modify {Q : Unit → Local S K → Prop} {w : S → S}
    (h : Q () { l with pend := w ∘ l.pend }) :
    (modify w : Txn S K E V Unit).Replays D l Q R :=
  ⟨fun _ hs => ⟨⟨hs.inv, hs.evolves, hs.keeps⟩, rfl⟩, h⟩

theorem replays_acquire {Q : Unit → Local S K → Prop} {k : K}
    (h : ∀ s, l.Sees D s → Q () { l with held := k :: l.held, last := s }) :
    (acquire k : Txn S K E V Unit).Replays D l Q R := by
  intro s hs
  exact ⟨fun t ht => ⟨hs.locked ht, rfl⟩, h s hs⟩

/-- A query whose answer the rest of the system cannot change any more. -/
theorem replays_fetch {Q : α → Local S K → Prop} {k : K} {q : S → α}
    (h : ∀ s, l.Sees D s →
      (∀ t, Local.Sees D { l with last := s } t → q (l.pend t) = q (l.pend s)) ∧
        Q (q (l.pend s)) { l with last := s }) :
    (fetch k q : Txn S K E V α).Replays D l Q R := by
  intro s hs
  refine ⟨fun t ht => ⟨hs.trans (fun _ hk => hk) ht, ?_⟩, (h s hs).2⟩
  rw [exec_fetch, (h s hs).1 t ht]

/-- The rule of sequencing. -/
theorem replays_bind {p : Txn S K E V α} {f : α → Txn S K E V β} {Q : β → Local S K → Prop}
    (h : p.Replays D l (fun a l' => (f a).Replays D l' Q R) R) : (p >>= f).Replays D l Q R := by
  unfold Replays
  rw [lwp_bind]
  refine lwp_consequence h (fun a l' hp => ?_) (fun _ _ hR => hR)
  refine lwp_consequence hp.2 (fun b l'' hf => ⟨fun s hs => ?_, hf.2⟩) (fun _ _ hR => hR)
  obtain ⟨hl', hexec'⟩ := hf.1 s hs
  obtain ⟨hl, hexec⟩ := hp.1 s hl'
  exact ⟨hl, (exec_bind_ok _).mpr ⟨a, l'.pend s, hexec, hexec'⟩⟩

theorem replays_ite {c : Prop} [Decidable c] {p q : Txn S K E V α} {Q : α → Local S K → Prop}
    (hp : c → p.Replays D l Q R) (hq : ¬c → q.Replays D l Q R) :
    (if c then p else q).Replays D l Q R := by
  split
  · next hc => exact hp hc
  · next hc => exact hq hc

/-- A savepoint; an exception that is caught must come back as well. -/
theorem replays_tryAtomic {p : Txn S K E V α} {catches : E → Bool}
    {Q : Except E α → Local S K → Prop} (hp : p.NoRelease)
    (h : p.Replays D l (fun a => Q (.ok a)) fun e l' =>
      if catches e then
        (∀ s, (Local.mk l.held l.pend l'.last).Sees D s →
          l.Sees D s ∧ p.exec (l.pend s) = .error e) ∧ Q (.error e) ⟨l.held, l.pend, l'.last⟩
      else R e ⟨l'.held, l.pend, l'.last⟩) :
    (p.tryAtomic catches).Replays D l Q R := by
  refine lwp_tryAtomic hp (lwp_consequence h (fun a l' ha => ⟨fun s hs => ?_, ha.2⟩)
    fun e l' he => ?_)
  · obtain ⟨hl, hexec⟩ := ha.1 s hs
    rw [exec_tryAtomic, hexec]
    exact ⟨hl, rfl⟩
  · by_cases hc : catches e
    · rw [if_pos hc] at he ⊢
      refine ⟨fun s hs => ?_, he.2⟩
      obtain ⟨hl, hexec⟩ := he.1 s hs
      rw [exec_tryAtomic, hexec]
      exact ⟨hl, if_pos hc⟩
    · rw [if_neg hc] at he ⊢
      exact he

end Replays

/-! ## Reads of what does not change -/

/-- `p` takes no lock and calls nobody; what it does depends on `f` of the state only, which
it leaves alone, and it raises only exceptions in `ε`. -/
def Steady {X : Type} (f : S → X) (ε : E → Prop) : Txn S K E V α → Prop
  | ret _ => True
  | throw e => ε e
  | read _ n => (∀ s t, f s = f t → n s = n t) ∧ ∀ s, Steady f ε (n s)
  | write w n => (∀ s, f (w s) = f s) ∧ Steady f ε n
  | lock _ _ => False
  | release _ _ => False
  | call _ _ => False

section Steady

variable {X : Type} {f : S → X} {ε : E → Prop}

theorem steady_ret (a : α) : Steady f ε (ret a : Txn S K E V α) := trivial

theorem steady_throw {e : E} (he : ε e) : Steady f ε (throw e : Txn S K E V α) := he

theorem steady_fetch {k : K} {q : S → α} (hq : ∀ s t, f s = f t → q s = q t) :
    Steady f ε (fetch k q : Txn S K E V α) :=
  ⟨fun s t hst => congrArg ret (hq s t hst), fun _ => trivial⟩

theorem steady_modify {w : S → S} (hw : ∀ s, f (w s) = f s) :
    Steady f ε (modify w : Txn S K E V Unit) := ⟨hw, trivial⟩

theorem steady_bind {p : Txn S K E V α} {g : α → Txn S K E V β} (hp : Steady f ε p)
    (hg : ∀ a, Steady f ε (g a)) : Steady f ε (p >>= g) := by
  induction p with
  | ret a => exact hg a
  | throw e => exact hp
  | read k n ih =>
      exact ⟨fun s t hst => congrArg (· >>= g) (hp.1 s t hst), fun s => ih s (hp.2 s)⟩
  | write w n ih => exact ⟨hp.1, ih hp.2⟩
  | lock k n ih => exact hp.elim
  | release ks n ih => exact hp.elim
  | call v n ih => exact hp.elim

theorem steady_ite {c : Prop} [Decidable c] {p q : Txn S K E V α} (hp : Steady f ε p)
    (hq : Steady f ε q) : Steady f ε (if c then p else q) := by
  split
  · exact hp
  · exact hq

theorem Steady.only {p : Txn S K E V α} (hp : Steady f ε p) : Only (fun _ => True) p := by
  induction p with
  | ret a => trivial
  | throw e => trivial
  | read k n ih => exact fun s => ih s (hp.2 s)
  | write w n ih => exact ⟨trivial, ih hp.2⟩
  | lock k n ih => exact hp.elim
  | release ks n ih => exact hp.elim
  | call v n ih => exact hp.elim

theorem Steady.noRelease {p : Txn S K E V α} (hp : Steady f ε p) : p.NoRelease :=
  hp.only.noRelease

/-- Such a program raises only exceptions in `ε`. -/
theorem Steady.exec_error {p : Txn S K E V α} (hp : Steady f ε p) {s : S} {e : E}
    (h : p.exec s = .error e) : ε e := by
  induction p generalizing s with
  | ret a => cases h
  | throw e' =>
      obtain rfl := Except.error.inj h
      exact hp
  | read k n ih => exact ih s (hp.2 s) h
  | write w n ih => exact ih hp.2 h
  | lock k n ih => exact hp.elim
  | release ks n ih => exact hp.elim
  | call v n ih => exact hp.elim

/-- Where committed states keep `f`, such a program replays. -/
theorem Steady.replays [DecidableEq K] {D : Discipline S K} {p : Txn S K E V α} {l : Local S K}
    (hp : Steady f ε p) (hD : ∀ s t, D.evolves s t → f s = f t)
    (hl : ∀ s t, f s = f t → f (l.pend s) = f (l.pend t)) :
    p.Replays D l (fun _ l' => l'.held = l.held ∧ (∀ s, l'.Sees D s → l.Sees D s) ∧
      ∀ s, f (l'.pend s) = f (l.pend s)) fun e _ => ε e := by
  induction p generalizing l with
  | ret a => exact ⟨fun s hs => ⟨hs, rfl⟩, rfl, fun s hs => hs, fun _ => rfl⟩
  | throw e => exact hp
  | read k n ih =>
      intro s hs
      refine lwp_consequence (ih (l.pend s) (hp.2 _) (l := { l with last := s }) hl)
        (fun a l' h => ?_) (fun _ _ he => he)
      obtain ⟨hrepeats, hheld, hsees, hkept⟩ := h
      have hback : ∀ t, l'.Sees D t → l.Sees D t := fun t ht =>
        hs.trans (fun _ hk => hk) (hsees t ht)
      refine ⟨fun t ht => ⟨hback t ht, ?_⟩, hheld, hback, hkept⟩
      have hsame : n (l.pend t) = n (l.pend s) :=
        hp.1 _ _ (hl t s (hD s t (hsees t ht).evolves).symm)
      rw [exec_read, hsame]
      exact (hrepeats t ht).2
  | write w n ih =>
      have hl' : ∀ s t, f s = f t → f ((w ∘ l.pend) s) = f ((w ∘ l.pend) t) := fun s t hst =>
        (hp.1 _).trans ((hl s t hst).trans (hp.1 _).symm)
      refine lwp_consequence (ih hp.2 (l := { l with pend := w ∘ l.pend }) hl')
        (fun a l' h => ?_) (fun _ _ he => he)
      obtain ⟨hrepeats, hheld, hsees, hkept⟩ := h
      have hback : ∀ t, l'.Sees D t → l.Sees D t := fun t ht =>
        ⟨(hsees t ht).inv, (hsees t ht).evolves, (hsees t ht).keeps⟩
      exact ⟨fun t ht => ⟨hback t ht, (hrepeats t ht).2⟩, hheld, hback,
        fun s => (hkept s).trans (hp.1 _)⟩
  | lock k n ih => exact hp.elim
  | release ks n ih => exact hp.elim
  | call v n ih => exact hp.elim

end Steady

end Txn

/-! ## Schedules -/

namespace Config

variable [DecidableEq K] {D : Discipline S K} {programs : List (Txn S K E V α)}
variable {Q : ℕ → α → Local S K → Prop}

/-- `i` commits what it would do alone. -/
def Alone (programs : List (Txn S K E V α)) (i : ℕ) (a : α) (s t : S) : Prop :=
  ∃ p, programs[i]? = some p ∧ p.exec s = .ok (a, t)

/-- Along every schedule, transactions that replay have the effect of the committed ones run
one after the other. -/
theorem run_serial {s : S} (hs : D.inv s)
    (hprograms : ∀ (i : ℕ) (p : Txn S K E V α), programs[i]? = some p →
      p.Replays D (Local.fresh s) (Q i) fun _ _ => True)
    (halone : ∀ (i : ℕ) (p : Txn S K E V α) (a : α) (s t : S), programs[i]? = some p → D.inv s →
      p.exec s = .ok (a, t) → D.inv t ∧ D.evolves s t)
    (hguarded : ∀ (i : ℕ) (p : Txn S K E V α) (a : α) (l : Local S K) (s : S),
      programs[i]? = some p → Q i a l → D.inv s → p.exec s = .ok (a, l.pend s) →
      ∀ k, k ∉ l.held → D.keeps k s (l.pend s))
    (schedule : List Event) :
    ∃ log, Disciplined D programs
      (fun i a l => (∀ p, programs[i]? = some p → p.Repeats D (Local.fresh s) a l) ∧ Q i a l)
      (Alone programs) s log ((start s programs).run schedule) := by
  refine run_disciplined (M := fun _ _ _ => True) hs (fun i p hp => ?_) ?_ schedule
    (commitsMeet_trivial _ schedule)
  · refine Txn.lwp_consequence (hprograms i p hp) (fun a l h => ⟨fun p' hp' => ?_, h.2⟩)
      fun _ _ h => h
    obtain rfl := Option.some.inj (hp.symm.trans hp')
    exact h.1
  · intro i p a l seen t hp _ _ hQ hsees _
    obtain ⟨-, hexec⟩ := hQ.1 p hp t hsees
    obtain ⟨hinv, hevolves⟩ := halone i p a t (l.pend t) hp hsees.inv hexec
    exact ⟨hinv, hevolves, hguarded i p a l t hp hQ.2 hsees.inv hexec, p, hp, hexec⟩

end Config

end ReadCommitted
