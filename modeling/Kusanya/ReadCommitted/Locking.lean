import Kusanya.ReadCommitted.Interleaving

/-!
# What locks are good for

A transaction that holds the lock `k` may rely on what `k` protects staying as it was
when the lock was taken, provided that every transaction holds the lock of what it
writes when it commits.  A `Discipline` says what each lock protects.  `Txn.lwp` is the
weakest precondition of `Logic` with two more things to speak about: the locks held and
the committed state that was found last.

`Txn.Maintains` is the rule for properties of the stand that other transactions cannot
destroy, and `Txn.Covers` says which writes a program makes under which locks.
-/

namespace ReadCommitted

/-- What committed states have in common, how they develop, and what holding a lock keeps. -/
structure Discipline (S K : Type) where
  inv : S → Prop
  evolves : S → S → Prop
  keeps : K → S → S → Prop
  evolves_refl : ∀ s, evolves s s
  evolves_trans : ∀ {s t u}, evolves s t → evolves t u → evolves s u
  keeps_refl : ∀ k s, keeps k s s
  keeps_trans : ∀ {k s t u}, keeps k s t → keeps k t u → keeps k s u

/-- Where a transaction stands: its locks, its pending writes and the committed state that
it found last. -/
structure Local (S K : Type) where
  held : List K
  pend : S → S
  last : S

variable {S K E V α β : Type}

namespace Local

/-- A transaction that holds nothing and has written nothing. -/
def fresh (s : S) : Local S K := ⟨[], id, s⟩

/-- The committed state may be `s` by now. -/
structure Sees (D : Discipline S K) (l : Local S K) (s : S) : Prop where
  inv : D.inv s
  evolves : D.evolves l.last s
  keeps : ∀ k ∈ l.held, D.keeps k l.last s

/-- The pending writes change only what the locks protect. -/
def Guarded (D : Discipline S K) (l : Local S K) : Prop :=
  ∀ s k, k ∉ l.held → D.keeps k s (l.pend s)

variable {D : Discipline S K} {l : Local S K} {s t : S}

theorem Sees.of_last (hs : D.inv l.last) : l.Sees D l.last where
  inv := hs
  evolves := D.evolves_refl _
  keeps _ _ := D.keeps_refl _ _

/-- What may be seen from a later stand with more locks may be seen from this one. -/
theorem Sees.trans (h : l.Sees D s) {held : List K} {pend : S → S}
    (hheld : ∀ k ∈ l.held, k ∈ held) (ht : (Local.mk held pend s).Sees D t) : l.Sees D t where
  inv := ht.inv
  evolves := D.evolves_trans h.evolves ht.evolves
  keeps k hk := D.keeps_trans (h.keeps k hk) (ht.keeps k (hheld k hk))

/-- What may be seen after the next lock. -/
theorem Sees.locked (h : l.Sees D s) {k : K} (ht : (Local.mk (k :: l.held) l.pend s).Sees D t) :
    l.Sees D t :=
  h.trans (fun _ hk => List.mem_cons_of_mem _ hk) ht

theorem guarded_fresh : (fresh s : Local S K).Guarded D :=
  fun t k _ => D.keeps_refl k t

end Local

namespace Txn

section Lwp

variable [DecidableEq K]

/-- The weakest precondition of `p` where other transactions keep to the discipline. -/
def lwp (D : Discipline S K) : Txn S K E V α → Local S K → (α → Local S K → Prop) →
    (E → Local S K → Prop) → Prop
  | ret a, l, Q, _ => Q a l
  | throw e, l, _, R => R e l
  | read _ n, l, Q, R => ∀ s, l.Sees D s → lwp D (n (l.pend s)) { l with last := s } Q R
  | write w n, l, Q, R => lwp D n { l with pend := w ∘ l.pend } Q R
  | lock k n, l, Q, R =>
      ∀ s, l.Sees D s → lwp D n { l with held := k :: l.held, last := s } Q R
  | release ks n, l, Q, R => lwp D n { l with held := l.held.diff ks } Q R
  | call _ n, l, Q, R => lwp D n l Q R

variable {D : Discipline S K} {l : Local S K}
variable {Q Q' : α → Local S K → Prop} {R R' : E → Local S K → Prop}

@[simp] theorem lwp_ret (a : α) : lwp D (ret a : Txn S K E V α) l Q R ↔ Q a l := Iff.rfl

@[simp] theorem lwp_throw (e : E) : lwp D (throw e : Txn S K E V α) l Q R ↔ R e l := Iff.rfl

@[simp] theorem lwp_fetch (k : K) (q : S → α) :
    lwp D (fetch k q : Txn S K E V α) l Q R ↔
      ∀ s, l.Sees D s → Q (q (l.pend s)) { l with last := s } := Iff.rfl

@[simp] theorem lwp_modify {Q : Unit → Local S K → Prop} (w : S → S) :
    lwp D (modify w : Txn S K E V Unit) l Q R ↔ Q () { l with pend := w ∘ l.pend } := Iff.rfl

@[simp] theorem lwp_acquire {Q : Unit → Local S K → Prop} (k : K) :
    lwp D (acquire k : Txn S K E V Unit) l Q R ↔
      ∀ s, l.Sees D s → Q () { l with held := k :: l.held, last := s } := Iff.rfl

@[simp] theorem lwp_invoke {Q : Unit → Local S K → Prop} (v : V) :
    lwp D (invoke v : Txn S K E V Unit) l Q R ↔ Q () l := Iff.rfl

@[simp] theorem lwp_bind {Q : β → Local S K → Prop} (p : Txn S K E V α) (f : α → Txn S K E V β) :
    lwp D (p >>= f) l Q R ↔ lwp D p l (fun a l' => lwp D (f a) l' Q R) R := by
  induction p generalizing l with
  | ret a => rfl
  | throw e => rfl
  | read k n ih => exact forall_congr' fun s => forall_congr' fun _ => ih (l.pend s)
  | write w n ih => exact ih
  | lock k n ih => exact forall_congr' fun s => forall_congr' fun _ => ih
  | release ks n ih => exact ih
  | call v n ih => exact ih

@[simp] theorem lwp_ite (c : Prop) [Decidable c] (p q : Txn S K E V α) :
    lwp D (if c then p else q) l Q R ↔
      (c → lwp D p l Q R) ∧ (¬c → lwp D q l Q R) := by
  by_cases hc : c <;> simp [hc]

/-- The rule of consequence. -/
theorem lwp_consequence {p : Txn S K E V α} (h : lwp D p l Q R)
    (hQ : ∀ a l', Q a l' → Q' a l') (hR : ∀ e l', R e l' → R' e l') : lwp D p l Q' R' := by
  induction p generalizing l with
  | ret a => exact hQ _ _ h
  | throw e => exact hR _ _ h
  | read k n ih => exact fun s hs => ih (l.pend s) (h s hs)
  | write w n ih => exact ih h
  | lock k n ih => exact fun s hs => ih (h s hs)
  | release ks n ih => exact ih h
  | call v n ih => exact ih h

theorem lwp_conj {p : Txn S K E V α} (h : lwp D p l Q R) (h' : lwp D p l Q' R') :
    lwp D p l (fun a l' => Q a l' ∧ Q' a l') (fun e l' => R e l' ∧ R' e l') := by
  induction p generalizing l with
  | ret a => exact ⟨h, h'⟩
  | throw e => exact ⟨h, h'⟩
  | read k n ih => exact fun s hs => ih (l.pend s) (h s hs) (h' s hs)
  | write w n ih => exact ih h h'
  | lock k n ih => exact fun s hs => ih (h s hs) (h' s hs)
  | release ks n ih => exact ih h h'
  | call v n ih => exact ih h h'

/-- What `wp` promises of the pending writes holds under the discipline as well. -/
theorem lwp_of_wp {κ : V → Prop} {φ : K → S → Prop} {P : α → (S → S) → Prop}
    {T : E → (S → S) → Prop} {p : Txn S K E V α}
    (hφ : ∀ k s, D.inv s → D.evolves l.last s → φ k s) (h : wp κ φ p l.pend P T) :
    lwp D p l (fun a l' => P a l'.pend) fun e l' => T e l'.pend := by
  induction p generalizing l with
  | ret a => exact h
  | throw e => exact h
  | read k n ih =>
      intro s hs
      refine ih (l.pend s) (fun k' t ht hst => ?_) (h s (hφ k s hs.inv hs.evolves))
      exact hφ k' t ht (D.evolves_trans hs.evolves hst)
  | write w n ih => exact ih hφ h
  | lock k n ih =>
      intro s hs
      refine ih (fun k' t ht hst => ?_) h
      exact hφ k' t ht (D.evolves_trans hs.evolves hst)
  | release ks n ih => exact ih hφ h
  | call v n ih => exact ih hφ h.2

end Lwp

/-! ## What a program keeps true of its stand -/

/-- A property of a stand that survives reads and further locks. -/
structure Lasting (D : Discipline S K) (I : Local S K → Prop) : Prop where
  sees : ∀ {l : Local S K} {s : S}, I l → l.Sees D s → I { l with last := s }
  locked : ∀ {l : Local S K} {held : List K}, I l → (∀ k ∈ l.held, k ∈ held) →
    I { l with held := held }

/-- From the stand `l` on, the transaction has come to `l'`. -/
structure Leads (D : Discipline S K) (I : Local S K → Prop) (l l' : Local S K) : Prop where
  kept : I l'
  inv : D.inv l'.last
  held : ∀ k ∈ l.held, k ∈ l'.held
  sees : l.Sees D l'.last

/-- Started with the locks `held`, `p` keeps `I`, gives back no lock it was started with, and
ends in `Q`. -/
def Maintains [DecidableEq K] (D : Discipline S K) (I : Local S K → Prop) (p : Txn S K E V α)
    (held : List K) (Q : α → List K → Prop) : Prop :=
  ∀ l : Local S K, l.held = held → I l → D.inv l.last →
    p.lwp D l (fun a l' => Q a l'.held ∧ Leads D I l l') fun _ l' => Leads D I l l'

section Maintains

variable [DecidableEq K] {D : Discipline S K} {I : Local S K → Prop} {held : List K}
variable {Q Q' : α → List K → Prop}

omit [DecidableEq K] in
theorem Leads.refl {l : Local S K} (h : I l) (hinv : D.inv l.last) : Leads D I l l :=
  ⟨h, hinv, fun _ hk => hk, Local.Sees.of_last hinv⟩

omit [DecidableEq K] in
theorem Leads.trans {l l' l'' : Local S K} (h : Leads D I l l') (h' : Leads D I l' l'') :
    Leads D I l l'' :=
  ⟨h'.kept, h'.inv, fun k hk => h'.held k (h.held k hk), h.sees.trans h.held h'.sees⟩

theorem maintains_ret {a : α} (h : Q a held) : (ret a : Txn S K E V α).Maintains D I held Q := by
  rintro l rfl hI hinv
  exact ⟨h, .refl hI hinv⟩

theorem maintains_throw (e : E) : (throw e : Txn S K E V α).Maintains D I held Q :=
  fun _ _ hI hinv => .refl hI hinv

theorem maintains_fetch (hD : Lasting D I) {k : K} {q : S → α} (h : ∀ s, Q (q s) held) :
    (fetch k q : Txn S K E V α).Maintains D I held Q := by
  rintro l rfl hI hinv s hs
  exact ⟨h _, hD.sees hI hs, hs.inv, fun _ hk => hk, hs⟩

theorem maintains_modify {w : S → S} {Q : Unit → List K → Prop}
    (hw : ∀ l, l.held = held → I l → D.inv l.last → I { l with pend := w ∘ l.pend })
    (h : Q () held) : (modify w : Txn S K E V Unit).Maintains D I held Q := by
  rintro l rfl hI hinv
  exact ⟨h, hw l rfl hI hinv, hinv, fun _ hk => hk, Local.Sees.of_last hinv⟩

theorem maintains_acquire (hD : Lasting D I) {k : K} {Q : Unit → List K → Prop}
    (h : Q () (k :: held)) : (acquire k : Txn S K E V Unit).Maintains D I held Q := by
  rintro l rfl hI hinv s hs
  exact ⟨h, hD.locked (hD.sees hI hs) fun _ hk => List.mem_cons_of_mem _ hk, hs.inv,
    fun _ hk => List.mem_cons_of_mem _ hk, hs⟩

theorem maintains_invoke {v : V} {Q : Unit → List K → Prop} (h : Q () held) :
    (invoke v : Txn S K E V Unit).Maintains D I held Q := by
  rintro l rfl hI hinv
  exact ⟨h, .refl hI hinv⟩

theorem maintains_bind {p : Txn S K E V α} {f : α → Txn S K E V β} {Q' : β → List K → Prop}
    (hp : p.Maintains D I held Q)
    (hf : ∀ a held', (∀ k ∈ held, k ∈ held') → Q a held' → (f a).Maintains D I held' Q') :
    (p >>= f).Maintains D I held Q' := by
  rintro l rfl hI hinv
  rw [lwp_bind]
  refine lwp_consequence (hp l rfl hI hinv) (fun a l' h => ?_) fun _ _ h => h
  obtain ⟨hQ, hl'⟩ := h
  refine lwp_consequence (hf a l'.held hl'.held hQ l' rfl hl'.kept hl'.inv)
    (fun b l'' h' => ⟨h'.1, hl'.trans h'.2⟩) fun _ _ h' => hl'.trans h'

/-! ## Programs whose writes are covered by their locks -/

/-- Started with the locks `held`, every write of `p` is one that `P` allows with the locks that
are held by then, and `p` ends in `Q`.  It gives no lock back. -/
def Covers (P : List K → (S → S) → Prop) :
    Txn S K E V α → List K → (α → List K → Prop) → Prop
  | ret a, held, Q => Q a held
  | throw _, _, _ => True
  | read _ n, held, Q => ∀ s, Covers P (n s) held Q
  | write w n, held, Q => P held w ∧ Covers P n held Q
  | lock k n, held, Q => Covers P n (k :: held) Q
  | release _ _, _, _ => False
  | call _ n, held, Q => Covers P n held Q

section Covers

omit [DecidableEq K]

variable {P : List K → (S → S) → Prop}

theorem covers_ret {a : α} (h : Q a held) : (ret a : Txn S K E V α).Covers P held Q := h

theorem covers_fetch {k : K} {q : S → α} (h : ∀ s, Q (q s) held) :
    (fetch k q : Txn S K E V α).Covers P held Q := h

theorem covers_acquire {k : K} {Q : Unit → List K → Prop} (h : Q () (k :: held)) :
    (acquire k : Txn S K E V Unit).Covers P held Q := h

/-- The locks that `p` started with are still held at its end. -/
theorem Covers.grown {p : Txn S K E V α} (h : p.Covers P held Q) :
    p.Covers P held fun a held' => (∀ k ∈ held, k ∈ held') ∧ Q a held' := by
  suffices hgen : ∀ base : List K, (∀ k ∈ base, k ∈ held) →
      p.Covers P held fun a held' => (∀ k ∈ base, k ∈ held') ∧ Q a held' from
    hgen held fun _ hk => hk
  intro base hbase
  induction p generalizing held with
  | ret a => exact ⟨hbase, h⟩
  | throw e => trivial
  | read k n ih => exact fun s => ih s (h s) hbase
  | write w n ih => exact ⟨h.1, ih h.2 hbase⟩
  | lock k n ih => exact ih h fun k' hk' => List.mem_cons_of_mem _ (hbase k' hk')
  | release ks n ih => exact h.elim
  | call v n ih => exact ih h hbase

/-- The rule of sequencing. -/
theorem covers_bind {p : Txn S K E V α} {f : α → Txn S K E V β} {Q' : β → List K → Prop}
    (hp : p.Covers P held Q)
    (hf : ∀ a held', (∀ k ∈ held, k ∈ held') → Q a held' → (f a).Covers P held' Q') :
    (p >>= f).Covers P held Q' := by
  have hgrown := hp.grown
  clear hp
  suffices hgen : ∀ held' : List K,
      p.Covers P held' (fun a held'' => (∀ k ∈ held, k ∈ held'') ∧ Q a held'') →
      (p >>= f).Covers P held' Q' from hgen held hgrown
  clear hgrown
  intro held' hp
  induction p generalizing held' with
  | ret a => exact hf a held' hp.1 hp.2
  | throw e => trivial
  | read k n ih => exact fun s => ih s held' (hp s)
  | write w n ih => exact ⟨hp.1, ih held' hp.2⟩
  | lock k n ih => exact ih (k :: held') hp
  | release ks n ih => exact hp.elim
  | call v n ih => exact ih held' hp

theorem covers_ite {c : Prop} [Decidable c] {p q : Txn S K E V α}
    (hp : c → p.Covers P held Q) (hq : ¬c → q.Covers P held Q) :
    (if c then p else q).Covers P held Q := by
  split
  · next hc => exact hp hc
  · next hc => exact hq hc

/-- `try … except` without a savepoint. -/
theorem covers_handle {p : Txn S K E V α} {catches : E → Bool} {f : E → Txn S K E V α}
    (hp : p.Covers P held Q) (hf : ∀ e held', (f e).Covers P held' Q) :
    (p.handle catches f).Covers P held Q := by
  induction p generalizing held with
  | ret a => exact hp
  | throw e =>
      simp only [handle]
      split
      · exact hf e held
      · trivial
  | read k n ih => exact fun s => ih s (hp s)
  | write w n ih => exact ⟨hp.1, ih hp.2⟩
  | lock k n ih => exact ih hp
  | release ks n ih => exact hp.elim
  | call v n ih => exact ih hp

end Covers

theorem Covers.maintains (hD : Lasting D I) {P : List K → (S → S) → Prop} {p : Txn S K E V α}
    (hp : p.Covers P held Q)
    (hP : ∀ w l, P l.held w → I l → I { l with pend := w ∘ l.pend }) :
    p.Maintains D I held Q := by
  induction p generalizing held with
  | ret a => exact maintains_ret hp
  | throw e => exact maintains_throw e
  | read k n ih =>
      exact maintains_bind (p := fetch k id) (Q := fun _ held' => held' = held)
        (maintains_fetch hD fun _ => rfl) fun s held' _ hheld' => ih s (hheld' ▸ hp s)
  | write w n ih =>
      exact maintains_bind (p := modify w) (Q := fun _ held' => held' = held)
        (maintains_modify (fun l hheld hI _ => hP w l (hheld ▸ hp.1) hI) rfl)
        fun _ held' _ hheld' => ih (hheld' ▸ hp.2)
  | lock k n ih =>
      exact maintains_bind (p := acquire k) (Q := fun _ held' => held' = k :: held)
        (maintains_acquire hD rfl) fun _ held' _ hheld' => ih (hheld' ▸ hp)
  | release ks n ih => exact hp.elim
  | call v n ih =>
      exact maintains_bind (p := invoke v) (Q := fun _ held' => held' = held)
        (maintains_invoke rfl) fun _ held' _ hheld' => ih (hheld' ▸ hp)

/-- A program that writes nothing. -/
abbrev Still (p : Txn S K E V α) : Prop := ∀ held, p.Covers (fun _ _ => False) held fun _ _ => True

/-- Where a program that writes nothing has come to. -/
theorem Still.lwp {p : Txn S K E V α} (hp : p.Still) {l : Local S K} (hinv : D.inv l.last) :
    p.lwp D l
      (fun _ l' => l'.pend = l.pend ∧ (∀ k ∈ l.held, k ∈ l'.held) ∧ l.Sees D l'.last)
      fun _ _ => True := by
  have hlasting : Lasting D fun l' : Local S K => l'.pend = l.pend :=
    ⟨fun h _ => h, fun h _ => h⟩
  refine lwp_consequence ((hp l.held).maintains hlasting (fun _ _ hw _ => hw.elim) l rfl rfl hinv)
    (fun _ _ h => ⟨h.2.kept, h.2.held, h.2.sees⟩) fun _ _ _ => trivial

end Maintains

/-! ## Programs that take no locks -/

/-- `p` takes and gives back no lock, calls nobody, and writes only as `P` allows. -/
def Only (P : (S → S) → Prop) : Txn S K E V α → Prop
  | ret _ => True
  | throw _ => True
  | read _ n => ∀ s, Only P (n s)
  | write w n => P w ∧ Only P n
  | lock _ _ => False
  | release _ _ => False
  | call _ _ => False

section Only

variable {P : (S → S) → Prop}

theorem only_ret (a : α) : Only P (ret a : Txn S K E V α) := trivial

theorem only_throw (e : E) : Only P (throw e : Txn S K E V α) := trivial

theorem only_fetch (k : K) (q : S → α) : Only P (fetch k q : Txn S K E V α) := fun _ => trivial

theorem only_bind {p : Txn S K E V α} {f : α → Txn S K E V β} (hp : Only P p)
    (hf : ∀ a, Only P (f a)) : Only P (p >>= f) := by
  induction p with
  | ret a => exact hf a
  | throw e => trivial
  | read k n ih => exact fun s => ih s (hp s)
  | write w n ih => exact ⟨hp.1, ih hp.2⟩
  | lock k n ih => exact hp.elim
  | release ks n ih => exact hp.elim
  | call v n ih => exact hp.elim

/-- Between such a program's start and its end only the rest of the system moves. -/
theorem Only.lwp [DecidableEq K] {D : Discipline S K} {l : Local S K} {p : Txn S K E V α}
    (hp : Only P p) {κ : V → Prop} {φ : K → S → Prop} {Q : α → (S → S) → Prop}
    {R : E → (S → S) → Prop} (hinv : D.inv l.last)
    (hφ : ∀ k s, D.inv s → D.evolves l.last s → φ k s) (hwp : wp κ φ p l.pend Q R) :
    Txn.lwp D p l
      (fun a l' => Q a l'.pend ∧ l'.held = l.held ∧ l.Sees D l'.last)
      fun e l' => R e l'.pend ∧ l'.held = l.held ∧ l.Sees D l'.last := by
  suffices hgen : ∀ base : Local S K, base.Sees D l.last → base.held = l.held →
      Txn.lwp D p l
        (fun a l' => Q a l'.pend ∧ l'.held = base.held ∧ base.Sees D l'.last)
        fun e l' => R e l'.pend ∧ l'.held = base.held ∧ base.Sees D l'.last from
    hgen l (Local.Sees.of_last hinv) rfl
  intro base hbase hheld
  induction p generalizing l with
  | ret a => exact ⟨hwp, hheld.symm, hbase⟩
  | throw e => exact ⟨hwp, hheld.symm, hbase⟩
  | read k n ih =>
      intro s hs
      refine ih (l.pend s) (hp _) hs.inv (fun k' t ht hst => ?_)
        (hwp s (hφ k s hs.inv hs.evolves)) (hbase.trans (fun k hk => hheld ▸ hk) hs) hheld
      exact hφ k' t ht (D.evolves_trans hs.evolves hst)
  | write w n ih => exact ih hp.2 hinv hφ hwp hbase hheld
  | lock k n ih => exact hp.elim
  | release ks n ih => exact hp.elim
  | call v n ih => exact hp.elim

end Only

/-! ## Savepoints -/

/-- `p` gives no lock back: it contains no savepoint. -/
def NoRelease : Txn S K E V α → Prop
  | ret _ => True
  | throw _ => True
  | read _ n => ∀ s, NoRelease (n s)
  | write _ n => NoRelease n
  | lock _ n => NoRelease n
  | release _ _ => False
  | call _ n => NoRelease n

theorem Covers.noRelease {P : List K → (S → S) → Prop} {p : Txn S K E V α} {held : List K}
    {Q : α → List K → Prop} (hp : p.Covers P held Q) : p.NoRelease := by
  induction p generalizing held with
  | ret a => trivial
  | throw e => trivial
  | read k n ih => exact fun s => ih s (hp s)
  | write w n ih => exact ih hp.2
  | lock k n ih => exact ih hp
  | release ks n ih => exact hp
  | call v n ih => exact ih hp

theorem noRelease_bind {p : Txn S K E V α} {f : α → Txn S K E V β} (hp : p.NoRelease)
    (hf : ∀ a, (f a).NoRelease) : (p >>= f).NoRelease := by
  induction p with
  | ret a => exact hf a
  | throw e => trivial
  | read k n ih => exact fun s => ih s (hp s)
  | write w n ih => exact ih hp
  | lock k n ih => exact ih hp
  | release ks n ih => exact hp.elim
  | call v n ih => exact ih hp

theorem Only.noRelease {P : (S → S) → Prop} {p : Txn S K E V α} (hp : Only P p) :
    p.NoRelease := by
  induction p with
  | ret a => trivial
  | throw e => trivial
  | read k n ih => exact fun s => ih s (hp s)
  | write w n ih => exact ih hp.2
  | lock k n ih => exact hp.elim
  | release ks n ih => exact hp.elim
  | call v n ih => exact hp.elim

section Savepoint

variable [DecidableEq K] {D : Discipline S K} {l : Local S K} {Q : Except E α → Local S K → Prop}
variable {R : E → Local S K → Prop} {catches : E → Bool}

theorem diff_append_self (keys held : List K) : (keys ++ held).diff keys = held := by
  induction keys with
  | nil => rfl
  | cons k keys ih => rw [List.cons_append, List.diff_cons, List.erase_cons_head, ih]

theorem lwp_atomicFrom {acc : S → S} {keys base : List K} {p : Txn S K E V α} (hp : p.NoRelease)
    (hheld : l.held = keys ++ base)
    (h : lwp D p { l with pend := acc ∘ l.pend } (fun a => Q (.ok a)) fun e l' =>
      if catches e then Q (.error e) ⟨base, l.pend, l'.last⟩
      else R e ⟨l'.held, l.pend, l'.last⟩) :
    lwp D (p.atomicFrom catches acc keys) l Q R := by
  induction p generalizing l acc keys with
  | ret a => exact h
  | throw e =>
      simp only [atomicFrom, lwp_throw] at h ⊢
      split
      · next hc =>
          rw [if_pos hc] at h
          change Q (.error e) { l with held := l.held.diff keys }
          rw [hheld, diff_append_self]
          exact h
      · next hc =>
          rw [if_neg hc] at h
          exact h
  | read k n ih =>
      exact fun s hs => ih _ (hp _) hheld (h s ⟨hs.inv, hs.evolves, hs.keeps⟩)
  | write w n ih => exact ih hp hheld h
  | lock k n ih =>
      intro s hs
      exact ih hp (congrArg (k :: ·) hheld) (h s ⟨hs.inv, hs.evolves, hs.keeps⟩)
  | release ks n ih => exact hp.elim
  | call v n ih => exact ih hp hheld h

/-- A savepoint: on a caught exception the writes of its body are gone, and its locks. -/
theorem lwp_tryAtomic {p : Txn S K E V α} (hp : p.NoRelease)
    (h : lwp D p l (fun a => Q (.ok a)) fun e l' =>
      if catches e then Q (.error e) ⟨l.held, l.pend, l'.last⟩
      else R e ⟨l'.held, l.pend, l'.last⟩) :
    lwp D (p.tryAtomic catches) l Q R :=
  lwp_atomicFrom hp rfl h

/-- A savepoint, as long as what is caught needs nothing of the body. -/
theorem maintains_tryAtomic {I : Local S K → Prop} (hD : Lasting D I) {held : List K}
    {Q : Except E α → List K → Prop} {p : Txn S K E V α} (hp : p.NoRelease)
    (h : p.Maintains D I held fun a => Q (.ok a)) (he : ∀ e, Q (.error e) held) :
    (p.tryAtomic catches).Maintains D I held Q := by
  rintro l rfl hI hinv
  refine lwp_tryAtomic hp (lwp_consequence (h l rfl hI hinv) (fun _ _ h => h) fun e l' hl' => ?_)
  have hback : Leads D I l ⟨l.held, l.pend, l'.last⟩ :=
    ⟨hD.sees hI hl'.sees, hl'.inv, fun _ hk => hk, hl'.sees⟩
  split
  · exact ⟨he e, hback⟩
  · exact ⟨hD.locked hback.kept hl'.held, hl'.inv, hl'.held, hl'.sees⟩

end Savepoint

end Txn

/-! ## Unique keys -/

section UniqueKeys

variable {ρ : Type} (rows : S → List ρ) (keys : ρ → List K)

/-- Some row of the table has the unique key. -/
def Taken (k : K) (s : S) : Prop := ∃ r ∈ rows s, k ∈ keys r

/-- The discipline of a table with unique keys: the lock of a key keeps it free. -/
def Discipline.ofKeys (inv : S → Prop) (evolves : S → S → Prop)
    (evolves_refl : ∀ s, evolves s s)
    (evolves_trans : ∀ {s t u}, evolves s t → evolves t u → evolves s u) : Discipline S K where
  inv := inv
  evolves := evolves
  keeps k s t := Taken rows keys k t → Taken rows keys k s
  evolves_refl := evolves_refl
  evolves_trans := evolves_trans
  keeps_refl _ _ h := h
  keeps_trans h h' := fun ht => h (h' ht)

end UniqueKeys

end ReadCommitted
