import Kusanya.ReadCommitted.Program

/-!
# A weakest precondition for transactional programs

Under READ COMMITTED each statement of a transaction sees the latest committed
state with the transaction's own writes on top.  What a handler will commit is
therefore a function `pend : S → S`, the composition of its writes so far, and
the only thing the rest of the system can influence is the committed state each
read happens to find.

`wp κ φ p pend Q R` says: if every read finds a committed state that `φ` allows,
then `p`, started with pending writes `pend`, makes only calls in `κ`, ends
normally only in `Q` and raises only in `R`.  With `φ` the equality with one
state this is ordinary Hoare logic (`exec_of_wp`); with a weaker `φ` the same
lemma about a program speaks about interleavings.
-/

namespace ReadCommitted.Txn

variable {S K E V α β : Type}

/-- The weakest precondition of `p`, whatever committed states allowed by `φ`
its reads find. -/
def wp (κ : V → Prop) (φ : K → S → Prop) :
    Txn S K E V α → (S → S) → (α → (S → S) → Prop) → (E → (S → S) → Prop) → Prop
  | ret a, pend, Q, _ => Q a pend
  | throw e, pend, _, R => R e pend
  | read k n, pend, Q, R => ∀ v, φ k v → wp κ φ (n (pend v)) pend Q R
  | write w n, pend, Q, R => wp κ φ n (w ∘ pend) Q R
  | lock _ n, pend, Q, R => wp κ φ n pend Q R
  | release _ n, pend, Q, R => wp κ φ n pend Q R
  | call v n, pend, Q, R => κ v ∧ wp κ φ n pend Q R

section Rules

variable {κ κ' : V → Prop} {φ φ' : K → S → Prop} {pend : S → S}
variable {Q Q' : α → (S → S) → Prop} {R R' : E → (S → S) → Prop}

@[simp] theorem wp_ret (a : α) :
    wp κ φ (ret a : Txn S K E V α) pend Q R ↔ Q a pend := Iff.rfl

@[simp] theorem wp_throw (e : E) :
    wp κ φ (throw e : Txn S K E V α) pend Q R ↔ R e pend := Iff.rfl

@[simp] theorem wp_read (k : K) (n : S → Txn S K E V α) :
    wp κ φ (read k n) pend Q R ↔ ∀ v, φ k v → wp κ φ (n (pend v)) pend Q R := Iff.rfl

@[simp] theorem wp_write (w : S → S) (n : Txn S K E V α) :
    wp κ φ (write w n) pend Q R ↔ wp κ φ n (w ∘ pend) Q R := Iff.rfl

@[simp] theorem wp_lock (k : K) (n : Txn S K E V α) :
    wp κ φ (lock k n) pend Q R ↔ wp κ φ n pend Q R := Iff.rfl

@[simp] theorem wp_release (ks : List K) (n : Txn S K E V α) :
    wp κ φ (release ks n) pend Q R ↔ wp κ φ n pend Q R := Iff.rfl

@[simp] theorem wp_call (v : V) (n : Txn S K E V α) :
    wp κ φ (call v n) pend Q R ↔ κ v ∧ wp κ φ n pend Q R := Iff.rfl

@[simp] theorem wp_fetch (k : K) (q : S → α) :
    wp κ φ (fetch k q : Txn S K E V α) pend Q R ↔
      ∀ v, φ k v → Q (q (pend v)) pend := Iff.rfl

@[simp] theorem wp_modify {Q : Unit → (S → S) → Prop} (w : S → S) :
    wp κ φ (modify w : Txn S K E V Unit) pend Q R ↔ Q () (w ∘ pend) := Iff.rfl

@[simp] theorem wp_acquire {Q : Unit → (S → S) → Prop} (k : K) :
    wp κ φ (acquire k : Txn S K E V Unit) pend Q R ↔ Q () pend := Iff.rfl

@[simp] theorem wp_invoke {Q : Unit → (S → S) → Prop} (v : V) :
    wp κ φ (invoke v : Txn S K E V Unit) pend Q R ↔ κ v ∧ Q () pend := Iff.rfl

/-- The rule of sequencing. -/
@[simp] theorem wp_bind {Q : β → (S → S) → Prop} (p : Txn S K E V α) (f : α → Txn S K E V β) :
    wp κ φ (p >>= f) pend Q R ↔ wp κ φ p pend (fun a pend' => wp κ φ (f a) pend' Q R) R := by
  induction p generalizing pend with
  | ret a => rfl
  | throw e => rfl
  | read k n ih => exact forall_congr' fun v => forall_congr' fun _ => ih (pend v)
  | write w n ih => exact ih
  | lock k n ih => exact ih
  | release ks n ih => exact ih
  | call v n ih => exact and_congr_right fun _ => ih

@[simp] theorem wp_ite (c : Prop) [Decidable c] (p q : Txn S K E V α) :
    wp κ φ (if c then p else q) pend Q R ↔
      (c → wp κ φ p pend Q R) ∧ (¬c → wp κ φ q pend Q R) := by
  by_cases hc : c <;> simp [hc]

/-- The rule of consequence. -/
theorem wp_mono {p : Txn S K E V α} (hκ : ∀ v, κ v → κ' v) (hφ : ∀ k v, φ' k v → φ k v)
    (hQ : ∀ a pend, Q a pend → Q' a pend) (hR : ∀ e pend, R e pend → R' e pend)
    (h : wp κ φ p pend Q R) : wp κ' φ' p pend Q' R' := by
  induction p generalizing pend with
  | ret a => exact hQ _ _ h
  | throw e => exact hR _ _ h
  | read k n ih => exact fun v hv => ih (pend v) (h v (hφ k v hv))
  | write w n ih => exact ih h
  | lock k n ih => exact ih h
  | release ks n ih => exact ih h
  | call v n ih => exact ⟨hκ v h.1, ih h.2⟩

theorem wp_consequence {p : Txn S K E V α} (h : wp κ φ p pend Q R)
    (hQ : ∀ a pend, Q a pend → Q' a pend) (hR : ∀ e pend, R e pend → R' e pend) :
    wp κ φ p pend Q' R' :=
  wp_mono (fun _ hv => hv) (fun _ _ hv => hv) hQ hR h

/-- Nothing is asked of the calls, the end and the exceptions. -/
theorem wp_trivial (p : Txn S K E V α) :
    wp (fun _ => True) φ p pend (fun _ _ => True) fun _ _ => True := by
  induction p generalizing pend with
  | ret a => trivial
  | throw e => trivial
  | read k n ih => exact fun v _ => ih (pend v)
  | write w n ih => exact ih
  | lock k n ih => exact ih
  | release ks n ih => exact ih
  | call v n ih => exact ⟨trivial, ih⟩

theorem wp_conj {p : Txn S K E V α}
    (h : wp κ φ p pend Q R) (h' : wp κ' φ p pend Q' R') :
    wp κ φ p pend (fun a pend => Q a pend ∧ Q' a pend)
      (fun e pend => R e pend ∧ R' e pend) := by
  induction p generalizing pend with
  | ret a => exact ⟨h, h'⟩
  | throw e => exact ⟨h, h'⟩
  | read k n ih => exact fun v hv => ih (pend v) (h v hv) (h' v hv)
  | write w n ih => exact ih h h'
  | lock k n ih => exact ih h h'
  | release ks n ih => exact ih h h'
  | call v n ih => exact ⟨h.1, ih h.2 h'.2⟩

/-- `try … except` without a savepoint. -/
theorem wp_handle {p : Txn S K E V α} {catches : E → Bool} {f : E → Txn S K E V α}
    (h : wp κ φ p pend Q fun e pend' =>
      if catches e then wp κ φ (f e) pend' Q R else R e pend') :
    wp κ φ (p.handle catches f) pend Q R := by
  induction p generalizing pend with
  | ret a => exact h
  | throw e =>
      simp only [handle, wp_throw] at h ⊢
      split
      · next hc => simpa [hc] using h
      · next hc => simpa [hc] using h
  | read k n ih => exact fun v hv => ih (pend v) (h v hv)
  | write w n ih => exact ih h
  | lock k n ih => exact ih h
  | release ks n ih => exact ih h
  | call v n ih => exact ⟨h.1, ih h.2⟩

theorem wp_atomicFrom {Q : Except E α → (S → S) → Prop} {acc : S → S} {keys : List K}
    {p : Txn S K E V α} {catches : E → Bool}
    (h : wp κ φ p (acc ∘ pend) (fun a => Q (.ok a)) fun e _ =>
      if catches e then Q (.error e) pend else R e pend) :
    wp κ φ (p.atomicFrom catches acc keys) pend Q R := by
  induction p generalizing acc keys with
  | ret a => exact h
  | throw e =>
      simp only [atomicFrom, wp_throw] at h ⊢
      split
      · next hc => simpa [hc] using h
      · next hc => simpa [hc] using h
  | read k n ih => exact fun v hv => ih (acc (pend v)) (h v hv)
  | write w n ih => exact ih h
  | lock k n ih => exact ih h
  | release ks n ih => exact ih h
  | call v n ih => exact ⟨h.1, ih h.2⟩

/-- A savepoint: on a caught exception the writes of its body are gone. -/
theorem wp_tryAtomic {Q : Except E α → (S → S) → Prop}
    {p : Txn S K E V α} {catches : E → Bool}
    (h : wp κ φ p pend (fun a => Q (.ok a)) fun e _ =>
      if catches e then Q (.error e) pend else R e pend) :
    wp κ φ (p.tryAtomic catches) pend Q R :=
  wp_atomicFrom h

end Rules

/-! ## What a request processed alone does -/

section Alone

variable {κ : V → Prop} {s t : S} {a : α}
variable {Q : α → (S → S) → Prop} {R : E → (S → S) → Prop}

/-- Hoare logic as a special case: no other transaction moves the state. -/
theorem exec_of_wp {p : Txn S K E V α} {pend : S → S}
    (h : wp κ (fun _ v => v = s) p pend Q R) :
    match p.exec (pend s) with
    | .ok (a, t) => ∃ pend', t = pend' s ∧ Q a pend'
    | .error e => ∃ pend', R e pend' := by
  induction p generalizing pend with
  | ret a => exact ⟨pend, rfl, h⟩
  | throw e => exact ⟨pend, h⟩
  | read k n ih => exact ih (pend s) (h s rfl)
  | write w n ih => exact ih h
  | lock k n ih => exact ih h
  | release ks n ih => exact ih h
  | call v n ih => exact ih h.2

theorem exec_ok_of_wp {p : Txn S K E V α}
    (h : wp κ (fun _ v => v = s) p id Q R) (hp : p.exec s = .ok (a, t)) :
    ∃ pend, t = pend s ∧ Q a pend := by
  have hsound := exec_of_wp h
  simpa [hp] using hsound

/-- The strongest postcondition of a program that runs alone. -/
theorem wp_exec (p : Txn S K E V α) (pend : S → S) :
    p.wp (fun _ => True) (fun _ v => v = s) pend
      (fun a pend' => p.exec (pend s) = .ok (a, pend' s)) fun e _ =>
        p.exec (pend s) = .error e := by
  induction p generalizing pend with
  | ret a => rfl
  | throw e => rfl
  | read k n ih =>
      rintro v rfl
      exact ih (pend v) pend
  | write w n ih => exact ih (w ∘ pend)
  | lock k n ih => exact ih pend
  | release ks n ih => exact ih pend
  | call v n ih => exact ⟨trivial, ih pend⟩

theorem calls_of_wp {p : Txn S K E V α} {pend : S → S}
    (h : wp κ (fun _ v => v = s) p pend Q R) : ∀ v ∈ p.calls (pend s), κ v := by
  induction p generalizing pend with
  | ret a => simp [calls]
  | throw e => simp [calls]
  | read k n ih => exact ih (pend s) (h s rfl)
  | write w n ih => exact ih h
  | lock k n ih => exact ih h
  | release ks n ih => exact ih h
  | call v n ih =>
      intro u hu
      rcases List.mem_cons.mp hu with rfl | hu
      · exact h.1
      · exact ih h.2 u hu

end Alone

/-! ## Frames -/

/-- Every write `p` can make leaves `f` of the state alone, it makes no calls, and
it raises only exceptions in `ε`. -/
def Frame {X : Type} (f : S → X) (ε : E → Prop) (p : Txn S K E V α) : Prop :=
  ∀ pend : S → S,
    wp (fun _ => False) (fun _ _ => True) p pend (fun _ pend' => ∀ s, f (pend' s) = f (pend s))
      fun e pend' => ε e ∧ ∀ s, f (pend' s) = f (pend s)

section Frames

variable {X : Type} {f : S → X} {ε : E → Prop}

theorem Frame.wp {p : Txn S K E V α} (hp : Frame f ε p) {κ : V → Prop} {φ : K → S → Prop}
    {pend : S → S} {Q : α → (S → S) → Prop} {R : E → (S → S) → Prop}
    (hQ : ∀ a pend', (∀ s, f (pend' s) = f (pend s)) → Q a pend')
    (hR : ∀ e pend', ε e → (∀ s, f (pend' s) = f (pend s)) → R e pend') :
    Txn.wp κ φ p pend Q R :=
  wp_mono (fun _ h => h.elim) (fun _ _ _ => trivial) hQ (fun e pend' h => hR e pend' h.1 h.2)
    (hp pend)

theorem frame_ret (a : α) : Frame f ε (ret a : Txn S K E V α) :=
  fun _ _ => rfl

theorem frame_throw {e : E} (he : ε e) : Frame f ε (throw e : Txn S K E V α) :=
  fun _ => ⟨he, fun _ => rfl⟩

theorem frame_acquire (k : K) : Frame f ε (acquire k : Txn S K E V Unit) :=
  fun _ _ => rfl

theorem frame_fetch (k : K) (q : S → α) : Frame f ε (fetch k q : Txn S K E V α) :=
  fun _ _ _ _ => rfl

theorem frame_modify {w : S → S} (hw : ∀ s, f (w s) = f s) :
    Frame f ε (modify w : Txn S K E V Unit) :=
  fun pend s => hw (pend s)

theorem frame_bind {p : Txn S K E V α} {g : α → Txn S K E V β}
    (hp : Frame f ε p) (hg : ∀ a, Frame f ε (g a)) : Frame f ε (p >>= g) := by
  intro pend
  rw [wp_bind]
  refine hp.wp (fun a pend' h => ?_) (fun e pend' he h => ⟨he, h⟩)
  exact (hg a).wp (fun b pend'' h' s => (h' s).trans (h s))
    (fun e pend'' he h' => ⟨he, fun s => (h' s).trans (h s)⟩)

theorem frame_ite {c : Prop} [Decidable c] {p q : Txn S K E V α}
    (hp : Frame f ε p) (hq : Frame f ε q) : Frame f ε (if c then p else q) := by
  split
  · exact hp
  · exact hq

theorem Frame.exec {p : Txn S K E V α} (hp : Frame f ε p) {s t : S} {a : α}
    (h : p.exec s = .ok (a, t)) : f t = f s := by
  have hwp : Txn.wp (fun _ => False) (fun _ v => v = s) p id
      (fun _ pend => ∀ u, f (pend u) = f u) (fun _ _ => True) :=
    hp.wp (fun _ _ h => h) (fun _ _ _ _ => trivial)
  obtain ⟨pend, rfl, hpend⟩ := exec_ok_of_wp hwp h
  exact hpend s

theorem Frame.calls {p : Txn S K E V α} (hp : Frame f ε p) (s : S) : p.calls s = [] := by
  have hwp : Txn.wp (fun _ => False) (fun _ v => v = s) p id (fun _ _ => True) (fun _ _ => True) :=
    hp.wp (fun _ _ _ => trivial) (fun _ _ _ _ => trivial)
  exact List.eq_nil_iff_forall_not_mem.mpr (calls_of_wp hwp)

end Frames

end ReadCommitted.Txn
