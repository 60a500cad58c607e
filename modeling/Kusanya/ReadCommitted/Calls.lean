import Kusanya.ReadCommitted.Logic

/-!
# Counting outside calls

A call cannot be rolled back, so how often a program makes one is a property of its
own.  `Silent κ p` says that `p` makes no call of the kind `κ`, `AtMostOnce κ p` that
it makes at most one, whatever state it starts in and however it ends.
-/

namespace ReadCommitted.Txn

variable {S K E V α β : Type}

def Silent (κ : V → Bool) (p : Txn S K E V α) : Prop :=
  ∀ s, (p.calls s).countP κ = 0

def AtMostOnce (κ : V → Bool) (p : Txn S K E V α) : Prop :=
  ∀ s, (p.calls s).countP κ ≤ 1

section Rules

variable {κ : V → Bool} {p : Txn S K E V α} {f : α → Txn S K E V β}

theorem Frame.silent {X : Type} {g : S → X} {ε : E → Prop} (h : Frame g ε p) : Silent κ p := by
  intro s
  rw [h.calls s]
  rfl

theorem Silent.calls (h : Silent (fun _ => true) p) (s : S) : p.calls s = [] := by
  have hnone := h s
  rw [List.countP_eq_zero] at hnone
  exact List.eq_nil_iff_forall_not_mem.mpr fun v hv => hnone v hv rfl

theorem silent_ret (a : α) : Silent κ (ret a : Txn S K E V α) := fun _ => rfl

theorem silent_throw (e : E) : Silent κ (throw e : Txn S K E V α) := fun _ => rfl

theorem silent_modify (w : S → S) : Silent κ (modify w : Txn S K E V Unit) := fun _ => rfl

theorem silent_acquire (k : K) : Silent κ (acquire k : Txn S K E V Unit) := fun _ => rfl

theorem silent_fetch (k : K) (q : S → α) : Silent κ (fetch k q : Txn S K E V α) := fun _ => rfl

theorem silent_bind (hp : Silent κ p) (hf : ∀ a, Silent κ (f a)) : Silent κ (p >>= f) := by
  intro s
  rw [calls_bind, List.countP_append, hp s, Nat.zero_add]
  cases p.exec s with
  | ok r => exact hf r.1 r.2
  | error e => rfl

theorem silent_ite {c : Prop} [Decidable c] {q : Txn S K E V α} (hp : Silent κ p)
    (hq : Silent κ q) : Silent κ (if c then p else q) := by
  split
  · exact hp
  · exact hq

theorem Silent.atMostOnce (h : Silent κ p) : AtMostOnce κ p := by
  intro s
  rw [h s]
  exact Nat.zero_le 1

/-- Nothing before the call. -/
theorem atMostOnce_after (hp : Silent κ p) (hf : ∀ a, AtMostOnce κ (f a)) :
    AtMostOnce κ (p >>= f) := by
  intro s
  rw [calls_bind, List.countP_append, hp s, Nat.zero_add]
  cases p.exec s with
  | ok r => exact hf r.1 r.2
  | error e => exact Nat.zero_le 1

/-- Nothing after the call. -/
theorem atMostOnce_before (hp : AtMostOnce κ p) (hf : ∀ a, Silent κ (f a)) :
    AtMostOnce κ (p >>= f) := by
  intro s
  rw [calls_bind, List.countP_append]
  cases p.exec s with
  | ok r =>
      dsimp only
      rw [hf r.1 r.2]
      exact hp s
  | error e => exact hp s

theorem atMostOnce_invoke (v : V) : AtMostOnce κ (invoke v : Txn S K E V Unit) :=
  fun _ => List.countP_le_length

end Rules

end ReadCommitted.Txn
