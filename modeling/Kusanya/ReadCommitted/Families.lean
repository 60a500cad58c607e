import Kusanya.ReadCommitted.Logic

/-!
# Runs over a family of databases

A handler run alone in which every query is answered by a database of its own, and every write goes
to all of them: what the handler does when some of its queries find something else.
-/

namespace ReadCommitted

namespace Txn

variable {S K E V α β : Type}

/-- The queries of a run over a family, and how it ends, with the databases as it leaves them. -/
def spread : Txn S K E V α → (K → S) → List K × Except (E × (K → S)) (α × (K → S))
  | ret a, family => ([], .ok (a, family))
  | throw e, family => ([], .error (e, family))
  | read k n, family =>
      let r := (n (family k)).spread family
      (k :: r.1, r.2)
  | write w n, family => n.spread (w ∘ family)
  | lock _ n, family => n.spread family
  | release _ n, family => n.spread family
  | call _ n, family => n.spread family

section Spread

variable {p : Txn S K E V α} {family family' : K → S}

@[simp] theorem spread_ret (a : α) :
    (ret a : Txn S K E V α).spread family = ([], .ok (a, family)) := rfl

@[simp] theorem spread_throw (e : E) :
    (throw e : Txn S K E V α).spread family = ([], .error (e, family)) := rfl

@[simp] theorem spread_fetch (k : K) (q : S → α) :
    (fetch k q : Txn S K E V α).spread family = ([k], .ok (q (family k), family)) := rfl

@[simp] theorem spread_modify (w : S → S) :
    (modify w : Txn S K E V Unit).spread family = ([], .ok ((), w ∘ family)) := rfl

@[simp] theorem spread_acquire (k : K) :
    (acquire k : Txn S K E V Unit).spread family = ([], .ok ((), family)) := rfl

@[simp] theorem spread_invoke (v : V) :
    (invoke v : Txn S K E V Unit).spread family = ([], .ok ((), family)) := rfl

theorem spread_bind (p : Txn S K E V α) (f : α → Txn S K E V β) (family : K → S) :
    (p >>= f).spread family =
      match (p.spread family).2 with
      | .ok (a, family') =>
          ((p.spread family).1 ++ ((f a).spread family').1, ((f a).spread family').2)
      | .error r => ((p.spread family).1, .error r) := by
  induction p generalizing family with
  | ret a => rfl
  | throw e => rfl
  | read k n ih =>
      have hrest := ih (family k) family
      rw [read_bind, spread, hrest, spread]
      dsimp only
      split <;> rfl
  | write w n ih => exact ih (w ∘ family)
  | lock k n ih => exact ih family
  | release ks n ih => exact ih family
  | call v n ih => exact ih family

theorem spread_bind_ok {f : α → Txn S K E V β} {a : α}
    (h : (p.spread family).2 = .ok (a, family')) :
    (p >>= f).spread family =
      ((p.spread family).1 ++ ((f a).spread family').1, ((f a).spread family').2) := by
  rw [spread_bind, h]

theorem spread_bind_error {f : α → Txn S K E V β} {r : E × (K → S)}
    (h : (p.spread family).2 = .error r) :
    (p >>= f).spread family = ((p.spread family).1, .error r) := by
  rw [spread_bind, h]

/-- A savepoint queries what its body queries. -/
theorem spread_atomicFrom (catches : E → Bool) (acc : S → S) (keys : List K)
    (p : Txn S K E V α) (family : K → S) :
    (p.atomicFrom catches acc keys).spread family =
      ((p.spread (acc ∘ family)).1,
        match (p.spread (acc ∘ family)).2 with
        | .ok (a, family') => .ok (.ok a, family')
        | .error (e, _) => if catches e then .ok (.error e, family) else .error (e, family)) := by
  induction p generalizing acc keys with
  | ret a => rfl
  | throw e =>
      rw [atomicFrom]
      split <;> rename_i hcatch <;> simp [spread, hcatch]
  | read k n ih =>
      rw [atomicFrom, spread, ih (acc (family k)) acc keys, spread]
      rfl
  | write w n ih => exact ih (w ∘ acc) keys
  | lock k n ih => exact ih acc (k :: keys)
  | release ks n ih => exact ih acc keys
  | call v n ih => exact ih acc keys

theorem spread_tryAtomic (catches : E → Bool) (p : Txn S K E V α) (family : K → S) :
    (p.tryAtomic catches).spread family =
      ((p.spread family).1,
        match (p.spread family).2 with
        | .ok (a, family') => .ok (.ok a, family')
        | .error (e, _) => if catches e then .ok (.error e, family) else .error (e, family)) :=
  spread_atomicFrom catches id [] p family

/-- An exception that is handled without a savepoint leaves what was written. -/
theorem spread_handle (catches : E → Bool) (a : α) (p : Txn S K E V α) (family : K → S) :
    (p.handle catches fun _ => ret a).spread family =
      ((p.spread family).1,
        match (p.spread family).2 with
        | .ok r => .ok r
        | .error (e, family') => if catches e then .ok (a, family') else .error (e, family')) := by
  induction p generalizing family with
  | ret a => rfl
  | throw e =>
      rw [handle]
      split <;> rename_i hcatch <;> simp [spread, hcatch]
  | read k n ih =>
      rw [handle, spread, ih (family k) family, spread]
  | write w n ih => exact ih (w ∘ family)
  | lock k n ih => exact ih family
  | release ks n ih => exact ih family
  | call v n ih => exact ih family

/-- What a weakest precondition says of an exception holds of a run over a family. -/
theorem spread_error_of_wp {κ : V → Prop} {φ : K → S → Prop} {pend : S → S}
    {Q : α → (S → S) → Prop} {R : E → (S → S) → Prop} (h : wp κ φ p pend Q R)
    (hfamily : ∀ k, φ k (family k)) {e : E}
    (herror : (p.spread (pend ∘ family)).2 = .error (e, family')) :
    ∃ pend', R e pend' ∧ family' = pend' ∘ family := by
  induction p generalizing pend with
  | ret a => cases herror
  | throw e =>
      obtain ⟨rfl, rfl⟩ := Prod.mk.inj (Except.error.inj herror)
      exact ⟨pend, h, rfl⟩
  | read k n ih => exact ih _ (h (family k) (hfamily k)) herror
  | write w n ih => exact ih h herror
  | lock k n ih => exact ih h herror
  | release ks n ih => exact ih h herror
  | call v n ih => exact ih h.2 herror

end Spread

end Txn

end ReadCommitted
