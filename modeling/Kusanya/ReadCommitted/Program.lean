import Mathlib.Data.List.Basic

/-!
# Programs over a transactional store

A request handler is a sequence of SQL statements with pure code between them.
`Txn` is the tree of those statements: what the handler does next may depend on
everything it has read so far.  The tree is given two meanings.  `exec` runs it
with nothing else going on, which is what a request processed alone does;
`ReadCommitted.Interleaving` runs many of them at once.

Nothing here mentions a particular store.  `S` is the state of the database,
`K` names its rows, tables and unique keys, `E` is the type of exceptions and
`V` records the calls made to the outside world.
-/

namespace ReadCommitted

/-- A handler: a tree of statements.  A `write` is private to its transaction
until the commit, `lock` waits for the transaction that holds the key, `release`
gives back locks that were taken after a savepoint, and a `call` leaves the
database and cannot be undone by a rollback. -/
inductive Txn (S K E V : Type) (α : Type) where
  | ret (a : α)
  | throw (e : E)
  | read (what : K) (next : S → Txn S K E V α)
  | write (effect : S → S) (next : Txn S K E V α)
  | lock (key : K) (next : Txn S K E V α)
  | release (keys : List K) (next : Txn S K E V α)
  | call (v : V) (next : Txn S K E V α)

namespace Txn

variable {S K E V α β γ : Type}

/-- Sequencing: graft the continuation onto every normal end of the tree. -/
protected def bind : Txn S K E V α → (α → Txn S K E V β) → Txn S K E V β
  | ret a, f => f a
  | throw e, _ => throw e
  | read k n, f => read k fun s => (n s).bind f
  | write w n, f => write w (n.bind f)
  | lock k n, f => lock k (n.bind f)
  | release ks n, f => release ks (n.bind f)
  | call v n, f => call v (n.bind f)

instance : Monad (Txn S K E V) where
  pure := ret
  bind := Txn.bind

@[simp] theorem pure_eq_ret (a : α) : (pure a : Txn S K E V α) = ret a := rfl

@[simp] theorem ret_bind (a : α) (f : α → Txn S K E V β) :
    (ret a >>= f) = f a := rfl

@[simp] theorem throw_bind (e : E) (f : α → Txn S K E V β) :
    (throw e >>= f) = throw e := rfl

@[simp] theorem read_bind (k : K) (n : S → Txn S K E V α) (f : α → Txn S K E V β) :
    (read k n >>= f) = read k fun s => n s >>= f := rfl

@[simp] theorem write_bind (w : S → S) (n : Txn S K E V α) (f : α → Txn S K E V β) :
    (write w n >>= f) = write w (n >>= f) := rfl

@[simp] theorem lock_bind (k : K) (n : Txn S K E V α) (f : α → Txn S K E V β) :
    (lock k n >>= f) = lock k (n >>= f) := rfl

@[simp] theorem release_bind (ks : List K) (n : Txn S K E V α) (f : α → Txn S K E V β) :
    (release ks n >>= f) = release ks (n >>= f) := rfl

@[simp] theorem call_bind (v : V) (n : Txn S K E V α) (f : α → Txn S K E V β) :
    (call v n >>= f) = call v (n >>= f) := rfl

/-! ## Statements -/

/-- A `SELECT`. -/
def fetch (k : K) (q : S → α) : Txn S K E V α := read k fun s => ret (q s)

/-- An `INSERT` or `UPDATE` on rows the transaction already holds. -/
def modify (w : S → S) : Txn S K E V Unit := write w (ret ())

/-- Wait for a row lock, or for a concurrent insert of the same unique key. -/
def acquire (k : K) : Txn S K E V Unit := lock k (ret ())

/-- A request to a system outside the database. -/
def invoke (v : V) : Txn S K E V Unit := call v (ret ())

/-- `try p except E as e: h e`, with no savepoint: what `p` wrote stays. -/
def handle (catches : E → Bool) (h : E → Txn S K E V α) : Txn S K E V α → Txn S K E V α
  | ret a => ret a
  | throw e => if catches e then h e else throw e
  | read k n => read k fun s => (n s).handle catches h
  | write w n => write w (n.handle catches h)
  | lock k n => lock k (n.handle catches h)
  | release ks n => release ks (n.handle catches h)
  | call v n => call v (n.handle catches h)

/-- The body of a savepoint.  Its writes are collected in `acc`, seen by its own
reads, and handed to the transaction only when the savepoint is released; the
locks it takes are collected in `keys` and given back when it is rolled back. -/
def atomicFrom (catches : E → Bool) (acc : S → S) (keys : List K) :
    Txn S K E V α → Txn S K E V (Except E α)
  | ret a => write acc (ret (.ok a))
  | throw e => if catches e then release keys (ret (.error e)) else throw e
  | read k n => read k fun s => (n (acc s)).atomicFrom catches acc keys
  | write w n => n.atomicFrom catches (w ∘ acc) keys
  | lock k n => lock k (n.atomicFrom catches acc (k :: keys))
  | release ks n => release ks (n.atomicFrom catches acc keys)
  | call v n => call v (n.atomicFrom catches acc keys)

/-- `try: with transaction.atomic(): p`, giving a caught exception as a value:
a savepoint around `p` that is rolled back when `p` raises. -/
def tryAtomic (catches : E → Bool) (p : Txn S K E V α) : Txn S K E V (Except E α) :=
  p.atomicFrom catches id []

/-! ## One transaction at a time -/

/-- Run a handler alone.  `.ok` carries the state it would commit; an exception
carries none, because the transaction is rolled back. -/
def exec : Txn S K E V α → S → Except E (α × S)
  | ret a, s => .ok (a, s)
  | throw e, _ => .error e
  | read _ n, s => (n s).exec s
  | write w n, s => n.exec (w s)
  | lock _ n, s => n.exec s
  | release _ n, s => n.exec s
  | call _ n, s => n.exec s

/-- The outside calls a handler run alone makes, also when it raises later. -/
def calls : Txn S K E V α → S → List V
  | ret _, _ => []
  | throw _, _ => []
  | read _ n, s => (n s).calls s
  | write w n, s => n.calls (w s)
  | lock _ n, s => n.calls s
  | release _ n, s => n.calls s
  | call v n, s => v :: n.calls s

section Exec

variable (s : S)

@[simp] theorem exec_ret (a : α) : (ret a : Txn S K E V α).exec s = .ok (a, s) := rfl

@[simp] theorem exec_throw (e : E) : (throw e : Txn S K E V α).exec s = .error e := rfl

@[simp] theorem exec_read (k : K) (n : S → Txn S K E V α) :
    (read k n).exec s = (n s).exec s := rfl

@[simp] theorem exec_write (w : S → S) (n : Txn S K E V α) :
    (write w n).exec s = n.exec (w s) := rfl

@[simp] theorem exec_lock (k : K) (n : Txn S K E V α) :
    (lock k n).exec s = n.exec s := rfl

@[simp] theorem exec_release (ks : List K) (n : Txn S K E V α) :
    (release ks n).exec s = n.exec s := rfl

@[simp] theorem exec_call (v : V) (n : Txn S K E V α) :
    (call v n).exec s = n.exec s := rfl

@[simp] theorem exec_fetch (k : K) (q : S → α) :
    (fetch k q : Txn S K E V α).exec s = .ok (q s, s) := rfl

@[simp] theorem exec_modify (w : S → S) :
    (modify w : Txn S K E V Unit).exec s = .ok ((), w s) := rfl

@[simp] theorem exec_acquire (k : K) :
    (acquire k : Txn S K E V Unit).exec s = .ok ((), s) := rfl

@[simp] theorem exec_invoke (v : V) :
    (invoke v : Txn S K E V Unit).exec s = .ok ((), s) := rfl

@[simp] theorem exec_ite (c : Prop) [Decidable c] (p q : Txn S K E V α) :
    (if c then p else q).exec s = if c then p.exec s else q.exec s := by
  split <;> rfl

/-- Running `p` and then `f` is running `f` where `p` ended. -/
theorem exec_bind (p : Txn S K E V α) (f : α → Txn S K E V β) :
    (p >>= f).exec s =
      match p.exec s with
      | .ok (a, s') => (f a).exec s'
      | .error e => .error e := by
  induction p generalizing s with
  | ret a => rfl
  | throw e => rfl
  | read k n ih => exact ih s s
  | write w n ih => exact ih (w s)
  | lock k n ih => exact ih s
  | release ks n ih => exact ih s
  | call v n ih => exact ih s

theorem exec_bind_error {p : Txn S K E V α} {f : α → Txn S K E V β} {e : E}
    (h : p.exec s = .error e) : (p >>= f).exec s = .error e := by
  rw [exec_bind, h]

theorem exec_bind_ok {p : Txn S K E V α} {f : α → Txn S K E V β} {b : β} {t : S} :
    (p >>= f).exec s = .ok (b, t) ↔
      ∃ a u, p.exec s = .ok (a, u) ∧ (f a).exec u = .ok (b, t) := by
  rw [exec_bind]
  cases p.exec s with
  | error e => simp
  | ok r =>
      constructor
      · intro h
        exact ⟨r.1, r.2, rfl, h⟩
      · rintro ⟨a, u, hr, h⟩
        obtain rfl : r = (a, u) := Except.ok.inj hr
        exact h

theorem exec_atomicFrom (catches : E → Bool) (acc : S → S) (keys : List K)
    (p : Txn S K E V α) :
    (p.atomicFrom catches acc keys).exec s =
      match p.exec (acc s) with
      | .ok (a, s') => .ok (.ok a, s')
      | .error e => if catches e then .ok (.error e, s) else .error e := by
  induction p generalizing acc keys with
  | ret a => rfl
  | throw e =>
      simp only [atomicFrom, exec_throw]
      split <;> rfl
  | read k n ih => exact ih (acc s) acc keys
  | write w n ih => exact ih (w ∘ acc) keys
  | lock k n ih => exact ih acc (k :: keys)
  | release ks n ih => exact ih acc keys
  | call v n ih => exact ih acc keys

/-- A savepoint either keeps everything its body did or nothing of it. -/
theorem exec_tryAtomic (catches : E → Bool) (p : Txn S K E V α) :
    (p.tryAtomic catches).exec s =
      match p.exec s with
      | .ok (a, s') => .ok (.ok a, s')
      | .error e => if catches e then .ok (.error e, s) else .error e :=
  exec_atomicFrom s catches id [] p

@[simp] theorem calls_ite (c : Prop) [Decidable c] (p q : Txn S K E V α) :
    (if c then p else q).calls s = if c then p.calls s else q.calls s := by
  split <;> rfl

theorem calls_bind (p : Txn S K E V α) (f : α → Txn S K E V β) :
    (p >>= f).calls s =
      p.calls s ++
        match p.exec s with
        | .ok (a, s') => (f a).calls s'
        | .error _ => [] := by
  induction p generalizing s with
  | ret a => rfl
  | throw e => rfl
  | read k n ih => exact ih s s
  | write w n ih => exact ih (w s)
  | lock k n ih => exact ih s
  | release ks n ih => exact ih s
  | call v n ih => exact congrArg (v :: ·) (ih s)

/-- Where `p` ends normally, its calls are followed by those of `f`. -/
theorem calls_bind_ok {p : Txn S K E V α} {f : α → Txn S K E V β} {a : α} {u : S}
    (h : p.exec s = .ok (a, u)) : (p >>= f).calls s = p.calls s ++ (f a).calls u := by
  rw [calls_bind, h]

end Exec

end Txn

end ReadCommitted
