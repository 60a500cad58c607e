import Kusanya.ReadCommitted.Sequential

/-!
# Interleaved transactions

Several handlers run at once, each in a transaction of its own under READ COMMITTED:
a read finds the latest committed state with the transaction's own writes on top, a
lock waits for the transaction that holds it, a commit applies the pending writes to
the committed state, and an exception or a crash leaves nothing.  A schedule says
whose turn it is.

`Config.run_invariant` is the rule: whatever the schedule, a commit may use all that
`wp` promises about a handler whose reads found exactly the states it has seen.
-/

namespace ReadCommitted

variable {S K E V α : Type}

/-- A transaction: what is left of its handler, its pending writes, the locks it holds
and the committed states that its reads have found; or how it ended. -/
inductive Session (S K E V α : Type) where
  | running (program : Txn S K E V α) (pend : S → S) (held : List K) (seen : List (K × S))
  | committed (a : α)
  | raised (e : E)
  | crashed

/-- The locks of a transaction; the end of a transaction gives them back. -/
def Session.locks : Session S K E V α → List K
  | running _ _ held _ => held
  | _ => []

/-- The committed state, the committed states before it, the transactions, and the calls made
so far. -/
structure Config (S K E V α : Type) where
  store : S
  past : List S
  sessions : List (Session S K E V α)
  calls : List V

/-- Whose turn it is. -/
inductive Event where
  | advance (i : ℕ)
  | crash (i : ℕ)
  deriving DecidableEq

namespace Config

/-- Handlers that are about to start. -/
def start (s : S) (programs : List (Txn S K E V α)) : Config S K E V α :=
  { store := s
    past := []
    sessions := programs.map fun p => .running p id [] []
    calls := [] }

/-- The committed states, the oldest first. -/
def history (c : Config S K E V α) : List S := c.past ++ [c.store]

/-- The `i`-th transaction becomes `x`. -/
def put (c : Config S K E V α) (i : ℕ) (x : Session S K E V α) : Config S K E V α :=
  { c with sessions := c.sessions.set i x }

variable [DecidableEq K]

/-- No other transaction holds the lock. -/
def free (c : Config S K E V α) (i : ℕ) (k : K) : Bool :=
  c.sessions.zipIdx.all fun x => x.2 = i || k ∉ x.1.locks

/-- The next statement of a running transaction. -/
def execute (c : Config S K E V α) (i : ℕ) (pend : S → S) (held : List K) (seen : List (K × S)) :
    Txn S K E V α → Config S K E V α
  | .ret a =>
      { c.put i (.committed a) with
        store := pend c.store
        past := c.past ++ [c.store] }
  | .throw e => c.put i (.raised e)
  | .read k n => c.put i (.running (n (pend c.store)) pend held (seen ++ [(k, c.store)]))
  | .write w n => c.put i (.running n (w ∘ pend) held seen)
  | .lock k n => if c.free i k then c.put i (.running n pend (k :: held) seen) else c
  | .release ks n => c.put i (.running n pend (held.diff ks) seen)
  | .call v n => { c.put i (.running n pend held seen) with calls := c.calls ++ [v] }

/-- One event; it changes nothing where the transaction has ended or has to wait. -/
def step (c : Config S K E V α) : Event → Config S K E V α
  | .advance i =>
      match c.sessions[i]? with
      | some (.running program pend held seen) => c.execute i pend held seen program
      | _ => c
  | .crash i =>
      match c.sessions[i]? with
      | some (.running ..) => c.put i .crashed
      | _ => c

/-- A schedule, the first event first. -/
def run (c : Config S K E V α) (schedule : List Event) : Config S K E V α :=
  schedule.foldl step c

/-- What the event would commit: the pending writes and the states they rest on. -/
def committing (c : Config S K E V α) : Event → Option ((S → S) × List (K × S))
  | .advance i =>
      match c.sessions[i]? with
      | some (.running (.ret _) pend _ seen) => some (pend, seen)
      | _ => none
  | .crash _ => none

/-- Every commit of the schedule meets a condition on the committed state, the pending
writes and the states they rest on. -/
def CommitsMeet (C : S → (S → S) → List (K × S) → Prop) : Config S K E V α → List Event → Prop
  | _, [] => True
  | c, e :: es =>
      (∀ pend seen, c.committing e = some (pend, seen) → C c.store pend seen) ∧
        CommitsMeet C (c.step e) es

theorem CommitsMeet.mono {C C' : S → (S → S) → List (K × S) → Prop}
    (hC : ∀ s pend seen, C s pend seen → C' s pend seen) {c : Config S K E V α} {es : List Event}
    (h : CommitsMeet C c es) : CommitsMeet C' c es := by
  induction es generalizing c with
  | nil => trivial
  | cons e es ih => exact ⟨fun pend seen hcommit => hC _ _ _ (h.1 pend seen hcommit), ih h.2⟩

theorem commitsMeet_trivial (c : Config S K E V α) (es : List Event) :
    CommitsMeet (fun _ _ _ => True) c es := by
  induction es generalizing c with
  | nil => trivial
  | cons e es ih => exact ⟨fun _ _ _ => trivial, ih _⟩

instance decidableCommitsMeet (C : S → (S → S) → List (K × S) → Prop)
    [∀ s pend seen, Decidable (C s pend seen)] :
    (c : Config S K E V α) → (es : List Event) → Decidable (CommitsMeet C c es)
  | _, [] => isTrue trivial
  | c, e :: es =>
      have : Decidable (CommitsMeet C (c.step e) es) := decidableCommitsMeet C (c.step e) es
      match hcommit : c.committing e with
      | none => decidable_of_iff (CommitsMeet C (c.step e) es)
          (by simp only [CommitsMeet, hcommit]; simp)
      | some (pend, seen) => decidable_of_iff (C c.store pend seen ∧ CommitsMeet C (c.step e) es)
          (by simp only [CommitsMeet, hcommit]; simp)

end Config

/-! ## What a transaction still promises -/

/-- `p'` with pending writes `pend` is what is left of `p` when its reads have found `seen`:
whatever `wp` promises of `p` it promises of `p'`. -/
def Txn.Leaves (p : Txn S K E V α) (seen : List (K × S)) (p' : Txn S K E V α)
    (pend : S → S) : Prop :=
  ∀ (κ : V → Prop) (φ : K → S → Prop) (Q : α → (S → S) → Prop) (R : E → (S → S) → Prop),
    (∀ x ∈ seen, φ x.1 x.2) → p.wp κ φ id Q R → p'.wp κ φ pend Q R

/-- The transaction is a run of `p` whose reads found states in `J`. -/
def Session.Runs (J : S → Prop) (p : Txn S K E V α) : Session S K E V α → Prop
  | running p' pend _ seen => p.Leaves seen p' pend ∧ ∀ x ∈ seen, J x.2
  | _ => True

namespace Config

variable {J : S → Prop} {Rel : S → S → Prop} {programs : List (Txn S K E V α)}

/-- What holds along every schedule: each transaction is a run of its program, and the committed
states are in `J`, one related to the next. -/
structure Sound (J : S → Prop) (Rel : S → S → Prop) (programs : List (Txn S K E V α))
    (c : Config S K E V α) : Prop where
  sessions : List.Forall₂ (Session.Runs J) programs c.sessions
  committed : ∀ s ∈ c.history, J s
  chain : c.history.IsChain Rel

theorem store_mem_history (c : Config S K E V α) : c.store ∈ c.history :=
  List.mem_append_right _ (List.mem_singleton.mpr rfl)

theorem sound_start {s : S} (hs : J s) : Sound J Rel programs (start s programs) where
  sessions := by
    refine List.forall₂_map_right_iff.mpr (List.forall₂_same.mpr fun p _ => ?_)
    exact ⟨fun _ _ _ _ _ h => h, fun x hx => absurd hx List.not_mem_nil⟩
  committed s' hs' := by
    obtain rfl := List.mem_singleton.mp hs'
    exact hs
  chain := List.isChain_singleton s

theorem forall₂_set {α β : Type} {R : α → β → Prop} {l : List α} {l' : List β} (i : ℕ) {x : β}
    (h : List.Forall₂ R l l') (hx : ∀ a, l[i]? = some a → R a x) :
    List.Forall₂ R l (l'.set i x) := by
  induction h generalizing i with
  | nil => exact List.Forall₂.nil
  | @cons a b l l' hab hrest ih =>
      cases i with
      | zero => exact List.Forall₂.cons (hx a rfl) hrest
      | succ i => exact List.Forall₂.cons hab (ih i hx)

theorem forall₂_get {α β : Type} {R : α → β → Prop} {l : List α} {l' : List β} {i : ℕ} {x : β}
    (h : List.Forall₂ R l l') (hx : l'[i]? = some x) : ∃ a ∈ l, l[i]? = some a ∧ R a x := by
  induction h generalizing i with
  | nil => cases hx
  | @cons a b l l' hab hrest ih =>
      cases i with
      | zero =>
          obtain rfl := Option.some.inj hx
          exact ⟨a, List.mem_cons_self, rfl, hab⟩
      | succ i =>
          obtain ⟨a', hmem, hget, hrel⟩ := ih hx
          exact ⟨a', List.mem_cons_of_mem _ hmem, hget, hrel⟩

variable [DecidableEq K] {C : S → (S → S) → List (K × S) → Prop}

/-- One statement of a transaction. -/
theorem sound_execute {c : Config S K E V α} {i : ℕ} {p program : Txn S K E V α} {pend : S → S}
    {held : List K} {seen : List (K × S)} (hc : Sound J Rel programs c)
    (hp : programs[i]? = some p) (hleaves : p.Leaves seen program pend) (hseen : ∀ x ∈ seen, J x.2)
    (hcommit : ∀ a, program = .ret a → J (pend c.store) ∧ Rel c.store (pend c.store)) :
    Sound J Rel programs (c.execute i pend held seen program) := by
  have hput : ∀ x : Session S K E V α, x.Runs J p →
      List.Forall₂ (Session.Runs J) programs (c.sessions.set i x) := by
    intro x hx
    refine forall₂_set i hc.sessions fun a ha => ?_
    obtain rfl := Option.some.inj (hp.symm.trans ha)
    exact hx
  cases program with
  | ret a =>
      obtain ⟨hJ, hRel⟩ := hcommit a rfl
      refine ⟨hput (.committed a) trivial, fun s hs => ?_, ?_⟩
      · rcases List.mem_append.mp hs with hs | hs
        · exact hc.committed s hs
        · obtain rfl := List.mem_singleton.mp hs
          exact hJ
      · change ((c.past ++ [c.store]) ++ [pend c.store]).IsChain Rel
        refine List.isChain_append.mpr ⟨hc.chain, List.isChain_singleton _, fun a ha b hb => ?_⟩
        obtain rfl : c.store = a := by simpa using ha
        obtain rfl : pend c.store = b := by simpa using hb
        exact hRel
  | throw e => exact ⟨hput (.raised e) trivial, hc.committed, hc.chain⟩
  | read k n =>
      refine ⟨hput _ ⟨fun κ φ Q R hφ h => ?_, fun x hx => ?_⟩, hc.committed, hc.chain⟩
      · have hread := hleaves κ φ Q R (fun x hx => hφ x (List.mem_append_left _ hx)) h
        exact hread c.store (hφ (k, c.store) (List.mem_append_right _ (List.mem_singleton.mpr rfl)))
      · rcases List.mem_append.mp hx with hx | hx
        · exact hseen x hx
        · obtain rfl := List.mem_singleton.mp hx
          exact hc.committed _ c.store_mem_history
  | write w n =>
      exact ⟨hput _ ⟨fun κ φ Q R hφ h => hleaves κ φ Q R hφ h, hseen⟩, hc.committed, hc.chain⟩
  | lock k n =>
      change Sound J Rel programs
        (if c.free i k then c.put i (.running n pend (k :: held) seen) else c)
      split
      · exact ⟨hput _ ⟨fun κ φ Q R hφ h => hleaves κ φ Q R hφ h, hseen⟩, hc.committed, hc.chain⟩
      · exact hc
  | release ks n =>
      exact ⟨hput _ ⟨fun κ φ Q R hφ h => hleaves κ φ Q R hφ h, hseen⟩, hc.committed, hc.chain⟩
  | call v n =>
      exact ⟨hput _ ⟨fun κ φ Q R hφ h => (hleaves κ φ Q R hφ h).2, hseen⟩, hc.committed, hc.chain⟩

/-- One event of a schedule. -/
theorem sound_step {c : Config S K E V α}
    (hcommit : ∀ p ∈ programs, ∀ s pend seen a, J s → (∀ x ∈ seen, J x.2) →
      p.Leaves seen (.ret a) pend → C s pend seen → J (pend s) ∧ Rel s (pend s))
    (hc : Sound J Rel programs c) (e : Event)
    (hmeets : ∀ pend seen, c.committing e = some (pend, seen) → C c.store pend seen) :
    Sound J Rel programs (c.step e) := by
  cases e with
  | advance i =>
      cases hi : c.sessions[i]? with
      | none => simpa [step, hi] using hc
      | some x =>
          cases x with
          | running program pend held seen =>
              obtain ⟨p, hmem, hp, hleaves, hseen⟩ := forall₂_get hc.sessions hi
              have hstep : c.step (.advance i) = c.execute i pend held seen program := by
                simp [step, hi]
              rw [hstep]
              refine sound_execute hc hp hleaves hseen fun a hret => ?_
              subst hret
              refine hcommit p hmem c.store pend seen a (hc.committed _ c.store_mem_history) hseen
                hleaves (hmeets pend seen ?_)
              simp [committing, hi]
          | committed a => simpa [step, hi] using hc
          | raised e => simpa [step, hi] using hc
          | crashed => simpa [step, hi] using hc
  | crash i =>
      cases hi : c.sessions[i]? with
      | none => simpa [step, hi] using hc
      | some x =>
          cases x with
          | running program pend held seen =>
              have hstep : c.step (.crash i) = c.put i .crashed := by simp [step, hi]
              rw [hstep]
              exact ⟨forall₂_set i hc.sessions fun _ _ => trivial, hc.committed, hc.chain⟩
          | committed a => simpa [step, hi] using hc
          | raised e => simpa [step, hi] using hc
          | crashed => simpa [step, hi] using hc

/-- Along every schedule whose commits meet the condition, the committed states stay in `J` and
each is related to the next. -/
theorem run_invariant {c : Config S K E V α}
    (hcommit : ∀ p ∈ programs, ∀ s pend seen a, J s → (∀ x ∈ seen, J x.2) →
      p.Leaves seen (.ret a) pend → C s pend seen → J (pend s) ∧ Rel s (pend s))
    (hc : Sound J Rel programs c) (schedule : List Event) (hmeets : CommitsMeet C c schedule) :
    Sound J Rel programs (c.run schedule) := by
  induction schedule generalizing c with
  | nil => exact hc
  | cons e es ih => exact ih (sound_step hcommit hc e hmeets.1) hmeets.2

/-! ## Transactions that do not raise -/

/-- Who goes on in the event, and what this transaction has found so far. -/
def reading (c : Config S K E V α) : Event → Option (ℕ × List (K × S))
  | .advance i =>
      match c.sessions[i]? with
      | some (.running _ _ _ seen) => some (i, seen)
      | _ => none
  | .crash _ => none

/-- Whenever a transaction goes on, what it has found so far meets a condition. -/
def ReadsMeet (M : ℕ → List (K × S) → Prop) : Config S K E V α → List Event → Prop
  | _, [] => True
  | c, e :: es =>
      (∀ i seen, c.reading e = some (i, seen) → M i seen) ∧ ReadsMeet M (c.step e) es

instance decidableReadsMeet (M : ℕ → List (K × S) → Prop) [∀ i seen, Decidable (M i seen)] :
    (c : Config S K E V α) → (es : List Event) → Decidable (ReadsMeet M c es)
  | _, [] => isTrue trivial
  | c, e :: es =>
      have : Decidable (ReadsMeet M (c.step e) es) := decidableReadsMeet M (c.step e) es
      match hreading : c.reading e with
      | none => decidable_of_iff (ReadsMeet M (c.step e) es)
          (by simp only [ReadsMeet, hreading]; simp)
      | some (i, seen) => decidable_of_iff (M i seen ∧ ReadsMeet M (c.step e) es)
          (by simp only [ReadsMeet, hreading]; simp)

/-- A program that never raises when it finds states in `J` that meet the condition, and then
commits only what keeps `J`. -/
def Settled (J : S → Prop) (M : List (K × S) → Prop) (p : Txn S K E V α) : Prop :=
  ∀ seen, (∀ x ∈ seen, J x.2) → M seen → ∃ (κ : V → Prop) (φ : K → S → Prop),
    (∀ x ∈ seen, φ x.1 x.2) ∧
      p.wp κ φ id (fun _ pend => ∀ s, J s → J (pend s)) fun _ _ => False

/-- No transaction has raised. -/
def Unraised (c : Config S K E V α) : Prop :=
  ∀ (i : ℕ) (e : E), c.sessions[i]? ≠ some (Session.raised e)

omit [DecidableEq K] in
theorem Unraised.put {c : Config S K E V α} (h : c.Unraised) {i : ℕ} {x : Session S K E V α}
    (hx : ∀ e, x ≠ .raised e) : (c.put i x).Unraised := by
  intro j e hj
  by_cases hij : i = j
  · subst hij
    rw [Config.put, List.getElem?_set_self'] at hj
    obtain ⟨_, -, hraised⟩ := Option.map_eq_some_iff.mp hj
    exact hx e hraised
  · rw [Config.put, List.getElem?_set_ne hij] at hj
    exact h j e hj

/-- One statement of a transaction that has met the condition. -/
theorem Unraised.execute {c : Config S K E V α} {M : List (K × S) → Prop} (h : c.Unraised)
    (hc : Sound J (fun _ _ => True) programs c) {i : ℕ} {p program : Txn S K E V α}
    {pend : S → S} {held : List K} {seen : List (K × S)} (hp : programs[i]? = some p)
    (hleaves : p.Leaves seen program pend) (hseen : ∀ x ∈ seen, J x.2) (hsettled : Settled J M p)
    (hmeets : M seen) :
    Sound J (fun _ _ => True) programs (c.execute i pend held seen program) ∧
      (c.execute i pend held seen program).Unraised := by
  obtain ⟨κ, φ, hφ, hwp⟩ := hsettled seen hseen hmeets
  have hrest := hleaves κ φ _ _ hφ hwp
  constructor
  · refine sound_execute hc hp hleaves hseen ?_
    rintro a rfl
    exact ⟨hrest c.store (hc.committed _ c.store_mem_history), trivial⟩
  · cases program with
    | throw e => exact hrest.elim
    | ret a =>
        have hput : (c.put i (.committed a)).Unraised := h.put fun _ hraised => nomatch hraised
        exact fun j e hj => hput j e hj
    | read k n => exact h.put fun _ hraised => nomatch hraised
    | write w n => exact h.put fun _ hraised => nomatch hraised
    | lock k n =>
        simp only [Config.execute]
        split
        · exact h.put fun _ hraised => nomatch hraised
        · exact h
    | release ks n => exact h.put fun _ hraised => nomatch hraised
    | call v n =>
        have hput : (c.put i (.running n pend held seen)).Unraised :=
          h.put fun _ hraised => nomatch hraised
        exact fun j e hj => hput j e hj

theorem Unraised.step {c : Config S K E V α} {M : ℕ → List (K × S) → Prop} (h : c.Unraised)
    (hc : Sound J (fun _ _ => True) programs c)
    (hsettled : ∀ i p, programs[i]? = some p → Settled J (M i) p) (e : Event)
    (hmeets : ∀ i seen, c.reading e = some (i, seen) → M i seen) :
    Sound J (fun _ _ => True) programs (c.step e) ∧ (c.step e).Unraised := by
  cases e with
  | crash i =>
      cases hi : c.sessions[i]? with
      | none => simpa [Config.step, hi] using ⟨hc, h⟩
      | some x =>
          cases x with
          | running program pend held seen =>
              have hstep : c.step (.crash i) = c.put i .crashed := by simp [Config.step, hi]
              rw [hstep]
              exact ⟨⟨forall₂_set i hc.sessions fun _ _ => trivial, hc.committed, hc.chain⟩,
                h.put fun _ hraised => nomatch hraised⟩
          | committed a => simpa [Config.step, hi] using ⟨hc, h⟩
          | raised e => exact absurd hi (h i e)
          | crashed => simpa [Config.step, hi] using ⟨hc, h⟩
  | advance i =>
      cases hi : c.sessions[i]? with
      | none => simpa [Config.step, hi] using ⟨hc, h⟩
      | some x =>
          cases x with
          | running program pend held seen =>
              have hstep : c.step (.advance i) = c.execute i pend held seen program := by
                simp [Config.step, hi]
              have hM : M i seen := hmeets i seen (by simp [reading, hi])
              obtain ⟨p, -, hp, hleaves, hseen⟩ := forall₂_get hc.sessions hi
              rw [hstep]
              exact h.execute hc hp hleaves hseen (hsettled i p hp) hM
          | committed a => simpa [Config.step, hi] using ⟨hc, h⟩
          | raised e => exact absurd hi (h i e)
          | crashed => simpa [Config.step, hi] using ⟨hc, h⟩

/-- Along every schedule whose reads meet the condition, no transaction raises. -/
theorem run_unraised {c : Config S K E V α} {M : ℕ → List (K × S) → Prop}
    (hsettled : ∀ i p, programs[i]? = some p → Settled J (M i) p)
    (hc : Sound J (fun _ _ => True) programs c) (h : c.Unraised) (schedule : List Event)
    (hmeets : ReadsMeet M c schedule) : (c.run schedule).Unraised := by
  induction schedule generalizing c with
  | nil => exact h
  | cons e es ih =>
      obtain ⟨hc', h'⟩ := h.step hc hsettled e hmeets.1
      exact ih hc' h' hmeets.2

omit [DecidableEq K] in
theorem unraised_start (s : S) (programs : List (Txn S K E V α)) :
    (start s programs).Unraised := by
  intro i e hi
  rw [start, List.getElem?_map, Option.map_eq_some_iff] at hi
  obtain ⟨p, -, hp⟩ := hi
  cases hp

end Config

end ReadCommitted
