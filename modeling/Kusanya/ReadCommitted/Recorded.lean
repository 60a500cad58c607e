import Kusanya.ReadCommitted.Disciplined

/-!
# What commits have read

Every state that a transaction has read when it commits was committed before it.  So what each
commit makes of states that have an invariant holds along the whole history, and a relation that
holds from each state to the next also holds from all that a transaction has read to the state
that its commit finds.
-/

namespace ReadCommitted

variable {S K E V α : Type}

/-- A history whose commits `C` have read only states of the history; `order` says who committed,
the first one first. -/
inductive Recorded (C : ℕ → α → List (K × S) → S → S → Prop) (start : S) :
    List ℕ → List S → S → Prop where
  | none : Recorded C start [] [] start
  | commit {order : List ℕ} {past : List S} {s t : S} {i : ℕ} {a : α} {seen : List (K × S)}
      (before : Recorded C start order past s) (read : ∀ x ∈ seen, x.2 ∈ past ++ [s])
      (commits : C i a seen s t) : Recorded C start (order ++ [i]) (past ++ [s]) t

/-- What every commit keeps of the committed states, and how they develop. -/
theorem Recorded.invariant {C : ℕ → α → List (K × S) → S → S → Prop} {J : S → Prop}
    {G : S → S → Prop} {start s : S} {order : List ℕ} {past : List S}
    (h : Recorded C start order past s)
    (hstart : J start) (hrefl : ∀ s, G s s) (htrans : ∀ s t u, G s t → G t u → G s u)
    (hC : ∀ i a seen s t, C i a seen s t → J s → (∀ x ∈ seen, J x.2 ∧ G x.2 s) → J t ∧ G s t) :
    (∀ t ∈ past ++ [s], J t ∧ G t s) ∧ (past ++ [s]).IsChain G := by
  induction h with
  | none =>
      refine ⟨fun t ht => ?_, List.isChain_singleton _⟩
      rw [List.mem_singleton.mp ht]
      exact ⟨hstart, hrefl start⟩
  | @commit order past s t i a seen _ hread hcommits ih =>
      obtain ⟨hpast, hchain⟩ := ih
      have hs : J s := (hpast s (List.mem_append_right _ (List.mem_singleton.mpr rfl))).1
      obtain ⟨ht, hst⟩ := hC i a seen s t hcommits hs fun x hx => hpast x.2 (hread x hx)
      constructor
      · intro u hu
        rcases List.mem_append.mp hu with hu | hu
        · exact ⟨(hpast u hu).1, htrans u s t (hpast u hu).2 hst⟩
        · rw [List.mem_singleton.mp hu]
          exact ⟨ht, hrefl t⟩
      · refine List.isChain_append.mpr ⟨hchain, List.isChain_singleton _, fun u hu v hv => ?_⟩
        obtain rfl : s = u := by simpa using hu
        obtain rfl : t = v := by simpa using hv
        exact hst

/-- A commit may use what the commits before it keep. -/
theorem Recorded.strengthen {C : ℕ → α → List (K × S) → S → S → Prop} {J : S → Prop}
    {G : S → S → Prop} {start s : S} {order : List ℕ} {past : List S}
    (h : Recorded C start order past s)
    (hstart : J start) (hrefl : ∀ s, G s s) (htrans : ∀ s t u, G s t → G t u → G s u)
    (hC : ∀ i a seen s t, C i a seen s t → J s → (∀ x ∈ seen, J x.2 ∧ G x.2 s) → J t ∧ G s t) :
    Recorded (fun i a seen s t => C i a seen s t ∧ J s ∧ ∀ x ∈ seen, J x.2 ∧ G x.2 s) start order
      past s := by
  induction h with
  | none => exact .none
  | @commit order past s t i a seen before hread hcommits ih =>
      obtain ⟨hpast, -⟩ := before.invariant hstart hrefl htrans hC
      have hs : J s := (hpast s (List.mem_append_right _ (List.mem_singleton.mpr rfl))).1
      exact .commit ih hread ⟨hcommits, hs, fun x hx => hpast x.2 (hread x hx)⟩

theorem Recorded.mono {C C' : ℕ → α → List (K × S) → S → S → Prop} {start s : S}
    {order : List ℕ} {past : List S} (h : Recorded C start order past s)
    (hC : ∀ i a seen s t, C i a seen s t → C' i a seen s t) : Recorded C' start order past s := by
  induction h with
  | none => exact .none
  | commit _ hread hcommits ih => exact .commit ih hread (hC _ _ _ _ _ hcommits)

section Later

variable {C : ℕ → α → List (K × S) → S → S → Prop} {M : S → Prop} {start s : S}
variable {order : List ℕ} {past : List S}

theorem Recorded.length (h : Recorded C start order past s) : order.length = past.length := by
  induction h with
  | none => rfl
  | commit _ _ _ ih => rw [List.length_append, List.length_append, ih]; rfl

/-- The states around the `k`-th commit. -/
theorem Recorded.commitAt (h : Recorded C start order past s) {k i : ℕ} (hi : order[k]? = some i) :
    ∃ a seen u t, (past ++ [s])[k]? = some u ∧ (past ++ [s])[k + 1]? = some t ∧ C i a seen u t := by
  induction h with
  | none => cases hi
  | @commit order past s t n a seen before hread hcommits ih =>
      have hlength := before.length
      by_cases hk : k < order.length
      · rw [List.getElem?_append_left hk] at hi
        obtain ⟨a', seen', u, v, hu, hv, hcommit⟩ := ih hi
        refine ⟨a', seen', u, v, ?_, ?_, hcommit⟩
        · rw [List.getElem?_append_left (by simp; omega)]
          exact hu
        · rw [List.getElem?_append_left (by simp; omega)]
          exact hv
      · have hlast : k = order.length := by
          have hbound := (List.getElem?_eq_some_iff.mp hi).1
          rw [List.length_append, List.length_singleton] at hbound
          omega
        subst hlast
        rw [List.getElem?_concat_length, Option.some.injEq] at hi
        subst hi
        refine ⟨a, seen, s, t, ?_, ?_, hcommits⟩
        · rw [List.getElem?_append_left (by simp; omega), hlength, List.getElem?_concat_length]
        · have hstates : order.length + 1 = (past ++ [s]).length := by simp [hlength]
          rw [hstates, List.getElem?_concat_length]

/-- What no commit takes back is found in every later state. -/
theorem Recorded.lasting (h : Recorded C start order past s)
    (hmono : ∀ i a seen s t, C i a seen s t → M s → M t) {j k : ℕ} (hjk : j ≤ k) {u v : S}
    (hu : (past ++ [s])[j]? = some u) (hv : (past ++ [s])[k]? = some v) (hM : M u) : M v := by
  obtain ⟨-, hchain⟩ := h.invariant (J := fun _ => True) (G := fun s t => M s → M t) trivial
    (fun _ hs => hs) (fun _ _ _ hst htu hs => htu (hst hs))
    fun i a seen s t hC _ _ => ⟨trivial, hmono i a seen s t hC⟩
  have : Trans (fun s t => M s → M t) (fun s t => M s → M t) (fun s t => M s → M t) :=
    ⟨fun hst htu hs => htu (hst hs)⟩
  obtain ⟨hj, rfl⟩ := List.getElem?_eq_some_iff.mp hu
  obtain ⟨hk, rfl⟩ := List.getElem?_eq_some_iff.mp hv
  rcases hjk.eq_or_lt with rfl | hlt
  · exact hM
  · exact List.pairwise_iff_getElem.mp hchain.pairwise j k hj hk hlt hM

end Later

namespace Config

variable [DecidableEq K] {D : Discipline S K} {programs : List (Txn S K E V α)}
variable {Q : ℕ → α → Local S K → Prop} {C : ℕ → α → S → S → Prop} {start : S}
variable {log : List (ℕ × α)} {M : S → (S → S) → List (K × S) → Prop}

/-- A transaction that commits has read only states of the history. -/
def Remembers (c : Config S K E V α) : Prop :=
  ∀ (i : ℕ) (program : Txn S K E V α) (pend : S → S) (held : List K) (seen : List (K × S)),
    c.sessions[i]? = some (.running program pend held seen) → ∀ x ∈ seen, x.2 ∈ c.history

omit [DecidableEq K] in
theorem remembers_start (s : S) (programs : List (Txn S K E V α)) :
    (Config.start s programs).Remembers := by
  intro i program pend held seen hi x hx
  rw [Config.start, List.getElem?_map, Option.map_eq_some_iff] at hi
  obtain ⟨p, -, hp⟩ := hi
  cases hp
  cases hx

omit [DecidableEq K] in
/-- The `i`-th transaction goes on with what it has read. -/
theorem Remembers.put {c : Config S K E V α} (h : c.Remembers) {i : ℕ} {x : Session S K E V α}
    (hx : ∀ program pend held seen, x = .running program pend held seen →
      ∀ y ∈ seen, y.2 ∈ c.history) : (c.put i x).Remembers := by
  intro j program pend held seen hj y hy
  rcases put_get hj with ⟨-, heq⟩ | ⟨-, hj⟩
  · exact hx program pend held seen heq.symm y hy
  · exact h j program pend held seen hj y hy

theorem Remembers.execute {c : Config S K E V α} (h : c.Remembers) {i : ℕ}
    {program : Txn S K E V α} {pend : S → S} {held : List K} {seen : List (K × S)}
    (hi : c.sessions[i]? = some (.running program pend held seen)) :
    (c.execute i pend held seen program).Remembers := by
  have hseen : ∀ x ∈ seen, x.2 ∈ c.history := h i program pend held seen hi
  have hput : ∀ (next : Txn S K E V α) (pend' : S → S) (held' : List K),
      (c.put i (.running next pend' held' seen)).Remembers := by
    intro next pend' held'
    refine h.put fun _ _ _ _ heq => ?_
    cases heq
    exact hseen
  cases program with
  | ret a =>
      intro j next pend' held' seen' hj x hx
      have hold : x.2 ∈ c.history := by
        rcases put_get hj with ⟨-, heq⟩ | ⟨-, hj⟩
        · cases heq
        · exact h j next pend' held' seen' hj x hx
      exact List.mem_append_left _ hold
  | throw e => exact h.put fun _ _ _ _ heq => by cases heq
  | read k n =>
      refine h.put fun _ _ _ _ heq x hx => ?_
      cases heq
      rcases List.mem_append.mp hx with hx | hx
      · exact hseen x hx
      · rw [List.mem_singleton.mp hx]
        exact c.store_mem_history
  | write w n => exact hput n _ _
  | lock k n =>
      simp only [Config.execute]
      split
      · exact hput n _ _
      · exact h
  | release ks n => exact hput n _ _
  | call v n => exact hput n _ _

theorem Remembers.step {c : Config S K E V α} (h : c.Remembers) (e : Event) :
    (c.step e).Remembers := by
  cases e with
  | advance i =>
      simp only [Config.step]
      split
      · next hi => exact h.execute hi
      · exact h
  | crash i =>
      simp only [Config.step]
      split
      · exact h.put fun _ _ _ _ heq => by cases heq
      · exact h

/-- What is known of a transaction that commits. -/
structure Leaving (D : Discipline S K) (p : Txn S K E V α) (Q : α → Local S K → Prop) (a : α)
    (seen : List (K × S)) (l : Local S K) (s t : S) : Prop where
  leaves : p.Leaves seen (.ret a) l.pend
  read : ∀ x ∈ seen, D.inv x.2 ∧ D.evolves x.2 s
  knows : Q a l
  sees : l.Sees D s
  inv : D.inv t
  evolves : D.evolves s t
  writes : t = l.pend s

/-- The commits of programs that keep to a discipline. -/
def LeavingOf (D : Discipline S K) (programs : List (Txn S K E V α))
    (Q : ℕ → α → Local S K → Prop) (i : ℕ) (a : α) (seen : List (K × S)) (s t : S) : Prop :=
  ∃ p l, programs[i]? = some p ∧ Leaving D p (Q i) a seen l s t

/-- One statement. -/
theorem Disciplined.recorded_execute {c : Config S K E V α}
    (hc : Disciplined D programs Q C start log c)
    (hhonours : Honours D programs Q (fun _ _ _ => True) C) (hremembers : c.Remembers)
    {order : List ℕ} (hrecorded : Recorded (LeavingOf D programs Q) start order c.past c.store)
    {i : ℕ} {program : Txn S K E V α} {pend : S → S} {held : List K} {seen : List (K × S)}
    (hi : c.sessions[i]? = some (.running program pend held seen)) :
    Recorded (LeavingOf D programs Q) start (order ++ (c.committer (.advance i)).toList)
      (c.execute i pend held seen program).past (c.execute i pend held seen program).store := by
  have hidle : c.committer (.advance i) = none →
      Recorded (LeavingOf D programs Q) start (order ++ (c.committer (.advance i)).toList)
        c.past c.store := by
    intro hnone
    rw [hnone, Option.toList_none, List.append_nil]
    exact hrecorded
  cases program with
  | ret a =>
      have hlt : i < programs.length := by
        rw [← hc.length]
        exact (List.getElem?_eq_some_iff.mp hi).1
      have hp : programs[i]? = some programs[i] := List.getElem?_eq_getElem hlt
      obtain ⟨hleaves, hread, last, hsees, hknows⟩ := hc.sessions i _ _ hp hi
      obtain ⟨hinv, hevolves, -, -⟩ := hhonours i _ a ⟨held, pend, last⟩ seen c.store hp hleaves
        hread hknows hsees trivial
      have hcommitter : c.committer (.advance i) = some i := by simp [committer, committing, hi]
      rw [hcommitter]
      exact hrecorded.commit (hremembers i _ pend held seen hi)
        ⟨_, ⟨held, pend, last⟩, hp, hleaves, hread, hknows, hsees, hinv, hevolves, rfl⟩
  | lock k n =>
      have hnone : c.committer (.advance i) = none := by simp [committer, committing, hi]
      simp only [Config.execute]
      split
      · exact hidle hnone
      · exact hidle hnone
  | _ =>
      refine hidle ?_
      simp [committer, committing, hi]

theorem Disciplined.recorded_step {c : Config S K E V α}
    (hc : Disciplined D programs Q C start log c)
    (hhonours : Honours D programs Q (fun _ _ _ => True) C) (hremembers : c.Remembers)
    {order : List ℕ} (hrecorded : Recorded (LeavingOf D programs Q) start order c.past c.store)
    (e : Event) :
    Recorded (LeavingOf D programs Q) start (order ++ (c.committer e).toList) (c.step e).past
      (c.step e).store := by
  have hidle : c.committer e = none →
      Recorded (LeavingOf D programs Q) start (order ++ (c.committer e).toList) c.past c.store := by
    intro hnone
    rw [hnone, Option.toList_none, List.append_nil]
    exact hrecorded
  cases e with
  | advance i =>
      simp only [Config.step]
      split
      · next hi => exact hc.recorded_execute hhonours hremembers hrecorded hi
      · next hended =>
          refine hidle ?_
          simp only [committer, committing, Option.map_eq_none_iff]
          split
          · next hi => exact absurd hi (hended _ _ _ _)
          · rfl
  | crash i =>
      simp only [Config.step]
      split
      · exact hidle rfl
      · exact hidle rfl

/-- Along every schedule of programs that keep to a discipline, each program commits at most once,
and each commit has read only states of the history. -/
theorem run_recorded {s : S} (hs : D.inv s)
    (hprograms : ∀ (i : ℕ) (p : Txn S K E V α), programs[i]? = some p →
      p.lwp D (Local.fresh s) (Q i) fun _ _ => True)
    (hhonours : Honours D programs Q (fun _ _ _ => True) C) (schedule : List Event) :
    Recorded (LeavingOf D programs Q) s ((Config.start s programs).commitOrder schedule)
      ((Config.start s programs).run schedule).past
      ((Config.start s programs).run schedule).store ∧
    ((Config.start s programs).commitOrder schedule).Nodup := by
  constructor
  · have hrun : ∀ (es : List Event) (c : Config S K E V α) (log : List (ℕ × α)) (order : List ℕ),
        Disciplined D programs Q C s log c → c.Remembers →
        Recorded (LeavingOf D programs Q) s order c.past c.store →
        Recorded (LeavingOf D programs Q) s (order ++ c.commitOrder es) (c.run es).past
          (c.run es).store := by
      intro es
      induction es with
      | nil =>
          intro c log order _ _ hrecorded
          rw [commitOrder, List.append_nil]
          exact hrecorded
      | cons e es ih =>
          intro c log order hc hremembers hrecorded
          obtain ⟨log', hc', -⟩ := hc.step hhonours e fun _ _ _ => trivial
          rw [commitOrder, ← List.append_assoc]
          exact ih (c.step e) log' _ hc' (hremembers.step e)
            (hc.recorded_step hhonours hremembers hrecorded e)
    exact hrun schedule _ [] [] (disciplined_start hs hprograms) (remembers_start s programs) .none
  · obtain ⟨log, hdisciplined, horder⟩ := run_disciplined_order hs hprograms hhonours schedule
      (commitsMeet_trivial _ schedule)
    rw [← horder]
    exact hdisciplined.once

end Config

end ReadCommitted
