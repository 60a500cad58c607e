import Kusanya.ReadCommitted.Locking

/-!
# Schedules of disciplined programs

`Config.run_disciplined` is the rule: along every schedule, what the programs promise of
their commits holds of each commit, and the committed state is the result of the commits
in their order.
-/

namespace ReadCommitted

variable {S K E V α : Type}

/-- The commits of a run in their order: who committed what, from which state to which. -/
inductive Commits (C : ℕ → α → S → S → Prop) (start : S) : List (ℕ × α) → List S → S → Prop where
  | none : Commits C start [] [] start
  | commit {log : List (ℕ × α)} {past : List S} {s t : S} {i : ℕ} {a : α} :
      Commits C start log past s → C i a s t →
      Commits C start (log ++ [(i, a)]) (past ++ [s]) t

/-- What each commit establishes and every later commit keeps holds at the end. -/
theorem Commits.persists {C : ℕ → α → S → S → Prop} {P : ℕ → α → S → Prop} {start s : S}
    {log : List (ℕ × α)} {past : List S} (h : Commits C start log past s)
    (hnew : ∀ i a s t, C i a s t → P i a t)
    (hold : ∀ i a s t, C i a s t → ∀ j b, P j b s → P j b t) : ∀ x ∈ log, P x.1 x.2 s := by
  induction h with
  | none => exact fun x hx => absurd hx List.not_mem_nil
  | commit _ hcommit ih =>
      intro x hx
      rcases List.mem_append.mp hx with hx | hx
      · exact hold _ _ _ _ hcommit _ _ (ih x hx)
      · rw [List.mem_singleton.mp hx]
        exact hnew _ _ _ _ hcommit

/-- What holds of each committed state, and between each and the next. -/
theorem Commits.history {C : ℕ → α → S → S → Prop} {J : S → Prop} {R : S → S → Prop}
    {start s : S} {log : List (ℕ × α)} {past : List S} (h : Commits C start log past s)
    (hstart : J start) (hC : ∀ i a s t, C i a s t → J s → J t ∧ R s t) :
    (∀ t ∈ past ++ [s], J t) ∧ (past ++ [s]).IsChain R := by
  induction h with
  | none =>
      refine ⟨fun t ht => ?_, List.isChain_singleton _⟩
      rw [List.mem_singleton.mp ht]
      exact hstart
  | @commit log past s t i a _ hcommit ih =>
      have hs : J s := ih.1 s (List.mem_append_right _ (List.mem_singleton.mpr rfl))
      obtain ⟨hJ, hR⟩ := hC _ _ _ _ hcommit hs
      refine ⟨fun u hu => ?_, List.isChain_append.mpr ⟨ih.2, List.isChain_singleton _, ?_⟩⟩
      · rcases List.mem_append.mp hu with hu | hu
        · exact ih.1 u hu
        · rw [List.mem_singleton.mp hu]
          exact hJ
      · intro u hu v hv
        obtain rfl : s = u := by simpa using hu
        obtain rfl : t = v := by simpa using hv
        exact hR

/-- What every commit keeps of the committed state and the order of the commits so far. -/
theorem Commits.order_invariant {C : ℕ → α → S → S → Prop} {P : List ℕ → S → Prop} {start s : S}
    {log : List (ℕ × α)} {past : List S} (h : Commits C start log past s) (hstart : P [] start)
    (hC : ∀ order i a s t, C i a s t → P order s → P (order ++ [i]) t) : P (log.map (·.1)) s := by
  induction h with
  | none => exact hstart
  | commit _ hcommit ih =>
      rw [List.map_append, List.map_singleton]
      exact hC _ _ _ _ _ hcommit ih

/-- What each commit relates, the whole rest of the history relates. -/
theorem Commits.reaches {C : ℕ → α → S → S → Prop} {R : S → S → Prop} {start s : S}
    {log : List (ℕ × α)} {past : List S} (h : Commits C start log past s) (hrefl : ∀ s, R s s)
    (htrans : ∀ s t u, R s t → R t u → R s u) (hC : ∀ i a s t, C i a s t → R s t) :
    ∀ t ∈ past ++ [s], R t s := by
  induction h with
  | none =>
      intro t ht
      rw [List.mem_singleton.mp ht]
      exact hrefl _
  | commit _ hcommit ih =>
      intro t ht
      rcases List.mem_append.mp ht with ht | ht
      · exact htrans _ _ _ (ih t ht) (hC _ _ _ _ hcommit)
      · rw [List.mem_singleton.mp ht]
        exact hrefl _

namespace Config

variable [DecidableEq K]

/-- What a session is known to be: a run of `p` that keeps to the discipline. -/
def Follows (D : Discipline S K) (p : Txn S K E V α) (Q : α → Local S K → Prop) (store : S) :
    Session S K E V α → Prop
  | .running program pend held seen =>
      p.Leaves seen program pend ∧ (∀ x ∈ seen, D.inv x.2 ∧ D.evolves x.2 store) ∧
        ∃ last, (Local.mk held pend last).Sees D store ∧
          program.lwp D ⟨held, pend, last⟩ Q fun _ _ => True
  | _ => True

/-- What holds along every schedule of programs that keep to a discipline. -/
structure Disciplined (D : Discipline S K) (programs : List (Txn S K E V α))
    (Q : ℕ → α → Local S K → Prop) (C : ℕ → α → S → S → Prop) (start : S) (log : List (ℕ × α))
    (c : Config S K E V α) : Prop where
  length : c.sessions.length = programs.length
  sessions : ∀ i p x, programs[i]? = some p → c.sessions[i]? = some x →
    Follows D p (Q i) c.store x
  exclusive : ∀ (i j : ℕ) (x y : Session S K E V α), i ≠ j → c.sessions[i]? = some x →
    c.sessions[j]? = some y →
    ∀ k ∈ x.locks, k ∉ y.locks
  inv : D.inv c.store
  commits : Commits C start log c.past c.store
  logged : ∀ i a, c.sessions[i]? = some (.committed a) ↔ (i, a) ∈ log
  once : (log.map (·.1)).Nodup

variable {D : Discipline S K} {programs : List (Txn S K E V α)} {Q : ℕ → α → Local S K → Prop}
variable {C : ℕ → α → S → S → Prop} {start : S} {log : List (ℕ × α)}

/-- A session goes on as before when another one commits. -/
theorem Follows.mono {p : Txn S K E V α} {Q : α → Local S K → Prop} {s t : S}
    {x : Session S K E V α} (h : Follows D p Q s x) (hinv : D.inv t) (hst : D.evolves s t)
    (hkeeps : ∀ k ∈ x.locks, D.keeps k s t) : Follows D p Q t x := by
  cases x with
  | running program pend held seen =>
      obtain ⟨hleaves, hseen, last, hsees, hlwp⟩ := h
      refine ⟨hleaves, fun y hy => ⟨(hseen y hy).1, D.evolves_trans (hseen y hy).2 hst⟩, last,
        ⟨hinv, D.evolves_trans hsees.evolves hst, fun k hk => ?_⟩, hlwp⟩
      exact D.keeps_trans (hsees.keeps k hk) (hkeeps k hk)
  | committed a => trivial
  | raised e => trivial
  | crashed => trivial

theorem disciplined_start {s : S} (hs : D.inv s)
    (hprograms : ∀ (i : ℕ) (p : Txn S K E V α), programs[i]? = some p →
      p.lwp D (Local.fresh s) (Q i) fun _ _ => True) :
    Disciplined D programs Q C s [] (Config.start s programs) where
  length := List.length_map _
  sessions i p x hp hx := by
    rw [Config.start, List.getElem?_map, hp, Option.map_some, Option.some.injEq] at hx
    subst hx
    refine ⟨fun _ _ _ _ _ h => h, fun y hy => absurd hy List.not_mem_nil, s, ?_,
      hprograms i p hp⟩
    exact Local.Sees.of_last (l := Local.fresh s) hs
  exclusive i j x y _ hx _ k hk := by
    rw [Config.start, List.getElem?_map, Option.map_eq_some_iff] at hx
    obtain ⟨p, -, rfl⟩ := hx
    cases hk
  inv := hs
  commits := Commits.none
  logged i a := by
    rw [Config.start, List.getElem?_map, Option.map_eq_some_iff]
    simp
  once := List.nodup_nil

theorem free_iff {c : Config S K E V α} {i : ℕ} {k : K} :
    c.free i k = true ↔ ∀ j y, j ≠ i → c.sessions[j]? = some y → k ∉ y.locks := by
  rw [free, List.all_eq_true]
  constructor
  · intro h j y hne hy
    have hmem : (y, j) ∈ c.sessions.zipIdx := List.mem_zipIdx_iff_getElem?.mpr hy
    simpa [hne] using h (y, j) hmem
  · rintro h ⟨y, j⟩ hmem
    by_cases hne : j = i
    · simp [hne]
    · simpa [hne] using h j y hne (List.mem_zipIdx_iff_getElem?.mp hmem)

omit [DecidableEq K] in
theorem put_get {c : Config S K E V α} {i j : ℕ} {x y : Session S K E V α}
    (h : (c.put i x).sessions[j]? = some y) : i = j ∧ y = x ∨ i ≠ j ∧ c.sessions[j]? = some y := by
  by_cases hij : i = j
  · subst hij
    left
    rw [put, List.getElem?_set_self'] at h
    obtain ⟨_, -, rfl⟩ := Option.map_eq_some_iff.mp h
    exact ⟨rfl, rfl⟩
  · right
    rw [put, List.getElem?_set_ne hij] at h
    exact ⟨hij, h⟩

/-- A statement that is not a commit. -/
theorem Disciplined.put {c : Config S K E V α} (hc : Disciplined D programs Q C start log c)
    {i : ℕ} {old x : Session S K E V α} (hold : c.sessions[i]? = some old)
    (hnot : ∀ a, old ≠ .committed a) (hx : ∀ p, programs[i]? = some p → Follows D p (Q i) c.store x)
    (hlocks : ∀ k ∈ x.locks, k ∈ old.locks ∨ c.free i k = true) (hnot' : ∀ a, x ≠ .committed a) :
    Disciplined D programs Q C start log (c.put i x) where
  length := by
    rw [← hc.length]
    exact List.length_set
  sessions j p y hp hy := by
    rcases put_get hy with ⟨rfl, rfl⟩ | ⟨-, hy⟩
    · exact hx p hp
    · exact hc.sessions j p y hp hy
  exclusive j j' y y' hne hy hy' k hk hk' := by
    rcases put_get hy with ⟨rfl, rfl⟩ | ⟨hij, hyc⟩ <;>
      rcases put_get hy' with ⟨rfl, rfl⟩ | ⟨hij', hyc'⟩
    · exact hne rfl
    · rcases hlocks k hk with hin | hfree
      · exact hc.exclusive _ _ _ _ hij' hold hyc' k hin hk'
      · exact free_iff.mp hfree _ _ (Ne.symm hij') hyc' hk'
    · rcases hlocks k hk' with hin | hfree
      · exact hc.exclusive _ _ _ _ hij hold hyc k hin hk
      · exact free_iff.mp hfree _ _ (Ne.symm hij) hyc hk
    · exact hc.exclusive j j' y y' hne hyc hyc' k hk hk'
  inv := hc.inv
  commits := hc.commits
  logged j a := by
    rw [← hc.logged j a]
    constructor
    · intro h
      rcases put_get h with ⟨-, hx'⟩ | ⟨-, h⟩
      · exact absurd hx'.symm (hnot' a)
      · exact h
    · intro h
      have hij : i ≠ j := by
        rintro rfl
        rw [hold] at h
        exact hnot a (Option.some.inj h)
      rw [Config.put, List.getElem?_set_ne hij]
      exact h
  once := hc.once

/-- A commit. -/
theorem Disciplined.commit {c : Config S K E V α} (hc : Disciplined D programs Q C start log c)
    {i : ℕ} {a : α} {pend : S → S} {held : List K} {seen : List (K × S)}
    (hold : c.sessions[i]? = some (.running (.ret a) pend held seen))
    (hinv : D.inv (pend c.store)) (hevolves : D.evolves c.store (pend c.store))
    (hkeeps : ∀ k, k ∉ held → D.keeps k c.store (pend c.store))
    (hC : C i a c.store (pend c.store)) :
    Disciplined D programs Q C start (log ++ [(i, a)])
      (c.execute i pend held seen (.ret a)) where
  length := by
    rw [← hc.length]
    exact List.length_set
  sessions j p y hp hy := by
    rcases put_get hy with ⟨rfl, rfl⟩ | ⟨hij, hy⟩
    · trivial
    · refine (hc.sessions j p y hp hy).mono hinv hevolves fun k hk => hkeeps k fun hin => ?_
      exact hc.exclusive i j _ y hij hold hy k hin hk
  exclusive j j' y y' hne hy hy' k hk hk' := by
    rcases put_get hy with ⟨rfl, rfl⟩ | ⟨hij, hy⟩
    · cases hk
    · rcases put_get hy' with ⟨rfl, rfl⟩ | ⟨hij', hy'⟩
      · cases hk'
      · exact hc.exclusive j j' y y' hne hy hy' k hk hk'
  inv := hinv
  commits := hc.commits.commit hC
  logged j b := by
    rw [List.mem_append, List.mem_singleton, ← hc.logged j b]
    constructor
    · intro h
      rcases put_get h with ⟨rfl, hb⟩ | ⟨-, h⟩
      · obtain rfl := Session.committed.inj hb
        exact Or.inr rfl
      · exact Or.inl h
    · rintro (h | h)
      · have hij : i ≠ j := by
          rintro rfl
          rw [hold] at h
          cases h
        exact (List.getElem?_set_ne hij).trans h
      · obtain ⟨rfl, rfl⟩ := Prod.mk.inj h
        have hlt : j < c.sessions.length := (List.getElem?_eq_some_iff.mp hold).1
        exact List.getElem?_set_self hlt
  once := by
    rw [List.map_append, List.map_singleton]
    refine List.nodup_append.mpr ⟨hc.once, List.pairwise_singleton _ i, fun j hj j' hj' hjj' => ?_⟩
    obtain ⟨⟨_, b⟩, hmem, rfl⟩ := List.mem_map.mp hj
    obtain rfl := List.mem_singleton.mp hj'
    obtain rfl := hjj'
    have hcommitted := (hc.logged _ b).mpr hmem
    rw [hold] at hcommitted
    cases hcommitted

/-- Who commits in an event. -/
def committer (c : Config S K E V α) : Event → Option ℕ
  | .advance i => (c.committing (.advance i)).map fun _ => i
  | .crash _ => none

/-- Who commits along a schedule, the first commit first. -/
def commitOrder : Config S K E V α → List Event → List ℕ
  | _, [] => []
  | c, e :: es => (c.committer e).toList ++ (c.step e).commitOrder es

theorem commitOrder_append (c : Config S K E V α) (es es' : List Event) :
    c.commitOrder (es ++ es') = c.commitOrder es ++ (c.run es).commitOrder es' := by
  induction es generalizing c with
  | nil => rfl
  | cons e es ih =>
      change (c.committer e).toList ++ (c.step e).commitOrder (es ++ es') =
        ((c.committer e).toList ++ (c.step e).commitOrder es) ++
          ((c.step e).run es).commitOrder es'
      rw [ih, List.append_assoc]

/-- What a transaction owes when it commits. -/
def Honours (D : Discipline S K) (programs : List (Txn S K E V α)) (Q : ℕ → α → Local S K → Prop)
    (M : S → (S → S) → List (K × S) → Prop) (C : ℕ → α → S → S → Prop) : Prop :=
  ∀ (i : ℕ) (p : Txn S K E V α) (a : α) (l : Local S K) (seen : List (K × S)) (s : S),
    programs[i]? = some p → p.Leaves seen (.ret a) l.pend →
    (∀ x ∈ seen, D.inv x.2 ∧ D.evolves x.2 s) → Q i a l → l.Sees D s → M s l.pend seen →
    D.inv (l.pend s) ∧ D.evolves s (l.pend s) ∧ (∀ k, k ∉ l.held → D.keeps k s (l.pend s)) ∧
      C i a s (l.pend s)

variable {M : S → (S → S) → List (K × S) → Prop}

/-- One statement. -/
theorem Disciplined.execute {c : Config S K E V α} (hc : Disciplined D programs Q C start log c)
    (hhonours : Honours D programs Q M C) {i : ℕ} {program : Txn S K E V α} {pend : S → S}
    {held : List K} {seen : List (K × S)}
    (hold : c.sessions[i]? = some (.running program pend held seen))
    (hmeets : ∀ a, program = .ret a → M c.store pend seen) :
    ∃ log', Disciplined D programs Q C start log' (c.execute i pend held seen program) ∧
      log'.map (·.1) = log.map (·.1) ++ (c.committer (.advance i)).toList := by
  have hlt : i < programs.length := by
    rw [← hc.length]
    exact (List.getElem?_eq_some_iff.mp hold).1
  have hp : programs[i]? = some programs[i] := List.getElem?_eq_getElem hlt
  obtain ⟨hleaves, hseen, last, hsees, hlwp⟩ := hc.sessions i _ _ hp hold
  have hput : ∀ x : Session S K E V α, Follows D programs[i] (Q i) c.store x →
      (∀ k ∈ x.locks, k ∈ held ∨ c.free i k = true) → (∀ a, x ≠ .committed a) →
      Disciplined D programs Q C start log (c.put i x) := by
    intro x hx hlocks hnot
    refine hc.put hold (fun a h => by cases h) (fun p hp' => ?_) hlocks hnot
    obtain rfl := Option.some.inj (hp.symm.trans hp')
    exact hx
  cases program with
  | ret a =>
      obtain ⟨hinv, hevolves, hkeeps, hC⟩ :=
        hhonours i _ a ⟨held, pend, last⟩ seen c.store hp hleaves hseen hlwp hsees (hmeets a rfl)
      exact ⟨_, hc.commit hold hinv hevolves hkeeps hC, by simp [committer, committing, hold]⟩
  | throw e =>
      exact ⟨log, hput (.raised e) trivial (fun k hk => by cases hk) (fun a h => by cases h),
        by simp [committer, committing, hold]⟩
  | read k n =>
      refine ⟨log, hput _ ⟨fun κ φ P R hφ h => ?_, fun x hx => ?_, c.store,
        Local.Sees.of_last (l := ⟨held, pend, c.store⟩) hc.inv, hlwp c.store hsees⟩
        (fun k hk => Or.inl hk) (fun a h => by cases h), by simp [committer, committing, hold]⟩
      · have hread := hleaves κ φ P R (fun x hx => hφ x (List.mem_append_left _ hx)) h
        exact hread c.store (hφ (k, c.store) (List.mem_append_right _ (List.mem_singleton.mpr rfl)))
      · rcases List.mem_append.mp hx with hx | hx
        · exact hseen x hx
        · rw [List.mem_singleton.mp hx]
          exact ⟨hc.inv, D.evolves_refl _⟩
  | write w n =>
      exact ⟨log, hput _ ⟨fun κ φ P R hφ h => hleaves κ φ P R hφ h, hseen, last,
        ⟨hsees.inv, hsees.evolves, hsees.keeps⟩, hlwp⟩ (fun k hk => Or.inl hk)
        (fun a h => by cases h), by simp [committer, committing, hold]⟩
  | lock k n =>
      change ∃ log', Disciplined D programs Q C start log'
        (if c.free i k then c.put i (.running n pend (k :: held) seen) else c) ∧ _
      split
      · next hfree =>
          refine ⟨log, hput _ ⟨fun κ φ P R hφ h => hleaves κ φ P R hφ h, hseen, c.store,
            Local.Sees.of_last (l := ⟨k :: held, pend, c.store⟩) hc.inv,
            hlwp c.store hsees⟩ (fun k' hk' => ?_) (fun a h => by cases h),
            by simp [committer, committing, hold]⟩
          rcases List.mem_cons.mp hk' with rfl | hk'
          · exact Or.inr hfree
          · exact Or.inl hk'
      · exact ⟨log, hc, by simp [committer, committing, hold]⟩
  | release ks n =>
      refine ⟨log, hput _ ⟨fun κ φ P R hφ h => hleaves κ φ P R hφ h, hseen, last,
        ⟨hsees.inv, hsees.evolves, fun k hk => hsees.keeps k (List.diff_subset _ _ hk)⟩, hlwp⟩
        (fun k hk => Or.inl (List.diff_subset _ _ hk)) (fun a h => by cases h),
        by simp [committer, committing, hold]⟩
  | call v n =>
      have hnext := hput (.running n pend held seen)
        ⟨fun κ φ P R hφ h => (hleaves κ φ P R hφ h).2, hseen, last, hsees, hlwp⟩
        (fun k hk => Or.inl hk) fun a h => by cases h
      exact ⟨log, ⟨hnext.length, hnext.sessions, hnext.exclusive, hnext.inv, hnext.commits,
        hnext.logged, hnext.once⟩, by simp [committer, committing, hold]⟩

/-- One event of a schedule. -/
theorem Disciplined.step {c : Config S K E V α} (hc : Disciplined D programs Q C start log c)
    (hhonours : Honours D programs Q M C) (e : Event)
    (hmeets : ∀ pend seen, c.committing e = some (pend, seen) → M c.store pend seen) :
    ∃ log', Disciplined D programs Q C start log' (c.step e) ∧
      log'.map (·.1) = log.map (·.1) ++ (c.committer e).toList := by
  cases e with
  | advance i =>
      cases hi : c.sessions[i]? with
      | none =>
          exact ⟨log, by simpa [Config.step, hi] using hc, by simp [committer, committing, hi]⟩
      | some x =>
          cases x with
          | running program pend held seen =>
              have hstep : c.step (.advance i) = c.execute i pend held seen program := by
                simp [Config.step, hi]
              rw [hstep]
              refine hc.execute hhonours hi fun a ha => hmeets pend seen ?_
              subst ha
              simp [committing, hi]
          | committed a =>
              exact ⟨log, by simpa [Config.step, hi] using hc, by simp [committer, committing, hi]⟩
          | raised e =>
              exact ⟨log, by simpa [Config.step, hi] using hc, by simp [committer, committing, hi]⟩
          | crashed =>
              exact ⟨log, by simpa [Config.step, hi] using hc, by simp [committer, committing, hi]⟩
  | crash i =>
      cases hi : c.sessions[i]? with
      | none => exact ⟨log, by simpa [Config.step, hi] using hc, by simp [committer]⟩
      | some x =>
          cases x with
          | running program pend held seen =>
              have hstep : c.step (.crash i) = c.put i .crashed := by simp [Config.step, hi]
              rw [hstep]
              exact ⟨log, hc.put hi (fun a h => by cases h) (fun _ _ => trivial)
                (fun k hk => by cases hk) (fun a h => by cases h), by simp [committer]⟩
          | committed a => exact ⟨log, by simpa [Config.step, hi] using hc, by simp [committer]⟩
          | raised e => exact ⟨log, by simpa [Config.step, hi] using hc, by simp [committer]⟩
          | crashed => exact ⟨log, by simpa [Config.step, hi] using hc, by simp [committer]⟩

/-- Along every schedule whose commits meet `M`, programs that keep to the discipline honour
their commits. -/
theorem Disciplined.run {c : Config S K E V α} (hc : Disciplined D programs Q C start log c)
    (hhonours : Honours D programs Q M C) (schedule : List Event)
    (hmeets : CommitsMeet M c schedule) :
    ∃ log', Disciplined D programs Q C start log' (c.run schedule) ∧
      log'.map (·.1) = log.map (·.1) ++ c.commitOrder schedule := by
  induction schedule generalizing c log with
  | nil => exact ⟨log, hc, (List.append_nil _).symm⟩
  | cons e es ih =>
      obtain ⟨log', hc', horder'⟩ := hc.step hhonours e hmeets.1
      obtain ⟨log'', hc'', horder''⟩ := ih hc' hmeets.2
      exact ⟨log'', hc'', by rw [horder'', horder', commitOrder, List.append_assoc]⟩

/-- The commits of the log come in the order of the schedule. -/
theorem run_disciplined_order {s : S} (hs : D.inv s)
    (hprograms : ∀ (i : ℕ) (p : Txn S K E V α), programs[i]? = some p →
      p.lwp D (Local.fresh s) (Q i) fun _ _ => True)
    (hhonours : Honours D programs Q M C) (schedule : List Event)
    (hmeets : CommitsMeet M (Config.start s programs) schedule) :
    ∃ log, Disciplined D programs Q C s log ((Config.start s programs).run schedule) ∧
      log.map (·.1) = (Config.start s programs).commitOrder schedule :=
  (disciplined_start hs hprograms).run hhonours schedule hmeets

theorem run_disciplined {s : S} (hs : D.inv s)
    (hprograms : ∀ (i : ℕ) (p : Txn S K E V α), programs[i]? = some p →
      p.lwp D (Local.fresh s) (Q i) fun _ _ => True)
    (hhonours : Honours D programs Q M C) (schedule : List Event)
    (hmeets : CommitsMeet M (Config.start s programs) schedule) :
    ∃ log, Disciplined D programs Q C s log ((Config.start s programs).run schedule) := by
  obtain ⟨log, hrun, -⟩ := run_disciplined_order hs hprograms hhonours schedule hmeets
  exact ⟨log, hrun⟩

end Config

end ReadCommitted
