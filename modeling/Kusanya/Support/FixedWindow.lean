import Mathlib.Data.List.Basic

/-!
# Fixed-window counters

A counter is set by the first access that finds none, increased by the accesses that it lets
pass, and gone a fixed time after it was set.  An access reads and writes at two times; it may
find the counter at its read that is gone at its write.  Accesses come one after the other.
-/

namespace Support.FixedWindow

/-- A value and the time from which the counter is gone. -/
structure Counter where
  value : ℕ
  expires : ℕ

/-- When an access reads and when it writes. -/
structure Access where
  read : ℕ
  write : ℕ

/-- An access with the count that it read. -/
structure Reading extends Access where
  count : ℕ
  admitted : Bool

/-- What a read finds. -/
def found (state : Option Counter) (now : ℕ) : ℕ :=
  match state with
  | none => 0
  | some counter => if now < counter.expires then counter.value else 0

variable {limit window : ℕ} {state : Option Counter} {a : Access} {accesses : List Access}

variable (limit window) in
/-- The counter after an access. -/
def step (state : Option Counter) (a : Access) : Option Counter :=
  if limit ≤ found state a.read then state
  else if found state a.read = 0 then some { value := 1, expires := a.write + window }
  else state.map fun counter =>
    if a.write < counter.expires then { counter with value := counter.value + 1 } else counter

variable (limit) in
def readingOf (state : Option Counter) (a : Access) : Reading :=
  { a with
    count := found state a.read
    admitted := found state a.read < limit }

variable (limit window) in
/-- What the accesses read, one after the other. -/
def run (state : Option Counter) : List Access → List Reading
  | [] => []
  | a :: rest => readingOf limit state a :: run (step limit window state a) rest

/-- Each access is over before the next one begins. -/
structure Ordered (accesses : List Access) : Prop where
  within : ∀ a ∈ accesses, a.read ≤ a.write
  between : accesses.Pairwise fun a b => a.write ≤ b.read

/-- An admitted access that reads before `time`. -/
def Reading.before (time : ℕ) (r : Reading) : Bool := r.admitted && r.read < time

/-- An admitted access that reads in the interval of one window from `start` on. -/
def Reading.inside (window start : ℕ) (r : Reading) : Bool :=
  r.admitted && start ≤ r.read && r.read < start + window

theorem Ordered.tail (h : Ordered (a :: accesses)) : Ordered accesses where
  within b hb := h.within b (List.mem_cons_of_mem _ hb)
  between := (List.pairwise_cons.mp h.between).2

/-- What comes later reads after what comes earlier wrote. -/
theorem Ordered.later (h : Ordered (a :: accesses)) : ∀ b ∈ accesses, a.write ≤ b.read :=
  (List.pairwise_cons.mp h.between).1

theorem mem_run {r : Reading} (h : r ∈ run limit window state accesses) :
    ∃ a ∈ accesses, r.toAccess = a := by
  induction accesses generalizing state with
  | nil => cases h
  | cons a rest ih =>
      rcases List.mem_cons.mp h with rfl | h
      · exact ⟨a, List.mem_cons_self, rfl⟩
      · obtain ⟨b, hb, heq⟩ := ih h
        exact ⟨b, List.mem_cons_of_mem _ hb, heq⟩

/-! ## One access -/

theorem found_some {counter : Counter} {now : ℕ} (h : now < counter.expires) :
    found (some counter) now = counter.value := if_pos h

theorem found_of_expired {counter : Counter} {now : ℕ} (h : counter.expires ≤ now) :
    found (some counter) now = 0 := if_neg (Nat.not_lt.mpr h)

/-- An access that finds no counter sets one. -/
theorem step_of_none (hlimit : 1 ≤ limit) (h : found state a.read = 0) :
    step limit window state a = some { value := 1, expires := a.write + window } := by
  have hroom : ¬limit ≤ found state a.read := by omega
  rw [step, if_neg hroom, if_pos h]

/-- An access that is refused leaves the counter alone. -/
theorem step_of_refused (h : limit ≤ found state a.read) : step limit window state a = state :=
  if_pos h

/-- An access that finds room in the counter increases it, if it is still there. -/
theorem step_of_admitted {counter : Counter} (hpos : 1 ≤ counter.value)
    (hread : a.read < counter.expires) (hroom : counter.value < limit) :
    step limit window (some counter) a =
      some (if a.write < counter.expires then { counter with value := counter.value + 1 }
        else counter) := by
  have hfound := found_some hread
  have hnot : ¬limit ≤ found (some counter) a.read := by omega
  have hsome : ¬found (some counter) a.read = 0 := by omega
  rw [step, if_neg hnot, if_neg hsome]
  rfl

/-! ## One life of a counter -/

section Life

variable {counter : Counter}

theorem countP_before_eq_zero {time : ℕ} (h : ∀ b ∈ accesses, time ≤ b.read) :
    (run limit window state accesses).countP (Reading.before time) = 0 := by
  rw [List.countP_eq_zero]
  intro r hr
  obtain ⟨b, hb, rfl⟩ := mem_run hr
  have hlate := h _ hb
  simp [Reading.before, hlate]

variable (limit window) in
/-- Those that read a counter in its life share what is left of the limit. -/
theorem countP_before_le (counter : Counter) (hpos : 1 ≤ counter.value)
    (h : Ordered accesses) :
    (run limit window (some counter) accesses).countP (Reading.before counter.expires) ≤
      limit - counter.value := by
  induction accesses generalizing counter with
  | nil => exact Nat.zero_le _
  | cons a rest ih =>
      by_cases hread : a.read < counter.expires
      · have hfound := found_some hread
        rw [run, List.countP_cons]
        by_cases hroom : counter.value < limit
        · rw [step_of_admitted hpos hread hroom]
          by_cases hwrite : a.write < counter.expires
          · rw [if_pos hwrite]
            have hrest := ih { counter with value := counter.value + 1 }
              (Nat.le_add_left 1 _) h.tail
            dsimp only at hrest
            split <;> omega
          · -- the increment comes too late, and so does everything after it
            rw [if_neg hwrite, countP_before_eq_zero fun b hb =>
              Nat.le_trans (Nat.not_lt.mp hwrite) (h.later b hb)]
            split <;> omega
        · have hnot :
              Reading.before counter.expires (readingOf limit (some counter) a) = false := by
            simp [Reading.before, readingOf, hfound, hroom]
          rw [step_of_refused (by omega), hnot, if_neg Bool.false_ne_true]
          exact ih counter hpos h.tail
      · -- the counter is gone, for all that follow
        have hlate : ∀ b ∈ a :: rest, counter.expires ≤ b.read := by
          intro b hb
          rcases List.mem_cons.mp hb with rfl | hb
          · exact Nat.not_lt.mp hread
          · have hwithin := h.within a List.mem_cons_self
            have hlater := h.later b hb
            omega
        rw [countP_before_eq_zero hlate]
        exact Nat.zero_le _

/-- Where a counter refuses, the limit is used up. -/
theorem countP_admitted_of_refused (counter : Counter) (hpos : 1 ≤ counter.value)
    (hfits : counter.value ≤ limit)
    (h : Ordered accesses) {earlier later : List Reading} {r : Reading}
    (hrun : run limit window (some counter) accesses = earlier ++ r :: later)
    (hrefused : r.admitted = false) (hread : r.read < counter.expires) :
    earlier.countP (·.admitted) + counter.value = limit := by
  induction accesses generalizing counter earlier with
  | nil => simp [run] at hrun
  | cons a rest ih =>
      have hlater : ∀ q ∈ run limit window (step limit window (some counter) a) rest,
          a.write ≤ q.read := by
        intro q hq
        obtain ⟨b, hb, rfl⟩ := mem_run hq
        exact h.later _ hb
      rw [run] at hrun
      cases earlier with
      | nil =>
          obtain ⟨rfl, -⟩ := List.cons.inj hrun
          have hfound : found (some counter) a.read = counter.value := found_some hread
          have hfull : ¬counter.value < limit := by simpa [readingOf, hfound] using hrefused
          simp only [List.countP_nil]
          omega
      | cons q earlier =>
          obtain ⟨rfl, hrest⟩ := List.cons.inj hrun
          have hmem : r ∈ run limit window (step limit window (some counter) a) rest := by
            rw [hrest]
            simp
          have hwithin := h.within a List.mem_cons_self
          have hafter := hlater r hmem
          have hfound : found (some counter) a.read = counter.value := found_some (by omega)
          rw [List.countP_cons]
          by_cases hroom : counter.value < limit
          · rw [step_of_admitted hpos (by omega) hroom, if_pos (by omega)] at hrest
            have hused := ih { counter with value := counter.value + 1 }
              (Nat.le_add_left 1 _) hroom h.tail hrest hread
            have hadmitted : (readingOf limit (some counter) a).admitted = true := by
              simp [readingOf, hfound, hroom]
            rw [if_pos hadmitted]
            dsimp only at hused
            omega
          · rw [step_of_refused (by omega)] at hrest
            have hused := ih counter hpos hfits h.tail hrest hread
            have hnot : (readingOf limit (some counter) a).admitted = false := by
              simp [readingOf, hfound, hroom]
            rw [hnot, if_neg Bool.false_ne_true]
            omega

/-- Where an access is refused, the limit was used up since the counter was set. -/
theorem exists_opening_of_refused (hlimit : 1 ≤ limit)
    (hstate : ∀ counter ∈ state, 1 ≤ counter.value ∧ counter.value ≤ limit) (h : Ordered accesses)
    {earlier later : List Reading} {r : Reading}
    (hrun : run limit window state accesses = earlier ++ r :: later)
    (hrefused : r.admitted = false) :
    (∃ counter ∈ state, r.read < counter.expires) ∨
      ∃ before opening since, earlier = before ++ opening :: since ∧ opening.count = 0 ∧
        opening.admitted = true ∧ r.read < opening.write + window ∧
        (opening :: since).countP (·.admitted) = limit := by
  induction accesses generalizing state earlier with
  | nil => simp [run] at hrun
  | cons a rest ih =>
      rw [run] at hrun
      cases earlier with
      | nil =>
          obtain ⟨rfl, -⟩ := List.cons.inj hrun
          have hfull : limit ≤ found state a.read := by simpa [readingOf] using hrefused
          left
          cases hsome : state with
          | none =>
              rw [hsome] at hfull
              exact absurd hfull (by simp only [found]; omega)
          | some counter =>
              refine ⟨counter, rfl, ?_⟩
              by_contra hgone
              have hlate : counter.expires ≤ a.read := Nat.not_lt.mp hgone
              rw [hsome, found_of_expired hlate] at hfull
              omega
      | cons q earlier =>
          obtain ⟨rfl, hrest⟩ := List.cons.inj hrun
          have hlonger : ∀ {before since : List Reading} {opening : Reading},
              earlier = before ++ opening :: since → opening.count = 0 ∧ opening.admitted = true ∧
                r.read < opening.write + window ∧
                (opening :: since).countP (·.admitted) = limit →
              ∃ before opening since, readingOf limit state a :: earlier =
                before ++ opening :: since ∧ opening.count = 0 ∧ opening.admitted = true ∧
                r.read < opening.write + window ∧
                (opening :: since).countP (·.admitted) = limit := by
            intro before since opening hsplit hopens
            exact ⟨readingOf limit state a :: before, opening, since, by rw [hsplit]; rfl, hopens⟩
          by_cases hfull : limit ≤ found state a.read
          · rw [step_of_refused hfull] at hrest
            rcases ih hstate h.tail hrest with hleft | ⟨_, _, _, hsplit, hopens⟩
            · exact Or.inl hleft
            · exact Or.inr (hlonger hsplit hopens)
          by_cases hnone : found state a.read = 0
          · rw [step_of_none hlimit hnone] at hrest
            have hnew : ∀ counter ∈ some { value := 1, expires := a.write + window : Counter },
                1 ≤ counter.value ∧ counter.value ≤ limit := by
              intro counter hcounter
              obtain rfl := Option.mem_some.mp hcounter
              exact ⟨Nat.le_refl 1, hlimit⟩
            right
            rcases ih hnew h.tail hrest with
              ⟨counter, hcounter, hread⟩ | ⟨_, _, _, hsplit, hopens⟩
            · obtain rfl := Option.mem_some.mp hcounter
              have hused := countP_admitted_of_refused _ (Nat.le_refl 1) hlimit h.tail hrest
                hrefused hread
              have hadmitted : (readingOf limit state a).admitted = true := by
                simp only [readingOf, hnone, decide_eq_true_eq]
                omega
              refine ⟨[], readingOf limit state a, earlier, rfl, hnone, hadmitted, hread, ?_⟩
              rw [List.countP_cons, if_pos hadmitted]
              exact hused
            · exact hlonger hsplit hopens
          · cases hsome : state with
            | none =>
                rw [hsome] at hnone
                exact absurd rfl hnone
            | some counter =>
                have hvalue := hstate counter (by rw [hsome]; rfl)
                have hread : a.read < counter.expires := by
                  by_contra hgone
                  rw [hsome, found_of_expired (Nat.not_lt.mp hgone)] at hnone
                  exact hnone rfl
                have hroom : counter.value < limit := by
                  rw [hsome, found_some hread] at hfull
                  omega
                rw [hsome, step_of_admitted hvalue.1 hread hroom] at hrest
                have hnext : ∀ next ∈ some (if a.write < counter.expires then
                    { counter with value := counter.value + 1 } else counter),
                    1 ≤ next.value ∧ next.value ≤ limit := by
                  intro next hmem
                  obtain rfl := Option.mem_some.mp hmem
                  split
                  · exact ⟨Nat.le_add_left 1 _, hroom⟩
                  · exact hvalue
                rw [← hsome]
                rcases ih hnext h.tail hrest with
                  ⟨next, hmem, hlast⟩ | ⟨_, _, _, hsplit, hopens⟩
                · left
                  refine ⟨counter, hsome, ?_⟩
                  obtain rfl := Option.mem_some.mp hmem
                  split at hlast
                  · exact hlast
                  · exact hlast
                · exact Or.inr (hlonger hsplit hopens)

/-- Those that read a counter in its life, the one that set it included, are within the limit. -/
theorem countP_life_le (hlimit : 1 ≤ limit) (h : Ordered accesses) {earlier later : List Reading}
    {opening : Reading} (hrun : run limit window state accesses = earlier ++ opening :: later)
    (hopens : opening.count = 0) :
    (opening :: later).countP (Reading.before (opening.write + window)) ≤ limit := by
  induction accesses generalizing state earlier with
  | nil => simp [run] at hrun
  | cons a rest ih =>
      rw [run] at hrun
      cases earlier with
      | nil =>
          obtain ⟨rfl, rfl⟩ := List.cons.inj hrun
          have hrest := countP_before_le limit window
            { value := 1, expires := a.write + window } (Nat.le_refl 1) h.tail
          rw [step_of_none hlimit hopens, List.countP_cons]
          have hsame : (readingOf limit state a).write = a.write := rfl
          rw [hsame]
          dsimp only at hrest
          split <;> omega
      | cons q earlier =>
          obtain ⟨-, hrest⟩ := List.cons.inj hrun
          exact ih h.tail hrest

end Life

/-! ## Any interval of one window -/

section Interval

variable {start : ℕ} {counter : Counter}

/-- Before its start nothing lies in the interval. -/
theorem not_inside {r : Reading} (h : r.read < start) : Reading.inside window start r = false := by
  have hnot : ¬start ≤ r.read := by omega
  simp [Reading.inside, hnot]

theorem not_inside_of_refused {r : Reading} (h : r.admitted = false) :
    Reading.inside window start r = false := by
  simp [Reading.inside, h]

variable (limit window start) in
/-- The interval meets two lives at most, and one only if a life begins in it. -/
theorem countP_inside (hlimit : 1 ≤ limit) (h : Ordered accesses) :
    (∀ state, (∀ a ∈ accesses, found state a.read = 0) →
      (run limit window state accesses).countP (Reading.inside window start) ≤ 2 * limit ∧
      ((∀ a ∈ accesses, start ≤ a.read) →
        (run limit window state accesses).countP (Reading.inside window start) ≤ limit)) ∧
    ∀ counter : Counter, 1 ≤ counter.value → counter.value ≤ limit →
      (counter.expires ≤ start → (run limit window (some counter) accesses).countP
        (Reading.inside window start) ≤ 2 * limit) ∧
      (start ≤ counter.expires → (run limit window (some counter) accesses).countP
        (Reading.inside window start) + counter.value ≤ 2 * limit) := by
  induction accesses with
  | nil =>
      constructor
      · exact fun state _ => ⟨Nat.zero_le _, fun _ => Nat.zero_le _⟩
      · intro counter hpos hfits
        refine ⟨fun _ => Nat.zero_le _, fun _ => ?_⟩
        simp only [run, List.countP_nil]
        omega
  | cons a rest ih =>
      obtain ⟨hnone, hsome⟩ := ih h.tail
      have hwithin := h.within a List.mem_cons_self
      have hgone : ∀ state, (∀ b ∈ a :: rest, found state b.read = 0) →
          (run limit window state (a :: rest)).countP (Reading.inside window start) ≤ 2 * limit ∧
          ((∀ b ∈ a :: rest, start ≤ b.read) →
            (run limit window state (a :: rest)).countP (Reading.inside window start) ≤ limit) := by
        intro state hstate
        rw [run, step_of_none hlimit (hstate a List.mem_cons_self), List.countP_cons]
        obtain ⟨hover, hunder⟩ := hsome { value := 1, expires := a.write + window }
          (Nat.le_refl 1) hlimit
        dsimp only at hover hunder
        by_cases hstart : start ≤ a.read
        · -- the life that begins here outlasts the interval
          have hlife : (run limit window (some { value := 1, expires := a.write + window })
              rest).countP (Reading.inside window start) ≤ limit - 1 := by
            refine Nat.le_trans (List.countP_mono_left ?_) (countP_before_le limit
              window { value := 1, expires := a.write + window } (Nat.le_refl 1) h.tail)
            intro r _ hinside
            simp only [Reading.inside, Reading.before, Bool.and_eq_true, decide_eq_true_eq]
              at hinside ⊢
            refine ⟨hinside.1.1, ?_⟩
            have hread := hinside.2
            omega
          split <;> exact ⟨by omega, fun _ => by omega⟩
        · have hout : Reading.inside window start (readingOf limit state a) = false :=
            not_inside (Nat.not_le.mp hstart)
          rw [hout, if_neg Bool.false_ne_true]
          refine ⟨?_, fun hall => absurd (hall a List.mem_cons_self) hstart⟩
          by_cases hend : a.write + window ≤ start
          · exact hover hend
          · have hbound := hunder (by omega)
            omega
      refine ⟨hgone, ?_⟩
      intro counter hpos hfits
      by_cases hread : a.read < counter.expires
      · have hfound := found_some hread
        rw [run, List.countP_cons]
        by_cases hroom : counter.value < limit
        · rw [step_of_admitted hpos hread hroom]
          by_cases hwrite : a.write < counter.expires
          · rw [if_pos hwrite]
            obtain ⟨hover, hunder⟩ := hsome { counter with value := counter.value + 1 }
              (Nat.le_add_left 1 _) hroom
            dsimp only at hover hunder
            constructor
            · intro hend
              have hout : Reading.inside window start (readingOf limit (some counter) a) = false :=
                not_inside (Nat.lt_of_lt_of_le hread hend)
              rw [hout, if_neg Bool.false_ne_true]
              exact hover hend
            · intro hend
              have hbound := hunder hend
              split <;> omega
          · -- the increment comes too late: no counter is found from here on
            rw [if_neg hwrite]
            have hlate : ∀ b ∈ rest, counter.expires ≤ b.read := by
              intro b hb
              have hlater := h.later b hb
              omega
            obtain ⟨htwice, honce⟩ := hnone (some counter) fun b hb =>
              found_of_expired (hlate b hb)
            constructor
            · intro hend
              have hout : Reading.inside window start (readingOf limit (some counter) a) = false :=
                not_inside (Nat.lt_of_lt_of_le hread hend)
              rw [hout, if_neg Bool.false_ne_true]
              exact htwice
            · intro hend
              have hbound := honce fun b hb => Nat.le_trans hend (hlate b hb)
              split <;> omega
        · have hout : Reading.inside window start (readingOf limit (some counter) a) = false := by
            apply not_inside_of_refused
            simp [readingOf, hfound, hroom]
          rw [step_of_refused (by omega), hout, if_neg Bool.false_ne_true]
          exact hsome counter hpos hfits
      · have hlate : ∀ b ∈ a :: rest, counter.expires ≤ b.read := by
          intro b hb
          rcases List.mem_cons.mp hb with rfl | hb
          · exact Nat.not_lt.mp hread
          · have hlater := h.later b hb
            omega
        obtain ⟨htwice, honce⟩ := hgone (some counter) fun b hb => found_of_expired (hlate b hb)
        refine ⟨fun _ => htwice, fun hend => ?_⟩
        have hbound := honce fun b hb => Nat.le_trans hend (hlate b hb)
        omega

end Interval

end Support.FixedWindow
