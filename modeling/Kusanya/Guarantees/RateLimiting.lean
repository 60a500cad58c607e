import Kusanya.Model.RateLimit
import Kusanya.Support.FixedWindow

/-!
# How many requests the rate limiter lets pass

To the requests of one client the middleware is a fixed-window counter.
-/

namespace Kusanya.RateLimit

open Accounts Support

/-- The visit reads the counter under the key. -/
def Handled.reads (key : String) (h : Handled) : Bool := h.visit.key = key && h.count.isSome

/-- The visits that read the counter under the key. -/
def readings (key : String) (trace : List Handled) : List Handled := trace.filter (·.reads key)

def Handled.admitted (h : Handled) : Bool := h.answer = .passed

/-- The visit found no counter and set one. -/
def Handled.Opens (h : Handled) : Prop := h.count = some 0 ∧ h.answer = .passed

/-- Admitted, with a read before `time`. -/
def Handled.admittedBefore (time : Time) (h : Handled) : Bool :=
  h.admitted && h.visit.readAt < time

/-- Admitted, with a read in the interval of one window from `start` on. -/
def Handled.admittedIn (start window : Time) (h : Handled) : Bool :=
  h.admitted && start ≤ h.visit.readAt && h.visit.readAt < start + window

/-- The visits of one client are handled one at a time, and the cache does not fail them. -/
structure OneAtATime (key : String) (visits : List Visit) : Prop where
  within : ∀ v ∈ visits, v.key = key → v.readAt ≤ v.writeAt
  between : visits.Pairwise fun v w => v.key = key → w.key = key → v.writeAt ≤ w.readAt
  serves : ∀ v ∈ visits, v.key = key → v.readFails = false ∧ v.writeFails = false

/-- What the limiter does to the visits under a key. -/
structure Limited (m : Middleware) (key : String) (trace : List Handled) : Prop where
  /-- In no interval of one window more than twice the limit. -/
  interval : ∀ start, (readings key trace).countP (·.admittedIn start m.window) ≤ 2 * m.limit
  /-- In the life of one counter no more than the limit. -/
  life : ∀ earlier opening later, readings key trace = earlier ++ opening :: later →
    opening.Opens →
    (opening :: later).countP (·.admittedBefore (opening.visit.writeAt + m.window)) ≤ m.limit
  /-- A refusal comes after the limit was admitted in the life of the counter that it reads. -/
  refusal : ∀ earlier h later, readings key trace = earlier ++ h :: later →
    h.answer = .tooManyRequests →
    ∃ before opening since, earlier = before ++ opening :: since ∧ opening.Opens ∧
      h.visit.readAt < opening.visit.writeAt + m.window ∧
      (opening :: since).countP (·.admitted) = m.limit

/-- Visits to exempt paths pass without a look at the counter, and the others fare as if they had
not been there. -/
def Exempts (m : Middleware) (cache : Cache) (visits : List Visit) : Prop :=
  (∀ h ∈ m.run cache visits, m.exempts h.visit.request.path = true →
    h.count = none ∧ h.answer = .passed) ∧
  (m.run cache visits).filter (fun h => !m.exempts h.visit.request.path) =
    m.run cache (visits.filter fun v => !m.exempts v.request.path)

/-! ## The counter of one client -/

section Client

variable {m : Middleware} {key : String} {cache : Cache} {visit : Visit} {visits : List Visit}

/-- The counter under the key. -/
def counterAt (cache : Cache) (key : String) : Option FixedWindow.Counter :=
  (cache key).map fun entry => { value := entry.value, expires := entry.expires }

def Visit.access (visit : Visit) : FixedWindow.Access :=
  { read := visit.readAt, write := visit.writeAt }

@[simp] theorem access_read (visit : Visit) : visit.access.read = visit.readAt := rfl

@[simp] theorem access_write (visit : Visit) : visit.access.write = visit.writeAt := rfl

def Handled.reading (h : Handled) : FixedWindow.Reading :=
  { h.visit.access with
    count := h.count.getD 0
    admitted := h.admitted }

variable (m key) in
/-- The visit looks at the counter. -/
def looks (visit : Visit) : Bool := visit.key = key && !m.exempts visit.request.path

theorem get_eq_found (cache : Cache) (now : Time) (key : String) :
    cache.get now key = FixedWindow.found (counterAt cache key) now := by
  unfold Cache.get counterAt
  cases cache key with
  | none => rfl
  | some entry => rfl

theorem counterAt_update_of_ne {other : String} (h : other ≠ key) (entry : Option CacheEntry) :
    counterAt (Function.update cache other entry) key = counterAt cache key := by
  rw [counterAt, counterAt, Function.update_of_ne h.symm]

theorem counterAt_countVisit_of_ne (h : visit.key ≠ key) (count : ℕ) :
    counterAt (m.countVisit cache visit count) key = counterAt cache key := by
  unfold Middleware.countVisit
  by_cases hfails : visit.writeFails = true
  · rw [if_pos hfails]
  · rw [if_neg hfails]
    by_cases hzero : count = 0
    · rw [if_pos hzero]
      exact counterAt_update_of_ne h _
    · rw [if_neg hzero, incr]
      cases cache visit.key with
      | none => rfl
      | some entry =>
          dsimp only
          by_cases hlive : visit.writeAt < entry.expires
          · rw [if_pos hlive]
            exact counterAt_update_of_ne h _
          · rw [if_neg hlive]
            rfl

/-- A visit that does not look at the counter leaves it alone. -/
theorem call_of_not_looks (cache : Cache) (h : looks m key visit = false) :
    (m.call cache visit).1.reads key = false ∧
      counterAt (m.call cache visit).2 key = counterAt cache key := by
  unfold Middleware.call
  by_cases hexempt : m.limit = 0 ∨ m.exempts visit.request.path = true
  · rw [if_pos hexempt]
    simp [Handled.reads]
  · have hother : visit.key ≠ key := by
      intro hkey
      push Not at hexempt
      simp [looks, hkey, hexempt.2] at h
    rw [if_neg hexempt]
    by_cases hfails : visit.readFails = true
    · rw [if_pos hfails]
      simp [Handled.reads]
    · rw [if_neg hfails]
      dsimp only
      by_cases hfull : m.limit ≤ cache.get visit.readAt visit.key
      · rw [if_pos hfull]
        simp [Handled.reads, hother]
      · rw [if_neg hfull]
        exact ⟨by simp [Handled.reads, hother], counterAt_countVisit_of_ne hother _⟩

/-- The write of an admitted visit is the step of the counter. -/
theorem counterAt_countVisit (hkey : visit.key = key) (hserves : visit.writeFails = false)
    (hroom : cache.get visit.readAt key < m.limit) :
    counterAt (m.countVisit cache visit (cache.get visit.readAt key)) key =
      FixedWindow.step m.limit m.window (counterAt cache key) visit.access := by
  have hfound := get_eq_found cache visit.readAt key
  have hnot : ¬m.limit ≤ FixedWindow.found (counterAt cache key) visit.readAt := by
    rw [← hfound]
    omega
  rw [Middleware.countVisit, hserves, if_neg Bool.false_ne_true, FixedWindow.step, access_read,
    access_write, if_neg hnot, hkey, hfound]
  by_cases hzero : FixedWindow.found (counterAt cache key) visit.readAt = 0
  · rw [if_pos hzero, if_pos hzero, counterAt, Cache.set, Function.update_self]
    rfl
  · rw [if_neg hzero, if_neg hzero, incr]
    cases hentry : cache key with
    | none =>
        have hcounter : counterAt cache key = none := by
          rw [counterAt, hentry]
          rfl
        rw [hcounter]
        exact hcounter
    | some entry =>
        have hcounter : counterAt cache key =
            some { value := entry.value, expires := entry.expires } := by
          rw [counterAt, hentry]
          rfl
        rw [hcounter]
        dsimp only [Option.map_some]
        by_cases hlive : visit.writeAt < entry.expires
        · rw [if_pos hlive, if_pos hlive]
          dsimp only [Option.getD_some]
          rw [counterAt, Function.update_self]
          rfl
        · rw [if_neg hlive, if_neg hlive]
          exact hcounter

/-- A visit that looks at the counter is an access of it. -/
theorem call_of_looks (cache : Cache) (hlimit : 1 ≤ m.limit) (h : looks m key visit = true)
    (hserves : visit.readFails = false ∧ visit.writeFails = false) :
    (m.call cache visit).1.reads key = true ∧
      (m.call cache visit).1.reading =
        FixedWindow.readingOf m.limit (counterAt cache key) visit.access ∧
      counterAt (m.call cache visit).2 key =
        FixedWindow.step m.limit m.window (counterAt cache key) visit.access := by
  rw [looks, Bool.and_eq_true, decide_eq_true_eq, Bool.not_eq_true'] at h
  obtain ⟨hkey, hpath⟩ := h
  have hexempt : ¬(m.limit = 0 ∨ m.exempts visit.request.path = true) := by
    rintro (hzero | hexempt)
    · omega
    · rw [hpath] at hexempt
      exact Bool.false_ne_true hexempt
  have hfound := get_eq_found cache visit.readAt key
  have hreading : ∀ answer, ((answer = .passed) ↔ cache.get visit.readAt key < m.limit) →
      Handled.reading { visit, count := some (cache.get visit.readAt key), answer } =
        FixedWindow.readingOf m.limit (counterAt cache key) visit.access := by
    intro answer hanswer
    have hadmitted : decide (answer = .passed) = decide (cache.get visit.readAt key < m.limit) :=
      decide_eq_decide.mpr hanswer
    rw [Handled.reading, FixedWindow.readingOf, Handled.admitted, Option.getD_some, hadmitted,
      access_read, hfound]
  rw [Middleware.call, if_neg hexempt, hserves.1, if_neg Bool.false_ne_true, hkey]
  dsimp only
  by_cases hfull : m.limit ≤ cache.get visit.readAt key
  · rw [if_pos hfull]
    refine ⟨by simp [Handled.reads, hkey], hreading _ ?_, ?_⟩
    · constructor
      · intro hanswer
        cases hanswer
      · intro hroom
        omega
    · rw [FixedWindow.step_of_refused]
      rw [access_read, ← hfound]
      exact hfull
  · rw [if_neg hfull]
    refine ⟨by simp [Handled.reads, hkey], hreading _ ?_, ?_⟩
    · exact ⟨fun _ => Nat.not_le.mp hfull, fun _ => rfl⟩
    · exact counterAt_countVisit hkey hserves.2 (Nat.not_le.mp hfull)

/-- The visits that look at the counter read it as a fixed-window counter. -/
theorem readings_run (m : Middleware) (cache : Cache) (hlimit : 1 ≤ m.limit)
    (hserves : ∀ v ∈ visits, v.key = key → v.readFails = false ∧ v.writeFails = false) :
    (readings key (m.run cache visits)).map Handled.reading =
      FixedWindow.run m.limit m.window (counterAt cache key)
        ((visits.filter (looks m key)).map Visit.access) := by
  induction visits generalizing cache with
  | nil => rfl
  | cons v rest ih =>
      have hrest := fun cache => ih cache fun w hw => hserves w (List.mem_cons_of_mem _ hw)
      rw [Middleware.run, readings, List.filter_cons]
      by_cases hlooks : looks m key v = true
      · have hkey : v.key = key := by
          rw [looks, Bool.and_eq_true, decide_eq_true_eq] at hlooks
          exact hlooks.1
        obtain ⟨hreads, hreading, hstep⟩ :=
          call_of_looks cache hlimit hlooks (hserves v List.mem_cons_self hkey)
        rw [List.filter_cons_of_pos hlooks, if_pos hreads, List.map_cons, List.map_cons,
          FixedWindow.run, hreading, ← hstep]
        exact congrArg _ (hrest _)
      · rw [Bool.not_eq_true] at hlooks
        obtain ⟨hreads, hstep⟩ := call_of_not_looks cache hlooks
        rw [hreads, if_neg Bool.false_ne_true, List.filter_cons_of_neg (by simp [hlooks]), ← hstep]
        exact hrest _

theorem OneAtATime.ordered (h : OneAtATime key visits) :
    FixedWindow.Ordered ((visits.filter (looks m key)).map Visit.access) where
  within a ha := by
    obtain ⟨v, hv, rfl⟩ := List.mem_map.mp ha
    obtain ⟨hv, hlooks⟩ := List.mem_filter.mp hv
    rw [looks, Bool.and_eq_true, decide_eq_true_eq] at hlooks
    exact h.within v hv hlooks.1
  between := by
    rw [List.pairwise_map]
    have hfiltered := h.between.filter (looks m key)
    refine hfiltered.imp_of_mem ?_
    intro v w hv hw hbetween
    have hkey : ∀ u ∈ visits.filter (looks m key), u.key = key := by
      intro u hu
      have hlooks := (List.mem_filter.mp hu).2
      rw [looks, Bool.and_eq_true, decide_eq_true_eq] at hlooks
      exact hlooks.1
    exact hbetween (hkey v hv) (hkey w hw)

end Client

/-! ## The limits -/

theorem countP_reading (trace : List Handled) (p : FixedWindow.Reading → Bool) :
    (trace.map Handled.reading).countP p = trace.countP fun h => p h.reading := by
  rw [List.countP_map]
  rfl

/-- A visit that reads the counter and finds none reads zero. -/
theorem count_of_mem_readings {key : String} {trace : List Handled} {h : Handled}
    (hmem : h ∈ readings key trace) (hzero : h.reading.count = 0) : h.count = some 0 := by
  have hreads := (List.mem_filter.mp hmem).2
  rw [Handled.reads, Bool.and_eq_true] at hreads
  obtain ⟨count, hcount⟩ := Option.isSome_iff_exists.mp hreads.2
  have hvalue : h.count.getD 0 = 0 := hzero
  rw [hcount, Option.getD_some] at hvalue
  rw [hcount, hvalue]

theorem limited (m : Middleware) (hlimit : 1 ≤ m.limit) (key : String) (cache : Cache)
    (hfresh : cache key = none) (visits : List Visit) (h : OneAtATime key visits) :
    Limited m key (m.run cache visits) := by
  have hrun := readings_run m cache hlimit h.serves
  have hordered : FixedWindow.Ordered ((visits.filter (looks m key)).map Visit.access) := h.ordered
  have hnone : counterAt cache key = none := by rw [counterAt, hfresh]; rfl
  rw [hnone] at hrun
  constructor
  · intro start
    have hbound := ((FixedWindow.countP_inside m.limit m.window start hlimit
      hordered).1 none fun _ _ => rfl).1
    rw [← hrun, countP_reading] at hbound
    exact hbound
  · intro earlier opening later hsplit hopens
    rw [hsplit, List.map_append, List.map_cons] at hrun
    have hzero : opening.reading.count = 0 := by
      have hcount := hopens.1
      rw [Handled.reading, hcount]
      rfl
    have hbound := FixedWindow.countP_life_le hlimit hordered hrun.symm hzero
    rw [← List.map_cons, countP_reading] at hbound
    exact hbound
  · intro earlier r later hsplit hanswer
    have hreads := hrun
    rw [hsplit, List.map_append, List.map_cons] at hreads
    have hrefused : r.reading.admitted = false := by
      rw [Handled.reading, Handled.admitted, hanswer]
      rfl
    rcases FixedWindow.exists_opening_of_refused hlimit
      (fun _ hmem => absurd hmem (Option.not_mem_none _)) hordered
        hreads.symm hrefused with
      ⟨_, hmem, -⟩ | ⟨before, opening, since, heq, hzero, hadmitted, hlife, hused⟩
    · cases hmem
    · obtain ⟨before', rest, rfl, -, hmap⟩ := List.map_eq_append_iff.mp heq
      obtain ⟨opening', since', rfl, rfl, rfl⟩ := List.map_eq_cons_iff.mp hmap
      refine ⟨before', opening', since', rfl, ⟨?_, ?_⟩, hlife, ?_⟩
      · have hmem : opening' ∈ readings key (m.run cache visits) := by
          rw [hsplit]
          simp
        exact count_of_mem_readings hmem hzero
      · exact of_decide_eq_true hadmitted
      · rw [← List.map_cons, countP_reading] at hused
        exact hused

theorem exempts_run (m : Middleware) (cache : Cache) (visits : List Visit) :
    Exempts m cache visits := by
  induction visits generalizing cache with
  | nil => exact ⟨fun _ h => absurd h List.not_mem_nil, rfl⟩
  | cons v rest ih =>
      have hvisit : (m.call cache v).1.visit = v := by
        unfold Middleware.call
        dsimp only
        split
        · rfl
        · split
          · rfl
          · split
            · rfl
            · rfl
      by_cases hexempt : m.exempts v.request.path = true
      · have hcall :
            m.call cache v = ({ visit := v, count := none, answer := .passed }, cache) := by
          rw [Middleware.call, if_pos (Or.inr hexempt)]
        obtain ⟨hpass, hothers⟩ := ih cache
        constructor
        · intro h hh hpath
          rw [Middleware.run, hcall] at hh
          rcases List.mem_cons.mp hh with rfl | hh
          · exact ⟨rfl, rfl⟩
          · exact hpass h hh hpath
        · rw [Middleware.run, hcall, List.filter_cons_of_neg (by simp [hexempt]),
            List.filter_cons_of_neg (by simp [hexempt])]
          exact hothers
      · obtain ⟨hpass, hothers⟩ := ih (m.call cache v).2
        constructor
        · intro h hh hpath
          rw [Middleware.run] at hh
          rcases List.mem_cons.mp hh with rfl | hh
          · rw [hvisit] at hpath
            exact absurd hpath hexempt
          · exact hpass h hh hpath
        · rw [Middleware.run, List.filter_cons_of_pos (by rw [hvisit]; simpa using hexempt),
            List.filter_cons_of_pos (by simpa using hexempt), Middleware.run, hothers]

/-- The visits of one client under a limit, from a cache without a counter for it. -/
theorem rate_limited (m : Middleware) (hlimit : 1 ≤ m.limit) (key : String) (cache : Cache)
    (hfresh : cache key = none) (visits : List Visit) (h : OneAtATime key visits) :
    Limited m key (m.run cache visits) ∧ Exempts m cache visits :=
  ⟨limited m hlimit key cache hfresh visits h, exempts_run m cache visits⟩

/-- Two requests in a minute. -/
def twoPerMinute : Middleware :=
  { limit := 2
    windowSeconds := 60
    exemptPrefixes := ["/healthz".toList] }

/-- A request of user 1 at a number of seconds. -/
def visitAt (path : String) (seconds : ℕ) : Visit :=
  { request := { path := path.toList, user := some 1, forwardedFor := none, remoteAddr := none }
    readAt := seconds * 10 ^ 6
    writeAt := seconds * 10 ^ 6
    readFails := false
    writeFails := false }

def fourVisits : List Visit :=
  [visitAt "/bills" 0, visitAt "/healthz" 1, visitAt "/bills" 2, visitAt "/bills" 3,
   visitAt "/bills" 60]

theorem rate_limited_visits :
    Limited twoPerMinute "request_rate_limit:user:1" (twoPerMinute.run (fun _ => none) fourVisits) ∧
      Exempts twoPerMinute (fun _ => none) fourVisits ∧
      (twoPerMinute.run (fun _ => none) fourVisits).map (·.answer) =
        [.passed, .passed, .passed, .tooManyRequests, .passed] := by
  obtain ⟨hlimited, hexempts⟩ := rate_limited twoPerMinute (by decide) "request_rate_limit:user:1"
    (fun _ => none) rfl fourVisits (by
      constructor
      · decide
      · decide
      · decide)
  exact ⟨hlimited, hexempts, by decide⟩

end Kusanya.RateLimit
