import Kusanya.Model.Throttle
import Mathlib.Data.List.Basic

/-!
# The lockout counter under concurrency

The counter is read and written in separate steps, after a lock check in a step of its own.
What it says is at least the number of recorded failures as long as no increment is lost; the
POSTs in flight may add one failure each.
-/

namespace Kusanya.Accounts

/-! ## The cache -/

section Cache

variable {cache : Cache} {now later : Time} {key other : String}

theorem Cache.get_anti (h : now ≤ later) : cache.get later key ≤ cache.get now key := by
  unfold Cache.get
  cases cache key with
  | none => exact le_rfl
  | some entry =>
      by_cases hlater : later < entry.expires
      · have hnow : now < entry.expires := lt_of_le_of_lt h hlater
        simp [hlater, hnow]
      · simp [hlater]

theorem Cache.get_set (value timeout : ℕ) (time : Time) :
    (cache.set now key value timeout).get time key =
      if time < now + timeout then value else 0 := by
  simp [Cache.get, Cache.set]

theorem Cache.get_update_of_ne (h : other ≠ key) (entry : Option CacheEntry) (time : Time) :
    Cache.get (Function.update cache other entry) time key = cache.get time key := by
  simp [Cache.get, Function.update_of_ne h.symm]

end Cache

/-! ## Phases -/

namespace Phase

def isAdmitted : Phase → Bool
  | admitted => true
  | _ => false

def isRefused : Phase → Bool
  | refused => true
  | _ => false

def isCounted : Phase → Bool
  | counted _ => true
  | _ => false

def isVerified : Phase → Bool
  | verified => true
  | _ => false

/-- Past the lock check, with the counter not written or reset yet. -/
def isInFlight : Phase → Bool
  | admitted | refused | counted _ | verified => true
  | _ => false

end Phase

namespace Lockout

variable {scope : Scope} {identifier : String} {s t : Lockout} {i : ℕ} {old new : Phase}

def admitted (s : Lockout) : ℕ := s.posts.countP Phase.isAdmitted

def refused (s : Lockout) : ℕ := s.posts.countP Phase.isRefused

def counted (s : Lockout) : ℕ := s.posts.countP Phase.isCounted

def inFlight (s : Lockout) : ℕ := s.posts.countP Phase.isInFlight

theorem le_inFlight (s : Lockout) : s.admitted + s.refused + s.counted ≤ s.inFlight := by
  obtain ⟨now, cache, posts, checks⟩ := s
  simp only [admitted, refused, counted, inFlight]
  induction posts with
  | nil => exact le_rfl
  | cons phase posts ih =>
      simp only [List.countP_cons]
      cases phase <;> simp [Phase.isAdmitted, Phase.isRefused, Phase.isCounted,
        Phase.isInFlight] <;> omega

/-- One POST goes on: what is counted changes by that POST. -/
theorem countP_advance (hold : s.posts[i]? = some old) (new : Phase) (p : Phase → Bool) :
    (s.advance i new).posts.countP p + (p old).toNat = s.posts.countP p + (p new).toNat := by
  obtain ⟨hi, hget⟩ := List.getElem?_eq_some_iff.mp hold
  have hset := List.countP_set (p := p) (a := new) hi
  rw [hget] at hset
  have hpos : p old = true → 0 < s.posts.countP p := fun hp =>
    List.countP_pos_iff.mpr ⟨old, List.mem_of_getElem? hold, hp⟩
  simp only [advance, hset]
  cases hp : p old with
  | true =>
      have hone := hpos hp
      cases p new <;> simp <;> omega
  | false => cases p new <;> simp

theorem mem_advance {phase : Phase} (h : phase ∈ (s.advance i new).posts) :
    phase ∈ s.posts ∨ phase = new :=
  List.mem_or_eq_of_mem_set h

/-! ## Failures -/

/-- How many failing checks count at `time`. -/
def failures (s : Lockout) (time : Time) : ℕ := (s.failuresWithin time).length

@[simp]
theorem failures_advance (time : Time) : (s.advance i new).failures time = s.failures time := rfl

theorem failures_checked_true (time : Time) : (s.checked true).failures time = 0 := rfl

theorem failures_checked_false (time : Time) :
    (s.checked false).failures time ≤ s.failures time + 1 := by
  simp only [failures, failuresWithin, checked, Bool.not_false, List.takeWhile_cons_of_pos,
    List.filter_cons]
  split <;> simp

/-- Nothing counts any more when the last check is over by `LOCKOUT_SECONDS`. -/
theorem failures_eq_zero {time : Time} (h : ∀ check ∈ s.checks, check.time + lockout ≤ time) :
    s.failures time = 0 := by
  rw [failures, failuresWithin, List.length_eq_zero_iff, List.filter_eq_nil_iff]
  intro check hcheck
  have hmem : check ∈ s.checks := List.takeWhile_subset _ hcheck
  have hover := h check hmem
  simpa using hover

/-! ## The invariant -/

/-- The counter, and the count that a POST has read, account for the failures but for those
that are still to be recorded; the failures and the POSTs that may still fail stay within
`MAX_ATTEMPTS`. -/
structure Tallied (scope : Scope) (identifier : String) (s : Lockout) : Prop where
  times : ∀ check ∈ s.checks, check.time ≤ s.now
  counter : ∀ time ≥ s.now,
    s.failures time ≤ s.cache.get time (throttleKey scope identifier) + s.refused + s.counted
  reading : ∀ count, .counted count ∈ s.posts → ∀ time ≥ s.now,
    s.failures time + 1 ≤ count + s.refused + s.counted
  resetting : .verified ∈ s.posts → ∀ time ≥ s.now, s.failures time ≤ s.refused
  single : s.counted ≤ 1
  bound : ∀ time ≥ s.now, s.failures time + s.admitted ≤ maxAttempts

/-- The step keeps lock checks, increments and resets apart: a lock check lets a POST pass only
while the counter and the POSTs in flight leave room for its failure; the counter is read only
while no other POST is about to write or to reset it; and a locked-out login does not check
wrong credentials. -/
def Orderly (scope : Scope) (identifier : String) (s : Lockout) : LockoutStep → Prop
  | .lockCheck i => s.posts[i]? = some .posted →
      isLockedOut s.cache s.now scope identifier = false →
        s.cache.get s.now (throttleKey scope identifier) + s.inFlight < maxAttempts
  | .credentialCheck i verdict => s.posts[i]? = some .locked → verdict ≠ .wrong
  | .readCounter i => s.posts[i]? = some .refused →
      ∀ phase ∈ s.posts, phase.isCounted = false ∧ phase.isVerified = false
  | _ => True

instance (scope : Scope) (identifier : String) (s : Lockout) (a : LockoutStep) :
    Decidable (Orderly scope identifier s a) := by
  cases a <;> unfold Orderly <;> infer_instance

theorem tallied_start (now : Time) (cache : Cache) :
    Tallied scope identifier (Lockout.start now cache) where
  times _ h := absurd h List.not_mem_nil
  counter _ _ := Nat.zero_le _
  reading _ h := absurd h List.not_mem_nil
  resetting h := absurd h List.not_mem_nil
  single := Nat.zero_le _
  bound _ _ := Nat.zero_le _

/-! ## Steps -/

/-- The counts after one POST went on. -/
theorem tally_advance (hold : s.posts[i]? = some old) (new : Phase) :
    (s.advance i new).admitted + old.isAdmitted.toNat = s.admitted + new.isAdmitted.toNat ∧
    (s.advance i new).refused + old.isRefused.toNat = s.refused + new.isRefused.toNat ∧
    (s.advance i new).counted + old.isCounted.toNat = s.counted + new.isCounted.toNat :=
  ⟨countP_advance hold new _, countP_advance hold new _, countP_advance hold new _⟩

/-- Later, with the same checks and the same POSTs about to count or to reset. -/
theorem Tallied.same (h : Tallied scope identifier s) (hnow : s.now ≤ t.now)
    (hchecks : t.checks = s.checks)
    (hcache : ∀ time, t.cache.get time (throttleKey scope identifier) =
      s.cache.get time (throttleKey scope identifier))
    (hadmitted : t.admitted ≤ s.admitted) (hrefused : t.refused = s.refused)
    (hcounted : t.counted = s.counted)
    (hmem : ∀ phase ∈ t.posts, phase.isCounted = true ∨ phase.isVerified = true →
      phase ∈ s.posts) : Tallied scope identifier t := by
  have hfailures : ∀ time, t.failures time = s.failures time := by
    intro time
    rw [failures, failures, failuresWithin, failuresWithin, hchecks]
  constructor
  · intro check hcheck
    rw [hchecks] at hcheck
    exact le_trans (h.times check hcheck) hnow
  · intro time htime
    rw [hfailures, hrefused, hcounted, hcache]
    exact h.counter time (le_trans hnow htime)
  · intro count hcount time htime
    rw [hfailures, hrefused, hcounted]
    exact h.reading count (hmem _ hcount (Or.inl rfl)) time (le_trans hnow htime)
  · intro hverified time htime
    rw [hfailures, hrefused]
    exact h.resetting (hmem _ hverified (Or.inr rfl)) time (le_trans hnow htime)
  · rw [hcounted]
    exact h.single
  · intro time htime
    have hbound := h.bound time (le_trans hnow htime)
    rw [hfailures]
    omega

/-- A POST goes on without a check, a count or a reset to its name. -/
theorem Tallied.pass (h : Tallied scope identifier s) (hold : s.posts[i]? = some old)
    (hrefused : old.isRefused = false) (hcounted : old.isCounted = false)
    (hnew : new = .locked ∨ new = .done) : Tallied scope identifier (s.advance i new) := by
  obtain ⟨hadmitted, hrefused', hcounted'⟩ := tally_advance hold new
  have hnone : new.isAdmitted = false ∧ new.isRefused = false ∧ new.isCounted = false ∧
      new.isVerified = false := by
    rcases hnew with rfl | rfl <;> exact ⟨rfl, rfl, rfl, rfl⟩
  obtain ⟨hnone₁, hnone₂, hnone₃, hnone₄⟩ := hnone
  rw [hnone₁] at hadmitted
  rw [hrefused, hnone₂] at hrefused'
  rw [hcounted, hnone₃] at hcounted'
  apply h.same (t := s.advance i new) le_rfl rfl fun _ => rfl
  · exact Nat.le.intro hadmitted
  · exact hrefused'
  · exact hcounted'
  · intro phase hphase hof
    apply (mem_advance hphase).resolve_right
    rintro rfl
    rw [hnone₃, hnone₄] at hof
    rcases hof with hof | hof <;> cases hof

theorem Tallied.tick (h : Tallied scope identifier s) (duration : ℕ) :
    Tallied scope identifier { s with now := s.now + duration } :=
  h.same (Nat.le_add_right _ _) rfl (fun _ => rfl) le_rfl rfl rfl fun _ hphase _ => hphase

theorem Tallied.elsewhere (h : Tallied scope identifier s) {key : String}
    (hkey : key ≠ throttleKey scope identifier) (entry : Option CacheEntry) :
    Tallied scope identifier { s with cache := Function.update s.cache key entry } :=
  h.same le_rfl rfl (Cache.get_update_of_ne hkey entry) le_rfl rfl rfl fun _ hphase _ => hphase

theorem Tallied.post (h : Tallied scope identifier s) :
    Tallied scope identifier { s with posts := s.posts ++ [.posted] } := by
  have hcount : ∀ p : Phase → Bool, p .posted = false →
      (s.posts ++ [Phase.posted]).countP p = s.posts.countP p := by
    intro p hp
    rw [List.countP_append, List.countP_singleton, hp]
    rfl
  apply h.same (t := { s with posts := s.posts ++ [.posted] }) le_rfl rfl fun _ => rfl
  · exact le_of_eq (hcount Phase.isAdmitted rfl)
  · exact hcount Phase.isRefused rfl
  · exact hcount Phase.isCounted rfl
  · intro phase hphase hof
    apply (List.mem_append.mp hphase).resolve_right
    intro hlast
    obtain rfl := List.mem_singleton.mp hlast
    rcases hof with hof | hof <;> cases hof

/-- A lock check that leaves room for the failure of the POST. -/
theorem Tallied.admit (h : Tallied scope identifier s) (hold : s.posts[i]? = some .posted)
    (hroom : s.cache.get s.now (throttleKey scope identifier) + s.inFlight < maxAttempts) :
    Tallied scope identifier (s.advance i .admitted) := by
  obtain ⟨hadmitted, hrefused, hcounted⟩ := tally_advance hold .admitted
  simp only [Phase.isAdmitted, Phase.isRefused, Phase.isCounted, Bool.toNat_false, Bool.toNat_true,
    Nat.add_zero] at hadmitted hrefused hcounted
  constructor
  · exact h.times
  · intro time htime
    rw [failures_advance, hrefused, hcounted]
    exact h.counter time htime
  · intro count hcount time htime
    rw [failures_advance, hrefused, hcounted]
    exact h.reading count ((mem_advance hcount).resolve_right Phase.noConfusion) time htime
  · intro hverified time htime
    rw [failures_advance, hrefused]
    exact h.resetting ((mem_advance hverified).resolve_right Phase.noConfusion) time htime
  · rw [hcounted]
    exact h.single
  · intro time htime
    have hcounter := h.counter time htime
    have hanti : s.cache.get time (throttleKey scope identifier) ≤
      s.cache.get s.now (throttleKey scope identifier) := Cache.get_anti htime
    have hinFlight := s.le_inFlight
    rw [failures_advance]
    omega

/-- A check that succeeds ends the row of failures. -/
theorem Tallied.right (h : Tallied scope identifier s) :
    Tallied scope identifier (s.checked true) where
  times := by
    intro check hcheck
    rcases List.mem_cons.mp hcheck with rfl | hcheck
    · exact le_rfl
    · exact h.times check hcheck
  counter time _ := by
    rw [failures_checked_true]
    exact Nat.zero_le _
  reading count hcount time htime := by
    have hreading := h.reading count hcount time htime
    have hnone := failures_checked_true (s := s) time
    rw [hnone]
    exact le_trans (Nat.add_le_add_right (Nat.zero_le _) 1) hreading
  resetting _ time _ := by
    rw [failures_checked_true]
    exact Nat.zero_le _
  single := h.single
  bound time htime := by
    have hbound := h.bound time htime
    have hnone := failures_checked_true (s := s) time
    rw [hnone]
    exact le_trans (Nat.add_le_add_right (Nat.zero_le _) _) hbound

theorem Tallied.verify (h : Tallied scope identifier s) (hold : s.posts[i]? = some .admitted) :
    Tallied scope identifier ((s.checked true).advance i .verified) := by
  have hchecked := h.right
  obtain ⟨hadmitted, hrefused, hcounted⟩ := tally_advance (s := s.checked true) hold .verified
  simp only [Phase.isAdmitted, Phase.isRefused, Phase.isCounted, Bool.toNat_false, Bool.toNat_true,
    Nat.add_zero] at hadmitted hrefused hcounted
  constructor
  · exact hchecked.times
  · intro time htime
    rw [failures_advance, hrefused, hcounted]
    exact hchecked.counter time htime
  · intro count hcount time htime
    rw [failures_advance, hrefused, hcounted]
    exact hchecked.reading count ((mem_advance hcount).resolve_right Phase.noConfusion) time htime
  · intro _ time _
    rw [failures_advance, failures_checked_true]
    exact Nat.zero_le _
  · rw [hcounted]
    exact hchecked.single
  · intro time htime
    have hbound := hchecked.bound time htime
    rw [failures_advance]
    omega

/-- A POST whose credentials are refused, checked or not. -/
theorem Tallied.refuse (h : Tallied scope identifier s) (hold : s.posts[i]? = some .admitted)
    {r : Lockout} (hposts : r.posts = s.posts) (hcache : r.cache = s.cache) (hnow : r.now = s.now)
    (htimes : ∀ check ∈ r.checks, check.time ≤ r.now)
    (hfailures : ∀ time, r.failures time ≤ s.failures time + 1) :
    Tallied scope identifier (r.advance i .refused) := by
  rw [← hposts] at hold
  obtain ⟨hadmitted, hrefused, hcounted⟩ := tally_advance hold .refused
  simp only [Phase.isAdmitted, Phase.isRefused, Phase.isCounted, Bool.toNat_false, Bool.toNat_true,
    Nat.add_zero] at hadmitted hrefused hcounted
  have hsame : r.admitted = s.admitted ∧ r.refused = s.refused ∧ r.counted = s.counted := by
    simp only [Lockout.admitted, Lockout.refused, Lockout.counted, hposts, and_self]
  obtain ⟨hr₁, hr₂, hr₃⟩ := hsame
  constructor
  · exact htimes
  · intro time htime
    have hcounter := h.counter time (hnow ▸ htime)
    have hmore := hfailures time
    have hget : (r.advance i .refused).cache = s.cache := hcache
    rw [failures_advance, hget]
    omega
  · intro count hcount time htime
    have hmem := (mem_advance hcount).resolve_right Phase.noConfusion
    have hreading := h.reading count (hposts ▸ hmem) time (hnow ▸ htime)
    have hmore := hfailures time
    rw [failures_advance]
    omega
  · intro hverified time htime
    have hmem := (mem_advance hverified).resolve_right Phase.noConfusion
    have hresetting := h.resetting (hposts ▸ hmem) time (hnow ▸ htime)
    have hmore := hfailures time
    rw [failures_advance]
    omega
  · have hsingle := h.single
    omega
  · intro time htime
    have hbound := h.bound time (hnow ▸ htime)
    have hmore := hfailures time
    rw [failures_advance]
    omega

theorem Tallied.read (h : Tallied scope identifier s) (hold : s.posts[i]? = some .refused)
    (halone : ∀ phase ∈ s.posts, phase.isCounted = false ∧ phase.isVerified = false) :
    Tallied scope identifier
      (s.advance i (.counted (nextCount s.cache s.now scope identifier))) := by
  obtain ⟨hadmitted, hrefused, hcounted⟩ :=
    tally_advance hold (.counted (nextCount s.cache s.now scope identifier))
  simp only [Phase.isAdmitted, Phase.isRefused, Phase.isCounted, Bool.toNat_false, Bool.toNat_true,
    Nat.add_zero] at hadmitted hrefused hcounted
  have hnone : s.counted = 0 := List.countP_eq_zero.mpr fun phase hphase => by
    rw [(halone phase hphase).1]
    exact Bool.false_ne_true
  constructor
  · exact h.times
  · intro time htime
    have hcounter := h.counter time htime
    change s.failures time ≤ s.cache.get time (throttleKey scope identifier) + _ + _
    omega
  · intro count hcount time htime
    have hcount' : count = nextCount s.cache s.now scope identifier := by
      rcases mem_advance hcount with hmem | heq
      · have hfalse := (halone _ hmem).1
        simp [Phase.isCounted] at hfalse
      · exact Phase.counted.inj heq
    have hcounter := h.counter time htime
    have hanti : s.cache.get time (throttleKey scope identifier) ≤
      s.cache.get s.now (throttleKey scope identifier) := Cache.get_anti htime
    have hnext : nextCount s.cache s.now scope identifier =
      s.cache.get s.now (throttleKey scope identifier) + 1 := rfl
    rw [failures_advance, hcount']
    omega
  · intro hverified time htime
    have hmem := (mem_advance hverified).resolve_right Phase.noConfusion
    have hfalse := (halone _ hmem).2
    cases hfalse
  · omega
  · intro time htime
    have hbound := h.bound time htime
    rw [failures_advance]
    omega

/-- The write of the only POST that has read the counter. -/
theorem Tallied.write (h : Tallied scope identifier s) {count : ℕ}
    (hold : s.posts[i]? = some (.counted count)) :
    Tallied scope identifier
      ({ s with cache := writeCount s.cache s.now scope identifier count }.advance i .done) := by
  obtain ⟨hadmitted, hrefused, hcounted⟩ :=
    tally_advance
      (s := { s with cache := writeCount s.cache s.now scope identifier count }) hold .done
  simp only [Phase.isAdmitted, Phase.isRefused, Phase.isCounted, Bool.toNat_false, Bool.toNat_true,
    Nat.add_zero] at hadmitted hrefused hcounted
  have hsingle := h.single
  have hnone : ({ s with cache := writeCount s.cache s.now scope identifier count }.advance i
      .done).counted = 0 := by
    change _ = s.counted at hcounted
    omega
  constructor
  · exact h.times
  · intro time htime
    have hget : (writeCount s.cache s.now scope identifier count).get time
        (throttleKey scope identifier) = if time < s.now + lockout then count else 0 :=
      Cache.get_set count lockout time
    change s.failures time ≤ (writeCount s.cache s.now scope identifier count).get time
      (throttleKey scope identifier) + _ + _
    rw [hget, hnone, hrefused]
    by_cases hlive : time < s.now + lockout
    · have hreading := h.reading count (List.mem_of_getElem? hold) time htime
      rw [if_pos hlive]
      change _ ≤ count + s.refused + 0
      omega
    · have hover : s.failures time = 0 := by
        apply failures_eq_zero
        intro check hcheck
        exact le_trans (Nat.add_le_add_right (h.times check hcheck) _) (not_lt.mp hlive)
      rw [hover]
      exact Nat.zero_le _
  · intro other hother
    have hmem : Phase.counted other ∈ s.posts :=
      (mem_advance hother).resolve_right Phase.noConfusion
    have hpos := List.countP_pos_iff (p := Phase.isCounted).mpr ⟨_, hother, rfl⟩
    rw [counted] at hnone
    omega
  · intro hverified time htime
    have hmem := (mem_advance hverified).resolve_right Phase.noConfusion
    rw [hrefused]
    exact h.resetting hmem time htime
  · omega
  · intro time htime
    have hbound := h.bound time htime
    rw [hadmitted]
    exact hbound

theorem Tallied.resetCounter (h : Tallied scope identifier s)
    (hold : s.posts[i]? = some .verified) :
    Tallied scope identifier
      ({ s with cache := reset s.cache scope identifier }.advance i .done) := by
  obtain ⟨hadmitted, hrefused, hcounted⟩ :=
    tally_advance (s := { s with cache := reset s.cache scope identifier }) hold .done
  simp only [Phase.isAdmitted, Phase.isRefused, Phase.isCounted, Bool.toNat_false,
    Nat.add_zero] at hadmitted hrefused hcounted
  constructor
  · exact h.times
  · intro time htime
    have hresetting := h.resetting (List.mem_of_getElem? hold) time htime
    rw [hrefused]
    exact le_trans hresetting (le_trans (Nat.le_add_left _ _) (Nat.le_add_right _ _))
  · intro count hcount time htime
    have hmem := (mem_advance hcount).resolve_right Phase.noConfusion
    rw [hrefused, hcounted]
    exact h.reading count hmem time htime
  · intro hverified time htime
    rw [hrefused]
    exact h.resetting (List.mem_of_getElem? hold) time htime
  · rw [hcounted]
    exact h.single
  · intro time htime
    rw [hadmitted]
    exact h.bound time htime

/-- What a credential check does. -/
theorem Tallied.credentialCheck (h : Tallied scope identifier s) {verdict : Verdict}
    (hstep : s.step scope identifier (.credentialCheck i verdict) = some t)
    (horderly : Orderly scope identifier s (.credentialCheck i verdict)) :
    Tallied scope identifier t := by
  simp only [step] at hstep
  split at hstep
  · next hold =>
      obtain rfl := Option.some.inj hstep
      exact h.verify hold
  · next hold =>
      obtain rfl := Option.some.inj hstep
      apply h.refuse hold (r := s.checked false) rfl rfl rfl
      · intro check hcheck
        rcases List.mem_cons.mp hcheck with rfl | hcheck
        · exact le_rfl
        · exact h.times check hcheck
      · exact failures_checked_false
  · next hold =>
      obtain rfl := Option.some.inj hstep
      exact h.refuse hold (r := s) rfl rfl rfl h.times fun time => Nat.le_succ _
  · next hold =>
      obtain rfl := Option.some.inj hstep
      exact h.pass hold rfl rfl (Or.inr rfl)
  · next hold =>
      obtain rfl := Option.some.inj hstep
      exact h.right.pass hold rfl rfl (Or.inr rfl)
  · next hold => exact absurd rfl (horderly hold)
  · next hold _ _ =>
      obtain rfl := Option.some.inj hstep
      exact h.pass hold rfl rfl (Or.inr rfl)
  · cases hstep

/-- An orderly step keeps the tally. -/
theorem Tallied.step (h : Tallied scope identifier s) {a : LockoutStep}
    (hstep : s.step scope identifier a = some t) (horderly : Orderly scope identifier s a) :
    Tallied scope identifier t := by
  cases a with
  | tick duration =>
      obtain rfl := Option.some.inj hstep
      exact h.tick duration
  | elsewhere key entry =>
      by_cases hkey : key = throttleKey scope identifier
      · simp [Lockout.step, hkey] at hstep
      · simp only [Lockout.step, if_neg hkey] at hstep
        obtain rfl := Option.some.inj hstep
        exact h.elsewhere hkey entry
  | post =>
      obtain rfl := Option.some.inj hstep
      exact h.post
  | lockCheck i =>
      by_cases hold : s.posts[i]? = some .posted
      · simp only [Lockout.step, if_pos hold] at hstep
        cases hlocked : isLockedOut s.cache s.now scope identifier with
        | true =>
            rw [hlocked, if_pos rfl] at hstep
            obtain rfl := Option.some.inj hstep
            apply h.pass hold rfl rfl
            by_cases hscope : scope = .login
            · exact Or.inl (if_pos hscope)
            · exact Or.inr (if_neg hscope)
        | false =>
            rw [hlocked] at hstep
            obtain rfl := Option.some.inj hstep
            exact h.admit hold (horderly hold hlocked)
      · simp [Lockout.step, hold] at hstep
  | credentialCheck i verdict => exact h.credentialCheck hstep horderly
  | readCounter i =>
      by_cases hold : s.posts[i]? = some .refused
      · simp only [Lockout.step, if_pos hold] at hstep
        obtain rfl := Option.some.inj hstep
        exact h.read hold (horderly hold)
      · simp [Lockout.step, hold] at hstep
  | writeCounter i =>
      simp only [Lockout.step] at hstep
      split at hstep
      · next count hold =>
          obtain rfl := Option.some.inj hstep
          exact h.write hold
      · cases hstep
  | resetCounter i =>
      by_cases hold : s.posts[i]? = some .verified
      · simp only [Lockout.step, if_pos hold] at hstep
        obtain rfl := Option.some.inj hstep
        exact h.resetCounter hold
      · simp [Lockout.step, hold] at hstep

/-! ## Runs -/

/-- Every step of the run is orderly. -/
def OrderlyRun (scope : Scope) (identifier : String) (s : Lockout) : List LockoutStep → Prop
  | [] => True
  | a :: as => Orderly scope identifier s a ∧
      match s.step scope identifier a with
      | none => True
      | some t => OrderlyRun scope identifier t as

/-- A step evaluates no credentials, or it does so now. -/
theorem step_checks {a : LockoutStep} (hstep : s.step scope identifier a = some t) :
    t.checks = s.checks ∨
      t.now = s.now ∧ ∃ succeeded, t.checks = { time := s.now, succeeded } :: s.checks := by
  cases a with
  | tick | post =>
      obtain rfl := Option.some.inj hstep
      exact Or.inl rfl
  | elsewhere key entry =>
      obtain ⟨-, hstep⟩ := Option.ite_none_left_eq_some.mp hstep
      obtain rfl := Option.some.inj hstep
      exact Or.inl rfl
  | lockCheck i =>
      obtain ⟨-, hstep⟩ := Option.ite_none_right_eq_some.mp hstep
      split at hstep
      · obtain rfl := Option.some.inj hstep
        exact Or.inl rfl
      · obtain rfl := Option.some.inj hstep
        exact Or.inl rfl
  | credentialCheck i verdict =>
      have hcases : ∀ succeeded phase,
          (s.checked succeeded).advance i phase = t ∨ s.advance i phase = t →
            t.checks = s.checks ∨
              t.now = s.now ∧ ∃ succeeded, t.checks = { time := s.now, succeeded } :: s.checks := by
        rintro succeeded phase (rfl | rfl)
        · exact Or.inr ⟨rfl, succeeded, rfl⟩
        · exact Or.inl rfl
      simp only [Lockout.step] at hstep
      split at hstep
      · exact hcases true _ (Or.inl (Option.some.inj hstep))
      · exact hcases false _ (Or.inl (Option.some.inj hstep))
      · exact hcases false _ (Or.inr (Option.some.inj hstep))
      · exact hcases false _ (Or.inr (Option.some.inj hstep))
      · exact hcases true _ (Or.inl (Option.some.inj hstep))
      · exact hcases false _ (Or.inl (Option.some.inj hstep))
      · exact hcases false _ (Or.inr (Option.some.inj hstep))
      · cases hstep
  | readCounter i =>
      obtain ⟨-, hstep⟩ := Option.ite_none_right_eq_some.mp hstep
      obtain rfl := Option.some.inj hstep
      exact Or.inl rfl
  | writeCounter i =>
      simp only [Lockout.step] at hstep
      split at hstep
      · obtain rfl := Option.some.inj hstep
        exact Or.inl rfl
      · cases hstep
  | resetCounter i =>
      obtain ⟨-, hstep⟩ := Option.ite_none_right_eq_some.mp hstep
      obtain rfl := Option.some.inj hstep
      exact Or.inl rfl

/-- The failure that a step evaluates is within the bound. -/
theorem Tallied.bounded_step (h : Tallied scope identifier t) {a : LockoutStep}
    (hstep : s.step scope identifier a = some t) (hbounded : s.Bounded) : t.Bounded := by
  intro time earlier hchecks
  rcases step_checks hstep with hsame | ⟨hnow, succeeded, hnew⟩
  · have hfailures : t.failuresWithin time = s.failuresWithin time := by
      rw [failuresWithin, failuresWithin, hsame]
    rw [hfailures]
    exact hbounded time earlier (hsame.symm.trans hchecks)
  · obtain ⟨hcheck, -⟩ := List.cons.inj (hnew.symm.trans hchecks)
    have htime : s.now = time := congrArg Check.time hcheck
    have hbound := h.bound time (le_of_eq (hnow.trans htime))
    exact le_trans (Nat.le_add_right _ _) hbound

instance decidableOrderlyRun (scope : Scope) (identifier : String) :
    (s : Lockout) → (steps : List LockoutStep) → Decidable (OrderlyRun scope identifier s steps)
  | _, [] => isTrue trivial
  | s, a :: as =>
      have : Decidable (match s.step scope identifier a with
          | none => True
          | some t => OrderlyRun scope identifier t as) :=
        match s.step scope identifier a with
        | none => isTrue trivial
        | some t => decidableOrderlyRun scope identifier t as
      inferInstanceAs (Decidable (_ ∧ _))

theorem Tallied.run {steps : List LockoutStep} (h : Tallied scope identifier s)
    (hbounded : s.Bounded) (hrun : s.run scope identifier steps = some t)
    (horderly : OrderlyRun scope identifier s steps) : t.Bounded := by
  induction steps generalizing s with
  | nil =>
      obtain rfl := Option.some.inj hrun
      exact hbounded
  | cons a steps ih =>
      obtain ⟨r, hstep, hrest⟩ := Option.bind_eq_some_iff.mp hrun
      obtain ⟨hfirst, hlater⟩ := horderly
      rw [hstep] at hlater
      have htallied := h.step hstep hfirst
      exact ih htallied (htallied.bounded_step hstep hbounded) hrest hlater

end Lockout

/-- Where lock checks, increments and resets do not cross, at most `MAX_ATTEMPTS` failing
checks are evaluated within `LOCKOUT_SECONDS` of any failure without a success in between. -/
theorem lockout_bounds_failures (scope : Scope) (identifier : String) (now : Time) (cache : Cache)
    (steps : List LockoutStep)
    (horderly : Lockout.OrderlyRun scope identifier (Lockout.start now cache) steps) :
    ∀ s, (Lockout.start now cache).run scope identifier steps = some s → s.Bounded := by
  intro s hrun
  refine (Lockout.tallied_start now cache).run ?_ hrun horderly
  intro time earlier hchecks
  cases hchecks

/-- A login with a wrong password, from the lock check to the count. -/
def refusedLogin (i : ℕ) : List LockoutStep :=
  [.post, .lockCheck i, .credentialCheck i .wrong, .readCounter i, .writeCounter i]

theorem lockout_bounds_failures_twice :
    ∃ s, (Lockout.start 0 fun _ => none).run .login "unknown:" (refusedLogin 0 ++ refusedLogin 1) =
      some s ∧ s.checks.length = 2 ∧ s.Bounded :=
  ⟨_, rfl, rfl, lockout_bounds_failures .login "unknown:" 0 (fun _ => none)
    (refusedLogin 0 ++ refusedLogin 1) (by decide +kernel) _ rfl⟩

/-- Six POSTs pass the lock check before the first of them counts its failure. -/
def crossedLogins : List LockoutStep :=
  List.replicate 6 .post ++ (List.range 6).map .lockCheck ++
    (List.range 6).map fun i => .credentialCheck i .wrong

theorem lockout_bounds_failures_failing :
    ¬∀ scope identifier now cache steps s,
      (Lockout.start now cache).run scope identifier steps = some s → s.Bounded := by
  intro h
  have hsix := h .login "unknown:" 0 (fun _ => none) crossedLogins _ rfl 0 _ rfl
  revert hsix
  decide

end Kusanya.Accounts
