import Mathlib.Data.List.Nodup
import Mathlib.Data.List.Infix

/-!
# Hash chains

A log in which each record carries the digest of its predecessor.  The records
are arbitrary; `prev` and `digest` read the two digests off one.
-/

namespace Support.HashChain

variable {ρ δ : Type} (prev digest : ρ → δ)

/-- Each record names its predecessor's digest, the first one `start`. -/
def Linked : δ → List ρ → Prop
  | _, [] => True
  | start, r :: rest => prev r = start ∧ Linked (digest r) rest

variable {prev digest}

/-- Appending the record that names the last digest keeps a log linked. -/
theorem Linked.concat {start : δ} {log : List ρ} (h : Linked prev digest start log) {r : ρ}
    (hr : prev r = (log.getLast?.map digest).getD start) :
    Linked prev digest start (log ++ [r]) := by
  induction log generalizing start with
  | nil => exact ⟨hr, trivial⟩
  | cons a log ih =>
      refine ⟨h.1, ih h.2 ?_⟩
      cases log with
      | nil => exact hr
      | cons b log => rwa [List.getLast?_cons_cons] at hr

theorem Linked.append_right {start : δ} {before behind : List ρ}
    (h : Linked prev digest start (before ++ behind)) :
    Linked prev digest ((before.getLast?.map digest).getD start) behind := by
  induction before generalizing start with
  | nil => exact h
  | cons a before ih =>
      have hrest := ih h.2
      cases before with
      | nil => exact hrest
      | cons b before => rwa [List.getLast?_cons_cons]

/-- A record of a linked log is the first one or follows the one it names. -/
theorem Linked.pred {start : δ} {log : List ρ} (h : Linked prev digest start log) {r : ρ}
    (hr : r ∈ log) :
    log.head? = some r ∨
      ∃ before p behind, log = before ++ p :: r :: behind ∧ prev r = digest p := by
  induction log generalizing start with
  | nil => cases hr
  | cons a log ih =>
      rcases List.mem_cons.mp hr with rfl | hr
      · exact Or.inl rfl
      · right
        rcases ih h.2 hr with hhead | ⟨before, p, behind, heq, hprev⟩
        · obtain ⟨behind, rfl⟩ := List.head?_eq_some_iff.mp hhead
          exact ⟨[], a, behind, rfl, h.2.1⟩
        · exact ⟨a :: before, p, behind, by rw [heq]; rfl, hprev⟩

theorem Linked.prev_mem {start : δ} {log : List ρ} (h : Linked prev digest start log) {r : ρ}
    (hr : r ∈ log) : prev r = start ∨ prev r ∈ log.map digest := by
  rcases h.pred hr with hhead | ⟨before, p, behind, rfl, hprev⟩
  · obtain ⟨behind, rfl⟩ := List.head?_eq_some_iff.mp hhead
    exact Or.inl h.1
  · right
    rw [hprev]
    exact List.mem_map_of_mem (List.mem_append_right _ List.mem_cons_self)

/-- **Commitment.**  A linked log whose records each stand for a record of `log`
with the same two digests follows `log` from its beginning. -/
theorem Linked.prefix_of_matched {R : ρ → ρ → Prop} {start : δ} {log log' : List ρ}
    (h : Linked prev digest start log) (h' : Linked prev digest start log')
    (hnodup : (log.map digest).Nodup) (hstart : start ∉ (log.map digest).dropLast)
    (hnodup' : (log'.map digest).Nodup)
    (hmatch : ∀ r' ∈ log', ∃ r ∈ log, digest r = digest r' ∧ prev r = prev r' ∧ R r' r) :
    ∃ k, List.Forall₂ R log' (log.take k) := by
  induction log' generalizing start log with
  | nil => exact ⟨0, by simp⟩
  | cons r' log' ih =>
      obtain ⟨r, hr, hdigest, hprev, hrel⟩ := hmatch r' List.mem_cons_self
      -- only the first record of `log` names `start`
      have hhead : log.head? = some r := by
        rcases h.pred hr with hhead | ⟨before, p, behind, rfl, hp⟩
        · exact hhead
        · rw [hprev, h'.1] at hp
          refine absurd ?_ hstart
          rw [hp]
          simp [List.dropLast_append_of_ne_nil]
      obtain ⟨rest, rfl⟩ := List.head?_eq_some_iff.mp hhead
      rw [List.map_cons, List.nodup_cons] at hnodup hnodup'
      have hfresh : digest r ∉ (rest.map digest).dropLast := fun hmem =>
        hnodup.1 (List.dropLast_subset _ hmem)
      have hlinked' : Linked prev digest (digest r) log' := hdigest ▸ h'.2
      have hmatch' : ∀ s' ∈ log', ∃ s ∈ rest,
          digest s = digest s' ∧ prev s = prev s' ∧ R s' s := by
        intro s' hs'
        obtain ⟨s, hs, hsame⟩ := hmatch s' (List.mem_cons_of_mem _ hs')
        rcases List.mem_cons.mp hs with rfl | hs
        · have hmem : digest r' ∈ log'.map digest :=
            List.mem_map.mpr ⟨s', hs', hsame.1.symm.trans hdigest⟩
          exact absurd hmem hnodup'.1
        · exact ⟨s, hs, hsame⟩
      obtain ⟨k, hk⟩ := ih h.2 hlinked' hnodup.2 hfresh hnodup'.2 hmatch'
      exact ⟨k + 1, List.Forall₂.cons hrel hk⟩

end Support.HashChain
