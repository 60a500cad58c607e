import Mathlib.Data.List.Nodup
import Mathlib.Data.List.Forall2

/-!
# Rewriting a table row by row

A loop over a snapshot of the rows, which updates each row through its key while it
carries a state of its own.
-/

namespace Support

variable {α κ σ : Type} [DecidableEq κ] {key : α → κ}

/-- For each row of the snapshot, `update` computes what is set in the row with its key. -/
def rewriteRows (key : α → κ) (update : α → StateM σ (α → α)) :
    List α → List α → StateM σ (List α)
  | [], table => pure table
  | row :: rest, table => do
      let set ← update row
      rewriteRows key update rest (table.map fun r => if key r = key row then set r else r)

/-- Each row is rewritten alone. -/
def rewriteEach (update : α → StateM σ (α → α)) : List α → StateM σ (List α)
  | [] => pure []
  | row :: rest => do
      let set ← update row
      let rest' ← rewriteEach update rest
      pure (set row :: rest')

variable {update : α → StateM σ (α → α)}

/-- Where an update reaches one row only, the rows before it are done and those after it
are still what the snapshot says. -/
theorem rewriteRows_append (hkey : ∀ row s r, key ((update row s).1 r) = key r)
    {done rest : List α} (hnodup : ((done ++ rest).map key).Nodup) (s : σ) :
    rewriteRows key update rest (done ++ rest) s =
      (done ++ (rewriteEach update rest s).1, (rewriteEach update rest s).2) := by
  induction rest generalizing done s with
  | nil => rfl
  | cons row rest ih =>
      have hother : ∀ r ∈ done ++ rest, key r ≠ key row := by
        intro r hr heq
        have hmiddle : ((row :: (done ++ rest)).map key).Nodup :=
          (List.perm_middle.map key).nodup_iff.mp hnodup
        exact (List.nodup_cons.mp hmiddle).1 (heq ▸ List.mem_map_of_mem hr)
      have hsame : ∀ l : List α, l ⊆ done ++ rest →
          (l.map fun r => if key r = key row then (update row s).1 r else r) = l := by
        intro l hl
        conv_rhs => rw [← List.map_id l]
        exact List.map_congr_left fun r hr => if_neg (hother r (hl hr))
      have htable : ((done ++ row :: rest).map fun r =>
          if key r = key row then (update row s).1 r else r) =
            (done ++ [(update row s).1 row]) ++ rest := by
        rw [List.map_append, List.map_cons, if_pos rfl,
          hsame done (List.subset_append_left done rest),
          hsame rest (List.subset_append_right done rest), List.append_assoc,
          List.singleton_append]
      have hnodup' : (((done ++ [(update row s).1 row]) ++ rest).map key).Nodup := by
        have hkeys : ((done ++ [(update row s).1 row]) ++ rest).map key =
            (done ++ row :: rest).map key := by
          simp [hkey]
        rwa [hkeys]
      have hrest := ih hnodup' (update row s).2
      rw [← htable] at hrest
      calc rewriteRows key update (row :: rest) (done ++ row :: rest) s
          = rewriteRows key update rest ((done ++ row :: rest).map fun r =>
              if key r = key row then (update row s).1 r else r) (update row s).2 := rfl
        _ = _ := hrest
        _ = _ := by
            rw [List.append_assoc, List.singleton_append]
            rfl

/-- With unique keys the loop rewrites every row once. -/
theorem rewriteRows_eq (hkey : ∀ row s r, key ((update row s).1 r) = key r) {table : List α}
    (hnodup : (table.map key).Nodup) :
    rewriteRows key update table table = rewriteEach update table := by
  funext s
  have hall : ((([] : List α) ++ table).map key).Nodup := hnodup
  exact rewriteRows_append hkey hall s

/-- Rows that the snapshot leaves out stay as they are. -/
theorem rewriteRows_filter (p : α → Bool) (rest table : List α) :
    rewriteRows key update (rest.filter p) table =
      rewriteRows key (fun row => if p row then update row else pure id) rest table := by
  induction rest generalizing table with
  | nil => rfl
  | cons row rest ih =>
      by_cases hp : p row = true
      · rw [List.filter_cons_of_pos hp, rewriteRows, rewriteRows, if_pos hp]
        simp only [ih]
      · have hsame : (table.map fun r => if key r = key row then id r else r) = table := by
          simp
        rw [List.filter_cons_of_neg hp, rewriteRows, if_neg hp, pure_bind, hsame, ih]

theorem rewriteEach_forall₂ {R : α → α → Prop} (hrow : ∀ row s, R row ((update row s).1 row))
    (table : List α) (s : σ) : List.Forall₂ R table (rewriteEach update table s).1 := by
  induction table generalizing s with
  | nil => exact List.Forall₂.nil
  | cons row rest ih => exact List.Forall₂.cons (hrow row s) (ih (update row s).2)

/-- What the loop adds to a log is what each row adds, in the order of the rows. -/
theorem rewriteEach_log {ε : Type} {update : α → StateM (List ε) (α → α)} {adds : α → List ε}
    (hrow : ∀ row s, (update row s).2 = s ++ adds row) (table : List α) (s : List ε) :
    (rewriteEach update table s).2 = s ++ table.flatMap adds := by
  induction table generalizing s with
  | nil => exact (List.append_nil s).symm
  | cons row rest ih =>
      calc (rewriteEach update (row :: rest) s).2
          = (rewriteEach update rest (update row s).2).2 := rfl
        _ = (s ++ adds row) ++ rest.flatMap adds := by rw [ih, hrow]
        _ = _ := by rw [List.append_assoc, List.flatMap_cons]

end Support
