import Mathlib.Data.List.Infix

/-!
# Tables that only grow

A table is append-only up to a key when the rows that were there come first and keep their key.
Every column that the key contains is then written once, when its row is inserted.
-/

namespace Support

variable {α κ ι : Type} {key : α → κ} {xs ys zs : List α}

/-- The rows of the table stay where they are and keep their key; new rows come after them. -/
def Grown (key : α → κ) (xs ys : List α) : Prop := xs.map key <+: ys.map key

theorem Grown.refl (key : α → κ) (xs : List α) : Grown key xs xs := List.prefix_refl _

theorem Grown.trans (h : Grown key xs ys) (h' : Grown key ys zs) : Grown key xs zs :=
  List.IsPrefix.trans h h'

/-- An update that keeps the key, and new rows. -/
theorem grown_map_append {upd : α → α} (hupd : ∀ row ∈ xs, key (upd row) = key row)
    (new : List α) : Grown key xs (xs.map upd ++ new) := by
  unfold Grown
  rw [List.map_append, List.map_map]
  have hkept : xs.map (key ∘ upd) = xs.map key := List.map_congr_left hupd
  rw [hkept]
  exact List.prefix_append _ _

/-- A row is still there, with its key. -/
theorem Grown.mem (h : Grown key xs ys) {x : α} (hx : x ∈ xs) : ∃ y ∈ ys, key y = key x := by
  have hkey : key x ∈ ys.map key := h.subset (List.mem_map_of_mem hx)
  obtain ⟨y, hy, hyx⟩ := List.mem_map.mp hkey
  exact ⟨y, hy, hyx⟩

/-- An update that leaves the selected rows alone, and new rows that are not selected. -/
theorem filter_map_append {P : α → Bool} {upd : α → α} {new : List α}
    (hupd : ∀ row ∈ xs, P (upd row) = P row) (hsame : ∀ row ∈ xs, P row = true → upd row = row)
    (hnew : ∀ row ∈ new, P row = false) : (xs.map upd ++ new).filter P = xs.filter P := by
  have hnone : new.filter P = [] := by
    rw [List.filter_eq_nil_iff]
    intro row hrow
    simp [hnew row hrow]
  have hkept : (xs.map upd).filter P = xs.filter P := by
    rw [List.filter_map]
    have hpred : xs.filter (P ∘ upd) = xs.filter P := List.filter_congr hupd
    rw [hpred]
    calc (xs.filter P).map upd = (xs.filter P).map id := List.map_congr_left fun row hrow =>
          hsame row (List.mem_of_mem_filter hrow) (List.mem_filter.mp hrow).2
      _ = xs.filter P := List.map_id _
  rw [List.filter_append, hnone, List.append_nil, hkept]

/-- New rows that are not selected. -/
theorem filter_append_new {P : α → Bool} {new : List α} (hnew : ∀ row ∈ new, P row = false) :
    (xs ++ new).filter P = xs.filter P := by
  have hmapped := filter_map_append (fun (row : α) (_ : row ∈ xs) => rfl)
    (fun _ _ _ => rfl) hnew
  rw [List.map_id'] at hmapped
  exact hmapped

end Support
