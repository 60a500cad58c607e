import Mathlib.Data.List.Nodup
import Mathlib.Data.List.Perm.Basic
import Mathlib.Algebra.BigOperators.Group.List.Basic

/-!
# Tables with a primary key

A table is a list of rows, a primary key a function that is injective on it.  A
statement maps a function over the rows and appends new ones.  The lemmas say what
that does to a row found by key and to a selection `WHERE P`, as a multiset.
-/

namespace Support

variable {α β κ : Type} {rows : List α} {key : α → κ}

/-- Rows with equal keys are equal. -/
theorem eq_of_key (h : (rows.map key).Nodup) {a b : α} (ha : a ∈ rows) (hb : b ∈ rows)
    (hkey : key a = key b) : a = b :=
  List.inj_on_of_nodup_map h ha hb hkey

theorem find?_key [DecidableEq κ] (h : (rows.map key).Nodup) {a : α} (ha : a ∈ rows) :
    rows.find? (fun row => key row = key a) = some a := by
  obtain ⟨b, hb⟩ : ∃ b, rows.find? (fun row => decide (key row = key a)) = some b := by
    rw [← Option.isSome_iff_exists, List.find?_isSome]
    exact ⟨a, ha, by simp⟩
  have hkey : key b = key a := by simpa using List.find?_some hb
  rw [hb, eq_of_key h (List.mem_of_find?_eq_some hb) ha hkey]

theorem map_key {upd : α → α} (hupd : ∀ row, key (upd row) = key row) :
    (rows.map upd).map key = rows.map key := by
  rw [List.map_map]
  exact List.map_congr_left fun row _ => hupd row

/-- The keys stay unique when rows are updated and one fresh row is added. -/
theorem nodup_map_append (h : (rows.map key).Nodup) {upd : α → α} {new : List α}
    (hupd : ∀ row, key (upd row) = key row) (hnew : (new.map key).Nodup)
    (hfresh : ∀ a ∈ new, ∀ row ∈ rows, key row ≠ key a) :
    ((rows.map upd ++ new).map key).Nodup := by
  rw [List.map_append, map_key hupd]
  refine List.Nodup.append h hnew fun k hk hk' => ?_
  obtain ⟨row, hrow, rfl⟩ := List.mem_map.mp hk
  obtain ⟨a, ha, hkey⟩ := List.mem_map.mp hk'
  exact hfresh a ha row hrow hkey.symm

/-- Updates that keep `P` and, where it holds, `g` do not show in a selection. -/
theorem select_map_same {P : α → Bool} {g : α → β} {upd : α → α}
    (hP : ∀ row ∈ rows, P (upd row) = P row)
    (hg : ∀ row ∈ rows, P row = true → g (upd row) = g row) :
    ((rows.map upd).filter P).map g = (rows.filter P).map g := by
  induction rows with
  | nil => rfl
  | cons row rows ih =>
      have hrest := ih (fun r hr => hP r (List.mem_cons_of_mem _ hr)) fun r hr =>
        hg r (List.mem_cons_of_mem _ hr)
      have hrow := hP row List.mem_cons_self
      rw [List.map_cons]
      cases hp : P row with
      | true =>
          rw [List.filter_cons_of_pos (hrow.trans hp), List.filter_cons_of_pos hp, List.map_cons,
            List.map_cons, hrest, hg row List.mem_cons_self hp]
      | false =>
          rw [List.filter_cons_of_neg (by simp [hrow, hp]), List.filter_cons_of_neg (by simp [hp]),
            hrest]

/-- One row enters a selection: the selection gains what `g` makes of it. -/
theorem select_map_enter (h : (rows.map key).Nodup) {P : α → Bool} {g : α → β} {upd : α → α}
    {a : α} (ha : a ∈ rows) (hout : P a = false) (hin : P (upd a) = true)
    (hP : ∀ row ∈ rows, key row ≠ key a → P (upd row) = P row)
    (hg : ∀ row ∈ rows, key row ≠ key a → P row = true → g (upd row) = g row) :
    (((rows.map upd).filter P).map g).Perm (g (upd a) :: (rows.filter P).map g) := by
  obtain ⟨before, behind, rfl⟩ := List.append_of_mem ha
  have hne : ∀ row, row ∈ before ∨ row ∈ behind → key row ≠ key a := by
    intro row hrow hkey
    rw [List.map_append, List.map_cons] at h
    obtain ⟨-, hnodup, hdisj⟩ := List.nodup_append'.mp h
    rcases hrow with hrow | hrow
    · exact hdisj (List.mem_map_of_mem hrow) (hkey ▸ List.mem_cons_self)
    · exact (List.nodup_cons.mp hnodup).1 (hkey ▸ List.mem_map_of_mem hrow)
  have hsame : ∀ part : List α, (∀ row ∈ part, row ∈ before ∨ row ∈ behind) →
      ((part.map upd).filter P).map g = (part.filter P).map g := by
    intro part hpart
    have hmem : ∀ row ∈ part, row ∈ before ++ a :: behind := fun row hrow => by
      rcases hpart row hrow with h | h
      · exact List.mem_append_left _ h
      · exact List.mem_append_right _ (List.mem_cons_of_mem _ h)
    exact select_map_same (fun row hrow => hP row (hmem row hrow) (hne row (hpart row hrow)))
      fun row hrow => hg row (hmem row hrow) (hne row (hpart row hrow))
  rw [List.map_append, List.map_cons, List.filter_append, List.filter_cons_of_pos hin,
    List.map_append, List.map_cons, List.filter_append,
    List.filter_cons_of_neg (by simp [hout]), List.map_append,
    hsame before fun row hrow => Or.inl hrow, hsame behind fun row hrow => Or.inr hrow]
  exact List.perm_middle

/-- At most one row has a given key. -/
theorem length_filter_key_le_one [DecidableEq κ] (h : (rows.map key).Nodup) (k : κ) :
    (rows.filter fun row => key row = k).length ≤ 1 := by
  have hsub : (rows.filter fun row => decide (key row = k)).map key =
      List.replicate (rows.filter fun row => decide (key row = k)).length k := by
    refine List.eq_replicate_iff.mpr ⟨List.length_map _, fun x hx => ?_⟩
    obtain ⟨row, hrow, rfl⟩ := List.mem_map.mp hx
    simpa using (List.mem_filter.mp hrow).2
  have hnodup : ((rows.filter fun row => decide (key row = k)).map key).Nodup :=
    h.sublist (List.filter_sublist.map key)
  rw [hsub] at hnodup
  exact List.nodup_replicate.mp hnodup

/-- Selecting a row by its key gives that row. -/
theorem filter_key [DecidableEq κ] (h : (rows.map key).Nodup) {a : α} (ha : a ∈ rows) :
    rows.filter (fun row => key row = key a) = [a] := by
  have hmem : a ∈ rows.filter fun row => key row = key a := List.mem_filter.mpr ⟨ha, by simp⟩
  have hlength := length_filter_key_le_one h (key a)
  generalize rows.filter (fun row => decide (key row = key a)) = found at *
  match found, hlength with
  | [], _ => cases hmem
  | [b], _ => rw [List.mem_singleton.mp hmem]

theorem forall₂_imp_of_mem {R R' : α → β → Prop} {rows : List α} {rows' : List β}
    (h : List.Forall₂ R rows rows') (himp : ∀ a ∈ rows, ∀ b, R a b → R' a b) :
    List.Forall₂ R' rows rows' := by
  induction h with
  | nil => exact List.Forall₂.nil
  | cons hhead _ ih =>
      exact List.Forall₂.cons (himp _ List.mem_cons_self _ hhead)
        (ih fun a ha => himp a (List.mem_cons_of_mem _ ha))

theorem forall₂_trans {γ : Type} {R : α → β → Prop} {R' : β → γ → Prop} {R'' : α → γ → Prop}
    {rows : List α} {rows' : List β} {rows'' : List γ} (h : List.Forall₂ R rows rows')
    (h' : List.Forall₂ R' rows' rows'')
    (htrans : ∀ a ∈ rows, ∀ b ∈ rows', ∀ c, R a b → R' b c → R'' a c) :
    List.Forall₂ R'' rows rows'' := by
  induction h generalizing rows'' with
  | nil =>
      cases h'
      exact List.Forall₂.nil
  | cons hhead _ ih =>
      obtain _ | ⟨hhead', hrest'⟩ := h'
      constructor
      · exact htrans _ List.mem_cons_self _ List.mem_cons_self _ hhead hhead'
      · exact ih hrest' fun a ha b hb =>
          htrans a (List.mem_cons_of_mem _ ha) b (List.mem_cons_of_mem _ hb)

theorem exists_of_forall₂ {R : α → β → Prop} {rows : List α} {rows' : List β}
    (h : List.Forall₂ R rows rows') {b : β} (hb : b ∈ rows') : ∃ a ∈ rows, R a b := by
  induction h with
  | nil => cases hb
  | cons hhead _ ih =>
      rcases List.mem_cons.mp hb with rfl | hb
      · exact ⟨_, List.mem_cons_self, hhead⟩
      · obtain ⟨a, ha, hrel⟩ := ih hb
        exact ⟨a, List.mem_cons_of_mem _ ha, hrel⟩

/-- Among lists that belong to distinct keys, a key finds its own. -/
theorem filter_flatMap_key {α β κ : Type} [DecidableEq κ] {l : List α} {key : α → κ}
    {keyOf : β → κ} {g : α → List β} (hl : (l.map key).Nodup)
    (hg : ∀ a ∈ l, ∀ b ∈ g a, keyOf b = key a) {a : α} (ha : a ∈ l) :
    (l.flatMap g).filter (fun b => keyOf b = key a) = g a := by
  induction l with
  | nil => cases ha
  | cons x rest ih =>
      obtain ⟨hx, hrest⟩ := List.nodup_cons.mp hl
      rw [List.flatMap_cons, List.filter_append]
      rcases List.mem_cons.mp ha with rfl | ha
      · have hown : (g a).filter (fun b => decide (keyOf b = key a)) = g a := by
          rw [List.filter_eq_self]
          intro b hb
          exact decide_eq_true (hg a List.mem_cons_self b hb)
        have hother : (rest.flatMap g).filter (fun b => decide (keyOf b = key a)) = [] := by
          rw [List.filter_eq_nil_iff]
          intro b hb hkey
          obtain ⟨y, hy, hby⟩ := List.mem_flatMap.mp hb
          refine hx (List.mem_map.mpr ⟨y, hy, ?_⟩)
          rw [← hg y (List.mem_cons_of_mem _ hy) b hby, of_decide_eq_true hkey]
        rw [hown, hother, List.append_nil]
      · have hother : (g x).filter (fun b => decide (keyOf b = key a)) = [] := by
          rw [List.filter_eq_nil_iff]
          intro b hb hkey
          refine hx (List.mem_map.mpr ⟨a, ha, ?_⟩)
          rw [← hg x List.mem_cons_self b hb, of_decide_eq_true hkey]
        rw [hother, List.nil_append]
        exact ih hrest (fun y hy => hg y (List.mem_cons_of_mem _ hy)) ha

/-- Rows that contribute nothing may be filtered out first. -/
theorem flatMap_ite (c : α → Bool) (f : α → List β) (rows : List α) :
    (rows.flatMap fun row => if c row then f row else []) = (rows.filter c).flatMap f := by
  induction rows with
  | nil => rfl
  | cons row rows ih =>
      rw [List.flatMap_cons, ih]
      cases hc : c row <;> simp [hc]

/-! ## Sums over selections -/

theorem sum_filter_or [AddCommMonoid β] {P Q : α → Bool} (g : α → β)
    (hdisjoint : ∀ row ∈ rows, P row = true → Q row = false) :
    ((rows.filter fun row => P row || Q row).map g).sum =
      ((rows.filter P).map g).sum + ((rows.filter Q).map g).sum := by
  induction rows with
  | nil => simp
  | cons row rows ih =>
      have hrest := ih fun r hr => hdisjoint r (List.mem_cons_of_mem _ hr)
      cases hp : P row with
      | true =>
          have hq := hdisjoint row List.mem_cons_self hp
          simp [hp, hq, hrest, add_assoc]
      | false =>
          cases hq : Q row with
          | true => simp [hp, hq, hrest, add_left_comm]
          | false => simp [hp, hq, hrest]

/-- The sum over the rows that match one of several things is the sum of their sums, when no row
matches two. -/
theorem sum_filter_any {γ : Type} [AddCommMonoid β] {things : List γ} {meets : γ → α → Bool}
    (g : α → β) (hdisjoint : things.Pairwise fun x y =>
      ∀ row ∈ rows, meets x row = true → meets y row = false) :
    ((rows.filter fun row => things.any fun x => meets x row).map g).sum =
      (things.map fun x => ((rows.filter (meets x)).map g).sum).sum := by
  induction things with
  | nil => simp
  | cons x things ih =>
      obtain ⟨hx, hrest⟩ := List.pairwise_cons.mp hdisjoint
      have hor : (fun row => (x :: things).any fun y => meets y row) =
          fun row => meets x row || things.any fun y => meets y row :=
        funext fun row => List.any_cons
      rw [hor, sum_filter_or g fun row hrow hmatch => ?_, ih hrest, List.map_cons, List.sum_cons]
      rw [List.any_eq_false]
      intro y hy
      rw [hx y hy row hrow hmatch]
      exact Bool.false_ne_true

/-- Selecting rows by their keys gives those rows. -/
theorem filter_any_perm [DecidableEq κ] (h : (rows.map key).Nodup) {chosen : List α}
    (hchosen : (chosen.map key).Nodup) (hmem : ∀ a ∈ chosen, a ∈ rows) :
    (rows.filter fun row => chosen.any fun a => key a = key row).Perm chosen := by
  refine (List.perm_ext_iff_of_nodup (h.of_map.filter _) hchosen.of_map).mpr fun row => ?_
  rw [List.mem_filter, List.any_eq_true]
  constructor
  · rintro ⟨hrow, a, ha, hkey⟩
    rw [← eq_of_key h (hmem a ha) hrow (of_decide_eq_true hkey)]
    exact ha
  · intro hrow
    exact ⟨hmem row hrow, row, hrow, decide_eq_true rfl⟩

/-- Looking a row up by its key before or after an update. -/
theorem find?_map_key [DecidableEq κ] {upd : α → α} (hupd : ∀ row, key (upd row) = key row)
    (k : κ) :
    (rows.map upd).find? (fun row => key row = k) =
      (rows.find? fun row => key row = k).map upd := by
  rw [List.find?_map]
  congr 2
  funext row
  simp [hupd]

end Support
