import Kusanya.Moves.Rules
import Kusanya.ReadCommitted.Locking

/-!
# Rules for the statements among other transactions

The statements of `Model.Tables` where other transactions keep to a discipline.
-/

namespace Kusanya

open ReadCommitted

section Statements

variable {α : Type} {D : Discipline DB Resource} {l : Local DB Resource}
variable {R : Error → Local DB Resource → Prop}

@[simp] theorem lwp_onBooks {Q : Unit → Local DB Resource → Prop} (w : Books → Books) :
    (onBooks w).lwp D l Q R ↔ Q () { l with pend := inBooks w ∘ l.pend } := Iff.rfl

@[simp] theorem lwp_onTrail {Q : Unit → Local DB Resource → Prop} (w : Trail → Trail) :
    (onTrail w).lwp D l Q R ↔ Q () { l with pend := inTrail w ∘ l.pend } := Iff.rfl

@[simp] theorem lwp_raiseIf {Q : Unit → Local DB Resource → Prop} (c : Prop) [Decidable c]
    (e : Error) : (raiseIf c e).lwp D l Q R ↔ (c → R e l) ∧ (¬c → Q () l) := by
  unfold raiseIf
  rw [Txn.lwp_ite]
  rfl

@[simp] theorem lwp_checkVarchar {Q : Unit → Local DB Resource → Prop} (n : ℕ) (text : String) :
    (checkVarchar n text).lwp D l Q R ↔
      (Varchar n text → Q () l) ∧ (¬Varchar n text → R .dataError l) := by
  unfold checkVarchar
  rw [Txn.lwp_ite]
  rfl

@[simp] theorem lwp_storeNumeric {Q : Numeric → Local DB Resource → Prop} (m : Money) :
    (storeNumeric m).lwp D l Q R ↔
      (∀ n, Numeric.ofMoney? m = some n → Q n l) ∧
        (Numeric.ofMoney? m = none → R .dataError l) := by
  unfold storeNumeric
  cases Numeric.ofMoney? m <;> simp

@[simp] theorem lwp_getRow {Q : α → Local DB Resource → Prop} (what : Resource)
    (q : DB → Option α) :
    (getRow what q).lwp D l Q R ↔
      ∀ s, l.Sees D s → (∀ row, q (l.pend s) = some row → Q row { l with last := s }) ∧
        (q (l.pend s) = none → R .doesNotExist { l with last := s }) := by
  unfold getRow
  rw [Txn.lwp_bind, Txn.lwp_fetch]
  refine forall_congr' fun s => forall_congr' fun _ => ?_
  cases q (l.pend s) <;> simp

@[simp] theorem lwp_getOr404 {Q : α → Local DB Resource → Prop} (what : Resource)
    (q : DB → Option α) :
    (getOr404 what q).lwp D l Q R ↔
      ∀ s, l.Sees D s → (∀ row, q (l.pend s) = some row → Q row { l with last := s }) ∧
        (q (l.pend s) = none → R .http404 { l with last := s }) := by
  unfold getOr404
  rw [Txn.lwp_bind, Txn.lwp_fetch]
  refine forall_congr' fun s => forall_congr' fun _ => ?_
  cases q (l.pend s) <;> simp

end Statements

end Kusanya
