import Kusanya.Model.Outbox

/-!
# After the commit

Django runs the callbacks registered with `transaction.on_commit` once the outermost transaction
has committed, in the order of their registration.  Both `_enqueue` functions register theirs
without `robust`, so an exception of one propagates and the rest are never run.
-/

namespace Kusanya

/-- A row with a task of its own, by the order in which its table was filled. -/
inductive OutboxRow where
  | notification (id : ℕ)
  | delivery (id : ℕ)
  deriving DecidableEq

/-- The rows that a list of callbacks is about, where the next notification to be created has the
id `n` and the next delivery the id `d`. -/
def Task.rows : ℕ → ℕ → List Task → List OutboxRow
  | _, _, [] => []
  | n, d, .deliverNotification _ :: rest => .notification n :: Task.rows (n + 1) d rest
  | n, d, .deliverWebhook _ :: rest => .delivery d :: Task.rows n (d + 1) rest

/-- The rows of both tables. -/
def DB.outboxRows (db : DB) : List OutboxRow :=
  (List.range db.notifications.length).map .notification ++
    (List.range db.deliveries.length).map .delivery

/-- The rows in `t` that are not in `s`. -/
def DB.created (s t : DB) : List OutboxRow := t.outboxRows.filter fun row => row ∉ s.outboxRows

/-- The rows of the callbacks registered between `s` and `t`. -/
def DB.registered (s t : DB) : List OutboxRow :=
  Task.rows s.notifications.length s.deliveries.length (t.onCommit.drop s.onCommit.length)

/-- What the callbacks leave: the rows whose task the broker has, and whether the request is
answered as its view decided. -/
structure AfterCommit where
  enqueued : List OutboxRow
  answered : Bool
  deriving DecidableEq

/-- `run_and_clear_commit_hooks`; `broker row` says whether `delay(row)` returns. -/
def runOnCommit (broker : OutboxRow → Bool) : List OutboxRow → AfterCommit
  | [] => { enqueued := [], answered := true }
  | row :: rest =>
      if broker row then
        { runOnCommit broker rest with enqueued := row :: (runOnCommit broker rest).enqueued }
      else { enqueued := [], answered := false }

end Kusanya
