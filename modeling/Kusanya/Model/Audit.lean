import Kusanya.Model.RequestContext
import Kusanya.Support.JsonText
import Kusanya.Support.Sha256
import Mathlib.Data.Prod.Lex
import Mathlib.Data.Fintype.Basic

/-!
# The audit log

`apps.audit.models.AuditLog` and `apps.audit.services.record_audit_event`: rows in
the order of their insertion, each with the SHA-256 hash of its predecessor.
-/

namespace Kusanya.Audit

open Support

/-! ## Columns -/

abbrev Uuid := Fin (2 ^ 128)

/-- `str` of a uuid. -/
def Uuid.str (u : Uuid) : Text :=
  Text.fixed 16 8 (u / 16 ^ 24) ++ '-' :: (Text.fixed 16 4 (u / 16 ^ 20) ++
    '-' :: (Text.fixed 16 4 (u / 16 ^ 16) ++ '-' :: (Text.fixed 16 4 (u / 16 ^ 12) ++
      '-' :: Text.fixed 16 12 u)))

def daysInMonth (year month : ℕ) : ℕ :=
  if month = 2 then (if year % 4 = 0 ∧ (year % 100 ≠ 0 ∨ year % 400 = 0) then 29 else 28)
  else if month ∈ [4, 6, 9, 11] then 30 else 31

/-- An aware `datetime` in UTC. -/
structure DateTime where
  year : ℕ
  month : ℕ
  day : ℕ
  hour : ℕ
  minute : ℕ
  second : ℕ
  microsecond : ℕ
  date : 1 ≤ year ∧ year ≤ 9999 ∧ 1 ≤ month ∧ month ≤ 12 ∧ 1 ≤ day ∧ day ≤ daysInMonth year month
  time : hour < 24 ∧ minute < 60 ∧ second < 60 ∧ microsecond < 10 ^ 6

namespace DateTime

/-- `datetime.isoformat`, which leaves out microseconds that are zero. -/
def isoformat (t : DateTime) : Text :=
  Text.fixed 10 4 t.year ++ '-' :: (Text.fixed 10 2 t.month ++ '-' :: (Text.fixed 10 2 t.day ++
    'T' :: (Text.fixed 10 2 t.hour ++ ':' :: (Text.fixed 10 2 t.minute ++
      ':' :: (Text.fixed 10 2 t.second ++
        ((if t.microsecond = 0 then [] else '.' :: Text.fixed 10 6 t.microsecond) ++
          ['+', '0', '0', ':', '0', '0']))))))

/-- The fields as one number in a mixed radix: its order is that of the instants. -/
def ticks (t : DateTime) : ℕ :=
  (((((t.year * 13 + t.month) * 32 + t.day) * 24 + t.hour) * 60 + t.minute) * 60 + t.second) *
    10 ^ 6 + t.microsecond

theorem day_lt (t : DateTime) : t.day < 32 := by
  have hday : daysInMonth t.year t.month ≤ 31 := by
    unfold daysInMonth
    split_ifs <;> decide
  have hdate := t.date
  omega

theorem ticks_injective : Function.Injective ticks := by
  intro s t h
  have hs := s.date
  have ht := t.date
  have hs' := s.time
  have ht' := t.time
  have hday := s.day_lt
  have hday' := t.day_lt
  unfold ticks at h
  have hmicro : s.microsecond = t.microsecond := by omega
  have hsecond : s.second = t.second := by omega
  have hminute : s.minute = t.minute := by omega
  have hhour : s.hour = t.hour := by omega
  have hdate : s.year * 13 + s.month = t.year * 13 + t.month ∧ s.day = t.day := by omega
  have hyear : s.year = t.year ∧ s.month = t.month := by omega
  cases s
  cases t
  simp_all

instance : LinearOrder DateTime := LinearOrder.lift' ticks ticks_injective

end DateTime

structure User where
  id : Uuid
  email : Text

/-! ## Records -/

/-- `GENESIS_HASH`. -/
def genesisHash : Text := List.replicate 64 '0'

/-- `apps.audit.models.AuditLog`. -/
structure AuditLog extends RequestContext where
  id : Uuid
  createdAt : DateTime
  actor : Option User
  actorLabel : Text
  tenantId : Option Uuid
  action : Text
  contentTypeId : Option ℕ
  objectId : Text
  before : Json
  after : Json
  metadata : Json
  previousHash : Text
  recordHash : Text

namespace AuditLog

/-- The place of a row in the order `("created_at", "id")`. -/
def key (record : AuditLog) : DateTime ×ₗ Uuid := toLex (record.createdAt, record.id)

/-- `AuditLog._canonical_payload`. -/
def canonicalPayload (record : AuditLog) : Text :=
  JsonOf.dumps (.obj
    [("action".toList, .str record.action),
     ("actor_label".toList, if record.actorLabel = [] then .null else .str record.actorLabel),
     ("tenant_id".toList, match record.tenantId with
       | some tenant => .str tenant.str
       | none => .null),
     ("content_type_id".toList, match record.contentTypeId with
       | some contentType => .int contentType
       | none => .null),
     ("object_id".toList, .str record.objectId),
     ("before".toList, record.before),
     ("after".toList, record.after),
     ("metadata".toList, record.metadata),
     ("correlation_id".toList, .str record.correlationId),
     ("created_at".toList, .str record.createdAt.isoformat)])

/-- The string that is hashed. -/
def hashInput (record : AuditLog) : Text :=
  record.previousHash ++ ':' :: record.canonicalPayload

end AuditLog

/-- `hashlib.sha256(text.encode("utf-8")).hexdigest()`. -/
def sha256 (text : Text) : Text := Sha256.hexdigest (Text.utf8 text)

namespace AuditLog

/-- The row as it is read back: the JSON columns have gone through `jsonb`. -/
def reread (record : AuditLog) : AuditLog :=
  { record with
    before := record.before.jsonb
    after := record.after.jsonb
    metadata := record.metadata.jsonb }

/-- `jsonb` gives the three JSON columns back as they were. -/
def isKept (record : AuditLog) : Bool :=
  record.before.isKept && record.after.isKept && record.metadata.isKept

/-- What the columns take: texts of their width without NUL, the context of the request, JSON that
can be written, and a `metadata` that is not null. -/
def isStorable (isAddress : Text → Bool) (record : AuditLog) : Bool :=
  Text.Fits 255 record.actorLabel && Text.Fits 100 record.action && Text.Fits 64 record.objectId &&
  record.Auditable isAddress &&
  record.before.isStorable && record.after.isStorable && record.metadata.isStorable &&
  (match record.metadata with
   | .null => false
   | _ => true)

theorem isKept_reread (record : AuditLog) : record.reread.isKept = true := by
  simp [reread, isKept, JsonOf.isKept_jsonb]

end AuditLog

/-- The table: no two rows share a primary key or a `record_hash`, and the JSON columns
hold what `jsonb` can hold. -/
structure AuditTable where
  rows : List AuditLog
  id_unique : (rows.map (·.id)).Nodup
  hash_unique : (rows.map (·.recordHash)).Nodup
  kept : ∀ row ∈ rows, row.isKept = true

def AuditTable.empty : AuditTable := ⟨[], by simp, by simp, by simp⟩

/-- `order_by("-created_at", "-id").first()`. -/
def latest (rows : List AuditLog) : Option AuditLog :=
  (rows.insertionSort fun a b => b.key ≤ a.key).head?

/-- What the next record has to name as its predecessor. -/
def latestHash (rows : List AuditLog) : Text :=
  match latest rows with
  | some last => last.recordHash
  | none => genesisHash

/-- `order_by("created_at", "id")`. -/
def AuditTable.ordered (table : AuditTable) : List AuditLog :=
  table.rows.insertionSort fun a b => a.key ≤ b.key

inductive AuditError where
  | immutable | data | integrity
  deriving DecidableEq

/-- `INSERT` of a row. -/
def AuditTable.insert (isAddress : Text → Bool) (table : AuditTable) (record : AuditLog) :
    Except AuditError AuditTable :=
  if record.isStorable isAddress then
    if h : (∀ row ∈ table.rows, row.id ≠ record.id) ∧
        ∀ row ∈ table.rows, row.recordHash ≠ record.recordHash then
      .ok
        { rows := table.rows ++ [record.reread]
          id_unique := by
            rw [List.map_append]
            refine List.Nodup.append table.id_unique (List.nodup_singleton _) fun id hid hnew => ?_
            obtain ⟨row, hrow, rfl⟩ := List.mem_map.mp hid
            exact h.1 row hrow (List.mem_singleton.mp hnew)
          hash_unique := by
            rw [List.map_append]
            refine List.Nodup.append table.hash_unique (List.nodup_singleton _)
              fun hash hh hnew => ?_
            obtain ⟨row, hrow, rfl⟩ := List.mem_map.mp hh
            exact h.2 row hrow (List.mem_singleton.mp hnew)
          kept := by
            intro row hrow
            rcases List.mem_append.mp hrow with hrow | hrow
            · exact table.kept row hrow
            · rw [List.mem_singleton.mp hrow]
              exact record.isKept_reread }
    else .error .integrity
  else .error .data

/-- The record with the snapshot of its actor. -/
def AuditLog.labelled (record : AuditLog) : AuditLog :=
  { record with
    actorLabel := match record.actor with
      | some actor => if record.actorLabel = [] then actor.email else record.actorLabel
      | none => record.actorLabel }

/-- The record with its label and its two hashes, as `save` sends it to the database. -/
def AuditTable.chain (table : AuditTable) (record : AuditLog) : AuditLog :=
  let linked := { record.labelled with previousHash := latestHash table.rows }
  { linked with recordHash := sha256 linked.hashInput }

/-- `AuditLog.save`; `adding` is false for a record that came from the database. -/
def AuditTable.save (isAddress : Text → Bool) (table : AuditTable) (record : AuditLog)
    (adding : Bool := true) : Except AuditError AuditTable :=
  if adding then table.insert isAddress (table.chain record) else .error .immutable

/-- Records saved one after the other. -/
def AuditTable.saveAll (isAddress : Text → Bool) (table : AuditTable) (records : List AuditLog) :
    Except AuditError AuditTable :=
  records.foldlM (fun table record => table.save isAddress record) table

/-! ## Verification -/

/-- The loop of `verify_chain`. -/
def verifyFrom : Text → List AuditLog → Bool × Option AuditLog
  | _, [] => (true, none)
  | expectedPrevious, record :: rest =>
      if record.previousHash ≠ expectedPrevious then (false, some record)
      else if sha256 record.hashInput ≠ record.recordHash then (false, some record)
      else verifyFrom record.recordHash rest

/-- `AuditLog.verify_chain()`: whether the chain is intact and the first broken record. -/
def AuditTable.verifyChain (table : AuditTable) : Bool × Option AuditLog :=
  verifyFrom genesisHash table.ordered

/-! ## The service -/

/-- Python's truth value of a JSON value. -/
def truthy : Json → Bool
  | .null => false
  | .bool b => b
  | .int n => n != 0
  | .float x => x.mantissa != 0
  | .str s => !s.isEmpty
  | .arr items => !items.isEmpty
  | .obj fields => !fields.isEmpty

/-- A call of `record_audit_event` with what it takes from its surroundings: the clock, the
generated primary key and the context of the request.  `target` is the content type and
`str` of the primary key. -/
structure Call extends RequestContext where
  id : Uuid
  now : DateTime
  action : Text
  actor : Option User
  tenant : Option Uuid
  target : Option (ℕ × Text)
  before : Json
  after : Json
  metadata : Json

/-- The record that `record_audit_event` creates. -/
def Call.record (call : Call) : AuditLog where
  toRequestContext := call.toRequestContext
  id := call.id
  createdAt := call.now
  actor := call.actor
  actorLabel := []
  tenantId := call.tenant
  action := call.action
  contentTypeId := call.target.map (·.1)
  objectId := match call.target with
    | none => []
    | some target => target.2
  before := call.before
  after := call.after
  metadata := if truthy call.metadata then call.metadata else .obj []
  previousHash := []
  recordHash := []

/-- `apps.audit.services.record_audit_event`. -/
def recordAuditEvent (isAddress : Text → Bool) (table : AuditTable) (call : Call) :
    Except AuditError AuditTable :=
  table.save isAddress call.record

/-- The table after an operation that leaves it as it was when it raises. -/
def AuditTable.after (table : AuditTable) : Except AuditError AuditTable → AuditTable
  | .ok table' => table'
  | .error _ => table

/-- Calls made one at a time. -/
def recordAuditEvents (isAddress : Text → Bool) (calls : List Call) : AuditTable :=
  calls.foldl (fun table call => table.after (recordAuditEvent isAddress table call))
    AuditTable.empty

/-! ## Deletion of users -/

def AuditLog.forgetActor (users : Uuid → Bool) (record : AuditLog) : AuditLog :=
  { record with actor := record.actor.filter fun user => !users user.id }

/-- `on_delete=SET_NULL` of the `actor` column. -/
def AuditTable.deleteUsers (table : AuditTable) (users : Uuid → Bool) : AuditTable where
  rows := table.rows.map (AuditLog.forgetActor users)
  id_unique := by
    rw [List.map_map]
    exact table.id_unique
  hash_unique := by
    rw [List.map_map]
    exact table.hash_unique
  kept := by
    intro row hrow
    obtain ⟨original, horiginal, rfl⟩ := List.mem_map.mp hrow
    exact table.kept original horiginal

end Kusanya.Audit
