import Kusanya.Model.Audit

/-!
# The canonical payload determines the hashed fields

Every column that `_canonical_payload` writes can be read off its text; of the JSON
columns only the order of the fields is lost.
-/

namespace Kusanya.Audit

open Support

/-! ## Uuids and timestamps -/

theorem Uuid.str_injective : Function.Injective Uuid.str := by
  intro u v h
  obtain ⟨h₁, h⟩ := List.append_inj h (by simp)
  obtain ⟨h₂, h⟩ := List.append_inj (List.cons.inj h).2 (by simp)
  obtain ⟨h₃, h⟩ := List.append_inj (List.cons.inj h).2 (by simp)
  obtain ⟨h₄, h⟩ := List.append_inj (List.cons.inj h).2 (by simp)
  have h₅ := (List.cons.inj h).2
  have hu := u.isLt
  have hv := v.isLt
  have h₁ := Text.fixed_mod (by decide) (by decide) h₁
  have h₂ := Text.fixed_mod (by decide) (by decide) h₂
  have h₃ := Text.fixed_mod (by decide) (by decide) h₃
  have h₄ := Text.fixed_mod (by decide) (by decide) h₄
  have h₅ := Text.fixed_mod (by decide) (by decide) h₅
  apply Fin.ext
  omega

theorem DateTime.isoformat_injective : Function.Injective DateTime.isoformat := by
  intro s t h
  obtain ⟨hyear, h⟩ := List.append_inj h (by simp)
  obtain ⟨hmonth, h⟩ := List.append_inj (List.cons.inj h).2 (by simp)
  obtain ⟨hday, h⟩ := List.append_inj (List.cons.inj h).2 (by simp)
  obtain ⟨hhour, h⟩ := List.append_inj (List.cons.inj h).2 (by simp)
  obtain ⟨hminute, h⟩ := List.append_inj (List.cons.inj h).2 (by simp)
  obtain ⟨hsecond, h⟩ := List.append_inj (List.cons.inj h).2 (by simp)
  have hmicro := List.append_cancel_right h
  have hs := s.date
  have ht := t.date
  have hs' := s.time
  have ht' := t.time
  have hfield : ∀ {width m n : ℕ}, m < 10 ^ width → n < 10 ^ width →
      Text.fixed 10 width m = Text.fixed 10 width n → m = n :=
    fun hm hn h => Text.fixed_injective (by decide) (by decide) hm hn h
  have hmicrosecond : s.microsecond = t.microsecond := by
    by_cases hs₀ : s.microsecond = 0 <;> by_cases ht₀ : t.microsecond = 0
    · rw [hs₀, ht₀]
    · simp [hs₀, ht₀] at hmicro
    · simp [hs₀, ht₀] at hmicro
    · rw [if_neg hs₀, if_neg ht₀] at hmicro
      exact hfield hs'.2.2.2 ht'.2.2.2 (List.cons.inj hmicro).2
  have hyear := hfield (by omega) (by omega) hyear
  have hmonth := hfield (by omega) (by omega) hmonth
  have hday := hfield (s.day_lt.trans (by decide)) (t.day_lt.trans (by decide)) hday
  have hhour := hfield (by omega) (by omega) hhour
  have hminute := hfield (by omega) (by omega) hminute
  have hsecond := hfield (by omega) (by omega) hsecond
  apply DateTime.ticks_injective
  rw [DateTime.ticks, DateTime.ticks, hyear, hmonth, hday, hhour, hminute, hsecond, hmicrosecond]

/-! ## The payload -/

/-- What a record hash covers; the order of the fields of an object is not part of it. -/
structure HashedFields where
  action : Text
  actorLabel : Text
  tenantId : Option Uuid
  contentTypeId : Option ℕ
  objectId : Text
  before : Json
  after : Json
  metadata : Json
  correlationId : Text
  createdAt : DateTime

def AuditLog.hashedFields (record : AuditLog) : HashedFields where
  action := record.action
  actorLabel := record.actorLabel
  tenantId := record.tenantId
  contentTypeId := record.contentTypeId
  objectId := record.objectId
  before := record.before.sortKeys
  after := record.after.sortKeys
  metadata := record.metadata.sortKeys
  correlationId := record.correlationId
  createdAt := record.createdAt

theorem sortKeys_payload (action label tenant contentType object before after metadata correlation
    created : Json) :
    JsonOf.sortKeys (.obj
      [("action".toList, action), ("actor_label".toList, label), ("tenant_id".toList, tenant),
       ("content_type_id".toList, contentType), ("object_id".toList, object),
       ("before".toList, before), ("after".toList, after), ("metadata".toList, metadata),
       ("correlation_id".toList, correlation), ("created_at".toList, created)]) =
    .obj
      [("action".toList, action.sortKeys), ("actor_label".toList, label.sortKeys),
       ("after".toList, after.sortKeys), ("before".toList, before.sortKeys),
       ("content_type_id".toList, contentType.sortKeys),
       ("correlation_id".toList, correlation.sortKeys), ("created_at".toList, created.sortKeys),
       ("metadata".toList, metadata.sortKeys), ("object_id".toList, object.sortKeys),
       ("tenant_id".toList, tenant.sortKeys)] := by
  have hle : "correlation_id".toList ≤ "created_at".toList ∧
      "after".toList ≤ "correlation_id".toList ∧ "before".toList ≤ "correlation_id".toList ∧
      "content_type_id".toList ≤ "correlation_id".toList ∧
      "actor_label".toList ≤ "after".toList ∧ "action".toList ≤ "actor_label".toList := by
    decide +kernel
  have hnot : (¬"metadata".toList ≤ "correlation_id".toList ∧
      ¬"metadata".toList ≤ "created_at".toList) ∧ ¬"before".toList ≤ "after".toList ∧
      (∀ key ∈ ["after".toList, "before".toList, "correlation_id".toList, "created_at".toList,
        "metadata".toList], ¬"object_id".toList ≤ key) ∧
      (∀ key ∈ ["after".toList, "before".toList], ¬"content_type_id".toList ≤ key) ∧
      ∀ key ∈ ["after".toList, "before".toList, "content_type_id".toList,
        "correlation_id".toList, "created_at".toList, "metadata".toList, "object_id".toList],
        ¬"tenant_id".toList ≤ key := by
    decide +kernel
  -- the names themselves are not looked at again
  generalize "action".toList = k₁, "actor_label".toList = k₂, "after".toList = k₃,
    "before".toList = k₄, "content_type_id".toList = k₅, "correlation_id".toList = k₆,
    "created_at".toList = k₇, "metadata".toList = k₈, "object_id".toList = k₉,
    "tenant_id".toList = k₁₀ at hle hnot ⊢
  simp only [List.forall_mem_cons, List.not_mem_nil, false_implies, implies_true, and_true] at hnot
  simp only [JsonOf.sortKeys, JsonOf.sortFields, JsonOf.insertField, List.orderedInsert_nil,
    List.orderedInsert_cons, hle, hnot, if_true, if_false]

theorem sortKeys_label {l l' : Text}
    (h : (if l = [] then JsonOf.null else .str l).sortKeys =
      (if l' = [] then JsonOf.null else .str l').sortKeys) : l = l' := by
  by_cases hl : l = [] <;> by_cases hl' : l' = []
  · rw [hl, hl']
  · rw [if_pos hl, if_neg hl'] at h
    cases h
  · rw [if_neg hl, if_pos hl'] at h
    cases h
  · rw [if_neg hl, if_neg hl'] at h
    exact JsonOf.str.inj h

/-- The payload determines the hashed fields. -/
theorem hashedFields_eq {r s : AuditLog} (h : r.canonicalPayload = s.canonicalPayload) :
    r.hashedFields = s.hashedFields := by
  have hsorted := JsonOf.dumps_eq_iff.mp h
  rw [sortKeys_payload, sortKeys_payload] at hsorted
  simp only [JsonOf.obj.injEq, List.cons.injEq, Prod.mk.injEq, true_and, and_true] at hsorted
  obtain ⟨haction, hlabel, hafter, hbefore, hcontent, hcorrelation, hcreated, hmetadata, hobject,
    htenant⟩ := hsorted
  have haction : r.action = s.action := JsonOf.str.inj haction
  have hobject : r.objectId = s.objectId := JsonOf.str.inj hobject
  have hcorrelation : r.correlationId = s.correlationId := JsonOf.str.inj hcorrelation
  have hcreated : r.createdAt = s.createdAt :=
    DateTime.isoformat_injective (JsonOf.str.inj hcreated)
  have hcontent : r.contentTypeId = s.contentTypeId := by
    cases hr : r.contentTypeId <;> cases hs : s.contentTypeId <;> simp only [hr, hs] at hcontent
    · rfl
    · cases hcontent
    · cases hcontent
    · rw [Int.ofNat_inj.mp (JsonOf.int.inj hcontent)]
  have htenant : r.tenantId = s.tenantId := by
    cases hr : r.tenantId <;> cases hs : s.tenantId <;> simp only [hr, hs] at htenant
    · rfl
    · cases htenant
    · cases htenant
    · rw [Uuid.str_injective (JsonOf.str.inj htenant)]
  simp only [AuditLog.hashedFields, haction, sortKeys_label hlabel, htenant, hcontent, hobject,
    hbefore, hafter, hmetadata, hcorrelation, hcreated]

theorem AuditLog.reread_eq {record : AuditLog} (h : record.isKept = true) :
    record.reread = record := by
  simp only [isKept, Bool.and_eq_true] at h
  rw [reread, JsonOf.jsonb_eq _ h.1.1, JsonOf.jsonb_eq _ h.1.2, JsonOf.jsonb_eq _ h.2]

/-- The row read back has the payload that was hashed exactly if `jsonb` keeps its JSON. -/
theorem canonicalPayload_reread (record : AuditLog) :
    record.reread.canonicalPayload = record.canonicalPayload ↔ record.isKept = true := by
  constructor
  · intro h
    have hfields := hashedFields_eq h
    have hbefore := congrArg HashedFields.before hfields
    have hafter := congrArg HashedFields.after hfields
    have hmetadata := congrArg HashedFields.metadata hfields
    simp only [AuditLog.isKept, Bool.and_eq_true, ← JsonOf.dumps_jsonb_iff, JsonOf.dumps_eq_iff]
    exact ⟨⟨hbefore, hafter⟩, hmetadata⟩
  · intro h
    rw [AuditLog.reread_eq h]

end Kusanya.Audit
