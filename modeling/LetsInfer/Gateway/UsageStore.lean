import LetsInfer.Gateway.State

/-! @src core/node/src/li_gateway_usage_database.rs | name:Durable usage store | scheme:store

    Completed usage, one record per request identity. Writing an identity again succeeds only with
    the same content; reading a window filters by key and completion and sorts by completion, then
    identity. The textual form of a record is not modelled: every record written here was built from
    valid identities and parses back to itself. -/

namespace LetsInfer.Gateway

def maximumUsageRecords : ℕ := 1000000

structure UsageDatabase where
  records : List GatewayUsageRecord := []
  identities : (records.map (·.requestId)).Nodup := by simp

/-- `DatabaseGatewayUsageStore::record`: creation, exact replay, or a refused conflict. -/
def UsageDatabase.record (database : UsageDatabase) (usage : GatewayUsageRecord) :
    Except GatewayError Unit × UsageDatabase :=
  match h : database.records.find? fun known => known.requestId = usage.requestId with
  | some known =>
    if known = usage then (.ok (), database)
    else (.error (.provider "usage" "Gateway usage persistence is unavailable"), database)
  | none =>
    (.ok (),
      { records := database.records ++ [usage]
        identities := by
          have hnew : ∀ known ∈ database.records, known.requestId ≠ usage.requestId := by
            simpa using h
          rw [List.map_append, List.nodup_append]
          refine ⟨database.identities, by simp, ?_⟩
          simpa using hnew })

/-- The order of a usage window: completion time, then request identity. -/
def usageBefore (left right : GatewayUsageRecord) : Prop :=
  ((compare left.completedAt right.completedAt).then
    (compare left.requestId.value right.requestId.value)) ≠ .gt

instance : DecidableRel usageBefore := fun _ _ =>
  inferInstanceAs (Decidable (_ ≠ Ordering.gt))

/-- The records of a key completed at or after `since`, in store order. -/
def UsageDatabase.matching (database : UsageDatabase) (keyId : ApiKeyId) (since : ℕ) :
    List GatewayUsageRecord :=
  (database.records.filter fun usage =>
    usage.keyId = keyId ∧ since ≤ usage.completedAt).insertionSort usageBefore

def UsageDatabase.recent (database : UsageDatabase) (keyId : ApiKeyId) (since : ℕ) :
    Except GatewayError (List GatewayUsageRecord) :=
  if database.records.length > maximumUsageRecords then
    .error (.provider "usage" "Gateway usage collection exceeds its bound")
  else .ok (database.matching keyId since)

/-! ### The order of a window -/

theorem usageBefore_iff {l r : GatewayUsageRecord} : usageBefore l r ↔
    l.completedAt < r.completedAt ∨
      l.completedAt = r.completedAt ∧ l.requestId.value ≤ r.requestId.value := by
  unfold usageBefore
  rcases lt_trichotomy l.completedAt r.completedAt with h | h | h
  · simp [compare_lt_iff_lt.mpr h, h]
  · simp only [h, compare_eq_iff_eq.mpr, Ordering.then, lt_irrefl, true_and, false_or]
    rw [Ne, compare_gt_iff_gt, not_lt]
  · simp [compare_gt_iff_gt.mpr h, not_lt.mpr h.le, h.ne']

instance : Std.Total usageBefore where
  total l r := by
    simp only [usageBefore_iff]
    rcases lt_trichotomy l.completedAt r.completedAt with h | h | h
    · exact .inl (.inl h)
    · exact (le_total l.requestId.value r.requestId.value).imp (fun hs => .inr ⟨h, hs⟩)
        fun hs => .inr ⟨h.symm, hs⟩
    · exact .inr (.inl h)

instance : IsTrans GatewayUsageRecord usageBefore where
  trans a b c hab hbc := by
    simp only [usageBefore_iff] at *
    rcases hab with hab | ⟨hab, hab'⟩
    · rcases hbc with hbc | ⟨hbc, -⟩
      · exact .inl (hab.trans hbc)
      · exact .inl (hbc ▸ hab)
    · rcases hbc with hbc | ⟨hbc, hbc'⟩
      · exact .inl (hab ▸ hbc)
      · exact .inr ⟨hab.trans hbc, hab'.trans hbc'⟩

section Window

variable (database : UsageDatabase) (k : ApiKeyId) (since : ℕ)

theorem matching_perm : (database.matching k since).Perm
    (database.records.filter fun u => u.keyId = k ∧ since ≤ u.completedAt) :=
  List.perm_insertionSort _ _

theorem matching_sorted : (database.matching k since).Pairwise usageBefore :=
  List.pairwise_insertionSort _ _

theorem matching_sorted_completedAt :
    (database.matching k since).Pairwise fun l r => l.completedAt ≤ r.completedAt := by
  refine (matching_sorted database k since).imp fun h => ?_
  rcases usageBefore_iff.mp h with h | ⟨h, -⟩ <;> exact h.le

variable {database k since} in
theorem mem_matching {u : GatewayUsageRecord} :
    u ∈ database.matching k since ↔ u ∈ database.records ∧ u.keyId = k ∧ since ≤ u.completedAt := by
  rw [(matching_perm database k since).mem_iff]
  simp

end Window

end LetsInfer.Gateway
