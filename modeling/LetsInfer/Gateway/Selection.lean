import LetsInfer.Gateway.Invariant
import LetsInfer.Schemes.Choice

/-! @src core/gateway/src/li_gateway_manager.rs | name:Route selection | scheme:choice

    `select_route` filters the routes by four gates, sorts what is left with a stable sort and takes
    the first. The comparison is the order of a key of four parts, so the selected route has the
    least key. The key stops at the node: two placement groups of one node can have the same key,
    and then the order of the snapshot decides between them. -/

namespace LetsInfer.Gateway
open Schemes

/-- Every gate a route passes before it is compared. -/
def admissible (state : GatewayState) (request : GatewayRequest) (now : ℕ) (route : GatewayRoute) :
    Bool :=
  hasCapacity state route && (isRoutable state now route &&
    (decide (request.tokenDemand ≤ route.maxContextTokens.1) &&
      (route.healthy && !route.memoryPressure)))

/-- What routes are ranked by: prefix locality or live affinity first, then the share of the slots
    in use, then the known temperature, then the node. -/
def routeKey (state : GatewayState) (request : GatewayRequest) (now : ℕ) (route : GatewayRoute) :
    Bool ×ₗ ℚ ×ₗ ℕ ×ₗ String :=
  toLex (!hasPrefix request (affinityOf state request now) route,
    toLex ((state.routeActive.amount route.placementGroupId : ℚ) / route.maxActiveRequests.1,
      toLex (route.temperatureMillicelsius.getD (2 ^ 32 - 1), route.endpointNodeId.value)))

def ranks (state : GatewayState) (request : GatewayRequest) (now : ℕ) (a b : GatewayRoute) : Prop :=
  compareRoutes state request (affinityOf state request now) a b ≠ .gt

instance (state : GatewayState) (request : GatewayRequest) (now : ℕ) :
    DecidableRel (ranks state request now) :=
  fun _ _ => inferInstanceAs (Decidable (_ ≠ _))

variable {state : GatewayState} {request : GatewayRequest} {routes routes' : List GatewayRoute}
  {now : ℕ} {a b route : GatewayRoute}

theorem then_ne_gt {α : Type} [LinearOrder α] {a b : α} {o : Ordering} :
    (compare a b).then o ≠ .gt ↔ a < b ∨ a = b ∧ o ≠ .gt := by
  rcases lt_trichotomy a b with h | rfl | h
  · simp [compare_lt_iff_lt.mpr h, h, Ordering.then]
  · simp [Ordering.then]
  · simp [compare_gt_iff_gt.mpr h, h.not_gt, h.ne', Ordering.then]

/-- The comparison, which multiplies across, is the order of the keys. -/
theorem ranks_iff : ranks state request now a b ↔
    routeKey state request now a ≤ routeKey state request now b := by
  have hpos : ∀ route : GatewayRoute, (0 : ℚ) < route.maxActiveRequests.1 :=
    fun route => Nat.cast_pos.mpr route.maxActiveRequests.2.1
  simp only [ranks, compareRoutes, routeKey, then_ne_gt, compare_le_iff_le,
    Prod.Lex.toLex_le_toLex, div_lt_div_iff₀ (hpos a) (hpos b),
    div_eq_div_iff (hpos a).ne' (hpos b).ne']
  norm_cast

instance : Std.Total (ranks state request now) where
  total _ _ := by
    simp only [ranks_iff]
    exact le_total _ _

instance : IsTrans GatewayRoute (ranks state request now) where
  trans _ _ _ := by
    simp only [ranks_iff]
    exact le_trans

abbrev picked (state : GatewayState) (request : GatewayRequest) (now : ℕ)
    (routes : List GatewayRoute) : Option GatewayRoute :=
  pick (ranks state request now) (admissible state request now) routes

theorem selection_head (sorted : List GatewayRoute) :
    (match sorted with
      | [] => .ok .busy
      | route :: _ => .ok (.selected route) : Except GatewayError RouteSelection) =
      .ok (sorted.head?.elim .busy .selected) := by
  cases sorted <;> rfl

/-- The passes of the selection over the snapshot as one filter each. -/
theorem selectRoute_eq : selectRoute state request routes now =
    if routes.filter (fun route => route.healthy && !route.memoryPressure) = [] then .error .noRoute
    else if routes.filter (fun route => decide (request.tokenDemand ≤ route.maxContextTokens.1) &&
      (route.healthy && !route.memoryPressure)) = [] then .error .contextTooLarge
    else if routes.filter (fun route => isRoutable state now route &&
      (decide (request.tokenDemand ≤ route.maxContextTokens.1) &&
        (route.healthy && !route.memoryPressure))) = [] then .error .noRoute
    else .ok ((picked state request now routes).elim .busy .selected) := by
  unfold selectRoute picked pick admissible
  simp only [List.filter_filter]
  congr 3
  exact selection_head _

theorem selectRoute_selected_iff : selectRoute state request routes now = .ok (.selected route) ↔
    picked state request now routes = some route := by
  have hno : ∀ p : GatewayRoute → Bool, (∀ a, admissible state request now a = true → p a = true) →
      routes.filter p = [] → picked state request now routes = none := by
    intro p hp hnil
    refine pick_eq_none_iff.mpr fun a ha => Bool.eq_false_iff.mpr fun hadm => ?_
    exact List.filter_eq_nil_iff.mp hnil a ha (hp a hadm)
  rw [selectRoute_eq]
  split_ifs with hhea hcom hrou
  · simp [hno _ (by simp +contextual [admissible]) hhea]
  · simp [hno _ (by simp +contextual [admissible]) hcom]
  · simp [hno _ (by simp +contextual [admissible]) hrou]
  · cases picked state request now routes <;> simp

theorem selectRoute_congr (hperm : routes'.Perm routes)
    (hpick : picked state request now routes' = picked state request now routes) :
    selectRoute state request routes' now = selectRoute state request routes now := by
  have hnil : ∀ p : GatewayRoute → Bool, routes'.filter p = [] ↔ routes.filter p = [] := by
    simp only [List.filter_eq_nil_iff, hperm.mem_iff, implies_true]
  simp only [selectRoute_eq, hnil, hpick]

/-- Correct and independent of the order of the snapshot: the comparison is a total preorder, the
    order of the keys, what is selected is exactly an admissible route of least key, one is selected
    exactly if there is one, and no reordering changes the answer. -/
structure SelectsWell (state : GatewayState) (request : GatewayRequest)
    (routes : List GatewayRoute) (now : ℕ) : Prop where
  total : ∀ a b, ranks state request now a b ∨ ranks state request now b a
  trans : ∀ a b c, ranks state request now a b → ranks state request now b c →
    ranks state request now a c
  ordered : ∀ a b, ranks state request now a b ↔
    routeKey state request now a ≤ routeKey state request now b
  selected : ∀ route, selectRoute state request routes now = .ok (.selected route) ↔
    Best (fun a b => routeKey state request now a ≤ routeKey state request now b)
      (admissible state request now) routes route
  selects : (∃ route, selectRoute state request routes now = .ok (.selected route)) ↔
    ∃ route ∈ routes, admissible state request now route = true
  permuted : ∀ routes', routes'.Perm routes →
    selectRoute state request routes' now = selectRoute state request routes now

/-- SELECTION: correct and independent of the order exactly if no two admissible routes of the
    snapshot share the least key. -/
theorem selectRoute_selectsWell_iff : SelectsWell state request routes now ↔
    ∀ a ∈ routes, ∀ b ∈ routes, admissible state request now a = true →
      admissible state request now b = true →
      (∀ c ∈ routes, admissible state request now c = true →
        routeKey state request now a ≤ routeKey state request now c) →
      routeKey state request now a = routeKey state request now b → a = b := by
  have hran : ranks state request now =
      fun a b => routeKey state request now a ≤ routeKey state request now b := by
    ext a b
    exact ranks_iff
  constructor
  · intro h a ha b hb hadm hadB hlea hkey
    refine (pick_perm_iff (r := ranks state request now)).mp (fun routes' hperm => ?_) a b
      ⟨ha, hadm, ?_⟩ ⟨hb, hadB, ?_⟩
    · ext route
      rw [← selectRoute_selected_iff, h.permuted routes' hperm, selectRoute_selected_iff]
    · simpa only [ranks_iff] using hlea
    · simpa only [ranks_iff, hkey] using hlea
  · intro huni
    have hbest : ∀ a b, Best (ranks state request now) (admissible state request now) routes a →
        Best (ranks state request now) (admissible state request now) routes b → a = b := by
      intro a b ha hb
      have hab := ranks_iff.mp (ha.least b hb.mem hb.eligible)
      have hba := ranks_iff.mp (hb.least a ha.mem ha.eligible)
      exact huni a ha.mem b hb.mem ha.eligible hb.eligible
        (fun c hc hadt => ranks_iff.mp (ha.least c hc hadt)) (le_antisymm hab hba)
    refine ⟨total_of _, fun _ _ _ => trans_of _, fun _ _ => ranks_iff, ?_, ?_, ?_⟩
    · intro route
      rw [← hran, selectRoute_selected_iff, pick_eq_some_iff hbest]
    · simp only [selectRoute_selected_iff, exists_pick_iff]
    · exact fun routes' hperm => selectRoute_congr hperm (pick_perm_iff.mpr hbest routes' hperm)

/-- Two placement groups of one node, both idle: the order of the snapshot decides. -/
theorem two_groups_selected_by_order :
    let first : GatewayRoute := sampleRoute
    let second : GatewayRoute := { sampleRoute with placementGroupId := ⟨"h"⟩ }
    first.placementGroupId ≠ second.placementGroupId ∧
    selectRoute {} (sampleRequest "r") [first, second] 0 = .ok (.selected first) ∧
    selectRoute {} (sampleRequest "r") [second, first] 0 = .ok (.selected second) := by
  decide +kernel

end LetsInfer.Gateway
