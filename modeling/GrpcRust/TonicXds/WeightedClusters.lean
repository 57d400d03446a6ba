import Mathlib.Data.UInt
import GrpcRust.Lib.WeightedDraw
import GrpcRust.TonicXds.RouteConfig
/-!
# Weighted clusters

`select_weighted_cluster` of `xds/routing.rs`. The validator lets weights through that are all zero or overflow a
32-bit sum.
-/

namespace TonicXds.Rds

open Lib List

/-- The loop, which adds up the weights from the first cluster on; a cluster is given by its index. -/
def scanClusters (random : UInt64) : UInt64 → Nat → List WeightedCluster → Option Nat
  | _, _, [] => none
  | acc, i, cluster :: clusters =>
    let acc := acc + cluster.weight.toUInt64
    if random < acc then some i else scanClusters random acc (i + 1) clusters

def clusterTotal (clusters : List WeightedCluster) : UInt64 := (clusters.map (·.weight.toUInt64)).sum

def drawBound (clusters : List WeightedCluster) : Nat :=
  if clusterTotal clusters = 0 then clusters.length else (clusterTotal clusters).toNat

def selectWeightedCluster (clusters : List WeightedCluster) (draw : UInt64) : Except String (Option Nat) :=
  if clusters.isEmpty then .ok none
  else if clusterTotal clusters = 0 then .ok (some draw.toNat)
  else
    match scanClusters draw 0 0 clusters with
    | some i => .ok (some i)
    | none => .error "internal error: entered unreachable code"

/-! ## The loop and the intervals of the weights -/

def weights (clusters : List WeightedCluster) : List Nat := clusters.map (·.weight.toNat)

variable {clusters : List WeightedCluster}

theorem scanClusters_eq {acc r : UInt64} (i : Nat)
    (hf : acc.toNat + (weights clusters).sum < 2 ^ 64) (hle : acc.toNat ≤ r.toNat) :
    scanClusters r acc i clusters = (drawIndex (weights clusters) (r.toNat - acc.toNat)).map (· + i) := by
  induction clusters generalizing acc i with
  | nil => rfl
  | cons c clusters ih =>
    have hs : (weights (c :: clusters)).sum = c.weight.toNat + (weights clusters).sum := sum_cons
    have ha : (acc + c.weight.toUInt64).toNat = acc.toNat + c.weight.toNat := by
      rw [UInt64.toNat_add, UInt32.toNat_toUInt64]
      exact Nat.mod_eq_of_lt (by omega)
    rw [scanClusters]
    have hc : weights (c :: clusters) = c.weight.toNat :: weights clusters := rfl
    rw [hc]
    split_ifs with hlt
    · rw [UInt64.lt_iff_toNat_lt, ha] at hlt
      rw [drawIndex_of_lt _ (by omega), Option.map_some, Nat.zero_add]
    · rw [UInt64.lt_iff_toNat_lt, ha, Nat.not_lt] at hlt
      rw [ih (i + 1) (by omega) (by omega), ha]
      obtain ⟨rest, hrest⟩ := Nat.exists_eq_add_of_le hlt
      have hd : r.toNat - acc.toNat = c.weight.toNat + rest := by omega
      have hd' : r.toNat - (acc.toNat + c.weight.toNat) = rest := by omega
      rw [hd, hd', drawIndex_add, Option.map_map]
      refine congrArg (Option.map · (drawIndex (weights clusters) rest)) (funext fun j => ?_)
      rw [Function.comp_apply]
      omega

theorem toNat_clusterTotal (h : (weights clusters).sum < 2 ^ 64) :
    (clusterTotal clusters).toNat = (weights clusters).sum := by
  induction clusters with
  | nil => rfl
  | cons c clusters ih =>
    have hs : (weights (c :: clusters)).sum = c.weight.toNat + (weights clusters).sum := sum_cons
    have ht : clusterTotal (c :: clusters) = c.weight.toUInt64 + clusterTotal clusters := sum_cons
    rw [ht, UInt64.toNat_add, UInt32.toNat_toUInt64, ih (by omega), hs]
    exact Nat.mod_eq_of_lt (by omega)

theorem selectWeightedCluster_eq {cs : List WeightedCluster} (hp : 0 < (weights cs).sum)
    (hf : (weights cs).sum < 2 ^ 64) {d : UInt64} (hd : d.toNat < (weights cs).sum) :
    selectWeightedCluster cs d = .ok (drawIndex (weights cs) d.toNat) := by
  have hn : cs.isEmpty = false := by
    cases cs with
    | nil => exact absurd hp (Nat.lt_irrefl 0)
    | cons c cs => rfl
  have ht : clusterTotal cs ≠ 0 := by
    intro hz
    have := toNat_clusterTotal hf
    rw [hz, UInt64.toNat_zero] at this
    omega
  have hs : scanClusters d 0 0 cs = drawIndex (weights cs) d.toNat := by
    rw [scanClusters_eq 0 (by rw [UInt64.toNat_zero]; omega) (by rw [UInt64.toNat_zero]; omega), UInt64.toNat_zero,
      Nat.sub_zero]
    exact Option.map_id'
  obtain ⟨i, hi⟩ := exists_drawIndex hd
  rw [selectWeightedCluster, hn, if_neg Bool.false_ne_true, if_neg ht, hs, hi]

theorem ne_nil_of_accepted {ra : Envoy.RouteAction}
    (h : validateRouteAction ra = .ok (some (.weightedClusters clusters))) : clusters ≠ [] := by
  rintro rfl
  unfold validateRouteAction at h
  split at h
  · split at h <;> cases h
  · rename_i wc _
    cases wc with
    | nil => cases h
    | cons c wc => cases h
  · cases h
  · cases h

/-- The total fits in 32 bits, and each cluster, by its position, has exactly as many of the draws as its weight; no
draw reaches the end of the loop or a cluster of weight zero. -/
structure ExactDraws (clusters : List WeightedCluster) : Prop where
  fits : (weights clusters).sum < 2 ^ 32
  total : (clusterTotal clusters).toNat = (weights clusters).sum
  bound : drawBound clusters = (weights clusters).sum
  selects : ∀ draw : UInt64, draw.toNat < drawBound clusters → ∃ i cl,
    selectWeightedCluster clusters draw = .ok (some i) ∧ clusters[i]? = some cl ∧ 0 < cl.weight
  count : ∀ i cl, clusters[i]? = some cl →
    Nat.count (fun draw => selectWeightedCluster clusters (UInt64.ofNat draw) = .ok (some i)) (drawBound clusters) =
      cl.weight.toNat

theorem exactDraws_of_sum (hpos : 0 < (weights clusters).sum) (hfits : (weights clusters).sum < 2 ^ 32) :
    ExactDraws clusters := by
  have hf' : (weights clusters).sum < 2 ^ 64 := hfits.trans (by norm_num)
  have ht := toNat_clusterTotal hf'
  have hb : drawBound clusters = (weights clusters).sum := by
    rw [drawBound, if_neg, ht]
    intro hz
    rw [hz, UInt64.toNat_zero] at ht
    omega
  refine ⟨hfits, ht, hb, fun draw hd => ?_, fun i cl hcl => ?_⟩
  · rw [hb] at hd
    obtain ⟨i, hi⟩ := exists_drawIndex hd
    obtain ⟨hlt, hle, hlt'⟩ := drawIndex_bounds hi
    rw [weights, length_map] at hlt
    refine ⟨i, clusters[i], (selectWeightedCluster_eq hpos hf' hd).trans (congrArg Except.ok hi),
      getElem?_eq_getElem hlt, ?_⟩
    -- The interval of the draw is not empty.
    rw [take_add_one, weights, getElem?_map, getElem?_eq_getElem hlt, sum_append] at hlt'
    have hs : (Option.map (fun c : WeightedCluster => c.weight.toNat) (some clusters[i])).toList.sum =
        clusters[i].weight.toNat := sum_singleton
    rw [hs] at hlt'
    refine UInt32.lt_iff_toNat_lt.2 ?_
    rw [weights] at hle
    rw [UInt32.toNat_zero]
    omega
  · have hc := count_drawIndex (weights clusters) i
    rw [weights, getElem?_map, hcl] at hc
    rw [hb]
    refine Eq.trans ?_ hc
    rw [Nat.count_eq_card_filter_range, Nat.count_eq_card_filter_range]
    refine congrArg Finset.card (Finset.filter_congr fun draw hd => ?_)
    rw [Finset.mem_range] at hd
    have hon : (UInt64.ofNat draw).toNat = draw := UInt64.toNat_ofNat_of_lt' (hd.trans hf')
    rw [selectWeightedCluster_eq hpos hf' (hon.symm ▸ hd), hon, Except.ok.injEq]
    rfl

/-- Without any weight the first index drawn names a cluster of weight zero. -/
theorem sum_pos_of_exactDraws (hne : clusters ≠ []) (h : ExactDraws clusters) : 0 < (weights clusters).sum := by
  by_contra hsum
  have hz : (weights clusters).sum = 0 := by omega
  have htotal : clusterTotal clusters = 0 := by
    rw [← UInt64.toNat_inj, h.total, hz]
    rfl
  have hbound : (0 : UInt64).toNat < drawBound clusters := by
    rw [drawBound, if_pos htotal]
    exact length_pos_iff.2 hne
  obtain ⟨i, cl, -, hcl, hw⟩ := h.selects 0 hbound
  have hmem : cl.weight.toNat ∈ weights clusters := mem_map_of_mem (mem_of_getElem? hcl)
  have := List.sum_eq_zero_iff.1 hz _ hmem
  rw [UInt32.lt_iff_toNat_lt, this] at hw
  exact absurd hw (Nat.lt_irrefl 0)

/-- Draws are exact for an accepted action exactly if its weights have a positive 32-bit sum. -/
theorem weighted_clusters_exact {ra : Envoy.RouteAction} {clusters : List WeightedCluster}
    (haccepted : validateRouteAction ra = .ok (some (.weightedClusters clusters))) :
    ExactDraws clusters ↔ 0 < (weights clusters).sum ∧ (weights clusters).sum < 2 ^ 32 :=
  ⟨fun h => ⟨sum_pos_of_exactDraws (ne_nil_of_accepted haccepted) h, h.fits⟩,
    fun ⟨hpos, hfits⟩ => exactDraws_of_sum hpos hfits⟩

def weightedAction (weights : List UInt32) : Envoy.RouteAction :=
  ⟨some (.weightedClusters (weights.map fun weight => ⟨Bytes.utf8 "cluster", some weight⟩)), none⟩

def weightedClusters (weights : List UInt32) : List WeightedCluster :=
  weights.map fun weight => ⟨Bytes.utf8 "cluster", weight⟩

theorem weighted_clusters_exact_zero :
    validateRouteAction (weightedAction [2, 0, 1]) = .ok (some (.weightedClusters (weightedClusters [2, 0, 1]))) ∧
      Nat.count (fun d => selectWeightedCluster (weightedClusters [2, 0, 1]) (UInt64.ofNat d) = .ok (some 0))
        (drawBound (weightedClusters [2, 0, 1])) = 2 := by
  have ha : validateRouteAction (weightedAction [2, 0, 1]) =
      .ok (some (.weightedClusters (weightedClusters [2, 0, 1]))) := rfl
  exact ⟨ha, ((weighted_clusters_exact ha).2 ⟨by decide, by decide⟩).count 0 _ rfl⟩

/-- A sum of 33 bits is accepted, and weights that are all zero, one of which is selected. -/
theorem weighted_clusters_unchecked : validateRouteAction (weightedAction [4294967295, 1]) =
        .ok (some (.weightedClusters (weightedClusters [4294967295, 1]))) ∧
      clusterTotal (weightedClusters [4294967295, 1]) = 2 ^ 32 ∧
      validateRouteAction (weightedAction [0, 0]) = .ok (some (.weightedClusters (weightedClusters [0, 0]))) ∧
      selectWeightedCluster (weightedClusters [0, 0]) 1 = .ok (some 1) ∧
      (weightedClusters [0, 0])[1]?.map (·.weight) = some 0 :=
  ⟨rfl, by decide, rfl, by decide, rfl⟩

end TonicXds.Rds
