import GrpcRust.Lib.PartitionPoint
import GrpcRust.Lib.WeightedDraw
/-!
# Weighted sampling

`sampling.rs`: binary search in the running sums; equal weights are looked up by index. Sums wrap around as in a
release build.
-/

namespace LoadBalancing

open Lib List

variable {T : Type} {im : List (T × UInt32)}

/-! ## `build` -/

structure Accumulated where
  cumulativeWeight : UInt64
  firstWeight : Option UInt32
  equalWeights : Bool

variable {acc : Accumulated}

def Accumulated.add (acc : Accumulated) (weight : UInt32) : Accumulated :=
  let first := acc.firstWeight.getD weight
  { cumulativeWeight := acc.cumulativeWeight + weight.toUInt64
    firstWeight := some first
    equalWeights := if first ≠ weight then false else acc.equalWeights }

def accumulate : Accumulated → List (T × UInt32) → List (UInt64 × T) × Accumulated
  | acc, [] => ([], acc)
  | acc, (item, weight) :: items =>
    let acc := acc.add weight
    let (rest, last) := accumulate acc items
    ((acc.cumulativeWeight, item) :: rest, last)

structure WeightedSampler (T : Type) where
  items : List (UInt64 × T)
  equalWeights : Bool

namespace WeightedSampler

def build (items : List (T × UInt32)) : WeightedSampler T :=
  let (items, acc) := accumulate ⟨0, none, true⟩ (items.filter fun entry => entry.2 > 0)
  ⟨items, acc.equalWeights⟩

/-! ## `next` -/

inductive Panic where
  | indexOutOfBounds
deriving DecidableEq

def sampleBound (s : WeightedSampler T) : Option UInt64 :=
  match s.items with
  | [] | [_] => none
  | items => if s.equalWeights then some (UInt64.ofNat items.length) else items.getLast?.map (·.1)

def next (s : WeightedSampler T) (draw : UInt64) : Except Panic (Option T) :=
  match s.items with
  | [] => .ok none
  | [(_, item)] => .ok (some item)
  | items =>
    let index := if s.equalWeights then draw.toNat else partitionPoint (fun entry => entry.1 ≤ draw) items
    match items[index]? with
    | some (_, item) => .ok (some item)
    | none => .error .indexOutOfBounds

def draws (s : WeightedSampler T) : Nat := (s.sampleBound.map UInt64.toNat).getD 1

end WeightedSampler

/-! ## The running sums -/

def entries (items : List (T × UInt32)) : List (T × Nat) := items.map fun entry => (entry.1, entry.2.toNat)

theorem accumulate_items (acc : Accumulated) (im : List (T × UInt32)) :
    (accumulate acc im).1.map Prod.snd = im.map Prod.fst := by
  induction im generalizing acc with
  | nil => rfl
  | cons e im ih => exact congrArg (e.1 :: ·) (ih (acc.add e.2))

theorem add_cumulativeWeight {w : UInt32} (h : acc.cumulativeWeight.toNat + w.toNat < 2 ^ 64) :
    (acc.add w).cumulativeWeight.toNat = acc.cumulativeWeight.toNat + w.toNat := by
  rw [Accumulated.add, UInt64.toNat_add, UInt32.toNat_toUInt64]
  exact Nat.mod_eq_of_lt h

theorem accumulate_sums (h : acc.cumulativeWeight.toNat + totalWeight (entries im) < 2 ^ 64) {i : Nat}
    (hi : i < im.length) : ((accumulate acc im).1[i]?.map fun e => e.1.toNat) =
      some (acc.cumulativeWeight.toNat + totalWeight ((entries im).take (i + 1))) := by
  induction im generalizing acc i with
  | nil => exact absurd hi (Nat.not_lt_zero i)
  | cons e im ih =>
    have ht : totalWeight (entries (e :: im)) = e.2.toNat + totalWeight (entries im) := totalWeight_cons _ _
    have hf : acc.cumulativeWeight.toNat + e.2.toNat < 2 ^ 64 := by omega
    have ha := add_cumulativeWeight hf
    cases i with
    | zero => exact congrArg some ha
    | succ i =>
      have hf' : (acc.add e.2).cumulativeWeight.toNat + totalWeight (entries im) < 2 ^ 64 := by omega
      have hrest := ih hf' (Nat.lt_of_succ_lt_succ hi)
      refine hrest.trans (congrArg some ?_)
      have htk : totalWeight ((entries (e :: im)).take (i + 1 + 1)) =
          e.2.toNat + totalWeight ((entries im).take (i + 1)) := totalWeight_cons _ _
      omega

theorem accumulate_equalWeights (h : (accumulate acc im).2.equalWeights = true) :
    acc.equalWeights = true ∧ ∃ weight, (∀ first, acc.firstWeight = some first → first = weight) ∧
      ∀ e ∈ im, e.2 = weight := by
  induction im generalizing acc with
  | nil =>
    refine ⟨h, acc.firstWeight.getD 0, fun first hf => ?_, fun e hen => absurd hen not_mem_nil⟩
    rw [hf]
    rfl
  | cons e im ih =>
    have ht : (accumulate (acc.add e.2) im).2.equalWeights = true := h
    obtain ⟨he, weight, hf, hrest⟩ := ih ht
    have hw : acc.firstWeight.getD e.2 = weight := hf _ rfl
    rw [Accumulated.add] at he
    split_ifs at he with hne
    rw [not_not] at hne
    refine ⟨he, weight, fun first hs => ?_, ?_⟩
    · rw [hs] at hw
      exact hw
    · rw [forall_mem_cons]
      exact ⟨hne.symm.trans hw, hrest⟩

def positive (items : List (T × UInt32)) : List (T × UInt32) := items.filter fun entry => entry.2 > 0

theorem totalWeight_positive (im : List (T × UInt32)) :
    totalWeight (entries (positive im)) = totalWeight (entries im) := by
  induction im with
  | nil => rfl
  | cons e im ih =>
    rw [positive, filter_cons]
    split_ifs with hp
    · exact (totalWeight_cons _ _).trans ((congrArg _ ih).trans (totalWeight_cons _ _).symm)
    · have hz : e.2.toNat = 0 := Nat.eq_zero_of_not_pos fun h => hp (decide_eq_true h)
      refine ih.trans (((totalWeight_cons _ _).trans ?_).symm)
      dsimp only
      rw [hz, Nat.zero_add]
      rfl

theorem weightOf_positive [DecidableEq T] (im : List (T × UInt32)) (item : T) :
    weightOf (entries (positive im)) item = weightOf (entries im) item := by
  induction im with
  | nil => rfl
  | cons e im ih =>
    rw [positive, filter_cons]
    split_ifs with hp
    · exact (weightOf_cons _ _ item).trans ((congrArg _ ih).trans (weightOf_cons _ _ item).symm)
    · have hz : e.2.toNat = 0 := Nat.eq_zero_of_not_pos fun h => hp (decide_eq_true h)
      refine ih.trans (((weightOf_cons _ _ item).trans ?_).symm)
      dsimp only
      rw [hz, ite_self, Nat.zero_add]
      rfl

/-! ## What a draw selects -/

namespace WeightedSampler
variable {i : Nat} {draw : UInt64} {s : WeightedSampler T}

theorem build_eq (im : List (T × UInt32)) :
    build im = ⟨(accumulate ⟨0, none, true⟩ (positive im)).1,
      (accumulate ⟨0, none, true⟩ (positive im)).2.equalWeights⟩ :=
  rfl

variable {items : List (T × UInt32)} {E : List (T × Nat)} {e : T × UInt32}

theorem length_build (im : List (T × UInt32)) : (build im).items.length = (positive im).length := by
  have h := congrArg List.length (accumulate_items ⟨0, none, true⟩ (positive im))
  rwa [length_map, length_map] at h

theorem getElem?_build (im : List (T × UInt32)) (i : Nat) :
    (build im).items[i]?.map Prod.snd = (positive im)[i]?.map Prod.fst := by
  have h := congrArg (·[i]?) (accumulate_items ⟨0, none, true⟩ (positive im))
  rwa [getElem?_map, getElem?_map] at h

theorem sum_build (h : totalWeight (entries items) < 2 ^ 64) (hi : i < (positive items).length) :
    ((build items).items[i]?.map fun e => e.1.toNat) =
      some (totalWeight ((entries (positive items)).take (i + 1))) := by
  rw [← totalWeight_positive] at h
  have hf : (⟨0, none, true⟩ : Accumulated).cumulativeWeight.toNat +
      totalWeight (entries (positive items)) < 2 ^ 64 := by
    rw [UInt64.toNat_zero, Nat.zero_add]
    exact h
  have hs := accumulate_sums hf hi
  rwa [UInt64.toNat_zero, Nat.zero_add] at hs

theorem totalWeight_take (E : List (T × Nat)) (i : Nat) : totalWeight (E.take i) = ((E.map Prod.snd).take i).sum := by
  rw [totalWeight, map_take]

theorem totalWeight_take_le (E : List (T × Nat)) {j : Nat} (h : i ≤ j) :
    totalWeight (E.take i) ≤ totalWeight (E.take j) :=
  ((take_prefix_take_left h).sublist.map Prod.snd).sum_le_sum fun _ _ => Nat.zero_le _

theorem partitionPoint_build (h : totalWeight (entries items) < 2 ^ 64)
    (hi : drawIndex ((entries (positive items)).map Prod.snd) draw.toNat = some i) :
    partitionPoint (fun e => e.1 ≤ draw) (build items).items = i := by
  obtain ⟨hlt, hle, hlt'⟩ := drawIndex_bounds hi
  rw [length_map, entries, length_map] at hlt
  rw [← totalWeight_take] at hle hlt'
  have ht {j : Nat} (hj : j < (positive items).length) : ∃ e, (build items).items[j]? = some e ∧
      e.1.toNat = totalWeight ((entries (positive items)).take (j + 1)) :=
    Option.map_eq_some_iff.1 (sum_build h hj)
  refine partitionPoint_eq ⟨?_, fun j hj => ?_, fun j hj hl => ?_⟩
  · rw [length_build]
    exact hlt.le
  · obtain ⟨e, he, hs⟩ := ht (hj.trans hlt)
    rw [he]
    refine decide_eq_true (UInt64.le_iff_toNat_le.2 ?_)
    rw [hs]
    exact (totalWeight_take_le _ hj).trans hle
  · rw [length_build] at hl
    obtain ⟨e, he, hs⟩ := ht hl
    rw [he]
    refine decide_eq_false fun he' => ?_
    rw [UInt64.le_iff_toNat_le, hs] at he'
    exact absurd (hlt'.trans_le (totalWeight_take_le _ (Nat.succ_le_succ hj))) (Nat.not_lt.2 he')

theorem next_of_two (hl : 2 ≤ s.items.length) (d : UInt64) : s.next d =
      match s.items[if s.equalWeights then d.toNat else partitionPoint (fun e => e.1 ≤ d) s.items]? with
      | some (_, item) => .ok (some item)
      | none => .error .indexOutOfBounds := by
  obtain ⟨im, eq⟩ := s
  cases im with
  | nil => exact absurd hl (Nat.not_succ_le_zero 1)
  | cons first im =>
    cases im with
    | nil => exact absurd hl (Nat.not_succ_le_self 1)
    | cons sc im => rfl

theorem next_eq_ok (hl : 2 ≤ s.items.length) {item : T}
    (hi : (if s.equalWeights then draw.toNat else partitionPoint (fun e => e.1 ≤ draw) s.items) = i)
    (him : s.items[i]?.map Prod.snd = some item) : s.next draw = .ok (some item) := by
  obtain ⟨e, he, rfl⟩ := Option.map_eq_some_iff.1 him
  rw [next_of_two hl, hi, he]

theorem next_cumulative (h : totalWeight (entries items) < 2 ^ 64) (hl : 2 ≤ (build items).items.length)
    (he : (build items).equalWeights = false) (hd : draw.toNat < totalWeight (entries (positive items))) :
    (build items).next draw = .ok (drawItem (entries (positive items)) draw.toNat) := by
  obtain ⟨i, hi⟩ := exists_drawIndex hd
  obtain ⟨item, him⟩ := exists_drawItem hd
  rw [him]
  rw [drawItem, hi, Option.bind_some, entries, getElem?_map, Option.map_map] at him
  refine next_eq_ok hl (i := i) ?_ ((getElem?_build items i).trans him)
  rw [he, if_neg Bool.false_ne_true]
  exact partitionPoint_build h hi

theorem next_equal (hl : 2 ≤ (build items).items.length) (he : (build items).equalWeights = true)
    (hd : draw.toNat < (positive items).length) :
    ∃ item, ((positive items).map Prod.fst)[draw.toNat]? = some item ∧ (build items).next draw = .ok (some item) := by
  have hi : ((positive items).map Prod.fst)[draw.toNat]? = some (positive items)[draw.toNat].1 := by
    rw [getElem?_map, getElem?_eq_getElem hd]
    rfl
  refine ⟨_, hi, next_eq_ok hl (i := draw.toNat) ?_ ?_⟩
  · rw [he, if_pos rfl]
  · rw [getElem?_build, ← getElem?_map]
    exact hi

/-! ## Proportions -/

/-- Each draw selects an item with a weight, and an item's share of the draws is its share of the weight. -/
structure Proportional [DecidableEq T] (s : WeightedSampler T) (E : List (T × Nat)) : Prop where
  pos : 0 < s.draws
  selects : ∀ draw : UInt64, draw.toNat < s.draws → ∃ item, s.next draw = .ok (some item) ∧ 0 < weightOf E item
  share : ∀ item, Nat.count (fun draw => s.next (UInt64.ofNat draw) = .ok (some item)) s.draws * totalWeight E =
    weightOf E item * s.draws

theorem proportional_of_count [DecidableEq T] {n : Nat} (hdr : s.draws = n) (hn : 0 < n)
    (hf : n ≤ 2 ^ 64) (hw : 0 < totalWeight E) {sl : Nat → Option T} (hs : ∀ draw < n, ∃ item, sl draw = some item)
    (hnx : ∀ draw : UInt64, draw.toNat < n → s.next draw = .ok (sl draw.toNat))
    (hc : ∀ item, Nat.count (fun draw => sl draw = some item) n * totalWeight E = weightOf E item * n) :
    s.Proportional E := by
  subst hdr
  have hon {draw : Nat} (hd : draw < s.draws) : (UInt64.ofNat draw).toNat = draw :=
    UInt64.toNat_ofNat_of_lt' (hd.trans_le hf)
  refine ⟨hn, fun draw hd => ?_, fun item => ?_⟩
  · obtain ⟨item, hi⟩ := hs draw.toNat hd
    refine ⟨item, (hnx draw hd).trans (congrArg Except.ok hi), ?_⟩
    by_contra hz
    have hnone := hc item
    rw [Nat.eq_zero_of_not_pos hz, Nat.zero_mul, Nat.mul_eq_zero] at hnone
    have hc0 := hnone.resolve_right hw.ne'
    rw [Nat.count_eq_card_filter_range, Finset.card_eq_zero, Finset.filter_eq_empty_iff] at hc0
    exact hc0 (Finset.mem_range.2 hd) hi
  · rw [← hc item]
    refine congrArg (· * totalWeight E) ?_
    rw [Nat.count_eq_card_filter_range, Nat.count_eq_card_filter_range]
    refine congrArg Finset.card (Finset.filter_congr fun draw hd => ?_)
    rw [Finset.mem_range] at hd
    rw [hnx _ ((hon hd).symm ▸ hd), hon hd, Except.ok.injEq]

theorem totalWeight_pos_of_mem {e : T × Nat} (hmem : e ∈ E) (hp : 0 < e.2) : 0 < totalWeight E :=
  hp.trans_le (single_le_sum (fun _ _ => Nat.zero_le _) _ (mem_map_of_mem hmem))

theorem proportional_single [DecidableEq T] (ho : positive items = [e]) :
    (build items).Proportional (entries (positive items)) := by
  have hp : 0 < e.2.toNat := by
    have hmem : e ∈ positive items := ho ▸ mem_singleton_self e
    have := (List.mem_filter.1 hmem).2
    exact UInt32.lt_iff_toNat_lt.1 (of_decide_eq_true this)
  have hitems : (build items).items = [((0 : UInt64) + e.2.toUInt64, e.1)] := by
    rw [build_eq, ho]
    rfl
  have hd : (build items).draws = 1 := by
    rw [draws, sampleBound, hitems]
    rfl
  rw [ho]
  refine proportional_of_count hd Nat.one_pos (by norm_num) (totalWeight_pos_of_mem (mem_singleton_self _) hp)
    (fun _ _ => ⟨e.1, rfl⟩) (fun d _ => ?_) fun item => ?_
  · rw [next, hitems]
  · rw [Nat.count_succ, Nat.count_zero, Nat.zero_add]
    have hw : weightOf (entries [e]) item = (if e.1 = item then e.2.toNat else 0) + 0 := weightOf_cons _ _ _
    have ht : totalWeight (entries [e]) = e.2.toNat + 0 := totalWeight_cons _ _
    rw [hw, ht, Nat.mul_one]
    simp only [Option.some.injEq, ite_mul, Nat.one_mul, Nat.zero_mul, Nat.add_zero]

theorem draws_of_two (hl : 2 ≤ s.items.length) :
    s.draws = if s.equalWeights then (UInt64.ofNat s.items.length).toNat else
      ((s.items.getLast?.map (·.1)).map UInt64.toNat).getD 1 := by
  obtain ⟨im, e⟩ := s
  cases im with
  | nil => exact absurd hl (Nat.not_succ_le_zero 1)
  | cons first im =>
    cases im with
    | nil => exact absurd hl (Nat.not_succ_le_self 1)
    | cons sc im => cases e <;> rfl

theorem pos_of_mem_positive (h : e ∈ positive items) : 0 < e.2.toNat :=
  UInt32.lt_iff_toNat_lt.1 (of_decide_eq_true (List.mem_filter.1 h).2)

theorem length_le_totalWeight (im : List (T × UInt32)) :
    (positive im).length ≤ totalWeight (entries (positive im)) := by
  rw [totalWeight, entries, map_map, ← length_map (f := fun e : T × UInt32 => e.2.toNat)]
  refine length_le_sum_of_one_le _ fun w hw => ?_
  obtain ⟨e, he, rfl⟩ := List.mem_map.1 hw
  exact pos_of_mem_positive he

theorem take_entries (h : 0 < (positive items).length) :
    (entries (positive items)).take ((positive items).length - 1 + 1) = entries (positive items) := by
  refine take_of_length_le ?_
  rw [entries, length_map]
  omega

section
variable (h : totalWeight (entries items) < 2 ^ 64) (hl : 2 ≤ (positive items).length)
include h hl

theorem proportional_equal [DecidableEq T] (heq : (build items).equalWeights = true) :
    (build items).Proportional (entries (positive items)) := by
  have hl' : 2 ≤ (build items).items.length := (length_build items).symm ▸ hl
  have hf : (positive items).length < 2 ^ 64 :=
    (length_le_totalWeight items).trans_lt ((totalWeight_positive items).symm ▸ h)
  have hdr : (build items).draws = (positive items).length := by
    rw [draws_of_two hl', if_pos heq, length_build]
    exact UInt64.toNat_ofNat_of_lt' hf
  obtain ⟨_, w, _, hw⟩ := accumulate_equalWeights heq
  have hall : ∀ e ∈ entries (positive items), e.2 = w.toNat := by
    intro e he
    obtain ⟨e', he', rfl⟩ := List.mem_map.1 he
    exact congrArg UInt32.toNat (hw e' he')
  have hs : ∀ d < (positive items).length, ∃ item, ((positive items).map Prod.fst)[d]? = some item :=
    fun d hd => ⟨_, getElem?_eq_getElem (by rw [length_map]; exact hd)⟩
  refine proportional_of_count hdr (by omega) hf.le ?_ hs (fun d hd => ?_) fun item => ?_
  · exact (Nat.lt_of_lt_of_le (by decide) hl).trans_le (length_le_totalWeight items)
  · obtain ⟨item, hi, hn⟩ := next_equal hl' heq hd
    rw [hn, hi]
  · have hc := count_getElem? ((positive items).map Prod.fst) item
    rw [length_map] at hc
    have hitems : (entries (positive items)).map Prod.fst = (positive items).map Prod.fst := by
      rw [entries, map_map]
      rfl
    rw [hc, weightOf_of_equal hall, totalWeight_of_equal hall, hitems, entries, length_map]
    ring

theorem proportional_cumulative [DecidableEq T] (he : (build items).equalWeights = false) :
    (build items).Proportional (entries (positive items)) := by
  have hl' : 2 ≤ (build items).items.length := (length_build items).symm ▸ hl
  have hlast : (build items).items.getLast? = (build items).items[(positive items).length - 1]? := by
    rw [getLast?_eq_getElem?, length_build]
  have hdr : (build items).draws = totalWeight (entries (positive items)) := by
    have hs := sum_build h (i := (positive items).length - 1) (by omega)
    rw [take_entries (by omega)] at hs
    rw [draws_of_two hl', he, if_neg Bool.false_ne_true, hlast, Option.map_map]
    exact congrArg (·.getD 1) hs
  have hp : 0 < totalWeight (entries (positive items)) :=
    (Nat.lt_of_lt_of_le (by decide) hl).trans_le (length_le_totalWeight items)
  refine proportional_of_count hdr hp ((totalWeight_positive items).symm ▸ h).le hp
    (fun d hd => exists_drawItem hd) (fun d hd => next_cumulative h hl' he hd) fun item => ?_
  rw [count_drawItem]

end

/-- With a sum below `2 ^ 64` each draw selects an item of positive weight, in proportion to its weight. -/
theorem draws_proportional [DecidableEq T] (h : totalWeight (entries items) < 2 ^ 64) :
    (∀ i e, (build items).items[i]? = some e → e.1.toNat = totalWeight ((entries (positive items)).take (i + 1))) ∧
    (totalWeight (entries items) = 0 → ∀ d, (build items).next d = .ok none) ∧
    (0 < totalWeight (entries items) → (build items).Proportional (entries items)) := by
  refine ⟨fun i e he => ?_, fun hz d => ?_, fun hps => ?_⟩
  · have hlt := (List.getElem?_eq_some_iff.1 he).1
    rw [length_build] at hlt
    have hs := sum_build h hlt
    rw [he] at hs
    exact Option.some.inj hs
  · have hl := length_le_totalWeight items
    rw [totalWeight_positive, hz, Nat.le_zero, length_eq_zero_iff] at hl
    rw [next, build_eq, hl]
    rfl
  · have hp : (build items).Proportional (entries (positive items)) := by
      rw [← totalWeight_positive] at hps
      cases hitems : positive items with
      | nil =>
        rw [hitems] at hps
        exact absurd hps (Nat.lt_irrefl 0)
      | cons first r =>
        cases r with
        | nil => exact hitems ▸ proportional_single hitems
        | cons s r =>
          have hl : 2 ≤ (positive items).length := by
            rw [hitems]
            exact Nat.le_add_left 2 r.length
          rw [← hitems]
          cases heq : (build items).equalWeights with
          | true => exact proportional_equal h hl heq
          | false => exact proportional_cumulative h hl heq
    refine ⟨hp.pos, fun d hd => ?_, fun item => ?_⟩
    · obtain ⟨item, hn, hw⟩ := hp.selects d hd
      exact ⟨item, hn, weightOf_positive items item ▸ hw⟩
    · rw [← totalWeight_positive, ← weightOf_positive]
      exact hp.share item

theorem draws_proportional_zero : totalWeight (entries [("a", 1), ("b", 0), ("c", 2)]) = 3 ∧
      (build [("a", 1), ("b", 0), ("c", 2)]).Proportional (entries [("a", 1), ("b", 0), ("c", 2)]) :=
  ⟨rfl, (draws_proportional (by decide)).2.2 (by decide)⟩

theorem sum_wraps (h : 2 ^ 64 ≤ totalWeight (entries items)) :
    ∃ i e, (build items).items[i]? = some e ∧ e.1.toNat ≠ totalWeight ((entries (positive items)).take (i + 1)) := by
  rw [← totalWeight_positive] at h
  have hp : 0 < (positive items).length := by
    refine Nat.pos_of_ne_zero fun hz => ?_
    rw [List.length_eq_zero_iff.1 hz] at h
    exact absurd (show 2 ^ 64 ≤ 0 from h) (by decide)
  have hlt : (positive items).length - 1 < (build items).items.length := by
    rw [length_build]
    omega
  refine ⟨_, _, getElem?_eq_getElem hlt, fun heq => ?_⟩
  rw [take_entries hp] at heq
  exact absurd (heq ▸ UInt64.toNat_lt _) (Nat.not_lt.2 h)

theorem weights_sum_overflows :
    ∃ i e, (build (List.replicate (2 ^ 32 + 2) ((), (4294967295 : UInt32)))).items[i]? = some e ∧ e.1.toNat ≠
        totalWeight ((entries (positive (List.replicate (2 ^ 32 + 2) ((), (4294967295 : UInt32))))).take (i + 1)) := by
  refine sum_wraps ?_
  rw [entries, map_replicate, totalWeight, map_replicate, sum_replicate, smul_eq_mul]
  decide

end WeightedSampler

end LoadBalancing
