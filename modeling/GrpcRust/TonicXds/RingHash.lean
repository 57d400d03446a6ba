import GrpcRust.Lib.Circle
import GrpcRust.Lib.Decimal
import GrpcRust.Lib.Rounding
import GrpcRust.TonicXds.Resources
import Mathlib.Data.List.Sort
/-!
# The ring-hash picker

`client/loadbalance/pickers/ring_hash.rs`: a request goes to the first ready owner from its hash on. `xxh64` comes
from outside.
-/

namespace TonicXds

open Lib Lib.Bytes List

structure IndexSet (α : Type) where
  elems : List α
  nodup : elems.Nodup

structure RingHashConfig where
  minRingSize : UInt64
  maxRingSize : UInt64

structure RingEntry where
  hash : UInt64
  addr : EndpointAddress
deriving DecidableEq

structure Ring where
  entries : List RingEntry
  sorted : entries.Pairwise fun a b => a.hash ≤ b.hash

structure RingEnv where
  xxh64 : Bytes → UInt64
  ipv4 : BitVec 32 → Bytes
  ipv6 : BitVec 128 → Bytes

section
variable (env : RingEnv)

/-- `Display` of an address. -/
def EndpointAddress.display (addr : EndpointAddress) : Bytes :=
  match addr.host with
  | .ipv4 ip => env.ipv4 ip ++ utf8 ":" ++ decimal addr.port.toNat
  | .ipv6 ip => utf8 "[" ++ env.ipv6 ip ++ utf8 "]:" ++ decimal addr.port.toNat
  | .hostname name => utf8 name ++ utf8 ":" ++ decimal addr.port.toNat

def ringEntry (addr : EndpointAddress) (i : Nat) : RingEntry :=
  ⟨env.xxh64 (addr.display env ++ utf8 "_" ++ decimal i), addr⟩

namespace Ring

def ringSize (config : RingHashConfig) (n : Nat) : Nat :=
  min (min ((config.minRingSize.toNat ⌈/⌉ n) * n) (2 ^ 64 - 1)) config.maxRingSize.toNat

/-- The loop over the members, with the number of the next one and of the entries so far. -/
def collect (ringSize n k emitted : Nat) : List EndpointAddress → List RingEntry
  | [] => []
  | addr :: rest =>
    let target := (ringSize * (k + 1)) ⌈/⌉ n
    (List.range (target - emitted)).map (ringEntry env addr) ++ collect ringSize n (k + 1) target rest

/-- `sort_by_key` is stable. -/
def sortByHash (entries : List RingEntry) : List RingEntry := entries.insertionSort fun a b => a.hash ≤ b.hash

instance : Std.Total fun a b : RingEntry => a.hash ≤ b.hash := ⟨fun a b => UInt64.le_total a.hash b.hash⟩

instance : IsTrans RingEntry fun a b => a.hash ≤ b.hash := ⟨fun _ _ _ => UInt64.le_trans⟩

theorem pairwise_sortByHash (es : List RingEntry) : (sortByHash es).Pairwise fun a b => a.hash ≤ b.hash :=
  pairwise_insertionSort _ es

def new (config : RingHashConfig) (members : IndexSet EndpointAddress) : Ring :=
  let n := members.elems.length
  if n = 0 then ⟨[], .nil⟩
  else ⟨sortByHash (collect env (ringSize config n) n 0 0 members.elems), pairwise_sortByHash _⟩

def pick {S : Type} (ring : Ring) (hash : UInt64) (ready : HashMap EndpointAddress S) : Option S :=
  if ring.entries.isEmpty then none
  else
    let start := partitionPoint (fun e => e.hash < hash) ring.entries
    circularFind (fun e => ready.lookup e.addr) ring.entries start

end Ring

end

/-! ## The entries -/

section
variable {env : RingEnv} {c : RingHashConfig} {members : IndexSet EndpointAddress}

namespace Ring
variable {size n : Nat} {l : List EndpointAddress} {addr : EndpointAddress} {S : Type} {member : EndpointAddress}

def memberEntries (env : RingEnv) (addr : EndpointAddress) (share : Nat) : List RingEntry :=
  (List.range share).map (ringEntry env addr)

theorem countP_memberEntries (a a' : EndpointAddress) (s : Nat) :
    (memberEntries env a s).countP (·.addr = a') = if a = a' then s else 0 := by
  split_ifs with ha
  · rw [List.countP_eq_length.2]
    · simp [memberEntries]
    · intro e he
      obtain ⟨i, _, rfl⟩ := List.mem_map.1 he
      simpa [ringEntry] using ha
  · rw [countP_eq_zero]
    intro e he
    obtain ⟨i, _, rfl⟩ := List.mem_map.1 he
    simpa [ringEntry] using ha

theorem collect_eq (s n k : Nat) (l : List EndpointAddress) :
    collect env s n k (shareEnd s n k) l = (l.zipIdx k).flatMap fun (a, i) => memberEntries env a (share s n i) := by
  induction l generalizing k with
  | nil => rfl
  | cons a r ih =>
    rw [zipIdx_cons, flatMap_cons, ← ih (k + 1)]
    rfl

theorem length_collect (hn : 0 < n) (hl : l.length = n) :
    (collect env size n 0 (shareEnd size n 0) l).length = size := by
  have hs : (l.zipIdx.map fun x => (memberEntries env x.1 (share size n x.2)).length) =
      (List.range n).map (share size n) := by
    rw [← hl, range_eq_range', ← zipIdx_map_snd 0 l, map_map]
    simp [memberEntries, Function.comp_def]
  rw [collect_eq, length_flatMap, hs, sum_share hn, shareEnd_self hn]

theorem countP_collect_of_notMem {k e : Nat} (h : addr ∉ l) :
    (collect env size n k e l).countP (·.addr = addr) = 0 := by
  induction l generalizing k e with
  | nil => rfl
  | cons addr' r ih =>
    rw [mem_cons, not_or] at h
    rw [collect, countP_append, ih h.2]
    exact (countP_memberEntries addr' addr _).trans (if_neg (Ne.symm h.1))

theorem countP_collect (hl : l.Nodup) (h : addr ∈ l) (k : Nat) :
    ∃ i, (collect env size n k (shareEnd size n k) l).countP (·.addr = addr) = share size n i := by
  induction l generalizing k with
  | nil => cases h
  | cons addr' r ih =>
    obtain ⟨hn, hrest⟩ := List.nodup_cons.1 hl
    have hc : (collect env size n k (shareEnd size n k) (addr' :: r)).countP (·.addr = addr) =
        (if addr' = addr then share size n k else 0) +
          (collect env size n (k + 1) (shareEnd size n (k + 1)) r).countP (·.addr = addr) := by
      rw [collect, countP_append, ← countP_memberEntries]
      rfl
    rw [hc]
    by_cases ha : addr' = addr
    · subst ha
      rw [if_pos rfl, countP_collect_of_notMem hn]
      exact ⟨k, rfl⟩
    · rw [if_neg ha, Nat.zero_add]
      exact ih hrest ((List.mem_cons.1 h).resolve_left (Ne.symm ha)) (k + 1)

theorem new_entries (h : 0 < members.elems.length) : (new env c members).entries =
      sortByHash (collect env (ringSize c members.elems.length) members.elems.length 0
        (shareEnd (ringSize c members.elems.length) members.elems.length 0) members.elems) := by
  simp only [new, if_neg h.ne', shareEnd_zero]

theorem new_perm (h : 0 < members.elems.length) : (new env c members).entries.Perm
      (collect env (ringSize c members.elems.length) members.elems.length 0
        (shareEnd (ringSize c members.elems.length) members.elems.length 0) members.elems) := by
  rw [new_entries h]
  exact perm_insertionSort _ _

theorem ringSize_eq (c : RingHashConfig) (n : Nat) :
    ringSize c n = min ((c.minRingSize.toNat ⌈/⌉ n) * n) c.maxRingSize.toNat := by
  have hm := c.maxRingSize.toNat_lt
  unfold ringSize
  omega

theorem length_new (h : 0 < members.elems.length) :
    (new env c members).entries.length = ringSize c members.elems.length := by
  rw [(new_perm h).length_eq, length_collect h rfl]

theorem owned_new (h : 0 < members.elems.length) (ha : addr ∈ members.elems) :
    ∃ i, (new env c members).entries.countP (·.addr = addr) =
      share (ringSize c members.elems.length) members.elems.length i := by
  rw [(new_perm h).countP_eq]
  exact countP_collect members.nodup ha 0

theorem addr_mem_of_mem_new {e : RingEntry} (h : e ∈ (new env c members).entries) : e.addr ∈ members.elems := by
  rcases Nat.eq_zero_or_pos members.elems.length with hz | hp
  · simp [new, hz] at h
  · by_contra hn
    have hc : (new env c members).entries.countP (·.addr = e.addr) = 0 := by
      rw [(new_perm hp).countP_eq, countP_collect_of_notMem hn]
    exact List.countP_eq_zero.1 hc e h (decide_eq_true rfl)

/-! ## Picks -/

def mapsTo {S : Type} (ring : Ring) (hash : UInt64) (ready : HashMap EndpointAddress S) : Option EndpointAddress :=
  ((clockwise (·.hash.toNat) ring.entries hash.toNat).find? fun e => (ready.lookup e.addr).isSome).map (·.addr)

theorem pick_eq_findSome? (r : Ring) (hash : UInt64) (rd : HashMap EndpointAddress S) :
    r.pick hash rd = (clockwise (·.hash.toNat) r.entries hash.toNat).findSome? fun e => rd.lookup e.addr := by
  have hs : r.entries.Pairwise fun a b => a.hash.toNat ≤ b.hash.toNat :=
    r.sorted.imp fun h => UInt64.le_iff_toNat_le.1 h
  have ht : (fun e : RingEntry => decide (e.hash < hash)) = fun e => decide (e.hash.toNat < hash.toNat) := by
    funext e
    simp only [UInt64.lt_iff_toNat_lt]
  unfold pick
  split_ifs with hempty
  · rw [List.isEmpty_iff.1 hempty]
    rfl
  · dsimp only
    rw [ht, circularFind_partitionPoint _ _ hs]

theorem pick_eq (ring : Ring) (hash : UInt64) (r : HashMap EndpointAddress S) :
    ring.pick hash r = (ring.mapsTo hash r).bind r.lookup := by
  rw [pick_eq_findSome?, findSome?_eq_bind, mapsTo, Option.bind_map]
  rfl

theorem pick_eq_none (ring : Ring) (hash : UInt64) (r : HashMap EndpointAddress S) :
    ring.pick hash r = none ↔ ∀ e ∈ ring.entries, r.lookup e.addr = none := by
  rw [pick_eq_findSome?, findSome?_eq_none_iff]
  simp only [mem_clockwise]

theorem mapsTo_erase (r : Ring) (hash : UInt64) (ready : HashMap EndpointAddress S)
    (h : r.mapsTo hash ready ≠ some member) : r.mapsTo hash (ready.erase member) = r.mapsTo hash ready := by
  have hfw (e : RingEntry) (he : ((ready.erase member).lookup e.addr).isSome = true) :
      (ready.lookup e.addr).isSome = true := by
    rw [HashMap.lookup_erase_ite] at he
    split_ifs at he
    · cases he
    · exact he
  unfold mapsTo at h ⊢
  cases hf : (clockwise (·.hash.toNat) r.entries hash.toNat).find? fun e => (ready.lookup e.addr).isSome with
  | none =>
    have hnone : ((clockwise (·.hash.toNat) r.entries hash.toNat).find? fun e =>
        ((ready.erase member).lookup e.addr).isSome) = none := by
      rw [find?_eq_none] at hf ⊢
      exact fun e he hr => hf e he (hfw e hr)
    rw [hnone]
  | some e =>
    have ho : e.addr ≠ member := by
      rintro rfl
      exact h (by rw [hf]; rfl)
    have hr : ((ready.erase member).lookup e.addr).isSome = true := by
      have hfr := find?_some hf
      rw [HashMap.lookup_erase_ite, if_neg ho]
      exact hfr
    rw [find?_of_stronger hfw hf hr]

theorem pick_erase (r : Ring) (hash : UInt64) (ready : HashMap EndpointAddress S)
    (h : r.mapsTo hash ready ≠ some member) : r.pick hash (ready.erase member) = r.pick hash ready := by
  rw [pick_eq, pick_eq, mapsTo_erase r hash ready h]
  cases hm : r.mapsTo hash ready with
  | none => rfl
  | some a =>
    have ho : a ≠ member := fun heq => h (heq ▸ hm)
    exact (HashMap.lookup_erase_ite ready member a).trans (if_neg ho)

/-- The ring is sorted, of the right size and evenly shared; a request goes to the first ready owner from its hash
on. -/
theorem ring_hash_picks (env : RingEnv) (config : RingHashConfig) (members : IndexSet EndpointAddress)
    (hmembers : 0 < members.elems.length) :
    (new env config members).entries.Pairwise (fun a b => a.hash ≤ b.hash) ∧
    (new env config members).entries.length =
      min ((config.minRingSize.toNat ⌈/⌉ members.elems.length) * members.elems.length) config.maxRingSize.toNat ∧
    (∀ e ∈ (new env config members).entries, e.addr ∈ members.elems) ∧
    (∀ addr ∈ members.elems, (new env config members).entries.countP (·.addr = addr) =
          (new env config members).entries.length / members.elems.length ∨
        (new env config members).entries.countP (·.addr = addr) =
          (new env config members).entries.length ⌈/⌉ members.elems.length) ∧
    ∀ (S : Type) (r : HashMap EndpointAddress S) (hash : UInt64),
      (new env config members).pick hash r = ((new env config members).mapsTo hash r).bind r.lookup ∧
      ((new env config members).pick hash r = none ↔ ∀ e ∈ (new env config members).entries, r.lookup e.addr = none) ∧
      ∀ member, (new env config members).pick hash (r.erase member) ≠ (new env config members).pick hash r →
        (new env config members).mapsTo hash r = some member := by
  refine ⟨(new env config members).sorted, ?_, fun e he => addr_mem_of_mem_new he, fun addr ha => ?_,
    fun S r hash => ?_⟩
  · rw [length_new hmembers, ringSize_eq]
  · rw [length_new hmembers]
    obtain ⟨i, ho⟩ : ∃ i, (new env config members).entries.countP (·.addr = addr) =
        share (ringSize config members.elems.length) members.elems.length i := owned_new hmembers ha
    rw [ho]
    exact share_eq hmembers _ i
  · refine ⟨pick_eq _ hash r, pick_eq_none _ hash r, fun member hc => ?_⟩
    by_contra hot
    exact hc (pick_erase _ hash r hot)

def plainEnv : RingEnv where
  xxh64 key := key.foldl (fun h b => h * 31 + b.toUInt64) 7
  ipv4 _ := utf8 "127.0.0.1"
  ipv6 _ := utf8 "::1"

def firstHost : EndpointAddress := ⟨.hostname "a", 80⟩

def secondHost : EndpointAddress := ⟨.hostname "b", 80⟩

def twoHosts : IndexSet EndpointAddress := ⟨[firstHost, secondHost], by decide⟩

theorem ring_hash_picks_two_hosts : (new plainEnv ⟨3, 8⟩ twoHosts).entries.length = 4 ∧
      (new plainEnv ⟨3, 8⟩ twoHosts).entries.countP (·.addr = firstHost) = 2 := by
  obtain ⟨_, hl, _, ho, _⟩ := ring_hash_picks plainEnv ⟨3, 8⟩ twoHosts (by decide)
  have hf : (new plainEnv ⟨3, 8⟩ twoHosts).entries.length = 4 := hl
  refine ⟨hf, ?_⟩
  have hs := ho firstHost (by decide)
  rw [hf] at hs
  exact hs.elim id id

/-! ## The order of the members -/

/-- Where the ring size is a multiple of the number of members, each has the same number of entries. -/
theorem collect_of_dvd (hn : 0 < n) (h : n ∣ size) (k : Nat) (l : List EndpointAddress) :
    collect env size n k (shareEnd size n k) l = l.flatMap fun a => memberEntries env a (size / n) := by
  induction l generalizing k with
  | nil => rfl
  | cons a r ih =>
    rw [flatMap_cons, ← ih (k + 1), ← share_of_dvd hn h k]
    rfl

theorem dvd_ringSize {c : RingHashConfig} (h : (c.minRingSize.toNat ⌈/⌉ n) * n ≤ c.maxRingSize.toNat) :
    n ∣ ringSize c n := by
  rw [ringSize_eq, min_eq_left h]
  exact Nat.dvd_mul_left ..

theorem new_perm_of_perm {members' : IndexSet EndpointAddress} (hpr : members.elems.Perm members'.elems)
    (hs : (c.minRingSize.toNat ⌈/⌉ members.elems.length) * members.elems.length ≤ c.maxRingSize.toNat) :
    (new env c members).entries.Perm (new env c members').entries := by
  have hl := hpr.length_eq
  rcases Nat.eq_zero_or_pos members.elems.length with hz | hp
  · simp [new, hz, ← hl]
  · have hd := dvd_ringSize hs
    refine (new_perm hp).trans (List.Perm.trans ?_ (new_perm (hl ▸ hp)).symm)
    rw [← hl, collect_of_dvd hp hd, collect_of_dvd hp hd]
    exact hpr.flatMap_right _

theorem entries_eq_of_perm {r r' : Ring} (hp : r.entries.Perm r'.entries)
    (hd : (r.entries.map (·.hash)).Nodup) : r.entries = r'.entries := by
  refine hp.eq_of_pairwise (fun a b ha hb hab hba => ?_) r.sorted r'.sorted
  exact inj_on_of_nodup_map hd ha (hp.mem_iff.2 hb) (UInt64.le_antisymm hab hba)

/-- The order of the members does not matter to a ring that is not cut off at its maximum. -/
theorem ring_order_irrelevant (env : RingEnv) (config : RingHashConfig) (members members' : IndexSet EndpointAddress)
    (hperm : members.elems.Perm members'.elems)
    (hsize : (config.minRingSize.toNat ⌈/⌉ members.elems.length) * members.elems.length ≤ config.maxRingSize.toNat)
    (hdistinct : ((new env config members).entries.map (·.hash)).Nodup) (S : Type) (ready : HashMap EndpointAddress S)
    (hash : UInt64) :
    (new env config members).mapsTo hash ready = (new env config members').mapsTo hash ready ∧
      (new env config members).pick hash ready = (new env config members').pick hash ready := by
  have he : (new env config members).entries = (new env config members').entries :=
    entries_eq_of_perm (new_perm_of_perm hperm hsize) hdistinct
  have hm : (new env config members).mapsTo hash ready = (new env config members').mapsTo hash ready := by
    rw [mapsTo, mapsTo, he]
  exact ⟨hm, by rw [pick_eq, pick_eq, hm]⟩

def swappedHosts : IndexSet EndpointAddress := ⟨[secondHost, firstHost], by decide⟩

def bothReady : HashMap EndpointAddress Nat := (AList.insert firstHost 1 ∅).insert secondHost 2

theorem ring_order_irrelevant_swapped :
    (new plainEnv ⟨3, 8⟩ twoHosts).pick 0 bothReady = (new plainEnv ⟨3, 8⟩ swappedHosts).pick 0 bothReady ∧
      (new plainEnv ⟨3, 8⟩ twoHosts).pick 0 bothReady = some 1 :=
  ⟨(ring_order_irrelevant plainEnv ⟨3, 8⟩ twoHosts swappedHosts (by decide) (by decide) (by decide) Nat bothReady 0).2,
    by decide⟩

end Ring

end

end TonicXds
