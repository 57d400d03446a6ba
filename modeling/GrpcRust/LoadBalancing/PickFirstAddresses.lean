import GrpcRust.Lib.Bytes
import GrpcRust.Lib.FirstOccurrences
import GrpcRust.Lib.RoundRobin
import GrpcRust.LoadBalancing.PickFirst
/-!
# The order of the addresses

`compile_address` takes turns between the families. It knows IPv6 by a colon, which every `ip:port` text has.
-/

namespace LoadBalancing

open Lib List

variable {A : Type}

inductive Family where
  | ipv6
  | ipv4
  | other
deriving DecidableEq

def Family.turns : List Family := [.ipv6, .ipv4, .other]

theorem Family.nodup_turns : Family.turns.Nodup := by decide

def Address.classified (addr : Address A) : Family :=
  if addr.networkType = tcpIpNetworkType then if addr.address.toList.contains ':' then .ipv6 else .ipv4 else .other

def isIpv4Port (text : Bytes) : Bool :=
  match text.splitOn 58 with
  | [ip, port] =>
    (ip.splitOn 46).length == 4 && (ip.splitOn 46).all (fun part => (Bytes.parseDigits part).any (· < 2 ^ 8)) &&
      (Bytes.parseDigits port).any (· < 2 ^ 16)
  | _ => false

/-- IPv6 texts have colons, with a port or without; texts of no IP address are left as the source has them. -/
def Address.family (addr : Address A) : Family :=
  if addr.networkType = tcpIpNetworkType ∧ isIpv4Port (Bytes.utf8 addr.address) = true then .ipv4 else addr.classified

def tcpAddress (name : String) : Address Unit := ⟨tcpIpNetworkType, name, ()⟩

example : (tcpAddress "127.0.0.1:80").family = .ipv4 := by decide
example : (tcpAddress "[::1]:80").family = .ipv6 := by decide

/-- The same addresses, in order within each family, beginning with the family of the first and alternating. -/
structure Interleaves (family : Address A → Family) (addresses compiled : List (Address A)) : Prop where
  perm : compiled.Perm addresses
  ordered : ∀ fam, compiled.filter (family · = fam) = addresses.filter (family · = fam)
  starts : compiled.head?.map family = addresses.head?.map family
  alternates : Alternates family compiled

/-! ## Rounds -/

theorem interleave_eq_roundRobin (rs : Nat) (queue : Family → List (Address A)) :
    interleave rs (queue .ipv6) (queue .ipv4) (queue .other) = roundRobin Family.turns rs queue := by
  induction rs generalizing queue with
  | zero => rfl
  | succ rs ih =>
    rw [interleave, roundRobin, ← ih fun fam => (queue fam).tail, Family.turns, heads_cons, heads_cons, heads_cons]
    simp [heads]

theorem classified_cases (a : Address A) :
    (a.classified = .ipv6 ↔ a.networkType = tcpIpNetworkType ∧ a.address.toList.contains ':' = true) ∧
    (a.classified = .ipv4 ↔ a.networkType = tcpIpNetworkType ∧ a.address.toList.contains ':' = false) ∧
    (a.classified = .other ↔ a.networkType ≠ tcpIpNetworkType) := by
  unfold Address.classified
  split
  · split <;> simp_all
  · simp_all

def queueOf (addresses : List (Address A)) (fam : Family) : List (Address A) :=
  addresses.filter fun addr => decide (addr.classified = fam)

theorem keyedBy_queueOf (ad : List (Address A)) : KeyedBy Address.classified (queueOf ad) :=
  keyedBy_filter Address.classified ad

/-! ## Alternation of the true families -/

/-- How IPv4 addresses among texts with a colon have to lie when `bare` texts without one and `others` take part. -/
@[mk_iff] structure Spaced (family : Address A → Family) (colon : List (Address A)) (bare others : Nat) : Prop where
  /-- One that shares its round with a bare text is followed by IPv4 addresses only. -/
  beside : ∀ i addr, colon[i]? = some addr → family addr = .ipv4 → i < bare →
    others ≤ i ∧ ∀ b ∈ colon.drop (i + 1), family b = .ipv4
  /-- So is one that a bare text stands directly before. -/
  behind : ∀ i addr, colon[i + 1]? = some addr → family addr = .ipv4 → i < bare → others ≤ i →
    ∀ b ∈ colon.drop (i + 1), family b = .ipv4
  /-- What is left when all others have had their turns alternates by itself. -/
  rest : Alternates family (colon.drop (max bare others))

section
variable {family : Address A → Family} {x : Address A} {q f o : List (Address A)} {bare others rs : Nat}

theorem spaced_nil : Spaced family [] bare others := ⟨by simp, by simp, by simp [Alternates]⟩

theorem spaced_zero_zero : Spaced family q 0 0 ↔ Alternates family q :=
  ⟨fun h => by simpa using h.rest, fun h => ⟨by simp, by simp, by simpa using h⟩⟩

theorem spaced_zero_succ : Spaced family (x :: q) 0 (others + 1) ↔ Spaced family q 0 others := by simp [spaced_iff]

-- The first round is taken off.
theorem spaced_succ_zero : Spaced family (x :: q) (bare + 1) 0 ↔ (family x = .ipv4 → ∀ b ∈ q, family b = .ipv4) ∧
    (∀ y ∈ q.head?, family y = .ipv4 → ∀ b ∈ q, family b = .ipv4) ∧ Spaced family q bare 0 := by
  rw [spaced_iff, spaced_iff, ← Nat.and_forall_add_one]
  nth_rewrite 2 [← Nat.and_forall_add_one]
  simp [head?_eq_getElem?, and_assoc, and_left_comm]

theorem spaced_succ_succ : Spaced family (x :: q) (bare + 1) (others + 1) ↔
    family x ≠ .ipv4 ∧ Spaced family q bare others := by
  rw [spaced_iff, spaced_iff, ← Nat.and_forall_add_one]
  nth_rewrite 2 [← Nat.and_forall_add_one]
  simp [and_assoc]

theorem mem_interleave {a : Address A} (hq : q.length ≤ rs) (hf : f.length ≤ rs) (ho : o.length ≤ rs) :
    a ∈ interleave rs q f o ↔ a ∈ q ∨ a ∈ f ∨ a ∈ o := by
  induction rs generalizing q f o with
  | zero => simp_all [interleave]
  | succ rs ih =>
    have hm (l : List (Address A)) : a ∈ l ↔ a ∈ l.head?.toList ∨ a ∈ l.tail := by cases l <;> simp
    rw [hm q, hm f, hm o]
    simp only [interleave, mem_append, ih (by simp; omega : q.tail.length ≤ rs) (by simp; omega : f.tail.length ≤ rs)
      (by simp; omega : o.tail.length ≤ rs)]
    tauto

theorem interleave_nil_nil (hq : q.length ≤ rs) : interleave rs q [] [] = q := by
  induction rs generalizing q with
  | zero => simp_all [interleave]
  | succ rs ih =>
    cases q with
    | nil => exact ih (q := []) (Nat.zero_le rs)
    | cons x q => exact congrArg (x :: ·) (ih (Nat.le_of_succ_le_succ hq))

theorem head?_interleave (hq : q.length ≤ rs) (hf : f.length ≤ rs) (ho : o.length ≤ rs) :
    (interleave rs q f o).head? = (q ++ f ++ o).head? := by
  cases rs with
  | zero => simp_all [interleave]
  | succ rs =>
    cases q with
    | cons x q => simp [interleave]
    | nil =>
      cases f with
      | cons y f => simp [interleave]
      | nil =>
        cases o with
        | cons z o => simp [interleave]
        | nil => rw [interleave_nil_nil hq]; rfl

/-- With bare texts and others alone the families alternate. -/
theorem alternates_interleave_nil (hf : ∀ b ∈ f, family b = .ipv4) (ho : ∀ c ∈ o, family c = .other) (rs : Nat) :
    Alternates family (interleave rs [] f o) := by
  let queue : Family → List (Address A)
    | .ipv6 => []
    | .ipv4 => f
    | .other => o
  have hkeyed : KeyedBy family queue := by
    rintro (_ | _ | _) a ha
    · cases ha
    · exact hf a ha
    · exact ho a ha
  have := interleave_eq_roundRobin rs queue
  dsimp only [queue] at this
  rw [this]
  exact alternates_roundRobin hkeyed Family.nodup_turns

/-- The family of the others is left at the end of a round unless only others are left. -/
theorem alternates_other_cons (hx : family x = .other) (hq : ∀ a ∈ q, family a ≠ .other)
    (hf : ∀ b ∈ f, family b = .ipv4) (ho : ∀ c ∈ o, family c = .other) (hql : q.length ≤ rs) (hfl : f.length ≤ rs)
    (hol : o.length ≤ rs) :
    Alternates family (x :: interleave rs q f o) ↔ Alternates family (interleave rs q f o) := by
  rw [alternates_cons, head?_interleave hql hfl hol, hx]
  refine ⟨And.right, fun h => ⟨fun b hb heq c hc => ?_, h⟩⟩
  cases q with
  | cons y q =>
    obtain rfl : y = b := by simpa using hb
    exact absurd heq.symm (hq y mem_cons_self)
  | nil =>
    cases f with
    | cons y f =>
      obtain rfl : y = b := by simpa using hb
      rw [hf y mem_cons_self] at heq
      cases heq
    | nil =>
      rw [mem_interleave hql hfl hol] at hc
      exact ho c (by simpa using hc)

theorem forall_interleave_ipv4 (hf : ∀ b ∈ f, family b = .ipv4) (hql : q.length ≤ rs) (hfl : f.length ≤ rs) :
    (∀ c ∈ interleave rs q f [], family c = .ipv4) ↔ ∀ b ∈ q, family b = .ipv4 := by
  have hmem (c : Address A) : c ∈ interleave rs q f [] ↔ c ∈ q ∨ c ∈ f ∨ c ∈ [] :=
    mem_interleave hql hfl (Nat.zero_le rs)
  constructor
  · exact fun h b hb => h b ((hmem b).2 (.inl hb))
  · intro h c hc
    rcases (hmem c).1 hc with hc | hc | hc
    · exact h c hc
    · exact hf c hc
    · cases hc

/-- A bare text at the end of a round is followed by no other IPv4 address unless only these are left. -/
theorem alternates_ipv4_cons (hx : family x = .ipv4) (hf : ∀ b ∈ f, family b = .ipv4) (hql : q.length ≤ rs)
    (hfl : f.length ≤ rs) : Alternates family (x :: interleave rs q f []) ↔
      (∀ y ∈ q.head?, family y = .ipv4 → ∀ b ∈ q, family b = .ipv4) ∧ Alternates family (interleave rs q f []) := by
  have hhead : (interleave rs q f []).head? = (q ++ f ++ []).head? := head?_interleave hql hfl (Nat.zero_le rs)
  rw [alternates_cons, hhead, hx, forall_interleave_ipv4 hf hql hfl]
  refine and_congr_left fun _ => ?_
  cases q with
  | nil => simp
  | cons y q => simp [eq_comm]

theorem alternates_interleave_iff (hq : ∀ a ∈ q, family a ≠ .other) (hf : ∀ b ∈ f, family b = .ipv4)
    (ho : ∀ c ∈ o, family c = .other) (hql : q.length ≤ rs) (hfl : f.length ≤ rs) (hol : o.length ≤ rs) :
    Alternates family (interleave rs q f o) ↔ Spaced family q f.length o.length := by
  -- The induction takes one round off at a time.
  induction rs generalizing q f o with
  | zero =>
    obtain rfl := List.eq_nil_of_length_eq_zero (by omega : q.length = 0)
    exact iff_of_true trivial spaced_nil
  | succ rs ih =>
    cases q with
    | nil => exact iff_of_true (alternates_interleave_nil hf ho _) spaced_nil
    | cons x q =>
      obtain ⟨hx, hq⟩ := List.forall_mem_cons.1 hq
      have hql' : q.length ≤ rs := Nat.le_of_succ_le_succ hql
      match f, o with
      | [], [] =>
        rw [interleave_nil_nil hql]
        exact spaced_zero_zero.symm
      | [], z :: o =>
        obtain ⟨hz, ho⟩ := List.forall_mem_cons.1 ho
        have hol' : o.length ≤ rs := Nat.le_of_succ_le_succ hol
        have ih : Alternates family (interleave rs q [] o) ↔ Spaced family q 0 o.length :=
          ih hq hf ho hql' (Nat.zero_le rs) hol'
        show Alternates family (x :: z :: interleave rs q [] o) ↔ Spaced family (x :: q) 0 (o.length + 1)
        rw [spaced_zero_succ, ← ih, alternates_cons, alternates_other_cons hz hq hf ho hql' (Nat.zero_le rs) hol']
        refine and_iff_right fun b hb heq => ?_
        obtain rfl : z = b := by simpa using hb
        exact absurd (heq.trans hz) hx
      | y :: f, [] =>
        obtain ⟨hy, hf⟩ := List.forall_mem_cons.1 hf
        have hfl' : f.length ≤ rs := Nat.le_of_succ_le_succ hfl
        have ih : Alternates family (interleave rs q f []) ↔ Spaced family q f.length 0 :=
          ih hq hf ho hql' hfl' (Nat.zero_le rs)
        show Alternates family (x :: y :: interleave rs q f []) ↔ Spaced family (x :: q) (f.length + 1) 0
        rw [spaced_succ_zero, ← ih, alternates_cons, alternates_ipv4_cons hy hf hql' hfl']
        refine and_congr_left fun _ => ?_
        rw [head?_cons]
        constructor
        · intro h hxf
          rw [← forall_interleave_ipv4 hf hql' hfl']
          intro c hc
          rw [h y rfl (hxf.trans hy.symm) c (mem_cons_of_mem _ hc), hxf]
        · rintro h b ⟨⟩ heq
          have hxf := heq.trans hy
          rw [hxf]
          exact List.forall_mem_cons.2 ⟨hy, (forall_interleave_ipv4 hf hql' hfl').2 (h hxf)⟩
      | y :: f, z :: o =>
        obtain ⟨hy, hf⟩ := List.forall_mem_cons.1 hf
        obtain ⟨hz, ho⟩ := List.forall_mem_cons.1 ho
        have hfl' : f.length ≤ rs := Nat.le_of_succ_le_succ hfl
        have hol' : o.length ≤ rs := Nat.le_of_succ_le_succ hol
        have ih := ih hq hf ho hql' hfl' hol'
        show Alternates family (x :: y :: z :: interleave rs q f o) ↔
          Spaced family (x :: q) (f.length + 1) (o.length + 1)
        rw [spaced_succ_succ, ← ih, alternates_cons, alternates_cons,
          alternates_other_cons hz hq hf ho hql' hfl' hol']
        constructor
        · rintro ⟨h, -, hrest⟩
          refine ⟨fun hxf => ?_, hrest⟩
          have := h y rfl (hxf.trans hy.symm) z (by simp)
          rw [hz, hxf] at this
          cases this
        · rintro ⟨h, hrest⟩
          refine ⟨fun b hb heq => ?_, fun b hb heq => ?_, hrest⟩
          · obtain rfl : y = b := by simpa using hb
            exact absurd (heq.trans hy) h
          · obtain rfl : z = b := by simpa using hb
            rw [hy, hz] at heq
            cases heq

end
/-! ## The true families of the queues -/

theorem family_of_ipv6 {ads : List (Address A)} : ∀ addr ∈ queueOf ads .ipv6, addr.family ≠ .other := by
  intro addr ha
  have hc : addr.classified = .ipv6 := of_decide_eq_true (List.mem_filter.1 ha).2
  unfold Address.family
  split
  · nofun
  · rw [hc]
    nofun

theorem family_of_ipv4 {ads : List (Address A)} : ∀ addr ∈ queueOf ads .ipv4, addr.family = .ipv4 := by
  intro addr ha
  have hc : addr.classified = .ipv4 := of_decide_eq_true (List.mem_filter.1 ha).2
  unfold Address.family
  split
  · rfl
  · exact hc

theorem family_eq_other {addr : Address A} : addr.family = .other ↔ addr.classified = .other := by
  unfold Address.family
  split
  · rename_i h
    exact iff_of_false nofun fun hc => (classified_cases addr).2.2.1 hc h.1
  · rfl

theorem family_of_other {ads : List (Address A)} : ∀ addr ∈ queueOf ads .other, addr.family = .other := by
  intro addr ha
  exact family_eq_other.2 (of_decide_eq_true (List.mem_filter.1 ha).2)

theorem classified_of_ipv6 {addr : Address A} (h : addr.family = .ipv6) : addr.classified = .ipv6 := by
  unfold Address.family at h
  split at h
  · cases h
  · exact h

theorem mem_queueOf {ads : List (Address A)} {a : Address A} (ha : a ∈ ads) :
    ∃ i : Nat, (queueOf ads a.classified)[i]? = some a :=
  List.mem_iff_getElem?.1 (List.mem_filter.2 ⟨ha, by simp⟩)

theorem ipv4_or_ipv6 {a : Address A} (h : a.family = .ipv4) : a.classified = .ipv4 ∨ a.classified = .ipv6 := by
  cases hc : a.classified with
  | ipv6 => exact .inr rfl
  | ipv4 => exact .inl rfl
  | other =>
    rw [family_eq_other.2 hc] at h
    cases h

/-! ## The compiled list -/

section
variable [DecidableEq A]

variable (env : Env A) (es : List (Endpoint A)) (c : PickFirstConfig)

def consideredAddresses (endpoints : List (Endpoint A)) (config : PickFirstConfig) : List (Address A) :=
  uniqueAddresses ((if config.shuffleAddressList then env.shuffle endpoints else endpoints).flatMap (·.addresses))

theorem compileAddress_eq : ∃ rs, (∀ fam, (queueOf (consideredAddresses env es c) fam).length ≤ rs) ∧
    compileAddress env es c = roundRobin Family.turns rs (queueOf (consideredAddresses env es c)) := by
  unfold compileAddress
  extract_lets eps unique tcp unknown ipv6 ipv4
  have hi6 : ipv6 = queueOf unique .ipv6 :=
    List.filter_filter.trans (filter_congr fun a _ => by simp [(classified_cases a).1, Bool.and_comm])
  have hi4 : ipv4 = queueOf unique .ipv4 :=
    List.filter_filter.trans (filter_congr fun a _ => by simp [(classified_cases a).2.1, Bool.and_comm])
  have hu : unknown = queueOf unique .other := filter_congr fun a _ => by simp [(classified_cases a).2.2]
  refine ⟨_, fun fam => ?_, by rw [hi6, hi4, hu]; exact interleave_eq_roundRobin _ (queueOf unique)⟩
  show (queueOf unique fam).length ≤ _
  cases fam with
  | ipv6 => exact le_max_left _ _
  | ipv4 => exact (le_max_left _ _).trans (le_max_right _ _)
  | other => exact (le_max_right _ _).trans (le_max_right _ _)

theorem filter_compileAddress (fam : Family) : (compileAddress env es c).filter (·.classified = fam) =
      (consideredAddresses env es c).filter (·.classified = fam) := by
  obtain ⟨rs, hr, heq⟩ := compileAddress_eq env es c
  rw [heq, filter_roundRobin (keyedBy_queueOf _) Family.nodup_turns (by cases fam <;> decide),
    take_of_length_le (hr fam)]
  rfl

theorem compileAddress_perm : (compileAddress env es c).Perm (consideredAddresses env es c) :=
  perm_of_filter_key_eq (filter_compileAddress env es c)

theorem uniqueAddresses_eq (ad : List (Address A)) : uniqueAddresses ad = ad.eraseDups := extendNew_eraseDups [] ad

theorem nodup_compileAddress : (compileAddress env es c).Nodup := by
  rw [(compileAddress_perm env es c).nodup_iff, consideredAddresses, uniqueAddresses_eq]
  exact nodup_eraseDups _

theorem mem_compileAddress {env : Env A} {es : List (Endpoint A)} {c : PickFirstConfig} {a : Address A} :
    a ∈ compileAddress env es c ↔ ∃ e ∈ es, a ∈ e.addresses := by
  rw [(compileAddress_perm env es c).mem_iff, consideredAddresses, uniqueAddresses_eq, mem_eraseDups, mem_flatMap]
  split
  · simp only [(env.shuffle_perm es).mem_iff]
  · exact Iff.rfl

/-- With the addresses in three queues, texts with a colon, bare texts and others, the first address is of the family
that the first queue begins with, an IPv4 address with a colon stands before a bare text exactly if it is not further
down in its queue, and the queues are spaced. -/
structure TakesTurns (addresses : List (Address A)) : Prop where
  first : addresses.head?.map Address.family =
    (queueOf addresses .ipv6 ++ queueOf addresses .ipv4 ++ queueOf addresses .other).head?.map Address.family
  order : ∀ (i j : Nat) (addr bare : Address A), (queueOf addresses .ipv6)[i]? = some addr → addr.family = .ipv4 →
    (queueOf addresses .ipv4)[j]? = some bare → if i ≤ j then [addr, bare] <+ addresses else [bare, addr] <+ addresses
  spaced : Spaced Address.family (queueOf addresses .ipv6) (queueOf addresses .ipv4).length
    (queueOf addresses .other).length

/-- In the compiled list the position in the queue decides. -/
theorem sublist_compileAddress {i j : Nat} {a b : Address A}
    (ha : (queueOf (consideredAddresses env es c) .ipv6)[i]? = some a)
    (hb : (queueOf (consideredAddresses env es c) .ipv4)[j]? = some b) :
    if i ≤ j then [a, b] <+ compileAddress env es c else [b, a] <+ compileAddress env es c := by
  obtain ⟨rs, hr, heq⟩ := compileAddress_eq env es c
  have hi := (List.getElem?_eq_some_iff.1 ha).1
  have hj := (List.getElem?_eq_some_iff.1 hb).1
  have hi' := hr .ipv6
  have hj' := hr .ipv4
  rw [heq]
  split
  · rename_i hij
    rcases Nat.lt_or_eq_of_le hij with hlt | rfl
    · exact sublist_roundRobin_of_lt (by decide) (by decide) ha hb hlt (by omega)
    · exact sublist_roundRobin_of_key (by decide) ha hb (by omega)
  · exact sublist_roundRobin_of_lt (by decide) (by decide) hb ha (by omega) (by omega)

theorem filter_family_eq {fam : Family} (h : ∀ addr : Address A, addr.family = fam → addr.classified = fam) :
    (compileAddress env es c).filter (·.family = fam) = (consideredAddresses env es c).filter (·.family = fam) := by
  have hf (l : List (Address A)) :
      l.filter (·.family = fam) = (l.filter (·.classified = fam)).filter (·.family = fam) := by
    rw [filter_filter]
    refine filter_congr fun addr _ => ?_
    by_cases hfam : addr.family = fam
    · simp [hfam, h addr hfam]
    · simp [hfam]
  rw [hf, filter_compileAddress, ← hf]

theorem order_of_filter_eq
    (h : (compileAddress env es c).filter (·.family = .ipv4) = (consideredAddresses env es c).filter (·.family = .ipv4))
    {i j : Nat} {a b : Address A} (ha : (queueOf (consideredAddresses env es c) .ipv6)[i]? = some a)
    (hfa : a.family = .ipv4) (hb : (queueOf (consideredAddresses env es c) .ipv4)[j]? = some b) :
    if i ≤ j then [a, b] <+ consideredAddresses env es c else [b, a] <+ consideredAddresses env es c := by
  have hfb : b.family = .ipv4 := family_of_ipv4 b (mem_of_getElem? hb)
  have hc := sublist_compileAddress env es c ha hb
  split at hc
  · rw [if_pos ‹_›]
    exact sublist_of_filter_eq h (by simp [hfa, hfb]) hc
  · rw [if_neg ‹_›]
    exact sublist_of_filter_eq h (by simp [hfa, hfb]) hc

theorem filter_eq_of_order (h : ∀ (i j : Nat) (a b : Address A),
      (queueOf (consideredAddresses env es c) .ipv6)[i]? = some a → a.family = .ipv4 →
      (queueOf (consideredAddresses env es c) .ipv4)[j]? = some b →
      if i ≤ j then [a, b] <+ consideredAddresses env es c else [b, a] <+ consideredAddresses env es c) :
    (compileAddress env es c).filter (·.family = .ipv4) =
      (consideredAddresses env es c).filter (·.family = .ipv4) := by
  have hn := nodup_compileAddress env es c
  have hp := compileAddress_perm env es c
  refine eq_of_perm_of_sublist (hp.filter _) ((hp.nodup_iff.1 hn).filter _) fun a b hab => ?_
  have hfa : a.family = .ipv4 := of_decide_eq_true (List.mem_filter.1 (hab.subset (by simp))).2
  have hfb : b.family = .ipv4 := of_decide_eq_true (List.mem_filter.1 (hab.subset (by simp))).2
  have hab := hab.trans filter_sublist
  have hma : a ∈ consideredAddresses env es c := hp.mem_iff.1 (hab.subset (by simp))
  have hmb : b ∈ consideredAddresses env es c := hp.mem_iff.1 (hab.subset (by simp))
  suffices hs : [a, b] <+ consideredAddresses env es c by
    have hf := hs.filter fun addr => decide (addr.family = .ipv4)
    rwa [filter_eq_self.2 (by simp [hfa, hfb])] at hf
  by_cases hc : a.classified = b.classified
  · exact sublist_of_filter_eq (filter_compileAddress env es c b.classified) (by simp [hc]) hab
  · -- One has a colon and the other is bare: both lists have them in the order of their queues.
    obtain ⟨i, hi⟩ := mem_queueOf hma
    obtain ⟨j, hj⟩ := mem_queueOf hmb
    rcases ipv4_or_ipv6 hfa with hca | hca <;> rcases ipv4_or_ipv6 hfb with hcb | hcb
    · exact absurd (hca.trans hcb.symm) hc
    · rw [hca] at hi
      rw [hcb] at hj
      have hd := sublist_compileAddress env es c hj hi
      have ho := h j i b a hj hfb hi
      split at hd
      · exact absurd hd (not_sublist_swap hn hab)
      · rwa [if_neg ‹_›] at ho
    · rw [hca] at hi
      rw [hcb] at hj
      have hd := sublist_compileAddress env es c hi hj
      have ho := h i j a b hi hfa hj
      split at hd
      · rwa [if_pos ‹_›] at ho
      · exact absurd hd (not_sublist_swap hn hab)
    · exact absurd (hca.trans hcb.symm) hc

/-- The families interleave exactly if the addresses take turns. -/
theorem compile_address_interleaves (env : Env A) (endpoints : List (Endpoint A)) (config : PickFirstConfig) :
    Interleaves Address.family (consideredAddresses env endpoints config) (compileAddress env endpoints config) ↔
      TakesTurns (consideredAddresses env endpoints config) := by
  obtain ⟨rs, hr, heq⟩ := compileAddress_eq env endpoints config
  rw [← interleave_eq_roundRobin] at heq
  have hhead := head?_interleave (hr .ipv6) (hr .ipv4) (hr .other)
  have halt := alternates_interleave_iff family_of_ipv6 family_of_ipv4 family_of_other (hr .ipv6) (hr .ipv4) (hr .other)
  rw [← heq] at hhead halt
  constructor
  · rintro ⟨-, hordered, hstarts, halternates⟩
    refine ⟨?_, fun i j addr bare ha hfa hb => ?_, halt.1 halternates⟩
    · rw [← hstarts, hhead]
    · exact order_of_filter_eq env endpoints config (hordered .ipv4) ha hfa hb
  · rintro ⟨hfirst, horder, hspaced⟩
    refine ⟨compileAddress_perm env endpoints config, fun fam => ?_, ?_, halt.2 hspaced⟩
    · cases fam with
      | ipv6 => exact filter_family_eq env endpoints config fun _ => classified_of_ipv6
      | ipv4 => exact filter_eq_of_order env endpoints config horder
      | other => exact filter_family_eq env endpoints config fun _ => family_eq_other.1
    · rw [hhead, hfirst]

end

theorem inOrder_perm : ∀ l : List (Endpoint Unit), (id l).Perm l := List.Perm.refl

def inOrder : Env Unit := ⟨fun _ => .idle, id, inOrder_perm⟩

theorem compile_address_interleaves_mixed :
    Interleaves Address.family [tcpAddress "10.0.0.1:80", tcpAddress "[::1]:80", ⟨"unix", "/run/a", ()⟩]
      [tcpAddress "10.0.0.1:80", ⟨"unix", "/run/a", ()⟩, tcpAddress "[::1]:80"] := by
  refine (compile_address_interleaves inOrder
    [⟨[tcpAddress "10.0.0.1:80", tcpAddress "[::1]:80"]⟩, ⟨[⟨"unix", "/run/a", ()⟩]⟩] ⟨false⟩).2 ⟨by decide, ?_, ?_⟩
  · intro i j addr bare _ _ hbare
    have hnone : queueOf (consideredAddresses inOrder
      [⟨[tcpAddress "10.0.0.1:80", tcpAddress "[::1]:80"]⟩, ⟨[⟨"unix", "/run/a", ()⟩]⟩] ⟨false⟩) .ipv4 = [] := by decide
    rw [hnone] at hbare
    cases hbare
  · exact spaced_zero_succ.2 (spaced_zero_zero.2 trivial)

/-- IPv4 addresses with ports pass for IPv6 ones; and the first family of the list may come second. -/
theorem compile_address_does_not_interleave :
    let ported : List (Endpoint Unit) :=
      [⟨[tcpAddress "10.0.0.1:80", tcpAddress "10.0.0.2:80", tcpAddress "[::1]:80"]⟩]
    let unixFirst : List (Endpoint Unit) := [⟨[⟨"unix", "/run/a", ()⟩, tcpAddress "[::1]:80"]⟩]
    ¬ Interleaves Address.family (consideredAddresses inOrder ported ⟨false⟩) (compileAddress inOrder ported ⟨false⟩) ∧
      ¬ Interleaves Address.family (consideredAddresses inOrder unixFirst ⟨false⟩)
        (compileAddress inOrder unixFirst ⟨false⟩) := by
  refine ⟨fun h => ?_, fun h => ?_⟩
  · have hsame := h.alternates.1 (by decide) (tcpAddress "[::1]:80") (by decide)
    exact absurd hsame (by decide)
  · exact absurd h.starts (by decide)

end LoadBalancing
