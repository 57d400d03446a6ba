import GrpcRust.Lib.HeaderMap
/-!
# Request hashes

`xds/resource/hash_policy.rs`. `xxh64` comes from outside; the digest of a hasher is that of all it was given.
-/

namespace TonicXds

open Lib Bytes

/-- `u64::rotate_left(1)`. -/
def rotateLeft (hash : UInt64) : UInt64 := hash <<< 1 ||| hash >>> 63

inductive HashPolicyConfig
  | header (headerName : Bytes) (terminal : Bool)

namespace HashPolicyConfig

def terminal : HashPolicyConfig → Bool
  | .header _ terminal => terminal

def hash (xxh64 : Bytes → UInt64) (headers : HeaderMap) : HashPolicyConfig → Option UInt64
  | .header headerName _ =>
    if headerName.endsWith (utf8 "-bin") then none
    else
      match headers.getAll headerName with
      | [] => none
      | first :: values => some (xxh64 (values.foldl (fun given v => given ++ utf8 "," ++ v) first))

def combine : Option UInt64 → Option UInt64 → Option UInt64
  | some prev, some newHash => some (rotateLeft prev ^^^ newHash)
  | none, some newHash => some newHash
  | hash, none => hash

/-- The loop of `request_hash`, with the hash so far; `hashOf` is the hash of a policy for the request. -/
def requestHashFrom (hashOf : HashPolicyConfig → Option UInt64) : Option UInt64 → List HashPolicyConfig → Option UInt64
  | hash, [] => hash
  | hash, policy :: policies =>
    let hash := combine hash (hashOf policy)
    if policy.terminal && hash.isSome then hash else requestHashFrom hashOf hash policies

def requestHash (xxh64 : Bytes → UInt64) (headers : HeaderMap) (policies : List HashPolicyConfig) : Option UInt64 :=
  requestHashFrom (hash xxh64 headers) none policies

/-! ## Which policies count -/

def combined : List UInt64 → Option UInt64
  | [] => none
  | hash :: hashes => some (hashes.foldl (fun prev newHash => rotateLeft prev ^^^ newHash) hash)

def Stops (hashOf : HashPolicyConfig → Option UInt64) (before : List HashPolicyConfig) (policy : HashPolicyConfig) :
    Prop :=
  policy.terminal = true ∧ ∃ p ∈ before ++ [policy], hashOf p ≠ none

section
variable {ho : HashPolicyConfig → Option UInt64} {before policies : List HashPolicyConfig} {p : HashPolicyConfig}

theorem combined_snoc : combined ((before ++ [p]).filterMap ho) = combine (combined (before.filterMap ho)) (ho p) := by
  rw [List.filterMap_append]
  cases hh : ho p <;> cases before.filterMap ho <;> simp [hh, combine, combined]

theorem isSome_combined : (combined (before.filterMap ho)).isSome = true ↔ ∃ p ∈ before, ho p ≠ none := by
  have hn : (combined (before.filterMap ho)).isSome = true ↔ before.filterMap ho ≠ [] := by
    cases before.filterMap ho <;> simp [combined]
  rw [hn, ne_eq, List.filterMap_eq_nil_iff]
  push Not
  rfl

theorem requestHashFrom_stops (h : Stops ho before p) :
    requestHashFrom ho (combined (before.filterMap ho)) (p :: policies) = combined ((before ++ [p]).filterMap ho) := by
  rw [requestHashFrom, ← combined_snoc, h.1, isSome_combined.2 h.2]
  rfl

theorem requestHashFrom_append (h : ∀ b p a, before = b ++ p :: a → ¬ Stops ho b p) :
    requestHashFrom ho none (before ++ policies) = requestHashFrom ho (combined (before.filterMap ho)) policies := by
  induction before using List.reverseRecOn generalizing policies with
  | nil => rfl
  | append_singleton before policy ih =>
    have hn := h before policy [] rfl
    rw [Stops, ← isSome_combined, ← Bool.and_eq_true] at hn
    rw [List.append_assoc, ih fun b p a hb => h b p (a ++ [policy]) (by simp [hb]), List.singleton_append,
      requestHashFrom, ← combined_snoc, if_neg hn]

theorem requestHashFrom_eq_none {hash : Option UInt64} :
    requestHashFrom ho hash policies = none ↔ hash = none ∧ ∀ policy ∈ policies, ho policy = none := by
  induction policies generalizing hash with
  | nil => simp [requestHashFrom]
  | cons policy policies ih =>
    have hc : combine hash (ho policy) = none ↔ hash = none ∧ ho policy = none := by
      cases hash <;> cases ho policy <;> simp [combine]
    rw [requestHashFrom, List.forall_mem_cons, ← and_assoc, ← hc]
    cases combine hash (ho policy) with
    | none => simp [ih]
    | some hash => cases policy.terminal <;> simp [ih]

end

/-- The hashes of the policies are combined in order up to the first that stops; no hash just when none has one. -/
theorem request_hash_combined (xxh64 : Bytes → UInt64) (headers : HeaderMap) (policies : List HashPolicyConfig) :
    (∀ before policy after, policies = before ++ policy :: after → Stops (hash xxh64 headers) before policy →
      (∀ b p a, before = b ++ p :: a → ¬ Stops (hash xxh64 headers) b p) →
      requestHash xxh64 headers policies = combined ((before ++ [policy]).filterMap (hash xxh64 headers))) ∧
    ((∀ b p a, policies = b ++ p :: a → ¬ Stops (hash xxh64 headers) b p) →
      requestHash xxh64 headers policies = combined (policies.filterMap (hash xxh64 headers))) ∧
    (requestHash xxh64 headers policies = none ↔ ∀ policy ∈ policies, policy.hash xxh64 headers = none) := by
  refine ⟨fun before policy after heq hstops hb => ?_, fun hn => ?_, ?_⟩
  · rw [requestHash, heq, requestHashFrom_append hb, requestHashFrom_stops hstops]
  · have hall := @requestHashFrom_append (hash xxh64 headers) policies [] hn
    rwa [List.append_nil] at hall
  · rw [requestHash, requestHashFrom_eq_none]
    simp

end HashPolicyConfig

end TonicXds
