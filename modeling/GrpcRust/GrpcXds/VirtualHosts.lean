import GrpcRust.GrpcXds.RouteMatching
/-!
# The virtual host for an authority

What `find_virtual_host_index` returns, in terms of the patterns as they are written.
-/

namespace GrpcXds.Rds

open Lib Lib.Bytes List DomainMatcher

variable {d : Bytes} {m : DomainMatcher}

/-! ## Patterns -/

/-- How a pattern matches an authority: ASCII case is ignored, and a wildcard stands for at least one byte. -/
inductive DomainMatches : Bytes → Bytes → DomainMatchScore → Prop where
  | exact {domain authority : Bytes} (hw : wildcard ∉ domain)
      (heq : authority.toAsciiLowercase = domain.toAsciiLowercase) : DomainMatches domain authority .exact
  | suffixed {literal consumed rest : Bytes} (hne : literal ≠ []) (hw : wildcard ∉ literal) (hc : consumed ≠ [])
      (heq : rest.toAsciiLowercase = literal.toAsciiLowercase) :
      DomainMatches (wildcard :: literal) (consumed ++ rest) (.suffixed literal.length)
  | prefixed {literal rest consumed : Bytes} (hne : literal ≠ []) (hw : wildcard ∉ literal) (hc : consumed ≠ [])
      (heq : rest.toAsciiLowercase = literal.toAsciiLowercase) :
      DomainMatches (literal ++ [wildcard]) (rest ++ consumed) (.prefixed literal.length)
  | universal {authority : Bytes} (hne : authority ≠ []) : DomainMatches [wildcard] authority .universal

def DomainMatchScore.kind : DomainMatchScore → Nat
  | .exact => 0
  | .suffixed _ => 1
  | .prefixed _ => 2
  | .universal => 3

def DomainMatchScore.literalLength : DomainMatchScore → Nat
  | .suffixed len => len
  | .prefixed len => len
  | _ => 0

def DomainMatchScore.AsGoodAs (a b : DomainMatchScore) : Prop :=
  a.kind < b.kind ∨ a.kind = b.kind ∧ b.literalLength ≤ a.literalLength

theorem DomainMatchScore.le_iff {a b : DomainMatchScore} : a ≤ b ↔ a.AsGoodAs b := by
  show a.key ≤ b.key ↔ _
  cases a <;> cases b <;> simp [key, AsGoodAs, kind, literalLength, Prod.Lex.toLex_le_toLex]

theorem tryFrom_of_accepted (h : Accepted d m) (hne : d ≠ []) : tryFrom d = some m := by
  have hempty : ¬ d.isEmpty = true := fun he => hne (List.isEmpty_iff.1 he)
  rw [tryFrom, if_neg hempty]
  cases h with
  | exact hw => simp only [List.idxOf?_eq_none_iff.2 (mem_lowercase_wildcard.not.2 hw)]
  | universal => rfl
  | @suffixed s hs hw =>
    have hi : (toAsciiLowercase ([] ++ wildcard :: s)).idxOf? wildcard = some ([] : Bytes).length :=
      idxOf?_wildcard not_mem_nil
    rw [nil_append] at hi
    have hl : s.length ≠ 0 := fun h0 => hs (List.length_eq_zero_iff.1 h0)
    have hd : (toAsciiLowercase (wildcard :: s)).drop 1 = s.toAsciiLowercase := rfl
    simp only [hi, hd, length_toAsciiLowercase, length_nil, length_cons, mem_lowercase_wildcard]
    rw [if_neg (by omega), if_pos ⟨trivial, hw⟩]
  | @prefixed st hst hw =>
    have hi : (toAsciiLowercase (st ++ [wildcard])).idxOf? wildcard = some st.length := idxOf?_wildcard hw
    have hl : st.length ≠ 0 := fun h0 => hst (List.length_eq_zero_iff.1 h0)
    simp only [hi, length_toAsciiLowercase, length_append, length_singleton]
    rw [if_neg (by omega), if_neg (by omega), if_pos (by omega), ← toAsciiLowercase_take, take_left]

theorem tryFrom_isSome_iff : (∃ m, tryFrom d = some m) ↔
    d ≠ [] ∧ (wildcard ∉ d ∨ d = [wildcard] ∨ (∃ l, d = wildcard :: l ∧ wildcard ∉ l) ∨
      ∃ l, d = l ++ [wildcard] ∧ wildcard ∉ l) := by
  constructor
  · rintro ⟨m, h⟩
    have hne : d ≠ [] := fun hn => by rw [hn] at h; cases h
    refine ⟨hne, ?_⟩
    cases accepted_of_tryFrom h with
    | exact hw => exact .inl hw
    | universal => exact .inr (.inl rfl)
    | suffixed hne hw => exact .inr (.inr (.inl ⟨_, rfl, hw⟩))
    | prefixed hne hw => exact .inr (.inr (.inr ⟨_, rfl, hw⟩))
  · rintro ⟨hne, hw | rfl | ⟨l, rfl, hw⟩ | ⟨l, rfl, hw⟩⟩
    · exact ⟨_, tryFrom_of_accepted (.exact hw) hne⟩
    · exact ⟨_, tryFrom_of_accepted .universal hne⟩
    · by_cases hn : l = []
      · exact ⟨_, hn ▸ tryFrom_of_accepted .universal (cons_ne_nil _ _)⟩
      · exact ⟨_, tryFrom_of_accepted (.suffixed hn hw) hne⟩
    · by_cases hn : l = []
      · rw [hn]
        exact ⟨_, tryFrom_of_accepted .universal (cons_ne_nil _ _)⟩
      · exact ⟨_, tryFrom_of_accepted (.prefixed hn hw) hne⟩

theorem suffix_lowercase_iff {a l : Bytes} : l.length < a.length ∧ l.toAsciiLowercase <:+ a.toAsciiLowercase ↔
      ∃ c r, a = c ++ r ∧ c ≠ [] ∧ r.toAsciiLowercase = l.toAsciiLowercase := by
  constructor
  · rintro ⟨hl, hs⟩
    refine ⟨a.take (a.length - l.length), a.drop (a.length - l.length), (take_append_drop _ _).symm, fun hn => ?_, ?_⟩
    · have := congrArg List.length hn
      simp at this
      omega
    · exact eqIgnoreAsciiCase_iff.1 (drop_eqIgnoreAsciiCase_iff.2 hs)
  · rintro ⟨c, r, rfl, hc, heq⟩
    have hl := congrArg List.length heq
    rw [length_toAsciiLowercase, length_toAsciiLowercase] at hl
    have hp := List.length_pos_iff.2 hc
    refine ⟨by rw [length_append]; omega, ?_⟩
    rw [toAsciiLowercase_append, heq]
    exact suffix_append _ _

theorem prefix_lowercase_iff {a l : Bytes} : l.length < a.length ∧ l.toAsciiLowercase <+: a.toAsciiLowercase ↔
      ∃ r c, a = r ++ c ∧ c ≠ [] ∧ r.toAsciiLowercase = l.toAsciiLowercase := by
  constructor
  · rintro ⟨hl, hp⟩
    refine ⟨a.take l.length, a.drop l.length, (take_append_drop _ _).symm, fun hn => ?_, ?_⟩
    · have := congrArg List.length hn
      simp at this
      omega
    · exact eqIgnoreAsciiCase_iff.1 (take_eqIgnoreAsciiCase_iff.2 hp)
  · rintro ⟨r, c, rfl, hc, heq⟩
    have hl := congrArg List.length heq
    rw [length_toAsciiLowercase, length_toAsciiLowercase] at hl
    have hps := List.length_pos_iff.2 hc
    refine ⟨by rw [length_append]; omega, ?_⟩
    rw [toAsciiLowercase_append, heq]
    exact prefix_append _ _

theorem matchAuthority_iff (h : tryFrom d = some m) (a : Bytes)
    (score : DomainMatchScore) : m.matchAuthority a.toAsciiLowercase = some score ↔ DomainMatches d a score := by
  constructor
  · intro hm
    cases accepted_of_tryFrom h with
    | exact hw =>
      obtain ⟨heq, hs⟩ := Option.ite_none_right_eq_some.1 hm
      cases hs
      exact .exact hw heq
    | universal =>
      obtain ⟨hne, hs⟩ := Option.ite_none_right_eq_some.1 hm
      cases hs
      refine .universal fun hn => ?_
      rw [hn] at hne
      cases hne
    | suffixed hne hw =>
      obtain ⟨⟨hl, he⟩, hs⟩ := Option.ite_none_right_eq_some.1 hm
      cases hs
      rw [length_toAsciiLowercase, length_toAsciiLowercase] at hl
      obtain ⟨c, r, rfl, hc, heq⟩ := suffix_lowercase_iff.1 ⟨hl, endsWith_iff.1 he⟩
      rw [length_toAsciiLowercase]
      exact .suffixed hne hw hc heq
    | prefixed hne hw =>
      obtain ⟨⟨hl, hst⟩, hs⟩ := Option.ite_none_right_eq_some.1 hm
      cases hs
      rw [length_toAsciiLowercase, length_toAsciiLowercase] at hl
      obtain ⟨r, c, rfl, hc, heq⟩ := prefix_lowercase_iff.1 ⟨hl, startsWith_iff.1 hst⟩
      rw [length_toAsciiLowercase]
      exact .prefixed hne hw hc heq
  · intro hmt
    have hne : d ≠ [] := fun hn => by rw [hn] at h; cases h
    cases hmt with
    | exact hw heq =>
      cases h.symm.trans (tryFrom_of_accepted (.exact hw) hne)
      exact if_pos heq
    | universal ha =>
      cases h.symm.trans (tryFrom_of_accepted .universal hne)
      refine if_pos ?_
      simpa [toAsciiLowercase] using ha
    | suffixed hlt hw hc heq =>
      cases h.symm.trans (tryFrom_of_accepted (.suffixed hlt hw) hne)
      obtain ⟨hl, hsf⟩ := suffix_lowercase_iff.2 ⟨_, _, rfl, hc, heq⟩
      rw [← length_toAsciiLowercase, ← length_toAsciiLowercase (_ ++ _)] at hl
      rw [matchAuthority, if_pos ⟨hl, endsWith_iff.2 hsf⟩, length_toAsciiLowercase]
    | prefixed hlt hw hc heq =>
      cases h.symm.trans (tryFrom_of_accepted (.prefixed hlt hw) hne)
      obtain ⟨hl, hp⟩ := prefix_lowercase_iff.2 ⟨_, _, rfl, hc, heq⟩
      rw [← length_toAsciiLowercase, ← length_toAsciiLowercase (_ ++ _)] at hl
      rw [matchAuthority, if_pos ⟨hl, startsWith_iff.2 hp⟩, length_toAsciiLowercase]

/-! ## The best host -/

def Owns (authority : Bytes) (domains : List Bytes) (score : DomainMatchScore) : Prop :=
  ∃ domain ∈ domains, DomainMatches domain authority score

def BestHost (authority : Bytes) (patterns : List (List Bytes)) (i : Nat) : Prop :=
  ∃ domains score, patterns[i]? = some domains ∧ Owns authority domains score ∧
    ∀ j domains' score', patterns[j]? = some domains' → Owns authority domains' score' →
      score.AsGoodAs score' ∧ (j < i → ¬ score'.AsGoodAs score)

section
variable {R : Type} {a : Bytes} {domains : List Bytes} {host : VirtualHost R} {score : DomainMatchScore}
  {i : Nat}

def BuiltFrom (domains : List Bytes) (host : VirtualHost R) : Prop :=
  List.Forall₂ (fun domain m => DomainMatcher.tryFrom domain = some m) domains host.domains

theorem mem_scores_iff (h : BuiltFrom domains host) :
    score ∈ host.domains.filterMap (·.matchAuthority a.toAsciiLowercase) ↔ Owns a domains score := by
  unfold BuiltFrom at h
  unfold Owns
  generalize host.domains = matchers at h
  induction h with
  | nil => simp
  | @cons domain m domains matchers hm _ ih =>
    rw [exists_mem_cons_iff, ← matchAuthority_iff hm, ← ih, filterMap_cons]
    cases m.matchAuthority a.toAsciiLowercase with
    | none => simp
    | some score' => simp [eq_comm]

theorem hostScore_eq_some_iff (h : BuiltFrom domains host) : hostScore a.toAsciiLowercase host = some score ↔
      Owns a domains score ∧ ∀ score', Owns a domains score' → score ≤ score' := by
  rw [hostScore, iterMin_eq_some_iff, mem_scores_iff h]
  simp only [mem_scores_iff h]

theorem exists_hostScore (h : BuiltFrom domains host) (ho : Owns a domains score) :
    ∃ b, hostScore a.toAsciiLowercase host = some b ∧ b ≤ score := by
  have hmem := (mem_scores_iff h).2 ho
  cases hb : hostScore a.toAsciiLowercase host with
  | none =>
    rw [List.argmin_eq_none.1 hb] at hmem
    cases hmem
  | some b => exact ⟨b, rfl, ((hostScore_eq_some_iff h).1 hb).2 score ho⟩

variable {patterns : List (List Bytes)} {hosts : List (VirtualHost R)}

section
variable (h : List.Forall₂ BuiltFrom patterns hosts)
include h

theorem host_of_patterns (hi : patterns[i]? = some domains) :
    ∃ host, hosts[i]? = some host ∧ BuiltFrom domains host := by
  rcases getElem?_of_forall₂ h i with ⟨hnone, -⟩ | ⟨domains', host, hd, hh, hb⟩
  · rw [hnone] at hi
    cases hi
  · cases hd.symm.trans hi
    exact ⟨host, hh, hb⟩

theorem patterns_of_host (hi : hosts[i]? = some host) : ∃ ds, patterns[i]? = some ds ∧ BuiltFrom ds host := by
  rcases getElem?_of_forall₂ h i with ⟨-, hnone⟩ | ⟨ds, host', hd, hh, hb⟩
  · rw [hnone] at hi
    cases hi
  · cases hh.symm.trans hi
    exact ⟨ds, hd, hb⟩

theorem findVirtualHostIndex_eq_some_iff : findVirtualHostIndex a hosts = some i ↔ BestHost a patterns i := by
  rw [findVirtualHostIndex, argmin_scored_eq_some_iff]
  constructor
  · rintro ⟨host, s, hh, hs, hl⟩
    obtain ⟨ds, hd, hb⟩ := patterns_of_host h hh
    refine ⟨ds, s, hd, ((hostScore_eq_some_iff hb).1 hs).1, fun j ds' s' hj ho => ?_⟩
    obtain ⟨host', hh', hb'⟩ := host_of_patterns h hj
    obtain ⟨b, hbs, hle⟩ := exists_hostScore hb' ho
    have hsm := hl j host' b hh' hbs
    rw [← DomainMatchScore.le_iff, ← DomainMatchScore.le_iff, not_le]
    refine ⟨(hsm.elim le_of_lt fun heq => heq.1.le).trans hle, fun hlt => ?_⟩
    exact (hsm.resolve_right fun heq => Nat.not_le.2 hlt heq.2).trans_le hle
  · rintro ⟨ds, s, hd, ho, hbs⟩
    obtain ⟨host, hh, hb⟩ := host_of_patterns h hd
    refine ⟨host, s, hh, (hostScore_eq_some_iff hb).2 ⟨ho, fun s' ho' => ?_⟩, ?_⟩
    · exact DomainMatchScore.le_iff.2 (hbs i ds s' hd ho').1
    · intro j host' s' hh' hs'
      obtain ⟨ds', hd', hb'⟩ := patterns_of_host h hh'
      obtain ⟨hg, he⟩ := hbs j ds' s' hd' ((hostScore_eq_some_iff hb').1 hs').1
      rw [← DomainMatchScore.le_iff] at hg he
      rcases lt_or_eq_of_le hg with hlt | heq
      · exact .inl hlt
      · exact .inr ⟨heq, Nat.not_lt.1 fun hlt => he hlt heq.symm.le⟩

theorem findVirtualHostIndex_eq_none_iff :
    findVirtualHostIndex a hosts = none ↔ ∀ ds ∈ patterns, ∀ score, ¬ Owns a ds score := by
  rw [findVirtualHostIndex, Option.map_eq_none_iff, argmin_eq_none]
  constructor
  · intro hn ds hmem score ho
    obtain ⟨j, hj⟩ := getElem?_of_mem hmem
    obtain ⟨host, hh, hb⟩ := host_of_patterns h hj
    obtain ⟨b, hbs, -⟩ := exists_hostScore hb ho
    have hs := mem_scored.2 ⟨host, hh, hbs⟩
    rw [hn] at hs
    cases hs
  · intro hnone
    refine List.eq_nil_iff_forall_not_mem.2 fun ⟨score, j⟩ hs => ?_
    obtain ⟨host, hh, hsc⟩ := mem_scored.1 hs
    obtain ⟨ds, hd, hb⟩ := patterns_of_host h hh
    exact hnone ds (mem_of_getElem? hd) score ((hostScore_eq_some_iff hb).1 hsc).1

end

/-- The first host with a best matching pattern; accepted patterns have at most one wildcard, at one end. -/
theorem virtual_host_is_best (authority : Bytes) (h : List.Forall₂ BuiltFrom patterns hosts) :
    (∀ i, findVirtualHostIndex authority hosts = some i ↔ BestHost authority patterns i) ∧
    (findVirtualHostIndex authority hosts = none ↔ ∀ ds ∈ patterns, ∀ d ∈ ds, ∀ s, ¬ DomainMatches d authority s) ∧
    ∀ d, (∃ m, DomainMatcher.tryFrom d = some m) ↔
      d ≠ [] ∧ (wildcard ∉ d ∨ d = [wildcard] ∨ (∃ l, d = wildcard :: l ∧ wildcard ∉ l) ∨
        ∃ l, d = l ++ [wildcard] ∧ wildcard ∉ l) := by
  refine ⟨fun i => findVirtualHostIndex_eq_some_iff h, ?_, fun d => tryFrom_isSome_iff⟩
  rw [findVirtualHostIndex_eq_none_iff h]
  constructor
  · exact fun hnone ds hm d hd s hmt => hnone ds hm s ⟨d, hd, hmt⟩
  · exact fun hnone ds hm s ⟨d, hd, hmt⟩ => hnone ds hm d hd s hmt

end

theorem virtual_host_is_best_suffix :
    BestHost (utf8 "x.A.b") [[utf8 "*"], [utf8 "x.*", utf8 "*.a.B"], [utf8 "*.a.b"]] 1 := by
  let hosts : List (VirtualHost Unit) :=
    [⟨utf8 "all", [.universal], []⟩, ⟨utf8 "first", [.prefixed (utf8 "x."), .suffixed (utf8 ".a.b")], []⟩,
      ⟨utf8 "second", [.suffixed (utf8 ".a.b")], []⟩]
  have hb : List.Forall₂ BuiltFrom [[utf8 "*"], [utf8 "x.*", utf8 "*.a.B"], [utf8 "*.a.b"]] hosts :=
    .cons (.cons (by decide) .nil)
      (.cons (.cons (by decide) (.cons (by decide) .nil)) (.cons (.cons (by decide) .nil) .nil))
  exact ((virtual_host_is_best (utf8 "x.A.b") hb).1 1).1 (by decide)

end GrpcXds.Rds
