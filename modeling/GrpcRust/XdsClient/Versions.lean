import GrpcRust.XdsClient.CacheAgreement
/-!
# Versions, ACKs and NACKs

An ACK if all resources are valid, else a NACK with the version kept before. Valid resources of a rejected response
are delivered all the same.
-/

namespace XdsClient

open Lib AdsWorker List Actor CacheUpdate

variable {B V : Type} {cfg : Config B} {env : Env} {a : Actor B V} {cmd : WorkerCommand B V} {v : View B V}
  {ts : TypeState B V} {rp : DiscoveryResponse B} {any : ResourceAny B}

/-! ## Accepted responses -/

def DecodeResult.isSuccess {T : Type} : DecodeResult T → Bool
  | .success _ _ => true
  | _ => false

def DiscoveryResponse.allValid (response : DiscoveryResponse B) (decoder : DecoderFn B V) : Bool :=
  response.resources.all fun any => (decoder any.value).isSuccess

theorem nackErrorMessage_eq_none {t : List String} {p : List (String × String)} :
    nackErrorMessage t p = none ↔ t = [] ∧ p = [] := by
  cases t <;> cases p <;> simp [nackErrorMessage]

theorem nackError_eq_none : nackError ts rp = none ↔ rp.allValid ts.decoder = true := by
  rw [nackError, nackErrorMessage_eq_none, topLevelErrors, perResourceErrors, filterMap_eq_nil_iff,
    filterMap_eq_nil_iff, DiscoveryResponse.allValid, all_eq_true, ← forall₂_and]
  refine forall₂_congr fun any _ => ?_
  cases ts.decoder any.value <;> simp [DecodeResult.isSuccess]

/-- The version of the response of type `T` that the command brings and the worker accepts whole. -/
def Actor.accepts? (cfg : Config B) (a : Actor B V) (T : String) : WorkerCommand B V → Option String
  | .transport (.response bytes _) =>
    match a.received cfg bytes, a.types T with
    | some (_, response), some ts =>
      if a.running && decide (response.typeUrl = T) && response.allValid ts.decoder then some response.versionInfo
      else none
    | _, _ => none
  | _ => none

theorem Actor.accepts_of_stopped (h : a.running = false) (T : String) : a.accepts? cfg T cmd = none := by
  unfold accepts?
  split
  · split
    · simp [h]
    · rfl
  · rfl

/-- One step of a run, and the version last accepted for `T` while its type state lives. -/
def trackVersion (cfg : Config B) (T : String) (s : Actor B V × String) (i : Env × WorkerCommand B V) :
    Actor B V × String :=
  let next := (worker cfg).next s.1 i
  (next, if (next.types T).isNone then "" else (s.1.accepts? cfg T i.2).getD s.2)

/-- The version of the last response of type `T` without invalid resource, since its state was created. -/
def acceptedVersion (cfg : Config B) (T : String) (is : List (Env × WorkerCommand B V)) : String :=
  (is.foldl (trackVersion cfg T) ((worker cfg).init, "")).2

theorem acceptedVersion_snoc (cfg : Config B) (T : String) (is : List (Env × WorkerCommand B V))
    (i : Env × WorkerCommand B V) :
    acceptedVersion cfg T (is ++ [i]) = if (((worker cfg).next ((worker cfg).run is) i).types T).isNone then ""
      else (((worker cfg).run is).accepts? cfg T i.2).getD (acceptedVersion cfg T is) := by
  have hr : ∀ (is : List (Env × WorkerCommand B V)) s, (is.foldl (trackVersion cfg T) s).1 =
      is.foldl (worker cfg).next s.1 := by
    intro is
    induction is with
    | nil => exact fun _ => rfl
    | cons i is ih => exact fun s => ih _
  rw [acceptedVersion, foldl_append, foldl_cons, foldl_nil, trackVersion, hr]
  rfl

theorem version_registerWatcher (ts : TypeState B V) (n : String) (id : WatcherId) :
    (registerWatcher ts n id).1.versionInfo = ts.versionInfo := by
  obtain ⟨c, h, -⟩ := registerWatcher_eq ts n id
  rw [h]
  rfl

theorem Change.version (hrn : a.running = true) (hc : Change cfg env a cmd v) {T : String} (hts : v.types T = some ts) :
    ts.versionInfo = (a.accepts? cfg T cmd).getD (((a.types T).map (·.versionInfo)).getD "") := by
  cases hc with
  | keep hq =>
    have hts : a.types T = some ts := hts
    have hnone : a.accepts? cfg T cmd = none := by
      unfold accepts?
      split
      · split
        · rename_i s r ts' hr hts'
          refine if_neg fun h => ?_
          have hT : r.typeUrl = T := by simp_all
          have : a.types r.typeUrl = none := hq s r hr
          rw [hT, hts] at this
          cases this
        · rfl
      · rfl
    simp [hnone, hts]
  | watch T' name id decoder required =>
    obtain ⟨rfl, rfl⟩ | ⟨-, hts⟩ := update_eq_some.1 hts
    · rw [version_registerWatcher]
      obtain hts | ⟨hts, hn⟩ := typeStateFor_cases a T decoder required
      · simp [accepts?, hts]
      · simp [accepts?, hts, hn, TypeState.new]
    · simp [accepts?, show a.types T = some ts from hts]
  | @unwatch T' id ts' hts' =>
    obtain ⟨rfl, rfl⟩ | ⟨-, hts⟩ := update_eq_some.1 hts
    · simp [accepts?, hts', dropWatcher, TypeState.recalculateSubscriptions]
    · simp [accepts?, show a.types T = some ts from hts]
  | unwatchLast => simp [accepts?, (update_none_eq_some.1 hts).2]
  | @expire T' n timerId ts' hid hts' =>
    obtain ⟨rfl, rfl⟩ | ⟨-, hts⟩ := update_eq_some.1 hts
    · simp [accepts?, hts']
    · simp [accepts?, show a.types T = some ts from hts]
  | lapse | failed => simp [accepts?, show a.types T = some ts from hts]
  | ready =>
    obtain ⟨ts', hts', rfl⟩ := Option.map_eq_some_iff.1 hts
    simp [accepts?, hts']
  | @response bytes done s response ts' hr hts' =>
    rw [types_response] at hts
    obtain ⟨rfl, rfl⟩ | ⟨hne, hts⟩ := update_eq_some.1 hts
    · simp only [accepts?, hr, hts', hrn, afterResponse, Option.isNone_iff_eq_none, nackError_eq_none]
      cases response.allValid ts'.decoder <;> simp
    · simp [accepts?, hr, show a.types T = some ts from hts, Ne.symm hne]

theorem version_run (cfg : Config B) (T : String) (is : List (Env × WorkerCommand B V)) :
    acceptedVersion cfg T is = ((((worker cfg).run is).types T).map (·.versionInfo)).getD "" := by
  induction is using List.reverseRecOn with
  | nil =>
    rw [show ((worker cfg).run [] : Actor B V).types T = none from types_init cfg T]
    rfl
  | append_singleton is i ih =>
    obtain ⟨env, cmd⟩ := i
    rw [acceptedVersion_snoc, Machine.run_snoc, ih]
    cases hts : ((worker cfg).next ((worker cfg).run is) (env, cmd)).types T with
    | none => rfl
    | some ts =>
      obtain ⟨hr, hn, -⟩ | ⟨v, hr, hc, ht, -⟩ := step_cases cfg ((worker cfg).run is) (env, cmd)
      · rw [hn] at hts
        simp [accepts_of_stopped hr, hts]
      · rw [ht.types] at hts
        exact (hc.version hr hts).symm

/-! ## The resources of a response -/

theorem accepted_applyAll_reject {us : List (CacheUpdate B V)} (h : ∀ u ∈ us, ∃ m r, u = .reject m r) (n : String)
    (c : Cache B V) : ((applyAll c us).lookup n).bind (·.accepted) = (c.lookup n).bind (·.accepted) := by
  induction us generalizing c with
  | nil => rfl
  | cons u us ih =>
    obtain ⟨m, r, rfl⟩ := h u mem_cons_self
    rw [applyAll_cons, ih fun u hu => h u (mem_cons_of_mem _ hu), lookup_apply]
    split
    · rename_i hm
      obtain rfl : n = m := hm
      rfl
    · rfl

theorem lookup_afterResponse (env : Env) {pre post : List (ResourceAny B)} {name : String} {rs : DecodedResource V}
    (hs : rp.resources = pre ++ any :: post) (hd : ts.decoder any.value = .success name rs)
    (hlast : ∀ b ∈ post, ∀ m r, ts.decoder b.value = .success m r → r.name ≠ rs.name) :
    ∃ c, (afterResponse env ts rp).cache.lookup rs.name = some c ∧ c.accepted = some ⟨rp.versionInfo, any, env.now⟩ ∧
      ((∀ b ∈ rp.resources, ∀ e, ts.decoder b.value ≠ .resourceError rs.name e) →
        c = .received rs ⟨rp.versionInfo, any, env.now⟩) := by
  let n := rs.name
  let ac : List (CacheUpdate B V) := (validResources ts.decoder env.now rp).map fun r => .accept r.1 r.2
  let rj : List (CacheUpdate B V) := (perResourceErrors ts.decoder rp).map fun e =>
    .reject e.1 ⟨rp.versionInfo, e.2, env.now⟩
  have hmem : any ∈ rp.resources := by simp [hs]
  have ha : (applyAll ts.cache ac).lookup n = some (.received rs ⟨rp.versionInfo, any, env.now⟩) := by
    simp only [ac, validResources, hs, filterMap_append, filterMap_cons, hd, map_append,
      map_cons, applyAll_append, applyAll_cons]
    rw [lookup_applyAll_of_notMem, lookup_apply]
    · exact if_pos rfl
    · intro u hu
      obtain ⟨p, hp, rfl⟩ := List.mem_map.1 hu
      obtain ⟨b, hb, hp⟩ := List.mem_filterMap.1 hp
      split at hp
      · rename_i m r hbd
        cases hp
        exact hlast b hb m r hbd
      · cases hp
  have hdl : (afterResponse env ts rp).cache.lookup n = (applyAll (applyAll ts.cache ac) rj).lookup n := by
    rw [← applyAll_append, afterResponse, responseUpdates, applyAll_append]
    refine lookup_applyAll_of_notMem (fun u hu => ?_) _
    split at hu
    · obtain ⟨m, hm, rfl⟩ := List.mem_map.1 hu
      rintro rfl
      refine notMem_of_mem_deletedNames hm (List.mem_toFinset.2 (List.mem_map.2 ⟨_, mem_validResources hmem hd, rfl⟩))
    · cases hu
  rw [show rs.name = n from rfl, hdl]
  have hr : ∀ u ∈ rj, ∃ m rejected, u = .reject m rejected := by
    intro u hu
    obtain ⟨e, -, rfl⟩ := List.mem_map.1 hu
    exact ⟨_, _, rfl⟩
  have hk := accepted_applyAll_reject hr n (applyAll ts.cache ac)
  rw [ha] at hk
  obtain ⟨c, hc, hac⟩ := Option.bind_eq_some_iff.1 hk
  refine ⟨c, hc, hac, fun hno => ?_⟩
  rw [lookup_applyAll_of_notMem, ha] at hc
  · exact (Option.some.inj hc).symm
  · intro u hu
    obtain ⟨e, he, rfl⟩ := List.mem_map.1 hu
    obtain ⟨b, hb, he⟩ := List.mem_filterMap.1 he
    split at he
    · rename_i m err hbd
      cases he
      rintro rfl
      exact hno b hb err hbd
    · cases he

theorem mem_responseEvents (ha : any ∈ rp.resources) {n : String} {r : DecodedResource V}
    (hd : ts.decoder any.value = .success n r) {id : WatcherId} {e : WatcherEntry}
    (he : ts.watchers.lookup id = some e) (hm : e.subscription.matchesName r.name = true) (done : ProcessingDone) :
    (id, .resourceChanged (.ok r) done) ∈
      CacheUpdate.events env.order ts.watchers done (responseUpdates env ts rp) := by
  refine List.mem_flatMap.2 ⟨.accept r ⟨rp.versionInfo, any, env.now⟩, ?_, ?_⟩
  · refine mem_append_left _ (mem_append_left _ ?_)
    exact List.mem_map.2 ⟨_, mem_validResources ha hd, rfl⟩
  · exact List.mem_map.2 ⟨id, Watchers.mem_matching.2 ⟨e, he, hm⟩, rfl⟩

/-- Requests carry the last accepted version; a response is answered once, and its valid resources are delivered. -/
theorem response_versions_and_replies (cfg : Config B) (is : List (Env × WorkerCommand B V))
    (i : Env × WorkerCommand B V) :
    (∀ q ∈ requests ((worker cfg).out ((worker cfg).run is) i),
      q.2.versionInfo = acceptedVersion cfg q.2.typeUrl (is ++ [i])) ∧
    ∀ bytes done session response ts, i.2 = .transport (.response bytes done) →
      ((worker cfg).run is).running = true → ((worker cfg).run is).received cfg bytes = some (session, response) →
      ((worker cfg).run is).types response.typeUrl = some ts →
      (∃ q, requests ((worker cfg).out ((worker cfg).run is) i) = [(session, q)] ∧ q.typeUrl = response.typeUrl ∧
        q.responseNonce = response.nonce ∧ (q.errorDetail = none ↔ response.allValid ts.decoder = true)) ∧
      ∀ pre any post name resource, response.resources = pre ++ any :: post →
        ts.decoder any.value = .success name resource →
        (∀ id e, ts.watchers.lookup id = some e → e.subscription.matchesName resource.name = true →
          (id, .resourceChanged (.ok resource) done) ∈ events ((worker cfg).out ((worker cfg).run is) i)) ∧
        ((∀ b ∈ post, ∀ m r, ts.decoder b.value = .success m r → r.name ≠ resource.name) →
          ∃ ts' c, ((worker cfg).run (is ++ [i])).types response.typeUrl = some ts' ∧
            ts'.cache.lookup resource.name = some c ∧
            c.accepted = some ⟨response.versionInfo, any, i.1.now⟩ ∧
            ((∀ b ∈ response.resources, ∀ e, ts.decoder b.value ≠ .resourceError resource.name e) →
              c = .received resource ⟨response.versionInfo, any, i.1.now⟩)) := by
  constructor
  · intro q hq
    obtain ⟨-, ts, hts, -, hv, -⟩ := request_reflects_type cfg _ i hq
    rw [hv, version_run, Machine.run_snoc, hts]
    rfl
  · intro bytes done session response ts hi hrn hrc hts
    obtain ⟨env, cmd⟩ := i
    obtain rfl : cmd = _ := hi
    obtain ⟨hr, -⟩ | ⟨v, -, hc, ht, he, hq⟩ := step_cases cfg ((worker cfg).run is)
      (env, .transport (.response bytes done))
    · rw [hrn] at hr; cases hr
    · have hrp := ht.reply bytes done rfl
      rw [Machine.run_snoc, hq, hrp, he, ht.types]
      cases hc with
      | keep hqt =>
        have hnone := hqt session response hrc
        rw [hts] at hnone
        cases hnone
      | @response _ _ s r ts' hr hts' =>
        rw [hrc] at hr
        cases hr
        rw [hts] at hts'
        cases hts'
        refine ⟨⟨reply cfg env ts response, rfl, rfl, rfl, ?_⟩, fun pre any post name resource hs hd => ?_⟩
        · rw [← nackError_eq_none]
          simp [reply]
        · refine ⟨fun id e hw hm => mem_responseEvents (by simp [hs]) hd hw hm done, fun hlast => ?_⟩
          obtain ⟨c, hc, hrest⟩ := lookup_afterResponse env hs hd hlast
          exact ⟨_, c, by rw [types_response]; exact Function.update_self _ _ _, hc, hrest⟩

/-- A valid `a` and an unreadable resource: NACKed, and `a` is cached. -/
theorem response_versions_and_replies_nack :
    ∃ ts c, ((worker (Small.cfg fun _ => .ok (Small.response "1" "n1" [0, 2]))).run
        ([Small.watch "a" 1, Small.ready 0] ++ [Small.receive 0])).types "T" = some ts ∧
      ts.cache.lookup "a" = some c ∧ c = .received ⟨"T", "a", ()⟩ ⟨"1", ⟨"T", 0⟩, 0⟩ := by
  obtain ⟨-, h⟩ := response_versions_and_replies (Small.cfg fun _ => .ok (Small.response "1" "n1" [0, 2]))
    [Small.watch "a" 1, Small.ready 0] (Small.receive 0)
  obtain ⟨-, h⟩ := h 0 .detached 0 (Small.response "1" "n1" [0, 2]) _ rfl rfl rfl rfl
  obtain ⟨ts, c, hts, hc, -, hcc⟩ := (h [] ⟨"T", 0⟩ [⟨"T", 2⟩] "a" ⟨"T", "a", ()⟩ rfl rfl).2 (by
    rintro b hb m r hd
    obtain rfl := List.mem_singleton.1 hb
    cases hd)
  refine ⟨ts, c, hts, hc, hcc ?_⟩
  rintro b hb e hd
  simp only [Small.response, map_cons, map_nil, mem_cons, not_mem_nil, or_false] at hb
  rcases hb with rfl | rfl <;> cases hd

/-- A valid and an invalid resource of one name: after the NACK the valid one is not cached. -/
theorem nack_of_same_name_uncaches : Small.decoder 0 = .success "a" ⟨"T", "a", ()⟩ ∧
    (requests ((worker (Small.cfg fun _ => .ok (Small.response "1" "n1" [0, 1]))).out
      ((worker (Small.cfg fun _ => .ok (Small.response "1" "n1" [0, 1]))).run [Small.watch "a" 1, Small.ready 0])
      (Small.receive 0))).map (fun q => (q.2.responseNonce, q.2.errorDetail.isSome)) = [("n1", true)] ∧
    ∃ ts c, ((worker (Small.cfg fun _ => .ok (Small.response "1" "n1" [0, 1]))).run
        [Small.watch "a" 1, Small.ready 0, Small.receive 0]).types "T" = some ts ∧
      ts.cache.lookup "a" = some c ∧ c.resource = none ∧
      c.state = .nacked ⟨"1", "resource validation failed: bad", 0⟩ :=
  ⟨rfl, rfl, _, _, rfl, rfl, rfl, rfl⟩

end XdsClient
