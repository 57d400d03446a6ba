import GrpcRust.XdsClient.Subscriptions
/-!
# Nonces

A type state goes with its last watcher while the stream stays: watched again, the type has an empty nonce.
-/

namespace XdsClient

open Lib AdsWorker

variable {B V : Type} {cfg : Config B} {env : Env} {a : Actor B V} {cmd : WorkerCommand B V} {v : View B V}
  {Good : String → String → Prop} {s : SessionId} {is : List (Env × WorkerCommand B V)}
  {rs : List (DiscoveryResponse B)} {T : String}

/-! ## The current stream, from the messages alone -/

def receiveOn (cfg : Config B) (rs : List (DiscoveryResponse B)) : WorkerCommand B V → List (DiscoveryResponse B)
  | .transport (.ready _) => []
  | .transport (.response bytes _) =>
    match cfg.codec.decodeResponse bytes with
    | .ok response => rs ++ [response]
    | .error _ => rs
  | _ => rs

def streamResponses (cfg : Config B) (is : List (Env × WorkerCommand B V)) : List (DiscoveryResponse B) :=
  is.foldl (fun rs i => receiveOn cfg rs i.2) []

def streamSession (is : List (Env × WorkerCommand B V)) : Option SessionId :=
  is.foldl (fun s i => i.2.readySession?.or s) none

def latestNonce (T : String) (rs : List (DiscoveryResponse B)) : String :=
  ((rs.filter fun r => r.typeUrl = T).getLast?.map (·.nonce)).getD ""

@[simp] theorem streamResponses_snoc (cfg : Config B) (is : List (Env × WorkerCommand B V))
    (i : Env × WorkerCommand B V) : streamResponses cfg (is ++ [i]) = receiveOn cfg (streamResponses cfg is) i.2 := by
  simp [streamResponses]

theorem latestNonce_snoc (T : String) (rs : List (DiscoveryResponse B)) (r : DiscoveryResponse B) :
    latestNonce T (rs ++ [r]) = if r.typeUrl = T then r.nonce else latestNonce T rs := by
  by_cases h : r.typeUrl = T <;> simp [latestNonce, h]

theorem latestNonce_receiveOn (hr : ∀ s, cmd ≠ .transport (.ready s))
    (hrs : ∀ bs done r, cmd = .transport (.response bs done) → cfg.codec.decodeResponse bs = .ok r → r.typeUrl ≠ T) :
    latestNonce T (receiveOn cfg rs cmd) = latestNonce T rs := by
  unfold receiveOn
  split
  · exact absurd rfl (hr _)
  · split
    · rw [latestNonce_snoc, if_neg (hrs _ _ _ rfl ‹_›)]
    · rfl
  · rfl

/-! ## The invariant -/

/-- An active stream is `session`, and each type's nonce is `Good` for the responses `rs` on it. -/
def OnStream (Good : String → String → Prop) (a : Actor B V) (session : Option SessionId)
    (rs : List (DiscoveryResponse B)) : Prop :=
  a.running = true → ∀ s, a.context.active = some s →
    session = some s ∧ ∀ T ts, a.types T = some ts → Good ts.nonce (latestNonce T rs)

theorem nonce_registerWatcher (ts : TypeState B V) (n : String) (id : WatcherId) :
    (registerWatcher ts n id).1.nonce = ts.nonce := by
  obtain ⟨c, h, -⟩ := registerWatcher_eq ts n id
  rw [h]
  rfl

theorem Change.nonces (hrf : ∀ n, Good n n) (hc : Change cfg env a cmd v) (hs : a.sender cmd = some s)
    (hi : ∀ s, a.context.active = some s → ∀ T ts, a.types T = some ts → Good ts.nonce (latestNonce T rs))
    (hn : ∀ T name id decoder required, cmd = .watcher (.watch T name id decoder required) → a.types T = none →
      Good "" (latestNonce T rs))
    {ts : TypeState B V} (hts : v.types T = some ts) : Good ts.nonce (latestNonce T (receiveOn cfg rs cmd)) := by
  have ho : (∀ s, cmd ≠ .transport (.ready s)) → ∀ T ts, a.types T = some ts → Good ts.nonce (latestNonce T rs) :=
    fun hrd => hi s (Actor.active_of_sender hs hrd)
  cases hc with
  | keep hq =>
    have hrd : ∀ s, cmd ≠ .transport (.ready s) := by rintro s rfl; exact hq
    rw [latestNonce_receiveOn hrd]
    · exact ho hrd T ts hts
    · rintro bytes done r rfl hd rfl
      have hnone : a.types r.typeUrl = none := hq s r (received_of_active (Actor.active_of_sender hs hrd) hd)
      exact absurd (hnone.symm.trans hts) nofun
  | watch T' name id decoder required =>
    obtain ⟨rfl, rfl⟩ | ⟨-, hts⟩ := update_eq_some.1 hts
    · rw [nonce_registerWatcher]
      obtain hts | ⟨hts, hn'⟩ := typeStateFor_cases a T decoder required
      · exact ho nofun T _ hts
      · rw [hn']; exact hn T name id decoder required rfl hts
    · exact ho nofun T ts hts
  | @unwatch T' id ts' hts' =>
    obtain ⟨rfl, rfl⟩ | ⟨-, hts⟩ := update_eq_some.1 hts
    · exact ho nofun _ ts' hts'
    · exact ho nofun T ts hts
  | unwatchLast hts' => exact ho nofun T ts (update_none_eq_some.1 hts).2
  | @expire T' n timerId ts' hid hts' =>
    obtain ⟨rfl, rfl⟩ | ⟨-, hts⟩ := update_eq_some.1 hts
    · exact ho nofun _ ts' hts'
    · exact ho nofun T ts hts
  | lapse => exact ho nofun T ts hts
  | ready =>
    obtain ⟨ts, -, rfl⟩ := Option.map_eq_some_iff.1 hts
    exact hrf ""
  | @response bytes done s' response ts' hr hts' =>
    have hrs : receiveOn cfg rs (.transport (.response bytes done) : WorkerCommand B V) = rs ++ [response] := by
      simp [receiveOn, decode_of_received hr]
    rw [types_response] at hts
    rw [hrs, latestNonce_snoc]
    obtain ⟨rfl, rfl⟩ | ⟨hne, hts⟩ := update_eq_some.1 hts
    · rw [if_pos rfl]; exact hrf _
    · rw [if_neg (Ne.symm hne)]; exact ho nofun T ts hts
  | failed => cases hs

theorem streamSession_snoc (hi : ∀ s, a.context.active = some s → streamSession is = some s)
    (h : a.sender cmd = some s) : streamSession (is ++ [(env, cmd)]) = some s := by
  have hs : streamSession (is ++ [(env, cmd)]) = cmd.readySession?.or (streamSession is) := by simp [streamSession]
  rw [hs]
  match cmd, h with
  | .transport (.ready _), h => exact h
  | .watcher _, h | .transport (.response ..), h | .transportStopped, h | .snapshot, h => exact hi s h

def StartsOver (cfg : Config B) (pre : List (Env × WorkerCommand B V)) (cmd : WorkerCommand B V) (T : String) : Prop :=
  (∃ name id decoder required, cmd = .watcher (.watch T name id decoder required)) ∧
    ((worker cfg).run pre).context.active.isSome ∧ ((worker cfg).run pre).types T = none

theorem nonces_next (hrf : ∀ n, Good n n)
    (hi : OnStream Good ((worker cfg).run is) (streamSession is) (streamResponses cfg is))
    (hn : ∀ T, StartsOver cfg is cmd T → Good "" (latestNonce T (streamResponses cfg is)))
    (hr : ((worker cfg).run is).running = true) (hc : Change cfg env ((worker cfg).run is) cmd v)
    (hs : ((worker cfg).run is).sender cmd = some s) : streamSession (is ++ [(env, cmd)]) = some s ∧
      ∀ T ts, v.types T = some ts → Good ts.nonce (latestNonce T (streamResponses cfg (is ++ [(env, cmd)]))) := by
  refine ⟨streamSession_snoc (fun s h => (hi hr s h).1) hs, fun T ts hts => ?_⟩
  rw [streamResponses_snoc]
  refine hc.nonces hrf hs (fun s h => (hi hr s h).2) ?_ hts
  rintro T name id d r rfl hT
  have ha := Actor.active_of_sender hs nofun
  exact hn T ⟨⟨name, id, d, r, rfl⟩, by simp [ha], hT⟩

theorem onStream_run (hrf : ∀ n, Good n n) (is : List (Env × WorkerCommand B V))
    (hnw : Machine.Along (fun pre i => ∀ T, StartsOver cfg pre i.2 T →
      Good "" (latestNonce T (streamResponses cfg pre))) is) :
    OnStream Good ((worker cfg).run is) (streamSession is) (streamResponses cfg is) := by
  induction is using List.reverseRecOn with
  | nil =>
    intro _ s h
    rw [show ((worker cfg).run [] : Actor B V).context.active = none from active_init cfg] at h
    cases h
  | append_singleton is i ih =>
    obtain ⟨hp, hnw⟩ := Machine.along_snoc.1 hnw
    obtain ⟨env, cmd⟩ := i
    rw [Machine.run_snoc]
    obtain ⟨hr, hn, -⟩ | ⟨v, hr, hc, ht, -⟩ := step_cases cfg ((worker cfg).run is) (env, cmd)
    · intro h
      rw [hn, hr] at h
      cases h
    · intro _ s hs
      rw [ht.types]
      exact nonces_next hrf (ih hp) hnw hr hc (ht.active s hs).1

theorem request_nonce (cfg : Config B) (Good : String → String → Prop) (hr : ∀ n, Good n n)
    {i : Env × WorkerCommand B V}
    (hn : Machine.Along (fun pre i => ∀ T, StartsOver cfg pre i.2 T →
      Good "" (latestNonce T (streamResponses cfg pre))) (is ++ [i]))
    {q : SessionId × DiscoveryRequest} (hq : q ∈ requests ((worker cfg).out ((worker cfg).run is) i)) :
    streamSession (is ++ [i]) = some q.1 ∧
      Good q.2.responseNonce (latestNonce q.2.typeUrl (streamResponses cfg (is ++ [i]))) := by
  obtain ⟨hp, hn⟩ := Machine.along_snoc.1 hn
  obtain ⟨hs, ts, hts, -, -, hnc⟩ := request_reflects_type cfg _ i hq
  obtain ⟨env, cmd⟩ := i
  obtain ⟨-, -, ho⟩ | ⟨v, hrn, hc, ht, -⟩ := step_cases cfg ((worker cfg).run is) (env, cmd)
  · rw [ho] at hq; cases hq
  · obtain ⟨hss, hnn⟩ := nonces_next hr (onStream_run hr is hp) hn hrn hc hs
    rw [ht.types] at hts
    exact ⟨hss, hnc ▸ hnn _ ts hts⟩

/-- Requests carry the last nonce of their type and stream, or none; none only before the first, if no type starts
over. -/
theorem request_nonce_of_stream (cfg : Config B) (is : List (Env × WorkerCommand B V)) (i : Env × WorkerCommand B V)
    (q : SessionId × DiscoveryRequest) (hq : q ∈ requests ((worker cfg).out ((worker cfg).run is) i)) :
    streamSession (is ++ [i]) = some q.1 ∧
    (q.2.responseNonce = "" ∨ q.2.responseNonce = latestNonce q.2.typeUrl (streamResponses cfg (is ++ [i]))) ∧
    (Machine.Along (fun pre i => ∀ T, StartsOver cfg pre i.2 T → latestNonce T (streamResponses cfg pre) = "")
        (is ++ [i]) →
      q.2.responseNonce = latestNonce q.2.typeUrl (streamResponses cfg (is ++ [i]))) := by
  have ha := request_nonce cfg (fun n m => n = "" ∨ n = m) (fun _ => .inr rfl) (fun _ _ _ _ _ => .inl rfl) hq
  refine ⟨ha.1, ha.2, fun hn => ?_⟩
  exact (request_nonce cfg (· = ·) (fun _ => rfl) (fun pre j hp T hT => (hn pre j hp T hT).symm) hq).2

/-- The ACK of the first response on a stream. -/
theorem request_nonce_of_stream_ack :
    ∃ q ∈ requests ((worker (Small.cfg fun _ => .ok (Small.response "1" "n1" [0]))).out
        ((worker (Small.cfg fun _ => .ok (Small.response "1" "n1" [0]))).run [Small.watch "a" 1, Small.ready 0])
        (Small.receive 0)), q.2.responseNonce = "n1" := by
  refine ⟨_, List.mem_cons_self, (request_nonce_of_stream (Small.cfg fun _ => .ok (Small.response "1" "n1" [0]))
    [Small.watch "a" 1, Small.ready 0] (Small.receive 0) _ List.mem_cons_self).2.2 ?_⟩
  refine Machine.along_snoc.2 ⟨?_, fun T _ => rfl⟩
  show Machine.Along _ (([] ++ [Small.watch "a" 1]) ++ [Small.ready 0])
  exact Machine.along_snoc.2 ⟨Machine.along_snoc.2 ⟨Machine.along_nil _, fun T _ => rfl⟩, fun T _ => rfl⟩

/-- A type is watched again on the same stream: its request has no nonce although the stream delivered `n1`. -/
theorem rewatch_sends_empty_nonce : (requests ((worker (Small.cfg fun _ => .ok (Small.response "1" "n1" [0]))).out
        ((worker (Small.cfg fun _ => .ok (Small.response "1" "n1" [0]))).run
          [Small.watch "a" 1, Small.ready 0, Small.receive 0, Small.unwatch 1])
        (Small.watch "a" 2))).map (fun q => (q.1, q.2.typeUrl, q.2.responseNonce)) = [(0, "T", "")] ∧
      streamSession [Small.watch "a" 1, Small.ready 0, Small.receive 0, Small.unwatch 1, Small.watch "a" 2] = some 0 ∧
      latestNonce "T" (streamResponses (Small.cfg fun _ => .ok (Small.response "1" "n1" [0]))
        [Small.watch "a" 1, Small.ready 0, Small.receive 0, Small.unwatch 1, Small.watch "a" 2]) = "n1" :=
  ⟨rfl, rfl, rfl⟩

end XdsClient
