import GrpcRust.GrpcTimeoutEncoding
import GrpcRust.Lib.Polling
import GrpcRust.TonicXds.RouteConfig
/-!
# The deadline of a call

`client/deadline.rs`, with the gRPC policy. Times are in nanoseconds; none after `maxInstant` can be represented.
Whether the timer of the deadline has fired is an input of each poll.
-/

namespace TonicXds.CallDeadline

open Lib Lib.Bytes GrpcTimeout GrpcTimeout.TonicXds

variable (maxInstant : Nat)

structure DeadlineTimer where
  start : Nat
  sleep : Option Nat
deriving DecidableEq

def checkedAdd (start timeout : Nat) : Option Nat :=
  if start + timeout ≤ maxInstant then some (start + timeout) else none

def DeadlineTimer.tighten (t : DeadlineTimer) (timeout : Option Nat) : DeadlineTimer :=
  match timeout.bind (checkedAdd maxInstant t.start), t.sleep with
  | none, _ => t
  | some deadline, some sleep => if sleep ≤ deadline then t else { t with sleep := some deadline }
  | some deadline, none => { t with sleep := some deadline }

def appTimeout (headers : HeaderMap) : Option Nat :=
  match extractGrpcTimeout headers with
  | .ok timeout => timeout
  | .error _ => none

def start (headers : HeaderMap) (now : Nat) : DeadlineTimer :=
  DeadlineTimer.tighten maxInstant ⟨now, none⟩ (appTimeout headers)

/-- The error is `DEADLINE_EXCEEDED`; otherwise the `CallDeadline` of the request, if there is one. -/
def DeadlineTimer.applyRoute (t : DeadlineTimer) (now : Nat) (maxStreamDuration : Option Nat) :
    Except Unit (DeadlineTimer × Option Nat) :=
  let t := t.tighten maxInstant maxStreamDuration
  match t.sleep with
  | none => .ok (t, none)
  | some deadline => if deadline ≤ now then .error () else .ok (t, some deadline)

/-- The limit of a route as the cache publishes it: its own, or else that of the listener unless it is zero. -/
def publishedLimit (own : Option Nat) (listener : Option Envoy.Duration) : Option Nat :=
  own.or ((listener.bind Rds.protoDuration).filter (· ≠ 0))

/-- An explicit zero is no limit, and keeps the one of the listener away. -/
def routeLimit (maxStreamDuration : Option Nat) : Option Nat := maxStreamDuration.filter (· ≠ 0)

def setGrpcTimeoutHeader (callDeadline : Option Nat) (now : Nat) (headers : HeaderMap) : HeaderMap :=
  match callDeadline with
  | none => headers
  | some deadline =>
    match headerValue? (encodeGrpcTimeout (deadline - now)) with
    | some value => headers.insert grpcTimeoutHeader value
    | none => headers

/-! ## The response -/

section
variable {σ F E : Type}

inductive Failure (E : Type)
  | inner (e : E)
  | deadlineExceeded

structure GrpcDeadlineBody (σ : Type) where
  inner : Option σ
  sleep : Nat

/-- `ResponseFuture::poll` with the response or error of the call, if it is ready. A response keeps the deadline. -/
def pollResponse (isCancelled : σ → Bool) (now : Nat) (fired : Bool) (sleep : Option Nat) :
    Option (Except E σ) → Poll (Failure E) (σ × Option (GrpcDeadlineBody σ))
  | some result =>
    let expired := sleep.any (· ≤ now)
    match result with
    | .error e => if expired then .failed .deadlineExceeded else .failed (.inner e)
    | .ok body =>
      if expired && isCancelled body then .failed .deadlineExceeded
      else .item (body, sleep.map fun sleep => ⟨some body, sleep⟩)
  | none => if sleep.isSome && fired then .failed .deadlineExceeded else .pending

variable (isData : F → Bool) (pollInner : σ → Poll E F × σ)

def GrpcDeadlineBody.pollFrame (b : GrpcDeadlineBody σ) (fired : Bool) : Poll (Failure E) F × GrpcDeadlineBody σ :=
  match b.inner with
  | none => (.ended, b)
  | some inner =>
    if fired then (.failed .deadlineExceeded, { b with inner := none })
    else
      match pollInner inner with
      | (.pending, inner) => (.pending, { b with inner := some inner })
      | (.item frame, inner) => (.item frame, { b with inner := if isData frame then some inner else none })
      | (.failed e, _) => (.failed (.inner e), { b with inner := none })
      | (.ended, _) => (.ended, { b with inner := none })

/-- The answers to a run of polls, each with whether the timer had fired. -/
def GrpcDeadlineBody.polls (b : GrpcDeadlineBody σ) : List Bool → List (Bool × Poll (Failure E) F)
  | [] => []
  | fired :: later =>
    (fired, (b.pollFrame isData pollInner fired).1) :: polls (b.pollFrame isData pollInner fired).2 later

/-- Trailers, an error or the end. -/
def Over : Poll (Failure E) F → Prop
  | .pending => False
  | .item frame => isData frame = false
  | _ => True

variable {isData pollInner} {b : GrpcDeadlineBody σ} {fired : Bool}

theorem pollFrame_ended (h : b.inner = none) : b.pollFrame isData pollInner fired = (.ended, b) := by
  simp [GrpcDeadlineBody.pollFrame, h]

theorem pollFrame_fired : (b.pollFrame isData pollInner true).1 = .ended ∨
    (b.pollFrame isData pollInner true).1 = .failed .deadlineExceeded := by
  cases h : b.inner with
  | none => exact .inl (by rw [pollFrame_ended h])
  | some inner => exact .inr (by simp [GrpcDeadlineBody.pollFrame, h])

theorem pollFrame_over (h : Over isData (b.pollFrame isData pollInner fired).1) :
    (b.pollFrame isData pollInner fired).2.inner = none := by
  unfold GrpcDeadlineBody.pollFrame at h ⊢
  cases hi : b.inner with
  | none => exact hi
  | some inner =>
    cases fired with
    | true => rfl
    | false =>
      simp only [hi] at h ⊢
      rcases hp : pollInner inner with ⟨_ | _ | frame | e, i⟩ <;> simp_all [Over]

theorem polls_ended (h : b.inner = none) (timer : List Bool) : ∀ p ∈ b.polls isData pollInner timer, p.2 = .ended := by
  induction timer with
  | nil => simp [GrpcDeadlineBody.polls]
  | cons fired later ih =>
    rw [GrpcDeadlineBody.polls, pollFrame_ended h]
    simpa using ih

theorem polls_over (timer : List Bool) :
    (b.polls isData pollInner timer).Pairwise fun p q => Over isData p.2 → q.2 = .ended := by
  induction timer generalizing b with
  | nil => exact .nil
  | cons fired later ih =>
    exact .cons (fun q hq hover => polls_ended (pollFrame_over hover) later q hq) ih

theorem polls_fired (timer : List Bool) : ∀ p ∈ b.polls isData pollInner timer, p.1 = true →
    p.2 = .ended ∨ p.2 = .failed .deadlineExceeded := by
  induction timer generalizing b with
  | nil => simp [GrpcDeadlineBody.polls]
  | cons fired later ih =>
    intro p hp hfired
    rcases List.mem_cons.1 hp with rfl | hp
    · obtain rfl : fired = true := hfired
      exact pollFrame_fired
    · exact ih p hp hfired

theorem pollResponse_item {isCancelled : σ → Bool} {now deadline : Nat} {body : σ}
    {out : σ × Option (GrpcDeadlineBody σ)}
    (h : pollResponse (E := E) isCancelled now fired (some deadline) (some (.ok body)) = .item out) :
    out.2 = some ⟨some body, deadline⟩ := by
  simp only [pollResponse] at h
  split at h
  · cases h
  · cases h
    rfl

end

/-! ## The deadline -/

def smaller : Option Nat → Option Nat → Option Nat
  | some a, some b => some (min a b)
  | none, b => b
  | a, none => a

theorem eq_or_eq_of_smaller {a b : Option Nat} {t : Nat} (h : smaller a b = some t) : a = some t ∨ b = some t := by
  rcases a with _ | a <;> rcases b with _ | b <;> simp_all [smaller]
  omega

theorem tighten_tighten (now : Nat) (a b : Option Nat) :
    (DeadlineTimer.tighten maxInstant ⟨now, none⟩ a).tighten maxInstant b =
      ⟨now, (smaller a b).bind (checkedAdd maxInstant now)⟩ := by
  cases a <;> cases b <;> simp only [smaller, DeadlineTimer.tighten, Option.bind_none, Option.bind_some, checkedAdd] <;>
    split_ifs <;> simp_all <;> grind

theorem applyRoute_of {t : DeadlineTimer} {s now : Nat} {l d : Option Nat}
    (h : t.tighten maxInstant l = ⟨s, d⟩) : t.applyRoute maxInstant now l =
      if d.any (· ≤ now) then .error () else .ok (⟨s, d⟩, d) := by
  rw [DeadlineTimer.applyRoute, h]
  cases d <;> simp

theorem appTimeout_le {headers : HeaderMap} {t : Nat} (h : appTimeout headers = some t) :
    t ≤ 99999999 * TimeoutUnit.hour.nanos := by
  unfold appTimeout at h
  split at h
  · rename_i timeout ht
    subst h
    cases hget : headers.get grpcTimeoutHeader with
    | none => simp [extractGrpcTimeout, hget] at ht
    | some value => exact accepted_le ((extractGrpcTimeout_eq_some hget t).1 ht)
  · cases h

theorem routeLimit_le {own : Option Nat} {listener : Option Envoy.Duration} {t : Nat}
    (hown : ∀ limit ∈ own, Rds.IsProtoDuration limit) (h : routeLimit (publishedLimit own listener) = some t) :
    t ≤ 99999999 * TimeoutUnit.hour.nanos := by
  have hproto : Rds.IsProtoDuration t := by
    rcases Option.or_eq_some_iff.1 (Option.filter_eq_some_iff.1 h).1 with h | ⟨_, h⟩
    · exact hown t h
    · obtain ⟨d, _, hd⟩ := Option.bind_eq_some_iff.1 (Option.filter_eq_some_iff.1 h).1
      exact ⟨d, hd⟩
  have hbound : (Rds.maxProtoDurationSeconds.toNat + 1) * 1000000000 ≤ 99999999 * TimeoutUnit.hour.nanos := by decide
  exact (hproto.lt.trans_le hbound).le

theorem advertised {d now : Nat} (h : d - now ≤ 99999999 * TimeoutUnit.hour.nanos) (headers : HeaderMap) :
    ∃ t, extractGrpcTimeout (setGrpcTimeoutHeader (some d) now headers) = .ok (some t) ∧ d - now ≤ t := by
  obtain ⟨t, ha, hle⟩ := encodeGrpcTimeout_accepted (d - now)
  refine ⟨t, ?_, min_eq_left h ▸ hle⟩
  have hn : headerName? grpcTimeoutHeader = some grpcTimeoutHeader := by decide
  simp only [setGrpcTimeoutHeader, headerValue?_of_visible (visible_of_accepted ha)]
  exact (extractGrpcTimeout_eq_some (by simp [HeaderMap.get, hn]) t).2 ha

/-- The deadline after routing, what an attempt advertises of it, and the body of a response under it: neither a
header nor an accepted route can set a limit that is too long for the header of an attempt. -/
theorem call_deadline {action : Envoy.RouteAction} {own : Option Nat}
    (haction : Rds.routeMaxStreamDuration action = .ok own) (listener : Option Envoy.Duration) (headers : HeaderMap)
    (callStart now : Nat) :
    let limit := routeLimit (publishedLimit own listener)
    let deadline := (smaller (appTimeout headers) limit).bind (checkedAdd maxInstant callStart)
    (start maxInstant headers callStart).applyRoute maxInstant now limit =
        (if deadline.any (· ≤ now) then .error () else .ok (⟨callStart, deadline⟩, deadline)) ∧
      ∀ d ∈ deadline,
        (∀ attempt ≥ callStart, ∀ headers, ∃ t,
          extractGrpcTimeout (setGrpcTimeoutHeader (some d) attempt headers) = .ok (some t) ∧ d - attempt ≤ t) ∧
        ∀ {σ F E : Type} (isData : F → Bool) (pollInner : σ → Poll E F × σ) (isCancelled : σ → Bool) (ready : Nat)
          (fired : Bool) (body : σ) (out : σ × Option (GrpcDeadlineBody σ)),
          pollResponse (E := E) isCancelled ready fired (some d) (some (.ok body)) = .item out →
            ∃ b, out.2 = some b ∧ ∀ timer,
              (∀ p ∈ b.polls isData pollInner timer, p.1 = true → p.2 = .ended ∨ p.2 = .failed .deadlineExceeded) ∧
                (b.polls isData pollInner timer).Pairwise fun p q => Over isData p.2 → q.2 = .ended := by
  intro limit deadline
  refine ⟨applyRoute_of _ (tighten_tighten ..), fun d hd => ⟨fun attempt hattempt headers' => ?_, ?_⟩⟩
  · obtain ⟨t, ht, hadd⟩ := Option.bind_eq_some_iff.1 hd
    have hle : t ≤ 99999999 * TimeoutUnit.hour.nanos := by
      rcases eq_or_eq_of_smaller ht with h | h
      · exact appTimeout_le h
      · exact routeLimit_le (Rds.routeMaxStreamDuration_isProtoDuration haction) h
    have hsum : d = callStart + t := by
      unfold checkedAdd at hadd
      split_ifs at hadd
      exact (Option.some.inj hadd).symm
    exact advertised (by omega) headers'
  · intro σ F E isData pollInner isCancelled ready fired body out h
    exact ⟨_, pollResponse_item h, fun timer => ⟨polls_fired timer, polls_over timer⟩⟩

def limited : Envoy.RouteAction where
  clusterSpecifier := some (.cluster (utf8 "backend"))
  maxStreamDuration := some { grpcTimeoutHeaderMax := none, maxStreamDuration := some ⟨5, 0⟩ }

def tenSeconds : HeaderMap := HeaderMap.empty.insert grpcTimeoutHeader (utf8 "10S")

/-- A call that starts at one second with a timeout of ten, on a route with a limit of five: an attempt made at two
seconds has four left. -/
theorem call_deadline_limited : Rds.routeMaxStreamDuration limited = .ok (some (5 * 10 ^ 9)) ∧
    (start (2 ^ 63) tenSeconds (10 ^ 9)).applyRoute (2 ^ 63) (2 * 10 ^ 9)
        (routeLimit (publishedLimit (some (5 * 10 ^ 9)) none)) =
      .ok (⟨10 ^ 9, some (6 * 10 ^ 9)⟩, some (6 * 10 ^ 9)) ∧
    ∃ t, extractGrpcTimeout (setGrpcTimeoutHeader (some (6 * 10 ^ 9)) (2 * 10 ^ 9) tenSeconds) = .ok (some t) ∧
      4 * 10 ^ 9 ≤ t := by
  have haction : Rds.routeMaxStreamDuration limited = .ok (some (5 * 10 ^ 9)) := rfl
  obtain ⟨happly, hbudget⟩ := call_deadline (2 ^ 63) haction none tenSeconds (10 ^ 9) (2 * 10 ^ 9)
  have hleft := (hbudget (6 * 10 ^ 9) (by decide +kernel)).1 (2 * 10 ^ 9) (by decide) tenSeconds
  exact ⟨haction, happly.trans (by decide +kernel), hleft⟩

end TonicXds.CallDeadline
