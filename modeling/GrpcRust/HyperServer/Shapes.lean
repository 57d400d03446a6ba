import GrpcRust.HyperServer.Call
/-!
# What a call can look like

`Shape` lists what a call can look like between two steps: the messages polled and those in the channel are those
sent.
-/

namespace HyperServer

open Lib Lib.Bytes Grpc Tonic

/-! ## Shapes of a call -/

def Task.Live : Task → Prop
  | .running => True
  | .queueing _ => True
  | _ => False

namespace Ending

def trailers : Ending → Option Trailers
  | .returned trailers _ => some trailers
  | .cutOff => some deadlineExceeded
  | .panicked => none

def onlyTrailers (e : Ending) : Trailers := e.trailers.getD noInitialResponse

def streamStatus (e : Ending) : Tonic.Status := e.trailers.elim noTrailers tonicStatusFromTrailers

end Ending

def messagesOf (polled : List (SourcePoll Bytes)) : List Bytes :=
  polled.filterMap fun
    | .item message => some message
    | _ => none

def NoErrors (polled : List (SourcePoll Bytes)) : Prop := ∀ status, .error status ∉ polled

def lastItem : Task → Option Ending → List (Except Trailers Bytes)
  | .ended, some e => e.trailers.toList.map .error
  | _, _ => []

def Queued (task : Task) (ending : Option Ending) (polled : List (SourcePoll Bytes)) (sent : List Bytes)
    (queue : List (Except Trailers Bytes)) : Prop :=
  NoErrors polled ∧ ∃ msgs, messagesOf polled ++ msgs = sent ∧ queue = msgs.map .ok ++ lastItem task ending

inductive Shape : Task → Option Ending → Initial → Option Response → Bool → List Bytes → List (Except Trailers Bytes) →
    Prop
  | held {task : Task} {ending : Option Ending} (notEnded : task ≠ .ended) (notQueueing : ∀ buf, task ≠ .queueing buf) :
      Shape task ending .held none false [] []
  | trailersSent {e : Ending} {trailers : Trailers} (last : e.trailers = some trailers) :
      Shape .ended (some e) (.sent (.trailersOnly trailers)) none false [] []
  | dropped : Shape .ended (some .panicked) .dropped none false [] []
  | answered (e : Ending) :
      Shape .ended (some e) .received (some (.trailersOnly (trailersOnlyHead e.onlyTrailers))) false [] []
  | waiting {task : Task} {ending : Option Ending} {metadata : MetadataMap} {sent : List Bytes}
      {queue : List (Except Trailers Bytes)} (queued : Queued task ending [] sent queue) :
      Shape task ending (.sent (.headers metadata)) none true sent queue
  | streaming {task : Task} {ending : Option Ending} {metadata : MetadataMap} {polled : List (SourcePoll Bytes)}
      {sent : List Bytes} {queue : List (Except Trailers Bytes)} (queued : Queued task ending polled sent queue) :
      Shape task ending .received (some (.streaming (streamingHead metadata) polled false)) true sent queue
  | finished {e : Ending} {metadata : MetadataMap} {polled : List (SourcePoll Bytes)} (noErrors : NoErrors polled) :
      Shape .ended (some e) .received
        (some (.streaming (streamingHead metadata) (polled ++ [.error e.streamStatus]) true)) true
        (messagesOf polled) []

section Queued
variable {task task' : Task} {ending ending' : Option Ending} {pl : List (SourcePoll Bytes)} {sent : List Bytes}
  {queue : List (Except Trailers Bytes)}

theorem lastItem_of_ne_ended (h : task ≠ .ended) (e : Option Ending) : lastItem task e = [] := by
  cases task with
  | ended => exact absurd rfl h
  | _ => rfl

theorem Queued.of_last (h : Queued task ending pl sent queue) (hlast : lastItem task ending = [])
    (hl' : lastItem task' ending' = []) : Queued task' ending' pl sent queue := by
  obtain ⟨hp, msgs, hs, hq⟩ := h
  exact ⟨hp, msgs, hs, by rw [hq, hlast, hl']⟩

theorem Queued.push (h : Queued task ending pl sent queue) (ht : task ≠ .ended) (ht' : task' ≠ .ended) (buf : Bytes) :
    Queued task' ending pl (sent ++ [buf]) (queue ++ [.ok buf]) := by
  obtain ⟨hp, msgs, hs, hq⟩ := h
  refine ⟨hp, msgs ++ [buf], ?_, ?_⟩
  · rw [← List.append_assoc, hs]
  · rw [hq, lastItem_of_ne_ended ht, lastItem_of_ne_ended ht']
    simp

theorem Queued.pushTrailers {e : Ending} (h : Queued task (some e) pl sent queue) (hts : task ≠ .ended) {ts : Trailers}
    (ht : e.trailers = some ts) : Queued .ended (some e) pl sent (queue ++ [.error ts]) := by
  obtain ⟨hp, msgs, hs, hq⟩ := h
  refine ⟨hp, msgs, hs, ?_⟩
  rw [hq, lastItem_of_ne_ended hts]
  simp [lastItem, ht]

end Queued

section Shape
variable {task task' : Task} {ending ending' : Option Ending} {il : Initial} {r : Option Response} {b : Bool}
  {sent : List Bytes} {queue : List (Except Trailers Bytes)} {ts : Trailers} {e : Ending}

theorem Shape.move (h : Shape task ending il r b sent queue) (hts : task ≠ .ended) (hts' : task' ≠ .ended)
    (hq : b = false → ∀ buf, task' ≠ .queueing buf) : Shape task' ending' il r b sent queue := by
  have hlast (t : Task) (ht : t ≠ .ended) (e : Option Ending) : lastItem t e = [] := lastItem_of_ne_ended ht e
  cases h with
  | held => exact .held hts' (hq rfl)
  | waiting hqd => exact .waiting (hqd.of_last (hlast _ hts _) (hlast _ hts' _))
  | streaming hqd => exact .streaming (hqd.of_last (hlast _ hts _) (hlast _ hts' _))
  | _ => exact absurd rfl hts

theorem Shape.takeInitial (h : Shape task ending .held r b sent queue) (ht' : task' ≠ .ended)
    (m : MetadataMap) : Shape task' ending' (.sent (.headers m)) r true sent queue := by
  cases h with
  | held => exact .waiting ⟨nofun, [], rfl, by rw [lastItem_of_ne_ended ht']; rfl⟩

theorem Shape.push {buf : Bytes} (h : Shape (.queueing buf) ending il r b sent queue) :
    Shape .running ending il r b (sent ++ [buf]) (queue ++ [.ok buf]) := by
  have hr : Task.running ≠ .ended := nofun
  cases h with
  | held _ hq => exact absurd rfl (hq buf)
  | waiting hqd => exact .waiting (hqd.push nofun hr buf)
  | streaming hqd => exact .streaming (hqd.push nofun hr buf)

theorem Shape.dropHeld (h : Shape task ending .held r b sent queue) :
    Shape .ended (some .panicked) .dropped r b sent queue := by
  cases h with
  | held => exact .dropped

theorem Shape.dropSender (h : Shape task ending il r b sent queue) (ht : task ≠ .ended)
    (hi : il ≠ .held) : Shape .ended (some .panicked) il r b sent queue := by
  have hlast := lastItem_of_ne_ended ht
  cases h with
  | held => exact absurd rfl hi
  | waiting hq => exact .waiting (hq.of_last (hlast _) rfl)
  | streaming hq => exact .streaming (hq.of_last (hlast _) rfl)
  | _ => exact absurd rfl ht

theorem Shape.onlyTrailers (h : Shape task (some e) .held r b sent queue)
    (ht : e.trailers = some ts) : Shape .ended (some e) (.sent (.trailersOnly ts)) r b sent queue := by
  cases h with
  | held => exact .trailersSent ht

theorem Shape.pushTrailers (h : Shape task (some e) il r b sent queue) (hts : task ≠ .ended) (hi : il ≠ .held)
    (ht : e.trailers = some ts) : Shape .ended (some e) il r b sent (queue ++ [.error ts]) := by
  cases h with
  | held => exact absurd rfl hi
  | waiting hq => exact .waiting (hq.pushTrailers hts ht)
  | streaming hq => exact .streaming (hq.pushTrailers hts ht)
  | _ => exact absurd rfl hts

theorem Shape.receiveHeaders {m : MetadataMap} (h : Shape task ending (.sent (.headers m)) r b sent queue) :
    Shape task ending .received (some (.streaming (streamingHead m) [] false)) b sent queue := by
  cases h with
  | waiting hq => exact .streaming hq

theorem Shape.receiveTrailers {trailers : Trailers}
    (h : Shape task ending (.sent (.trailersOnly trailers)) r b sent queue) :
    Shape task ending .received (some (.trailersOnly (trailersOnlyHead trailers))) b sent queue := by
  cases h with
  | @trailersSent e _ hlast =>
    have ho : e.onlyTrailers = trailers := by rw [Ending.onlyTrailers, hlast]; rfl
    exact ho ▸ .answered e

theorem Shape.receiveDropped (h : Shape task ending .dropped r b sent queue) :
    Shape task ending .received (some (.trailersOnly (trailersOnlyHead noInitialResponse))) b sent queue := by
  cases h with
  | dropped => exact .answered .panicked

section Poll
variable {metadata : MetadataMap} {head : HeaderMap} {pl : List (SourcePoll Bytes)}

theorem messagesOf_append (p more : List (SourcePoll Bytes)) :
    messagesOf (p ++ more) = messagesOf p ++ messagesOf more :=
  List.filterMap_append

theorem NoErrors.snoc {p : SourcePoll Bytes} (h : NoErrors pl) (hp : ∀ s, p ≠ .error s) : NoErrors (pl ++ [p]) := by
  intro s hmem
  rcases List.mem_append.1 hmem with hmem | hmem
  · exact h s hmem
  · exact hp s (List.mem_singleton.1 hmem).symm

theorem Shape.pollMessage {m : Bytes}
    (h : Shape task ending il (some (.streaming head pl false)) b sent (.ok m :: queue)) :
    Shape task ending il (some (.streaming head (pl ++ [.item m]) false)) b sent queue := by
  cases h with
  | streaming hqd =>
    obtain ⟨hp, msgs, hs, hq⟩ := hqd
    cases msgs with
    | nil =>
      -- what follows the messages is not one of them
      have hmem : (.ok m : Except Trailers Bytes) ∈ lastItem task ending := by
        rw [← List.nil_append (lastItem task ending), ← List.map_nil (f := Except.ok), ← hq]
        exact List.mem_cons_self
      unfold lastItem at hmem
      split at hmem
      · simp at hmem
      · cases hmem
    | cons first msgs =>
      obtain ⟨hf, hrest⟩ := List.cons.inj hq
      cases hf
      refine .streaming ⟨hp.snoc nofun, msgs, ?_, hrest⟩
      rw [messagesOf_append, ← hs]
      simp [messagesOf]

theorem eq_of_lastItem {trailers : Trailers} (h : .error trailers :: queue = lastItem task ending) :
    task = .ended ∧ queue = [] ∧ ∃ e, ending = some e ∧ e.trailers = some trailers := by
  unfold lastItem at h
  split at h
  · rename_i e
    cases ht : e.trailers with
    | none => simp [ht] at h
    | some t =>
      rw [ht] at h
      cases h
      exact ⟨rfl, rfl, e, rfl, ht⟩
  · cases h

theorem Shape.pollTrailers {ts : Trailers}
    (h : Shape task ending il (some (.streaming head pl false)) b sent (.error ts :: queue)) : Shape task ending il
      (some (.streaming head (pl ++ [.error (tonicStatusFromTrailers ts)]) true)) b sent queue := by
  cases h with
  | streaming hqd =>
    obtain ⟨hp, msgs, hsn, hq⟩ := hqd
    cases msgs with
    | cons first msgs => cases (List.cons.inj hq).1
    | nil =>
      obtain ⟨rfl, rfl, e, rfl, he⟩ := eq_of_lastItem hq
      have hs : tonicStatusFromTrailers ts = e.streamStatus := by rw [Ending.streamStatus, he]; rfl
      rw [hs, ← hsn, List.append_nil]
      exact .finished hp

theorem Shape.pollClosed {e : Ending} (h : Shape .ended (some e) il (some (.streaming head pl false)) b sent []) :
    Shape .ended (some e) il (some (.streaming head (pl ++ [.error noTrailers]) true)) b sent [] := by
  cases h with
  | streaming hq =>
    obtain ⟨hp, msgs, hsn, hqu⟩ := hq
    obtain ⟨hm, hlast⟩ := List.append_eq_nil_iff.1 hqu.symm
    obtain rfl := List.map_eq_nil_iff.1 hm
    have hs : noTrailers = e.streamStatus := by
      cases he : e.trailers with
      | none => rw [Ending.streamStatus, he]; rfl
      | some t => simp [lastItem, he] at hlast
    rw [hs, ← hsn, List.append_nil]
    exact .finished hp

theorem Shape.pollPending (h : Shape task ending il (some (.streaming head pl false)) b sent queue) :
    Shape task ending il (some (.streaming head (pl ++ [.pending]) false)) b sent queue := by
  cases h with
  | streaming hq =>
    obtain ⟨hp, msgs, hs, hqu⟩ := hq
    refine .streaming ⟨hp.snoc nofun, msgs, ?_, hqu⟩
    rw [messagesOf_append, ← hs]
    simp [messagesOf]

end Poll

end Shape

/-! ## Every step -/

/-- The task, how the handler ended and what was sent fit together. -/
structure Inv (deadline : Bool) (c : Call) : Prop where
  live : c.ending = none ↔ c.task.Live
  sending : ∀ trailers, c.task = .sendingTrailers trailers → ∃ e, c.ending = some e ∧ e.trailers = some trailers
  elapsed : c.elapsed = true → deadline = true
  pollLate : c.pollLate = false
  returned : ∀ trailers late, c.ending = some (.returned trailers late) → late = false
  shape : Shape c.task c.ending c.initial c.response c.begun c.sent c.queue

variable {d : Bool} {c c' : Call} {t : Task} {e : Event}

theorem inv_init : Inv d .init where
  live := ⟨fun _ => trivial, fun _ => rfl⟩
  sending _ h := nomatch h
  elapsed h := nomatch h
  pollLate := rfl
  returned _ _ h := nomatch h
  shape := .held nofun nofun

theorem Task.Live.ne_ended (h : t.Live) : t ≠ .ended := by
  rintro rfl
  exact h

section
variable (h : Inv d c)
include h

theorem Inv.pollTask (ht : c.task.Live) : Inv d (c.pollTask d) := by
  unfold Call.pollTask
  split
  · exact
      { live := ⟨nofun, fun h => h.elim⟩
        sending := by rintro _ ⟨⟩; exact ⟨_, rfl, rfl⟩
        elapsed := h.elapsed
        pollLate := h.pollLate
        returned := nofun
        shape := h.shape.move ht.ne_ended nofun nofun }
  · rename_i hn
    refine { h with pollLate := ?_ }
    show c.elapsed = false
    cases he : c.elapsed with
    | false => rfl
    | true => exact absurd ⟨h.elapsed he, he⟩ hn

theorem Inv.sendTrailers {ts : Trailers} (hts : c.task = .sendingTrailers ts) (hs : c.sendTrailers ts = some c') :
    Inv d c' := by
  obtain ⟨e, he, ht⟩ := h.sending ts hts
  have hsh := h.shape
  rw [hts, he] at hsh
  have hl : c.ending = none ↔ Task.Live .ended := by
    rw [he]
    exact ⟨nofun, fun h => h.elim⟩
  unfold Call.sendTrailers at hs
  split at hs
  · rename_i hi
    cases hs
    rw [hi] at hsh
    exact { h with live := hl, sending := nofun, shape := he ▸ hsh.onlyTrailers ht }
  · rename_i hi
    split at hs
    · cases hs
      exact
        { h with
          live := hl
          sending := nofun
          shape := he ▸ hsh.pushTrailers nofun (fun heq => hi heq) ht }
    · cases hs

theorem Inv.receiveInitial (hs : c.receiveInitial = some c') : Inv d c' := by
  have hsh := h.shape
  unfold Call.receiveInitial at hs
  split at hs
  · rename_i hi
    cases hs
    rw [hi] at hsh
    exact { h with shape := hsh.receiveHeaders }
  · rename_i hi
    cases hs
    rw [hi] at hsh
    exact { h with shape := hsh.receiveTrailers }
  · rename_i hi
    cases hs
    rw [hi] at hsh
    exact { h with shape := hsh.receiveDropped }
  · cases hs

theorem Inv.exists_ending (ht : c.task = .ended) : ∃ e, c.ending = some e := by
  cases he : c.ending with
  | none =>
    have hl := h.live.1 he
    rw [ht] at hl
    exact hl.elim
  | some e => exact ⟨e, rfl⟩

theorem Inv.pollMessages {head : HeaderMap} {p : List (SourcePoll Bytes)}
    (hr : c.response = some (.streaming head p false)) : Inv d (c.pollMessages head p) := by
  have hs := h.shape
  rw [hr] at hs
  unfold Call.pollMessages
  split
  · rename_i hq
    rw [hq] at hs
    exact { h with shape := hs.pollMessage }
  · rename_i hq
    rw [hq] at hs
    exact { h with shape := hs.pollTrailers }
  · rename_i hq
    split
    · rename_i ht
      obtain ⟨e, he⟩ := h.exists_ending ht
      rw [hq, ht, he] at hs
      refine { h with shape := ?_ }
      show Shape c.task c.ending c.initial _ c.begun c.sent c.queue
      rw [hq, ht, he]
      exact hs.pollClosed
    · exact { h with shape := hs.pollPending }

theorem Inv.live_iff (ht : c.task.Live) {t : Task} (ht' : t.Live) : c.ending = none ↔ t.Live :=
  ⟨fun _ => ht', fun _ => h.live.2 ht⟩

end

theorem Shape.begun_of_initial {e : Option Ending} {il : Initial} {r : Option Response} {b : Bool}
    {s : List Bytes} {q : List (Except Trailers Bytes)} (h : Shape t e il r b s q) (ht : t ≠ .ended) (hi : il ≠ .held) :
    b = true := by
  cases h with
  | held => exact absurd rfl hi
  | waiting => rfl
  | streaming => rfl
  | _ => exact absurd rfl ht

theorem Inv.sendMessage (h : Inv d c) (ht : c.task = .running) (buf : Bytes) : Inv d (c.sendMessage buf) := by
  have hl : c.task.Live := ht ▸ trivial
  have hq : Task.queueing buf ≠ .ended := nofun
  have hl' : c.ending = none ↔ Task.Live (.queueing buf) := h.live_iff hl trivial
  unfold Call.sendMessage
  dsimp only
  split
  · rename_i hi
    have hs := h.shape
    rw [hi] at hs
    exact { h with live := hl', sending := nofun, shape := hs.takeInitial hq _ }
  · rename_i hi
    have hb := h.shape.begun_of_initial hl.ne_ended fun heq => hi heq
    refine { h with live := hl', sending := nofun, shape := h.shape.move hl.ne_ended hq ?_ }
    intro hf
    rw [hb] at hf
    cases hf

theorem Inv.panic (h : Inv d c) (ht : c.task.Live) : Inv d (Call.dropSenders { c with ending := some .panicked }) := by
  have hl : some Ending.panicked = none ↔ Task.Live .ended := ⟨nofun, fun h => h.elim⟩
  have hs := h.shape
  unfold Call.dropSenders
  dsimp only
  split
  · rename_i hi
    rw [hi] at hs
    exact { h with live := hl, sending := nofun, returned := nofun, shape := hs.dropHeld }
  · rename_i hi
    exact
      { h with
        live := hl
        sending := nofun
        returned := nofun
        shape := hs.dropSender ht.ne_ended fun heq => hi heq }

theorem Inv.handlerStep (h : Inv d c) (hs : c.handlerStep e = some c') : Inv d c' := by
  have hsh := h.shape
  cases e with
  | sendHeaders m =>
    simp only [Call.handlerStep] at hs
    split at hs
    · rename_i ht hi
      cases hs
      rw [hi] at hsh
      have hne : c.task ≠ .ended := by rw [ht]; exact nofun
      exact { h with shape := hsh.takeInitial hne m }
    · cases hs
      exact h
    · cases hs
  | sendMessage en =>
    simp only [Call.handlerStep] at hs
    split at hs
    · rename_i ht
      cases hs
      exact h.sendMessage ht _
    · cases hs
      exact h
    · cases hs
  | queue =>
    simp only [Call.handlerStep] at hs
    split at hs
    · rename_i buf ht
      split at hs
      · cases hs
        rw [ht] at hsh
        have hl : c.task.Live := ht ▸ trivial
        exact { h with live := h.live_iff hl trivial, sending := nofun, shape := hsh.push }
      · cases hs
    · cases hs
  | dropSend =>
    simp only [Call.handlerStep] at hs
    split at hs
    · rename_i buf ht
      cases hs
      have hl : c.task.Live := ht ▸ trivial
      exact
        { h with
          live := h.live_iff hl trivial
          sending := nofun
          shape := hsh.move hl.ne_ended nofun nofun }
    · cases hs
  | yield =>
    simp only [Call.handlerStep] at hs
    split at hs
    · cases hs
      exact { h with }
    · cases hs
      exact { h with }
    · cases hs
  | returns ts =>
    simp only [Call.handlerStep] at hs
    split at hs
    · rename_i ht
      cases hs
      have hl : c.task.Live := ht ▸ trivial
      exact
        { h with
          live := ⟨nofun, fun h => h.elim⟩
          sending := by rintro _ ⟨⟩; exact ⟨_, rfl, rfl⟩
          returned := by rintro _ _ ⟨⟩; exact h.pollLate
          shape := hsh.move hl.ne_ended nofun nofun }
    · cases hs
  | panic =>
    simp only [Call.handlerStep] at hs
    split at hs
    · rename_i ht
      cases hs
      exact h.panic (ht ▸ trivial)
    · rename_i ht
      cases hs
      exact h.panic (ht ▸ trivial)
    · cases hs
  | _ => cases hs

theorem Inv.step (h : Inv d c) (hs : c.step d e = some c') : Inv d c' := by
  have hh (hs : (if c.inPoll then c.handlerStep e else none) = some c') : Inv d c' := by
    split at hs
    · exact h.handlerStep hs
    · cases hs
  cases e with
  | elapse =>
    simp only [Call.step] at hs
    split at hs
    · rename_i hd
      cases hs
      exact { h with elapsed := fun _ => hd }
    · cases hs
  | wake =>
    simp only [Call.step] at hs
    split at hs
    · rename_i ht _
      cases hs
      exact h.pollTask (ht ▸ trivial)
    · rename_i ht _
      cases hs
      exact h.pollTask (ht ▸ trivial)
    · cases hs
  | sendTrailers =>
    simp only [Call.step] at hs
    split at hs
    · rename_i ht
      exact h.sendTrailers ht hs
    · cases hs
  | receiveInitial => exact h.receiveInitial hs
  | pollBody =>
    simp only [Call.step] at hs
    split at hs
    · rename_i hr
      cases hs
      exact h.pollMessages hr
    · cases hs
  | _ => exact hh hs

theorem inv_of_reachable (h : (calls d).Reachable (fun _ _ => True) c) : Inv d c :=
  h.inv inv_init fun _ _ _ h _ hs => h.step hs

end HyperServer
