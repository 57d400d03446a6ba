import GrpcRust.InMemory.Transport
/-!
# What the streams of an in-memory call deliver

`Requests` is what holds of the request queue and its two ends, `Responses` of the response queue and the
trailers.
-/

namespace InMemory

open Lib Grpc Client List Mpsc

variable {M : Type}

def HeadersFirst (c : Call M) : Event M → Prop
  | .serverSend (.headers _) => c.offered = []
  | _ => True

/-- The handler sends headers before messages, and the client stops sending once the stream has ended. -/
def Careful (c : Call M) : Event M → Prop
  | .serverSend (.message _) => c.offered ≠ []
  | .send _ => ∀ sent ∈ c.sends, sent.2 = .ok ()
  | _ => True

/-! ## What is delivered -/

/-- `[Headers *Message] Trailers *StreamClosed`. -/
def ResponseStream (items : List (ResponseStreamItem M)) : Prop :=
  ∃ body trailers k,
    (body = [] ∨ ∃ info metadata, ∃ msgs : List M, body = .headers info metadata :: msgs.map .message) ∧
    items = body ++ .trailers trailers :: List.replicate k .streamClosed

def acceptedOf (sends : List (M × Except StreamEnded Unit)) : List M :=
  sends.filterMap fun sent =>
    match sent.2 with
    | .ok () => some sent.1
    | .error _ => none

def Call.accepted (c : Call M) : List M := acceptedOf c.sends

def Call.delivered (c : Call M) : List M := c.nexts.filterMap id

def ClientSendStream.isAlive : ClientSendStream → Bool
  | .alive _ => true
  | _ => false

/-- The handler receives the client's messages in order, then the end, and it waits for neither once they are there. -/
structure HandlerReceives (c : Call M) : Prop where
  ends : ∃ k, c.nexts = c.delivered.map some ++ List.replicate k none
  inOrder : c.delivered <+: c.accepted
  all : none ∈ c.nexts → c.delivered = c.accepted ∧ c.clientSend.isAlive = false
  nextMessage : c.req.receiver = true → ∀ msg rest, c.accepted = c.delivered ++ msg :: rest →
    ∃ c', c.serverNext = some c' ∧ c'.nexts = c.nexts ++ [some msg]
  nextEnd : c.req.receiver = true → c.delivered = c.accepted → c.clientSend.isAlive = false → none ∉ c.nexts →
    ∃ c', c.serverNext = some c' ∧ c'.nexts = c.nexts ++ [none]

/-! ## Requests -/

def RequestItem.msg? : RequestItem M → Option M
  | .message msg => some msg
  | .streamClosed => none

structure Requests (req : Mpsc (RequestItem M)) (clientSend : ClientSendStream)
    (sends : List (M × Except StreamEnded Unit)) (nexts : List (Option M)) : Prop where
  sender : req.sender = true ↔ clientSend = .alive true ∨ clientSend = .closing
  ended : clientSend = .alive false → req.receiver = false ∧ ∃ sent ∈ sends, sent.2 = .error .streamEnded
  sent : ∃ tail, req.sent = (acceptedOf sends).map .message ++ tail ∧ (clientSend.isAlive = true ∧ tail = [] ∨
      clientSend.isAlive = false ∧ (tail = [.streamClosed] ∨ tail = [] ∧ req.receiver = false))
  nexts : ∃ k, nexts = req.received.map RequestItem.msg? ++ List.replicate k none ∧
    (k ≠ 0 → req.sender = false ∧ req.queue = [] ∧ clientSend.isAlive = false)

theorem accepted_snoc_ok (ss : List (M × Except StreamEnded Unit)) (msg : M) :
    acceptedOf (ss ++ [(msg, .ok ())]) = acceptedOf ss ++ [msg] := by
  simp [acceptedOf]

theorem accepted_snoc_error (sends : List (M × Except StreamEnded Unit)) (msg : M) (e : StreamEnded) :
    acceptedOf (sends ++ [(msg, .error e)]) = acceptedOf sends := by
  simp [acceptedOf]

namespace Requests
variable {req : Mpsc (RequestItem M)} {cs : ClientSendStream} {ss : List (M × Except StreamEnded Unit)}
  {nexts : List (Option M)} {req' : Mpsc (RequestItem M)}

theorem invoke : Requests (M := M) .new (.alive true) [] [] where
  sender := by simp [Mpsc.new]
  ended h := by cases h
  sent := ⟨[], rfl, .inl ⟨rfl, rfl⟩⟩
  nexts := ⟨0, rfl, fun h => absurd rfl h⟩

theorem open_nexts (h : Requests req cs ss nexts) (ho : req.sender = true) (hr : req'.received = req.received)
    {P : Prop} : ∃ k, nexts = req'.received.map RequestItem.msg? ++ List.replicate k none ∧ (k ≠ 0 → P) := by
  obtain ⟨k, hn, hk⟩ := h.nexts
  have hz : k = 0 := by
    by_contra hne
    rw [(hk hne).1] at ho
    cases ho
  refine ⟨0, ?_, fun hne => absurd rfl hne⟩
  rw [hn, hr, hz]

section
variable (h : Requests req (.alive true) ss nexts)
include h

theorem send_message (msg : M) (hr : req.receiver = true) :
    Requests (req.send (.message msg)).1 (.alive true) (ss ++ [(msg, .ok ())]) nexts where
  sender := by simp [h.sender]
  ended he := by cases he
  sent := by
    obtain ⟨tail, hs, ⟨-, rfl⟩ | ⟨hd, -⟩⟩ := h.sent
    · refine ⟨[], ?_, .inl ⟨rfl, rfl⟩⟩
      rw [(send_of_receiver hr _).2.1, hs, accepted_snoc_ok]
      simp
    · cases hd
  nexts := h.open_nexts (h.sender.2 (.inl rfl)) (by simp)

theorem send_ended (msg : M) (hr : req.receiver = false) :
    Requests req.dropSender (.alive false) (ss ++ [(msg, .error .streamEnded)]) nexts where
  sender := by simp [Mpsc.dropSender]
  ended _ := ⟨hr, (msg, .error .streamEnded), by simp, rfl⟩
  sent := by
    rw [accepted_snoc_error]
    exact h.sent
  nexts := h.open_nexts (h.sender.2 (.inl rfl)) (by simp)

theorem dropSend : Requests (req.send .streamClosed).1 .closing ss nexts where
  sender := by simp [h.sender]
  ended he := by cases he
  sent := by
    obtain ⟨tail, hs, ⟨-, rfl⟩ | ⟨hd, -⟩⟩ := h.sent
    · cases hr : req.receiver with
      | true =>
        refine ⟨[.streamClosed], ?_, .inr ⟨rfl, .inl rfl⟩⟩
        rw [(send_of_receiver hr _).2.1, hs, append_nil]
      | false =>
        refine ⟨[], ?_, .inr ⟨rfl, .inr ⟨rfl, ?_⟩⟩⟩
        · rw [send_of_dropped hr, hs]
        · rw [receiver_send, hr]
    · cases hd
  nexts := h.open_nexts (h.sender.2 (.inl rfl)) (by simp)

end

theorem dropSend_ended (h : Requests req (.alive false) ss nexts) : Requests req .dropped ss nexts where
  sender := by simpa using h.sender
  ended he := by cases he
  sent := by
    obtain ⟨tail, hs, ⟨-, rfl⟩ | ⟨hd, -⟩⟩ := h.sent
    · exact ⟨[], hs, .inr ⟨rfl, .inr ⟨rfl, (h.ended rfl).1⟩⟩⟩
    · cases hd
  nexts := by
    obtain ⟨k, hn, hk⟩ := h.nexts
    exact ⟨k, hn, fun hne => ⟨(hk hne).1, (hk hne).2.1, rfl⟩⟩

theorem dropTx (h : Requests req .closing ss nexts) : Requests req.dropSender .dropped ss nexts where
  sender := by simp [Mpsc.dropSender]
  ended he := by cases he
  sent := h.sent
  nexts := h.open_nexts (h.sender.2 (.inr rfl)) (by simp)

theorem dropReceiver (h : Requests req cs ss nexts) : Requests req.dropReceiver cs ss nexts where
  sender := h.sender
  ended he := ⟨rfl, (h.ended he).2⟩
  sent := by
    obtain ⟨tail, hs, ha | ⟨hd, htl⟩⟩ := h.sent
    · exact ⟨tail, hs, .inl ha⟩
    · exact ⟨tail, hs, .inr ⟨hd, htl.imp_right fun ht => ⟨ht.1, rfl⟩⟩⟩
  nexts := h.nexts

theorem next_item {item : RequestItem M} (h : Requests req cs ss nexts)
    (hrv : req.recv = (req', .item item)) : Requests req' cs ss (nexts ++ [item.msg?]) := by
  obtain ⟨r, hq, hrest, hrc, hsn, hs, hr⟩ := Mpsc.recv_item hrv
  refine ⟨by rw [hs]; exact h.sender, by rw [hr]; exact h.ended, by rw [hsn, hr]; exact h.sent, ?_⟩
  obtain ⟨k, hn, hk⟩ := h.nexts
  have hz : k = 0 := by
    by_contra hne
    rw [(hk hne).2.1] at hq
    cases hq
  refine ⟨0, ?_, fun hne => absurd rfl hne⟩
  rw [hn, hrc, hz]
  simp

theorem next_closed (h : Requests req cs ss nexts) (hrc : req.recv = (req', .closed))
    (hr : req.receiver = true) : Requests req cs ss (nexts ++ [none]) := by
  obtain ⟨-, hq, hs⟩ := Mpsc.recv_closed hrc
  refine ⟨h.sender, h.ended, h.sent, ?_⟩
  obtain ⟨k, hn, -⟩ := h.nexts
  refine ⟨k + 1, ?_, fun _ => ⟨hs, hq, ?_⟩⟩
  · rw [hn, append_assoc, replicate_succ']
  · cases hc : cs with
    | alive tx =>
      cases tx with
      | true => simp [h.sender.2 (.inl hc)] at hs
      | false => simp [(h.ended hc).1] at hr
    | closing => rfl
    | dropped => rfl

theorem split_sent {r q tail : List (RequestItem M)} {msgs : List M}
    (h : r ++ q = msgs.map .message ++ tail) (ht : tail = [] ∨ tail = [.streamClosed]) :
    (∃ got rest, msgs = got ++ rest ∧ r = got.map .message ∧ q = rest.map .message ++ tail) ∨
      tail = [.streamClosed] ∧ r = msgs.map .message ++ [.streamClosed] ∧ q = [] := by
  rcases List.append_eq_append_iff.1 h with ⟨rest, hm, hq⟩ | ⟨e, hr, he⟩
  · obtain ⟨got, left, rfl, rfl, rfl⟩ := List.map_eq_append_iff.1 hm
    exact .inl ⟨got, left, rfl, rfl, hq⟩
  · cases e with
    | nil => exact .inl ⟨msgs, [], by simp, by simpa using hr, by simpa using he.symm⟩
    | cons item e =>
      rcases ht with rfl | rfl
      · cases he
      · obtain ⟨rfl, hn⟩ : item = .streamClosed ∧ e ++ q = [] := by simpa [eq_comm] using he
        obtain ⟨rfl, rfl⟩ := List.append_eq_nil_iff.1 hn
        exact .inr ⟨rfl, hr, rfl⟩

theorem handlerReceives {c : Call M} (h : Requests c.req c.clientSend c.sends c.nexts) : HandlerReceives c := by
  obtain ⟨tail, hs, ht⟩ := h.sent
  obtain ⟨k, hn, hk⟩ := h.nexts
  have hf : c.req.received ++ c.req.queue = c.accepted.map .message ++ tail := c.req.fifo.trans hs
  have he : tail = [] ∨ tail = [.streamClosed] := by
    rcases ht with ⟨-, rfl⟩ | ⟨-, rfl | ⟨rfl, -⟩⟩
    · exact .inl rfl
    · exact .inr rfl
    · exact .inl rfl
  rcases split_sent hf he with ⟨got, rest, hms, hrc, hq⟩ | ⟨rfl, hrc, hq⟩
  · -- The end has been received only if the sender was gone.
    have hn' : c.nexts = got.map some ++ List.replicate k none := by
      rw [hn, hrc, map_map]
      rfl
    have hd : c.delivered = got := by simp [Call.delivered, hn']
    refine ⟨⟨k, by rw [hd, hn']⟩, ⟨rest, by rw [hd, hms]⟩, fun hnone => ?_, fun hr msg rest' hm => ?_,
      fun hr hall hdd _ => ?_⟩
    · have hne : k ≠ 0 := by
        rintro rfl
        simp [hn'] at hnone
      have hempty := hq.symm.trans (hk hne).2.1
      simp only [append_eq_nil_iff, map_eq_nil_iff] at hempty
      exact ⟨by rw [hd, hms, hempty.1, append_nil], (hk hne).2.2⟩
    · obtain rfl : rest = msg :: rest' := by
        rw [hd, hms] at hm
        exact append_cancel_left hm
      rw [Call.serverNext, if_pos hr, recv_of_cons hq]
      exact ⟨_, rfl, rfl⟩
    · obtain rfl : rest = [] := by
        rw [hd, hms] at hall
        simpa using hall
      have hc : tail = [.streamClosed] := by
        rcases ht with ⟨ha, -⟩ | ⟨-, ht | ⟨-, hdr⟩⟩
        · simp [hdd] at ha
        · exact ht
        · simp [hr] at hdr
      have hlast : c.req.queue = [.streamClosed] := by rw [hq, hc]; rfl
      rw [Call.serverNext, if_pos hr, recv_of_cons hlast]
      exact ⟨_, rfl, rfl⟩
  · have hn' : c.nexts = c.accepted.map some ++ List.replicate (k + 1) none := by
      rw [hn, hrc, map_append, map_map, append_assoc, replicate_succ]
      rfl
    have hd : c.delivered = c.accepted := by simp [Call.delivered, hn']
    have hdd : c.clientSend.isAlive = false := by
      rcases ht with ⟨-, hnl⟩ | ⟨hdd, -⟩
      · cases hnl
      · exact hdd
    refine ⟨⟨k + 1, by rw [hd, hn']⟩, by rw [hd], fun _ => ⟨hd, hdd⟩, fun _ msg rest hm => ?_, fun _ _ _ hnone => ?_⟩
    · rw [hd] at hm
      simp at hm
    · exact absurd (by simp [hn']) hnone

end Requests

/-! ## Responses -/

def Shaped (items : List (ResponseItem M)) : Prop :=
  items = [] ∨ ∃ metadata, ∃ msgs : List M, items = .headers metadata :: msgs.map .message

theorem Shaped.mono {items items' : List (ResponseItem M)} (h : Shaped items) (hp : items' <+: items) :
    Shaped items' := by
  rcases h with rfl | ⟨m, msgs, rfl⟩
  · exact .inl (List.prefix_nil.1 hp)
  · rcases List.prefix_cons_iff.1 hp with rfl | ⟨r, rfl, hrest⟩
    · exact .inl rfl
    · obtain ⟨msgs', -, rfl⟩ := List.prefix_map_iff.1 hrest
      exact .inr ⟨m, msgs', rfl⟩

theorem Shaped.headers {im r : List (ResponseItem M)} {m : MetadataMap}
    (h : Shaped (im ++ .headers m :: r)) : im = [] := by
  rcases h with h | ⟨m', msgs, h⟩
  · simp at h
  · cases im with
    | nil => rfl
    | cons item im =>
      have hmem : ResponseItem.headers m ∈ msgs.map ResponseItem.message := by
        rw [← (List.cons.inj h).2]
        simp
      obtain ⟨msg, -, hm⟩ := List.mem_map.1 hmem
      cases hm

def ResponseItem.received (info : ConnectionInfo) : ResponseItem M → ResponseStreamItem M
  | .headers metadata => .headers info metadata
  | .message msg => .message msg

/-- What the client has received: items, and once the queue has ended, the rest of a response stream. -/
def Reading (info : ConnectionInfo) (resp : Mpsc (ResponseItem M)) (rx : ClientRecvStream)
    (recvs : List (ResponseStreamItem M)) : Prop :=
  ∃ tail, recvs = resp.received.map (·.received info) ++ tail ∧
    (rx.atTrailers = false ∧ rx.trailerRx = true ∧ tail = [] ∧ (resp.received = [] → rx.connectionInfo = some info) ∨
      (resp.sender = false ∧ resp.queue = []) ∧ rx.trailerRx = false ∧ (rx.atTrailers = true ∧ tail = [] ∨
          rx.atTrailers = false ∧ ∃ trailers k, tail = .trailers trailers :: List.replicate k .streamClosed))

theorem Reading.stream {info : ConnectionInfo} {r : Mpsc (ResponseItem M)} {rx : ClientRecvStream}
    {rs : List (ResponseStreamItem M)} (h : Reading info r rx rs) (hs : Shaped r.received) :
    ∃ items, ResponseStream items ∧ rs <+: items := by
  obtain ⟨tail, rfl, ht⟩ := h
  have hb : r.received.map (·.received info) = [] ∨ ∃ info' m, ∃ msgs : List M,
      r.received.map (·.received info) = .headers info' m :: msgs.map .message := by
    rcases hs with hn | ⟨m, msgs, hr⟩
    · exact .inl (by rw [hn]; rfl)
    · refine .inr ⟨info, m, msgs, ?_⟩
      rw [hr, map_cons, map_map]
      rfl
  have hd : tail = [] ∨ ∃ ts k, tail = .trailers ts :: List.replicate k .streamClosed := by
    rcases ht with ⟨-, -, hn, -⟩ | ⟨-, -, ⟨-, hn⟩ | ⟨-, ht⟩⟩
    · exact .inl hn
    · exact .inl hn
    · exact .inr ht
  rcases hd with rfl | ⟨ts, k, rfl⟩
  · exact ⟨_, ⟨_, .new (.ok ()), 0, hb, rfl⟩, by rw [append_nil]; exact prefix_append _ _⟩
  · exact ⟨_, ⟨_, ts, k, hb, rfl⟩, prefix_rfl⟩

structure Responses (info : ConnectionInfo) (resp : Mpsc (ResponseItem M)) (clientRecv : Option ClientRecvStream)
    (serving : Serving) (offered : List (ResponseItem M)) (recvs : List (ResponseStreamItem M)) : Prop where
  shaped : Shaped offered
  sent : resp.sent <+: offered
  kept : resp.receiver = true → resp.sent = offered
  running : serving = .running → resp.sender = true
  stream : ∃ items, ResponseStream items ∧ recvs <+: items
  reading : ∀ rx, clientRecv = some rx → Reading info resp rx recvs

namespace Responses
variable {info : ConnectionInfo} {resp resp' : Mpsc (ResponseItem M)} {clientRecv : Option ClientRecvStream}
  {rx rx' : ClientRecvStream} {s : Serving} {offered : List (ResponseItem M)}
  {recvs recvs' : List (ResponseStreamItem M)}

theorem invoke (info : ConnectionInfo) :
    Responses (M := M) info .new (some ⟨true, some info, false⟩) .running [] [] where
  shaped := .inl rfl
  sent := prefix_rfl
  kept _ := rfl
  running _ := rfl
  stream := ⟨_, ⟨[], .new (.ok ()), 0, .inl rfl, rfl⟩, nil_prefix⟩
  reading rx hrx := by
    cases hrx
    exact ⟨[], rfl, .inl ⟨rfl, rfl, rfl, fun _ => rfl⟩⟩

theorem read (h : Responses info resp clientRecv s offered recvs) (hsn : resp'.sent = resp.sent)
    (hsd : resp'.sender = resp.sender) (hrc : resp'.receiver = resp.receiver)
    (hrd : Reading info resp' rx recvs') : Responses info resp' (some rx) s offered recvs' := by
  have hsn' : resp'.sent <+: offered := hsn ▸ h.sent
  have hsh : Shaped resp'.received := h.shaped.mono (resp'.received_le.trans hsn')
  refine ⟨h.shaped, hsn', fun hr => ?_, fun hs => ?_, hrd.stream hsh, fun rx' hrx => ?_⟩
  · rw [hsn]
    exact h.kept (hrc ▸ hr)
  · rw [hsd]
    exact h.running hs
  · cases hrx
    exact hrd

theorem serverSend (h : Responses info resp clientRecv .running offered recvs) {item : ResponseItem M}
    (hsh : Shaped (offered ++ [item])) :
    Responses info (resp.send item).1 clientRecv .running (offered ++ [item]) recvs := by
  have hs := h.running rfl
  refine ⟨hsh, ?_, fun hr => ?_, fun _ => by simpa using hs, h.stream, fun rx hrx => ?_⟩
  · cases hr : resp.receiver with
    | true => rw [(send_of_receiver hr item).2.1, h.kept hr]
    | false =>
      rw [send_of_dropped hr]
      exact h.sent.trans (prefix_append _ _)
  · rw [receiver_send] at hr
    rw [(send_of_receiver hr item).2.1, h.kept hr]
  · obtain ⟨tail, hrc, ho | ⟨⟨hc, -⟩, -⟩⟩ := h.reading rx hrx
    · exact ⟨tail, by simpa using hrc, .inl (by simpa using ho)⟩
    · simp [hs] at hc

theorem stop (h : Responses info resp clientRecv .running offered recvs) (hsr : s ≠ .running) :
    Responses info resp clientRecv s offered recvs :=
  ⟨h.shaped, h.sent, h.kept, fun hs => absurd hs hsr, h.stream, h.reading⟩

theorem dropSender (h : Responses info resp clientRecv s offered recvs) (hsr : s ≠ .running) :
    Responses info resp.dropSender clientRecv s offered recvs where
  shaped := h.shaped
  sent := h.sent
  kept := h.kept
  running hs := absurd hs hsr
  stream := h.stream
  reading rx hrx := by
    obtain ⟨tail, hr, ho | ⟨⟨-, hq⟩, hrest⟩⟩ := h.reading rx hrx
    · exact ⟨tail, hr, .inl ho⟩
    · exact ⟨tail, hr, .inr ⟨⟨rfl, hq⟩, hrest⟩⟩

theorem dropReceiver (h : Responses info resp clientRecv s offered recvs) :
    Responses info resp.dropReceiver none s offered recvs where
  shaped := h.shaped
  sent := h.sent
  kept hr := by cases hr
  running := h.running
  stream := h.stream
  reading _ hrx := by cases hrx

end Responses

/-- Nothing panics; both directions lose and reorder nothing. -/
structure Inv (info : ConnectionInfo) (c : Call M) : Prop where
  panicked : c.panicked = none
  requests : Requests c.req c.clientSend c.sends c.nexts
  responses : Responses info c.resp c.clientRecv c.serving c.offered c.recvs

namespace Inv
variable {info : ConnectionInfo} {c c' : Call M} {item : ResponseItem M} {rx : ClientRecvStream}

theorem invoke (info : ConnectionInfo) : Inv info (.invoke info : Call M) := ⟨rfl, .invoke, .invoke info⟩

section
variable (h : Inv info c)
include h

theorem send {msg : M} (hcr : Careful c (.send msg)) (hs : c.send msg = some c') : Inv info c' := by
  have hrq := h.requests
  rw [Call.send] at hs
  cases hc : c.clientSend with
  | alive tx =>
    rw [hc] at hrq
    cases tx with
    | true =>
      simp only [hc] at hs
      cases hr : c.req.receiver with
      | true =>
        have hsn : c.req.send (.message msg) = ((c.req.send (.message msg)).1, true) :=
          Prod.ext rfl (send_of_receiver hr _).1
        rw [hsn] at hs
        cases hs
        exact ⟨h.panicked, hc ▸ hrq.send_message msg hr, h.responses⟩
      | false =>
        rw [send_of_dropped hr] at hs
        cases hs
        exact ⟨h.panicked, hrq.send_ended msg hr, h.responses⟩
    | false =>
      obtain ⟨-, s, hmem, he⟩ := hrq.ended rfl
      rw [hcr s hmem] at he
      cases he
  | closing | dropped => simp [hc] at hs

theorem dropSend (hs : c.dropSend = some c') : Inv info c' := by
  have hr := h.requests
  rw [Call.dropSend] at hs
  cases hc : c.clientSend with
  | alive tx =>
    rw [hc] at hr
    cases tx with
    | true =>
      simp only [hc] at hs
      cases hs
      exact ⟨h.panicked, hr.dropSend, h.responses⟩
    | false =>
      simp only [hc] at hs
      cases hs
      exact ⟨h.panicked, hr.dropSend_ended, h.responses⟩
  | closing | dropped => simp [hc] at hs

theorem dropTx (hs : c.dropTx = some c') : Inv info c' := by
  have hr := h.requests
  rw [Call.dropTx] at hs
  cases hc : c.clientSend with
  | closing =>
    rw [hc] at hr
    simp only [hc] at hs
    cases hs
    exact ⟨h.panicked, hr.dropTx, h.responses⟩
  | alive _ | dropped => simp [hc] at hs

theorem serverNext (hs : c.serverNext = some c') : Inv info c' := by
  rw [Call.serverNext] at hs
  split at hs
  · rename_i hrc
    cases hr : c.req.recv with
    | mk req r =>
      rw [hr] at hs
      cases r with
      | item item =>
        have hrq := h.requests.next_item hr
        cases item with
        | message msg =>
          cases hs
          exact ⟨h.panicked, hrq, h.responses⟩
        | streamClosed =>
          cases hs
          exact ⟨h.panicked, hrq, h.responses⟩
      | closed =>
        cases hs
        exact ⟨h.panicked, h.requests.next_closed hr hrc, h.responses⟩
      | pending =>
        cases hs
        exact h
  · cases hs

theorem shaped_snoc (hf : HeadersFirst c (.serverSend item)) (hc : Careful c (.serverSend item)) :
    Shaped (c.offered ++ [item]) := by
  rcases h.responses.shaped with hn | ⟨m, msgs, ho⟩
  · cases item with
    | headers m => exact .inr ⟨m, [], by rw [hn]; rfl⟩
    | message msg => exact absurd hn hc
  · cases item with
    | headers m' => simp [ho, HeadersFirst] at hf
    | message msg => exact .inr ⟨m, msgs ++ [msg], by rw [ho]; simp⟩

theorem serverSend (hf : HeadersFirst c (.serverSend item)) (hc : Careful c (.serverSend item))
    (hst : c.serverSend item = some c') : Inv info c' := by
  have hr := h.responses
  have hsh := h.shaped_snoc hf hc
  rw [Call.serverSend] at hst
  cases hs : c.serving with
  | running =>
    rw [hs] at hr
    simp only [hs] at hst
    cases hst
    exact ⟨h.panicked, h.requests, hs ▸ hr.serverSend hsh⟩
  | returned | dropped => simp [hs] at hst

theorem stop {serving : Serving} (hs : c.serving = .running) (hsr : serving ≠ .running)
    (trailer : Oneshot ServerTrailers) : Inv info { c with trailer, serving } := by
  have hr := h.responses
  rw [hs] at hr
  exact ⟨h.panicked, h.requests, hr.stop hsr⟩

theorem pollTrailers (hrx : c.clientRecv = some rx) (hat : rx.atTrailers = true) : Inv info (c.pollTrailers rx) := by
  obtain ⟨tail, hr, ⟨hn, -⟩ | ⟨hc, ht, ⟨-, rfl⟩ | ⟨hn, -⟩⟩⟩ := h.responses.reading rx hrx
  · simp [hat] at hn
  · have hy : ∀ (connectionInfo : Option ConnectionInfo) (ts : Trailers),
        Inv info (c.yield { rx with atTrailers := false, connectionInfo } (.trailers ts)) := by
      intro connectionInfo ts
      refine ⟨h.panicked, h.requests, h.responses.read rfl rfl rfl ⟨[.trailers ts], ?_, .inr ⟨hc, ht, ?_⟩⟩⟩
      · rw [Call.yield, hr, append_nil]
      · exact .inr ⟨rfl, ts, 0, rfl⟩
    rw [Call.pollTrailers]
    cases c.trailer.recv with
    | item ts => exact hy _ _
    | closed => exact hy rx.connectionInfo _
    | pending => exact h
  · simp [hat] at hn

/-- `recv` takes an item from the queue. Headers find the connection, since they are the first item. -/
theorem recv_item (hrx : c.clientRecv = some rx) (hat : rx.atTrailers = false) {resp : Mpsc (ResponseItem M)}
    (hre : c.resp.recv = (resp, .item item)) : (∀ m, item = .headers m → rx.connectionInfo = some info) ∧
      ∀ connectionInfo, Inv info ({ c with resp }.yield { rx with connectionInfo } (item.received info)) := by
  obtain ⟨tail, hrv, hrd⟩ := h.responses.reading rx hrx
  obtain ⟨r, hq, -, hr, hst, hsn, hrc⟩ := Mpsc.recv_item hre
  -- The queue is not at its end, so the stream is still reading it.
  obtain ⟨ht, rfl, hi⟩ : rx.trailerRx = true ∧ tail = [] ∧ (c.resp.received = [] → rx.connectionInfo = some info) := by
    rcases hrd with ⟨-, ho⟩ | ⟨⟨-, hempty⟩, -⟩
    · exact ho
    · simp [hempty] at hq
  refine ⟨?_, fun connectionInfo => ⟨h.panicked, h.requests, h.responses.read hst hsn hrc ?_⟩⟩
  · rintro m rfl
    have hs := h.responses.shaped.mono h.responses.sent
    rw [← c.resp.fifo, hq] at hs
    exact hi hs.headers
  · refine ⟨[], ?_, .inl ⟨hat, ht, rfl, fun hn => ?_⟩⟩
    · rw [Call.yield, hrv]
      simp [hr]
    · simp [Call.yield, hr] at hn

theorem recv_closed (hrx : c.clientRecv = some rx) (hat : rx.atTrailers = false) {r : Mpsc (ResponseItem M)}
    (hrv : c.resp.recv = (r, .closed)) :
    (rx.trailerRx = true → Inv info { c with clientRecv := some { rx with trailerRx := false, atTrailers := true } }) ∧
      (rx.trailerRx = false → Inv info (c.yield rx .streamClosed)) := by
  obtain ⟨tail, hrc, hr⟩ := h.responses.reading rx hrx
  obtain ⟨-, hempty, hs⟩ := Mpsc.recv_closed hrv
  refine ⟨fun ht => ?_, fun ht => ?_⟩
  · obtain rfl : tail = [] := by
      rcases hr with ⟨-, -, hn, -⟩ | ⟨-, hnt, -⟩
      · exact hn
      · simp [ht] at hnt
    exact ⟨h.panicked, h.requests, h.responses.read rfl rfl rfl ⟨[], hrc, .inr ⟨⟨hs, hempty⟩, rfl, .inl ⟨rfl, rfl⟩⟩⟩⟩
  · obtain ⟨ts, k, rfl⟩ : ∃ ts k, tail = .trailers ts :: List.replicate k .streamClosed := by
      rcases hr with ⟨-, hy, -⟩ | ⟨-, -, ⟨hy, -⟩ | ⟨-, htl⟩⟩
      · simp [ht] at hy
      · simp [hat] at hy
      · exact htl
    refine ⟨h.panicked, h.requests, h.responses.read rfl rfl rfl ⟨.trailers ts :: List.replicate (k + 1) .streamClosed,
      ?_, .inr ⟨⟨hs, hempty⟩, ht, .inr ⟨hat, ts, k + 1, rfl⟩⟩⟩⟩
    rw [Call.yield, hrc, replicate_succ']
    simp

theorem recv (hs : c.recv = some c') : Inv info c' := by
  rw [Call.recv] at hs
  cases hrx : c.clientRecv with
  | none => simp [hrx] at hs
  | some rx =>
    simp only [hrx] at hs
    cases hat : rx.atTrailers with
    | true =>
      rw [if_pos hat] at hs
      cases hs
      exact h.pollTrailers hrx hat
    | false =>
      rw [if_neg (by simp [hat])] at hs
      cases hr : c.resp.recv with
      | mk resp r =>
        rw [hr] at hs
        cases r with
        | item item =>
          obtain ⟨hi, hy⟩ := h.recv_item hrx hat hr
          cases item with
          | headers m =>
            simp only [hi m rfl] at hs
            cases hs
            exact hy none
          | message msg =>
            cases hs
            exact hy rx.connectionInfo
        | closed =>
          obtain ⟨hf, hl⟩ := h.recv_closed hrx hat hr
          dsimp only at hs
          split at hs
          · rename_i ht
            cases hs
            exact hf ht
          · rename_i ht
            cases hs
            exact hl (by simpa using ht)
        | pending =>
          cases hs
          exact h

theorem step {e : Event M} (hf : HeadersFirst c e) (hc : Careful c e) (hst : c.step e = some c') : Inv info c' := by
  unfold Call.step at hst
  rw [h.panicked, if_neg (by simp)] at hst
  cases e with
  | send msg => exact h.send hc hst
  | dropSend => exact h.dropSend hst
  | dropTx => exact h.dropTx hst
  | recv => exact h.recv hst
  | dropRecv =>
    simp only [Call.dropRecv] at hst
    cases hrx : c.clientRecv with
    | none => simp [hrx] at hst
    | some rx =>
      simp only [hrx] at hst
      cases hst
      exact ⟨h.panicked, h.requests, h.responses.dropReceiver⟩
  | serverSend item => exact h.serverSend hf hc hst
  | serverNext => exact h.serverNext hst
  | serverDropRecv =>
    simp only [Call.serverDropRecv] at hst
    split at hst
    · cases hst
      exact ⟨h.panicked, h.requests.dropReceiver, h.responses⟩
    · cases hst
  | serverReturn ts =>
    simp only [Call.serverReturn] at hst
    cases hs : c.serving with
    | running =>
      simp only [hs] at hst
      cases hst
      exact h.stop hs (by simp) _
    | returned | dropped => simp [hs] at hst
  | serverDrop =>
    simp only [Call.serverDrop] at hst
    cases hs : c.serving with
    | running =>
      simp only [hs] at hst
      cases hst
      exact h.stop hs (by simp) _
    | returned | dropped => simp [hs] at hst
  | serverDropSend =>
    simp only [Call.serverDropSend] at hst
    cases hs : c.serving with
    | running => simp [hs] at hst
    | returned | dropped =>
      have hr := h.responses.dropSender (by simp [hs])
      simp only [hs] at hst
      cases hst
      exact ⟨h.panicked, h.requests, hs ▸ hr⟩
  | serverDropTrailer =>
    simp only [Call.serverDropTrailer] at hst
    cases hs : c.serving with
    | dropped =>
      simp only [hs] at hst
      cases hst
      exact ⟨h.panicked, h.requests, hs ▸ h.responses⟩
    | running | returned => simp [hs] at hst

end

end Inv

/-- With headers first and no sends after the end, no step panics and both sides receive what was sent, in order. -/
theorem in_memory_streams {info : ConnectionInfo} {c : Call M}
    (h : (calls M info).Reachable (fun c event => HeadersFirst c event ∧ Careful c event) c) :
    c.panicked = none ∧ HandlerReceives c ∧ ∃ items, ResponseStream items ∧ c.recvs <+: items := by
  have hi : Inv info c := h.inv (P := Inv info) (.invoke info) fun _ _ _ hc hcn hs => hc.step hcn.1 hcn.2 hs
  exact ⟨hi.panicked, hi.requests.handlerReceives, hi.responses.stream⟩

/-- The handler receives a message and the end, answers with headers, and is dropped, its trailers last. -/
theorem in_memory_streams_dropped : ∃ c : Call Nat, c.nexts = [some 1, none] ∧ c.recvs = [.headers ⟨.noSecurity⟩ ⟨[]⟩,
      .trailers (.new (.error ⟨.internal, "stream ended without trailers in in-memory transport"⟩)), .streamClosed] ∧
    c.panicked = none ∧ HandlerReceives c ∧ ∃ items, ResponseStream items ∧ c.recvs <+: items := by
  have start : (calls Nat ⟨.noSecurity⟩).Reachable (fun c event => HeadersFirst c event ∧ Careful c event) _ := .init
  have sent := start.step (Event.send 1) ⟨trivial, nofun⟩ rfl
  have received := sent.step Event.serverNext ⟨trivial, trivial⟩ rfl
  have answered := received.step (Event.serverSend (.headers ⟨[]⟩)) ⟨rfl, trivial⟩ rfl
  have closing := answered.step Event.dropSend ⟨trivial, trivial⟩ rfl
  have ended := closing.step Event.serverNext ⟨trivial, trivial⟩ rfl
  have headers := ended.step Event.recv ⟨trivial, trivial⟩ rfl
  have dropped := headers.step Event.serverDrop ⟨trivial, trivial⟩ rfl
  have silent := dropped.step Event.serverDropSend ⟨trivial, trivial⟩ rfl
  -- The first `recv` waits for the trailers.
  have waiting := (silent.step Event.recv ⟨trivial, trivial⟩ rfl).step Event.recv ⟨trivial, trivial⟩ rfl
  have gone := waiting.step Event.serverDropTrailer ⟨trivial, trivial⟩ rfl
  have last := (gone.step Event.recv ⟨trivial, trivial⟩ rfl).step Event.recv ⟨trivial, trivial⟩ rfl
  exact ⟨_, rfl, rfl, in_memory_streams last⟩

/-- A client sends after the end of the stream, and a handler sends a message without headers. -/
theorem in_memory_streams_careless : (∃ c : Call Nat, (calls Nat ⟨.noSecurity⟩).Reachable HeadersFirst c ∧
      c.sends = [(1, .error .streamEnded)] ∧ c.panicked = some .sendWithoutTx) ∧
    ∃ c : Call Nat, (calls Nat ⟨.noSecurity⟩).Reachable HeadersFirst c ∧ c.panicked = none ∧
      ¬ ∃ items, ResponseStream items ∧ c.recvs <+: items := by
  have s : (calls Nat ⟨.noSecurity⟩).Reachable HeadersFirst _ := .init
  constructor
  · have d := s.step Event.serverDropRecv trivial rfl
    have t := d.step (Event.send 1) trivial rfl
    exact ⟨_, t.step (Event.send 2) trivial rfl, rfl, rfl⟩
  · have a := s.step (Event.serverSend (.message 1)) trivial rfl
    refine ⟨_, a.step Event.recv trivial rfl, rfl, ?_⟩
    rintro ⟨items, ⟨b, ts, k, hb, rfl⟩, hr⟩
    have hr' : [ResponseStreamItem.message 1] <+: b ++ .trailers ts :: List.replicate k .streamClosed := hr
    rcases hb with rfl | ⟨info, m, msgs, rfl⟩
    · simp [cons_prefix_cons] at hr'
    · simp [cons_prefix_cons] at hr'

end InMemory
