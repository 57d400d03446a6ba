import GrpcRust.Client.Channel
import GrpcRust.Lib.Channel
/-!
# Calls of the in-memory transport

`inmemory/mod.rs`: two queues and a oneshot for the trailers; the six ends are dropped independently. A step is one
operation on one channel. Encoding succeeds, and a waiting `recv` is polled again.
-/

namespace InMemory

open Lib Grpc Client

variable {M : Type}

/-! ## Items -/

inductive RequestItem (M : Type) where
  | message (msg : M)
  | streamClosed

inductive ResponseItem (M : Type) where
  | headers (metadata : MetadataMap)
  | message (msg : M)

structure ServerTrailers where
  status : Except StatusError Unit
  metadata : MetadataMap

inductive StreamEnded where
  | streamEnded
deriving DecidableEq

inductive Panic where
  | sendWithoutTx
  | connectionInfoTaken
deriving DecidableEq

/-! ## Streams -/

inductive ClientSendStream where
  | alive (tx : Bool)
  | closing
  | dropped
deriving DecidableEq

structure ClientRecvStream where
  trailerRx : Bool
  connectionInfo : Option ConnectionInfo
  atTrailers : Bool

inductive Serving where
  | running
  | returned
  | dropped
deriving DecidableEq

structure Call (M : Type) where
  req : Mpsc (RequestItem M)
  resp : Mpsc (ResponseItem M)
  trailer : Oneshot ServerTrailers
  clientSend : ClientSendStream
  clientRecv : Option ClientRecvStream
  serving : Serving
  sends : List (M × Except StreamEnded Unit)
  recvs : List (ResponseStreamItem M)
  offered : List (ResponseItem M)
  nexts : List (Option M)
  panicked : Option Panic

inductive Event (M : Type) where
  | send (msg : M)
  | dropSend
  | dropTx
  | recv
  | dropRecv
  | serverSend (item : ResponseItem M)
  | serverNext
  | serverDropRecv
  | serverReturn (trailers : ServerTrailers)
  | serverDrop
  | serverDropSend
  | serverDropTrailer

namespace Call

def invoke (connectionInfo : ConnectionInfo) : Call M where
  req := .new
  resp := .new
  trailer := .new
  clientSend := .alive true
  clientRecv := some { trailerRx := true, connectionInfo := some connectionInfo, atTrailers := false }
  serving := .running
  sends := []
  recvs := []
  offered := []
  nexts := []
  panicked := none

/-! ### The client -/

def send (c : Call M) (msg : M) : Option (Call M) :=
  match c.clientSend with
  | .alive true =>
    match c.req.send (.message msg) with
    | (req, true) => some { c with req, sends := c.sends ++ [(msg, .ok ())] }
    | (req, false) =>
      some { c with
        req := req.dropSender
        clientSend := .alive false
        sends := c.sends ++ [(msg, .error .streamEnded)] }
  | .alive false => some { c with panicked := some .sendWithoutTx }
  | _ => none

variable (c : Call M) (rx : ClientRecvStream)

def dropSend : Option (Call M) :=
  match c.clientSend with
  | .alive true => some { c with req := (c.req.send .streamClosed).1, clientSend := .closing }
  | .alive false => some { c with clientSend := .dropped }
  | _ => none

def dropTx : Option (Call M) :=
  match c.clientSend with
  | .closing => some { c with req := c.req.dropSender, clientSend := .dropped }
  | _ => none

def yield (item : ResponseStreamItem M) : Call M := { c with clientRecv := some rx, recvs := c.recvs ++ [item] }

def pollTrailers : Call M :=
  match c.trailer.recv with
  | .item trailers =>
    c.yield { rx with atTrailers := false, connectionInfo := none }
      (.trailers ⟨trailers.status, trailers.metadata, rx.connectionInfo⟩)
  | .closed =>
    c.yield { rx with atTrailers := false }
      (.trailers (.new (.error ⟨.internal, "stream ended without trailers in in-memory transport"⟩)))
  | .pending => c

def recv (c : Call M) : Option (Call M) :=
  match c.clientRecv with
  | none => none
  | some rx =>
    if rx.atTrailers then some (c.pollTrailers rx)
    else
      match c.resp.recv with
      | (resp, .item (.headers metadata)) =>
        match rx.connectionInfo with
        | some info => some ({ c with resp }.yield { rx with connectionInfo := none } (.headers info metadata))
        | none => some { c with resp, panicked := some .connectionInfoTaken }
      | (resp, .item (.message msg)) => some ({ c with resp }.yield rx (.message msg))
      | (_, .closed) =>
        if rx.trailerRx then some { c with clientRecv := some { rx with trailerRx := false, atTrailers := true } }
        else some (c.yield rx .streamClosed)
      | (_, .pending) => some c

def dropRecv : Option (Call M) :=
  match c.clientRecv with
  | none => none
  | some _ => some { c with resp := c.resp.dropReceiver, trailer := c.trailer.dropReceiver, clientRecv := none }

/-! ### The server -/

def serverSend (item : ResponseItem M) : Option (Call M) :=
  match c.serving with
  | .running => some { c with resp := (c.resp.send item).1, offered := c.offered ++ [item] }
  | _ => none

def serverNext : Option (Call M) :=
  if c.req.receiver then
    match c.req.recv with
    | (req, .item (.message msg)) => some { c with req, nexts := c.nexts ++ [some msg] }
    | (req, .item .streamClosed) => some { c with req, nexts := c.nexts ++ [none] }
    | (_, .closed) => some { c with nexts := c.nexts ++ [none] }
    | (_, .pending) => some c
  else none

def serverDropRecv : Option (Call M) :=
  if c.req.receiver then some { c with req := c.req.dropReceiver } else none

def serverReturn (trailers : ServerTrailers) : Option (Call M) :=
  match c.serving with
  | .running => some { c with trailer := c.trailer.send trailers, serving := .returned }
  | _ => none

def serverDrop : Option (Call M) :=
  match c.serving with
  | .running => some { c with serving := .dropped }
  | _ => none

def serverDropSend : Option (Call M) :=
  match c.serving with
  | .running => none
  | _ => some { c with resp := c.resp.dropSender }

def serverDropTrailer : Option (Call M) :=
  match c.serving with
  | .dropped => some { c with trailer := c.trailer.dropSender }
  | _ => none

def step (event : Event M) : Option (Call M) :=
  if c.panicked.isSome then none
  else
    match event with
    | .send msg => c.send msg
    | .dropSend => c.dropSend
    | .dropTx => c.dropTx
    | .recv => c.recv
    | .dropRecv => c.dropRecv
    | .serverSend item => c.serverSend item
    | .serverNext => c.serverNext
    | .serverDropRecv => c.serverDropRecv
    | .serverReturn trailers => c.serverReturn trailers
    | .serverDrop => c.serverDrop
    | .serverDropSend => c.serverDropSend
    | .serverDropTrailer => c.serverDropTrailer

end Call

def calls (M : Type) (connectionInfo : ConnectionInfo) : Transition (Call M) (Event M) where
  init := .invoke connectionInfo
  step := Call.step

end InMemory
