import GrpcRust.HyperServer.Headers
import GrpcRust.Lib.Transition
import GrpcRust.Tonic.Encode
/-!
# A call on the hyper server transport

`service.rs` and `stream.rs`: the handler, the future of the initial response and the body of a streaming response are
interleaved in any way. The client stays.
-/

namespace HyperServer

open Lib Lib.Bytes Grpc Tonic

inductive InitialResponse
  | headers (metadata : MetadataMap)
  | trailersOnly (trailers : Trailers)

inductive Initial
  | held
  | sent (response : InitialResponse)
  | dropped
  | received

inductive Task
  | running
  | queueing (buf : Bytes)
  | sendingTrailers (trailers : Trailers)
  | ended

inductive Ending
  | returned (trailers : Trailers) (late : Bool)
  | cutOff
  | panicked

inductive Response
  | trailersOnly (head : Except Tonic.Status HeaderMap)
  | streaming (head : HeaderMap) (polled : List (SourcePoll Bytes)) (finished : Bool)

/-- The handler's task, its channels and the response; `sent` and `ending` are records. -/
structure Call where
  task : Task
  inPoll : Bool
  pollLate : Bool
  elapsed : Bool
  initial : Initial
  queue : List (Except Trailers Bytes)
  response : Option Response
  begun : Bool
  sent : List Bytes
  ending : Option Ending

def responseMessageChannelCapacity : Nat := 1

def deadlineExceeded : Trailers := .new .deadlineExceeded "deadline exceeded"

def noInitialResponse : Trailers := .new .internal "handler did not send response headers or trailers"

def noTrailers : Tonic.Status := .internal "handler ended without sending trailers"

inductive Event
  | elapse
  | wake
  | yield
  | sendHeaders (metadata : MetadataMap)
  | sendMessage (encoded : Except String Bytes)
  | queue
  | dropSend
  | returns (trailers : Trailers)
  | panic
  | sendTrailers
  | receiveInitial
  | pollBody

namespace Call

def init : Call where
  task := .running
  inPoll := false
  pollLate := false
  elapsed := false
  initial := .held
  queue := []
  response := none
  begun := false
  sent := []
  ending := none

variable (c : Call) (deadline : Bool)

def pollTask (c : Call) : Call :=
  if deadline ∧ c.elapsed then { c with task := .sendingTrailers deadlineExceeded, ending := some .cutOff }
  else { c with inPoll := true, pollLate := c.elapsed }

def takeInitial (metadata : MetadataMap) : Call := { c with initial := .sent (.headers metadata), begun := true }

def sendMessage (buf : Bytes) : Call :=
  let c := { c with task := .queueing buf }
  match c.initial with
  | .held => c.takeInitial { headers := [] }
  | _ => c

def dropSenders : Call :=
  let c := { c with task := .ended, inPoll := false }
  match c.initial with
  | .held => { c with initial := .dropped }
  | _ => c

def sendTrailers (trailers : Trailers) : Option Call :=
  match c.initial with
  | .held => some { c with task := .ended, initial := .sent (.trailersOnly trailers) }
  | _ =>
    if c.queue.length < responseMessageChannelCapacity then
      some { c with task := .ended, queue := c.queue ++ [.error trailers] }
    else none

def receiveInitial : Option Call :=
  match c.initial with
  | .sent (.headers metadata) =>
    some { c with initial := .received, response := some (.streaming (streamingHead metadata) [] false) }
  | .sent (.trailersOnly trailers) =>
    some { c with initial := .received, response := some (.trailersOnly (trailersOnlyHead trailers)) }
  | .dropped =>
    some { c with initial := .received, response := some (.trailersOnly (trailersOnlyHead noInitialResponse)) }
  | _ => none

def pollMessages (head : HeaderMap) (polled : List (SourcePoll Bytes)) : Call :=
  let response (poll : SourcePoll Bytes) (finished : Bool) : Option Response :=
    some (.streaming head (polled ++ [poll]) finished)
  match c.queue with
  | .ok message :: queue => { c with queue := queue, response := response (.item message) false }
  | .error trailers :: queue =>
    { c with queue := queue, response := response (.error (tonicStatusFromTrailers trailers)) true }
  | [] =>
    match c.task with
    | .ended => { c with response := response (.error noTrailers) true }
    | _ => { c with response := response .pending false }

def handlerStep : Event → Option Call
  | .sendHeaders metadata =>
    match c.task, c.initial with
    | .running, .held => some (c.takeInitial metadata)
    -- `Err(StreamEnded)`
    | .running, _ => some c
    | _, _ => none
  | .sendMessage encoded =>
    match c.task, encoded with
    | .running, .ok buf => some (c.sendMessage buf)
    | .running, .error _ => some c
    | _, _ => none
  | .queue =>
    match c.task with
    | .queueing buf =>
      if c.queue.length < responseMessageChannelCapacity then
        some { c with task := .running, queue := c.queue ++ [.ok buf], sent := c.sent ++ [buf] }
      else none
    | _ => none
  | .dropSend =>
    match c.task with
    | .queueing _ => some { c with task := .running }
    | _ => none
  | .yield =>
    match c.task with
    | .running | .queueing _ => some { c with inPoll := false }
    | _ => none
  | .returns trailers =>
    match c.task with
    | .running =>
      some { c with task := .sendingTrailers trailers, inPoll := false, ending := some (.returned trailers c.pollLate) }
    | _ => none
  | .panic =>
    match c.task with
    | .running | .queueing _ => some (dropSenders { c with ending := some .panicked })
    | _ => none
  | _ => none

def step (c : Call) : Event → Option Call
  | .elapse => if deadline then some { c with elapsed := true } else none
  | .wake =>
    match c.task, c.inPoll with
    | .running, false | .queueing _, false => some (c.pollTask deadline)
    | _, _ => none
  | .sendTrailers =>
    match c.task with
    | .sendingTrailers trailers => c.sendTrailers trailers
    | _ => none
  | .receiveInitial => c.receiveInitial
  | .pollBody =>
    match c.response with
    | some (.streaming head polled false) => some (c.pollMessages head polled)
    | _ => none
  | event => if c.inPoll then c.handlerStep event else none

end Call

def calls (deadline : Bool) : Transition Call Event where
  init := .init
  step := Call.step deadline

end HyperServer
