import AukiSdk.Protocols.MessageWire
import AukiSdk.Foundation.Run

/-!
# A message channel

Calls of `send` on the clones of one channel take turns behind its lock.
-/

namespace AukiSdk.Protocols.MessageV1

open AukiSdk.Foundation

def outboundQueueCapacity : ℕ := 16

/-- What a call returns; `failed` is every error but `Closed`. -/
inductive SendResult where
  | ok
  | closed
  | failed
  deriving DecidableEq

/-- Where a call of `send_message` is between two of its awaits. -/
inductive SendPhase where
  | called
  | queued
  | admitted
  | locking
  | writing (sequence : UInt64) (remaining : List UInt8)
  | awaiting (sequence : UInt64)
  | returned (result : SendResult)
  | dropped
  deriving DecidableEq

structure SendCall where
  message : Message
  phase : SendPhase := .called

/-- What the handler of the receiver does between two of its awaits. -/
inductive ReceiverPhase where
  | reading
  | holding (sequence : UInt64) (message : Message)
  | acknowledging (sequence : UInt64)
  | stopped

/-- The loop of `handle_inbound_io`, with the messages it has put into the queue. -/
structure Receiver where
  buffer : List UInt8 := []
  phase : ReceiverPhase := .reading
  enqueued : List Message := []

/-- A channel with its calls, the bytes under way, and its receiver. -/
structure Channel where
  closed : Bool := false
  permits : ℕ := outboundQueueCapacity
  admissionsClosed : Bool := false
  holder : Option ℕ := none
  stream : Bool := true
  nextSequence : UInt64 := 1
  calls : ℕ → Option SendCall := fun _ => none
  outgoing : List UInt8 := []
  acknowledgements : List UInt8 := []
  receiver : Receiver := {}
  exchanges : List ℕ := []
  written : List UInt8 := []

namespace Channel

variable (channel : Channel)

/-- A call goes on. -/
def move (id : ℕ) (call : SendCall) (phase : SendPhase) : Channel :=
  { channel with calls := Function.update channel.calls id (some { call with phase }) }

/-- The permit of a call is given back. -/
def release : Channel :=
  { channel with permits := channel.permits + 1 }

/-- A dropped `SendTransaction` that was not committed. -/
def poison : Channel :=
  { channel with
    closed := true
    stream := false
    holder := none
    permits := channel.permits + 1 }

/-- `SendTransaction::commit`, with the lock and the permit of its call. -/
def commit : Channel :=
  { channel with
    nextSequence := max (channel.nextSequence + 1) 1
    holder := none
    permits := channel.permits + 1 }

variable (messages : MessageEncoding)

/-- The exchange of a call begins: its message is encoded. -/
def begin (channel : Channel) (id : ℕ) (call : SendCall) : Channel :=
  let begun := { channel with holder := some id, exchanges := channel.exchanges ++ [id] }
  match (Frame.message channel.nextSequence call.message).write messages with
  | .error _ => (begun.move id call (.returned .failed)).poison
  | .ok bytes => begun.move id call (.writing channel.nextSequence bytes)

/-- The next turn of a call that waits for nothing but its turn. -/
def advance (channel : Channel) (id : ℕ) : Option Channel :=
  match channel.calls id with
  | none => none
  | some call =>
    match call.phase with
    | .called =>
      if channel.closed then some (channel.move id call (.returned .closed))
      else some (channel.move id call .queued)
    | .queued =>
      if channel.admissionsClosed then some (channel.move id call (.returned .closed))
      else if channel.permits = 0 then none
      else some { channel.move id call .admitted with permits := channel.permits - 1 }
    | .admitted =>
      if channel.closed then some (channel.move id call (.returned .closed)).release
      else some (channel.move id call .locking)
    | .locking =>
      if channel.holder.isSome then none
      else if channel.closed ∨ channel.stream = false then
        some (channel.move id call (.returned .closed)).release
      else some (channel.begin messages id call)
    | _ => none

/-- Some more bytes of a message are written. -/
def write (id count : ℕ) : Option Channel :=
  match channel.calls id with
  | none => none
  | some call =>
    match call.phase with
    | .writing sequence remaining =>
      let next := if remaining.drop count = [] then .awaiting sequence
        else .writing sequence (remaining.drop count)
      some { channel.move id call next with
        outgoing := channel.outgoing ++ remaining.take count
        written := channel.written ++ remaining.take count }
    | _ => none

/-- `read_ack_frame`, when it does not wait, and the check of `exchange_message`. -/
def acknowledge (channel : Channel) (id : ℕ) : Option Channel :=
  match channel.calls id with
  | none => none
  | some call =>
    match call.phase with
    | .awaiting sequence =>
      match readAs messages .ack channel.acknowledgements with
      | .error .io => none
      | .ok (.ack actual, rest) =>
        if actual = sequence then
          some { (channel.move id call (.returned .ok)).commit with acknowledgements := rest }
        else
          some (channel.move id call (.returned .failed)).poison
      | _ => some (channel.move id call (.returned .failed)).poison
    | _ => none

/-- An exchange times out, or its stream fails. -/
def fail (id : ℕ) : Option Channel :=
  match channel.calls id with
  | none => none
  | some call =>
    match call.phase with
    | .writing _ _ | .awaiting _ => some (channel.move id call (.returned .failed)).poison
    | _ => none

/-- The future of a call is dropped. -/
def drop (id : ℕ) : Option Channel :=
  match channel.calls id with
  | none => none
  | some call =>
    match call.phase with
    | .called | .queued => some (channel.move id call .dropped)
    | .admitted | .locking => some (channel.move id call .dropped).release
    | .writing _ _ | .awaiting _ => some (channel.move id call .dropped).poison
    | .returned _ | .dropped => none

/-- A frame is read and decoded, when it has arrived. -/
def receive (channel : Channel) : Option Channel :=
  match channel.receiver.phase with
  | .reading =>
    match readAs messages .message channel.receiver.buffer with
    | .error .io => none
    | .ok (.message sequence message, rest) =>
      some { channel with
        receiver := { channel.receiver with
          buffer := rest
          phase := .holding sequence message } }
    | _ => some { channel with receiver := { channel.receiver with phase := .stopped } }
  | _ => none

/-- The message that is held is put into the queue. -/
def enqueue : Option Channel :=
  match channel.receiver.phase with
  | .holding sequence message =>
    some { channel with
      receiver := { channel.receiver with
        phase := .acknowledging sequence
        enqueued := channel.receiver.enqueued ++ [message] } }
  | _ => none

/-- The acknowledgement is written, or some of it before the handler returns. -/
def confirm (channel : Channel) (broken : Option ℕ) :
    Option Channel :=
  match channel.receiver.phase with
  | .acknowledging sequence =>
    match (Frame.ack sequence).write messages with
    | .error _ => some { channel with receiver := { channel.receiver with phase := .stopped } }
    | .ok bytes =>
      match broken with
      | none =>
        some { channel with
          acknowledgements := channel.acknowledgements ++ bytes
          receiver := { channel.receiver with phase := .reading } }
      | some count =>
        some { channel with
          acknowledgements := channel.acknowledgements ++ bytes.take count
          receiver := { channel.receiver with phase := .stopped } }
  | _ => none

end Channel

/-- Calls, `close`, the receiver's steps, and `stop` for the ends of a receiver. -/
inductive ChannelEvent where
  | call (id : ℕ) (message : Message)
  | advance (id : ℕ)
  | write (id count : ℕ)
  | acknowledge (id : ℕ)
  | fail (id : ℕ)
  | drop (id : ℕ)
  | close
  | takeStream
  | deliver (count : ℕ)
  | receive
  | enqueue
  | confirm (broken : Option ℕ)
  | stop

def Channel.step (messages : MessageEncoding) (channel : Channel) : ChannelEvent → Option Channel
  | .call id message =>
    if (channel.calls id).isSome then none
    else some { channel with calls := Function.update channel.calls id (some { message }) }
  | .advance id => channel.advance messages id
  | .write id count => channel.write id count
  | .acknowledge id => channel.acknowledge messages id
  | .fail id => channel.fail id
  | .drop id => channel.drop id
  | .close => some { channel with closed := true, admissionsClosed := true }
  | .takeStream =>
    if channel.holder.isSome ∨ channel.closed = false then none
    else some { channel with stream := false }
  | .deliver count =>
    some { channel with
      outgoing := channel.outgoing.drop count
      receiver := { channel.receiver with
        buffer := channel.receiver.buffer ++ channel.outgoing.take count } }
  | .receive => channel.receive messages
  | .enqueue => channel.enqueue
  | .confirm broken => channel.confirm messages broken
  | .stop => some { channel with receiver := { channel.receiver with phase := .stopped } }

end AukiSdk.Protocols.MessageV1
