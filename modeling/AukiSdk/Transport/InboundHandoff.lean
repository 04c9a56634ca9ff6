import AukiSdk.Foundation.Run
import AukiSdk.Net.Identifiers

/-!
# The hand-off of inbound streams

Registrations, negotiated streams and the server loops, interleaved.
-/

namespace AukiSdk.Transport

open AukiSdk.Foundation
open AukiSdk.Net

def inboundQueueCapacity : ℕ := 64

/-- A negotiated stream with its peer; streams are numbered as they are negotiated. -/
structure InboundStream where
  peer : PeerId
  index : ℕ
  deriving DecidableEq

/-- A task of the join set. -/
inductive HandlerPhase where
  | authenticating
  | handling
  | finished
  deriving DecidableEq

structure HandlerTask where
  stream : InboundStream
  phase : HandlerPhase
  deriving DecidableEq

/-- Where the supervised task of a server is. -/
inductive ServePhase where
  | serving
  /-- `abort_all`, and joining the tasks. -/
  | stopping
  /-- The loop is over, and its locals are dropped. -/
  | dropping
  /-- The receiver is closed, and its queue is drained. -/
  | draining
  | finished
  deriving DecidableEq

/-- What became of an `ApplicationProtocolServer`. -/
inductive ServerPhase where
  | held
  /-- `shutdown` awaits the task. -/
  | stopping
  | returned
  | dropped
  deriving DecidableEq

/-- A registration with its server, and the streams on their way to the handler. -/
structure Registration (Protocol : Type) where
  protocol : Protocol
  maxConcurrency : ℕ
  queue : List InboundStream
  closed : Bool
  stock : Bool
  tasks : List HandlerTask
  phase : ServePhase
  stop : Bool
  server : ServerPhase
  received : List InboundStream
  taken : List InboundStream
  discarded : List InboundStream
  authenticated : List InboundStream
  called : List InboundStream

/-- The queues behind their lock and the registrations by number. -/
structure Handoff (Protocol : Type) where
  queues : Protocol → Option ℕ
  registrations : ℕ → Option (Registration Protocol)
  count : ℕ
  negotiated : ℕ

section Model

variable {Protocol : Type} [DecidableEq Protocol]

/-- A registration that was just made. -/
def Registration.new (protocol : Protocol) (maxConcurrency : ℕ) : Registration Protocol :=
  ⟨protocol, maxConcurrency, [], false, true, [], .serving, false, .held, [], [], [], [], []⟩

def Handoff.new : Handoff Protocol :=
  ⟨fun _ => none, fun _ => none, 0, 0⟩

variable (state : Handoff Protocol)

def Handoff.put (number : ℕ) (registration : Registration Protocol) :
    Handoff Protocol :=
  { state with registrations := Function.update state.registrations number (some registration) }

/-- The receiver behind a sender is closed. -/
def Handoff.isClosed (number : ℕ) : Bool :=
  match state.registrations number with
  | some registration => registration.closed
  | none => true

/-- The stock behaviour has a live registration of the protocol. -/
def Handoff.stockLive (protocol : Protocol) : Bool :=
  (List.range state.count).any fun number =>
    match state.registrations number with
    | some registration => registration.stock && registration.protocol = protocol
    | none => false

/-- `Control::accept`; it may also refuse a protocol without a registration. -/
def Handoff.serve (protocol : Protocol) (maxConcurrency : ℕ) (refused : Bool) : Handoff Protocol :=
  let retained : Protocol → Option ℕ := fun found =>
    (state.queues found).filter fun number => !state.isClosed number
  if refused || state.stockLive protocol then
    { state with queues := retained }
  else
    { state with
      queues := Function.update retained protocol (some state.count)
      registrations := Function.update state.registrations state.count
        (some (.new protocol maxConcurrency))
      count := state.count + 1 }

/-- `Handler::on_connection_event` for a negotiated inbound stream. -/
def Handoff.negotiate (protocol : Protocol) (peer : PeerId) :
    Handoff Protocol :=
  let stream : InboundStream := ⟨peer, state.negotiated⟩
  let state := { state with negotiated := state.negotiated + 1 }
  match state.queues protocol with
  | none => state
  | some number =>
    match state.registrations number with
    | none => state
    | some registration =>
      if registration.closed then
        { state with queues := Function.update state.queues protocol none }
      else if inboundQueueCapacity ≤ registration.queue.length then
        state
      else
        state.put number { registration with
          queue := registration.queue ++ [stream]
          received := registration.received ++ [stream] }

/-- A step of the supervised task. -/
inductive ServeStep where
  /-- `stop` is cancelled. -/
  | stop
  /-- `join_next` returns a task. -/
  | join (index : ℕ)
  /-- A stream is dequeued, and its handshake spawned. -/
  | take
  /-- The queue has ended with the behaviour. -/
  | ended
  /-- The last task was joined. -/
  | leave
  /-- The task was aborted by the drop of its server. -/
  | abort
  | close
  | drain
  /-- The stock registration is dropped. -/
  | release
  deriving DecidableEq

variable (registration : Registration Protocol)

/-- One step of the supervised task of a registration. -/
def Registration.serveStep :
    ServeStep → Option (Registration Protocol)
  | .stop =>
    if registration.phase = .serving ∧ registration.stop = true then
      some { registration with phase := .stopping }
    else
      none
  | .join index =>
    match registration.tasks[index]? with
    | some task =>
      if (registration.phase = .serving ∨ registration.phase = .stopping) ∧
          task.phase = .finished then
        some { registration with tasks := registration.tasks.eraseIdx index }
      else
        none
    | none => none
  | .take =>
    match registration.queue with
    | stream :: rest =>
      if registration.phase = .serving ∧
          registration.tasks.length < registration.maxConcurrency then
        some { registration with
          queue := rest
          tasks := registration.tasks ++ [⟨stream, .authenticating⟩]
          taken := registration.taken ++ [stream] }
      else
        none
    | [] => none
  | .ended =>
    if registration.phase = .serving ∧ registration.queue = [] then
      some { registration with phase := .stopping }
    else
      none
  | .leave =>
    if registration.phase = .stopping ∧ registration.tasks = [] then
      some { registration with phase := .dropping }
    else
      none
  | .abort =>
    if (registration.phase = .serving ∨ registration.phase = .stopping) ∧
        registration.server = .dropped then
      some { registration with phase := .dropping }
    else
      none
  | .close =>
    if registration.phase = .dropping then
      some { registration with closed := true, phase := .draining }
    else
      none
  | .drain =>
    match registration.queue with
    | stream :: rest =>
      if registration.phase = .draining then
        some { registration with
          queue := rest
          discarded := registration.discarded ++ [stream] }
      else
        none
    | [] => none
  | .release =>
    if registration.phase = .draining ∧ registration.queue = [] then
      some { registration with stock := false, phase := .finished }
    else
      none

/-- A step of a handler task. -/
inductive TaskStep where
  /-- The handshake ends; when it succeeds, the handler is called at once. -/
  | authenticated (ok : Bool)
  | returned
  /-- The task panics or is aborted. -/
  | ended
  deriving DecidableEq

/-- One step of a task of a registration. -/
def Registration.taskStep (index : ℕ) :
    TaskStep → Option (Registration Protocol)
  | .authenticated ok =>
    match registration.tasks[index]? with
    | some ⟨stream, .authenticating⟩ =>
      if ok then
        some { registration with
          tasks := registration.tasks.set index ⟨stream, .handling⟩
          authenticated := registration.authenticated ++ [stream]
          called := registration.called ++ [stream] }
      else
        some { registration with
          tasks := registration.tasks.set index ⟨stream, .finished⟩ }
    | _ => none
  | .returned =>
    match registration.tasks[index]? with
    | some ⟨stream, .handling⟩ =>
      some { registration with tasks := registration.tasks.set index ⟨stream, .finished⟩ }
    | _ => none
  | .ended =>
    match registration.tasks[index]? with
    | some task =>
      some { registration with tasks := registration.tasks.set index ⟨task.stream, .finished⟩ }
    | none => none

/-- A call on a server, or the cancellation of the token it was given. -/
inductive ServerStep where
  | cancel
  /-- `ApplicationProtocolServer::shutdown`. -/
  | shutdown
  | shutdownReturn
  | drop
  deriving DecidableEq

def Registration.serverStep :
    ServerStep → Option (Registration Protocol)
  | .cancel => some { registration with stop := true }
  | .shutdown =>
    if registration.server = .held then
      some { registration with stop := true, server := .stopping }
    else
      none
  | .shutdownReturn =>
    if registration.server = .stopping ∧ registration.phase = .finished then
      some { registration with server := .returned }
    else
      none
  | .drop =>
    if registration.server = .held then
      some { registration with stop := true, server := .dropped }
    else
      none

/-- What happens to one registration. -/
inductive RegistrationStep where
  | serve (step : ServeStep)
  | task (index : ℕ) (step : TaskStep)
  | server (step : ServerStep)
  deriving DecidableEq

def Registration.step (registration : Registration Protocol) :
    RegistrationStep → Option (Registration Protocol)
  | .serve step => registration.serveStep step
  | .task index step => registration.taskStep index step
  | .server step => registration.serverStep step

inductive HandoffInput (Protocol : Type) where
  | serve (protocol : Protocol) (maxConcurrency : ℕ) (refused : Bool)
  | negotiate (protocol : Protocol) (peer : PeerId)
  | step (number : ℕ) (step : RegistrationStep)

/-- One step. -/
def Handoff.step (state : Handoff Protocol) : HandoffInput Protocol → Option (Handoff Protocol)
  | .serve protocol maxConcurrency refused => some (state.serve protocol maxConcurrency refused)
  | .negotiate protocol peer => some (state.negotiate protocol peer)
  | .step number step =>
    match state.registrations number with
    | none => none
    | some registration => (registration.step step).map fun next => state.put number next

/-- The registration of a protocol that is open. -/
def Handoff.Live (protocol : Protocol) (number : ℕ) (registration : Registration Protocol) : Prop :=
  state.registrations number = some registration ∧ registration.protocol = protocol ∧
    registration.closed = false

/-- What is promised of one registration. -/
structure Registration.Fenced (registration : Registration Protocol) : Prop where
  /-- Streams leave the queue in order. -/
  ordered : registration.received =
    registration.taken ++ registration.discarded ++ registration.queue
  discards : registration.discarded ≠ [] → registration.closed = true
  once : registration.received.Nodup
  bounded : registration.queue.length ≤ inboundQueueCapacity
  /-- One task for each stream that was taken and is not done. -/
  tasks : (registration.tasks.map HandlerTask.stream).Nodup ∧
    ∀ task ∈ registration.tasks, task.stream ∈ registration.taken
  /-- The handler is called once, after the authentication of a stream that was taken. -/
  called : registration.called.Nodup ∧ ∀ stream ∈ registration.called,
    stream ∈ registration.authenticated ∧ stream ∈ registration.taken
  limited : (registration.tasks.filter (·.phase ≠ .finished)).length ≤
    registration.maxConcurrency
  /-- Nothing is left after a shutdown. -/
  returned : registration.server = .returned →
    registration.tasks = [] ∧ registration.queue = [] ∧ registration.closed = true

/-- What is promised of a reachable state. -/
structure Handoff.Fenced (state : Handoff Protocol) : Prop where
  each : ∀ number registration, state.registrations number = some registration →
    registration.Fenced
  /-- No stream is queued for two registrations. -/
  apart : ∀ number number' registration registration' stream,
    state.registrations number = some registration →
    state.registrations number' = some registration' →
    stream ∈ registration.received → stream ∈ registration'.received → number = number'
  /-- The queue of a live registration is the one of its protocol. -/
  routed : ∀ protocol number registration, state.Live protocol number registration →
    state.queues protocol = some number
  /-- A negotiated stream is queued for the live registration, if it has room. -/
  negotiated : ∀ protocol peer,
    (∃ number registration, state.Live protocol number registration ∧
      registration.queue.length < inboundQueueCapacity ∧
      (state.negotiate protocol peer).registrations =
        Function.update state.registrations number (some { registration with
          queue := registration.queue ++ [⟨peer, state.negotiated⟩]
          received := registration.received ++ [⟨peer, state.negotiated⟩] })) ∨
    (∀ number registration, state.Live protocol number registration →
      inboundQueueCapacity ≤ registration.queue.length) ∧
      (state.negotiate protocol peer).registrations = state.registrations

end Model

end AukiSdk.Transport
