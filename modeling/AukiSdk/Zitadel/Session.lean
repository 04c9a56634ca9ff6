import AukiSdk.Foundation.Run
import AukiSdk.Zitadel.TokenClient

/-!
# The session-owned refresh slot

A `ready` call spawns at most one worker, which refreshes and saves under the lock.
-/

namespace AukiSdk.Zitadel

open AukiSdk.Net

def EXPIRY_MARGIN : Duration := Duration.fromSecs 30

def SESSION_OPERATION : String := "ZITADEL session operation"

inductive RefreshMode where
  | ifExpiring
  | force
deriving DecidableEq

inductive Terminal where
  | login
  | configuration
deriving DecidableEq

variable {Url : Type} [DecidableEq Url]

def checkOpen (closed : Bool) (terminal : Option Terminal) : Except Error Unit :=
  if closed then .error .sessionClosed
  else
    match terminal with
    | some .login => .error .authenticationRequired
    | some .configuration => .error (.invalidConfiguration
        "ZITADEL session configuration was rejected; import a corrected session")
    | none => .ok ()

theorem checkOpen_eq_ok {closed : Bool} {terminal : Option Terminal} :
    checkOpen closed terminal = .ok () ↔ closed = false ∧ terminal = none := by
  unfold checkOpen
  cases closed
  · rcases terminal with _ | _ | _ <;> simp
  · simp

/-- The terminal state after a failed refresh. -/
def terminalOf (error : Error) : Option Terminal :=
  match error.kind with
  | .authenticationRequired => some .login
  | .configuration => some .configuration
  | _ => none

/-- Whether a `ready` call wants a refresh. -/
def wantsRefresh (mode : RefreshMode) (credentials : Credentials Url) (now : DateTime) : Bool :=
  match mode with
  | .ifExpiring => credentials.accessTokenExpiresAt.any (· ≤ now + (EXPIRY_MARGIN : ℕ))
  | .force => true

/-- Where a `ready` call is. -/
inductive ReadyPhase (Url : Type) where
  /-- Before the task lock. -/
  | queueing (mode : RefreshMode)
  /-- At the top of the loop, with the task lock. -/
  | looping (mode : RefreshMode) (refreshed : Bool)
  | joining (mode : RefreshMode) (refreshed : Bool)
  /-- The worker is dead and the slot empty; before `require_login`. -/
  | failing
  | inspecting (mode : RefreshMode) (refreshed : Bool)
  | returned (result : Except Error (Credentials Url × Bool))
  | dropped
deriving DecidableEq

inductive WorkerPhase (Url : Type) where
  | queued (refresh : Bool)
  /-- The discovery request is out. -/
  | discovering (credentials : Credentials Url)
  /-- The refresh token is out. -/
  | submitted (credentials : Credentials Url)
  | saving (refresh : Bool) (credentials : Credentials Url)
  | finished (result : Except Error Bool)
  | died
deriving DecidableEq

inductive ClosePhase where
  | queueing
  | joining
  | finishing
  | returned
deriving DecidableEq

/-- Who holds the task lock. -/
inductive Holder where
  | ready (call : ℕ)
  | close (call : ℕ)
deriving DecidableEq

/-- What happened, for statements about runs. -/
inductive Event (Url : Type) where
  | submitted (token : String)
  /-- The token was accepted and `replacement` is the rotated session. -/
  | rotated (token : String) (replacement : Credentials Url)
  | outcomeUnknown (token : String)
  | saveStarted (credentials : Credentials Url)
  | saved (credentials : Credentials Url)
  | died (worker : ℕ)
  | terminal (reason : Terminal)
  | readyOk (call : ℕ) (credentials : Credentials Url)
  | closeReturned
deriving DecidableEq

structure Session (Url : Type) where
  credentials : Option (Credentials Url)
  pendingSave : Bool
  terminal : Option Terminal
  /-- The worker whose receiver is in the task slot. -/
  slot : Option ℕ
  closed : Bool
  taskLock : Option Holder
  /-- The worker that holds the state lock. -/
  stateLock : Option ℕ
  readies : ℕ → Option (ReadyPhase Url)
  workers : ℕ → Option (WorkerPhase Url)
  closes : ℕ → Option ClosePhase
  trace : List (Event Url)

/-- What ends a wait of a `ready` call early. -/
inductive Interruption where
  | closed
  | cancelled
  | timedOut

def Interruption.error : Interruption → Error
  | .closed => .sessionClosed
  | .cancelled => .cancelled SESSION_OPERATION
  | .timedOut => .sessionOperationPending

inductive Label where
  | ready (call : ℕ) (mode : RefreshMode)
  | lockTask (call : ℕ)
  | interrupt (call : ℕ) (interruption : Interruption)
  | loop (call : ℕ)
  | receive (call : ℕ)
  | recordDeath (call : ℕ)
  /-- The critical section of `ready`; a refresh or save goes to the new worker. -/
  | inspect (call : ℕ) (now : DateTime) (worker : ℕ) (runtime : Bool)
  | drop (call : ℕ)
  | begin (worker : ℕ)
  | discovered (worker : ℕ) (answer : DiscoveryAnswer)
  | answered (worker : ℕ) (issuedAt : DateTime) (answer : TokenAnswer)
  | saveReturned (worker : ℕ) (acknowledged : Bool)
  | die (worker : ℕ)
  | requireLogin
  | close (call : ℕ)
  | closeLock (call : ℕ)
  | closeReceive (call : ℕ)
  | closeFinish (call : ℕ)

namespace Session

variable (session : Session Url)

def setReady (call : ℕ) (phase : ReadyPhase Url) : Session Url :=
  { session with readies := Function.update session.readies call (some phase) }

def setWorker (worker : ℕ) (phase : WorkerPhase Url) : Session Url :=
  { session with workers := Function.update session.workers worker (some phase) }

def setClose (call : ℕ) (phase : ClosePhase) : Session Url :=
  { session with closes := Function.update session.closes call (some phase) }

def record (events : List (Event Url)) : Session Url :=
  { session with trace := session.trace ++ events }

/-- A `ready` call returns an error and releases the task lock. -/
def refuse (call : ℕ) (error : Error) : Session Url :=
  { session with taskLock := none }.setReady call (.returned (.error error))

/-- A worker ends and releases the state lock. -/
def finish (worker : ℕ) (result : Except Error Bool) : Session Url :=
  { session with stateLock := none }.setWorker worker (.finished result)

/-- A refresh fails for `error`. -/
def failRefresh (worker : ℕ) (error : Error) : Session Url :=
  (({ session with terminal := terminalOf error }.finish worker (.error error)).record
    ((terminalOf error).toList.map .terminal))

/-- The check before a save, and the save of what is pending. -/
def beginSave (worker : ℕ) (refresh : Bool) : Session Url :=
  match checkOpen session.closed session.terminal with
  | .error error => session.finish worker (.error error)
  | .ok () =>
    if session.pendingSave then
      match session.credentials with
      | none => session.finish worker (.error .sessionClosed)
      | some credentials =>
        (session.setWorker worker (.saving refresh credentials)).record
          [.saveStarted credentials]
    else session.finish worker (.ok refresh)

variable (client : TokenClient Url)

/-- A worker takes the state lock. -/
def beginWorker (session : Session Url) (worker : ℕ) (refresh : Bool) : Session Url :=
  let session := { session with stateLock := some worker }
  match checkOpen session.closed session.terminal with
  | .error error => session.finish worker (.error error)
  | .ok () =>
    if refresh then
      match session.credentials with
      | none => session.finish worker (.error .sessionClosed)
      | some credentials =>
        match client.accepts credentials with
        | .error error => session.failRefresh worker error
        | .ok () => session.setWorker worker (.discovering credentials)
    else session.beginSave worker refresh

/-- The outcome of the token request. -/
def settle (library : Library Url) (session : Session Url) (worker : ℕ)
    (credentials : Credentials Url) (issuedAt : DateTime) (answer : TokenAnswer) :
    Session Url :=
  match client.receive library credentials issuedAt answer with
  | .error .refreshOutcomeUnknown =>
    (session.record [.outcomeUnknown credentials.refreshToken]).failRefresh worker
      .refreshOutcomeUnknown
  | .error error => session.failRefresh worker error
  | .ok replacement =>
    ({ session with credentials := some replacement, pendingSave := true }.record
      [.rotated credentials.refreshToken replacement]).beginSave worker true

/-- The critical section of `ready`. -/
def inspect (call : ℕ) (mode : RefreshMode) (refreshed : Bool) (now : DateTime) (worker : ℕ)
    (runtime : Bool) : Option (Session Url) :=
  match checkOpen session.closed session.terminal with
  | .error error => some (session.refuse call error)
  | .ok () =>
    match session.credentials with
    | none => some (session.refuse call .sessionClosed)
    | some credentials =>
      let refresh := !refreshed && wantsRefresh mode credentials now
      if !session.pendingSave && !refresh then
        some (({ session with taskLock := none }.setReady call
          (.returned (.ok (credentials, refreshed)))).record [.readyOk call credentials])
      else if !runtime then
        some (session.refuse call (.invalidConfiguration
          "ZITADEL sessions require an active Tokio runtime"))
      else if (session.workers worker).isSome then none
      else
        some (({ session with slot := some worker }.setWorker worker
          (.queued (refresh && !session.pendingSave))).setReady call
            (.looping mode refreshed))

def step (library : Library Url) (session : Session Url) :
    Label → Option (Session Url)
  | .ready call mode =>
    match session.readies call with
    | none => some (session.setReady call (.queueing mode))
    | some _ => none
  | .lockTask call =>
    match session.readies call, session.taskLock with
    | some (.queueing mode), none =>
      some ({ session with taskLock := some (.ready call) }.setReady call
        (.looping mode false))
    | _, _ => none
  | .interrupt call interruption =>
    match session.readies call, interruption with
    | some (.queueing _), .timedOut => none
    | some (.queueing _), interruption =>
      some (session.setReady call (.returned (.error interruption.error)))
    | some (.joining _ _), interruption => some (session.refuse call interruption.error)
    | _, _ => none
  | .loop call =>
    match session.readies call with
    | some (.looping mode refreshed) =>
      some (session.setReady call
        (if session.slot.isSome then .joining mode refreshed else .inspecting mode refreshed))
    | _ => none
  | .receive call =>
    match session.readies call, session.slot.bind session.workers with
    | some (.joining mode refreshed), some (.finished (.ok joined)) =>
      some ({ session with slot := none }.setReady call
        (.inspecting mode (refreshed || joined)))
    | some (.joining _ _), some (.finished (.error error)) =>
      some ({ session with slot := none }.refuse call error)
    | some (.joining _ _), some .died =>
      some ({ session with slot := none }.setReady call .failing)
    | _, _ => none
  | .recordDeath call =>
    match session.readies call, session.stateLock with
    | some .failing, none =>
      some (({ session with terminal := some .login }.refuse call
        .authenticationRequired).record [.terminal .login])
    | _, _ => none
  | .inspect call now worker runtime =>
    match session.readies call, session.stateLock with
    | some (.inspecting mode refreshed), none =>
      session.inspect call mode refreshed now worker runtime
    | _, _ => none
  | .drop call =>
    match session.readies call with
    | some (.queueing _) => some (session.setReady call .dropped)
    | some (.joining _ _) => some ({ session with taskLock := none }.setReady call .dropped)
    | some .failing => some ({ session with taskLock := none }.setReady call .dropped)
    | some (.inspecting _ _) => some ({ session with taskLock := none }.setReady call .dropped)
    | _ => none
  | .begin worker =>
    match session.workers worker, session.stateLock with
    | some (.queued refresh), none => some (session.beginWorker client worker refresh)
    | _, _ => none
  | .discovered worker answer =>
    match session.workers worker with
    | some (.discovering credentials) =>
      match client.discover library answer with
      | .error error => some (session.failRefresh worker error)
      | .ok _ =>
        some ((session.setWorker worker (.submitted credentials)).record
          [.submitted credentials.refreshToken])
    | _ => none
  | .answered worker issuedAt answer =>
    match session.workers worker with
    | some (.submitted credentials) =>
      some (session.settle client library worker credentials issuedAt answer)
    | _ => none
  | .saveReturned worker acknowledged =>
    match session.workers worker with
    | some (.saving refresh credentials) =>
      if acknowledged then
        some (({ session with pendingSave := false }.finish worker
          ((checkOpen session.closed session.terminal).map fun _ => refresh)).record
            [.saved credentials])
      else some (session.finish worker (.error .persistence))
    | _ => none
  | .die worker =>
    match session.workers worker with
    | some (.queued _) => some ((session.setWorker worker .died).record [.died worker])
    | some (.discovering _) | some (.submitted _) | some (.saving _ _) =>
      some (({ session with stateLock := none }.setWorker worker .died).record [.died worker])
    | _ => none
  | .requireLogin =>
    match session.stateLock with
    | none => some ({ session with terminal := some .login }.record [.terminal .login])
    | some _ => none
  | .close call =>
    match session.closes call with
    | none => some ({ session with closed := true }.setClose call .queueing)
    | some _ => none
  | .closeLock call =>
    match session.closes call, session.taskLock with
    | some .queueing, none =>
      some ({ session with taskLock := some (.close call) }.setClose call
        (if session.slot.isSome then .joining else .finishing))
    | _, _ => none
  | .closeReceive call =>
    match session.closes call, session.slot.bind session.workers with
    | some .joining, some (.finished _) | some .joining, some .died =>
      some ({ session with slot := none }.setClose call .finishing)
    | _, _ => none
  | .closeFinish call =>
    match session.closes call, session.stateLock with
    | some .finishing, none =>
      some (({ session with credentials := none, taskLock := none }.setClose call
        .returned).record [.closeReturned])
    | _, _ => none

/-- `ZitadelSession::new`, over the imported credentials. -/
def new (imported : Credentials Url) : Session Url where
  credentials := some imported
  pendingSave := false
  terminal := none
  slot := none
  closed := false
  taskLock := none
  stateLock := none
  readies := fun _ => none
  workers := fun _ => none
  closes := fun _ => none
  trace := []

end Session

end AukiSdk.Zitadel
