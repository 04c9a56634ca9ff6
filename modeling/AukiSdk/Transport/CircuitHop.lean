import AukiSdk.Foundation.FiniteMap
import AukiSdk.Foundation.Word
import AukiSdk.Relay.Provider

/-!
# Circuit hops

The table of live circuit connections and the circuit commands of the swarm loop.
-/

namespace AukiSdk.Transport

open AukiSdk.Foundation
open AukiSdk.Net
open AukiSdk.Relay
open Std (ExtTreeMap)

structure CircuitHopKey where
  targetPeerId : PeerId
  circuitAddress : Multiaddr
  deriving DecidableEq

abbrev CircuitHopOwner := ℕ

structure CircuitHopEntry where
  key : CircuitHopKey
  owners : Finset CircuitHopOwner
  deriving DecidableEq

inductive CircuitAcquire where
  | live (connectionId : ConnectionId) (owner : CircuitHopOwner)
  | pending
  | vacant
  deriving DecidableEq

structure CircuitHopTable where
  byKey : CircuitHopKey → Option ConnectionId
  byConnection : ExtTreeMap ConnectionId CircuitHopEntry
  pending : Finset CircuitHopKey
  lastOwner : ℕ

namespace CircuitHopTable

/-- `CircuitHopTable::default`. -/
def empty : CircuitHopTable := ⟨fun _ => none, ∅, ∅, 0⟩

variable (table : CircuitHopTable)

def nextOwner : CircuitHopOwner :=
  let owner := (table.lastOwner + 1) % 2 ^ 64
  if owner = 0 then 1 else owner

/-- `by_key.insert`. -/
def select (key : CircuitHopKey) (connectionId : ConnectionId) :
    CircuitHopTable :=
  { table with byKey := Function.update table.byKey key (some connectionId) }

/-- `by_key.remove`. -/
def deselect (key : CircuitHopKey) : CircuitHopTable :=
  { table with byKey := Function.update table.byKey key none }

def acquire (key : CircuitHopKey) :
    CircuitAcquire × CircuitHopTable :=
  let missing (table : CircuitHopTable) : CircuitAcquire × CircuitHopTable :=
    (if key ∈ table.pending then .pending else .vacant, table)
  match table.byKey key with
  | none => missing table
  | some connectionId =>
    match table.byConnection[connectionId]? with
    | none => missing (table.deselect key)
    | some entry =>
      let owner := table.nextOwner
      (.live connectionId owner,
        { table with
          lastOwner := owner
          byConnection := table.byConnection.insert connectionId
            { entry with owners := insert owner entry.owners } })

def markPending (key : CircuitHopKey) : CircuitHopTable :=
  { table with pending := insert key table.pending }

def restorePrevious (key : CircuitHopKey) : CircuitHopTable :=
  if table.byKey key = none ∧ key ∉ table.pending then
    match table.byConnection.toList.find? fun stored => stored.2.key = key with
    | none => table
    | some (connectionId, _) => table.select key connectionId
  else
    table

def established (key : CircuitHopKey) (connectionId : ConnectionId)
    (owners : List CircuitHopOwner) : CircuitHopTable :=
  let table := { table with pending := table.pending.erase key }
  if owners.toFinset = ∅ then
    table.restorePrevious key
  else
    { table.select key connectionId with
      byConnection := table.byConnection.insert connectionId ⟨key, owners.toFinset⟩ }

def failPending (key : CircuitHopKey) : CircuitHopTable :=
  { table with pending := table.pending.erase key }.restorePrevious key

/-- The removal of an entry that `release` and `invalidate` share. -/
def forget (connectionId : ConnectionId) (key : CircuitHopKey) :
    CircuitHopTable :=
  let table := if table.byKey key = some connectionId then table.deselect key else table
  { table with byConnection := table.byConnection.erase connectionId }.restorePrevious key

/-- `release`: whether the caller closes the connection. -/
def release (connectionId : ConnectionId) (owner : CircuitHopOwner) : Bool × CircuitHopTable :=
  match table.byConnection[connectionId]? with
  | none => (true, table)
  | some entry =>
    if owner ∉ entry.owners then
      (false, table)
    else
      let remaining := { entry with owners := entry.owners.erase owner }
      let table := { table with
        byConnection := table.byConnection.insert connectionId remaining }
      if remaining.owners ≠ ∅ then
        (false, table)
      else
        (true, table.forget connectionId entry.key)

def invalidate (connectionId : ConnectionId) : CircuitHopTable :=
  match table.byConnection[connectionId]? with
  | none => table
  | some entry => table.forget connectionId entry.key

def prepareReplacement (key : CircuitHopKey) (old : ConnectionId) :
    Except String CircuitHopTable :=
  if (table.byConnection[old]?).any fun entry => entry.key ≠ key then
    .error "replacement route does not match the old circuit"
  else if table.byKey key ≠ some old then
    .ok table
  else if FiniteMap.count (fun entry => decide (entry.key = key)) table.byConnection ≥ 2 then
    .error "close the previous circuit generation before replacing again"
  else
    .ok (table.deselect key)

end CircuitHopTable

/-- The sender of one reply. -/
abbrev ReplyId := ℕ

/-- `PendingDial`, with the fields its circuit handling reads. -/
structure PendingDial where
  peerId : PeerId
  responses : List ReplyId
  circuitKey : Option CircuitHopKey
  deriving DecidableEq

/-- The dials and circuit hops of `run_swarm`. -/
structure CircuitSwarm where
  pendingDials : ExtTreeMap ConnectionId PendingDial
  hops : CircuitHopTable

/-- `Command::Connect`. -/
structure ConnectCommand where
  peerId : PeerId
  addresses : List Multiaddr
  circuitRelayPeerId : Option PeerId
  replacementOf : Option ConnectionId
  response : ReplyId

/-- What `Command::Connect` finds, and the result of `swarm.dial`. -/
structure ConnectFindings where
  responseClosed : Bool
  cancellationBarrier : Bool
  sourceCircuitAllowed : Bool
  dispatchPending : Bool
  replyDelivered : Bool
  dial : Option ConnectionId

namespace CircuitSwarm

variable (swarm : CircuitSwarm)

/-- `swarm.dial` and its bookkeeping. -/
def dial (peerId : PeerId) (response : ReplyId) (circuitKey : Option CircuitHopKey)
    (connectionId : Option ConnectionId) : CircuitSwarm :=
  match connectionId with
  | some connectionId =>
    { pendingDials := swarm.pendingDials.insert connectionId
        ⟨peerId, [response], circuitKey⟩
      hops := circuitKey.elim swarm.hops swarm.hops.markPending }
  | none => { swarm with hops := circuitKey.elim swarm.hops swarm.hops.failPending }

/-- The circuit part of `Command::Connect`. -/
def connectCircuit (key : CircuitHopKey) (response : ReplyId) (findings : ConnectFindings) :
    CircuitSwarm :=
  match swarm.hops.acquire key with
  | (.live connectionId owner, hops) =>
    if findings.replyDelivered then { swarm with hops }
    else { swarm with hops := (hops.release connectionId owner).2 }
  | (.pending, hops) =>
    match swarm.pendingDials.toList.find? fun stored =>
        stored.2.circuitKey = some key with
    | some (connectionId, pending) =>
      { pendingDials := swarm.pendingDials.insert connectionId
          { pending with responses := pending.responses ++ [response] }
        hops }
    | none => { swarm with hops := hops.failPending key }
  | (.vacant, hops) =>
    { swarm with hops }.dial key.targetPeerId response (some key) findings.dial

def connect (command : ConnectCommand) (findings : ConnectFindings) :
    CircuitSwarm :=
  let direct := command.addresses.all fun address => !address.contains .p2pCircuit
  if findings.responseClosed then swarm
  else if direct ≠ command.circuitRelayPeerId.isNone then swarm
  else if direct ∧ findings.cancellationBarrier then swarm
  else if command.circuitRelayPeerId.isSome ∧ ¬findings.sourceCircuitAllowed then swarm
  else if command.circuitRelayPeerId.isSome ∧ findings.dispatchPending then swarm
  else
    match if direct then none else command.addresses.head? with
    | none => swarm.dial command.peerId command.response none findings.dial
    | some circuitAddress =>
      let key : CircuitHopKey := ⟨command.peerId, circuitAddress⟩
      match command.replacementOf with
      | none => swarm.connectCircuit key command.response findings
      | some old =>
        match swarm.hops.prepareReplacement key old with
        | .error _ => swarm
        | .ok hops => { swarm with hops }.connectCircuit key command.response findings

/-- Every reply takes an owner, and those delivered keep it. -/
def deliverOwners (delivered : ReplyId → Bool) :
    List ReplyId → CircuitHopTable → List CircuitHopOwner × CircuitHopTable
  | [], hops => ([], hops)
  | response :: rest, hops =>
    let owner := hops.nextOwner
    let (owners, hops) := deliverOwners delivered rest { hops with lastOwner := owner }
    (if delivered response then owner :: owners else owners, hops)

def connectionEstablished (peerId : PeerId) (connectionId : ConnectionId)
    (delivered : ReplyId → Bool) : CircuitSwarm :=
  match swarm.pendingDials[connectionId]? with
  | none => swarm
  | some pending =>
    { pendingDials := swarm.pendingDials.erase connectionId
      hops := match pending.circuitKey with
        | none => swarm.hops
        | some key =>
          if pending.peerId = peerId then
            let (owners, hops) := deliverOwners delivered pending.responses swarm.hops
            hops.established key connectionId owners
          else
            swarm.hops.failPending key }

def outgoingConnectionError (connectionId : ConnectionId) :
    CircuitSwarm :=
  match swarm.pendingDials[connectionId]? with
  | none => swarm
  | some pending =>
    { pendingDials := swarm.pendingDials.erase connectionId
      hops := pending.circuitKey.elim swarm.hops swarm.hops.failPending }

end CircuitSwarm

/-- The events and commands of `run_swarm` that touch dials or circuit hops. -/
inductive CircuitLabel where
  | connect (command : ConnectCommand) (findings : ConnectFindings)
  | selectRelayConnection (peerId : PeerId) (response : ReplyId) (dial : ConnectionId)
  | connectionEstablished (peerId : PeerId) (connectionId : ConnectionId)
      (delivered : ReplyId → Bool)
  | outgoingConnectionError (connectionId : ConnectionId)
  | connectionClosed (connectionId : ConnectionId) (relayed : Bool)
  | closeConnection (connectionId : ConnectionId) (owner : CircuitHopOwner)

/-- The connection id that a step's dial was given. -/
def CircuitLabel.dialed : CircuitLabel → Option ConnectionId
  | .connect _ findings => findings.dial
  | .selectRelayConnection _ _ dial => some dial
  | _ => none

/-- One iteration of `run_swarm`. -/
def CircuitSwarm.handle (swarm : CircuitSwarm) : CircuitLabel → CircuitSwarm
  | .connect command findings => swarm.connect command findings
  | .selectRelayConnection peerId response dial => swarm.dial peerId response none (some dial)
  | .connectionEstablished peerId connectionId delivered =>
    swarm.connectionEstablished peerId connectionId delivered
  | .outgoingConnectionError connectionId => swarm.outgoingConnectionError connectionId
  | .connectionClosed connectionId relayed =>
    if relayed then { swarm with hops := swarm.hops.invalidate connectionId } else swarm
  | .closeConnection connectionId owner =>
    { swarm with hops := (swarm.hops.release connectionId owner).2 }

end AukiSdk.Transport
