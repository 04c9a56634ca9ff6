import AukiSdk.Transport.TargetedStream

/-!
# Correlation of targeted streams

Along every run a request holds one ticket.
-/

namespace AukiSdk.Transport

open AukiSdk.Foundation List Function Option
open AukiSdk.Net
open AukiSdk.Relay
open Std (ExtTreeMap)

variable {Stream : Type}

/-- One input with its effects. -/
structure StreamLabel (Stream : Type) where
  event : StreamEvent Stream
  effects : StreamEffects Stream

/-- The requests, the connections, the replies, and the closes asked for. -/
structure StreamLog (Stream : Type) where
  opened : List OpenCommand
  established : List ConnectionId
  replies : List (StreamReply Stream)
  closes : List ConnectionId

/-- The connections that an action closes. -/
def SwarmAction.closed : SwarmAction → List ConnectionId
  | .closeConnection _ connectionId => [connectionId]
  | .notifyHandler _ _ _ _ => []

/-- The request that a label opened. -/
def StreamLabel.opened (label : StreamLabel Stream) : List OpenCommand :=
  match label.event, label.effects.taken with
  | .openStream peerId connectionId protocol, some requestId =>
    [⟨requestId, peerId, connectionId, protocol⟩]
  | _, _ => []

/-- The connection that a label established. -/
def StreamLabel.established (label : StreamLabel Stream) : List ConnectionId :=
  match label.event with
  | .connectionEstablished _ connectionId => [connectionId]
  | _ => []

namespace StreamLog

/-- The log after further replies and actions. -/
def add (log : StreamLog Stream) (effects : StreamEffects Stream) : StreamLog Stream :=
  { log with
    replies := log.replies ++ effects.replies
    closes := log.closes ++ effects.action.elim [] SwarmAction.closed }

/-- The log after a further label. -/
def note (log : StreamLog Stream) (label : StreamLabel Stream) : StreamLog Stream :=
  { log.add label.effects with
    opened := log.opened ++ label.opened
    established := log.established ++ label.established }

/-- The log of a run. -/
def ofHistory (history : List (StreamLabel Stream)) : StreamLog Stream :=
  history.foldl note ⟨[], [], [], []⟩

/-- The number of replies to a request. -/
def answered (log : StreamLog Stream) (requestId : RequestId) : ℕ :=
  log.replies.countP fun reply => decide (reply.1 = requestId)

theorem ofHistory_append (history : List (StreamLabel Stream)) (label : StreamLabel Stream) :
    ofHistory (history ++ [label]) = (ofHistory history).note label := by
  simp [ofHistory]

theorem add_none (log : StreamLog Stream) : log.add .none = log := by
  simp [add, StreamEffects.none]

theorem answered_add (log : StreamLog Stream) (effects : StreamEffects Stream)
    (requestId : RequestId) :
    (log.add effects).answered requestId = log.answered requestId +
      effects.replies.countP fun reply => decide (reply.1 = requestId) := by
  simp [answered, add]

end StreamLog

namespace TargetedStreamBehaviour

/-- The tickets of a request that has not been answered. -/
def tickets (behaviour : TargetedStreamBehaviour) (requestId : RequestId) : ℕ :=
  (behaviour.waiting ++ behaviour.commands).countP
      (fun command => decide (command.requestId = requestId)) +
    (behaviour.pending[requestId]?).toList.length

/-- Every request has at most one ticket or answer, under an id that was taken
for it. -/
structure Ticketed (log : StreamLog Stream) (behaviour : TargetedStreamBehaviour) :
    Prop where
  ticket_le : ∀ requestId, behaviour.tickets requestId + log.answered requestId ≤ 1
  unborn : ∀ requestId, behaviour.nextRequestId ≤ requestId →
    behaviour.tickets requestId + log.answered requestId = 0
  queued : ∀ command ∈ behaviour.waiting ++ behaviour.commands, command ∈ log.opened
  recorded : ∀ (requestId : RequestId) (pending : PendingOpen),
    behaviour.pending[requestId]? = some pending →
    ⟨requestId, pending.peerId, pending.connectionId, pending.protocol⟩ ∈ log.opened
  opened_lt : ∀ command ∈ log.opened, command.requestId < behaviour.nextRequestId
  opened_unique : ∀ first ∈ log.opened, ∀ second ∈ log.opened,
    first.requestId = second.requestId → first = second

variable {behaviour next : TargetedStreamBehaviour} {log : StreamLog Stream}

theorem Ticketed.carry {log' : StreamLog Stream} (htick : Ticketed log behaviour)
    (hopn : log'.opened = log.opened) (hn : next.nextRequestId = behaviour.nextRequestId)
    (htic : ∀ requestId, next.tickets requestId + log'.answered requestId ≤
      behaviour.tickets requestId + log.answered requestId)
    (hqd : ∀ command ∈ next.waiting ++ next.commands,
      command ∈ behaviour.waiting ++ behaviour.commands)
    (hrec : ∀ (requestId : RequestId) (pending : PendingOpen),
      next.pending[requestId]? = some pending →
      ⟨requestId, pending.peerId, pending.connectionId, pending.protocol⟩ ∈ log.opened) :
    Ticketed log' next := by
  constructor
  · intro requestId
    exact (htic requestId).trans (htick.ticket_le requestId)
  · intro requestId hunb
    rw [hn] at hunb
    have hzero := htick.unborn requestId hunb
    have hle := htic requestId
    omega
  · intro command hcmd
    rw [hopn]
    exact htick.queued command (hqd command hcmd)
  · rw [hopn]
    exact hrec
  · rw [hopn, hn]
    exact htick.opened_lt
  · rw [hopn]
    exact htick.opened_unique

variable {peerId : PeerId} {effects : StreamEffects Stream} {connectionId : ConnectionId}

theorem Ticketed.openStream (htick : Ticketed log behaviour) {protocol : String}
    (hs : behaviour.openStream peerId connectionId protocol = (effects, next)) :
    Ticketed (log.note ⟨.openStream peerId connectionId protocol, effects⟩) next := by
  simp only [TargetedStreamBehaviour.openStream] at hs
  cases hn : Word.checkedAdd behaviour.nextRequestId 1 with
  | none =>
    rw [hn] at hs
    cases hs
    have hnote : log.note ⟨.openStream peerId connectionId protocol, .none⟩ = log := by
      simp [StreamLog.note, StreamLog.add, StreamLabel.opened, StreamLabel.established,
        StreamEffects.none]
    rw [hnote]
    exact htick
  | some last =>
    rw [hn] at hs
    cases hs
    have hsucc : last = behaviour.nextRequestId + 1 := Word.checkedAdd_eq_some hn
    have hans : ∀ requestId, (log.note ⟨.openStream peerId connectionId protocol,
        ⟨some behaviour.nextRequestId, [], none⟩⟩).answered requestId = log.answered requestId := by
      intro requestId
      simp [StreamLog.note, StreamLog.answered, StreamLog.add]
    have hopn : (log.note ⟨.openStream peerId connectionId protocol,
        ⟨some behaviour.nextRequestId, [], none⟩⟩).opened = log.opened ++
          [⟨behaviour.nextRequestId, peerId, connectionId, protocol⟩] := by
      simp [StreamLog.note, StreamLabel.opened]
    have htic : ∀ requestId, tickets { behaviour with
        nextRequestId := last
        waiting := behaviour.waiting ++
          [⟨behaviour.nextRequestId, peerId, connectionId, protocol⟩] } requestId =
        behaviour.tickets requestId +
          if behaviour.nextRequestId = requestId then 1 else 0 := by
      intro requestId
      simp only [tickets, countP_append, countP_singleton, decide_eq_true_eq]
      omega
    constructor
    · intro requestId
      rw [htic, hans]
      have hle := htick.ticket_le requestId
      split
      · rename_i heq
        have hzero := htick.unborn requestId heq.le
        omega
      · omega
    · intro requestId hunb
      rw [htic, hans]
      have hlt : behaviour.nextRequestId < requestId := by
        have hle : last ≤ requestId := hunb
        omega
      rw [if_neg hlt.ne]
      exact htick.unborn requestId hlt.le
    · intro command hcmd
      rw [hopn, mem_append]
      simp only [mem_append, mem_singleton] at hcmd ⊢
      rcases hcmd with (hwait | hnew) | hqd
      · exact .inl (htick.queued command (mem_append_left _ hwait))
      · exact .inr hnew
      · exact .inl (htick.queued command (mem_append_right _ hqd))
    · intro requestId pending hpend
      rw [hopn]
      exact mem_append_left _ (htick.recorded requestId pending hpend)
    · intro command hcmd
      rw [hopn, mem_append, mem_singleton] at hcmd
      rw [hsucc]
      rcases hcmd with hold | rfl
      · exact Nat.lt_succ_of_lt (htick.opened_lt command hold)
      · exact Nat.lt_succ_self _
    · intro first hfst second hsnd hsm
      rw [hopn, mem_append, mem_singleton] at hfst hsnd
      rcases hfst with hfst | rfl <;> rcases hsnd with hsnd | rfl
      · exact htick.opened_unique first hfst second hsnd hsm
      · exact absurd hsm (htick.opened_lt first hfst).ne
      · exact absurd hsm.symm (htick.opened_lt second hsnd).ne
      · rfl

theorem Ticketed.send (htick : Ticketed log behaviour) (requestId : RequestId) :
    Ticketed log (behaviour.send requestId) := by
  simp only [TargetedStreamBehaviour.send]
  split
  · have hperm : (behaviour.waiting.filter (fun command => command.requestId ≠ requestId) ++
        (behaviour.commands ++
          behaviour.waiting.filter fun command => command.requestId = requestId)).Perm
        (behaviour.waiting ++ behaviour.commands) := by
      have hsp := filter_append_perm
        (fun command : OpenCommand => decide (command.requestId = requestId))
        behaviour.waiting
      simp only [← decide_not] at hsp
      apply List.Perm.trans _ (hsp.append_right behaviour.commands)
      rw [← append_assoc]
      apply perm_append_comm.trans
      rw [append_assoc]
    refine htick.carry rfl rfl ?_ ?_ ?_
    · intro other
      simp only [tickets]
      rw [hperm.countP_eq]
    · intro command hcmd
      exact hperm.mem_iff.mp hcmd
    · exact htick.recorded
  · exact htick

theorem Ticketed.abandon (htick : Ticketed log behaviour) (requestId : RequestId) :
    Ticketed log (behaviour.abandon requestId) := by
  have hsub : (behaviour.waiting.filter
      (fun command => command.requestId ≠ requestId) ++ behaviour.commands).Sublist
        (behaviour.waiting ++ behaviour.commands) :=
    filter_sublist.append_right _
  refine htick.carry rfl rfl ?_ ?_ ?_
  · intro other
    simp only [tickets, TargetedStreamBehaviour.abandon]
    exact Nat.add_le_add_right (Nat.add_le_add_right (hsub.countP_le) _) _
  · intro command hcmd
    exact hsub.subset hcmd
  · exact htick.recorded

variable {now : Instant}

theorem Ticketed.handleOpen (htick : Ticketed log behaviour) {command : OpenCommand}
    {rest : List OpenCommand} (hcom : behaviour.commands = command :: rest) {canceled : Bool}
    (hs : { behaviour with commands := rest }.handleOpen command canceled now =
      (effects, next)) :
    Ticketed (log.add effects) next ∧ next.commands = rest ∧ effects.taken = none ∧
      ∀ reply ∈ effects.replies, ∃ error, reply.2 = .error error := by
  have hpre : ∀ requestId, behaviour.tickets requestId =
      tickets { behaviour with commands := rest } requestId +
        if command.requestId = requestId then 1 else 0 := by
    intro requestId
    simp only [tickets, hcom, countP_append, countP_cons, decide_eq_true_eq]
    omega
  have hqd : ∀ other ∈ behaviour.waiting ++ rest,
      other ∈ behaviour.waiting ++ behaviour.commands := by
    intro other ho
    rw [hcom]
    simp only [mem_append, mem_cons] at ho ⊢
    rcases ho with hwait | hrest
    · exact .inl hwait
    · exact .inr (.inr hrest)
  have hrep : ∀ error : TargetedStreamError,
      Ticketed (log.add (.reply command.requestId (.error error)))
        { behaviour with commands := rest } := by
    intro error
    refine htick.carry rfl rfl ?_ ?_ ?_
    · intro requestId
      rw [StreamLog.answered_add, hpre]
      simp only [StreamEffects.reply, countP_singleton, decide_eq_true_eq]
      omega
    · exact hqd
    · exact htick.recorded
  simp only [TargetedStreamBehaviour.handleOpen] at hs
  split at hs
  · cases hs
    refine ⟨?_, rfl, rfl, by simp [StreamEffects.none]⟩
    rw [StreamLog.add_none]
    refine htick.carry rfl rfl ?_ ?_ ?_
    · intro requestId
      rw [hpre]
      omega
    · exact hqd
    · exact htick.recorded
  · split at hs
    · cases hs
      exact ⟨hrep _, rfl, rfl, by simp [StreamEffects.reply]⟩
    · split at hs
      · cases hs
        exact ⟨hrep _, rfl, rfl, by simp [StreamEffects.reply]⟩
      · cases hs
        refine ⟨?_, rfl, rfl, by simp [StreamEffects.act]⟩
        refine htick.carry rfl rfl ?_ ?_ ?_
        · intro requestId
          rw [StreamLog.answered_add, hpre]
          simp only [StreamEffects.act, countP_nil, tickets, FiniteMap.getElem?_insert]
          by_cases hsm : requestId = command.requestId
          · subst hsm
            simp
          · simp [hsm, Ne.symm hsm]
        · exact hqd
        · intro requestId pending hpend
          rw [FiniteMap.getElem?_insert] at hpend
          split at hpend
          · rename_i heq
            cases hpend
            rw [heq]
            apply htick.queued
            rw [hcom]
            simp
          · exact htick.recorded requestId pending hpend

theorem Ticketed.connectionClosed (htick : Ticketed log behaviour)
    (hs : behaviour.connectionClosed connectionId = (effects, next)) :
    Ticketed (log.add effects) next := by
  simp only [TargetedStreamBehaviour.connectionClosed] at hs
  cases hs
  refine htick.carry rfl rfl ?_ (fun _ hcmd => hcmd) ?_
  · intro requestId
    rw [StreamLog.answered_add]
    have hans : ((behaviour.pending.toList.filter fun stored =>
        stored.2.connectionId = connectionId).map fun stored => ((stored.1,
          .error (.selectedConnectionClosed stored.2.peerId.toText connectionId)) :
            StreamReply Stream)).countP (fun reply => decide (reply.1 = requestId)) =
        (behaviour.pending[requestId]?.filter fun pending =>
          decide (pending.connectionId = connectionId)).toList.length := by
      rw [← FiniteMap.countP_toList_key, countP_map, countP_filter]
      rfl
    rw [hans]
    simp only [tickets, ExtTreeMap.getElem?_filter']
    -- A pending request is kept or answered.
    cases behaviour.pending[requestId]? with
    | none => simp
    | some pending =>
      by_cases hcl : pending.connectionId = connectionId
      · simp [Option.filter, hcl]
        omega
      · simp [Option.filter, hcl]
  · intro requestId pending hpend
    simp only [ExtTreeMap.getElem?_filter'] at hpend
    exact htick.recorded requestId pending (filter_eq_some_iff.mp hpend).1

theorem Ticketed.onConnectionHandlerEvent (htick : Ticketed log behaviour)
    {requestId : RequestId} {result : Except HandlerFailure Stream}
    (hs : behaviour.onConnectionHandlerEvent peerId connectionId requestId result now =
      (effects, next)) : Ticketed (log.add effects) next := by
  simp only [TargetedStreamBehaviour.onConnectionHandlerEvent] at hs
  cases hpend : behaviour.pending[requestId]? with
  | none =>
    rw [hpend] at hs
    cases hs
    rw [StreamLog.add_none]
    exact htick
  | some pending =>
    rw [hpend] at hs
    -- Whatever the relay bookkeeping does, the request is answered once.
    have hans : ∀ (reply : Except TargetedStreamError Stream)
        (next : TargetedStreamBehaviour), next.nextRequestId = behaviour.nextRequestId →
        next.waiting = behaviour.waiting → next.commands = behaviour.commands →
        next.pending = behaviour.pending.erase requestId →
        Ticketed (log.add (.reply requestId reply)) next := by
      intro reply next hn hwait hcom hpending'
      refine htick.carry rfl hn ?_ (by rw [hwait, hcom]; simp) ?_
      · intro other
        rw [StreamLog.answered_add]
        simp only [tickets, hwait, hcom, hpending', StreamEffects.reply,
          FiniteMap.getElem?_erase, countP_singleton, decide_eq_true_eq]
        by_cases ho : other = requestId
        · simp [ho, hpend]
          omega
        · simp [ho, Ne.symm ho]
      · intro other found hf
        rw [hpending', FiniteMap.getElem?_erase] at hf
        split at hf
        · cases hf
        · exact htick.recorded other found hf
    dsimp only at hs
    split at hs
    · cases hs
      exact hans _ _ rfl rfl rfl rfl
    · cases hs
      split
      · simp only [recordProgress]
        split
        · exact hans _ _ rfl rfl rfl rfl
        · split
          · exact hans _ _ rfl rfl rfl rfl
          · exact hans _ _ rfl rfl rfl rfl
        · exact hans _ _ rfl rfl rfl rfl
      · exact hans _ _ rfl rfl rfl rfl

/-- How often the connection was or will be asked to close. -/
def closeCount (log : StreamLog Stream) (behaviour : TargetedStreamBehaviour)
    (connectionId : ConnectionId) : ℕ :=
  log.closes.count connectionId +
    (behaviour.pendingCloses.map Prod.snd).count connectionId

/-- Everything kept is about established connections; a close is asked for once. -/
structure Routed (log : StreamLog Stream) (behaviour : TargetedStreamBehaviour) : Prop where
  pending_live : ∀ (requestId : RequestId) (pending : PendingOpen),
    behaviour.pending[requestId]? = some pending →
    behaviour.connections pending.connectionId = some pending.peerId
  progress_live : ∀ connectionId, behaviour.connections connectionId = none →
    behaviour.relayProgress connectionId = none
  queued_live : ∀ connectionId, behaviour.connections connectionId = none →
    connectionId ∉ behaviour.pendingCloses.map Prod.snd
  connected : ∀ connectionId, connectionId ∉ log.established →
    behaviour.connections connectionId = none
  close_le : ∀ connectionId, closeCount log behaviour connectionId ≤ 1
  closing : ∀ connectionId, 0 < closeCount log behaviour connectionId →
    (∃ progress, behaviour.relayProgress connectionId = some progress ∧
      progress.closing = true) ∨
    (behaviour.connections connectionId = none ∧ connectionId ∈ log.established)

theorem Routed.carry {log' : StreamLog Stream} (hrout : Routed log behaviour)
    (hest : log'.established = log.established)
    (hcon : next.connections = behaviour.connections)
    (hpro : next.relayProgress = behaviour.relayProgress)
    (hclo : closeCount log' next = closeCount log behaviour)
    (hqd : ∀ connectionId ∈ next.pendingCloses.map Prod.snd,
      connectionId ∈ behaviour.pendingCloses.map Prod.snd)
    (hpend : ∀ (requestId : RequestId) (pending : PendingOpen),
      next.pending[requestId]? = some pending →
      behaviour.connections pending.connectionId = some pending.peerId) :
    Routed log' next := by
  constructor
  · rw [hcon]
    exact hpend
  · rw [hcon, hpro]
    exact hrout.progress_live
  · rw [hcon]
    exact fun connectionId hnone hm =>
      hrout.queued_live connectionId hnone (hqd connectionId hm)
  · rw [hest, hcon]
    exact hrout.connected
  · rw [hclo]
    exact hrout.close_le
  · rw [hclo, hpro, hcon, hest]
    exact hrout.closing

theorem Routed.handleOpen (hrout : Routed log behaviour) {command : OpenCommand}
    {rest : List OpenCommand} {canceled : Bool}
    (hs : { behaviour with commands := rest }.handleOpen command canceled now =
      (effects, next)) : Routed (log.add effects) next := by
  simp only [TargetedStreamBehaviour.handleOpen] at hs
  split at hs
  · cases hs
    rw [StreamLog.add_none]
    exact hrout.carry rfl rfl rfl rfl (fun _ hm => hm) hrout.pending_live
  · split at hs
    · cases hs
      refine hrout.carry rfl rfl rfl ?_ (fun _ hm => hm) hrout.pending_live
      simp [closeCount, StreamLog.add, StreamEffects.reply, funext_iff]
    · rename_i actualPeerId hsel
      split at hs
      · cases hs
        refine hrout.carry rfl rfl rfl ?_ (fun _ hm => hm) hrout.pending_live
        simp [closeCount, StreamLog.add, StreamEffects.reply, funext_iff]
      · rename_i hpeer
        cases hs
        refine hrout.carry rfl rfl rfl ?_ (fun _ hm => hm) ?_
        · simp [closeCount, StreamLog.add, StreamEffects.act, SwarmAction.closed, funext_iff]
        · intro requestId pending hpend
          rw [FiniteMap.getElem?_insert] at hpend
          split at hpend
          · cases hpend
            rw [not_not] at hpeer
            rw [← hpeer]
            exact (filter_eq_some_iff.mp hsel).1
          · exact hrout.pending_live requestId pending hpend

theorem Routed.connectionEstablished (hrout : Routed log behaviour) (peerId : PeerId)
    (hfrs : connectionId ∉ log.established) :
    Routed { log with established := log.established ++ [connectionId] }
      (behaviour.connectionEstablished peerId connectionId) := by
  have hnone := hrout.connected connectionId hfrs
  have hlook : ∀ other, (behaviour.connectionEstablished peerId connectionId).connections
      other = if other = connectionId then some peerId else behaviour.connections other := by
    intro other
    simp only [TargetedStreamBehaviour.connectionEstablished, Function.update_apply]
  have ho : ∀ other, (behaviour.connectionEstablished peerId connectionId).connections
      other = none → other ≠ connectionId ∧ behaviour.connections other = none := by
    intro other hmiss
    rw [hlook] at hmiss
    split at hmiss
    · cases hmiss
    · rename_i hne
      exact ⟨hne, hmiss⟩
  constructor
  · intro requestId pending hpend
    have hlive := hrout.pending_live requestId pending hpend
    rw [hlook, if_neg]
    · exact hlive
    · intro heq
      rw [heq, hnone] at hlive
      cases hlive
  · exact fun other hmiss => hrout.progress_live other (ho other hmiss).2
  · exact fun other hmiss => hrout.queued_live other (ho other hmiss).2
  · intro other hm
    simp only [mem_append, mem_singleton, not_or] at hm
    rw [hlook, if_neg hm.2]
    exact hrout.connected other hm.1
  · exact hrout.close_le
  · intro other hcnt
    rcases hrout.closing other hcnt with hclo | ⟨hmiss, hm⟩
    · exact .inl hclo
    · refine .inr ⟨?_, mem_append_left _ hm⟩
      rw [hlook, if_neg]
      · exact hmiss
      · rintro rfl
        exact hfrs hm

theorem Routed.connectionClosed (hrout : Routed log behaviour)
    (hs : behaviour.connectionClosed connectionId = (effects, next)) :
    Routed (log.add effects) next ∧ next.connections connectionId = none := by
  simp only [TargetedStreamBehaviour.connectionClosed] at hs
  cases hs
  refine ⟨?_, by simp⟩
  have hqd : ∀ other, ((behaviour.pendingCloses.filter fun queued =>
      queued.2 ≠ connectionId).map Prod.snd).count other =
        if other = connectionId then 0
        else (behaviour.pendingCloses.map Prod.snd).count other := by
    intro other
    by_cases ho : other = connectionId
    · rw [if_pos ho, count_eq_zero]
      simp [ho]
    · rw [if_neg ho]
      simp only [List.count, countP_map, countP_filter]
      apply countP_congr
      intro queued _
      simp only [Function.comp_apply, beq_iff_eq, Bool.and_eq_true, decide_eq_true_eq]
      constructor
      · exact And.left
      · intro hqd
        exact ⟨hqd, fun heq => ho (hqd.symm.trans heq)⟩
  constructor
  · intro requestId pending hpend
    simp only [ExtTreeMap.getElem?_filter'] at hpend
    obtain ⟨hf, hkept⟩ := filter_eq_some_iff.mp hpend
    simp only [decide_eq_true_eq] at hkept
    simp only [update_of_ne hkept]
    exact hrout.pending_live requestId pending hf
  · intro other hmiss
    by_cases ho : other = connectionId
    · simp [ho]
    · simp only [update_of_ne ho] at hmiss ⊢
      exact hrout.progress_live other hmiss
  · intro other hmiss
    rw [← count_eq_zero, hqd]
    split
    · rfl
    · rename_i ho
      rw [count_eq_zero]
      simp only [update_of_ne ho] at hmiss
      exact hrout.queued_live other hmiss
  · intro other hm
    by_cases ho : other = connectionId
    · simp [ho]
    · simp only [update_of_ne ho]
      exact hrout.connected other hm
  · intro other
    have hle := hrout.close_le other
    simp only [closeCount, StreamLog.add, elim_none, append_nil, hqd] at hle ⊢
    split <;> omega
  · intro other hcnt
    have hpre : 0 < closeCount log behaviour other := by
      simp only [closeCount, StreamLog.add, elim_none, append_nil, hqd]
        at hcnt ⊢
      split at hcnt <;> omega
    by_cases ho : other = connectionId
    · subst ho
      refine .inr ⟨by simp, ?_⟩
      by_contra hfrs
      have hnone := hrout.connected other hfrs
      rcases hrout.closing other hpre with ⟨progress, hpro, -⟩ | ⟨-, hm⟩
      · rw [hrout.progress_live other hnone] at hpro
        cases hpro
      · exact hfrs hm
    · simp only [update_of_ne ho]
      exact hrout.closing other hpre

/-- A timeout keeps a closing record, and asks for a close only with a new one. -/
theorem timedOut_cases (progress : RelayProgress) (started now : Instant) :
    (∃ next, progress.timedOut started now = (false, next) ∧
      (progress.closing = true → next = progress)) ∨
    (∃ next, progress.timedOut started now = (true, next) ∧ progress.closing = false ∧
      next.closing = true) := by
  simp only [RelayProgress.timedOut]
  split
  · exact .inl ⟨progress, rfl, fun _ => rfl⟩
  · rename_i hopen
    have hclo : progress.closing = false := by
      cases hval : progress.closing with
      | false => rfl
      | true => exact absurd (.inl hval) hopen
    split
    · split
      · exact .inr ⟨_, rfl, hclo, rfl⟩
      · exact .inl ⟨_, rfl, fun htrue => by simp [hclo] at htrue⟩
    · split
      · exact .inr ⟨_, rfl, hclo, rfl⟩
      · exact .inl ⟨_, rfl, fun htrue => by simp [hclo] at htrue⟩

theorem Routed.recordProgress (hrout : Routed log behaviour) {pending : PendingOpen}
    (hlive : behaviour.connections pending.connectionId = some pending.peerId)
    (result : Except HandlerFailure Stream) (now : Instant) :
    Routed log (behaviour.recordProgress pending result now) := by
  -- Both records below replace the progress of the pending connection.
  have hprogress_live : ∀ (progress : RelayProgress) (connectionId : ConnectionId),
      behaviour.connections connectionId = none →
      Function.update behaviour.relayProgress pending.connectionId (some progress)
        connectionId = none := by
    intro progress connectionId hnone
    have ho : connectionId ≠ pending.connectionId := by
      rintro rfl
      rw [hlive] at hnone
      cases hnone
    rw [update_of_ne ho]
    exact hrout.progress_live connectionId hnone
  have hupd : ∀ progress : RelayProgress,
      (∀ before, behaviour.relayProgress pending.connectionId = some before →
        before.closing = true → progress.closing = true) →
      Routed log { behaviour with
        relayProgress :=
          Function.update behaviour.relayProgress pending.connectionId (some progress) } := by
    intro progress hclo
    constructor
    · exact hrout.pending_live
    · exact hprogress_live progress
    · exact hrout.queued_live
    · exact hrout.connected
    · exact hrout.close_le
    · intro connectionId hcnt
      rcases hrout.closing connectionId hcnt with ⟨before, hpre, htrue⟩ | hcl
      · left
        by_cases ho : connectionId = pending.connectionId
        · subst ho
          exact ⟨progress, by simp, hclo before hpre htrue⟩
        · exact ⟨before, by simpa [ho] using hpre, htrue⟩
      · exact .inr hcl
  simp only [TargetedStreamBehaviour.recordProgress]
  split
  · apply hupd
    intro before hpre htrue
    simpa [hpre, RelayProgress.succeeded] using htrue
  · split
    · rcases timedOut_cases ((behaviour.relayProgress pending.connectionId).getD
          RelayProgress.default) pending.started now with ⟨next, htim, hkept⟩ |
        ⟨next, htim, hopen, hclo⟩
      · rw [htim]
        simp only [Bool.false_eq_true, if_false]
        apply hupd
        intro before hpre htrue
        rw [hpre] at hkept
        rw [hkept htrue]
        exact htrue
      · rw [htim]
        simp only [if_true]
        -- No close was asked for before: the record was not closing, and the
        -- connection is established.
        have hzero : closeCount log behaviour pending.connectionId = 0 := by
          by_contra hpos
          rcases hrout.closing pending.connectionId (Nat.pos_of_ne_zero hpos) with
            ⟨before, hpre, htrue⟩ | ⟨hnone, -⟩
          · rw [hpre] at hopen
            simp [htrue] at hopen
          · rw [hlive] at hnone
            cases hnone
        have hcnt : ∀ connectionId, ((behaviour.pendingCloses ++
            [(pending.peerId, pending.connectionId)]).map Prod.snd).count connectionId =
              (behaviour.pendingCloses.map Prod.snd).count connectionId +
                if pending.connectionId = connectionId then 1 else 0 := by
          intro connectionId
          simp [count_singleton]
        constructor
        · exact hrout.pending_live
        · exact hprogress_live next
        · intro connectionId hnone hm
          simp only [map_append, map_cons, map_nil, mem_append, mem_singleton] at hm
          rcases hm with hm | rfl
          · exact hrout.queued_live connectionId hnone hm
          · rw [hlive] at hnone
            cases hnone
        · exact hrout.connected
        · intro connectionId
          have hle := hrout.close_le connectionId
          simp only [closeCount, hcnt] at hle hzero ⊢
          split
          · rename_i heq
            rw [← heq]
            omega
          · omega
        · intro connectionId hpos
          by_cases ho : connectionId = pending.connectionId
          · subst ho
            exact .inl ⟨next, by simp, hclo⟩
          · have hpre : 0 < closeCount log behaviour connectionId := by
              simp only [closeCount, hcnt, if_neg (Ne.symm ho)] at hpos ⊢
              omega
            simpa [ho] using hrout.closing connectionId hpre
    · exact hrout
  · exact hrout

theorem Routed.onConnectionHandlerEvent (hrout : Routed log behaviour) {requestId : RequestId}
    {result : Except HandlerFailure Stream}
    (hs : behaviour.onConnectionHandlerEvent peerId connectionId requestId result now =
      (effects, next)) : Routed (log.add effects) next := by
  simp only [TargetedStreamBehaviour.onConnectionHandlerEvent] at hs
  cases hpend : behaviour.pending[requestId]? with
  | none =>
    rw [hpend] at hs
    cases hs
    rw [StreamLog.add_none]
    exact hrout
  | some pending =>
    rw [hpend] at hs
    have hans : ∀ reply : Except TargetedStreamError Stream,
        Routed (log.add (.reply requestId reply))
          { behaviour with pending := behaviour.pending.erase requestId } := by
      intro reply
      refine hrout.carry rfl rfl rfl ?_ (fun _ hm => hm) ?_
      · simp [closeCount, StreamLog.add, StreamEffects.reply, funext_iff]
      · intro other found hf
        rw [FiniteMap.getElem?_erase] at hf
        split at hf
        · cases hf
        · exact hrout.pending_live other found hf
    dsimp only at hs
    split at hs
    · cases hs
      exact hans _
    · cases hs
      split
      · exact (hans _).recordProgress
          (hrout.pending_live requestId pending hpend) result now
      · exact hans _

theorem Routed.emitClose (hrout : Routed log behaviour) {rest : List (PeerId × ConnectionId)}
    (hque : behaviour.pendingCloses = (peerId, connectionId) :: rest) :
    Routed (log.add (.act (.closeConnection peerId connectionId)))
      { behaviour with pendingCloses := rest } := by
  refine hrout.carry rfl rfl rfl ?_ ?_ hrout.pending_live
  · funext other
    simp only [closeCount, StreamLog.add, StreamEffects.act, elim_some,
      SwarmAction.closed, count_append, hque, map_cons]
    rw [← singleton_append (l := rest.map Prod.snd), count_append, Nat.add_assoc]
  · intro other hm
    rw [hque, map_cons]
    exact mem_cons_of_mem _ hm

end TargetedStreamBehaviour

end AukiSdk.Transport
