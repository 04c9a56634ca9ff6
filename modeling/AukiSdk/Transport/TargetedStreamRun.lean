import AukiSdk.Transport.TargetedStreamSafety

/-!
# Targeted streams along every run

The tickets and routes of a run, and what they say about replies and closed
connections.
-/

namespace AukiSdk.Transport

open AukiSdk.Foundation List
open AukiSdk.Net
open AukiSdk.Relay
open Std (ExtTreeMap)

variable {Stream : Type}

namespace TargetedStreamBehaviour

/-- The invariant of the behaviour. -/
structure Correlated (log : StreamLog Stream) (behaviour : TargetedStreamBehaviour) :
    Prop where
  ticketed : Ticketed log behaviour
  routed : Routed log behaviour

theorem correlated_drain {canceled : RequestId → Bool} {now : Instant}
    {commands : List OpenCommand} {log : StreamLog Stream}
    {behaviour next : TargetedStreamBehaviour} {effects : StreamEffects Stream}
    (hcorr : Correlated log behaviour) (hcom : behaviour.commands = commands)
    (hdra : drain canceled now commands behaviour = (effects, next)) :
    Correlated (log.add effects) next ∧
      ∀ reply ∈ effects.replies, ∃ error, reply.2 = .error error := by
  induction commands generalizing log behaviour effects with
  | nil =>
    cases hdra
    rw [StreamLog.add_none]
    exact ⟨hcorr, by simp [StreamEffects.none]⟩
  | cons command rest ih =>
    simp only [drain] at hdra
    rcases hopen : (handleOpen { behaviour with commands := rest } command
      (canceled command.requestId) now : StreamEffects Stream × TargetedStreamBehaviour)
      with ⟨first, middle⟩
    obtain ⟨htick, hrest, htak, herr⟩ := hcorr.ticketed.handleOpen hcom hopen
    have hmid : Correlated (log.add first) middle := ⟨htick, hcorr.routed.handleOpen hopen⟩
    rw [hopen] at hdra
    dsimp only at hdra
    cases hact : first.action with
    | some action =>
      rw [hact] at hdra
      cases hdra
      exact ⟨hmid, herr⟩
    | none =>
      rw [hact] at hdra
      rcases hlat : (drain canceled now rest middle :
        StreamEffects Stream × TargetedStreamBehaviour) with ⟨later, last⟩
      rw [hlat] at hdra
      cases hdra
      obtain ⟨hlast, hltr⟩ := ih hmid hrest hlat
      have hadd : log.add ⟨none, first.replies ++ later.replies, later.action⟩ =
          (log.add first).add later := by
        simp [StreamLog.add, hact]
      rw [hadd]
      refine ⟨hlast, ?_⟩
      simp only [forall_mem_append]
      exact ⟨herr, hltr⟩

end TargetedStreamBehaviour

theorem StreamLog.note_eq_add {log : StreamLog Stream} {label : StreamLabel Stream}
    (hopn : label.opened = []) (hest : label.established = []) :
    log.note label = log.add label.effects := by
  simp [StreamLog.note, hopn, hest, StreamLog.add]

variable (history : List (StreamLabel Stream))

/-- One input; each connection id is established at most once. -/
def StreamStep (source : TargetedStreamBehaviour) (label : StreamLabel Stream)
    (target : TargetedStreamBehaviour) : Prop :=
  (∀ connectionId ∈ label.established,
    connectionId ∉ (StreamLog.ofHistory history).established) ∧
  source.handle label.event = (label.effects, target)

/-- Runs of the behaviour from its creation. -/
abbrev StreamRun (relayRecovery : Bool) :
    List (StreamLabel Stream) → TargetedStreamBehaviour → Prop :=
  Transition.Run StreamStep (TargetedStreamBehaviour.new relayRecovery)

namespace TargetedStreamBehaviour

theorem correlated_new (relayRecovery : Bool) :
    Correlated (StreamLog.ofHistory ([] : List (StreamLabel Stream))) (new relayRecovery) := by
  constructor
  · constructor <;> simp [new, tickets, StreamLog.ofHistory, StreamLog.answered]
  · constructor <;> simp [new, closeCount, StreamLog.ofHistory]

theorem correlated_handle {log : StreamLog Stream} {source target : TargetedStreamBehaviour}
    (hcorr : Correlated log source) {label : StreamLabel Stream}
    (hfrs : ∀ connectionId ∈ label.established, connectionId ∉ log.established)
    (hs : source.handle label.event = (label.effects, target)) :
    Correlated (log.note label) target := by
  obtain ⟨event, effects⟩ := label
  cases event with
  | openStream peerId connectionId protocol =>
    refine ⟨hcorr.ticketed.openStream hs, ?_⟩
    simp only [handle, openStream] at hs
    split at hs
    · cases hs
      refine hcorr.routed.carry ?_ rfl rfl ?_ (fun _ hm => hm)
        hcorr.routed.pending_live
      · simp [StreamLog.note, StreamLabel.established]
      · simp [closeCount, StreamLog.note, StreamLog.add, StreamEffects.none, funext_iff]
    · cases hs
      refine hcorr.routed.carry ?_ rfl rfl ?_ (fun _ hm => hm)
        hcorr.routed.pending_live
      · simp [StreamLog.note, StreamLabel.established]
      · simp [closeCount, StreamLog.note, StreamLog.add, funext_iff]
  | send requestId =>
    obtain ⟨rfl, rfl⟩ : StreamEffects.none = effects ∧ source.send requestId = target :=
      Prod.mk.inj hs
    have hnote : log.note ⟨.send requestId, .none⟩ = log :=
      (StreamLog.note_eq_add rfl rfl).trans log.add_none
    rw [hnote]
    refine ⟨hcorr.ticketed.send requestId, ?_⟩
    simp only [send]
    split
    · exact hcorr.routed.carry rfl rfl rfl rfl (fun _ hm => hm)
        hcorr.routed.pending_live
    · exact hcorr.routed
  | abandon requestId =>
    obtain ⟨rfl, rfl⟩ : StreamEffects.none = effects ∧ source.abandon requestId = target :=
      Prod.mk.inj hs
    have hnote : log.note ⟨.abandon requestId, .none⟩ = log :=
      (StreamLog.note_eq_add rfl rfl).trans log.add_none
    rw [hnote]
    exact ⟨hcorr.ticketed.abandon requestId, hcorr.routed.carry rfl rfl rfl rfl (fun _ hm => hm)
        hcorr.routed.pending_live⟩
  | connectionEstablished peerId connectionId =>
    obtain ⟨rfl, rfl⟩ : StreamEffects.none = effects ∧
        source.connectionEstablished peerId connectionId = target := Prod.mk.inj hs
    have hnote : log.note ⟨.connectionEstablished peerId connectionId, .none⟩ =
        { log with established := log.established ++ [connectionId] } := by
      simp [StreamLog.note, StreamLog.add, StreamLabel.opened, StreamLabel.established,
        StreamEffects.none]
    rw [hnote]
    constructor
    · exact hcorr.ticketed.carry rfl rfl (fun _ => le_rfl) (fun _ hm => hm)
        hcorr.ticketed.recorded
    · exact hcorr.routed.connectionEstablished peerId
        (hfrs connectionId (by simp [StreamLabel.established]))
  | connectionClosed connectionId =>
    rw [StreamLog.note_eq_add rfl rfl]
    exact ⟨hcorr.ticketed.connectionClosed hs, (hcorr.routed.connectionClosed hs).1⟩
  | handlerEvent peerId connectionId requestId result now =>
    rw [StreamLog.note_eq_add rfl rfl]
    exact ⟨hcorr.ticketed.onConnectionHandlerEvent hs, hcorr.routed.onConnectionHandlerEvent hs⟩
  | poll canceled now =>
    rw [StreamLog.note_eq_add rfl rfl]
    simp only [handle, poll] at hs
    cases hclo : source.pendingCloses with
    | cons queued rest =>
      rw [hclo] at hs
      cases hs
      refine ⟨?_, hcorr.routed.emitClose hclo⟩
      exact hcorr.ticketed.carry rfl rfl (fun _ => by simp [StreamLog.answered_add,
        StreamEffects.act, tickets]) (fun _ hm => hm) hcorr.ticketed.recorded
    | nil =>
      rw [hclo] at hs
      exact (correlated_drain hcorr rfl hs).1

theorem correlated_of_run {relayRecovery : Bool} {history : List (StreamLabel Stream)}
    {behaviour : TargetedStreamBehaviour} (hrun : StreamRun relayRecovery history behaviour) :
    Correlated (StreamLog.ofHistory history) behaviour := by
  apply hrun.invariant (fun history behaviour =>
    Correlated (StreamLog.ofHistory history) behaviour) (correlated_new relayRecovery)
  rintro history source label target hcorr ⟨hfrs, hs⟩
  rw [StreamLog.ofHistory_append]
  exact correlated_handle hcorr hfrs hs

theorem ok_reply_of_handle {log : StreamLog Stream} {source target : TargetedStreamBehaviour}
    (hcorr : Correlated log source) {event : StreamEvent Stream}
    {effects : StreamEffects Stream} (hs : source.handle event = (effects, target))
    {requestId : RequestId} {stream : Stream}
    (hrep : (requestId, .ok stream) ∈ effects.replies) :
    ∃ pending now, source.pending[requestId]? = some pending ∧
      event = .handlerEvent pending.peerId pending.connectionId requestId (.ok stream) now := by
  cases event with
  | openStream peerId connectionId protocol =>
    simp only [handle, openStream] at hs
    split at hs <;> cases hs <;> cases hrep
  | send requestId =>
    cases hs
    cases hrep
  | abandon requestId =>
    cases hs
    cases hrep
  | connectionEstablished peerId connectionId =>
    cases hs
    cases hrep
  | connectionClosed connectionId =>
    simp only [handle, connectionClosed] at hs
    cases hs
    simp at hrep
  | handlerEvent peerId connectionId other result now =>
    simp only [handle, onConnectionHandlerEvent] at hs
    cases hpend : source.pending[other]? with
    | none =>
      rw [hpend] at hs
      cases hs
      cases hrep
    | some pending =>
      rw [hpend] at hs
      dsimp only at hs
      split at hs
      · cases hs
        simp [StreamEffects.reply] at hrep
      · rename_i hrt
        push Not at hrt
        cases hs
        simp only [StreamEffects.reply, mem_singleton, Prod.mk.injEq] at hrep
        obtain ⟨rfl, hres⟩ := hrep
        refine ⟨pending, now, hpend, ?_⟩
        rw [hrt.1, hrt.2]
        cases result with
        | ok found =>
          cases hres
          rfl
        | error failure => cases failure <;> cases hres
  | poll canceled now =>
    simp only [handle, poll] at hs
    cases hclo : source.pendingCloses with
    | cons queued rest =>
      rw [hclo] at hs
      cases hs
      cases hrep
    | nil =>
      rw [hclo] at hs
      obtain ⟨error, herr⟩ := (correlated_drain hcorr rfl hs).2 _ hrep
      cases herr

end TargetedStreamBehaviour

theorem StreamLog.ofHistory_opened :
    (StreamLog.ofHistory history).opened = history.flatMap StreamLabel.opened := by
  induction history using List.reverseRecOn with
  | nil => rfl
  | append_singleton history label ih =>
    rw [StreamLog.ofHistory_append, flatMap_append, ← ih]
    simp [StreamLog.note]

/-- Replies to targeted stream requests are correlated along every run. -/
theorem targeted_streams_correlated {relayRecovery : Bool}
    {history : List (StreamLabel Stream)} {behaviour : TargetedStreamBehaviour}
    (hrun : StreamRun relayRecovery history behaviour) :
    (∀ requestId, (StreamLog.ofHistory history).answered requestId ≤ 1) ∧
    (∀ before label after requestId stream, history = before ++ label :: after →
      (requestId, .ok stream) ∈ label.effects.replies →
      ∃ source peerId connectionId now, StreamRun relayRecovery before source ∧
        label.event = .handlerEvent peerId connectionId requestId (.ok stream) now ∧
        source.connections connectionId = some peerId ∧
        (∃ command ∈ (StreamLog.ofHistory before).opened, command.requestId = requestId) ∧
        ∀ command ∈ (StreamLog.ofHistory history).opened, command.requestId = requestId →
          command.peerId = peerId ∧ command.connectionId = connectionId) ∧
    (∀ (requestId : RequestId) (pending : PendingOpen),
      behaviour.pending[requestId]? = some pending →
      behaviour.connections pending.connectionId = some pending.peerId) ∧
    (∀ before after connectionId effects,
      history = before ++ ⟨.connectionClosed connectionId, effects⟩ :: after →
      ∃ source target, StreamRun relayRecovery before source ∧
        StreamRun relayRecovery (before ++ [⟨.connectionClosed connectionId, effects⟩])
          target ∧
        target.connections connectionId = none ∧
        ∀ (requestId : RequestId) (pending : PendingOpen),
          source.pending[requestId]? = some pending →
          pending.connectionId = connectionId →
          (requestId, .error (.selectedConnectionClosed pending.peerId.toText connectionId)) ∈
            effects.replies) ∧
    (∀ connectionId, behaviour.connections connectionId = none →
      (∀ (requestId : RequestId) (pending : PendingOpen),
        behaviour.pending[requestId]? = some pending →
        pending.connectionId ≠ connectionId) ∧
      behaviour.relayProgress connectionId = none ∧
      connectionId ∉ behaviour.pendingCloses.map Prod.snd) ∧
    (∀ connectionId, (StreamLog.ofHistory history).closes.count connectionId ≤ 1) := by
  have hcorrelated := TargetedStreamBehaviour.correlated_of_run hrun
  refine ⟨?_, ?_, hcorrelated.routed.pending_live, ?_, ?_, ?_⟩
  · intro requestId
    exact (Nat.le_add_left _ _).trans (hcorrelated.ticketed.ticket_le requestId)
  · rintro before label after requestId stream rfl hreply
    obtain ⟨source, target, hbefore, ⟨-, hstep⟩, -⟩ := hrun.step_at
    have hsource := TargetedStreamBehaviour.correlated_of_run hbefore
    obtain ⟨pending, now, hpending, hevent⟩ :=
      TargetedStreamBehaviour.ok_reply_of_handle hsource hstep hreply
    have hopened := hsource.ticketed.recorded requestId pending hpending
    refine ⟨source, pending.peerId, pending.connectionId, now, hbefore, hevent,
      hsource.routed.pending_live requestId pending hpending, ⟨_, hopened, rfl⟩, ?_⟩
    intro command hcommand hsame
    have hlater : (⟨requestId, pending.peerId, pending.connectionId, pending.protocol⟩ :
        OpenCommand) ∈ (StreamLog.ofHistory (before ++ label :: after)).opened := by
      rw [StreamLog.ofHistory_opened, flatMap_append, ← StreamLog.ofHistory_opened]
      exact mem_append_left _ hopened
    rw [hcorrelated.ticketed.opened_unique command hcommand _ hlater hsame]
    exact ⟨rfl, rfl⟩
  · rintro before after connectionId effects rfl
    obtain ⟨source, target, hbefore, ⟨-, hstep⟩, htarget⟩ := hrun.step_at
    have hsource := TargetedStreamBehaviour.correlated_of_run hbefore
    refine ⟨source, target, hbefore, htarget, (hsource.routed.connectionClosed hstep).2, ?_⟩
    intro requestId pending hpending hclosed
    simp only [TargetedStreamBehaviour.handle, TargetedStreamBehaviour.connectionClosed]
      at hstep
    cases hstep
    rw [mem_map]
    refine ⟨(requestId, pending), ?_, rfl⟩
    rw [mem_filter]
    exact ⟨ExtTreeMap.mem_toList_iff_getElem?_eq_some.mpr hpending, by simpa using hclosed⟩
  · intro connectionId hnone
    refine ⟨?_, hcorrelated.routed.progress_live connectionId hnone,
      hcorrelated.routed.queued_live connectionId hnone⟩
    rintro requestId pending hpending rfl
    rw [hcorrelated.routed.pending_live requestId pending hpending] at hnone
    cases hnone
  · intro connectionId
    exact (Nat.le_add_right _ _).trans (hcorrelated.routed.close_le connectionId)

/-- The labels of a run over some inputs. -/
def TargetedStreamBehaviour.record (behaviour : TargetedStreamBehaviour) :
    List (StreamEvent Stream) → List (StreamLabel Stream)
  | [] => []
  | event :: events =>
    ⟨event, (behaviour.handle event).1⟩ :: (behaviour.handle event).2.record events

theorem StreamLog.ofHistory_established : (StreamLog.ofHistory history).established =
      history.flatMap StreamLabel.established := by
  induction history using List.reverseRecOn with
  | nil => rfl
  | append_singleton history label ih =>
    rw [StreamLog.ofHistory_append, flatMap_append, ← ih]
    simp [StreamLog.note, StreamLog.add]

theorem StreamRun.record {relayRecovery : Bool} {start : List (StreamLabel Stream)}
    {behaviour : TargetedStreamBehaviour} (hrun : StreamRun relayRecovery start behaviour)
    (events : List (StreamEvent Stream))
    (hfrs : ((start ++ behaviour.record events).flatMap StreamLabel.established).Nodup) :
    ∃ target, StreamRun relayRecovery (start ++ behaviour.record events) target := by
  induction events generalizing start behaviour with
  | nil => exact ⟨behaviour, by simpa [TargetedStreamBehaviour.record] using hrun⟩
  | cons event events ih =>
    have hs : StreamRun relayRecovery
        (start ++ [⟨event, (behaviour.handle event).1⟩]) (behaviour.handle event).2 := by
      apply hrun.extend
      refine ⟨?_, rfl⟩
      intro connectionId hest
      rw [StreamLog.ofHistory_established]
      rw [TargetedStreamBehaviour.record, flatMap_append, flatMap_cons] at hfrs
      intro hpri
      exact (nodup_append'.mp hfrs).2.2 hpri
        (mem_append_left _ hest)
    have hlat := ih hs (by simpa [TargetedStreamBehaviour.record] using hfrs)
    simpa [TargetedStreamBehaviour.record] using hlat

def sampleStreamEvents : List (StreamEvent ℕ) :=
  [.connectionEstablished (samplePeer 2) 1, .openStream (samplePeer 2) 1 "/sample/1",
    .send 1, .poll (fun _ => false) 5, .handlerEvent (samplePeer 2) 1 1 (.ok 7) 6,
    .handlerEvent (samplePeer 2) 1 1 (.ok 8) 7]

/-- The request is answered once although its completion is reported twice. -/
theorem targeted_streams_correlated_sample :
    ∃ (history : List (StreamLabel ℕ)) (behaviour : TargetedStreamBehaviour),
      StreamRun false history behaviour ∧ (StreamLog.ofHistory history).answered 1 = 1 := by
  have hfresh : (((TargetedStreamBehaviour.new false).record sampleStreamEvents).flatMap
      StreamLabel.established).Nodup := by
    decide +kernel
  have hanswered : 1 ≤ (StreamLog.ofHistory
      ((TargetedStreamBehaviour.new false).record sampleStreamEvents)).answered 1 := by
    decide +kernel
  obtain ⟨behaviour, hrun⟩ := StreamRun.record .start sampleStreamEvents hfresh
  exact ⟨_, behaviour, hrun, le_antisymm ((targeted_streams_correlated hrun).1 1) hanswered⟩

end AukiSdk.Transport
