import AukiSdk.Protocols.MessageChannel

/-!
# What a message channel delivers

The receiver has enqueued the accepted messages in order, and at most one more.
-/

namespace AukiSdk.Protocols.MessageV1

open AukiSdk.Foundation List Function
open LengthPrefix (frame takeFrame takeFrame_cut)

/-- The bytes of an acknowledgement. -/
def ackBytes (sequence : UInt64) : List UInt8 :=
  frame (ackFrame :: u64ToBeBytes sequence)

/-- No exchange is under way. -/
structure Quiet (receiver : Receiver) (outgoing acknowledgements : List UInt8)
    (base : List Message) : Prop where
  acknowledgements : acknowledgements = []
  enqueued : receiver.enqueued = base
  phase : receiver.phase = .stopped ∨
    (receiver.phase = .reading ∧ receiver.buffer ++ outgoing = [])

/-- How far the exchange of a message has come. -/
inductive Flight (messages : MessageEncoding) (receiver : Receiver)
    (outgoing acknowledgements : List UInt8) (base : List Message) (message : Message)
    (sequence : UInt64) (remaining : List UInt8) : Prop where
  | sending (phase : receiver.phase = .reading) (acks : acknowledgements = [])
      (enqueued : receiver.enqueued = base)
      (bytes : (Frame.message sequence message).write messages =
        .ok (receiver.buffer ++ (outgoing ++ remaining)))
  | held (phase : receiver.phase = .holding sequence message) (acks : acknowledgements = [])
      (enqueued : receiver.enqueued = base) (rest : remaining = [])
      (empty : receiver.buffer ++ outgoing = [])
  | queued (phase : receiver.phase = .acknowledging sequence) (acks : acknowledgements = [])
      (enqueued : receiver.enqueued = base ++ [message]) (rest : remaining = [])
      (empty : receiver.buffer ++ outgoing = [])
  | acknowledged (phase : receiver.phase = .reading) (acks : acknowledgements = ackBytes sequence)
      (enqueued : receiver.enqueued = base ++ [message]) (rest : remaining = [])
      (empty : receiver.buffer ++ outgoing = [])
  | refused (phase : receiver.phase = .stopped) (acks : acknowledgements = [])
      (enqueued : receiver.enqueued = base)
  | stopped (phase : receiver.phase = .stopped) (acks : acknowledgements <+: ackBytes sequence)
      (enqueued : receiver.enqueued = base ++ [message])

section Link

variable {messages : MessageEncoding} {receiver : Receiver}
  {outgoing acknowledgements : List UInt8} {base : List Message} {message : Message}
  {sequence : UInt64} {remaining : List UInt8}

theorem readFrame_cut {payload front : List UInt8} (hpos : 0 < payload.length)
    (hlen : payload.length ≤ maxMessageFrameBytes) (hfro : front <+: frame payload)
    (hcut : front.length < (frame payload).length) : readFrame front = .error .io := by
  rw [readFrame, takeFrame_cut (by decide) hpos hlen hfro hcut]

theorem readAs_cut {sent : Frame} {written front : List UInt8}
    (hwrt : sent.write messages = .ok written) (hfro : front <+: written)
    (hcut : front.length < written.length) (kind : FrameKind) :
    readAs messages kind front = .error .io := by
  rw [Frame.write_eq, writeFrame_eq_ok] at hwrt
  obtain ⟨hlen, rfl⟩ := hwrt
  rw [readAs, readFrame_cut sent.payload_pos hlen hfro hcut]
  rfl

theorem write_ack (messages : MessageEncoding) (sequence : UInt64) :
    (Frame.ack sequence).write messages = .ok (ackBytes sequence) := by
  apply writeFrame_eq_ok.mpr
  refine ⟨?_, rfl⟩
  rw [length_cons, length_u64ToBeBytes]
  decide

theorem readAs_ack_prefix (hlaw : messages.Lawful) {acks : List UInt8}
    (hacks : acks <+: ackBytes sequence) :
    readAs messages .ack acks = .error .io ∨
      readAs messages .ack acks = .ok (.ack sequence, []) := by
  rcases Nat.lt_or_ge acks.length (ackBytes sequence).length with hcut | hwhl
  · exact .inl (readAs_cut (write_ack messages sequence) hacks hcut .ack)
  · have hsm := hacks.eq_of_length (le_antisymm hacks.length_le hwhl)
    have hread := readAs_write hlaw (write_ack messages sequence) []
    rw [append_nil] at hread
    rw [hsm]
    exact .inr hread

theorem Quiet.deliver (hqui : Quiet receiver outgoing acknowledgements base) (count : ℕ) :
    Quiet { receiver with buffer := receiver.buffer ++ outgoing.take count }
      (outgoing.drop count) acknowledgements base := by
  refine ⟨hqui.acknowledgements, hqui.enqueued, ?_⟩
  rcases hqui.phase with hstop | ⟨hrdg, hemp⟩
  · exact .inl hstop
  · refine .inr ⟨hrdg, ?_⟩
    rw [append_assoc, take_append_drop]
    exact hemp

theorem Flight.deliver
    (hfly : Flight messages receiver outgoing acknowledgements base message sequence remaining)
    (count : ℕ) :
    Flight messages { receiver with buffer := receiver.buffer ++ outgoing.take count }
      (outgoing.drop count) acknowledgements base message sequence remaining := by
  have hsp : receiver.buffer ++ outgoing.take count ++ outgoing.drop count =
      receiver.buffer ++ outgoing := by
    rw [append_assoc, take_append_drop]
  cases hfly with
  | sending phase acks enqueued bytes =>
    have hbyt : receiver.buffer ++ outgoing.take count ++ (outgoing.drop count ++ remaining) =
        receiver.buffer ++ (outgoing ++ remaining) := by
      rw [← append_assoc, hsp, append_assoc]
    refine .sending phase acks enqueued ?_
    rw [bytes, ← hbyt]
  | held phase acks enqueued rest empty =>
    exact .held phase acks enqueued rest (hsp.trans empty)
  | queued phase acks enqueued rest empty =>
    exact .queued phase acks enqueued rest (hsp.trans empty)
  | acknowledged phase acks enqueued rest empty =>
    exact .acknowledged phase acks enqueued rest (hsp.trans empty)
  | refused phase acks enqueued => exact .refused phase acks enqueued
  | stopped phase acks enqueued => exact .stopped phase acks enqueued

theorem Quiet.stop (hqui : Quiet receiver outgoing acknowledgements base) :
    Quiet { receiver with phase := .stopped } outgoing acknowledgements base :=
  ⟨hqui.acknowledgements, hqui.enqueued, .inl rfl⟩

theorem Flight.stop
    (hfly : Flight messages receiver outgoing acknowledgements base message sequence remaining) :
    Flight messages { receiver with phase := .stopped } outgoing acknowledgements base message
      sequence remaining := by
  cases hfly with
  | sending phase acks enqueued bytes => exact .refused rfl acks enqueued
  | held phase acks enqueued rest empty => exact .refused rfl acks enqueued
  | queued phase acks enqueued rest empty =>
    refine .stopped rfl ?_ enqueued
    rw [acks]
    exact nil_prefix
  | acknowledged phase acks enqueued rest empty =>
    refine .stopped rfl ?_ enqueued
    rw [acks]
  | refused phase acks enqueued => exact .refused rfl acks enqueued
  | stopped phase acks enqueued => exact .stopped rfl acks enqueued

theorem Flight.read (hlaw : messages.Lawful)
    (hfly : Flight messages receiver outgoing acknowledgements base message sequence remaining)
    (hrdg : receiver.phase = .reading) :
    readAs messages .message receiver.buffer = .error .io ∨
      (readAs messages .message receiver.buffer = .ok (.message sequence message, []) ∧
        remaining = [] ∧ outgoing = [] ∧ acknowledgements = [] ∧ receiver.enqueued = base) := by
  cases hfly with
  | held phase => cases hrdg.symm.trans phase
  | queued phase => cases hrdg.symm.trans phase
  | refused phase => cases hrdg.symm.trans phase
  | stopped phase => cases hrdg.symm.trans phase
  | acknowledged phase acks enqueued rest empty =>
    rw [(append_eq_nil_iff.mp empty).1]
    exact .inl rfl
  | sending phase acks enqueued bytes =>
    cases hrest : outgoing ++ remaining with
    | nil =>
      obtain ⟨hout, hrem⟩ := append_eq_nil_iff.mp hrest
      have hread := readAs_write hlaw bytes []
      rw [hrest, append_nil, append_nil] at hread
      exact .inr ⟨hread, hrem, hout, acks, enqueued⟩
    | cons byte more =>
      refine .inl (readAs_cut bytes (prefix_append _ _) ?_ .message)
      rw [hrest, length_append, length_cons]
      omega

theorem Quiet.not_holding (hqui : Quiet receiver outgoing acknowledgements base)
    {found : UInt64} {held : Message} : receiver.phase ≠ .holding found held := by
  intro hp
  rcases hqui.phase with hstop | ⟨hrdg, -⟩
  · cases hp.symm.trans hstop
  · cases hp.symm.trans hrdg

theorem Quiet.not_acknowledging (hqui : Quiet receiver outgoing acknowledgements base)
    {found : UInt64} : receiver.phase ≠ .acknowledging found := by
  intro hp
  rcases hqui.phase with hstop | ⟨hrdg, -⟩
  · cases hp.symm.trans hstop
  · cases hp.symm.trans hrdg

theorem Flight.enqueue
    (hfly : Flight messages receiver outgoing acknowledgements base message sequence remaining)
    {found : UInt64} {held : Message} (hhold : receiver.phase = .holding found held) :
    Flight messages
      { receiver with
        phase := .acknowledging found
        enqueued := receiver.enqueued ++ [held] }
      outgoing acknowledgements base message sequence remaining := by
  cases hfly with
  | held phase acks enqueued rest empty =>
    cases hhold.symm.trans phase
    refine .queued rfl acks ?_ rest empty
    rw [← enqueued]
  | sending phase => cases hhold.symm.trans phase
  | queued phase => cases hhold.symm.trans phase
  | acknowledged phase => cases hhold.symm.trans phase
  | refused phase => cases hhold.symm.trans phase
  | stopped phase => cases hhold.symm.trans phase

theorem Flight.of_acknowledging
    (hfly : Flight messages receiver outgoing acknowledgements base message sequence remaining)
    {found : UInt64} (hack : receiver.phase = .acknowledging found) :
    found = sequence ∧ acknowledgements = [] ∧ receiver.enqueued = base ++ [message] ∧
      remaining = [] ∧ receiver.buffer ++ outgoing = [] := by
  cases hfly with
  | queued phase acks enqueued rest empty =>
    cases hack.symm.trans phase
    exact ⟨rfl, acks, enqueued, rest, empty⟩
  | sending phase => cases hack.symm.trans phase
  | held phase => cases hack.symm.trans phase
  | acknowledged phase => cases hack.symm.trans phase
  | refused phase => cases hack.symm.trans phase
  | stopped phase => cases hack.symm.trans phase

/-- The acknowledgement is that of its message, which the receiver has. -/
theorem Flight.acknowledges (hlaw : messages.Lawful)
    (hfly : Flight messages receiver outgoing acknowledgements base message sequence remaining) :
    readAs messages .ack acknowledgements = .error .io ∨
      (readAs messages .ack acknowledgements = .ok (.ack sequence, []) ∧
        Quiet receiver outgoing [] (base ++ [message])) := by
  cases hfly with
  | sending phase acks =>
    rw [acks]
    exact .inl rfl
  | held phase acks =>
    rw [acks]
    exact .inl rfl
  | queued phase acks =>
    rw [acks]
    exact .inl rfl
  | refused phase acks =>
    rw [acks]
    exact .inl rfl
  | acknowledged phase acks enqueued rest empty =>
    have hinit : acknowledgements <+: ackBytes sequence := by rw [acks]
    rcases readAs_ack_prefix hlaw hinit with hwts | hread
    · exact .inl hwts
    · exact .inr ⟨hread, rfl, enqueued, .inr ⟨phase, empty⟩⟩
  | stopped phase acks enqueued =>
    rcases readAs_ack_prefix hlaw acks with hwts | hread
    · exact .inl hwts
    · exact .inr ⟨hread, rfl, enqueued, .inl phase⟩

end Link

/-- A call is in its exchange. -/
def SendPhase.Exchanging : SendPhase → Prop
  | .writing _ _ | .awaiting _ => True
  | _ => False

/-- A call has not yet begun its exchange. -/
def SendPhase.Waiting : SendPhase → Prop
  | .called | .queued | .admitted | .locking => True
  | _ => False

namespace Channel

def phaseOf (channel : Channel) (id : ℕ) : Option SendPhase :=
  (channel.calls id).map SendCall.phase

def messagesOf (channel : Channel) (ids : List ℕ) : List Message :=
  ids.filterMap fun id => (channel.calls id).map SendCall.message

/-- The phase of a call that exchanges a message. -/
def exchangePhase (sequence : UInt64) (remaining : List UInt8) : SendPhase :=
  if remaining = [] then .awaiting sequence else .writing sequence remaining

/-- Nothing is exchanged, an exchange is under way, or one has failed. -/
inductive Progress (messages : MessageEncoding) (channel : Channel) : Prop where
  | idle (accepted : ∀ id ∈ channel.exchanges, channel.phaseOf id = some (.returned .ok))
      (free : channel.holder = none)
      (resting : ∀ id phase, channel.phaseOf id = some phase → ¬ phase.Exchanging)
      (quiet : Quiet channel.receiver channel.outgoing channel.acknowledgements
        (channel.messagesOf channel.exchanges))
  | active (before : List ℕ) (id : ℕ) (message : Message) (sequence : UInt64)
      (remaining : List UInt8) (exchanges : channel.exchanges = before ++ [id])
      (accepted : ∀ id ∈ before, channel.phaseOf id = some (.returned .ok))
      (call : channel.calls id = some ⟨message, exchangePhase sequence remaining⟩)
      (held : channel.holder = some id) (stream : channel.stream = true)
      (resting : ∀ other phase, channel.phaseOf other = some phase → phase.Exchanging →
        other = id)
      (flight : Flight messages channel.receiver channel.outgoing channel.acknowledgements
        (channel.messagesOf before) message sequence remaining)
  | dead (before : List ℕ) (id : ℕ) (call : SendCall)
      (exchanges : channel.exchanges = before ++ [id])
      (accepted : ∀ id ∈ before, channel.phaseOf id = some (.returned .ok))
      (found : channel.calls id = some call)
      (failed : call.phase = .returned .failed ∨ call.phase = .dropped)
      (free : channel.holder = none) (closed : channel.closed = true)
      (stream : channel.stream = false)
      (resting : ∀ id phase, channel.phaseOf id = some phase → ¬ phase.Exchanging)
      (flight : Quiet channel.receiver channel.outgoing channel.acknowledgements
          (channel.messagesOf before) ∨
        ∃ sequence remaining, Flight messages channel.receiver channel.outgoing
          channel.acknowledgements (channel.messagesOf before) call.message sequence remaining)

/-- The invariant of a channel. -/
structure Sound (messages : MessageEncoding) (channel : Channel) : Prop where
  progress : Progress messages channel
  nodup : channel.exchanges.Nodup
  returned : ∀ id, channel.phaseOf id = some (.returned .ok) → id ∈ channel.exchanges

theorem sound_start (messages : MessageEncoding) : Sound messages ({} : Channel) := by
  refine ⟨.idle ?_ rfl ?_ ⟨rfl, rfl, .inr ⟨rfl, rfl⟩⟩, nodup_nil, ?_⟩
  · exact forall_mem_nil _
  · intro id phase hp
    cases hp
  · intro id hp
    cases hp

section Steps

variable {messages : MessageEncoding} {channel next : Channel}

theorem messagesOf_congr {other : Channel} {ids : List ℕ}
    (hcls : ∀ id ∈ ids, other.calls id = channel.calls id) :
    other.messagesOf ids = channel.messagesOf ids := by
  apply filterMap_congr
  intro id hid
  rw [hcls id hid]

theorem messagesOf_concat {before : List ℕ} {id : ℕ} {call : SendCall}
    (hc : channel.calls id = some call) :
    channel.messagesOf (before ++ [id]) = channel.messagesOf before ++ [call.message] := by
  simp only [messagesOf, filterMap_append, filterMap_cons, filterMap_nil, hc, Option.map_some]

theorem mem_of_before {before : List ℕ} {last : ℕ}
    (hexs : channel.exchanges = before ++ [last]) {id : ℕ} (hm : id ∈ before) :
    id ∈ channel.exchanges := by
  rw [hexs]
  exact mem_append_left _ hm

theorem mem_of_last {before : List ℕ} {last : ℕ}
    (hexs : channel.exchanges = before ++ [last]) :
    last ∈ channel.exchanges := by
  rw [hexs]
  exact mem_append_right _ (mem_singleton_self last)

theorem Progress.notMem_of_waiting (hpro : Progress messages channel) {id : ℕ}
    (hwai : ∀ phase, channel.phaseOf id = some phase → phase.Waiting) :
    id ∉ channel.exchanges := by
  have hret : ∀ ids : List ℕ,
      (∀ other ∈ ids, channel.phaseOf other = some (.returned .ok)) → id ∉ ids := by
    intro ids hacc hm
    exact hwai _ (hacc id hm)
  cases hpro with
  | idle accepted => exact hret _ accepted
  | active before last message sequence remaining exchanges accepted call =>
    rw [exchanges, mem_append, mem_singleton]
    rintro (hm | rfl)
    · exact hret before accepted hm
    · have hp : channel.phaseOf id = some (exchangePhase sequence remaining) := by
        rw [phaseOf, call]
        rfl
      have hwait := hwai _ hp
      rw [exchangePhase] at hwait
      split at hwait
      · exact hwait
      · exact hwait
  | dead before last call exchanges accepted found failed =>
    rw [exchanges, mem_append, mem_singleton]
    rintro (hm | rfl)
    · exact hret before accepted hm
    · have hp : channel.phaseOf id = some call.phase := by
        rw [phaseOf, found]
        rfl
      have hwait := hwai _ hp
      rcases failed with hfail | hfail
      · rw [hfail] at hwait
        exact hwait
      · rw [hfail] at hwait
        exact hwait

/-- The steps that leave the exchange alone. -/
structure Aside (channel next : Channel) (id : ℕ) : Prop where
  waiting : ∀ phase, channel.phaseOf id = some phase → phase.Waiting
  others : ∀ other, other ≠ id → next.calls other = channel.calls other
  resting : ∀ phase, next.phaseOf id = some phase → ¬ phase.Exchanging ∧ phase ≠ .returned .ok
  exchanges : next.exchanges = channel.exchanges
  holder : next.holder = channel.holder
  stream : next.stream = channel.stream
  closed : channel.closed = true → next.closed = true
  receiver : next.receiver = channel.receiver
  outgoing : next.outgoing = channel.outgoing
  acknowledgements : next.acknowledgements = channel.acknowledgements

theorem phaseOf_congr {other : Channel} {id : ℕ} (hcls : other.calls id = channel.calls id) :
    other.phaseOf id = channel.phaseOf id := by
  rw [phaseOf, hcls, phaseOf]

theorem Sound.aside (hs : Sound messages channel) {id : ℕ}
    (hasi : Aside channel next id) : Sound messages next := by
  have hnot := hs.progress.notMem_of_waiting hasi.waiting
  have hcls : ∀ other ∈ channel.exchanges, next.calls other = channel.calls other := by
    intro other hm
    apply hasi.others
    rintro rfl
    exact hnot hm
  have hphs : ∀ ids : List ℕ, (∀ other ∈ ids, other ∈ channel.exchanges) →
      (∀ other ∈ ids, channel.phaseOf other = some (.returned .ok)) →
      ∀ other ∈ ids, next.phaseOf other = some (.returned .ok) := by
    intro ids hids hacc other hm
    rw [phaseOf_congr (hcls other (hids other hm))]
    exact hacc other hm
  have hres : (∀ other phase, channel.phaseOf other = some phase → ¬ phase.Exchanging) →
      ∀ other phase, next.phaseOf other = some phase → ¬ phase.Exchanging := by
    intro hrest other phase hp
    by_cases hid : other = id
    · rw [hid] at hp
      exact (hasi.resting phase hp).1
    · rw [phaseOf_congr (hasi.others other hid)] at hp
      exact hrest other phase hp
  refine ⟨?_, ?_, ?_⟩
  · cases hs.progress with
    | idle accepted free resting quiet =>
      refine .idle ?_ (hasi.holder.trans free) (hres resting) ?_
      · rw [hasi.exchanges]
        exact hphs _ (fun other ho => ho) accepted
      · rw [hasi.exchanges, messagesOf_congr hcls, hasi.receiver, hasi.outgoing,
          hasi.acknowledgements]
        exact quiet
    | active before last message sequence remaining exchanges accepted call held stream resting
        flight =>
        have hpre : ∀ other ∈ before, other ∈ channel.exchanges :=
          fun other hm => mem_of_before exchanges hm
        have hlast := mem_of_last exchanges
        refine .active before last message sequence remaining (hasi.exchanges.trans exchanges)
          (hphs before hpre accepted) ((hcls last hlast).trans call)
          (hasi.holder.trans held) (hasi.stream.trans stream) ?_ ?_
        · intro other phase hp hexch
          by_cases hid : other = id
          · rw [hid] at hp
            exact absurd hexch (hasi.resting phase hp).1
          · rw [phaseOf_congr (hasi.others other hid)] at hp
            exact resting other phase hp hexch
        · rw [messagesOf_congr fun other ho => hcls other (hpre other ho),
            hasi.receiver, hasi.outgoing, hasi.acknowledgements]
          exact flight
    | dead before last call exchanges accepted found failed free closed stream resting flight =>
      have hpre : ∀ other ∈ before, other ∈ channel.exchanges :=
        fun other hm => mem_of_before exchanges hm
      have hlast := mem_of_last exchanges
      refine .dead before last call (hasi.exchanges.trans exchanges)
        (hphs before hpre accepted) ((hcls last hlast).trans found) failed
        (hasi.holder.trans free) (hasi.closed closed) (hasi.stream.trans stream)
        (hres resting) ?_
      rw [messagesOf_congr fun other ho => hcls other (hpre other ho),
        hasi.receiver, hasi.outgoing, hasi.acknowledgements]
      exact flight
  · rw [hasi.exchanges]
    exact hs.nodup
  · intro other hp
    rw [hasi.exchanges]
    by_cases hid : other = id
    · rw [hid] at hp
      exact absurd rfl (hasi.resting _ hp).2
    · rw [phaseOf_congr (hasi.others other hid)] at hp
      exact hs.returned other hp

/-! ### The receiver -/

theorem Sound.link (hs : Sound messages channel) {receiver : Receiver}
    {outgoing acknowledgements : List UInt8}
    (hqui : ∀ base, Quiet channel.receiver channel.outgoing channel.acknowledgements base →
      Quiet receiver outgoing acknowledgements base)
    (hfly : ∀ base message sequence remaining,
      Flight messages channel.receiver channel.outgoing channel.acknowledgements base message
        sequence remaining →
      Flight messages receiver outgoing acknowledgements base message sequence remaining) :
    Sound messages { channel with receiver, outgoing, acknowledgements } := by
  refine ⟨?_, hs.nodup, hs.returned⟩
  cases hs.progress with
  | idle accepted free resting quiet => exact .idle accepted free resting (hqui _ quiet)
  | active before id message sequence remaining exchanges accepted call held stream resting
      flight =>
      exact .active before id message sequence remaining exchanges accepted call held stream
        resting (hfly _ _ _ _ flight)
  | dead before id call exchanges accepted found failed free closed stream resting flight =>
    refine .dead before id call exchanges accepted found failed free closed stream resting ?_
    rcases flight with quiet | ⟨sequence, remaining, flight⟩
    · exact .inl (hqui _ quiet)
    · exact .inr ⟨sequence, remaining, hfly _ _ _ _ flight⟩

theorem Sound.deliver (hs : Sound messages channel) (count : ℕ) :
    Sound messages { channel with
      outgoing := channel.outgoing.drop count
      receiver := { channel.receiver with
        buffer := channel.receiver.buffer ++ channel.outgoing.take count } } :=
  hs.link (fun _ quiet => quiet.deliver count) fun _ _ _ _ flight => flight.deliver count

theorem Sound.stop (hs : Sound messages channel) :
    Sound messages { channel with receiver := { channel.receiver with phase := .stopped } } :=
  hs.link (fun _ quiet => quiet.stop) fun _ _ _ _ flight => flight.stop

theorem Sound.receive (hlaw : messages.Lawful) (hs : Sound messages channel)
    (hstep : channel.receive messages = some next) : Sound messages next := by
  unfold Channel.receive at hstep
  split at hstep
  · rename_i hrdg
    split at hstep
    · cases hstep
    · rename_i sequence message rest hread
      cases hstep
      apply hs.link
      · intro base quiet
        rcases quiet.phase with hstop | ⟨-, hemp⟩
        · cases hrdg.symm.trans hstop
        · rw [(append_eq_nil_iff.mp hemp).1] at hread
          cases hread
      · intro base sent number remaining flight
        rcases flight.read hlaw hrdg with hwts | ⟨hread', hrest, hout, hacks, hque⟩
        · cases hread.symm.trans hwts
        · cases hread.symm.trans hread'
          refine .held rfl hacks hque hrest ?_
          rw [hout]
          rfl
    · cases hstep
      exact hs.stop
  · cases hstep

theorem Sound.enqueue (hs : Sound messages channel) (hstep : channel.enqueue = some next) :
    Sound messages next := by
  unfold Channel.enqueue at hstep
  split at hstep
  · rename_i sequence message hhold
    cases hstep
    apply hs.link
    · intro base quiet
      exact absurd hhold quiet.not_holding
    · intro base sent number remaining flight
      exact flight.enqueue hhold
  · cases hstep

theorem Sound.confirm (hs : Sound messages channel) {broken : Option ℕ}
    (hstep : channel.confirm messages broken = some next) : Sound messages next := by
  unfold Channel.confirm at hstep
  split at hstep
  · rename_i sequence hack
    rw [write_ack] at hstep
    dsimp only at hstep
    split at hstep
    · cases hstep
      apply hs.link
      · intro base quiet
        exact absurd hack quiet.not_acknowledging
      · intro base sent number remaining flight
        obtain ⟨rfl, acks, enqueued, rest, empty⟩ := flight.of_acknowledging hack
        refine .acknowledged rfl ?_ enqueued rest empty
        rw [acks]
        rfl
    · cases hstep
      apply hs.link
      · intro base quiet
        exact absurd hack quiet.not_acknowledging
      · intro base sent number remaining flight
        obtain ⟨rfl, acks, enqueued, rest, empty⟩ := flight.of_acknowledging hack
        refine .stopped rfl ?_ enqueued
        rw [acks]
        exact take_prefix _ _
  · cases hstep

/-! ### The sender -/

theorem calls_move_self (channel : Channel) (id : ℕ) (call : SendCall) (phase : SendPhase) :
    (channel.move id call phase).calls id = some { call with phase } :=
  update_self ..

theorem calls_move_of_ne (channel : Channel) {id other : ℕ} (call : SendCall) (phase : SendPhase)
    (ho : other ≠ id) : (channel.move id call phase).calls other = channel.calls other :=
  update_of_ne ho ..

theorem phaseOf_of_calls {id : ℕ} {call : SendCall} (hc : channel.calls id = some call) :
    channel.phaseOf id = some call.phase := by
  rw [phaseOf, hc]
  rfl

theorem aside_move {id : ℕ} {call : SendCall} (hc : channel.calls id = some call)
    (hwai : call.phase.Waiting) {phase : SendPhase} (hres : ¬ phase.Exchanging)
    (ho : phase ≠ .returned .ok) (permits : ℕ) :
    Aside channel { channel.move id call phase with permits } id where
  waiting := by
    intro found hf
    cases (phaseOf_of_calls hc).symm.trans hf
    exact hwai
  others := by
    intro other hne
    exact calls_move_of_ne channel call phase hne
  resting := by
    intro found hf
    cases (phaseOf_of_calls (calls_move_self channel id call phase)).symm.trans hf
    exact ⟨hres, ho⟩
  exchanges := rfl
  holder := rfl
  stream := rfl
  closed := fun hcl => hcl
  receiver := rfl
  outgoing := rfl
  acknowledgements := rfl

theorem Sound.call (hs : Sound messages channel) {id : ℕ} (hfrs : channel.calls id = none)
    (message : Message) :
    Sound messages { channel with
      calls := Function.update channel.calls id (some { message }) } := by
  apply hs.aside
  constructor
  case waiting =>
    intro phase hp
    rw [phaseOf, hfrs] at hp
    cases hp
  case others =>
    intro other hne
    exact update_of_ne hne ..
  case resting =>
    intro phase hp
    have hc : (channel.move id { message } .called).calls id = some { message } :=
      calls_move_self channel id { message } .called
    cases (phaseOf_of_calls hc).symm.trans hp
    exact ⟨fun hexch => hexch, SendPhase.noConfusion⟩
  all_goals first | rfl | exact fun hcl => hcl

/-- An open channel without a lock holder is idle. -/
theorem Sound.begin (hs : Sound messages channel) {id : ℕ} {call : SendCall}
    (hc : channel.calls id = some call) (hwai : call.phase.Waiting)
    (hfree : channel.holder = none) (hopen : channel.closed = false)
    (hstr : channel.stream = true) : Sound messages (channel.begin messages id call) := by
  have hnot : id ∉ channel.exchanges := by
    apply hs.progress.notMem_of_waiting
    intro phase hp
    cases (phaseOf_of_calls hc).symm.trans hp
    exact hwai
  have hots : ∀ phase, ∀ other ∈ channel.exchanges,
      (channel.move id call phase).calls other = channel.calls other := by
    intro phase other hm
    apply calls_move_of_ne
    rintro rfl
    exact hnot hm
  have hnd : (channel.exchanges ++ [id]).Nodup := nodup_append.mpr ⟨hs.nodup, nodup_singleton id, by
      intro other hm found hf
      rw [mem_singleton.mp hf]
      rintro rfl
      exact hnot hm⟩
  have hret : ∀ phase, phase ≠ .returned .ok → ∀ other,
      (channel.move id call phase).phaseOf other = some (.returned .ok) →
        other ∈ channel.exchanges ++ [id] := by
    intro phase hne other hp
    by_cases ho : other = id
    · rw [ho]
      exact mem_append_right _ (mem_singleton_self id)
    · rw [phaseOf_congr (calls_move_of_ne channel call phase ho)] at hp
      exact mem_append_left _ (hs.returned other hp)
  cases hs.progress with
  | active before last message sequence remaining exchanges accepted found held =>
    cases hfree.symm.trans held
  | dead before last dead exchanges accepted found failed free closed =>
    cases hopen.symm.trans closed
  | idle accepted free resting quiet =>
    have hacc : ∀ phase, ∀ other ∈ channel.exchanges,
        (channel.move id call phase).phaseOf other = some (.returned .ok) := by
      intro phase other hm
      rw [phaseOf_congr (hots phase other hm)]
      exact accepted other hm
    unfold Channel.begin
    split
    · -- the message cannot be encoded into a frame, and nothing is written
      refine ⟨?_, hnd, hret _ (by decide)⟩
      refine .dead channel.exchanges id { call with phase := .returned .failed } rfl
        (hacc _) (calls_move_self channel id call _) (.inl rfl) rfl rfl rfl ?_ (.inl ?_)
      · intro other phase hp
        by_cases ho : other = id
        · rw [ho] at hp
          cases (phaseOf_of_calls (calls_move_self channel id call _)).symm.trans hp
          exact fun hexch => hexch
        · have hsm := phaseOf_congr (calls_move_of_ne channel call (.returned .failed) ho)
          exact resting other phase (hsm.symm.trans hp)
      · change Quiet channel.receiver channel.outgoing channel.acknowledgements
          ((channel.move id call (.returned .failed)).messagesOf channel.exchanges)
        rw [messagesOf_congr (hots (.returned .failed))]
        exact quiet
    · rename_i bytes hwrt
      have hbyt : bytes ≠ [] := by
        rw [Frame.write_eq, writeFrame_eq_ok] at hwrt
        rw [hwrt.2]
        exact cons_ne_nil _ _
      refine ⟨?_, hnd, hret _ SendPhase.noConfusion⟩
      refine .active channel.exchanges id call.message channel.nextSequence bytes rfl
        (hacc _) ?_ rfl hstr ?_ ?_
      · rw [exchangePhase, if_neg hbyt]
        exact calls_move_self channel id call _
      · intro other phase hp hexch
        by_contra ho
        have hsm := phaseOf_congr (calls_move_of_ne channel call
          (.writing channel.nextSequence bytes) ho)
        exact resting other phase (hsm.symm.trans hp) hexch
      · change Flight messages channel.receiver channel.outgoing channel.acknowledgements
          ((channel.move id call (.writing channel.nextSequence bytes)).messagesOf
            channel.exchanges) call.message channel.nextSequence bytes
        rw [messagesOf_congr (hots (.writing channel.nextSequence bytes))]
        rcases quiet.phase with hstop | ⟨hrdg, hemp⟩
        · exact .refused hstop quiet.acknowledgements quiet.enqueued
        · refine .sending hrdg quiet.acknowledgements quiet.enqueued ?_
          rw [← append_assoc, hemp, hwrt]
          rfl

theorem Sound.advance (hs : Sound messages channel) {id : ℕ}
    (hstep : channel.advance messages id = some next) : Sound messages next := by
  unfold Channel.advance at hstep
  split at hstep
  · cases hstep
  · rename_i call hc
    have hmove : call.phase.Waiting → ∀ phase permits, ¬ phase.Exchanging → phase ≠ .returned .ok →
          Sound messages { channel.move id call phase with permits } := by
      intro hwai phase permits hres ho
      exact hs.aside (aside_move hc hwai hres ho permits)
    split at hstep
    · rename_i hp
      have hwai : call.phase.Waiting := by rw [hp]; trivial
      split at hstep
      · cases hstep
        exact hmove hwai _ channel.permits (fun h => h) (by decide)
      · cases hstep
        exact hmove hwai _ channel.permits (fun h => h) (by decide)
    · rename_i hp
      have hwai : call.phase.Waiting := by rw [hp]; trivial
      split at hstep
      · cases hstep
        exact hmove hwai _ channel.permits (fun h => h) (by decide)
      · split at hstep
        · cases hstep
        · cases hstep
          exact hmove hwai _ _ (fun h => h) (by decide)
    · rename_i hp
      have hwai : call.phase.Waiting := by rw [hp]; trivial
      split at hstep
      · cases hstep
        exact hmove hwai _ _ (fun h => h) (by decide)
      · cases hstep
        exact hmove hwai _ channel.permits (fun h => h) (by decide)
    · rename_i hp
      have hwai : call.phase.Waiting := by rw [hp]; trivial
      split at hstep
      · cases hstep
      · rename_i hhold
        split at hstep
        · cases hstep
          exact hmove hwai _ _ (fun h => h) (by decide)
        · rename_i hopen
          cases hstep
          have hfree : channel.holder = none := by simpa using hhold
          have hfla : channel.closed = false ∧ channel.stream = true := by simpa using hopen
          exact hs.begin hc hwai hfree hfla.1 hfla.2
    · cases hstep

theorem Progress.of_exchanging (hpro : Progress messages channel) {id : ℕ} {call : SendCall}
    (hc : channel.calls id = some call) (hexch : call.phase.Exchanging) :
    ∃ before sequence remaining, channel.exchanges = before ++ [id] ∧
      (∀ other ∈ before, channel.phaseOf other = some (.returned .ok)) ∧
      call.phase = exchangePhase sequence remaining ∧ channel.holder = some id ∧
      channel.stream = true ∧
      (∀ other phase, channel.phaseOf other = some phase → phase.Exchanging → other = id) ∧
      Flight messages channel.receiver channel.outgoing channel.acknowledgements
        (channel.messagesOf before) call.message sequence remaining := by
  have hp := phaseOf_of_calls hc
  cases hpro with
  | idle accepted free resting quiet => exact absurd hexch (resting id _ hp)
  | dead before last dead exchanges accepted found failed free closed stream resting flight =>
    exact absurd hexch (resting id _ hp)
  | active before last message sequence remaining exchanges accepted found held stream resting
      flight =>
      cases resting id _ hp hexch
      cases found.symm.trans hc
      exact ⟨before, sequence, remaining, exchanges, accepted, rfl, held, stream, resting, flight⟩

theorem Sound.calls_before (hs : Sound messages channel) {before : List ℕ} {id : ℕ}
    (hexs : channel.exchanges = before ++ [id]) (call : SendCall) (phase : SendPhase) :
    ∀ other ∈ before, (channel.move id call phase).calls other = channel.calls other := by
  intro other hm
  apply calls_move_of_ne
  have hnd := hs.nodup
  rw [hexs] at hnd
  exact (nodup_append.mp hnd).2.2 other hm id (mem_singleton_self id)

theorem Sound.returned_move (hs : Sound messages channel) {id : ℕ}
    (hm : id ∈ channel.exchanges) (call : SendCall) (phase : SendPhase) :
    ∀ other, (channel.move id call phase).phaseOf other = some (.returned .ok) →
      other ∈ channel.exchanges := by
  intro other hp
  by_cases ho : other = id
  · rw [ho]
    exact hm
  · rw [phaseOf_congr (calls_move_of_ne channel call phase ho)] at hp
    exact hs.returned other hp

theorem resting_move {id : ℕ} {call : SendCall} {phase : SendPhase}
    (hres : ∀ other phase, channel.phaseOf other = some phase → phase.Exchanging → other = id)
    (hp : ¬ phase.Exchanging) :
    ∀ other found, (channel.move id call phase).phaseOf other = some found →
      ¬ found.Exchanging := by
  intro other found hf
  by_cases ho : other = id
  · rw [ho] at hf
    cases (phaseOf_of_calls (calls_move_self channel id call phase)).symm.trans hf
    exact hp
  · rw [phaseOf_congr (calls_move_of_ne channel call phase ho)] at hf
    exact fun hexch => ho (hres other found hf hexch)

theorem Sound.poison (hs : Sound messages channel) {id : ℕ} {call : SendCall}
    (hc : channel.calls id = some call) (hexch : call.phase.Exchanging)
    {phase : SendPhase} (hp : phase = .returned .failed ∨ phase = .dropped) :
    Sound messages (channel.move id call phase).poison := by
  obtain ⟨before, sequence, remaining, hexs, hacc, -, -, -, hres, hfly⟩ :=
    hs.progress.of_exchanging hc hexch
  have hpre := hs.calls_before hexs call phase
  have hm := mem_of_last hexs
  refine ⟨?_, hs.nodup, hs.returned_move hm call phase⟩
  refine .dead before id { call with phase } hexs ?_ (calls_move_self channel id call phase)
    hp rfl rfl rfl (resting_move hres ?_) (.inr ⟨sequence, remaining, ?_⟩)
  · intro other ho
    exact (phaseOf_congr (hpre other ho)).trans (hacc other ho)
  · rcases hp with rfl | rfl
    · exact fun h => h
    · exact fun h => h
  · change Flight messages channel.receiver channel.outgoing channel.acknowledgements
      ((channel.move id call phase).messagesOf before) call.message sequence remaining
    rw [messagesOf_congr hpre]
    exact hfly

theorem exchanging_exchangePhase (sequence : UInt64) (remaining : List UInt8) :
    (exchangePhase sequence remaining).Exchanging := by
  rw [exchangePhase]
  split
  · exact trivial
  · exact trivial

theorem Sound.write (hs : Sound messages channel) {id count : ℕ}
    (hstep : channel.write id count = some next) : Sound messages next := by
  unfold Channel.write at hstep
  split at hstep
  · cases hstep
  · rename_i call hc
    split at hstep
    · rename_i sequence remaining hp
      cases hstep
      have hexch : call.phase.Exchanging := by rw [hp]; trivial
      obtain ⟨before, number, rest, hexs, hacc, hf, hheld, hstr, hres,
        hfly⟩ := hs.progress.of_exchanging hc hexch
      have hsm : rest ≠ [] ∧ number = sequence ∧ rest = remaining := by
        rw [hp, exchangePhase] at hf
        split at hf
        · cases hf
        · rename_i hrest
          cases hf
          exact ⟨hrest, rfl, rfl⟩
      obtain ⟨hrest, rfl, rfl⟩ := hsm
      have hpre := hs.calls_before hexs call
        (exchangePhase number (rest.drop count))
      have hm := mem_of_last hexs
      refine ⟨?_, hs.nodup, hs.returned_move hm call _⟩
      refine .active before id call.message number (rest.drop count) hexs ?_
        (calls_move_self channel id call _) hheld hstr ?_ ?_
      · intro other ho
        exact (phaseOf_congr (hpre other ho)).trans (hacc other ho)
      · intro other found hphase' hexchanging'
        by_contra ho
        have hold := phaseOf_congr (calls_move_of_ne channel call
          (exchangePhase number (rest.drop count)) ho)
        exact ho (hres other found (hold.symm.trans hphase') hexchanging')
      · change Flight messages channel.receiver (channel.outgoing ++ rest.take count)
          channel.acknowledgements
          ((channel.move id call (exchangePhase number (rest.drop count))).messagesOf before)
          call.message number (rest.drop count)
        rw [messagesOf_congr hpre]
        cases hfly with
        | sending phase acks enqueued bytes =>
          refine .sending phase acks enqueued ?_
          rw [append_assoc, take_append_drop]
          exact bytes
        | held phase acks enqueued hnil => exact absurd hnil hrest
        | queued phase acks enqueued hnil => exact absurd hnil hrest
        | acknowledged phase acks enqueued hnil => exact absurd hnil hrest
        | refused phase acks enqueued => exact .refused phase acks enqueued
        | stopped phase acks enqueued => exact .stopped phase acks enqueued
    · cases hstep

theorem Sound.acknowledge (hlaw : messages.Lawful) (hs : Sound messages channel) {id : ℕ}
    (hstep : channel.acknowledge messages id = some next) : Sound messages next := by
  unfold Channel.acknowledge at hstep
  split at hstep
  · cases hstep
  · rename_i call hc
    split at hstep
    · rename_i sequence hp
      have hexch : call.phase.Exchanging := by rw [hp]; trivial
      obtain ⟨before, number, rest, hexs, hacc, hf, hheld, hstream, hres,
        hfly⟩ := hs.progress.of_exchanging hc hexch
      have hsm : number = sequence := by
        rw [hp, exchangePhase] at hf
        split at hf
        · cases hf
          rfl
        · cases hf
      rcases hfly.acknowledges hlaw with hwts | ⟨hread, hqui⟩
      · rw [hwts] at hstep
        cases hstep
      · rw [hread] at hstep
        dsimp only at hstep
        rw [if_pos hsm] at hstep
        cases hstep
        have hpre := hs.calls_before hexs call (.returned .ok)
        have hself := calls_move_self channel id call (.returned .ok)
        have hm := mem_of_last hexs
        refine ⟨?_, hs.nodup, hs.returned_move hm call _⟩
        refine .idle ?_ rfl (resting_move hres fun h => h) ?_
        · intro other ho
          change other ∈ channel.exchanges at ho
          rw [hexs, mem_append, mem_singleton] at ho
          rcases ho with ho | rfl
          · exact (phaseOf_congr (hpre other ho)).trans (hacc other ho)
          · exact phaseOf_of_calls hself
        · change Quiet channel.receiver channel.outgoing []
            ((channel.move id call (.returned .ok)).messagesOf channel.exchanges)
          rw [hexs, messagesOf_concat hself, messagesOf_congr hpre]
          exact hqui
    · cases hstep

theorem Sound.fail (hs : Sound messages channel) {id : ℕ}
    (hstep : channel.fail id = some next) : Sound messages next := by
  unfold Channel.fail at hstep
  split at hstep
  · cases hstep
  · rename_i call hc
    split at hstep
    · rename_i hp
      cases hstep
      exact hs.poison hc (by rw [hp]; trivial) (.inl rfl)
    · rename_i hp
      cases hstep
      exact hs.poison hc (by rw [hp]; trivial) (.inl rfl)
    · cases hstep

theorem Sound.drop (hs : Sound messages channel) {id : ℕ}
    (hstep : channel.drop id = some next) : Sound messages next := by
  unfold Channel.drop at hstep
  split at hstep
  · cases hstep
  · rename_i call hc
    have hmove : call.phase.Waiting → ∀ permits,
        Sound messages { channel.move id call .dropped with permits } := by
      intro hwai permits
      have hdrp : ¬ SendPhase.Exchanging .dropped := fun h => h
      exact hs.aside (aside_move hc hwai hdrp (by decide) permits)
    split at hstep
    all_goals rename_i hp
    · cases hstep
      exact hmove (by rw [hp]; trivial) channel.permits
    · cases hstep
      exact hmove (by rw [hp]; trivial) channel.permits
    · cases hstep
      exact hmove (by rw [hp]; trivial) _
    · cases hstep
      exact hmove (by rw [hp]; trivial) _
    · cases hstep
      exact hs.poison hc (by rw [hp]; trivial) (.inr rfl)
    · cases hstep
      exact hs.poison hc (by rw [hp]; trivial) (.inr rfl)
    · cases hstep
    · cases hstep

theorem Sound.close (hs : Sound messages channel) :
    Sound messages { channel with closed := true, admissionsClosed := true } := by
  refine ⟨?_, hs.nodup, hs.returned⟩
  cases hs.progress with
  | idle accepted free resting quiet => exact .idle accepted free resting quiet
  | active before id message sequence remaining exchanges accepted call held stream resting
      flight =>
      exact .active before id message sequence remaining exchanges accepted call held stream
        resting flight
  | dead before id call exchanges accepted found failed free closed stream resting flight =>
    exact .dead before id call exchanges accepted found failed free rfl stream resting flight

theorem Sound.takeStream (hs : Sound messages channel) (hfree : channel.holder = none) :
    Sound messages { channel with stream := false } := by
  refine ⟨?_, hs.nodup, hs.returned⟩
  cases hs.progress with
  | idle accepted free resting quiet => exact .idle accepted free resting quiet
  | active before id message sequence remaining exchanges accepted call held =>
    cases hfree.symm.trans held
  | dead before id call exchanges accepted found failed free closed stream resting flight =>
    exact .dead before id call exchanges accepted found failed free closed rfl resting flight

theorem Sound.step (hlaw : messages.Lawful) (hs : Sound messages channel)
    {event : ChannelEvent} (hstep : channel.step messages event = some next) :
    Sound messages next := by
  cases event with
  | call id message =>
    rw [Channel.step] at hstep
    split at hstep
    · cases hstep
    · rename_i hfrs
      cases hstep
      exact hs.call (by simpa using hfrs) message
  | advance id => exact hs.advance hstep
  | write id count => exact hs.write hstep
  | acknowledge id => exact hs.acknowledge hlaw hstep
  | fail id => exact hs.fail hstep
  | drop id => exact hs.drop hstep
  | close =>
    cases hstep
    exact hs.close
  | takeStream =>
    rw [Channel.step] at hstep
    split at hstep
    · cases hstep
    · rename_i hfree
      cases hstep
      have hfla : channel.holder = none ∧ channel.closed = true := by simpa using hfree
      exact hs.takeStream hfla.1
  | deliver count =>
    cases hstep
    exact hs.deliver count
  | receive => exact hs.receive hlaw hstep
  | enqueue => exact hs.enqueue hstep
  | confirm broken => exact hs.confirm hstep
  | stop =>
    cases hstep
    exact hs.stop

end Steps

/-- The calls that returned `Ok`, in the order of their exchanges. -/
def accepted (channel : Channel) : List ℕ :=
  channel.exchanges.filter fun id => channel.phaseOf id = some (.returned .ok)

/-- The receiver has each accepted message once and at most one more. -/
structure Delivered (channel : Channel) : Prop where
  order : ∃ extra, channel.receiver.enqueued = channel.messagesOf channel.accepted ++ extra ∧
    (extra = [] ∨ ∃ id call, channel.exchanges.getLast? = some id ∧
      channel.calls id = some call ∧ call.phase ≠ .returned .ok ∧ extra = [call.message])
  once : channel.accepted.Nodup
  all : ∀ id, id ∈ channel.accepted ↔ channel.phaseOf id = some (.returned .ok)

section Results

variable {messages : MessageEncoding} {channel next : Channel}

theorem Flight.enqueued {receiver : Receiver} {outgoing acknowledgements remaining : List UInt8}
    {base : List Message} {message : Message} {sequence : UInt64}
    (hfly : Flight messages receiver outgoing acknowledgements base message sequence remaining) :
    receiver.enqueued = base ∨ receiver.enqueued = base ++ [message] := by
  cases hfly with
  | sending phase acks enqueued => exact .inl enqueued
  | held phase acks enqueued => exact .inl enqueued
  | queued phase acks enqueued => exact .inr enqueued
  | acknowledged phase acks enqueued => exact .inr enqueued
  | refused phase acks enqueued => exact .inl enqueued
  | stopped phase acks enqueued => exact .inr enqueued

theorem accepted_of_all {ids : List ℕ} (hexs : channel.exchanges = ids)
    (hacc : ∀ id ∈ ids, channel.phaseOf id = some (.returned .ok)) :
    channel.accepted = ids := by
  rw [accepted, hexs]
  apply filter_eq_self.mpr
  intro id hid
  exact decide_eq_true (hacc id hid)

theorem accepted_of_last {before : List ℕ} {id : ℕ} {call : SendCall}
    (hexs : channel.exchanges = before ++ [id])
    (hacc : ∀ other ∈ before, channel.phaseOf other = some (.returned .ok))
    (hc : channel.calls id = some call) (hp : call.phase ≠ .returned .ok) :
    channel.accepted = before := by
  have hlast : ¬ channel.phaseOf id = some (.returned .ok) := by
    rw [phaseOf_of_calls hc]
    exact fun hok => hp (Option.some_inj.mp hok)
  rw [accepted, hexs, filter_append, filter_cons_of_neg (by simpa using hlast),
    filter_nil, append_nil]
  apply filter_eq_self.mpr
  intro other ho
  exact decide_eq_true (hacc other ho)

theorem order_of_last {before : List ℕ} {id : ℕ} {call : SendCall}
    (hexs : channel.exchanges = before ++ [id])
    (hacc : ∀ other ∈ before, channel.phaseOf other = some (.returned .ok))
    (hc : channel.calls id = some call) (hp : call.phase ≠ .returned .ok)
    (henq : channel.receiver.enqueued = channel.messagesOf before ∨
      channel.receiver.enqueued = channel.messagesOf before ++ [call.message]) :
    ∃ extra, channel.receiver.enqueued = channel.messagesOf channel.accepted ++ extra ∧
      (extra = [] ∨ ∃ id call, channel.exchanges.getLast? = some id ∧
        channel.calls id = some call ∧ call.phase ≠ .returned .ok ∧ extra = [call.message]) := by
  rw [accepted_of_last hexs hacc hc hp]
  rcases henq with hbase | hext
  · refine ⟨[], ?_, .inl rfl⟩
    rw [append_nil]
    exact hbase
  · refine ⟨[call.message], hext, .inr ⟨id, call, ?_, hc, hp, rfl⟩⟩
    rw [hexs, getLast?_concat]

theorem Sound.delivered (hs : Sound messages channel) : Delivered channel := by
  refine ⟨?_, hs.nodup.filter _, ?_⟩
  · cases hs.progress with
    | idle hacc free resting quiet =>
      refine ⟨[], ?_, .inl rfl⟩
      rw [accepted_of_all rfl hacc, append_nil]
      exact quiet.enqueued
    | active before id message sequence remaining exchanges hacc call held stream resting
        flight =>
        refine order_of_last exchanges hacc call ?_ (Flight.enqueued flight)
        intro hok
        have hexch := exchanging_exchangePhase sequence remaining
        rw [show exchangePhase sequence remaining = .returned .ok from hok] at hexch
        exact hexch
    | dead before id call exchanges hacc found failed free closed stream resting flight =>
      have hp : call.phase ≠ .returned .ok := by
        rcases failed with hfail | hfail
        · rw [hfail]
          decide
        · rw [hfail]
          decide
      apply order_of_last exchanges hacc found hp
      rcases flight with quiet | ⟨sequence, remaining, flight⟩
      · exact .inl quiet.enqueued
      · exact Flight.enqueued flight
  · intro id
    rw [accepted, mem_filter, decide_eq_true_eq]
    exact and_iff_right_of_imp (hs.returned id)

/-- A call has failed or was dropped after its exchange began. -/
def Poisoned (channel : Channel) : Prop :=
  ∃ id ∈ channel.exchanges, channel.phaseOf id = some (.returned .failed) ∨
    channel.phaseOf id = some .dropped

/-- No exchange begins and nothing is written, and what returns, returns `Closed`. -/
structure After (channel next : Channel) : Prop where
  written : next.written = channel.written
  exchanges : next.exchanges = channel.exchanges
  returns : ∀ id result, next.phaseOf id = some (.returned result) →
    result = .closed ∨ channel.phaseOf id = some (.returned result)

theorem After.refl (channel : Channel) : After channel channel :=
  ⟨rfl, rfl, fun _ _ hp => .inr hp⟩

theorem After.trans {last : Channel} (hfst : After channel next) (hsnd : After next last) :
    After channel last := by
  refine ⟨hsnd.written.trans hfst.written, hsnd.exchanges.trans hfst.exchanges, ?_⟩
  intro id result hp
  rcases hsnd.returns id result hp with hcl | hpre
  · exact .inl hcl
  · exact hfst.returns id result hpre

theorem Sound.of_poisoned (hs : Sound messages channel) (hpois : channel.Poisoned) :
    channel.closed = true ∧ ∀ id phase, channel.phaseOf id = some phase → ¬ phase.Exchanging := by
  obtain ⟨id, hm, hp⟩ := hpois
  have hnot : channel.phaseOf id ≠ some (.returned .ok) := by
    rcases hp with hfail | hdrp
    · rw [hfail]
      decide
    · rw [hdrp]
      decide
  cases hs.progress with
  | idle accepted => exact absurd (accepted id hm) hnot
  | dead before last call exchanges accepted found failed free closed stream resting =>
    exact ⟨closed, resting⟩
  | active before last message sequence remaining exchanges accepted call =>
    rw [exchanges, mem_append, mem_singleton] at hm
    rcases hm with hm | rfl
    · exact absurd (accepted id hm) hnot
    · have hexch := exchanging_exchangePhase sequence remaining
      rw [phaseOf_of_calls call] at hp
      rcases hp with hfail | hdrp
      · have hsm : exchangePhase sequence remaining = .returned .failed := Option.some_inj.mp hfail
        rw [hsm] at hexch
        exact hexch.elim
      · have hsm : exchangePhase sequence remaining = .dropped := Option.some_inj.mp hdrp
        rw [hsm] at hexch
        exact hexch.elim

theorem after_of_same (hpois : channel.Poisoned) (hcls : next.calls = channel.calls)
    (hexs : next.exchanges = channel.exchanges) (hwro : next.written = channel.written) :
    After channel next ∧ next.Poisoned := by
  have hphs : ∀ id, next.phaseOf id = channel.phaseOf id :=
    fun id => phaseOf_congr (congrFun hcls id)
  refine ⟨⟨hwro, hexs, ?_⟩, ?_⟩
  · intro id result hp
    exact .inr ((hphs id).symm.trans hp)
  · obtain ⟨id, hm, hp⟩ := hpois
    refine ⟨id, ?_, ?_⟩
    · rw [hexs]
      exact hm
    · rw [hphs]
      exact hp

theorem after_move (hpois : channel.Poisoned) {id : ℕ} {phase : SendPhase} {message : Message}
    (hwai : ∀ found, channel.phaseOf id = some found → found.Waiting)
    (hcls : next.calls = Function.update channel.calls id (some ⟨message, phase⟩))
    (hexs : next.exchanges = channel.exchanges) (hwro : next.written = channel.written)
    (hp : ∀ result, phase = .returned result → result = .closed) :
    After channel next ∧ next.Poisoned := by
  have hots : ∀ other, other ≠ id → next.phaseOf other = channel.phaseOf other := by
    intro other ho
    apply phaseOf_congr
    rw [hcls]
    exact update_of_ne ho ..
  have hself : next.phaseOf id = some phase := by
    rw [phaseOf, hcls, update_self]
    rfl
  refine ⟨⟨hwro, hexs, ?_⟩, ?_⟩
  · intro other result hf
    by_cases ho : other = id
    · rw [ho, hself] at hf
      exact .inl (hp result (Option.some_inj.mp hf))
    · exact .inr ((hots other ho).symm.trans hf)
  · obtain ⟨other, hm, hfail⟩ := hpois
    have ho : other ≠ id := by
      rintro rfl
      rcases hfail with hfail | hdrp
      · exact hwai _ hfail
      · exact hwai _ hdrp
    refine ⟨other, ?_, ?_⟩
    · rw [hexs]
      exact hm
    · rw [hots other ho]
      exact hfail

theorem after_advance (hs : Sound messages channel) (hpois : channel.Poisoned) {id : ℕ}
    (hstep : channel.advance messages id = some next) : After channel next ∧ next.Poisoned := by
  obtain ⟨hcl, -⟩ := hs.of_poisoned hpois
  unfold Channel.advance at hstep
  split at hstep
  · cases hstep
  · rename_i call hc
    have hwai : call.phase.Waiting → ∀ found, channel.phaseOf id = some found → found.Waiting := by
      intro hwait found hf
      cases (phaseOf_of_calls hc).symm.trans hf
      exact hwait
    have hret : ∀ result, SendPhase.returned .closed = .returned result → result = .closed := by
      intro result hres
      cases hres
      rfl
    split at hstep
    all_goals rename_i hp
    · rw [if_pos hcl] at hstep
      cases hstep
      exact after_move hpois (hwai (by rw [hp]; trivial)) rfl rfl rfl hret
    · split at hstep
      · cases hstep
        exact after_move hpois (hwai (by rw [hp]; trivial)) rfl rfl rfl hret
      · split at hstep
        · cases hstep
        · cases hstep
          refine after_move hpois (hwai (by rw [hp]; trivial)) rfl rfl rfl ?_
          intro result hres
          cases hres
    · rw [if_pos hcl] at hstep
      cases hstep
      exact after_move hpois (hwai (by rw [hp]; trivial)) rfl rfl rfl hret
    · split at hstep
      · cases hstep
      · rw [if_pos (.inl hcl)] at hstep
        cases hstep
        exact after_move hpois (hwai (by rw [hp]; trivial)) rfl rfl rfl hret
    · cases hstep

theorem after_drop (hs : Sound messages channel) (hpois : channel.Poisoned) {id : ℕ}
    (hstep : channel.drop id = some next) : After channel next ∧ next.Poisoned := by
  obtain ⟨-, hrst⟩ := hs.of_poisoned hpois
  unfold Channel.drop at hstep
  split at hstep
  · cases hstep
  · rename_i call hc
    have hphs := phaseOf_of_calls hc
    have hwai : call.phase.Waiting → ∀ found, channel.phaseOf id = some found → found.Waiting := by
      intro hwait found hf
      cases hphs.symm.trans hf
      exact hwait
    have hdrp : ∀ result, SendPhase.dropped = .returned result → result = .closed := by
      intro result hres
      cases hres
    split at hstep
    all_goals rename_i hp
    · cases hstep
      exact after_move hpois (hwai (by rw [hp]; trivial)) rfl rfl rfl hdrp
    · cases hstep
      exact after_move hpois (hwai (by rw [hp]; trivial)) rfl rfl rfl hdrp
    · cases hstep
      exact after_move hpois (hwai (by rw [hp]; trivial)) rfl rfl rfl hdrp
    · cases hstep
      exact after_move hpois (hwai (by rw [hp]; trivial)) rfl rfl rfl hdrp
    · exact absurd (by rw [hp]; trivial) (hrst id _ hphs)
    · exact absurd (by rw [hp]; trivial) (hrst id _ hphs)
    · cases hstep
    · cases hstep

theorem exchanging_of_step {id count : ℕ}
    (hs : channel.write id count = some next ∨ channel.acknowledge messages id = some next ∨
      channel.fail id = some next) :
    ∃ phase, channel.phaseOf id = some phase ∧ phase.Exchanging := by
  unfold Channel.write Channel.acknowledge Channel.fail at hs
  cases hc : channel.calls id with
  | none =>
    rw [hc] at hs
    rcases hs with hs | hs | hs <;> cases hs
  | some call =>
    refine ⟨call.phase, phaseOf_of_calls hc, ?_⟩
    rw [hc] at hs
    cases hp : call.phase with
    | writing sequence remaining => exact trivial
    | awaiting sequence => exact trivial
    | called | queued | admitted | locking | returned result | dropped =>
      simp only [hp] at hs
      rcases hs with hs | hs | hs <;> cases hs

theorem same_of_receiver {broken : Option ℕ}
    (hs : channel.receive messages = some next ∨ channel.enqueue = some next ∨
      channel.confirm messages broken = some next) :
    next.calls = channel.calls ∧ next.exchanges = channel.exchanges ∧
      next.written = channel.written := by
  rcases hs with hs | hs | hs
  · unfold Channel.receive at hs
    split at hs
    · split at hs
      · cases hs
      · cases hs
        exact ⟨rfl, rfl, rfl⟩
      · cases hs
        exact ⟨rfl, rfl, rfl⟩
    · cases hs
  · unfold Channel.enqueue at hs
    split at hs
    · cases hs
      exact ⟨rfl, rfl, rfl⟩
    · cases hs
  · unfold Channel.confirm at hs
    split at hs
    · rw [write_ack] at hs
      dsimp only at hs
      split at hs
      · cases hs
        exact ⟨rfl, rfl, rfl⟩
      · cases hs
        exact ⟨rfl, rfl, rfl⟩
    · cases hs

theorem after_step (hs : Sound messages channel) (hpois : channel.Poisoned)
    {event : ChannelEvent} (hstep : channel.step messages event = some next) :
    After channel next ∧ next.Poisoned := by
  obtain ⟨-, hrst⟩ := hs.of_poisoned hpois
  cases event with
  | call id message =>
    rw [Channel.step] at hstep
    split at hstep
    · cases hstep
    · rename_i hfrs
      cases hstep
      have hnone : channel.calls id = none := by simpa using hfrs
      refine after_move hpois ?_ rfl rfl rfl ?_
      · intro found hf
        rw [phaseOf, hnone] at hf
        cases hf
      · intro result hres
        cases hres
  | advance id => exact after_advance hs hpois hstep
  | drop id => exact after_drop hs hpois hstep
  | write id count =>
    obtain ⟨phase, hp, hexch⟩ := @exchanging_of_step messages channel next id count (.inl hstep)
    exact absurd hexch (hrst id phase hp)
  | acknowledge id =>
    obtain ⟨phase, hp, hexch⟩ := @exchanging_of_step messages channel next id 0 (.inr (.inl hstep))
    exact absurd hexch (hrst id phase hp)
  | fail id =>
    obtain ⟨phase, hp, hexch⟩ := @exchanging_of_step messages channel next id 0 (.inr (.inr hstep))
    exact absurd hexch (hrst id phase hp)
  | close =>
    cases hstep
    exact after_of_same hpois rfl rfl rfl
  | takeStream =>
    rw [Channel.step] at hstep
    split at hstep
    · cases hstep
    · cases hstep
      exact after_of_same hpois rfl rfl rfl
  | deliver count =>
    cases hstep
    exact after_of_same hpois rfl rfl rfl
  | stop =>
    cases hstep
    exact after_of_same hpois rfl rfl rfl
  | receive =>
    obtain ⟨hcls, hexs, hwro⟩ := @same_of_receiver messages channel next none (.inl hstep)
    exact after_of_same hpois hcls hexs hwro
  | enqueue =>
    obtain ⟨hcls, hexs, hwro⟩ := @same_of_receiver messages channel next none (.inr (.inl hstep))
    exact after_of_same hpois hcls hexs hwro
  | confirm broken =>
    obtain ⟨hcls, hexs, hwro⟩ := @same_of_receiver messages channel next broken (.inr (.inr hstep))
    exact after_of_same hpois hcls hexs hwro

/-- What holds in every state after an exchange has failed in `start`. -/
structure StaysPoisoned (messages : MessageEncoding) (start channel : Channel) : Prop where
  sound : Sound messages channel
  poisoned : channel.Poisoned
  after : After start channel

theorem after_run (hlaw : messages.Lawful) (hs : Sound messages channel)
    (hpois : channel.Poisoned) {later : List ChannelEvent}
    (hrun : runSteps (Channel.step messages) channel later = some next) : After channel next := by
  have hbeg : StaysPoisoned messages channel channel := ⟨hs, hpois, After.refl channel⟩
  have hkept : ∀ state event following, StaysPoisoned messages channel state →
      state.step messages event = some following → StaysPoisoned messages channel following := by
    intro state event following hsta hstep
    obtain ⟨hmore, hfol⟩ := after_step hsta.sound hsta.poisoned hstep
    exact ⟨hsta.sound.step hlaw hstep, hfol, hsta.after.trans hmore⟩
  exact (invariant_of_run hbeg hkept hrun).after

/-- A call that is made on a closed channel returns `Closed` at once. -/
theorem closed_at_once (hcl : channel.closed = true) {id : ℕ}
    (hfrs : channel.calls id = none) (message : Message) :
    ∃ next, runSteps (Channel.step messages) channel [.call id message, .advance id] = some next ∧
      next.phaseOf id = some (.returned .closed) := by
  have hc : channel.step messages (.call id message) =
      some (channel.move id { message } .called) := by
    rw [Channel.step, hfrs]
    rfl
  have hself := calls_move_self channel id { message } .called
  have hadv : (channel.move id { message } .called).step messages (.advance id) =
      some ((channel.move id { message } .called).move id { message } (.returned .closed)) := by
    rw [Channel.step, Channel.advance, hself]
    exact if_pos hcl
  refine ⟨(channel.move id { message } .called).move id { message } (.returned .closed), ?_,
    phaseOf_of_calls (calls_move_self ..)⟩
  simp only [runSteps, foldlM_cons, foldlM_nil, hc, hadv, Option.bind_eq_bind,
    Option.bind_some, Option.pure_def]

end Results

end Channel

/-- The receiver has the accepted messages, and at most that of one more call. -/
theorem channel_delivers {messages : MessageEncoding} (hlawful : messages.Lawful)
    {events : List ChannelEvent} {channel : Channel}
    (hrun : runSteps (Channel.step messages) {} events = some channel) :
    channel.Delivered ∧ (channel.Poisoned →
      (∀ later next, runSteps (Channel.step messages) channel later = some next →
        channel.After next) ∧
      ∀ id message, channel.calls id = none →
        ∃ next, runSteps (Channel.step messages) channel [.call id message, .advance id] =
            some next ∧ next.phaseOf id = some (.returned .closed)) := by
  have hsound : Channel.Sound messages channel := by
    apply invariant_of_run (Channel.sound_start messages) _ hrun
    intro state event next hstate hstep
    exact hstate.step hlawful hstep
  refine ⟨hsound.delivered, ?_⟩
  intro hpoisoned
  constructor
  · intro later next hlater
    exact Channel.after_run hlawful hsound hpoisoned hlater
  · intro id message hfresh
    exact Channel.closed_at_once (hsound.of_poisoned hpoisoned).1 hfresh message

def tick : Message := ⟨[], 5, [1]⟩

/-- A call is made and writes its message. -/
def sendTick (id : ℕ) : List ChannelEvent :=
  [.call id tick, .advance id, .advance id, .advance id, .advance id, .write id 100]

/-- A call is dropped before the acknowledgement of its message. -/
def droppedSecond : List ChannelEvent :=
  sendTick 0 ++ [ChannelEvent.deliver 100, ChannelEvent.receive, ChannelEvent.enqueue,
      ChannelEvent.confirm none, ChannelEvent.acknowledge 0] ++
    sendTick 1 ++ [ChannelEvent.drop 1, ChannelEvent.deliver 100, ChannelEvent.receive,
      ChannelEvent.enqueue]

theorem droppedSecond_tested :
    (runSteps (Channel.step protoMessages) {} droppedSecond).any (fun channel =>
      decide (channel.receiver.enqueued = [tick, tick]) && decide (channel.accepted = [0]) &&
        decide (1 ∈ channel.exchanges) && decide (channel.phaseOf 1 = some .dropped) &&
        (channel.calls 2).isNone) = true := by
  decide +kernel

/-- Both messages are enqueued, one call is accepted, and a third call is refused. -/
theorem channel_delivers_dropped_second :
    ∃ channel, runSteps (Channel.step protoMessages) {} droppedSecond = some channel ∧
      channel.receiver.enqueued = [tick, tick] ∧ channel.accepted = [0] ∧ channel.Delivered ∧
      ∃ next, runSteps (Channel.step protoMessages) channel [.call 2 tick, .advance 2] =
        some next ∧ next.phaseOf 2 = some (.returned .closed) := by
  obtain ⟨channel, hrun, htested⟩ := (Option.any_eq_true _ _).mp droppedSecond_tested
  simp only [Bool.and_eq_true, decide_eq_true_eq, Option.isNone_iff_eq_none] at htested
  obtain ⟨⟨⟨⟨henqueued, haccepted⟩, hexchange⟩, hdropped⟩, hfresh⟩ := htested
  obtain ⟨hdelivered, hafter⟩ := channel_delivers protoMessages_lawful hrun
  exact ⟨channel, hrun, henqueued, haccepted, hdelivered,
    (hafter ⟨1, hexchange, .inr hdropped⟩).2 2 tick hfresh⟩

end AukiSdk.Protocols.MessageV1
