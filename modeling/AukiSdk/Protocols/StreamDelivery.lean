import AukiSdk.Protocols.Stream
import AukiSdk.Foundation.Protobuf

/-!
# What a subscription yields

The subscription has yielded a beginning of the source, and at most one error.
-/

namespace AukiSdk.Protocols.StreamV2

open AukiSdk.Foundation List
open LengthPrefix (FrameError frame takeFrame takeFrame_frame takeFrame_cut)

variable {Manifest Other Payload : Type}

/-- Messages that fit into a frame and their payloads are decoded again. -/
structure StreamEncoding.Lawful (encoding : StreamEncoding Manifest Other Payload) : Prop where
  message : ∀ message, (∀ entry, message = .entry entry → entry.seq < 2 ^ 64) →
    (encoding.encode message).length ≤ maxFrameBytes →
      0 < (encoding.encode message).length ∧
        encoding.decode (encoding.encode message) = .ok (some message)
  contains : ∀ entry, entry.payload.length ≤ (encoding.encode (.entry entry)).length
  payload : ∀ payload, (encoding.encodePayload payload).length ≤ maxFrameBytes →
    encoding.decodePayload (encoding.encodePayload payload) = .ok payload

section Transit

variable (encoding : StreamEncoding Manifest Other Payload) (manifest : Manifest)
  (source : SourceStream Payload)

/-- The message at a position of the stream, if all before it were for items. -/
def script : ℕ → StreamMessage Manifest Other
  | 0 => .accept manifest
  | position + 1 =>
    match source position with
    | some (.ok item) => entryMessage encoding position item
    | some (.error detail) => .endOfStream (some (.producerError detail))
    | none => .endOfStream (some .sourceEnded)

/-- A message that can be written. -/
structure Sendable (message : StreamMessage Manifest Other) : Prop where
  seq : ∀ entry, message = .entry entry → entry.seq < 2 ^ 64
  length : (encoding.encode message).length ≤ maxFrameBytes

/-- Messages on the wire. -/
def framed (messages : List (StreamMessage Manifest Other)) : List UInt8 :=
  messages.flatMap fun message => frame (encoding.encode message)

/-- Bytes of which no message can be read. -/
def Cut (bytes : List UInt8) : Prop :=
  ∀ front, front <+: bytes → takeFrame maxFrameBytes front = .error .ended

/-- The entries for items. -/
def entriesOf (items : List (StreamItem Payload)) : List (StreamEntry Payload) :=
  items.mapIdx fun index item => ⟨item.timestampNs, index, item.payload⟩

/-- The items that the source gives first. -/
def FirstItems (items : List (StreamItem Payload)) : Prop :=
  ∀ index item, items[index]? = some item → source index = some (.ok item)

/-- What a consumer that has read `count` messages has yielded. -/
inductive Received (consumer : Consumer Payload) (count : ℕ) : Prop where
  | handshake (phase : consumer.phase = .handshake) (read : count = 0)
      (expected : consumer.expected = 0) (yields : consumer.yields = [])
      (exhausted : consumer.exhausted = false)
  | refused (phase : consumer.phase = .refused) (yields : consumer.yields = [])
      (exhausted : consumer.exhausted = false)
  | live (items : List (StreamItem Payload)) (first : FirstItems source items)
      (phase : consumer.phase = .live) (read : count = items.length + 1)
      (expected : consumer.expected = items.length)
      (yields : consumer.yields = (entriesOf items).map .ok)
      (exhausted : consumer.exhausted = false)
  | closed (items : List (StreamItem Payload)) (first : FirstItems source items)
      (error : StreamError) (phase : consumer.phase = .closed)
      (yields : consumer.yields = (entriesOf items).map .ok ++ [.error error])
      (clean : error = .endOfStream .sourceEnded → source items.length = none)

/-- What a producer that has written `count` messages still has to do. -/
def Sent (count : ℕ) (cut : List UInt8) : Producer → Prop
  | .starting => count = 0 ∧ cut = []
  | .pumping sequence position =>
    sequence = position ∧ sequence < 2 ^ 64 ∧ count = position + 1 ∧ cut = []
  | .returned => True

/-- The messages read, those written after, and the rest of a broken write. -/
structure Transit (system : System Payload) (read unread : List (StreamMessage Manifest Other))
    (cut : List UInt8) : Prop where
  scripted : ∀ index message, (read ++ unread)[index]? = some message →
    message = script encoding manifest source index
  sendable : ∀ message ∈ unread, Sendable encoding message
  unreadable : Cut cut
  arrived : system.consumer.arrived <+: framed encoding unread ++ cut
  wire : system.consumer.connection = .open →
    system.consumer.arrived ++ system.wire = framed encoding unread ++ cut
  sent : Sent (read ++ unread).length cut system.producer
  received : Received source system.consumer read.length

/-- Every state of a stream is such a transit. -/
def InTransit (system : System Payload) : Prop :=
  ∃ read unread cut, Transit encoding manifest source system read unread cut

end Transit

variable {encoding : StreamEncoding Manifest Other Payload} {manifest : Manifest}
  {source : SourceStream Payload} {accepts : Manifest → Bool}

theorem cut_nil : Cut [] := by
  intro front hfro
  rw [prefix_nil.mp hfro]
  rfl

theorem inTransit_start : InTransit encoding manifest source ({} : System Payload) := by
  refine ⟨[], [], [], ?_, ?_, cut_nil, ?_, ?_, ⟨rfl, rfl⟩, .handshake rfl rfl rfl rfl rfl⟩
  · intro index message hmsg
    cases hmsg
  · exact forall_mem_nil _
  · exact prefix_rfl
  · intro _
    rfl

theorem framed_append (messages others : List (StreamMessage Manifest Other)) :
    framed encoding (messages ++ others) = framed encoding messages ++ framed encoding others :=
  flatMap_append

variable {message : StreamMessage Manifest Other} {bytes : List UInt8} {producer : Producer}

theorem send_cases (hlaw : encoding.Lawful)
    (hseq : ∀ entry, message = .entry entry → entry.seq < 2 ^ 64) {write : Write} {next : Producer}
    (hsend : send encoding message write next = (producer, bytes)) :
    (Sendable encoding message ∧ bytes = framed encoding [message] ∧
        (producer = next ∨ producer = .returned)) ∨
      (Cut bytes ∧ producer = .returned) := by
  have hfrm : framed encoding [message] = frame (encoding.encode message) := flatMap_singleton ..
  unfold send writeMessage at hsend
  split at hsend
  · cases hsend
    exact .inr ⟨cut_nil, rfl⟩
  · rename_i hwrt
    split at hwrt
    · cases hwrt
    · rename_i hlen
      cases hwrt
      have hsnd : Sendable encoding message := ⟨hseq, not_lt.mp hlen⟩
      cases write with
      | complete =>
        cases hsend
        exact .inl ⟨hsnd, hfrm.symm, .inl rfl⟩
      | broken written =>
        cases hsend
        by_cases hwhl : (frame (encoding.encode message)).length ≤ written
        · rw [take_of_length_le hwhl]
          exact .inl ⟨hsnd, hfrm.symm, .inr rfl⟩
        · refine .inr ⟨?_, rfl⟩
          intro front hfro
          have hpos := (hlaw.message message hseq hsnd.length).1
          have hsho := hfro.length_le
          rw [length_take] at hsho
          exact takeFrame_cut (by decide) hpos hsnd.length
            (hfro.trans (List.take_prefix _ _)) (by omega)

variable {unread : List (StreamMessage Manifest Other)} {system : System Payload}
  {read : List (StreamMessage Manifest Other)}

theorem inTransit_send (hlaw : encoding.Lawful)
    (htran : Transit encoding manifest source system read unread [])
    (hmsg : message = script encoding manifest source (read ++ unread).length)
    (hseq : ∀ entry, message = .entry entry → entry.seq < 2 ^ 64) {write : Write} {next : Producer}
    (hn : Sent ((read ++ unread).length + 1) [] next)
    (hsend : send encoding message write next = (producer, bytes)) :
    InTransit encoding manifest source
      { system with producer, wire := system.wire ++ bytes } := by
  have harr := htran.arrived
  have hwire := htran.wire
  rw [append_nil] at harr hwire
  rcases send_cases hlaw hseq hsend with ⟨hsnd, rfl, hpro⟩ | ⟨hcut, rfl⟩
  · refine ⟨read, unread ++ [message], [], ?_, ?_, cut_nil, ?_, ?_, ?_, htran.received⟩
    · intro index found hf
      rw [← append_assoc] at hf
      rcases Nat.lt_or_ge index (read ++ unread).length with hold | hnew
      · rw [getElem?_append_left hold] at hf
        exact htran.scripted index found hf
      · rw [getElem?_append_right hnew, getElem?_singleton] at hf
        split at hf
        · rename_i hzero
          cases hf
          have hidx : index = (read ++ unread).length := by omega
          rw [hmsg, hidx]
        · cases hf
    · intro found hf
      rcases mem_append.mp hf with hold | hnew
      · exact htran.sendable found hold
      · rw [mem_singleton.mp hnew]
        exact hsnd
    · rw [append_nil, framed_append]
      exact harr.trans (prefix_append _ _)
    · intro hopen
      rw [append_nil, framed_append, ← hwire hopen, append_assoc]
    · rw [← append_assoc, length_append, length_singleton]
      rcases hpro with rfl | rfl
      · exact hn
      · exact trivial
  · refine ⟨read, unread, bytes, htran.scripted, htran.sendable, hcut, ?_, ?_, trivial,
      htran.received⟩
    · exact harr.trans (prefix_append _ _)
    · intro hopen
      rw [← hwire hopen, append_assoc]

variable {cut : List UInt8}

theorem inTransit_returned (htran : Transit encoding manifest source system read unread cut) :
    InTransit encoding manifest source
      { system with producer := .returned, wire := system.wire ++ [] } := by
  refine ⟨read, unread, cut, htran.scripted, htran.sendable, htran.unreadable,
    htran.arrived, ?_, trivial, htran.received⟩
  intro hopen
  rw [append_nil]
  exact htran.wire hopen

theorem inTransit_producer (hlaw : encoding.Lawful)
    (hinv : InTransit encoding manifest source system) {event : ProducerEvent}
    (hs : system.producer.step encoding manifest source event = some (producer, bytes)) :
    InTransit encoding manifest source
      { system with producer, wire := system.wire ++ bytes } := by
  obtain ⟨read, unread, cut, htran⟩ := hinv
  have hsent := htran.sent
  cases event with
  | reply write =>
    cases hpro : system.producer with
    | starting =>
      rw [hpro] at hs hsent
      obtain ⟨hcnt, rfl⟩ := hsent
      have hsend := Option.some_inj.mp hs
      refine inTransit_send hlaw htran ?_ ?_ ?_ hsend
      · rw [hcnt]
        rfl
      · intro entry hent
        cases hent
      · rw [hcnt]
        exact ⟨rfl, by decide, rfl, rfl⟩
    | pumping sequence position =>
      rw [hpro] at hs
      cases hs
    | returned =>
      rw [hpro] at hs
      cases hs
  | item write =>
    cases hpro : system.producer with
    | starting =>
      rw [hpro] at hs
      cases hs
    | returned =>
      rw [hpro] at hs
      cases hs
    | pumping sequence position =>
      rw [hpro] at hs hsent
      obtain ⟨rfl, hsqn, hcnt, rfl⟩ := hsent
      dsimp only [Producer.step] at hs
      -- the three ways a source can answer, in the order of the script
      cases hsrc : source sequence with
      | none =>
        rw [hsrc] at hs
        refine inTransit_send hlaw htran ?_ ?_ ?_ (Option.some_inj.mp hs)
        · rw [hcnt, script, hsrc]
        · intro entry hent
          cases hent
        · exact trivial
      | some result =>
        rw [hsrc] at hs
        cases result with
        | error detail =>
          refine inTransit_send hlaw htran ?_ ?_ ?_ (Option.some_inj.mp hs)
          · rw [hcnt, script, hsrc]
          · intro entry hent
            cases hent
          · exact trivial
        | ok item =>
          refine inTransit_send hlaw htran ?_ ?_ ?_ (Option.some_inj.mp hs)
          · rw [hcnt, script, hsrc]
          · intro entry hent
            cases hent
            exact hsqn
          · rw [hcnt]
            split
            · rename_i hmore
              exact ⟨rfl, hmore, rfl, rfl⟩
            · exact trivial
  | remote =>
    cases hpro : system.producer with rw [hpro] at hs
    | pumping sequence position =>
      cases hs
      exact inTransit_returned htran
    | starting =>
      cases hs
    | returned =>
      cases hs
  | dropped =>
    cases hs
    exact inTransit_returned htran

variable {arrived : List UInt8}

theorem takeFrame_arrived (hlaw : encoding.Lawful)
    (hsnd : ∀ message ∈ unread, Sendable encoding message) (hcut : Cut cut)
    (harr : arrived <+: framed encoding unread ++ cut) :
    takeFrame maxFrameBytes arrived = .error .ended ∨
      ∃ message later rest, unread = message :: later ∧
        arrived = frame (encoding.encode message) ++ rest ∧
        takeFrame maxFrameBytes arrived = .ok (encoding.encode message, rest) ∧
        rest <+: framed encoding later ++ cut := by
  cases unread with
  | nil => exact .inl (hcut arrived harr)
  | cons message later =>
    have hhead := hsnd message mem_cons_self
    have hpos := (hlaw.message message hhead.seq hhead.length).1
    rw [framed, flatMap_cons, append_assoc, ← framed] at harr
    rcases prefix_or_prefix_of_prefix harr (prefix_append _ _) with
      hfro | ⟨rest, hwhl⟩
    · rcases Nat.lt_or_ge arrived.length (frame (encoding.encode message)).length with
        hsho | hlong
      · exact .inl (takeFrame_cut (by decide) hpos hhead.length hfro hsho)
      · have hsm : arrived = frame (encoding.encode message) ++ [] := by
          rw [append_nil]
          exact hfro.eq_of_length (le_antisymm hfro.length_le hlong)
        refine .inr ⟨message, later, [], rfl, hsm, ?_, nil_prefix⟩
        rw [hsm]
        exact takeFrame_frame (by decide) hpos hhead.length []
    · refine .inr ⟨message, later, rest, rfl, hwhl.symm, ?_, ?_⟩
      · rw [← hwhl]
        exact takeFrame_frame (by decide) hpos hhead.length rest
      · rw [← hwhl] at harr
        exact (prefix_append_right_inj _).mp harr

variable {consumer : Consumer Payload}

theorem Transit.keep (htran : Transit encoding manifest source system read unread cut)
    (harr : consumer.arrived = system.consumer.arrived)
    (hconn : consumer.connection = system.consumer.connection)
    (hrecv : Received source consumer read.length) :
    InTransit encoding manifest source { system with consumer } := by
  refine ⟨read, unread, cut, htran.scripted, htran.sendable, htran.unreadable, ?_, ?_,
    htran.sent, hrecv⟩
  · rw [harr]
    exact htran.arrived
  · intro hopen
    rw [harr]
    exact htran.wire (hconn.symm.trans hopen)

variable {later : List (StreamMessage Manifest Other)} {rest : List UInt8}

theorem Transit.advance
    (htran : Transit encoding manifest source system read (message :: later) cut)
    (hwhl : system.consumer.arrived = frame (encoding.encode message) ++ rest)
    (hrest : rest <+: framed encoding later ++ cut) (harr : consumer.arrived = rest)
    (hconn : consumer.connection = system.consumer.connection)
    (hrecv : Received source consumer (read.length + 1)) :
    InTransit encoding manifest source { system with consumer } := by
  have hsp : read ++ [message] ++ later = read ++ message :: later :=
    append_cons read message later |>.symm
  refine ⟨read ++ [message], later, cut, ?_, ?_, htran.unreadable, ?_, ?_, ?_, ?_⟩
  · rw [hsp]
    exact htran.scripted
  · intro found hf
    exact htran.sendable found (mem_cons_of_mem _ hf)
  · rw [harr]
    exact hrest
  · intro hopen
    have hwire := htran.wire (hconn.symm.trans hopen)
    rw [hwhl, framed, flatMap_cons, append_assoc, append_assoc, ← framed] at hwire
    rw [harr]
    exact append_cancel_left hwire
  · rw [hsp]
    exact htran.sent
  · rw [length_append, length_singleton]
    exact hrecv

theorem Transit.head (htran : Transit encoding manifest source system read (message :: later) cut) :
    message = script encoding manifest source read.length := by
  apply htran.scripted
  rw [getElem?_append_right (le_refl _), Nat.sub_self]
  rfl

theorem readMessage_of_ok (hlaw : encoding.Lawful) (hsnd : Sendable encoding message)
    {connection : Connection}
    (htake : takeFrame maxFrameBytes arrived = .ok (encoding.encode message, rest)) :
    readMessage encoding connection arrived = some (.ok (some message, rest)) := by
  unfold readMessage
  rw [htake]
  dsimp only
  rw [(hlaw.message message hsnd.seq hsnd.length).2]

theorem readMessage_of_ended {connection : Connection}
    (htake : takeFrame maxFrameBytes arrived = .error .ended) :
    readMessage encoding connection arrived = none ∨
      ∃ unexpectedEof, readMessage encoding connection arrived =
        some (.error (.io unexpectedEof)) := by
  unfold readMessage
  rw [htake]
  cases connection with
  | «open» => exact .inl rfl
  | ended => exact .inr ⟨true, rfl⟩
  | failed => exact .inr ⟨false, rfl⟩

theorem inTransit_handshake (hlaw : encoding.Lawful)
    (hinv : InTransit encoding manifest source system)
    (hs : system.consumer.handshake encoding accepts = some consumer) :
    InTransit encoding manifest source { system with consumer } := by
  obtain ⟨read, unread, cut, htran⟩ := hinv
  unfold Consumer.handshake at hs
  split at hs
  · rename_i hp
    cases htran.received with
    | refused ho => cases hp.symm.trans ho
    | live items hfst ho => cases hp.symm.trans ho
    | closed items hfst error ho => cases hp.symm.trans ho
    | handshake _ hread hexp hyld hexh =>
      have href : Received source { system.consumer with phase := .refused } read.length :=
        .refused rfl hyld hexh
      rcases takeFrame_arrived hlaw htran.sendable htran.unreadable htran.arrived with
        htake | ⟨message, later, rest, rfl, hwhl, htake, hrest⟩
      · rcases readMessage_of_ended htake with hnone | ⟨unexpectedEof, herr⟩
        · rw [hnone] at hs
          cases hs
          exact htran.keep rfl rfl htran.received
        · rw [herr] at hs
          cases hs
          exact htran.keep rfl rfl href
      · have hmsg : message = .accept manifest := by
          rw [htran.head, hread]
          rfl
        rw [readMessage_of_ok hlaw (htran.sendable message mem_cons_self) htake, hmsg] at hs
        dsimp only at hs
        split at hs
        · cases hs
          refine htran.advance hwhl hrest rfl rfl ?_
          refine .live [] ?_ rfl ?_ hexp hyld hexh
          · intro index item hitem
            cases hitem
          · rw [hread]
            rfl
        · cases hs
          exact htran.keep rfl rfl href
  · cases hs

variable {items : List (StreamItem Payload)}

theorem firstItems_concat (hfst : FirstItems source items) {item : StreamItem Payload}
    (hitem : source items.length = some (.ok item)) :
    FirstItems source (items ++ [item]) := by
  intro index found hf
  rcases Nat.lt_or_ge index items.length with hold | hnew
  · rw [getElem?_append_left hold] at hf
    exact hfst index found hf
  · rw [getElem?_append_right hnew, getElem?_singleton] at hf
    split at hf
    · rename_i hzero
      cases hf
      have hidx : index = items.length := by omega
      rw [hidx]
      exact hitem
    · cases hf

theorem entriesOf_concat (items : List (StreamItem Payload)) (item : StreamItem Payload) :
    entriesOf (items ++ [item]) =
      entriesOf items ++ [⟨item.timestampNs, items.length, item.payload⟩] :=
  mapIdx_concat

theorem Received.close (hfst : FirstItems source items)
    (hyld : consumer.yields = (entriesOf items).map .ok) {error : StreamError}
    (hcle : error = .endOfStream .sourceEnded → source items.length = none) (count : ℕ) :
    Received source (consumer.close error) count := by
  refine .closed items hfst error rfl ?_ hcle
  rw [← hyld]
  rfl

theorem decodeLiveMessage_entryMessage (hlaw : encoding.Lawful) {sequence : ℕ}
    {item : StreamItem Payload}
    (hsnd : Sendable encoding (entryMessage encoding sequence item)) :
    decodeLiveMessage encoding (some (entryMessage encoding sequence item)) sequence =
      if 2 ^ 64 ≤ sequence + 1 then .error .sequenceExhausted
      else .ok (.entry ⟨item.timestampNs, sequence, item.payload⟩ (sequence + 1)) := by
  have hpay : (encoding.encodePayload item.payload).length ≤ maxFrameBytes :=
    (hlaw.contains ⟨item.timestampNs, sequence, encoding.encodePayload item.payload⟩).trans
      hsnd.length
  unfold decodeLiveMessage entryMessage
  dsimp only
  rw [if_neg (not_not.mpr rfl), hlaw.payload item.payload hpay]

theorem inTransit_receive (hlaw : encoding.Lawful)
    (htran : Transit encoding manifest source system read (message :: later) cut)
    (hwhl : system.consumer.arrived = frame (encoding.encode message) ++ rest)
    (hrest : rest <+: framed encoding later ++ cut) (hfst : FirstItems source items)
    (hp : system.consumer.phase = .live) (hread : read.length = items.length + 1)
    (hexp : system.consumer.expected = items.length)
    (hyld : system.consumer.yields = (entriesOf items).map .ok)
    (hexh : system.consumer.exhausted = false) :
    InTransit encoding manifest source
      { system with consumer := system.consumer.receive encoding (.ok (some message, rest)) } := by
  have hmsg := htran.head
  rw [hread, script] at hmsg
  cases hsrc : source items.length with
  | none =>
    simp only [hsrc] at hmsg
    rw [hmsg]
    refine htran.keep rfl rfl ?_
    exact Received.close hfst hyld (fun _ => hsrc) _
  | some result =>
    cases result with
    | error detail =>
      simp only [hsrc] at hmsg
      rw [hmsg]
      refine htran.keep rfl rfl ?_
      apply Received.close hfst hyld
      intro ho
      cases ho
    | ok item =>
      simp only [hsrc] at hmsg
      have hsnd := htran.sendable message mem_cons_self
      rw [hmsg] at hsnd
      have hdec := decodeLiveMessage_entryMessage hlaw hsnd
      rw [hmsg, Consumer.receive]
      rw [hexp, hdec]
      by_cases hlast : 2 ^ 64 ≤ items.length + 1
      · rw [if_pos hlast]
        refine htran.keep rfl rfl ?_
        apply Received.close hfst hyld
        intro ho
        cases ho
      · rw [if_neg hlast]
        refine htran.advance hwhl hrest rfl rfl ?_
        refine .live (items ++ [item]) (firstItems_concat hfst hsrc) hp ?_ ?_ ?_
          hexh
        · rw [hread, length_append]
          rfl
        · rw [length_append]
          rfl
        · rw [entriesOf_concat, map_append, ← hyld]
          rfl

theorem inTransit_next (hlaw : encoding.Lawful)
    (hinv : InTransit encoding manifest source system)
    (hs : system.consumer.next encoding = some consumer) :
    InTransit encoding manifest source { system with consumer } := by
  obtain ⟨read, unread, cut, htran⟩ := hinv
  unfold Consumer.next at hs
  cases htran.received with rw [hp] at hs
  | handshake hp =>
    cases hs
  | refused hp =>
    cases hs
  | closed items hfst error hp hyld hcle =>
    cases hs
    exact htran.keep rfl rfl (.closed items hfst error rfl hyld hcle)
  | live items hfst hp hread hexp hyld hexh =>
    dsimp only at hs
    rcases takeFrame_arrived hlaw htran.sendable htran.unreadable htran.arrived with
      htake | ⟨message, later, rest, rfl, hwhl, htake, hrest⟩
    · rcases readMessage_of_ended htake with hnone | ⟨unexpectedEof, herr⟩
      · rw [hnone] at hs
        cases hs
        exact htran.keep rfl rfl htran.received
      · rw [herr] at hs
        cases hs
        cases unexpectedEof with
        | false =>
          refine htran.keep rfl rfl ?_
          apply Received.close hfst hyld
          intro ho
          cases ho
        | true =>
          refine htran.keep rfl rfl ?_
          apply Received.close hfst hyld
          intro ho
          cases ho
    · rw [readMessage_of_ok hlaw (htran.sendable message mem_cons_self) htake] at hs
      cases hs
      exact inTransit_receive hlaw htran hwhl hrest hfst hp hread hexp hyld
        hexh

theorem Received.transport {other : Consumer Payload} {count : ℕ}
    (hrecv : Received source consumer count) (hp : other.phase = consumer.phase)
    (hexp : other.expected = consumer.expected) (hyld : other.yields = consumer.yields)
    (hexh : other.exhausted = consumer.exhausted) : Received source other count := by
  cases hrecv with
  | handshake phase read expected yields exhausted =>
    exact .handshake (hp.trans phase) read (hexp.trans expected)
      (hyld.trans yields) (hexh.trans exhausted)
  | refused phase yields exhausted =>
    exact .refused (hp.trans phase) (hyld.trans yields) (hexh.trans exhausted)
  | live items first phase read expected yields exhausted =>
    exact .live items first (hp.trans phase) read (hexp.trans expected)
      (hyld.trans yields) (hexh.trans exhausted)
  | closed items first error phase yields clean =>
    exact .closed items first error (hp.trans phase) (hyld.trans yields) clean

theorem inTransit_deliver (hinv : InTransit encoding manifest source system)
    (hopen : system.consumer.connection = .open) (count : ℕ) :
    InTransit encoding manifest source
      { system with
        consumer := { system.consumer with
          arrived := system.consumer.arrived ++ system.wire.take count }
        wire := system.wire.drop count } := by
  obtain ⟨read, unread, cut, htran⟩ := hinv
  have hwire := htran.wire hopen
  have hall : system.consumer.arrived ++ system.wire.take count ++ system.wire.drop count =
      framed encoding unread ++ cut := by
    rw [append_assoc, take_append_drop, hwire]
  refine ⟨read, unread, cut, htran.scripted, htran.sendable, htran.unreadable, ?_, ?_,
    htran.sent, htran.received.transport rfl rfl rfl rfl⟩
  · rw [← hall]
    exact prefix_append _ _
  · intro _
    exact hall

theorem inTransit_disconnect (hinv : InTransit encoding manifest source system) (failed : Bool)
    (kept : ℕ) :
    InTransit encoding manifest source
      { system with
        consumer := { system.consumer with
          connection := if failed then .failed else .ended
          arrived := system.consumer.arrived.take kept } } := by
  obtain ⟨read, unread, cut, htran⟩ := hinv
  refine ⟨read, unread, cut, htran.scripted, htran.sendable, htran.unreadable, ?_, ?_,
    htran.sent, htran.received.transport rfl rfl rfl rfl⟩
  · exact (List.take_prefix _ _).trans htran.arrived
  · intro hopen
    cases failed <;> cases hopen

theorem inTransit_step (hlaw : encoding.Lawful) {next : System Payload} {event : SystemEvent}
    (hinv : InTransit encoding manifest source system)
    (hs : system.step encoding manifest source accepts event = some next) :
    InTransit encoding manifest source next := by
  cases event with
  | producer event =>
    obtain ⟨⟨producer, bytes⟩, hpro, rfl⟩ := Option.map_eq_some_iff.mp hs
    exact inTransit_producer hlaw hinv hpro
  | deliver count =>
    obtain ⟨consumer, hcon, rfl⟩ := Option.map_eq_some_iff.mp hs
    rw [Consumer.step] at hcon
    split at hcon
    · rename_i hopen
      cases hcon
      exact inTransit_deliver hinv hopen count
    · cases hcon
  | disconnect failed kept =>
    obtain ⟨consumer, hcon, rfl⟩ := Option.map_eq_some_iff.mp hs
    rw [Consumer.step] at hcon
    split at hcon
    · cases hcon
      exact inTransit_disconnect hinv failed kept
    · cases hcon
  | handshake =>
    obtain ⟨consumer, hcon, rfl⟩ := Option.map_eq_some_iff.mp hs
    exact inTransit_handshake hlaw hinv hcon
  | next =>
    obtain ⟨consumer, hcon, rfl⟩ := Option.map_eq_some_iff.mp hs
    exact inTransit_next hlaw hinv hcon

/-- The first items of a source, and at most one error after them. -/
def Delivered (encoding : StreamEncoding Manifest Other Payload) (source : SourceStream Payload)
    (consumer : Consumer Payload) : Prop :=
  ∃ items terminal, FirstItems source items ∧
    consumer.yields = (entriesOf items).map .ok ++ terminal ∧
    (terminal = [] ∨ ∃ error, terminal = [.error error] ∧
      (error = .endOfStream .sourceEnded → source items.length = none) ∧
      consumer.next encoding = some { consumer with exhausted := true }) ∧
    (consumer.exhausted = true → terminal ≠ [])

theorem delivered_of_received {count : ℕ} (hrecv : Received source consumer count) :
    Delivered encoding source consumer := by
  have hnone : FirstItems source [] := by
    intro index item hitem
    cases hitem
  cases hrecv with
  | handshake phase read expected yields exhausted =>
    refine ⟨[], [], hnone, yields, .inl rfl, ?_⟩
    intro hexh
    cases exhausted.symm.trans hexh
  | refused phase yields exhausted =>
    refine ⟨[], [], hnone, yields, .inl rfl, ?_⟩
    intro hexh
    cases exhausted.symm.trans hexh
  | live items first phase read expected yields exhausted =>
    refine ⟨items, [], first, ?_, .inl rfl, ?_⟩
    · rw [append_nil]
      exact yields
    · intro hexh
      cases exhausted.symm.trans hexh
  | closed items first error phase yields clean =>
    refine ⟨items, [.error error], first, yields, .inr ⟨error, rfl, clean, ?_⟩, ?_⟩
    · rw [Consumer.next, phase]
    · intro _
      exact cons_ne_nil _ _

/-- The entries that were yielded are numbered from zero. -/
inductive Numbered (consumer : Consumer Payload) : Prop where
  | waiting (phase : consumer.phase = .handshake ∨ consumer.phase = .refused)
      (expected : consumer.expected = 0) (yields : consumer.yields = [])
  | live (entries : List (StreamEntry Payload)) (phase : consumer.phase = .live)
      (numbers : entries.map StreamEntry.seq = List.range entries.length)
      (expected : consumer.expected = entries.length)
      (yields : consumer.yields = entries.map .ok)
  | closed (entries : List (StreamEntry Payload)) (error : StreamError)
      (phase : consumer.phase = .closed)
      (numbers : entries.map StreamEntry.seq = List.range entries.length)
      (yields : consumer.yields = entries.map .ok ++ [.error error])

theorem Numbered.transport {other : Consumer Payload} (hnum : Numbered consumer)
    (hp : other.phase = consumer.phase) (hexp : other.expected = consumer.expected)
    (hyld : other.yields = consumer.yields) : Numbered other := by
  cases hnum with
  | waiting phase expected yields =>
    rw [← hp] at phase
    exact .waiting phase (hexp.trans expected) (hyld.trans yields)
  | live entries phase numbers expected yields =>
    exact .live entries (hp.trans phase) numbers (hexp.trans expected)
      (hyld.trans yields)
  | closed entries error phase numbers yields =>
    exact .closed entries error (hp.trans phase) numbers (hyld.trans yields)

theorem decodeLiveMessage_entry {message : Option (StreamMessage Manifest Other)} {expected : ℕ}
    {entry : StreamEntry Payload} {nextSequence : ℕ}
    (hdec : decodeLiveMessage encoding message expected = .ok (.entry entry nextSequence)) :
    entry.seq = expected ∧ nextSequence = expected + 1 := by
  unfold decodeLiveMessage at hdec
  split at hdec
  · rename_i wire
    split at hdec
    · cases hdec
    · rename_i hseq
      split at hdec
      · cases hdec
      · split at hdec
        · cases hdec
        · cases hdec
          exact ⟨not_not.mp hseq, rfl⟩
  all_goals cases hdec

theorem numbered_receive {entries : List (StreamEntry Payload)} (hp : consumer.phase = .live)
    (hnum : entries.map StreamEntry.seq = List.range entries.length)
    (hexp : consumer.expected = entries.length) (hyld : consumer.yields = entries.map .ok)
    (read : Except StreamProtocolError (Option (StreamMessage Manifest Other) × List UInt8)) :
    Numbered (consumer.receive encoding read) := by
  have hcl : ∀ error, Numbered (consumer.close error) := by
    intro error
    refine .closed entries error rfl hnum ?_
    rw [← hyld]
    rfl
  unfold Consumer.receive
  split
  · exact hcl _
  · exact hcl _
  · rename_i message rest
    split
    · exact hcl _
    · exact hcl _
    · rename_i entry nextSequence hdec
      obtain ⟨hseq, rfl⟩ := decodeLiveMessage_entry hdec
      refine .live (entries ++ [entry]) hp ?_ ?_ ?_
      · rw [map_append, hnum, length_append, map_singleton, hseq, hexp,
          length_singleton, range_succ]
      · rw [hexp, length_append]
        rfl
      · rw [hyld, map_append]
        rfl

theorem numbered_step {next : Consumer Payload} {event : ConsumerEvent}
    (hnum : Numbered consumer) (hs : consumer.step encoding accepts event = some next) :
    Numbered next := by
  cases event with
  | arrive bytes =>
    rw [Consumer.step] at hs
    split at hs
    · cases hs
      exact hnum.transport rfl rfl rfl
    · cases hs
  | disconnect failed kept =>
    rw [Consumer.step] at hs
    split at hs
    · cases hs
      exact hnum.transport rfl rfl rfl
    · cases hs
  | handshake =>
    rw [Consumer.step, Consumer.handshake] at hs
    split at hs
    · rename_i hp
      cases hnum with
      | live entries ho => cases hp.symm.trans ho
      | closed entries error ho => cases hp.symm.trans ho
      | waiting phase expected yields =>
        split at hs
        · cases hs
          exact .waiting phase expected yields
        · split at hs
          · cases hs
            exact .live [] rfl rfl expected yields
          · cases hs
            exact .waiting (.inr rfl) expected yields
        · cases hs
          exact .waiting (.inr rfl) expected yields
    · cases hs
  | next =>
    rw [Consumer.step, Consumer.next] at hs
    cases hnum with
    | waiting phase expected yields =>
      rcases phase with phase | phase
      · rw [phase] at hs
        cases hs
      · rw [phase] at hs
        cases hs
    | live entries phase numbers expected yields =>
      rw [phase] at hs
      dsimp only at hs
      split at hs
      · cases hs
        exact .live entries phase numbers expected yields
      · cases hs
        exact numbered_receive phase numbers expected yields _
    | closed entries error phase numbers yields =>
      rw [phase] at hs
      cases hs
      exact .closed entries error rfl numbers yields

/-- The numbers of the entries among what was yielded. -/
def sequenceNumbers (yields : List (Except StreamError (StreamEntry Payload))) : List ℕ :=
  yields.filterMap fun yielded =>
    match yielded with
    | .ok entry => some entry.seq
    | .error _ => none

theorem sequenceNumbers_map_ok (entries : List (StreamEntry Payload))
    (terminal : List (Except StreamError (StreamEntry Payload))) :
    sequenceNumbers (entries.map .ok ++ terminal) =
      entries.map StreamEntry.seq ++ sequenceNumbers terminal := by
  rw [sequenceNumbers, filterMap_append, filterMap_map]
  congr 1
  exact congrFun filterMap_eq_map entries

theorem sequenceNumbers_of_numbered (hnum : Numbered consumer) :
    ∃ count, sequenceNumbers consumer.yields = List.range count := by
  cases hnum with
  | waiting phase expected yields =>
    rw [yields]
    exact ⟨0, rfl⟩
  | live entries phase numbers expected yields =>
    refine ⟨entries.length, ?_⟩
    rw [yields, ← append_nil (entries.map _), sequenceNumbers_map_ok, numbers]
    exact append_nil _
  | closed entries error phase numbers yields =>
    refine ⟨entries.length, ?_⟩
    rw [yields, sequenceNumbers_map_ok, numbers]
    exact append_nil _

section Wire

open Protobuf

/-- The kind of an end as fields. -/
def endFields : Option EndKind → List Field
  | none => []
  | some .sourceEnded => [(1, .bytes [])]
  | some .producerShuttingDown => [(2, .bytes [])]
  | some .sessionEnded => [(3, .bytes [])]
  | some (.producerError detail) =>
    [(4, .bytes (encodeFields (bytesField 1 (detail.flatMap String.utf8EncodeChar))))]

def entryFields (entry : WireStreamEntry) : List Field :=
  numberField 1 entry.timestampNs.toUInt64.toNat ++ numberField 2 entry.seq ++
    bytesField 3 entry.payload

/-- The variant of a message, with bytes for its contents. -/
def variantField : StreamMessage (List UInt8) (Bool × List UInt8) → Field
  | .other (true, request) => (1, .bytes request)
  | .accept manifest => (2, .bytes manifest)
  | .other (false, decline) => (3, .bytes decline)
  | .entry entry => (4, .bytes (encodeFields (entryFields entry)))
  | .endOfStream kind => (5, .bytes (encodeFields (endFields kind)))

def readEndKind (fields : List Field) : Except (List Char) (Option EndKind) :=
  match fields.getLast? with
  | some (1, .bytes _) => .ok (some .sourceEnded)
  | some (2, .bytes _) => .ok (some .producerShuttingDown)
  | some (3, .bytes _) => .ok (some .sessionEnded)
  | some (4, .bytes body) => do
      let inner ← fieldsOf body
      let detail ← stringOf 1 inner
      .ok (some (.producerError detail))
  | _ => .ok none

def readVariant (fields : List Field) :
    Except (List Char) (Option (StreamMessage (List UInt8) (Bool × List UInt8))) :=
  match fields.getLast? with
  | some (1, .bytes request) => .ok (some (.other (true, request)))
  | some (2, .bytes manifest) => .ok (some (.accept manifest))
  | some (3, .bytes decline) => .ok (some (.other (false, decline)))
  | some (4, .bytes body) => do
      let inner ← fieldsOf body
      .ok (some (.entry ⟨(UInt64.ofNat (numberOf 1 inner)).toInt64, numberOf 2 inner,
        bytesOf 3 inner⟩))
  | some (5, .bytes body) => do
      let inner ← fieldsOf body
      let kind ← readEndKind inner
      .ok (some (.endOfStream kind))
  | _ => .ok none

/-- The messages of a stream of audio data as their schema encodes them. -/
def audioEncoding : StreamEncoding (List UInt8) (Bool × List UInt8) (List UInt8) where
  encode message := encodeFields [variantField message]
  decode bytes := do
    let fields ← fieldsOf bytes
    readVariant fields
  encodePayload data := encodeFields (bytesField 1 data)
  decodePayload bytes := do
    let fields ← fieldsOf bytes
    .ok (bytesOf 1 fields)

theorem length_le_encodeField (number : ℕ) (value : List UInt8) :
    value.length ≤ (encodeFields [(number, .bytes value)]).length := by
  rw [encodeFields, flatMap_singleton, encodeField, length_append, length_append]
  omega

theorem fits_bytes {number : ℕ} {value : List UInt8} (hnum : number < 2 ^ 29)
    (hlen : (encodeFields [(number, .bytes value)]).length ≤ maxFrameBytes) :
    ∀ field ∈ [((number, .bytes value) : Field)], Fits field := by
  have hval := length_le_encodeField number value
  rw [maxFrameBytes] at hlen
  exact forall_mem_singleton.mpr ⟨hnum, by omega⟩

theorem fits_entryFields {entry : WireStreamEntry} (hseq : entry.seq < 2 ^ 64)
    (hlen : (encodeFields (entryFields entry)).length ≤ maxFrameBytes) :
    ∀ field ∈ entryFields entry, Fits field := by
  have hpay := length_le_bytesField 3 entry.payload
  rw [entryFields, encodeFields_append, encodeFields_append, length_append,
    length_append, maxFrameBytes] at hlen
  intro field hfld
  rw [entryFields, mem_append, mem_append] at hfld
  rcases hfld with (hfld | hfld) | hfld
  · exact fits_numberField (by decide) (UInt64.toNat_lt _) field hfld
  · exact fits_numberField (by decide) hseq field hfld
  · exact fits_bytesField (by decide) (by omega) field hfld

theorem read_entryFields (entry : WireStreamEntry) :
    numberOf 1 (entryFields entry) = entry.timestampNs.toUInt64.toNat ∧
      numberOf 2 (entryFields entry) = entry.seq ∧
      bytesOf 3 (entryFields entry) = entry.payload := by
  simp only [entryFields, bytesField, numberField]
  split_ifs <;> simp_all [bytesOf, numberOf]

theorem bytesOf_bytesField (number : ℕ) (value : List UInt8) :
    bytesOf number (bytesField number value) = value := by
  rw [bytesField]
  split
  · rename_i hnil
    rw [hnil]
    rfl
  · simp [bytesOf]

theorem fieldsOf_bytesField {number : ℕ} {value : List UInt8} (hnum : number < 2 ^ 29)
    (hlen : (encodeFields (bytesField number value)).length ≤ maxFrameBytes) :
    fieldsOf (encodeFields (bytesField number value)) = .ok (bytesField number value) := by
  have hval := length_le_bytesField number value
  rw [maxFrameBytes] at hlen
  exact fieldsOf_encodeFields (fits_bytesField hnum (by omega))

theorem readEndKind_endFields {kind : Option EndKind}
    (hlen : (encodeFields (endFields kind)).length ≤ maxFrameBytes) :
    fieldsOf (encodeFields (endFields kind)) = .ok (endFields kind) ∧
      readEndKind (endFields kind) = .ok kind := by
  rcases kind with _ | _ | _ | _ | detail
  · exact ⟨rfl, rfl⟩
  · exact ⟨rfl, rfl⟩
  · exact ⟨rfl, rfl⟩
  · exact ⟨rfl, rfl⟩
  · constructor
    · exact fieldsOf_encodeFields (fits_bytes (by decide) hlen)
    · have hbody := (length_le_encodeField 4 _).trans hlen
      apply Checks.bind_eq_ok.mpr
      refine ⟨_, fieldsOf_bytesField (by decide) hbody, ?_⟩
      apply Checks.bind_eq_ok.mpr
      exact ⟨detail, stringOf_of_bytesOf (bytesOf_bytesField 1 _), rfl⟩

theorem readVariant_variantField
    {message : StreamMessage (List UInt8) (Bool × List UInt8)}
    (hseq : ∀ entry, message = .entry entry → entry.seq < 2 ^ 64)
    (hlen : (encodeFields [variantField message]).length ≤ maxFrameBytes) :
    fieldsOf (encodeFields [variantField message]) = .ok [variantField message] ∧
      readVariant [variantField message] = .ok (some message) := by
  cases message with
  | accept manifest =>
    exact ⟨fieldsOf_encodeFields (fits_bytes (by decide) hlen), rfl⟩
  | other message =>
    obtain ⟨request, body⟩ := message
    cases request with
    | true => exact ⟨fieldsOf_encodeFields (fits_bytes (by decide) hlen), rfl⟩
    | false => exact ⟨fieldsOf_encodeFields (fits_bytes (by decide) hlen), rfl⟩
  | entry entry =>
    have hbody := (length_le_encodeField 4 _).trans hlen
    obtain ⟨htim, hnum, hpay⟩ := read_entryFields entry
    refine ⟨fieldsOf_encodeFields (fits_bytes (by decide) hlen), ?_⟩
    apply Checks.bind_eq_ok.mpr
    refine ⟨_, fieldsOf_encodeFields (fits_entryFields (hseq entry rfl) hbody), ?_⟩
    rw [htim, hnum, hpay, UInt64.ofNat_toNat, Int64.toInt64_toUInt64]
  | endOfStream kind =>
    have hbody := (length_le_encodeField 5 _).trans hlen
    obtain ⟨hfields, hkind⟩ := readEndKind_endFields hbody
    refine ⟨fieldsOf_encodeFields (fits_bytes (by decide) hlen), ?_⟩
    apply Checks.bind_eq_ok.mpr
    refine ⟨_, hfields, ?_⟩
    apply Checks.bind_eq_ok.mpr
    exact ⟨kind, hkind, rfl⟩

theorem audioEncoding_lawful : audioEncoding.Lawful where
  message := by
    intro message hseq hlen
    obtain ⟨hfields, hvar⟩ := readVariant_variantField hseq hlen
    constructor
    · exact Nat.lt_of_lt_of_le Nat.zero_lt_one (length_le_encodeFields [variantField message])
    · exact Checks.bind_eq_ok.mpr ⟨_, hfields, hvar⟩
  contains := by
    intro entry
    have hpay := length_le_bytesField 3 entry.payload
    have hbody := length_le_encodeField 4 (encodeFields (entryFields entry))
    change entry.payload.length ≤ (encodeFields [variantField (.entry entry)]).length
    rw [variantField]
    rw [entryFields, encodeFields_append, encodeFields_append, length_append,
      length_append] at hbody
    rw [entryFields, encodeFields_append, encodeFields_append]
    omega
  payload := by
    intro payload hlen
    apply Checks.bind_eq_ok.mpr
    refine ⟨_, fieldsOf_bytesField (by decide) hlen, ?_⟩
    rw [bytesOf_bytesField]

end Wire

/-- The subscription yields a beginning of the source and at most one error. -/
theorem subscription_yields (hlawful : encoding.Lawful) :
    (∀ (manifest : Manifest) (source : SourceStream Payload) (accepts : Manifest → Bool)
      (events : List SystemEvent) (last : System Payload),
      runSteps (System.step encoding manifest source accepts) {} events = some last →
        Delivered encoding source last.consumer) ∧
    ∀ (accepts : Manifest → Bool) (events : List ConsumerEvent) (last : Consumer Payload),
      runSteps (Consumer.step encoding accepts) {} events = some last →
        ∃ count, sequenceNumbers last.yields = List.range count := by
  constructor
  · intro manifest source accepts events last hrun
    have hinvariant : InTransit encoding manifest source last := by
      apply invariant_of_run inTransit_start _ hrun
      intro state event next hstate hstep
      exact inTransit_step hlawful hstate hstep
    obtain ⟨read, unread, cut, htransit⟩ := hinvariant
    exact delivered_of_received htransit.received
  · intro accepts events last hrun
    apply sequenceNumbers_of_numbered
    apply invariant_of_run (.waiting (.inl rfl) rfl rfl) _ hrun
    intro state event next hstate hstep
    exact numbered_step hstate hstep

/-- A source of one item. -/
def oneItem : SourceStream (List UInt8)
  | 0 => some (.ok ⟨7, [1, 2]⟩)
  | _ => none

/-- The producer sends everything, and then the consumer reads everything. -/
def wholeStream : List SystemEvent :=
  [.producer (.reply .complete), .producer (.item .complete), .producer (.item .complete),
    .deliver 100, .handshake, .next, .next, .next]

/-- The run ends with an entry and a clean end. -/
theorem subscription_yields_one_item :
    ∃ last, runSteps (System.step audioEncoding [] oneItem fun _ => true) {} wholeStream =
        some last ∧ last.consumer.yields.length = 2 ∧
      Delivered audioEncoding oneItem last.consumer := by
  have htest : (runSteps (System.step audioEncoding [] oneItem fun _ => true) {} wholeStream).any
      (fun last => last.consumer.yields.length == 2) = true := by
    decide +kernel
  obtain ⟨last, hlast, hlength⟩ := (Option.any_eq_true _ _).mp htest
  refine ⟨last, hlast, by simpa using hlength, ?_⟩
  exact (subscription_yields audioEncoding_lawful).1 [] oneItem _ wholeStream last hlast

end AukiSdk.Protocols.StreamV2
