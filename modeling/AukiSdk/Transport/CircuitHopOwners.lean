import AukiSdk.Foundation.Run
import AukiSdk.Transport.CircuitHopInvariant

/-!
# Owners of a shared hop

Any calls on the hop table, with their replies.
-/

namespace AukiSdk.Transport

open AukiSdk.Foundation List Function
open AukiSdk.Net
open AukiSdk.Relay
open Std (ExtTreeMap)

/-- A call on the table. -/
inductive HopCall where
  | nextOwner
  | acquire (key : CircuitHopKey)
  | markPending (key : CircuitHopKey)
  | established (key : CircuitHopKey) (connectionId : ConnectionId)
      (owners : List CircuitHopOwner)
  | failPending (key : CircuitHopKey)
  | release (connectionId : ConnectionId) (owner : CircuitHopOwner)
  | invalidate (connectionId : ConnectionId)
  | prepareReplacement (key : CircuitHopKey) (old : ConnectionId)
  deriving DecidableEq

/-- What a call returns. -/
inductive HopReply where
  | done
  | owner (owner : CircuitHopOwner)
  | acquired (acquire : CircuitAcquire)
  | released (close : Bool)
  | refused (reason : String)
  deriving DecidableEq

/-- One call. -/
def CircuitHopTable.perform (table : CircuitHopTable) : HopCall → HopReply × CircuitHopTable
  | .nextOwner => (.owner table.nextOwner, { table with lastOwner := table.nextOwner })
  | .acquire key => ((.acquired (table.acquire key).1), (table.acquire key).2)
  | .markPending key => (.done, table.markPending key)
  | .established key connectionId owners => (.done, table.established key connectionId owners)
  | .failPending key => (.done, table.failPending key)
  | .release connectionId owner =>
    (.released (table.release connectionId owner).1, (table.release connectionId owner).2)
  | .invalidate connectionId => (.done, table.invalidate connectionId)
  | .prepareReplacement key old =>
    match table.prepareReplacement key old with
    | .error reason => (.refused reason, table)
    | .ok next => (.done, next)

/-- A call with its reply. -/
abbrev HopEvent := HopCall × HopReply

/-- The table and what was called on it. -/
structure HopRun where
  table : CircuitHopTable
  events : List HopEvent

def HopRun.step (run : HopRun) (call : HopCall) : HopRun :=
  ⟨(run.table.perform call).2, run.events ++ [(call, (run.table.perform call).1)]⟩

variable (calls : List HopCall)

/-- The event hands `owner` out for the connection. -/
def HandsOut (connectionId : ConnectionId) (owner : CircuitHopOwner) : HopEvent → Prop
  | (.established _ recorded owners, _) => recorded = connectionId ∧ owner ∈ owners
  | (_, .acquired acquire) => acquire = .live connectionId owner
  | _ => False

/-- `owner` was handed out for the connection and not released since. -/
def Holds (connectionId : ConnectionId) (events : List HopEvent) (owner : CircuitHopOwner) :
    Prop :=
  ∃ before event after, events = before ++ event :: after ∧
    HandsOut connectionId owner event ∧
    ∀ later ∈ after, later.1 ≠ .release connectionId owner

/-- Neither invalidates the connection nor records it again. -/
def Keeps (connectionId : ConnectionId) (event : HopEvent) : Prop :=
  event.1 ≠ .invalidate connectionId ∧
    ∀ key owners, event.1 ≠ .established key connectionId owners

theorem holds_concat {connectionId : ConnectionId} {events : List HopEvent} {event : HopEvent}
    {owner : CircuitHopOwner} :
    Holds connectionId (events ++ [event]) owner ↔ HandsOut connectionId owner event ∨
        (Holds connectionId events owner ∧ event.1 ≠ .release connectionId owner) := by
  constructor
  · rintro ⟨before, found, after, hsp, hhnd, hkept⟩
    rcases concat_eq_append_cons hsp with ⟨-, rfl, -⟩ | ⟨rest, rfl, rfl⟩
    · exact .inl hhnd
    · right
      refine ⟨⟨before, found, rest, rfl, hhnd, fun later hlat => hkept later ?_⟩, hkept event ?_⟩
      · exact mem_append_left _ hlat
      · exact mem_append_right _ (mem_singleton_self _)
  · rintro (hhnd | ⟨⟨before, found, after, rfl, hhnd, hkept⟩, hev⟩)
    · exact ⟨events, event, [], rfl, hhnd, by simp⟩
    · refine ⟨before, found, after ++ [event], by simp, hhnd, ?_⟩
      intro later hlat
      rcases mem_append.mp hlat with hlat | hlat
      · exact hkept later hlat
      · rw [mem_singleton.mp hlat]
        exact hev

namespace CircuitHopTable

theorem forget_byConnection (table : CircuitHopTable) (connectionId : ConnectionId)
    (key : CircuitHopKey) :
    (table.forget connectionId key).byConnection = table.byConnection.erase connectionId := by
  rw [forget, restorePrevious_byConnection]
  split
  · rfl
  · rfl

theorem release_owners (table : CircuitHopTable) {connectionId other : ConnectionId}
    (hne : other ≠ connectionId) (owner : CircuitHopOwner) :
    (table.release connectionId owner).2.byConnection[other]? = table.byConnection[other]? := by
  simp only [release]
  split
  · rfl
  · split
    · rfl
    · split
      · exact (FiniteMap.getElem?_insert _ _ _ _).trans (if_neg hne)
      · rw [forget_byConnection, FiniteMap.getElem?_erase, if_neg hne,
          FiniteMap.getElem?_insert, if_neg hne]

theorem release_recorded {table : CircuitHopTable} {connectionId : ConnectionId}
    {entry : CircuitHopEntry} (hent : table.byConnection[connectionId]? = some entry)
    (hown : entry.owners.Nonempty) (owner : CircuitHopOwner) :
    (entry.owners.erase owner = ∅ ∧ (table.release connectionId owner).1 = true ∧
      (table.release connectionId owner).2.byConnection[connectionId]? = none) ∨
    ((entry.owners.erase owner).Nonempty ∧ (table.release connectionId owner).1 = false ∧
      (table.release connectionId owner).2.byConnection[connectionId]? =
        some { entry with owners := entry.owners.erase owner }) := by
  simp only [release, hent]
  by_cases howner : owner ∈ entry.owners
  · rw [if_neg (not_not.mpr howner)]
    by_cases hlast : entry.owners.erase owner = ∅
    · left
      rw [if_neg (not_not.mpr hlast), forget_byConnection, FiniteMap.getElem?_erase, if_pos rfl]
      exact ⟨hlast, rfl, rfl⟩
    · right
      rw [if_pos hlast, FiniteMap.getElem?_insert, if_pos rfl]
      exact ⟨Finset.nonempty_iff_ne_empty.mpr hlast, rfl, rfl⟩
  · right
    rw [if_pos howner, Finset.erase_eq_of_notMem howner]
    exact ⟨hown, rfl, hent⟩

theorem release_unknown {table : CircuitHopTable} {connectionId : ConnectionId}
    (hnone : table.byConnection[connectionId]? = none) (owner : CircuitHopOwner) :
    table.release connectionId owner = (true, table) := by
  rw [release, hnone]

theorem acquire_owners (table : CircuitHopTable) (key : CircuitHopKey)
    (connectionId : ConnectionId) :
    ((∀ owner, (table.acquire key).1 ≠ .live connectionId owner) ∧
      (table.acquire key).2.byConnection[connectionId]? = table.byConnection[connectionId]?) ∨
    ∃ entry, table.byConnection[connectionId]? = some entry ∧
      (table.acquire key).1 = .live connectionId table.nextOwner ∧
      (table.acquire key).2.byConnection[connectionId]? =
        some { entry with owners := insert table.nextOwner entry.owners } := by
  simp only [acquire]
  split
  · left
    refine ⟨fun owner => ?_, rfl⟩
    split
    · exact CircuitAcquire.noConfusion
    · exact CircuitAcquire.noConfusion
  · rename_i found _
    split
    · left
      refine ⟨fun owner => ?_, rfl⟩
      split
      · exact CircuitAcquire.noConfusion
      · exact CircuitAcquire.noConfusion
    · rename_i entry hent
      by_cases hsm : connectionId = found
      · right
        subst hsm
        exact ⟨entry, hent, rfl, (FiniteMap.getElem?_insert _ _ _ _).trans (if_pos rfl)⟩
      · left
        refine ⟨fun owner heq => ?_, (FiniteMap.getElem?_insert _ _ _ _).trans (if_neg hsm)⟩
        rw [CircuitAcquire.live.injEq] at heq
        exact hsm heq.1.symm

theorem established_other (table : CircuitHopTable) {connectionId other : ConnectionId}
    (hne : connectionId ≠ other) (key : CircuitHopKey) (owners : List CircuitHopOwner) :
    (table.established key other owners).byConnection[connectionId]? =
      table.byConnection[connectionId]? := by
  simp only [established]
  split
  · rw [restorePrevious_byConnection]
  · exact (FiniteMap.getElem?_insert _ _ _ _).trans (if_neg hne)

theorem invalidate_other (table : CircuitHopTable) {connectionId other : ConnectionId}
    (hne : connectionId ≠ other) :
    (table.invalidate other).byConnection[connectionId]? = table.byConnection[connectionId]? := by
  simp only [invalidate]
  split
  · rfl
  · rw [forget_byConnection, FiniteMap.getElem?_erase, if_neg hne]

theorem prepareReplacement_byConnection {table next : CircuitHopTable} {key : CircuitHopKey}
    {old : ConnectionId} (hprep : table.prepareReplacement key old = .ok next) :
    next.byConnection = table.byConnection := by
  simp only [prepareReplacement] at hprep
  split at hprep
  · cases hprep
  · split at hprep
    · cases hprep
      rfl
    · split at hprep
      · cases hprep
      · cases hprep
        rfl

end CircuitHopTable

/-- A recorded connection's owners hold it; otherwise nobody does. -/
structure Accounts (connectionId : ConnectionId) (events : List HopEvent)
    (table : CircuitHopTable) : Prop where
  recorded : ∀ entry, table.byConnection[connectionId]? = some entry →
    entry.owners.Nonempty ∧ ∀ owner, owner ∈ entry.owners ↔ Holds connectionId events owner
  unknown : table.byConnection[connectionId]? = none → ∀ owner, ¬ Holds connectionId events owner

variable {connectionId : ConnectionId} {events : List HopEvent} {table : CircuitHopTable}

theorem Accounts.quiet (hacc : Accounts connectionId events table) {next : CircuitHopTable}
    (hsm : next.byConnection[connectionId]? = table.byConnection[connectionId]?)
    {event : HopEvent} (hhnd : ∀ owner, ¬ HandsOut connectionId owner event)
    (hrel : ∀ owner, event.1 ≠ .release connectionId owner) :
    Accounts connectionId (events ++ [event]) next := by
  have hhld : ∀ owner, Holds connectionId (events ++ [event]) owner ↔
      Holds connectionId events owner := by
    intro owner
    rw [holds_concat]
    simp [hhnd owner, hrel owner]
  constructor
  · intro entry hent
    rw [hsm] at hent
    obtain ⟨hnon, hown⟩ := hacc.recorded entry hent
    exact ⟨hnon, fun owner => (hown owner).trans (hhld owner).symm⟩
  · intro hnone owner
    rw [hhld]
    exact hacc.unknown (hsm ▸ hnone) owner

theorem Accounts.release (hacc : Accounts connectionId events table)
    (owner : CircuitHopOwner) :
    Accounts connectionId
      (events ++ [(HopCall.release connectionId owner,
        HopReply.released (table.release connectionId owner).1)])
      (table.release connectionId owner).2 ∧
    ((table.release connectionId owner).1 = true ↔ ∀ other, ¬ Holds connectionId
      (events ++ [(HopCall.release connectionId owner,
        HopReply.released (table.release connectionId owner).1)])
      other) := by
  have hhld : ∀ other, Holds connectionId
      (events ++ [(HopCall.release connectionId owner,
        HopReply.released (table.release connectionId owner).1)])
      other ↔ Holds connectionId events other ∧ other ≠ owner := by
    intro other
    rw [holds_concat]
    simp [HandsOut, eq_comm]
  cases hent : table.byConnection[connectionId]? with
  | none =>
    have hnob := hacc.unknown hent
    have hunch := CircuitHopTable.release_unknown hent owner
    refine ⟨⟨?_, fun _ other ho => hnob other ((hhld other).mp ho).1⟩, ?_⟩
    · intro entry hf
      rw [hunch, hent] at hf
      cases hf
    · refine ⟨fun _ other ho => hnob other ((hhld other).mp ho).1, fun _ => ?_⟩
      rw [hunch]
  | some entry =>
    obtain ⟨hnon, hown⟩ := hacc.recorded entry hent
    have hleft : ∀ other, other ∈ entry.owners.erase owner ↔ Holds connectionId
        (events ++ [(HopCall.release connectionId owner,
          HopReply.released (table.release connectionId owner).1)]) other := by
      intro other
      rw [hhld, Finset.mem_erase, hown, and_comm]
    rcases CircuitHopTable.release_recorded hent hnon owner with
      ⟨hemp, hclo, hgone⟩ | ⟨hrest, hopen, hkept⟩
    · have hnob : ∀ other, ¬ Holds connectionId (events ++ [(HopCall.release connectionId owner,
          HopReply.released (table.release connectionId owner).1)]) other := by
        intro other ho
        have hm := (hleft other).mpr ho
        rw [hemp] at hm
        exact absurd hm (Finset.notMem_empty other)
      refine ⟨⟨?_, fun _ => hnob⟩, fun _ => hnob, fun _ => hclo⟩
      intro found hf
      rw [hgone] at hf
      cases hf
    · refine ⟨⟨?_, ?_⟩, ?_⟩
      · intro found hf
        rw [hkept, Option.some.injEq] at hf
        subst hf
        exact ⟨hrest, hleft⟩
      · intro hnone
        rw [hkept] at hnone
        cases hnone
      · rw [hopen]
        refine ⟨(fun hcl => by cases hcl), fun hnob => ?_⟩
        obtain ⟨other, ho⟩ := hrest
        have hheld := (hleft other).mp ho
        rw [hopen] at hheld
        exact absurd hheld (hnob other)

theorem Accounts.step (hacc : Accounts connectionId events table) (call : HopCall)
    (hkps : Keeps connectionId (call, (table.perform call).1)) :
    Accounts connectionId (events ++ [(call, (table.perform call).1)]) (table.perform call).2 := by
  cases call with
  | nextOwner =>
    apply hacc.quiet
    · rfl
    · exact fun owner hhnd => hhnd
    · exact fun owner => HopCall.noConfusion
  | acquire key =>
    rcases table.acquire_owners key connectionId with
      ⟨hnev, hsm⟩ | ⟨entry, hent, hlive, hn⟩
    · apply hacc.quiet hsm
      · exact hnev
      · exact fun owner => HopCall.noConfusion
    · obtain ⟨hnon, hown⟩ := hacc.recorded entry hent
      constructor
      · intro found hf
        rw [CircuitHopTable.perform, hn, Option.some.injEq] at hf
        subst hf
        refine ⟨Finset.insert_nonempty _ _, fun owner => ?_⟩
        rw [Finset.mem_insert, hown, holds_concat]
        simp [CircuitHopTable.perform, HandsOut, hlive, eq_comm]
      · intro hnone
        rw [CircuitHopTable.perform, hn] at hnone
        cases hnone
  | markPending key =>
    apply hacc.quiet
    · rfl
    · exact fun owner hhnd => hhnd
    · exact fun owner => HopCall.noConfusion
  | established key other owners =>
    have hne : connectionId ≠ other := by
      rintro rfl
      exact hkps.2 key owners rfl
    apply hacc.quiet (table.established_other hne key owners)
    · exact fun owner hhnd => hne hhnd.1.symm
    · exact fun owner => HopCall.noConfusion
  | failPending key =>
    apply hacc.quiet
    · simp only [CircuitHopTable.perform, CircuitHopTable.failPending_byConnection]
    · exact fun owner hhnd => hhnd
    · exact fun owner => HopCall.noConfusion
  | release other owner =>
    by_cases hsm : other = connectionId
    · subst hsm
      exact (hacc.release owner).1
    · apply hacc.quiet (table.release_owners (Ne.symm hsm) owner)
      · exact fun owner hhnd => hhnd
      · intro released heq
        rw [HopCall.release.injEq] at heq
        exact hsm heq.1
  | invalidate other =>
    have hne : connectionId ≠ other := by
      rintro rfl
      exact hkps.1 rfl
    apply hacc.quiet (table.invalidate_other hne)
    · exact fun owner hhnd => hhnd
    · exact fun owner => HopCall.noConfusion
  | prepareReplacement key old =>
    cases hprep : table.prepareReplacement key old with
    | error reason =>
      simp only [CircuitHopTable.perform, hprep]
      apply hacc.quiet rfl
      · exact fun owner hhnd => hhnd
      · exact fun owner => HopCall.noConfusion
    | ok next =>
      simp only [CircuitHopTable.perform, hprep]
      apply hacc.quiet
      · rw [CircuitHopTable.prepareReplacement_byConnection hprep]
      · exact fun owner hhnd => hhnd
      · exact fun owner => HopCall.noConfusion

theorem not_handsOut_of_unknown (hunk : table.byConnection[connectionId]? = none)
    {call : HopCall} (hkps : Keeps connectionId (call, (table.perform call).1))
    (owner : CircuitHopOwner) :
    ¬ HandsOut connectionId owner (call, (table.perform call).1) := by
  intro hhnd
  cases call with
  | acquire key =>
    rcases table.acquire_owners key connectionId with ⟨hnev, -⟩ | ⟨entry, hent, -, -⟩
    · exact hnev owner hhnd
    · rw [hunk] at hent
      cases hent
  | established key other owners =>
    obtain ⟨rfl, -⟩ := hhnd
    exact hkps.2 key owners rfl
  | prepareReplacement key old =>
    simp only [CircuitHopTable.perform] at hhnd
    split at hhnd
    · exact hhnd
    · exact hhnd
  | nextOwner => exact hhnd
  | markPending key => exact hhnd
  | failPending key => exact hhnd
  | release other released => exact hhnd
  | invalidate other => exact hhnd

/-- What is promised of the releases of a connection that was recorded. -/
structure ReleasedByLastOwner (connectionId : ConnectionId) (events : List HopEvent) : Prop where
  /-- A release closes the connection exactly when it leaves no owner behind. -/
  close_iff : ∀ before owner close after,
    events = before ++ (HopCall.release connectionId owner, HopReply.released close) :: after →
    (close = true ↔ ∀ other, ¬ Holds connectionId
      (before ++ [(HopCall.release connectionId owner, HopReply.released close)]) other)
  /-- After that nobody gets the connection, and every release of it closes. -/
  closed : ∀ before owner after,
    events = before ++ (HopCall.release connectionId owner, HopReply.released true) :: after →
    ∀ event ∈ after, (∀ other, ¬ HandsOut connectionId other event) ∧
      ∀ other close,
        event = (HopCall.release connectionId other, HopReply.released close) → close = true

theorem Holds.of_append {later : List HopEvent} {owner : CircuitHopOwner}
    (hqui : ∀ event ∈ later, ¬ HandsOut connectionId owner event)
    (hhld : Holds connectionId (events ++ later) owner) : Holds connectionId events owner := by
  induction later using List.reverseRecOn with
  | nil => rwa [append_nil] at hhld
  | append_singleton later event ih =>
    rw [← append_assoc, holds_concat] at hhld
    rcases hhld with hhnd | ⟨hhld, -⟩
    · exact absurd hhnd (hqui event (by simp))
    · exact ih (fun other ho => hqui other (mem_append_left _ ho)) hhld

theorem Accounts.unknown_of_nobody (hacc : Accounts connectionId events table)
    (hnob : ∀ owner, ¬ Holds connectionId events owner) :
    table.byConnection[connectionId]? = none := by
  cases hent : table.byConnection[connectionId]? with
  | none => rfl
  | some entry =>
    obtain ⟨⟨owner, hown⟩, hows⟩ := hacc.recorded entry hent
    exact absurd ((hows owner).mp hown) (hnob owner)

theorem ReleasedByLastOwner.step (hrel : ReleasedByLastOwner connectionId events)
    (hacc : Accounts connectionId events table) (call : HopCall)
    (hkps : Keeps connectionId (call, (table.perform call).1)) :
    ReleasedByLastOwner connectionId (events ++ [(call, (table.perform call).1)]) := by
  constructor
  · intro before owner close after hsp
    rcases concat_eq_append_cons hsp with ⟨-, hlast, rfl⟩ | ⟨rest, -, hevs⟩
    · rw [Prod.mk.injEq] at hlast
      obtain ⟨rfl, hrep⟩ := hlast
      rw [CircuitHopTable.perform, HopReply.released.injEq] at hrep
      rw [hrep]
      exact (hacc.release owner).2
    · exact hrel.close_iff before owner close rest hevs
  · intro before owner after hsp event hev
    rcases concat_eq_append_cons hsp with ⟨rfl, -, -⟩ | ⟨rest, rfl, hevs⟩
    · cases hev
    · have hpri := hrel.closed before owner rest hevs
      rcases mem_append.mp hev with hev | hev
      · exact hpri event hev
      · rw [mem_singleton] at hev
        subst hev
        have hnob : ∀ other, ¬ Holds connectionId events other := by
          intro other ho
          rw [hevs, append_cons] at ho
          exact (hrel.close_iff before owner true rest hevs).mp rfl other
            (ho.of_append fun event hev => (hpri event hev).1 other)
        have hunk := hacc.unknown_of_nobody hnob
        refine ⟨not_handsOut_of_unknown hunk hkps, ?_⟩
        · intro other close heq
          rw [Prod.mk.injEq] at heq
          obtain ⟨rfl, hrep⟩ := heq
          rw [CircuitHopTable.perform, HopReply.released.injEq,
            CircuitHopTable.release_unknown hunk] at hrep
          exact hrep.symm

/-- The call records the connection with its first owners. -/
def Records (connectionId : ConnectionId) (event : HopEvent) : Prop :=
  ∃ key owners, owners ≠ [] ∧ event.1 = .established key connectionId owners

end AukiSdk.Transport
