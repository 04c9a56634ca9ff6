import AukiSdk.Authority.BrowserSupervisor

/-!
# The ledger of the browser's authority

What an authority supervisor is for.
-/

namespace AukiSdk.Authority.Browser

open AukiSdk.Authority List
open AukiSdk.Booking
open AukiSdk.Foundation
open AukiSdk.Net

structure Ledger where
  current : CurrentAuthority
  pending : Option PendingAuthority
  stopped : Bool
  failed : Option AuthFailureKind

/-- An answer the ledger allows at this time. -/
def Ledger.Allows (ledger : Ledger) (now : DateTime) : Answer → Prop
  | .authorized (some (header, revision)) =>
    ledger.stopped = false ∧ ledger.failed = none ∧ header = ledger.current.header ∧
      revision = ledger.current.revision ∧ now < ledger.current.expiresAt
  | .refreshed rejected (.ok ()) => rejected < ledger.current.revision
  | .stopped => ledger.stopped = true
  | _ => True

/-- One event turns a ledger into the next. -/
inductive Ledger.Records : Ledger → SupervisorEvent → Ledger → Prop
  | delivered {ledger : Ledger} (pending : PendingAuthority) (hfree : ledger.pending = none)
      (hrunning : ledger.stopped = false ∧ ledger.failed = none)
      (hheader : toSensitiveBearerHeader pending.update.credential = .ok pending.header) :
      Records ledger (.delivered pending) { ledger with pending := some pending }
  | expired {ledger : Ledger} (pending : PendingAuthority) (now : DateTime)
      (hpending : ledger.pending = some pending) (hexpired : pending.expiresAt ≤ now) :
      Records ledger (.expired pending now) { ledger with pending := none }
  | rejected {ledger : Ledger} (pending : PendingAuthority)
      (hpending : ledger.pending = some pending)
      (hrunning : ledger.stopped = false ∧ ledger.failed = none) :
      Records ledger (.rejected pending) ledger
  | installed {ledger : Ledger} (pending : PendingAuthority)
      (hpending : ledger.pending = some pending)
      (hrunning : ledger.stopped = false ∧ ledger.failed = none) :
      Records ledger
        (.installed pending ⟨pending.header, ledger.current.revision + 1, pending.renewAt,
          pending.expiresAt⟩)
        { ledger with
          current := ⟨pending.header, ledger.current.revision + 1, pending.renewAt,
            pending.expiresAt⟩
          pending := none }
  | failed {ledger : Ledger} (kind : AuthFailureKind)
      (hrunning : ledger.stopped = false ∧ ledger.failed = none) :
      Records ledger (.failed kind) { ledger with failed := some kind }
  | stopped {ledger : Ledger} :
      Records ledger .stopped { ledger with stopped := true, pending := none }
  | returned {ledger : Ledger} (call : ℕ) (answer : Answer) (now : DateTime)
      (hallows : ledger.Allows now answer) : Records ledger (.returned call answer now) ledger

/-- A log turns a ledger into the last one. -/
inductive Ledger.Logs (start : Ledger) : List SupervisorEvent → Ledger → Prop
  | nil : Logs start [] start
  | concat {log : List SupervisorEvent} {ledger next : Ledger} {event : SupervisorEvent}
      (hlog : Logs start log ledger) (hevent : Ledger.Records ledger event next) :
      Logs start (log ++ [event]) next

variable {start ledger next : Ledger} {log before after : List SupervisorEvent}
variable {event : SupervisorEvent}

theorem Ledger.Logs.split (hlogs : Ledger.Logs start log ledger)
    (hlog : log = before ++ event :: after) :
    ∃ middle next, Ledger.Logs start before middle ∧ Ledger.Records middle event next := by
  induction hlogs generalizing before after with
  | nil => simp at hlog
  | @concat shorter middle last found hsho hf ih =>
    rcases concat_eq_append_cons hlog with ⟨rfl, rfl, rfl⟩ | ⟨rest, rfl, hrest⟩
    · exact ⟨middle, last, hsho, hf⟩
    · exact ih hrest

def SupervisorEvent.authority : SupervisorEvent → Option CurrentAuthority
  | .installed _ authority => some authority
  | _ => none

/-- The authorities that were in force, oldest first. -/
def authorities (current : CurrentAuthority) (log : List SupervisorEvent) :
    List CurrentAuthority :=
  current :: log.filterMap SupervisorEvent.authority

theorem authorities_concat (current : CurrentAuthority) (log : List SupervisorEvent)
    (event : SupervisorEvent) :
    authorities current (log ++ [event]) = authorities current log ++ event.authority.toList := by
  rw [authorities, filterMap_append, ← cons_append, ← authorities]
  cases h : event.authority <;> simp [h]

theorem authorities_concat_of_none {current : CurrentAuthority} {log : List SupervisorEvent}
    {event : SupervisorEvent} (hev : event.authority = none) :
    authorities current (log ++ [event]) = authorities current log := by
  rw [authorities_concat, hev, Option.toList_none, append_nil]

/-- The last authority installed is in force, and each has the next revision. -/
structure Ledger.Counts (current : CurrentAuthority) (log : List SupervisorEvent)
    (ledger : Ledger) : Prop where
  inForce : (authorities current log).getLast? = some ledger.current
  revisions : (authorities current log).map CurrentAuthority.revision =
    List.range' current.revision (authorities current log).length
  last : ledger.current.revision + 1 = current.revision + (authorities current log).length

theorem Ledger.Logs.counts (hlogs : Ledger.Logs start log ledger) :
    ledger.Counts start.current log := by
  induction hlogs with
  | nil => exact ⟨rfl, rfl, rfl⟩
  | @concat log ledger next event hlog hev ih =>
    cases hev with
    | installed pending hpend hrun =>
      refine ⟨?_, ?_, ?_⟩
      · rw [authorities_concat]
        exact getLast?_concat
      · rw [authorities_concat, map_append, ih.revisions, length_append]
        simp only [SupervisorEvent.authority, Option.toList_some, map_cons,
          map_nil, length_singleton, range'_concat, one_mul, ← ih.last]
      · rw [authorities_concat, length_append]
        simp only [SupervisorEvent.authority, Option.toList_some, length_singleton,
          ← add_assoc, ← ih.last]
    | delivered | expired | rejected | failed | stopped | returned =>
      refine ⟨?_, ?_, ?_⟩ <;> rw [authorities_concat_of_none rfl]
      · exact ih.inForce
      · exact ih.revisions
      · exact ih.last

theorem Ledger.Counts.mem {current : CurrentAuthority} (hcou : ledger.Counts current log) :
    ledger.current ∈ authorities current log :=
  mem_of_getLast? hcou.inForce

/-- An event that says that the supervisor has stopped or failed for good. -/
def SupervisorEvent.ends : SupervisorEvent → Bool
  | .stopped | .failed _ | .returned _ .stopped _ => true
  | _ => false

theorem Ledger.Logs.running (hlogs : Ledger.Logs start log ledger)
    (hrun : ledger.stopped = false ∧ ledger.failed = none) :
    ∀ event ∈ log, event.ends = false := by
  induction hlogs with
  | nil => simp
  | @concat log ledger next event hlog hev ih =>
    rw [forall_mem_append, forall_mem_singleton]
    cases hev with
    | failed => cases hrun.2
    | stopped => cases hrun.1
    | returned call answer now hallows =>
      refine ⟨ih hrun, ?_⟩
      cases answer with
      | stopped => exact absurd (hrun.1.symm.trans hallows) (by simp)
      | _ => rfl
    | _ => exact ⟨ih hrun, rfl⟩

/-- What an event leaves in hand. -/
def SupervisorEvent.hand (hand : Option PendingAuthority) :
    SupervisorEvent → Option PendingAuthority
  | .delivered pending => some pending
  | .expired _ _ | .installed _ _ | .stopped => none
  | .rejected _ | .failed _ | .returned _ _ _ => hand

/-- The update that was delivered and is not yet installed, expired or dropped by a stop. -/
def inHand (log : List SupervisorEvent) : Option PendingAuthority :=
  log.foldl SupervisorEvent.hand none

theorem Ledger.Logs.pending_eq (hlogs : Ledger.Logs start log ledger)
    (hbeg : start.pending = none) : ledger.pending = inHand log := by
  induction hlogs with
  | nil => exact hbeg
  | @concat log ledger next event hlog hev ih =>
    rw [inHand, foldl_append, ← inHand, ← ih]
    cases hev <;> rfl

theorem mem_of_inHand {pending : PendingAuthority} (hpend : inHand log = some pending) :
    .delivered pending ∈ log := by
  induction log using List.reverseRecOn with
  | nil => cases hpend
  | append_singleton log event ih =>
    rw [inHand, foldl_append, ← inHand] at hpend
    rw [mem_append]
    cases event with
    | delivered found =>
      cases hpend
      exact Or.inr (mem_singleton_self _)
    | expired | installed | stopped => cases hpend
    | rejected | failed | returned => exact Or.inl (ih hpend)

end AukiSdk.Authority.Browser
