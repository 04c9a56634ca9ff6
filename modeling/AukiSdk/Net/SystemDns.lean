import AukiSdk.Net.Multiaddr

/-!
# Resolution of DNS components by the system

The worklist of `resolve_multiaddr` expands the first DNS component of the address on top.
-/

namespace AukiSdk.Net

open AukiSdk.Foundation List

def maxDnsLookups : ℕ := 32

def maxResolvedAddresses : ℕ := 16

inductive IpAddr where
  | v4 (address : Ipv4Addr)
  | v6 (address : Ipv6Addr)
  deriving DecidableEq

inductive AddressFamily where
  | any
  | ipv4
  | ipv6
  deriving DecidableEq

def AddressFamily.matches : AddressFamily → IpAddr → Bool
  | .any, _ => true
  | .ipv4, .v4 _ => true
  | .ipv6, .v6 _ => true
  | _, _ => false

/-- `Protocol::from` of an address. -/
def Protocol.ofIp : IpAddr → Protocol
  | .v4 address => .ip4 address
  | .v6 address => .ip6 address

/-- `io::ErrorKind`; the resolver may give any other kind. -/
inductive ErrorKind where
  | unsupported
  | invalidData
  | addrNotAvailable
  | other (name : String)
  deriving DecidableEq

structure IoError where
  kind : ErrorKind
  message : String
  deriving DecidableEq

/-- `next_dns_component`, for the components from `index` on. -/
def nextDnsComponentFrom (index : ℕ) :
    Multiaddr → Except IoError (Option (ℕ × String × AddressFamily))
  | [] => .ok none
  | .dns name :: _ => .ok (some (index, name, .any))
  | .dns4 name :: _ => .ok (some (index, name, .ipv4))
  | .dns6 name :: _ => .ok (some (index, name, .ipv6))
  | .dnsaddr name :: _ => .error ⟨.unsupported,
      "/dnsaddr/" ++ name ++ " is not supported by the iOS system resolver"⟩
  | _ :: rest => nextDnsComponentFrom (index + 1) rest

def nextDnsComponent (address : Multiaddr) :
    Except IoError (Option (ℕ × String × AddressFamily)) :=
  nextDnsComponentFrom 0 address

variable (resolver : String → Except IoError (List IpAddr))

/-- `system_lookup`.  The set of addresses seen keeps the first of equal ones. -/
def systemLookup (name : String) (family : AddressFamily) : Except IoError (List IpAddr) :=
  match resolver name with
  | .error error => .error error
  | .ok ips => .ok ((ips.filter family.matches).eraseDups.take maxResolvedAddresses)

def replaceDnsComponent (address : Multiaddr) (index : ℕ) (family : AddressFamily)
    (ips : List IpAddr) : List Multiaddr :=
  ((ips.filter family.matches).take maxResolvedAddresses).filterMap fun ip =>
    if index < address.length then some (address.set index (.ofIp ip)) else none

/-- The loop that pushes the reversed replacements.  The stack has its top first. -/
def pushReplacements (resolved : ℕ) : List Multiaddr → List Multiaddr → List Multiaddr
  | [], unresolved => unresolved
  | replacement :: rest, unresolved =>
    if unresolved.length + resolved = maxResolvedAddresses then unresolved
    else pushReplacements resolved rest (replacement :: unresolved)

/-- The result of a resolution, with the number of its lookups. -/
structure Resolution where
  lookups : ℕ
  result : Except IoError (List Multiaddr)
  deriving DecidableEq

/-- The loop of `resolve_multiaddr`; `none` stands for fuel that does not suffice. -/
def resolveLoop : ℕ → ℕ → List Multiaddr → List Multiaddr → Option Resolution
  | 0, _, _, _ => none
  | _ + 1, lookups, [], resolved => some ⟨lookups, .ok resolved⟩
  | fuel + 1, lookups, address :: unresolved, resolved =>
    match nextDnsComponent address with
    | .error error => some ⟨lookups, .error error⟩
    | .ok none =>
      if (resolved ++ [address]).length = maxResolvedAddresses then
        some ⟨lookups, .ok (resolved ++ [address])⟩
      else
        resolveLoop fuel lookups unresolved (resolved ++ [address])
    | .ok (some (index, name, family)) =>
      if lookups = maxDnsLookups then
        some ⟨lookups, .error ⟨.invalidData, "multiaddr requires too many DNS lookups"⟩⟩
      else
        match systemLookup resolver name family with
        | .error error => some ⟨lookups + 1, .error ⟨error.kind,
            "system DNS lookup failed for " ++ name ++ ": " ++ error.message⟩⟩
        | .ok ips =>
          if (replaceDnsComponent address index family ips).isEmpty then
            some ⟨lookups + 1, .error ⟨.addrNotAvailable,
              "system DNS returned no matching addresses for " ++ name⟩⟩
          else
            resolveLoop fuel (lookups + 1)
              (pushReplacements resolved.length
                (replaceDnsComponent address index family ips).reverse unresolved) resolved

/-- `resolve_multiaddr`, with fuel for every lookup and every result. -/
def resolveMultiaddr (address : Multiaddr) : Option Resolution :=
  resolveLoop resolver (maxDnsLookups + maxResolvedAddresses + 1) 0 [address] []

/-- The name and the family of a component that the system resolves. -/
def dnsComponent : Protocol → Option (String × AddressFamily)
  | .dns name => some (name, .any)
  | .dns4 name => some (name, .ipv4)
  | .dns6 name => some (name, .ipv6)
  | _ => none

/-- `contains_dns_component` of one component. -/
def isDns : Protocol → Bool
  | .dns _ | .dns4 _ | .dns6 _ | .dnsaddr _ => true
  | _ => false

/-- The addresses for a name, in order of preference. -/
def preferred (name : String) (family : AddressFamily) : List IpAddr :=
  match resolver name with
  | .error _ => []
  | .ok ips => (ips.filter family.matches).eraseDups.take 16

/-- What may stand in place of a component. -/
def choices (component : Protocol) : List Protocol :=
  if isDns component then
    match dnsComponent component with
    | none => []
    | some (name, family) => (preferred resolver name family).map .ofIp
  else
    [component]

/-- All choices for all components, in lexicographic order. -/
def expansion : Multiaddr → List Multiaddr
  | [] => [[]]
  | component :: rest =>
    (choices resolver component ×ˢ expansion rest).map fun part => part.1 :: part.2

variable {resolver} {address before after : Multiaddr}

theorem expansion_cons (component : Protocol) (rest : Multiaddr) :
    expansion resolver (component :: rest) = (choices resolver component).flatMap fun part =>
        (expansion resolver rest).map (part :: ·) := by
  change ((choices resolver component).flatMap fun part =>
    (expansion resolver rest).map (Prod.mk part)).map _ = _
  simp [map_flatMap, Function.comp_def]

theorem mem_expansion {route : Multiaddr} :
    route ∈ expansion resolver address ↔
      Forall₂ (fun component part => part ∈ choices resolver component) address route := by
  induction address generalizing route with
  | nil => simp [expansion]
  | cons component rest ih =>
    rw [expansion_cons, mem_flatMap, forall₂_cons_left_iff]
    simp only [mem_map, ih]
    constructor
    · rintro ⟨part, hpart, tail, htail, rfl⟩
      exact ⟨part, tail, hpart, htail, rfl⟩
    · rintro ⟨part, tail, hpart, htail, rfl⟩
      exact ⟨part, hpart, tail, htail, rfl⟩

theorem ofIp_injective : Function.Injective Protocol.ofIp := by
  rintro (_ | _) (_ | _) heq <;> simp_all [Protocol.ofIp]

theorem isDns_ofIp (ip : IpAddr) : isDns (.ofIp ip) = false := by
  cases ip <;> rfl

theorem isDns_of_mem_choices {component part : Protocol}
    (hpart : part ∈ choices resolver component) : isDns part = false := by
  unfold choices at hpart
  split at hpart
  · split at hpart
    · cases hpart
    · obtain ⟨ip, -, rfl⟩ := mem_map.mp hpart
      exact isDns_ofIp ip
  next hdns =>
    rw [mem_singleton.mp hpart]
    simpa using hdns

theorem isDns_of_forall₂ {route : Multiaddr}
    (hrou : Forall₂ (fun component part => part ∈ choices resolver component) address route) :
    ∀ part ∈ route, isDns part = false := by
  induction hrou with
  | nil => exact nofun
  | cons hpart _ ih => exact forall_mem_cons.mpr ⟨isDns_of_mem_choices hpart, ih⟩

theorem nodup_eraseDups {A : Type*} [DecidableEq A] (entries : List A) :
    entries.eraseDups.Nodup := by
  induction hlen : entries.length using Nat.strong_induction_on generalizing entries with
  | _ length ih =>
    cases entries with
    | nil => simp
    | cons head tail =>
      rw [eraseDups_cons, nodup_cons]
      refine ⟨?_, ih _ ?_ _ rfl⟩
      · simp [mem_eraseDups]
      · rw [← hlen]
        exact Nat.lt_succ_of_le (length_filter_le _ _)

theorem nodup_choices (component : Protocol) : (choices resolver component).Nodup := by
  unfold choices
  split
  · split
    · exact nodup_nil
    · refine Nodup.map ofIp_injective ?_
      unfold preferred
      split
      · exact nodup_nil
      · exact (nodup_eraseDups _).sublist (take_sublist _ _)
  · exact nodup_singleton _

theorem nodup_expansion (address : Multiaddr) : (expansion resolver address).Nodup := by
  induction address with
  | nil => exact nodup_singleton _
  | cons component rest ih =>
    refine Nodup.map ?_ ((nodup_choices component).product ih)
    rintro ⟨head, tail⟩ ⟨head', tail'⟩ heq
    simpa using heq

theorem expansion_append (hpla : ∀ component ∈ before, isDns component = false) :
    expansion resolver (before ++ after) = (expansion resolver after).map (before ++ ·) := by
  induction before with
  | nil => simp
  | cons component rest ih =>
    have hcho : choices resolver component = [component] := by
      simp [choices, hpla component mem_cons_self]
    rw [cons_append, expansion_cons, hcho,
      ih fun component hm => hpla component (mem_cons_of_mem _ hm)]
    simp [Function.comp_def]

theorem nextDnsComponentFrom_spec {index : ℕ} {next : Option (ℕ × String × AddressFamily)}
    (hn : nextDnsComponentFrom index address = .ok next) :
    match next with
    | none => ∀ component ∈ address, isDns component = false
    | some (position, name, family) => ∃ before component after,
      address = before ++ component :: after ∧ position = index + before.length ∧
      (∀ component ∈ before, isDns component = false) ∧
      dnsComponent component = some (name, family) := by
  induction address generalizing index with
  | nil =>
    cases hn
    exact nofun
  | cons component rest ih =>
    by_cases hdns : isDns component = true
    · cases component with
      | dns name =>
        cases hn
        exact ⟨[], _, rest, rfl, rfl, nofun, rfl⟩
      | dns4 name =>
        cases hn
        exact ⟨[], _, rest, rfl, rfl, nofun, rfl⟩
      | dns6 name =>
        cases hn
        exact ⟨[], _, rest, rfl, rfl, nofun, rfl⟩
      | dnsaddr name => cases hn
      | _ => cases hdns
    · have hno : isDns component = false := by simpa using hdns
      have htail : nextDnsComponentFrom (index + 1) rest = .ok next := by
        rw [← hn]
        cases component <;> first | rfl | cases hno
      have hspec := ih htail
      cases next with
      | none => exact forall_mem_cons.mpr ⟨hno, hspec⟩
      | some found =>
        obtain ⟨before, found, after, heq, hpos, hpla, hname⟩ := hspec
        refine ⟨component :: before, found, after, ?_, ?_, forall_mem_cons.mpr ⟨hno, hpla⟩, hname⟩
        · rw [heq, cons_append]
        · rw [hpos, length_cons]
          omega

theorem expansion_of_resolved (hn : nextDnsComponent address = .ok none) :
    expansion resolver address = [address] := by
  have hpla := nextDnsComponentFrom_spec hn
  simpa [expansion] using @expansion_append resolver address [] hpla

theorem mem_preferred {name : String} {family : AddressFamily} {ip : IpAddr}
    (hip : ip ∈ preferred resolver name family) : family.matches ip = true := by
  unfold preferred at hip
  split at hip
  · cases hip
  · exact (mem_filter.mp (mem_eraseDups.mp (mem_of_mem_take hip))).2

theorem length_preferred_le {name : String} {family : AddressFamily} :
    (preferred resolver name family).length ≤ 16 := by
  unfold preferred
  split
  · exact Nat.zero_le _
  · exact length_take_le _ _

/-- The replacements of a lookup divide the expansion in its order. -/
theorem replaceDnsComponent_spec {index : ℕ} {name : String} {family : AddressFamily}
    {ips : List IpAddr} (hn : nextDnsComponent address = .ok (some (index, name, family)))
    (hlook : systemLookup resolver name family = .ok ips) :
    expansion resolver address =
        (replaceDnsComponent address index family ips).flatMap (expansion resolver) ∧
      ∃ count, ∀ route ∈ replaceDnsComponent address index family ips,
        (expansion resolver route).length = count := by
  obtain ⟨before, component, after, rfl, hpos, hpla, hname⟩ := nextDnsComponentFrom_spec hn
  rw [Nat.zero_add] at hpos
  have hips : ips = preferred resolver name family := by
    unfold systemLookup at hlook
    cases hres : resolver name with
    | error error => simp [hres] at hlook
    | ok found =>
      rw [hres] at hlook
      rw [preferred, hres]
      exact (Except.ok.inj hlook).symm
  have hrts : replaceDnsComponent (before ++ component :: after) index family ips =
      ips.map fun ip => before ++ .ofIp ip :: after := by
    have hkept : (ips.filter family.matches).take maxResolvedAddresses = ips := by
      rw [filter_eq_self.mpr fun ip hip => mem_preferred (hips ▸ hip),
        take_of_length_le (hips ▸ length_preferred_le)]
    rw [replaceDnsComponent, hkept, ← filterMap_eq_map]
    congr 1
    funext ip
    simp [hpos]
  have hcho : choices resolver component = ips.map .ofIp := by
    have hdns : isDns component = true := by
      cases component <;> first | rfl | cases hname
    rw [choices, if_pos hdns, hname, hips]
  have heach (ip : IpAddr) : expansion resolver (before ++ .ofIp ip :: after) =
      (expansion resolver after).map fun route => before ++ .ofIp ip :: route := by
    rw [expansion_append hpla, expansion_cons, choices, isDns_ofIp]
    simp [Function.comp_def]
  constructor
  · rw [hrts, expansion_append hpla, expansion_cons, hcho]
    simp [flatMap_map, map_flatMap, heach, Function.comp_def]
  · refine ⟨(expansion resolver after).length, ?_⟩
    intro route hrou
    rw [hrts] at hrou
    obtain ⟨ip, -, rfl⟩ := mem_map.mp hrou
    rw [heach, length_map]

/-- Replacements are dropped only when the cap is reached, and then from the front. -/
theorem pushReplacements_spec {resolved : ℕ} {replacements unresolved : List Multiaddr}
    (hroom : unresolved.length + resolved ≤ 16) :
    ∃ dropped kept, replacements = dropped ++ kept ∧
      pushReplacements resolved replacements.reverse unresolved = kept ++ unresolved ∧
      (kept ++ unresolved).length + resolved ≤ 16 ∧
      (dropped = [] ∨ (kept ++ unresolved).length + resolved = 16) := by
  induction replacements using List.reverseRecOn generalizing unresolved with
  | nil => exact ⟨[], [], rfl, rfl, hroom, .inl rfl⟩
  | append_singleton rest last ih =>
    rw [reverse_append, reverse_singleton, singleton_append, pushReplacements]
    by_cases hfull : unresolved.length + resolved = maxResolvedAddresses
    · rw [if_pos hfull]
      exact ⟨rest ++ [last], [], (append_nil _).symm, rfl, hroom, .inr hfull⟩
    · rw [if_neg hfull]
      obtain ⟨dropped, kept, rfl, hpush, hle, hcap⟩ := @ih (last :: unresolved) (by
          rw [maxResolvedAddresses] at hfull
          rw [length_cons]
          omega)
      have hkept : kept ++ last :: unresolved = (kept ++ [last]) ++ unresolved := by simp
      rw [hkept] at hpush hle hcap
      exact ⟨dropped, kept ++ [last], append_assoc _ _ _, hpush, hle, hcap⟩

/-- The addresses that a state of the loop stands for, in order of preference. -/
def pendingRoutes (resolver : String → Except IoError (List IpAddr))
    (resolved unresolved : List Multiaddr) : List Multiaddr :=
  resolved ++ unresolved.flatMap (expansion resolver)

/-- What a run of the loop leaves of the addresses that its state stands for. -/
structure Result (resolver : String → Except IoError (List IpAddr))
    (resolved unresolved routes : List Multiaddr) : Prop where
  expands : ∀ address ∈ unresolved, expansion resolver address ≠ []
  atLeast : unresolved.length + resolved.length ≤ routes.length
  sound : routes ⊆ pendingRoutes resolver resolved unresolved
  exact : (pendingRoutes resolver resolved unresolved).Nodup →
    (routes = (pendingRoutes resolver resolved unresolved).take 16 ↔
      (pendingRoutes resolver resolved unresolved).length ≤ 16)

variable {resolved unresolved routes : List Multiaddr}

theorem result_of_done (hroom : resolved.length ≤ 16) : Result resolver resolved [] resolved where
  expands := nofun
  atLeast := by simp
  sound := by simp [pendingRoutes]
  exact := by simp [pendingRoutes, hroom, take_of_length_le]

theorem result_of_resolved (hn : nextDnsComponent address = .ok none)
    (hrest : Result resolver (resolved ++ [address]) unresolved routes) :
    Result resolver resolved (address :: unresolved) routes := by
  have hexp : expansion resolver address = [address] := expansion_of_resolved hn
  have hsm : pendingRoutes resolver resolved (address :: unresolved) =
      pendingRoutes resolver (resolved ++ [address]) unresolved := by
    simp [pendingRoutes, hexp]
  refine ⟨forall_mem_cons.mpr ⟨by simp [hexp], hrest.expands⟩, ?_, ?_, ?_⟩
  · have hle := hrest.atLeast
    simp only [length_append, length_cons, length_nil] at hle ⊢
    omega
  · exact hsm ▸ hrest.sound
  · exact hsm ▸ hrest.exact

theorem length_le_flatMap (hexp : ∀ address ∈ unresolved, expansion resolver address ≠ []) :
    unresolved.length ≤ (unresolved.flatMap (expansion resolver)).length := by
  induction unresolved with
  | nil => exact le_rfl
  | cons head tail ih =>
    have hhead := length_pos_iff.mpr (hexp head mem_cons_self)
    have htail := ih fun address hm => hexp address (mem_cons_of_mem _ hm)
    simp only [length_cons, flatMap_cons, length_append]
    omega

/-- Dropped first replacements lose the most preferred address pending. -/
theorem result_of_replaced {dropped kept : List Multiaddr} {count : ℕ}
    (hexp : expansion resolver address = (dropped ++ kept).flatMap (expansion resolver))
    (hcou : ∀ route ∈ dropped ++ kept, (expansion resolver route).length = count)
    (hsome : dropped ++ kept ≠ []) (hroom : (address :: unresolved).length + resolved.length ≤ 16)
    (hcap : dropped = [] ∨ (kept ++ unresolved).length + resolved.length = 16)
    (hrest : Result resolver resolved (kept ++ unresolved) routes) :
    Result resolver resolved (address :: unresolved) routes := by
  have hkept : kept ≠ [] := by
    rintro rfl
    rcases hcap with rfl | hcap
    · exact hsome rfl
    · simp only [nil_append, length_cons] at hcap hroom
      omega
  obtain ⟨last, hlast⟩ := exists_mem_of_ne_nil kept hkept
  have hpos : 0 < count := by
    rw [← hcou last (mem_append_right _ hlast)]
    exact length_pos_iff.mpr (hrest.expands last (mem_append_left _ hlast))
  have hsub : pendingRoutes resolver resolved (kept ++ unresolved) <+
      pendingRoutes resolver resolved (address :: unresolved) := by
    simp only [pendingRoutes, flatMap_append, flatMap_cons, hexp, append_assoc]
    exact (sublist_append_right _ _).append_left _
  refine ⟨forall_mem_cons.mpr ⟨?_, ?_⟩, ?_, ?_, ?_⟩
  · rw [hexp]
    intro hnil
    rw [flatMap_eq_nil_iff] at hnil
    exact hrest.expands last (mem_append_left _ hlast) (hnil last (mem_append_right _ hlast))
  · exact fun other hm => hrest.expands other (mem_append_right _ hm)
  · have hle := hrest.atLeast
    have hone := length_pos_iff.mpr hkept
    simp only [length_append, length_cons] at hle ⊢
    omega
  · exact fun route hm => hsub.subset (hrest.sound hm)
  · intro hnd
    cases dropped with
    | nil =>
      have hsm : pendingRoutes resolver resolved (address :: unresolved) =
          pendingRoutes resolver resolved (kept ++ unresolved) := by
        simp [pendingRoutes, hexp]
      rw [hsm] at hnd ⊢
      exact hrest.exact hnd
    | cons first more =>
      obtain ⟨lead, others, hlead⟩ := exists_cons_of_ne_nil
        (length_pos_iff.mp (hcou first mem_cons_self ▸ hpos))
      obtain ⟨left, hall⟩ : ∃ left, pendingRoutes resolver resolved (address :: unresolved) =
          resolved ++ lead :: (left ++ (kept ++ unresolved).flatMap (expansion resolver)) :=
        ⟨others ++ more.flatMap (expansion resolver), by
          simp [pendingRoutes, hexp, hlead]⟩
      have hlost : lead ∉ routes := by
        intro hm
        have hpend := hrest.sound hm
        rw [hall, nodup_append] at hnd
        obtain ⟨-, hlea, hapa⟩ := hnd
        cases mem_append.mp hpend with
        | inl hm => exact hapa lead hm lead mem_cons_self rfl
        | inr hm => exact (nodup_cons.mp hlea).1 (mem_append_right _ hm)
      have hlen := length_le_flatMap hrest.expands
      have hcap := hcap.resolve_left (cons_ne_nil first more)
      have hlong : 16 < (pendingRoutes resolver resolved (address :: unresolved)).length := by
        rw [hall]
        simp only [length_append, length_cons] at hcap hlen ⊢
        omega
      refine iff_of_false (fun heq => hlost ?_) (Nat.not_le.mpr hlong)
      rw [heq, hall, take_append]
      refine mem_append_right _ ?_
      rw [length_cons] at hroom
      rw [show 16 - resolved.length = (15 - resolved.length) + 1 by omega, take_succ_cons]
      exact mem_cons_self

theorem resolveLoop_ok {fuel lookups : ℕ} {outcome : Resolution}
    (hrun : resolveLoop resolver fuel lookups unresolved resolved = some outcome)
    (hok : outcome.result = .ok routes) (hroom : unresolved.length + resolved.length ≤ 16) :
    Result resolver resolved unresolved routes := by
  induction fuel generalizing lookups unresolved resolved with
  | zero => cases hrun
  | succ fuel ih =>
    cases unresolved with
    | nil =>
      cases hrun
      cases hok
      exact result_of_done (by simpa using hroom)
    | cons address unresolved =>
      rw [resolveLoop] at hrun
      cases hn : nextDnsComponent address with
      | error error =>
        simp only [hn, Option.some.injEq] at hrun
        rw [← hrun] at hok
        cases hok
      | ok next =>
        cases next with
        | none =>
          rw [length_cons] at hroom
          apply result_of_resolved hn
          simp only [hn] at hrun
          split at hrun
          next hfull =>
            rw [length_append, length_singleton, maxResolvedAddresses] at hfull
            obtain rfl : unresolved = [] := length_eq_zero_iff.mp (by omega)
            cases hrun
            cases hok
            exact result_of_done (by simp [hfull])
          next => exact ih hrun (by simp; omega)
        | some found =>
          obtain ⟨index, name, family⟩ := found
          simp only [hn] at hrun
          split at hrun
          next =>
            cases hrun
            cases hok
          next =>
            cases hlook : systemLookup resolver name family with
            | error error =>
              simp only [hlook, Option.some.injEq] at hrun
              rw [← hrun] at hok
              cases hok
            | ok ips =>
              simp only [hlook] at hrun
              split at hrun
              next =>
                cases hrun
                cases hok
              next hsome =>
                obtain ⟨hexp, count, hcou⟩ := replaceDnsComponent_spec hn hlook
                rw [List.isEmpty_iff] at hsome
                obtain ⟨dropped, kept, heq, hpush, hle, hcap⟩ :=
                  @pushReplacements_spec resolved.length
                    (replaceDnsComponent address index family ips) unresolved (by
                      rw [length_cons] at hroom
                      omega)
                rw [hpush] at hrun
                rw [heq] at hexp hcou hsome
                exact result_of_replaced hexp hcou hsome hroom hcap (ih hrun hle)

/-- Every turn of the loop spends a lookup or finishes an address. -/
theorem resolveLoop_ends {fuel lookups : ℕ} (hlook : lookups ≤ 32) (hroom : resolved.length < 16)
    (hfuel : (32 - lookups) + (16 - resolved.length) < fuel) :
    ∃ outcome, resolveLoop resolver fuel lookups unresolved resolved = some outcome ∧
      outcome.lookups ≤ 32 := by
  induction fuel generalizing lookups unresolved resolved with
  | zero => cases hfuel
  | succ fuel ih =>
    cases unresolved with
    | nil => exact ⟨_, rfl, hlook⟩
    | cons address unresolved =>
      rw [resolveLoop]
      cases hn : nextDnsComponent address with
      | error error => exact ⟨_, rfl, hlook⟩
      | ok next =>
        cases next with
        | none =>
          simp only
          split
          next => exact ⟨_, rfl, hlook⟩
          next hmore =>
            rw [length_append, length_singleton, maxResolvedAddresses] at hmore
            refine ih hlook ?_ ?_
            all_goals
              rw [length_append, length_singleton]
              omega
        | some found =>
          obtain ⟨index, name, family⟩ := found
          simp only
          split
          next => exact ⟨_, rfl, hlook⟩
          next hmore =>
            have hless : lookups + 1 ≤ 32 := Nat.lt_of_le_of_ne hlook hmore
            cases systemLookup resolver name family with
            | error error => exact ⟨_, rfl, hless⟩
            | ok ips =>
              simp only
              split
              · exact ⟨_, rfl, hless⟩
              · exact ih hless hroom (by omega)

/-- The addresses are the most preferred ones if and only if the expansion fits. -/
theorem resolve_multiaddr_expansion (resolver : String → Except IoError (List IpAddr))
    (address : Multiaddr) :
    ∃ outcome, resolveMultiaddr resolver address = some outcome ∧ outcome.lookups ≤ 32 ∧
      ∀ routes, outcome.result = .ok routes → routes ≠ [] ∧ (∀ route ∈ routes,
          Forall₂ (fun component part => part ∈ choices resolver component) address route ∧
          ∀ part ∈ route, isDns part = false) ∧
        (routes = (expansion resolver address).take 16 ↔
          (expansion resolver address).length ≤ 16) := by
  obtain ⟨outcome, hrun, hlook⟩ : ∃ outcome, resolveMultiaddr resolver address = some outcome ∧
      outcome.lookups ≤ 32 :=
    resolveLoop_ends (by decide) (by decide) (by decide)
  refine ⟨outcome, hrun, hlook, fun routes hok => ?_⟩
  have hres := resolveLoop_ok hrun hok (Nat.le_of_ble_eq_true rfl)
  have hall : pendingRoutes resolver [] [address] = expansion resolver address := by
    simp [pendingRoutes]
  refine ⟨length_pos_iff.mp hres.atLeast, fun route hroute => ?_, ?_⟩
  · have hforall := mem_expansion.mp (hall ▸ hres.sound hroute)
    exact ⟨hforall, isDns_of_forall₂ hforall⟩
  · exact hall ▸ hres.exact (hall ▸ nodup_expansion address)

/-- Sixteen addresses for the first name and two for the second. -/
def sampleResolver (name : String) : Except IoError (List IpAddr) :=
  .ok ((range (if name = "relay" then 16 else 2)).map fun number =>
    .v4 ⟨10, 0, 0, UInt8.ofNat number⟩)

/-- The most preferred address, `10.0.0.0` twice, is not returned. -/
theorem resolve_multiaddr_loses_preferred :
    resolveMultiaddr sampleResolver [.dns4 "relay", .dns4 "peer"] = some ⟨17, .ok
        ((range 16).map fun number =>
          [.ip4 ⟨10, 0, 0, UInt8.ofNat number⟩, .ip4 ⟨10, 0, 0, 1⟩])⟩ ∧
      (expansion sampleResolver [.dns4 "relay", .dns4 "peer"]).head? =
        some [.ip4 ⟨10, 0, 0, 0⟩, .ip4 ⟨10, 0, 0, 0⟩] ∧
      ((range 16).map fun number =>
          [Protocol.ip4 ⟨10, 0, 0, UInt8.ofNat number⟩, .ip4 ⟨10, 0, 0, 1⟩]) ≠
        (expansion sampleResolver [.dns4 "relay", .dns4 "peer"]).take 16 := by
  decide +kernel

end AukiSdk.Net
