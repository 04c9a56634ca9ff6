import AukiSdk.Discovery.Advertisement

/-!
# The grammar of application protocols

Names and versions are two regular languages, joined by slashes.
-/

namespace AukiSdk.Discovery

open AukiSdk.Foundation List
open AukiSdk.Net
open AukiSdk.Relay
open AukiSdk.Routing
open scoped Computability

/-- The texts of one character of a class. -/
def oneOf (accepts : Char → Bool) : Language Char :=
  fun text => ∃ char, accepts char = true ∧ text = [char]

theorem singleton_mem_oneOf {accepts : Char → Bool} {char : Char} :
    [char] ∈ oneOf accepts ↔ accepts char = true := by
  constructor
  · rintro ⟨char', hacc, heq⟩
    rwa [List.singleton_inj.mp heq]
  · exact fun hacc => ⟨char, hacc, rfl⟩

theorem mem_kstar_oneOf {accepts : Char → Bool} {text : List Char} :
    text ∈ (oneOf accepts)∗ ↔ text.all accepts = true := by
  rw [Language.mem_kstar]
  constructor
  · rintro ⟨pieces, rfl, hpcs⟩
    induction pieces with
    | nil => rfl
    | cons piece pieces ih =>
      obtain ⟨char, hacc, rfl⟩ := hpcs piece mem_cons_self
      simpa [hacc] using ih fun piece hm => hpcs piece (mem_cons_of_mem _ hm)
  · intro hall
    refine ⟨text.map fun char => [char], (flatMap_singleton' text).symm, ?_⟩
    intro piece hpie
    obtain ⟨char, hchar, rfl⟩ := mem_map.mp hpie
    exact singleton_mem_oneOf.mpr (all_eq_true.mp hall char hchar)

theorem cons_mem_oneOf_mul {accepts : Char → Bool} {char : Char} {text : List Char}
    {rest : Language Char} :
    char :: text ∈ oneOf accepts * rest ↔ accepts char = true ∧ text ∈ rest := by
  rw [Language.mem_mul]
  constructor
  · rintro ⟨head, ⟨char', hacc, rfl⟩, tail, htail, heq⟩
    obtain ⟨rfl, rfl⟩ := List.cons.inj heq
    exact ⟨hacc, htail⟩
  · rintro ⟨hacc, htext⟩
    exact ⟨[char], singleton_mem_oneOf.mpr hacc, text, htext, rfl⟩

theorem nil_notMem_oneOf_mul {accepts : Char → Bool} {rest : Language Char} :
    [] ∉ oneOf accepts * rest := by
  rw [Language.mem_mul]
  rintro ⟨head, ⟨char, -, rfl⟩, tail, -, heq⟩
  cases heq

/-- `[a-z][a-z0-9._-]*`. -/
def componentText : Language Char :=
  oneOf Char.isLower *
    (oneOf fun char => char.isLower || char.isDigit || char ∈ ['-', '_', '.'])∗

/-- A name of 1 to 64 bytes. -/
structure IsComponent (component : List Char) : Prop where
  nonempty : component ≠ []
  bounded : byteLength component ≤ 64
  text : component ∈ componentText

theorem isApplicationComponent_iff {component : List Char} :
    isApplicationComponent component = true ↔ IsComponent component := by
  cases component with
  | nil => exact ⟨nofun, fun hcom => absurd rfl hcom.nonempty⟩
  | cons first rest =>
    have htext : first :: rest ∈ componentText ↔ first.isLower = true ∧
        (rest.all fun char => char.isLower || char.isDigit || char ∈ ['-', '_', '.']) = true := by
      rw [componentText, cons_mem_oneOf_mul, mem_kstar_oneOf]
    simp only [isApplicationComponent, Bool.and_eq_true, decide_eq_true_eq]
    constructor
    · rintro ⟨⟨hbdd, hfst⟩, hrest⟩
      exact ⟨cons_ne_nil first rest, hbdd, htext.mpr ⟨hfst, hrest⟩⟩
    · intro hcom
      obtain ⟨hfst, hrest⟩ := htext.mp hcom.text
      exact ⟨⟨hcom.bounded, hfst⟩, hrest⟩

/-- `[0-9]+`. -/
def digitsText : Language Char := oneOf Char.isDigit * (oneOf Char.isDigit)∗

/-- `([.-][0-9]+)*`. -/
def furtherText : Language Char := (oneOf (· ∈ ['.', '-']) * digitsText)∗

/-- `v?[0-9]+([.-][0-9]+)*`. -/
def versionText : Language Char := (1 + {['v']}) * (digitsText * furtherText)

/-- A version of at most 32 bytes. -/
structure IsVersion (version : List Char) : Prop where
  bounded : byteLength version ≤ 32
  text : version ∈ versionText

/-- What the byte tests ask of a version behind its first byte. -/
structure Separated (bytes : List Char) : Prop where
  last : bytes.getLast?.any Char.isDigit = true
  allowed : bytes.all (fun char => char.isDigit || char ∈ ['.', '-']) = true
  apart : ((bytes.zip bytes.tail).any fun pair => !pair.1.isDigit && !pair.2.isDigit) = false

theorem Separated.tail {first second : Char} {rest : List Char}
    (hsep : Separated (first :: second :: rest)) :
    Separated (second :: rest) ∧ (first.isDigit || first ∈ ['.', '-']) = true ∧
      (first.isDigit = true ∨ second.isDigit = true) := by
  obtain ⟨hlast, hall, hapa⟩ := hsep
  simp only [all_cons, Bool.and_eq_true] at hall
  simp only [tail_cons, zip_cons_cons, any_cons, Bool.or_eq_false_iff] at hapa
  refine ⟨⟨by simpa using hlast, ?_, hapa.2⟩, hall.1, ?_⟩
  · simpa only [all_cons, Bool.and_eq_true] using hall.2
  · have hpair := hapa.1
    cases hfst : first.isDigit with
    | true => exact .inl rfl
    | false => exact .inr (by simpa [hfst] using hpair)

theorem Separated.cons {first second : Char} {rest : List Char}
    (hrest : Separated (second :: rest)) (hfst : (first.isDigit || first ∈ ['.', '-']) = true)
    (hpair : first.isDigit = true ∨ second.isDigit = true) :
    Separated (first :: second :: rest) where
  last := by simpa using hrest.last
  allowed := by
    rw [all_cons, Bool.and_eq_true]
    exact ⟨hfst, hrest.allowed⟩
  apart := by
    simp only [tail_cons, zip_cons_cons, any_cons, Bool.or_eq_false_iff]
    refine ⟨?_, hrest.apart⟩
    cases hpair with
    | inl hdig => simp [hdig]
    | inr hdig => simp [hdig]

theorem nil_mem_furtherText : [] ∈ furtherText := Language.nil_mem_kstar _

theorem separator_mem_furtherText {separator : Char} {text : List Char}
    (hsep : separator ∈ ['.', '-']) (htext : text ∈ digitsText * furtherText) :
    separator :: text ∈ furtherText := by
  obtain ⟨digits, hdig, further, hfur, rfl⟩ := Language.mem_mul.mp htext
  obtain ⟨groups, rfl, hgrp⟩ := Language.mem_kstar.mp hfur
  refine Language.mem_kstar.mpr ⟨(separator :: digits) :: groups, rfl, ?_⟩
  rintro group (_ | ⟨_, hgro⟩)
  · exact cons_mem_oneOf_mul.mpr ⟨decide_eq_true hsep, hdig⟩
  · exact hgrp group hgro

theorem digit_mem_digitsText {digit : Char} {text : List Char} (hdig : digit.isDigit = true)
    (htext : text ∈ digitsText * furtherText ∨ text ∈ furtherText) :
    digit :: text ∈ digitsText * furtherText := by
  cases htext with
  | inl htext =>
    obtain ⟨digits, hdgt, further, hfur, rfl⟩ := Language.mem_mul.mp htext
    refine Language.mem_mul.mpr ⟨digit :: digits, ?_, further, hfur, rfl⟩
    rw [digitsText, cons_mem_oneOf_mul, mem_kstar_oneOf]
    refine ⟨hdig, ?_⟩
    cases digits with
    | nil => rfl
    | cons head tail =>
      rw [digitsText, cons_mem_oneOf_mul, mem_kstar_oneOf] at hdgt
      simp [hdgt.1, hdgt.2]
  | inr htext =>
    refine Language.mem_mul.mpr ⟨[digit], ?_, text, htext, rfl⟩
    rw [digitsText, cons_mem_oneOf_mul]
    exact ⟨hdig, Language.nil_mem_kstar _⟩

theorem Separated.mem_text {bytes : List Char} (hsep : Separated bytes) :
    (bytes.head?.any Char.isDigit = true → bytes ∈ digitsText * furtherText) ∧
      (bytes.head?.any Char.isDigit = false → bytes ∈ furtherText) := by
  induction bytes with
  | nil => exact ⟨nofun, fun _ => nil_mem_furtherText⟩
  | cons first rest ih =>
    cases rest with
    | nil =>
      have hdig : first.isDigit = true := by simpa using hsep.last
      refine ⟨fun _ => digit_mem_digitsText hdig (.inr nil_mem_furtherText), ?_⟩
      intro hhead
      simp [hdig] at hhead
    | cons second rest =>
      obtain ⟨hrest, hfst, hpair⟩ := hsep.tail
      obtain ⟨hgro, hfur⟩ := ih hrest
      constructor
      · intro hhead
        apply digit_mem_digitsText (by simpa using hhead)
        cases hsec : second.isDigit with
        | true => exact .inl (hgro (by simpa using hsec))
        | false => exact .inr (hfur (by simpa using hsec))
      · intro hhead
        have hno : first.isDigit = false := by simpa using hhead
        apply separator_mem_furtherText (by simpa [hno] using hfst)
        exact hgro (by simpa [hno] using hpair)

theorem separated_digits_append {digits text : List Char} (hdig : digits.all Char.isDigit = true)
    (htext : text = [] ∨ Separated text) (hnon : digits ≠ []) : Separated (digits ++ text) := by
  induction digits with
  | nil => exact absurd rfl hnon
  | cons first rest ih =>
    simp only [all_cons, Bool.and_eq_true] at hdig
    have hfst : (first.isDigit || first ∈ ['.', '-']) = true := by simp [hdig.1]
    cases rest with
    | cons second rest => exact (ih hdig.2 (cons_ne_nil _ _)).cons hfst (.inl hdig.1)
    | nil =>
      cases text with
      | nil => exact ⟨by simp [hdig.1], by simp [hdig.1], rfl⟩
      | cons head tail => exact (htext.resolve_left (cons_ne_nil _ _)).cons hfst (.inl hdig.1)

theorem mem_digitsText_iff {text : List Char} :
    text ∈ digitsText ↔ text ≠ [] ∧ text.all Char.isDigit = true := by
  cases text with
  | nil => exact ⟨fun hm => absurd hm nil_notMem_oneOf_mul, fun hm => absurd rfl hm.1⟩
  | cons first rest =>
    rw [digitsText, cons_mem_oneOf_mul, mem_kstar_oneOf]
    simp

theorem separated_groups {digits : List Char} (hdig : digits ∈ digitsText)
    {groups : List (List Char)}
    (hgro : ∀ group ∈ groups, group ∈ oneOf (· ∈ ['.', '-']) * digitsText) :
    Separated (digits ++ groups.flatten) := by
  induction groups generalizing digits with
  | nil =>
    obtain ⟨hnon, hall⟩ := mem_digitsText_iff.mp hdig
    exact separated_digits_append hall (.inl rfl) hnon
  | cons group groups ih =>
    obtain ⟨hnon, hall⟩ := mem_digitsText_iff.mp hdig
    refine separated_digits_append hall (.inr ?_) hnon
    obtain ⟨mark, ⟨separator, hsep, rfl⟩, further, hfur, rfl⟩ :=
      Language.mem_mul.mp (hgro group mem_cons_self)
    have hrest := ih hfur fun group hm => hgro group (mem_cons_of_mem _ hm)
    obtain ⟨hfil, hdgt⟩ := mem_digitsText_iff.mp hfur
    cases further with
    | nil => exact absurd rfl hfil
    | cons first rest =>
      simp only [all_cons, Bool.and_eq_true] at hdgt
      exact hrest.cons (by simp_all) (.inr hdgt.1)

theorem mem_groups_iff {bytes : List Char} :
    bytes ∈ digitsText * furtherText ↔ bytes.head?.any Char.isDigit = true ∧ Separated bytes := by
  constructor
  · intro hm
    obtain ⟨digits, hdig, further, hfur, rfl⟩ := Language.mem_mul.mp hm
    obtain ⟨groups, rfl, hgro⟩ := Language.mem_kstar.mp hfur
    refine ⟨?_, separated_groups hdig hgro⟩
    obtain ⟨hnon, hall⟩ := mem_digitsText_iff.mp hdig
    cases digits with
    | nil => exact absurd rfl hnon
    | cons first rest => simp_all
  · exact fun ⟨hhead, hsep⟩ => hsep.mem_text.1 hhead

theorem mem_versionText_iff {version : List Char} :
    version ∈ versionText ↔ ∃ bytes ∈ digitsText * furtherText,
      version = bytes ∨ version = 'v' :: bytes := by
  rw [versionText, Language.mem_mul]
  constructor
  · rintro ⟨mark, hmark, bytes, hbyt, rfl⟩
    refine ⟨bytes, hbyt, ?_⟩
    rcases (Language.mem_add _ _ _).mp hmark with hmark | hmark
    · exact .inl (by rw [(Language.mem_one _).mp hmark]; rfl)
    · exact .inr (by rw [show mark = ['v'] from hmark]; rfl)
  · rintro ⟨bytes, hbyt, rfl | rfl⟩
    · exact ⟨[], .inl rfl, version, hbyt, rfl⟩
    · exact ⟨['v'], .inr rfl, bytes, hbyt, rfl⟩

theorem tests_iff {bytes : List Char} :
    (bytes.head?.any Char.isDigit && bytes.getLast?.any Char.isDigit &&
      bytes.all (fun char => char.isDigit || char ∈ ['.', '-']) &&
      !(bytes.zip bytes.tail).any fun pair => !pair.1.isDigit && !pair.2.isDigit) = true ↔
    bytes ∈ digitsText * furtherText := by
  rw [mem_groups_iff]
  simp only [Bool.and_eq_true, Bool.not_eq_true']
  constructor
  · rintro ⟨⟨⟨hhead, hlast⟩, hall⟩, hapa⟩
    exact ⟨hhead, hlast, hall, hapa⟩
  · rintro ⟨hhead, hlast, hall, hapa⟩
    exact ⟨⟨⟨hhead, hlast⟩, hall⟩, hapa⟩

/-- The bytes that the tests on a version read. -/
def versionBytes : List Char → List Char
  | 'v' :: rest => rest
  | chars => chars

theorem isVersionComponent_iff {component : List Char} :
    isVersionComponent component = true ↔ IsVersion component := by
  have hdgt : ∀ {first : Char} {rest}, first :: rest ∈ digitsText * furtherText →
      first.isDigit = true := by
    intro first rest hm
    simpa using (mem_groups_iff.mp hm).1
  have htext : (component.isEmpty = false ∧
      versionBytes component ∈ digitsText * furtherText) ↔
      component ∈ versionText := by
    rw [mem_versionText_iff]
    constructor
    · rintro ⟨-, hm⟩
      unfold versionBytes at hm
      split at hm
      · exact ⟨_, hm, .inr rfl⟩
      · exact ⟨_, hm, .inl rfl⟩
    · rintro ⟨bytes, hbyt, rfl | rfl⟩
      · cases component with
        | nil => exact absurd (mem_groups_iff.mp hbyt).1 (by simp)
        | cons first rest =>
          refine ⟨rfl, ?_⟩
          unfold versionBytes
          split
          · rename_i heq
            rw [(List.cons.inj heq).1] at hbyt
            exact absurd (hdgt hbyt) (by decide)
          · exact hbyt
      · exact ⟨rfl, hbyt⟩
  unfold isVersionComponent
  simp only [Bool.and_assoc]
  rw [Bool.and_eq_true, Bool.and_eq_true, ← Bool.and_assoc, ← Bool.and_assoc, tests_iff,
    Bool.not_eq_true', decide_eq_true_eq, and_left_comm]
  constructor
  · rintro ⟨hbdd, hm⟩
    exact ⟨hbdd, htext.mp hm⟩
  · intro hver
    exact ⟨hver.bounded, htext.mpr hver.text⟩

/-- The characters of names and versions. -/
def isPlain (char : Char) : Bool :=
  char.isLower || char.isDigit || char ∈ ['-', '_', '.']

/-- The names and the version of a product's protocol or of one of the SDK. -/
inductive IsProtocol : List (List Char) → List Char → Prop
  | product {first : List Char} {rest : List (List Char)} {version : List Char} :
    first ≠ "auki".toList → (∀ name ∈ first :: rest, IsComponent name) → IsVersion version →
      IsProtocol (first :: rest) version
  | sdk {name version : List Char} : IsComponent name → IsVersion version →
    IsProtocol ["auki".toList, "auth".toList, ['1'], name] version

/-- `/<name>[/<name>...]/<version>`. -/
def protocolText (names : List (List Char)) (version : List Char) : List Char :=
  (names ++ [version]).flatMap ('/' :: ·)

theorem IsComponent.plain {component : List Char} (hcom : IsComponent component) :
    component.all isPlain = true := by
  have htext := hcom.text
  cases component with
  | nil => rfl
  | cons first rest =>
    rw [componentText, cons_mem_oneOf_mul, mem_kstar_oneOf] at htext
    rw [all_cons, Bool.and_eq_true]
    exact ⟨by simp [isPlain, htext.1], htext.2⟩

theorem IsVersion.plain {version : List Char} (hver : IsVersion version) :
    version.all isPlain = true := by
  obtain ⟨bytes, hbyt, hver⟩ := mem_versionText_iff.mp hver.text
  have hall : bytes.all isPlain = true := by
    rw [all_eq_true]
    intro char hchar
    have hald := all_eq_true.mp (mem_groups_iff.mp hbyt).2.allowed char hchar
    simp only [Bool.or_eq_true, decide_eq_true_eq, mem_cons, not_mem_nil, or_false] at hald
    rcases hald with hdig | rfl | rfl
    · simp [isPlain, hdig]
    · decide
    · decide
  cases hver with
  | inl heq => rwa [heq]
  | inr heq =>
    rw [heq, all_cons, hall]
    decide

theorem toNat_lt_of_isPlain {char : Char} (hpla : isPlain char = true) : char.toNat < 128 := by
  simp only [isPlain, Char.isLower, Char.isDigit, Bool.or_eq_true, Bool.and_eq_true,
    decide_eq_true_eq, mem_cons, not_mem_nil, or_false, ge_iff_le,
    UInt32.le_iff_toNat_le] at hpla
  rcases hpla with (⟨-, hle⟩ | ⟨-, hle⟩) | rfl | rfl | rfl
  · exact lt_of_le_of_lt hle (by decide)
  · exact lt_of_le_of_lt hle (by decide)
  · decide
  · decide
  · decide

variable {names : List (List Char)} {version : List Char}

theorem IsProtocol.plain (hprot : IsProtocol names version) :
    ∀ piece ∈ names ++ [version], piece.all isPlain = true := by
  intro piece hpie
  rw [mem_append, mem_singleton] at hpie
  cases hprot with
  | product hne hnames hver =>
    rcases hpie with hpie | rfl
    · exact (hnames piece hpie).plain
    · exact hver.plain
  | sdk hname hver =>
    rcases hpie with hpie | rfl
    · simp only [mem_cons, not_mem_nil, or_false] at hpie
      rcases hpie with rfl | rfl | rfl | rfl
      · decide
      · decide
      · decide
      · exact hname.plain
    · exact hver.plain

theorem intercalate_nil_cons (pieces : List (List Char)) :
    ['/'].intercalate ([] :: pieces) = pieces.flatMap ('/' :: ·) := by
  induction pieces with
  | nil => rfl
  | cons piece pieces ih =>
    rw [intercalate_cons_cons, flatMap_cons, ← ih]
    cases pieces with
    | nil => simp
    | cons next rest => simp [intercalate_cons_cons]

theorem IsProtocol.splitOn (hprot : IsProtocol names version) :
    (protocolText names version).splitOn '/' = [] :: (names ++ [version]) := by
  rw [protocolText, ← intercalate_nil_cons]
  apply splitOn_intercalate '/' ?_ (cons_ne_nil _ _)
  rintro piece (_ | ⟨_, hpie⟩) hsla
  · cases hsla
  · have hpla := all_eq_true.mp (hprot.plain piece hpie) '/' hsla
    exact absurd hpla (by decide)

theorem isApplicationProtocol_iff {value : String} :
    isApplicationProtocol value = true ↔ byteLength value.toList ≤ 255 ∧
      ∃ names version, IsProtocol names version ∧ value.toList = protocolText names version := by
  have htext : value.toList = ['/'].intercalate (value.toList.splitOn '/') :=
    (intercalate_splitOn '/').symm
  simp only [isApplicationProtocol, Bool.and_eq_true, Bool.or_eq_true, decide_eq_true_eq]
  refine and_congr_right fun _ => ?_
  constructor
  · rintro (hsdk | hpro)
    · split at hsdk
      case h_1 auki auth one application version hsp =>
        simp only [Bool.and_eq_true, decide_eq_true_eq] at hsdk
        obtain ⟨⟨⟨⟨rfl, rfl⟩, rfl⟩, hname⟩, hver⟩ := hsdk
        refine ⟨_, version, .sdk (isApplicationComponent_iff.mp hname)
          (isVersionComponent_iff.mp hver), ?_⟩
        rw [htext, hsp, intercalate_nil_cons]
        rfl
      case h_2 => cases hsdk
    · split at hpro
      case h_1 first second rest hsp =>
        simp only [Bool.and_eq_true, decide_eq_true_eq] at hpro
        obtain ⟨⟨hne, hnames⟩, hver⟩ := hpro
        obtain ⟨middle, version, hlast⟩ : ∃ middle version, second :: rest = middle ++ [version] :=
          ⟨_, _, (dropLast_append_getLast (cons_ne_nil second rest)).symm⟩
        rw [hlast, ← cons_append, dropLast_concat] at hnames
        rw [hlast, getLast?_concat] at hver
        refine ⟨first :: middle, version, .product hne ?_ (isVersionComponent_iff.mp hver), ?_⟩
        · exact fun name hname => isApplicationComponent_iff.mp (all_eq_true.mp hnames name hname)
        · rw [htext, hsp, hlast, intercalate_nil_cons]
          rfl
      case h_2 => cases hpro
  · rintro ⟨names, version, hprot, heq⟩
    rw [heq, hprot.splitOn]
    cases hprot with
    | @product first rest version hne hnames hver =>
      right
      obtain ⟨second, rest', hsec⟩ : ∃ second rest', rest ++ [version] = second :: rest' :=
        exists_cons_of_ne_nil (by simp)
      have hall : (first :: rest).all isApplicationComponent = true :=
        all_eq_true.mpr fun name hname => isApplicationComponent_iff.mpr (hnames name hname)
      rw [cons_append, hsec]
      simp only [Bool.and_eq_true, decide_eq_true_eq]
      rw [← hsec, ← cons_append, dropLast_concat, getLast?_concat]
      exact ⟨⟨hne, hall⟩, isVersionComponent_iff.mpr hver⟩
    | sdk hname hver =>
      left
      simp [isApplicationComponent_iff.mpr hname, isVersionComponent_iff.mpr hver]

theorem protocolText_unique {names' : List (List Char)} {version' : List Char}
    (hprot : IsProtocol names version) (hprot' : IsProtocol names' version')
    (heq : protocolText names version = protocolText names' version') :
    names = names' ∧ version = version' := by
  have hsp := hprot.splitOn
  rw [heq, hprot'.splitOn] at hsp
  exact (append_singleton_inj.mp (List.cons.inj hsp).2).imp Eq.symm Eq.symm

theorem mem_protocolText {char : Char} (hprot : IsProtocol names version)
    (hchar : char ∈ protocolText names version) : char.toNat < 128 := by
  obtain ⟨piece, hpie, hchar⟩ := mem_flatMap.mp hchar
  cases mem_cons.mp hchar with
  | inl hsl =>
    rw [hsl]
    decide
  | inr hm => exact toNat_lt_of_isPlain (all_eq_true.mp (hprot.plain piece hpie) char hm)

theorem reserved_prefix (hprot : IsProtocol names version)
    (hauki : "/auki/".toList <+: protocolText names version) :
    "/auki/auth/1/".toList <+: protocolText names version := by
  cases hprot with
  | sdk hname hver => exact ⟨_, rfl⟩
  | @product first rest version hne hnames hver =>
    exfalso
    obtain ⟨second, rest', hsec⟩ : ∃ second rest', rest ++ [version] = second :: rest' :=
      exists_cons_of_ne_nil (by simp)
    obtain ⟨tail, heq⟩ := hauki
    have hsl : '/' ∉ first := fun hm =>
      absurd (all_eq_true.mp (hnames first mem_cons_self).plain '/' hm) (by decide)
    rw [protocolText, cons_append, hsec, flatMap_cons, flatMap_cons] at heq
    exact hne (Text.split_first_unique (by decide) hsl (List.cons.inj heq).2).1.symm

/-- `ApplicationProtocol::new` accepts the documented grammar, unambiguously. -/
theorem application_protocol_grammar (value : String) :
    (isApplicationProtocol value = true ↔ byteLength value.toList ≤ 255 ∧
      ∃ names version, IsProtocol names version ∧ value.toList = protocolText names version) ∧
    (isApplicationProtocol value = true → (∀ char ∈ value.toList, char.toNat < 128) ∧
      ("/auki/".toList <+: value.toList → "/auki/auth/1/".toList <+: value.toList) ∧
      ∃! pieces : List (List Char) × List Char,
        IsProtocol pieces.1 pieces.2 ∧ value.toList = protocolText pieces.1 pieces.2) := by
  refine ⟨isApplicationProtocol_iff, fun haccept => ?_⟩
  obtain ⟨-, names, version, hprot, heq⟩ := isApplicationProtocol_iff.mp haccept
  rw [heq]
  refine ⟨fun char hchar => mem_protocolText hprot hchar, reserved_prefix hprot,
    (names, version), ⟨hprot, rfl⟩, ?_⟩
  rintro ⟨names', version'⟩ ⟨hprot', heq'⟩
  obtain ⟨rfl, rfl⟩ := protocolText_unique hprot hprot' heq'
  rfl

end AukiSdk.Discovery
