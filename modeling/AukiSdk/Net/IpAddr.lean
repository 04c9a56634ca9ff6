import AukiSdk.Foundation.Text

/-!
# Internet addresses and their standard text

The textual forms that `std::net` gives to IPv4 and IPv6 addresses.
-/

namespace AukiSdk.Net

open AukiSdk.Foundation List

structure Ipv4Addr where
  a : UInt8
  b : UInt8
  c : UInt8
  d : UInt8
  deriving DecidableEq

/-- `std::net::Ipv6Addr`: eight 16-bit segments in network order. -/
structure Ipv6Addr where
  segments : List UInt16
  length_segments : segments.length = 8
  deriving DecidableEq

/-- `Ipv4Addr::fmt`: dotted decimal. -/
def Ipv4Addr.display (address : Ipv4Addr) : List Char :=
  Text.decimal address.a.toNat ++ '.' :: (Text.decimal address.b.toNat ++
    '.' :: (Text.decimal address.c.toNat ++ '.' :: Text.decimal address.d.toNat))

/-- One octet of `Ipv4Addr::from_str`: one to three digits, no leading zero. -/
def parseOctet (text : List Char) : Option UInt8 := do
  let value ← Text.parseNumeral Text.decimalValue 10 text
  if text.length ≤ 3 ∧ (text.head? ≠ some '0' ∨ text.length = 1) ∧ value < 256 then
    some (UInt8.ofNat value)
  else
    none

/-- `Ipv4Addr::from_str`: exactly four dotted octets. -/
def Ipv4Addr.fromStr (text : List Char) : Option Ipv4Addr :=
  match text.splitOn '.' with
  | [a, b, c, d] => do
      some ⟨← parseOctet a, ← parseOctet b, ← parseOctet c, ← parseOctet d⟩
  | _ => none

/-- A run of zero segments, as tracked by `Ipv6Addr::fmt`. -/
structure Span where
  start : ℕ
  len : ℕ
  deriving DecidableEq

/-- Loop state of the search for the longest run of zero segments. -/
structure SpanSearch where
  index : ℕ
  longest : Span
  current : Span

def SpanSearch.step (search : SpanSearch) (segment : UInt16) : SpanSearch :=
  if segment = 0 then
    let start := if search.current.len = 0 then search.index else search.current.start
    let current : Span := ⟨start, search.current.len + 1⟩
    { index := search.index + 1
      longest := if current.len > search.longest.len then current else search.longest
      current }
  else
    { index := search.index + 1, longest := search.longest, current := ⟨0, 0⟩ }

def longestZeroSpan (segments : List UInt16) : Span :=
  (segments.foldl SpanSearch.step ⟨0, ⟨0, 0⟩, ⟨0, 0⟩⟩).longest

def segmentTexts (segments : List UInt16) : List (List Char) :=
  segments.map fun segment => Text.hexadecimal segment.toNat

/-- `fmt_subslice`: lower-case hexadecimal segments separated by colons. -/
def fmtSubslice (segments : List UInt16) : List Char :=
  [':'].intercalate (segmentTexts segments)

def Ipv6Addr.toIpv4Mapped (address : Ipv6Addr) : Option Ipv4Addr :=
  match address.segments with
  | [0, 0, 0, 0, 0, 0xffff, high, low] =>
    some ⟨(high >>> 8).toUInt8, high.toUInt8, (low >>> 8).toUInt8, low.toUInt8⟩
  | _ => none

/-- `Ipv6Addr::fmt`: mapped addresses mixed, else the longest run of zeros is `::`. -/
def Ipv6Addr.display (address : Ipv6Addr) : List Char :=
  match address.toIpv4Mapped with
  | some mapped => "::ffff:".toList ++ mapped.display
  | none =>
    let zeroes := longestZeroSpan address.segments
    if zeroes.len > 1 then
      fmtSubslice (address.segments.take zeroes.start) ++ "::".toList ++
        fmtSubslice (address.segments.drop (zeroes.start + zeroes.len))
    else
      fmtSubslice address.segments

theorem Ipv4Addr.display_injective : Function.Injective Ipv4Addr.display := by
  intro left right heq
  have hdot : ∀ value, '.' ∉ Text.decimal value := Text.notMem_decimal (by decide)
  obtain ⟨ha, hrest⟩ := Text.split_first_unique (hdot _) (hdot _) heq
  obtain ⟨hb, hrest⟩ := Text.split_first_unique (hdot _) (hdot _) hrest
  obtain ⟨hc, hd⟩ := Text.split_first_unique (hdot _) (hdot _) hrest
  have hoct : ∀ {first second : UInt8},
      Text.decimal first.toNat = Text.decimal second.toNat → first = second :=
    fun h => UInt8.toNat_inj.mp (Text.decimal_injective h)
  cases left
  cases right
  simp only [Ipv4Addr.mk.injEq]
  exact ⟨hoct ha, hoct hb, hoct hc, hoct hd⟩

/-- `span` marks a run of zero segments inside `segments`. -/
def ZeroSpan (segments : List UInt16) (span : Span) : Prop :=
  span.start + span.len ≤ segments.length ∧
    (segments.drop span.start).take span.len = List.replicate span.len 0

variable {segments : List UInt16}

theorem ZeroSpan.append {span : Span} (hspan : ZeroSpan segments span) (segment : UInt16) :
    ZeroSpan (segments ++ [segment]) span := by
  obtain ⟨hbnd, hzero⟩ := hspan
  refine ⟨by simp; omega, ?_⟩
  rw [drop_append_of_le_length (by omega), take_append_of_le_length (by simp; omega), hzero]

theorem ZeroSpan.extend {start len : ℕ} (hspan : ZeroSpan segments ⟨start, len⟩)
    (hend : start + len = segments.length) :
    ZeroSpan (segments ++ [0]) ⟨start, len + 1⟩ := by
  obtain ⟨hbnd, hzero⟩ := hspan
  refine ⟨by simp; omega, ?_⟩
  dsimp only at hzero ⊢
  rw [drop_append_of_le_length (by omega)]
  have hlength : (segments.drop start).length = len := by simp; omega
  have hwhl : segments.drop start = List.replicate len 0 := by
    rw [← hzero, take_of_length_le (by omega)]
  rw [hwhl, replicate_succ', take_of_length_le (by simp)]

/-- Loop invariant of the search over the already scanned `segments`. -/
structure SpanSearch.Scanned (search : SpanSearch) (segments : List UInt16) : Prop where
  index_eq : search.index = segments.length
  longest : ZeroSpan segments search.longest
  current : ZeroSpan segments search.current
  current_end : search.current.len ≠ 0 →
    search.current.start + search.current.len = segments.length

theorem SpanSearch.Scanned.step {search : SpanSearch} (hsca : search.Scanned segments)
    (segment : UInt16) :
    (search.step segment).Scanned (segments ++ [segment]) := by
  obtain ⟨hidx, hlon, hcur, hend⟩ := hsca
  unfold SpanSearch.step
  split
  · rename_i hzero
    subst hzero
    have hext : ZeroSpan (segments ++ [0])
        ⟨if search.current.len = 0 then search.index else search.current.start,
          search.current.len + 1⟩ := by
      apply ZeroSpan.extend
      · by_cases hlen : search.current.len = 0
        · simp [ZeroSpan, hlen, hidx]
        · simpa [hlen] using hcur
      · by_cases hlen : search.current.len = 0
        · simp [hlen, hidx]
        · simpa [hlen] using hend hlen
    refine ⟨by simp [hidx], ?_, hext, ?_⟩
    · dsimp only
      split
      · exact hext
      · exact hlon.append 0
    · intro _
      by_cases hlen : search.current.len = 0
      · simp [hlen, hidx]
      · have := hend hlen
        simp [hlen]
        omega
  · refine ⟨by simp [hidx], hlon.append segment, ?_, ?_⟩
    · simp [ZeroSpan]
    · simp

theorem zeroSpan_longestZeroSpan (segments : List UInt16) :
    ZeroSpan segments (longestZeroSpan segments) := by
  have hscan : (segments.foldl SpanSearch.step ⟨0, ⟨0, 0⟩, ⟨0, 0⟩⟩).Scanned segments := by
    induction segments using List.reverseRecOn with
    | nil => exact ⟨rfl, by simp [ZeroSpan], by simp [ZeroSpan], by simp⟩
    | append_singleton segments segment ih =>
      rw [foldl_append]
      exact ih.step segment
  exact hscan.longest

theorem refill_zeroSpan {span : Span} (hspan : ZeroSpan segments span) :
    segments.take span.start ++ List.replicate span.len 0 ++
      segments.drop (span.start + span.len) = segments := by
  rw [← hspan.2, append_assoc, ← drop_drop, take_append_drop, take_append_drop]

/-- Segments from pieces: empty ones stand for the zeros missing from eight. -/
def expandPieces (pieces : List (List Char)) : List ℕ :=
  let value := fun piece => (Text.parseNumeral Text.hexValue 16 piece).getD 0
  let left := pieces.takeWhile fun piece => !piece.isEmpty
  let right := (pieces.dropWhile fun piece => !piece.isEmpty).dropWhile List.isEmpty
  left.map value ++ List.replicate (8 - (left.length + right.length)) 0 ++
    right.map value

theorem value_segmentTexts (segments : List UInt16) : (segmentTexts segments).map
        (fun piece => (Text.parseNumeral Text.hexValue 16 piece).getD 0) =
      segments.map UInt16.toNat := by
  simp only [segmentTexts, map_map]
  apply map_congr_left
  intro segment _
  have := Text.parseNumeral_renderNumeral (by norm_num : 1 < 16)
    Text.hexValue_hexDigit segment.toNat
  simp [Text.hexadecimal, this]

theorem isEmpty_of_mem_segmentTexts {piece : List Char} (hpie : piece ∈ segmentTexts segments) :
    piece.isEmpty = false := by
  obtain ⟨segment, _, rfl⟩ := mem_map.mp hpie
  simp [Text.hexadecimal, Text.renderNumeral_ne_nil]

theorem colon_notMem_segmentTexts {piece : List Char} (hpie : piece ∈ segmentTexts segments) :
    ':' ∉ piece := by
  obtain ⟨segment, _, rfl⟩ := mem_map.mp hpie
  exact Text.notMem_renderNumeral (by norm_num) (by decide) _

/-- The colon-separated pieces of an address written with `::`. -/
def compressedPieces (left right : List (List Char)) : List (List Char) :=
  (if left.isEmpty then [[]] else left) ++
    ([] :: if right.isEmpty then [[]] else right)

theorem intercalate_compressedPieces (left right : List (List Char)) :
    [':'].intercalate (compressedPieces left right) =
      [':'].intercalate left ++ "::".toList ++ [':'].intercalate right := by
  have horE : ∀ pieces : List (List Char),
      [':'].intercalate (if pieces.isEmpty then [[]] else pieces) = [':'].intercalate pieces := by
    intro pieces
    cases pieces <;> simp
  unfold compressedPieces
  rw [Text.intercalate_append (by cases left <;> simp) (by simp), horE,
    intercalate_cons_of_ne_nil (by cases right <;> simp), horE]
  simp

theorem expandPieces_compressed (left right : List UInt16) :
    expandPieces (compressedPieces (segmentTexts left) (segmentTexts right)) =
      left.map UInt16.toNat ++ List.replicate (8 - (left.length + right.length)) 0 ++
        right.map UInt16.toNat := by
  have hleft : ∀ piece ∈ segmentTexts left, (!piece.isEmpty) = true :=
    fun piece hpie => by simp [isEmpty_of_mem_segmentTexts hpie]
  have hrgt : (segmentTexts right).dropWhile List.isEmpty = segmentTexts right := by
    cases right with
    | nil => rfl
    | cons head tail =>
      have hm : Text.hexadecimal head.toNat ∈ segmentTexts (head :: tail) := by
        simp [segmentTexts]
      have hhead : (Text.hexadecimal head.toNat).isEmpty = false := isEmpty_of_mem_segmentTexts hm
      simp [segmentTexts, hhead]
  have htake : (compressedPieces (segmentTexts left) (segmentTexts right)).takeWhile
      (fun piece => !piece.isEmpty) = segmentTexts left := by
    unfold compressedPieces
    cases hcase : segmentTexts left with
    | nil => simp
    | cons head tail =>
      rw [← hcase]
      rw [if_neg (by simp [hcase]), takeWhile_append_of_pos hleft]
      simp
  have hdrop : ((compressedPieces (segmentTexts left) (segmentTexts right)).dropWhile
      (fun piece => !piece.isEmpty)).dropWhile List.isEmpty = segmentTexts right := by
    have htail : (if (segmentTexts right).isEmpty then [[]]
        else segmentTexts right).dropWhile List.isEmpty = segmentTexts right := by
      cases right with
      | nil => rfl
      | cons head tail => simpa [segmentTexts] using hrgt
    unfold compressedPieces
    cases hcase : segmentTexts left with
    | nil => simpa using htail
    | cons head tail =>
      rw [← hcase]
      rw [if_neg (by simp [hcase]), dropWhile_append_of_pos hleft]
      simpa using htail
  simp only [expandPieces, htake, hdrop, value_segmentTexts]
  simp [segmentTexts]

theorem expandPieces_plain (segments : List UInt16) (hlength : segments.length = 8) :
    expandPieces (segmentTexts segments) = segments.map UInt16.toNat := by
  have hall : ∀ piece ∈ segmentTexts segments, (!piece.isEmpty) = true :=
    fun piece hpie => by simp [isEmpty_of_mem_segmentTexts hpie]
  have htake : (segmentTexts segments).takeWhile (fun piece => !piece.isEmpty) =
      segmentTexts segments := takeWhile_eq_self_iff.mpr hall
  have hdrop : (segmentTexts segments).dropWhile (fun piece => !piece.isEmpty) = [] :=
    dropWhile_eq_nil_iff.mpr hall
  simp only [expandPieces, htake, hdrop, value_segmentTexts]
  simp [segmentTexts, hlength]

theorem splitOn_fmtSubslice (hnon : segments ≠ []) :
    (fmtSubslice segments).splitOn ':' = segmentTexts segments :=
  splitOn_intercalate ':' (fun _ hpie => colon_notMem_segmentTexts hpie)
    (by simpa [segmentTexts] using hnon)

theorem splitOn_compressed (left right : List UInt16) :
    (fmtSubslice left ++ "::".toList ++ fmtSubslice right).splitOn ':' =
      compressedPieces (segmentTexts left) (segmentTexts right) := by
  rw [fmtSubslice, fmtSubslice, ← intercalate_compressedPieces]
  apply splitOn_intercalate ':' _ (by simp [compressedPieces])
  intro piece hpie
  have hside : ∀ segments : List UInt16, piece ∈ (if (segmentTexts segments).isEmpty then [[]]
        else segmentTexts segments) → ':' ∉ piece := by
    intro segments hm
    split at hm
    · simp_all
    · exact colon_notMem_segmentTexts hm
  simp only [compressedPieces, mem_append, mem_cons] at hpie
  rcases hpie with hpie | rfl | hpie
  · exact hside left hpie
  · simp
  · exact hside right hpie

theorem expandPieces_display {address : Ipv6Addr} (hpln : address.toIpv4Mapped = none) :
    expandPieces (address.display.splitOn ':') = address.segments.map UInt16.toNat := by
  have hlength := address.length_segments
  have hspan := zeroSpan_longestZeroSpan address.segments
  simp only [Ipv6Addr.display, hpln]
  split
  · rw [splitOn_compressed, expandPieces_compressed]
    have hfill : 8 - ((address.segments.take (longestZeroSpan address.segments).start).length +
        (address.segments.drop ((longestZeroSpan address.segments).start +
          (longestZeroSpan address.segments).len)).length) =
        (longestZeroSpan address.segments).len := by
      have := hspan.1
      simp only [length_take, length_drop]
      omega
    rw [hfill]
    conv_rhs => rw [← refill_zeroSpan hspan]
    simp
  · rw [splitOn_fmtSubslice (by intro hnil; simp [hnil] at hlength)]
    exact expandPieces_plain address.segments hlength

theorem dot_mem_display_ipv4 (address : Ipv4Addr) : '.' ∈ address.display := by
  simp [Ipv4Addr.display]

theorem dot_notMem_fmtSubslice (segments : List UInt16) : '.' ∉ fmtSubslice segments := by
  apply Text.notMem_intercalate (by decide)
  intro piece hm
  obtain ⟨segment, _, rfl⟩ := mem_map.mp hm
  exact Text.notMem_renderNumeral (by norm_num) (by decide) _

theorem dot_mem_display_iff (address : Ipv6Addr) :
    '.' ∈ address.display ↔ address.toIpv4Mapped ≠ none := by
  cases hmap : address.toIpv4Mapped with
  | some mapped => simp [Ipv6Addr.display, hmap, dot_mem_display_ipv4]
  | none =>
    simp only [Ipv6Addr.display, hmap, ne_eq, not_true_eq_false, iff_false]
    split <;> simp [dot_notMem_fmtSubslice]

theorem eq_of_bytes_eq {left right : UInt16}
    (hhigh : (left >>> 8).toUInt8 = (right >>> 8).toUInt8)
    (hlow : left.toUInt8 = right.toUInt8) : left = right := by
  have hhigh := congrArg UInt8.toNat hhigh
  have hlow := congrArg UInt8.toNat hlow
  have hshi : 2 ^ (UInt16.toNat 8 % 16) = 256 := by decide
  simp only [UInt16.toNat_toUInt8, UInt16.toNat_shiftRight, Nat.shiftRight_eq_div_pow,
    hshi] at hhigh hlow
  have hleft := left.toNat_lt
  have hrgt := right.toNat_lt
  apply UInt16.toNat_inj.mp
  norm_num at hleft hrgt
  omega

theorem toIpv4Mapped_injective {left right : Ipv6Addr} {mapped : Ipv4Addr}
    (hleft : left.toIpv4Mapped = some mapped)
    (hrgt : right.toIpv4Mapped = some mapped) : left = right := by
  unfold Ipv6Addr.toIpv4Mapped at hleft hrgt
  split at hleft
  · rename_i high low hsegments
    split at hrgt
    · rename_i high' low' hsegments'
      rw [← hrgt] at hleft
      simp only [Option.some.injEq, Ipv4Addr.mk.injEq] at hleft
      obtain ⟨ha, hb, hc, hd⟩ := hleft
      cases left
      cases right
      simp_all only [Ipv6Addr.mk.injEq]
      rw [eq_of_bytes_eq ha hb, eq_of_bytes_eq hc hd]
    · simp at hrgt
  · simp at hleft

theorem Ipv6Addr.display_injective : Function.Injective Ipv6Addr.display := by
  intro left right heq
  cases hleft : left.toIpv4Mapped with
  | none =>
    have hrgt : right.toIpv4Mapped = none := by
      by_contra hmap
      have := (dot_mem_display_iff right).mpr hmap
      rw [← heq, dot_mem_display_iff] at this
      exact this hleft
    have hseg := expandPieces_display hleft
    rw [heq, expandPieces_display hrgt] at hseg
    have hinj : Function.Injective UInt16.toNat := fun _ _ => UInt16.toNat_inj.mp
    have := map_injective_iff.mpr hinj hseg
    cases left
    cases right
    simp_all
  | some mapped =>
    cases hrgt : right.toIpv4Mapped with
    | none =>
      have := (dot_mem_display_iff left).mpr (by simp [hleft])
      rw [heq, dot_mem_display_iff] at this
      exact absurd hrgt this
    | some mapped' =>
      simp only [Ipv6Addr.display, hleft, hrgt] at heq
      have hmap := Ipv4Addr.display_injective (append_cancel_left heq)
      rw [hmap] at hleft
      exact toIpv4Mapped_injective hleft hrgt

end AukiSdk.Net
