import AukiSdk.Foundation.Framing
import AukiSdk.Foundation.KeyedLog
import AukiSdk.Foundation.Text

/-!
# Segment files

Names, header and framing of the segment files of a log.
-/

namespace AukiSdk.Logs

open AukiSdk.Foundation List
open Std (ExtTreeMap)

/-- `i64::MAX`. -/
def i64Max : ℤ := 2 ^ 63 - 1

structure I64 where
  value : ℤ
  lower : -2 ^ 63 ≤ value
  upper : value ≤ i64Max
  deriving DecidableEq

/-- A timestamp of a sample. -/
def sampleTime (value : UInt16) : I64 where
  value := value.toNat
  lower := by omega
  upper := by
    have hlt := value.toNat_lt
    unfold i64Max
    omega

/-- `i64::saturating_add` of two values that are not negative. -/
def saturatingAdd (left right : ℤ) : ℤ := min (left + right) i64Max

/-- The word of `i64::to_le_bytes`. -/
def i64Word (value : ℤ) : ℕ := (value % 2 ^ 64).toNat

/-- The value of `i64::from_le_bytes`. -/
def i64OfWord (word : ℕ) : ℤ := if word < 2 ^ 63 then word else word - 2 ^ 64

theorem i64OfWord_i64Word {value : ℤ} (hlow : 0 ≤ value) (hupp : value ≤ i64Max) :
    i64OfWord (i64Word value) = value := by
  have hword : i64Word value = value.toNat := by
    rw [i64Word, Int.emod_eq_of_lt hlow (by rw [i64Max] at hupp; omega)]
  rw [hword, i64OfWord, if_pos (by rw [i64Max] at hupp; omega)]
  omega

theorem i64Word_lt (value : ℤ) : i64Word value < 256 ^ 8 := by
  rw [i64Word]
  omega

/-- `str::parse::<i64>`. -/
def parseI64 (text : List Char) : Option ℤ :=
  match text with
  | '-' :: digits =>
    (Text.parseNumeral Text.decimalValue 10 digits).bind fun value =>
      if value ≤ 2 ^ 63 then some (-value) else none
  | '+' :: digits => bounded digits
  | digits => bounded digits
where
  bounded (digits : List Char) : Option ℤ :=
    (Text.parseNumeral Text.decimalValue 10 digits).bind fun value =>
      if value < 2 ^ 63 then some value else none

def filenameDigits : ℕ := 20

variable (startNs : ℤ)

/-- `segment_filename`: zero padding counts the sign. -/
def segmentFilename : String :=
  let digits := Text.decimal startNs.natAbs
  let stem := if startNs < 0 then '-' :: digits.leftpad (filenameDigits - 1) '0'
    else digits.leftpad filenameDigits '0'
  String.ofList (stem ++ ".seg".toList)

/-- `Path::file_stem` of a name whose extension is `SEGMENT_EXT`. -/
def segmentStem (name : String) : Option (List Char) :=
  let chars := name.toList
  if ".seg".toList <:+ chars ∧ 4 < chars.length then
    some (chars.take (chars.length - 4))
  else
    none

/-- The start that `list_segments` reads from a file name. -/
def segmentStart (name : String) : Option ℤ := (segmentStem name).bind parseI64

theorem parseNumeral_leftpad {width value : ℕ} :
    Text.parseNumeral Text.decimalValue 10 ((Text.decimal value).leftpad width '0') =
      some value := by
  have hdec : Text.parseNumeral Text.decimalValue 10 (Text.decimal value) = some value :=
    Text.parseNumeral_renderNumeral (by norm_num) Text.decimalValue_decimalDigit _
  rw [List.leftpad]
  generalize width - (Text.decimal value).length = count
  induction count with
  | zero => exact hdec
  | succ count ih =>
    have hzero : Text.decimalValue '0' = some 0 := by decide
    have hne : List.replicate count '0' ++ Text.decimal value ≠ [] := by
      simp [Text.decimal, Text.renderNumeral_ne_nil]
    rw [Text.parseNumeral, if_neg (by simpa using hne)] at ih
    rw [Text.parseNumeral, if_neg (by simp), replicate_succ, cons_append, mapM_cons, hzero]
    obtain ⟨digits, hdig, hval⟩ := Option.map_eq_some_iff.mp ih
    rw [hdig]
    simpa [Text.horner] using hval

theorem segmentStart_segmentFilename {startNs : ℤ} (hlow : 0 ≤ startNs)
    (hupp : startNs ≤ i64Max) : segmentStart (segmentFilename startNs) = some startNs := by
  have hname : (segmentFilename startNs).toList =
      (Text.decimal startNs.natAbs).leftpad filenameDigits '0' ++ ".seg".toList := by
    rw [segmentFilename, if_neg (by omega), String.toList_ofList]
  have hext : ".seg".toList.length = 4 := by decide
  have hlen : 20 ≤ ((Text.decimal startNs.natAbs).leftpad filenameDigits '0').length := by
    rw [length_leftpad]
    exact le_max_left _ _
  have hstem : segmentStem (segmentFilename startNs) =
      some ((Text.decimal startNs.natAbs).leftpad filenameDigits '0') := by
    simp only [segmentStem, hname]
    rw [if_pos ⟨suffix_append _ _, by rw [length_append, hext]; omega⟩,
      length_append, hext, Nat.add_sub_cancel, take_left' rfl]
  rw [segmentStart, hstem, Option.bind_some]
  have hdig : ∀ char ∈ (Text.decimal startNs.natAbs).leftpad filenameDigits '0',
      char ≠ '-' ∧ char ≠ '+' := by
    intro char hchar
    rw [List.leftpad, mem_append, mem_replicate] at hchar
    rcases hchar with ⟨-, rfl⟩ | hchar
    · decide
    · refine ⟨?_, ?_⟩
      · rintro rfl
        exact Text.notMem_decimal (by decide) _ hchar
      · rintro rfl
        exact Text.notMem_decimal (by decide) _ hchar
  have hbdd : parseI64.bounded
      ((Text.decimal startNs.natAbs).leftpad filenameDigits '0') = some startNs := by
    rw [parseI64.bounded, parseNumeral_leftpad, Option.bind_some, if_pos]
    · rw [Int.natAbs_of_nonneg hlow]
    · rw [i64Max] at hupp
      omega
  rw [parseI64]
  · exact hbdd
  · intro rest heq
    exact absurd rfl (hdig '-' (by rw [heq]; exact mem_cons_self)).1
  · intro rest heq
    exact absurd rfl (hdig '+' (by rw [heq]; exact mem_cons_self)).2

/-- The files of a segment directory. -/
abbrev Directory := ExtTreeMap String (List UInt8)

variable (dir : Directory)

/-- The file of a segment. -/
def segmentFile (startNs : ℤ) : Option (List UInt8) :=
  dir[segmentFilename startNs]?

local instance transLe : IsTrans ℤ (· ≤ ·) := inferInstance

local instance antisymmLe : Std.Antisymm fun left right : ℤ => left ≤ right := inferInstance

local instance totalLe : Std.Total fun left right : ℤ => left ≤ right := inferInstance

/-- `list_segments`: the set of starts, in increasing order. -/
def listSegments : List ℤ :=
  ((dir.keys.filterMap segmentStart).toFinset).sort (· ≤ ·)

/-- A directory that holds nothing but segment files. -/
def OnlySegments : Prop :=
  ∀ name ∈ dir, ∃ startNs : ℤ, 0 ≤ startNs ∧ startNs ≤ i64Max ∧ name = segmentFilename startNs

theorem segmentFilename_injective {left right : ℤ} (hleft : 0 ≤ left ∧ left ≤ i64Max)
    (hrgt : 0 ≤ right ∧ right ≤ i64Max)
    (heq : segmentFilename left = segmentFilename right) : left = right := by
  have hbeg := segmentStart_segmentFilename hleft.1 hleft.2
  rw [heq, segmentStart_segmentFilename hrgt.1 hrgt.2, Option.some.injEq] at hbeg
  exact hbeg.symm

theorem mem_listSegments {dir : Directory} (honly : OnlySegments dir) {startNs : ℤ} :
    startNs ∈ listSegments dir ↔
      (0 ≤ startNs ∧ startNs ≤ i64Max) ∧ (segmentFile dir startNs).isSome := by
  rw [listSegments, Finset.mem_sort, mem_toFinset, mem_filterMap]
  constructor
  · rintro ⟨name, hname, hbeg⟩
    rw [ExtTreeMap.mem_keys] at hname
    obtain ⟨found, hlow, hupp, rfl⟩ := honly name hname
    rw [segmentStart_segmentFilename hlow hupp, Option.some.injEq] at hbeg
    subst hbeg
    refine ⟨⟨hlow, hupp⟩, ?_⟩
    rwa [ExtTreeMap.mem_iff_isSome_getElem?] at hname
  · rintro ⟨⟨hlow, hupp⟩, hfile⟩
    refine ⟨segmentFilename startNs, ?_, segmentStart_segmentFilename hlow hupp⟩
    rwa [ExtTreeMap.mem_keys, ExtTreeMap.mem_iff_isSome_getElem?]

theorem sortedLT_listSegments : (listSegments dir).Pairwise (· < ·) :=
  (Finset.sortedLT_sort _).pairwise

structure Entry (T : Type) where
  timestampNs : ℤ
  payload : T
  deriving DecidableEq

structure LogPayload (T : Type) where
  encode : T → List UInt8
  decode : List UInt8 → Except String T

/-- `Error`, with the operating system errors that are modelled. -/
inductive LogError where
  | alreadyExists
  | notFound
  | payload (error : String)
  | manifest (error : String)
  | format (error : String)
  deriving DecidableEq

/-- Eight bytes of timestamp, four of length. -/
def timestampWidth : ℕ := 8

def lengthWidth : ℕ := 4

/-- `MAGIC`, `VERSION`, two reserved bytes and the start. -/
def segmentHeader : List UInt8 :=
  [65, 75, 76, 71] ++ Framing.leBytes 2 1 ++ Framing.leBytes 2 0 ++
    Framing.leBytes 8 (i64Word startNs)

def headerSize : ℕ := 16

variable {T : Type}

/-- The frame of an entry. -/
def LogPayload.frame (codec : LogPayload T) (entry : Entry T) : Framing.Frame :=
  (i64Word entry.timestampNs, codec.encode entry.payload)

/-- The bytes that `append` writes for an entry. -/
def LogPayload.entryBytes (codec : LogPayload T) (entry : Entry T) : List UInt8 :=
  Framing.encodeFrame timestampWidth lengthWidth (codec.frame entry)

/-- The bytes of several entries. -/
def LogPayload.entriesBytes (codec : LogPayload T) (entries : List (Entry T)) : List UInt8 :=
  Framing.encodeFrames timestampWidth lengthWidth (entries.map codec.frame)

/-- One frame as an entry. -/
def LogPayload.readEntry (codec : LogPayload T) (frame : Framing.Frame) :
    Except LogError (Entry T) :=
  match codec.decode frame.2 with
  | .error error => .error (.payload error)
  | .ok payload => .ok ⟨i64OfWord frame.1, payload⟩

/-- `read_segment_entries`: a truncated tail ends the segment. -/
def LogPayload.readSegmentEntries (codec : LogPayload T) (name : String) (bytes : List UInt8) :
    Except LogError (List (Entry T)) :=
  if bytes.length < headerSize then
    .error (.format ("segment " ++ name ++ " too short for header"))
  else if bytes.take 4 ≠ [65, 75, 76, 71] then
    .error (.format ("segment " ++ name ++ " has bad magic"))
  else
    let version := Framing.leValue ((bytes.drop 4).take 2)
    if version ≠ 1 then
      .error (.format ("segment " ++ name ++ " has unsupported version " ++ toString version))
    else
      (Framing.readFrames timestampWidth lengthWidth (bytes.length + 1)
        (bytes.drop headerSize)).mapM codec.readEntry

/-- The loop of `LogReader::entries`. -/
def LogPayload.readSegments (codec : LogPayload T) (dir : Directory) :
    List ℤ → Except LogError (List (Entry T))
  | [] => .ok []
  | startNs :: rest =>
    match segmentFile dir startNs with
    | none => .error .notFound
    | some bytes =>
      match codec.readSegmentEntries (segmentFilename startNs) bytes with
      | .error error => .error error
      | .ok entries => (codec.readSegments dir rest).map (entries ++ ·)

/-- `Log::read` and `LogReader::entries`. -/
def LogPayload.entries (codec : LogPayload T) (dir : Directory) :
    Except LogError (List (Entry T)) :=
  codec.readSegments dir (listSegments dir)

/-- An entry that `append` may write. -/
def LogPayload.Writable (codec : LogPayload T) (entry : Entry T) : Prop :=
  0 ≤ entry.timestampNs ∧ entry.timestampNs ≤ i64Max ∧
    (codec.encode entry.payload).length < 2 ^ 32

/-- Decoding undoes encoding. -/
def LogPayload.Lawful (codec : LogPayload T) : Prop :=
  ∀ payload, codec.decode (codec.encode payload) = .ok payload

theorem length_segmentHeader : (segmentHeader startNs).length = headerSize := by
  simp [segmentHeader, headerSize]

variable {codec : LogPayload T}

theorem LogPayload.fits_frame {entry : Entry T} (hwbl : codec.Writable entry) :
    Framing.Fits timestampWidth lengthWidth (codec.frame entry) :=
  ⟨i64Word_lt _, hwbl.2.2⟩

theorem LogPayload.readEntry_frame (hlaw : codec.Lawful) {entry : Entry T}
    (hwbl : codec.Writable entry) :
    codec.readEntry (codec.frame entry) = .ok entry := by
  simp only [LogPayload.readEntry, LogPayload.frame, hlaw entry.payload,
    i64OfWord_i64Word hwbl.1 hwbl.2.1]

theorem LogPayload.mapM_readEntry (hlaw : codec.Lawful) {entries : List (Entry T)}
    (hwbl : ∀ entry ∈ entries, codec.Writable entry) :
    (entries.map codec.frame).mapM codec.readEntry = .ok entries := by
  induction entries with
  | nil => rfl
  | cons entry entries ih =>
    rw [map_cons, mapM_cons, codec.readEntry_frame hlaw (hwbl entry mem_cons_self),
      ih fun other ho => hwbl other (mem_cons_of_mem _ ho)]
    rfl

theorem LogPayload.readSegmentEntries_header (hlaw : codec.Lawful) (name : String) (startNs : ℤ)
    {entries : List (Entry T)} (hwbl : ∀ entry ∈ entries, codec.Writable entry) :
    codec.readSegmentEntries name (segmentHeader startNs ++ codec.entriesBytes entries) =
      .ok entries := by
  have hheader := length_segmentHeader startNs
  have hlen : ¬ (segmentHeader startNs ++ codec.entriesBytes entries).length < headerSize := by
    rw [length_append, hheader]
    omega
  have hmag : (segmentHeader startNs ++ codec.entriesBytes entries).take 4 = [65, 75, 76, 71] := by
    simp [segmentHeader]
  have hver : Framing.leValue
      (((segmentHeader startNs ++ codec.entriesBytes entries).drop 4).take 2) = 1 := by
    simp [segmentHeader, Framing.leBytes, Framing.leValue]
  have hbody : (segmentHeader startNs ++ codec.entriesBytes entries).drop headerSize =
      codec.entriesBytes entries := drop_left' hheader
  have hframes : Framing.readFrames timestampWidth lengthWidth
      ((segmentHeader startNs ++ codec.entriesBytes entries).length + 1)
      (codec.entriesBytes entries) = entries.map codec.frame := by
    apply Framing.readFrames_encodeFrames (by decide)
    · intro frame hfrm
      obtain ⟨entry, hent, rfl⟩ := mem_map.mp hfrm
      exact codec.fits_frame (hwbl entry hent)
    · have hcnt : (entries.map codec.frame).length ≤ (codec.entriesBytes entries).length :=
        Framing.length_le_encodeFrames (by decide) _
      rw [length_append]
      exact Nat.lt_succ_of_le (hcnt.trans (Nat.le_add_left _ _))
  rw [LogPayload.readSegmentEntries, if_neg hlen, if_neg (by rw [hmag]; simp)]
  simp only [hver, ne_eq, not_true_eq_false, if_false, hbody, hframes]
  exact codec.mapM_readEntry hlaw hwbl

end AukiSdk.Logs
