import AukiSdk.Logs.Segment

/-!
# The two segment decoders

The reader of one entry at an offset and that of a whole segment.
-/

namespace AukiSdk.Logs

open AukiSdk.Foundation List

variable {T : Type}

inductive ReadOne (T : Type) where
  | got (entry : Entry T) (nextOffset : ℕ)
  | endOfSegment
  | segmentMissing
  deriving DecidableEq

variable (codec : LogPayload T)

/-- `read_one_entry_at`; `none` is a file that is not found. -/
def LogPayload.readOneEntryAt (file : Option (List UInt8)) (offset : ℕ) :
    Except LogError (ReadOne T) :=
  match file with
  | none => .ok .segmentMissing
  | some bytes =>
    let rest := bytes.drop offset
    if rest.length < timestampWidth then
      .ok .endOfSegment
    else
      let timestampNs := i64OfWord (Framing.leValue (rest.take timestampWidth))
      let rest := rest.drop timestampWidth
      if rest.length < lengthWidth then
        .ok .endOfSegment
      else
        let payloadLen := Framing.leValue (rest.take lengthWidth)
        let rest := rest.drop lengthWidth
        if rest.length < payloadLen then
          .ok .endOfSegment
        else
          match codec.decode (rest.take payloadLen) with
          | .error error => .error (.payload error)
          | .ok payload =>
            .ok (.got ⟨timestampNs, payload⟩
              (offset + timestampWidth + lengthWidth + payloadLen))

theorem LogPayload.readOneEntryAt_eq (bytes : List UInt8) (offset : ℕ) :
    codec.readOneEntryAt (some bytes) offset =
      match Framing.readFrame timestampWidth lengthWidth (bytes.drop offset) with
      | none => .ok .endOfSegment
      | some (frame, _) => (codec.readEntry frame).map fun entry =>
        .got entry (offset + timestampWidth + lengthWidth + frame.2.length) := by
  simp only [readOneEntryAt, Framing.readFrame]
  split
  · rfl
  · split
    · rfl
    · split
      · rfl
      · rename_i hlen
        rw [not_lt] at hlen
        simp only [LogPayload.readEntry, length_take, min_eq_left hlen]
        generalize (bytes.drop offset).drop timestampWidth = rest
        cases codec.decode ((rest.drop lengthWidth).take (Framing.leValue (rest.take lengthWidth)))
          <;> rfl

theorem readFrame_length {bytes rest : List UInt8} {frame : Framing.Frame}
    (hread : Framing.readFrame timestampWidth lengthWidth bytes = some (frame, rest)) :
    bytes.length = timestampWidth + lengthWidth + frame.2.length + rest.length ∧
      rest = bytes.drop (timestampWidth + lengthWidth + frame.2.length) := by
  simp only [Framing.readFrame] at hread
  split at hread
  · cases hread
  · rename_i hkey
    split at hread
    · cases hread
    · rename_i hlen
      split at hread
      · cases hread
      · rename_i hbody
        cases hread
        rw [not_lt] at hkey hlen hbody
        rw [length_take, min_eq_left hbody, length_drop, Nat.add_assoc, ← drop_drop, ← drop_drop]
        refine ⟨?_, rfl⟩
        rw [length_drop] at hlen hbody ⊢
        rw [length_drop] at hbody ⊢
        omega

theorem LogPayload.readOneEntryAt_got {codec : LogPayload T} {bytes : List UInt8}
    {offset next : ℕ} {entry : Entry T}
    (hgot : codec.readOneEntryAt (some bytes) offset = .ok (.got entry next)) :
    offset < next ∧ next ≤ bytes.length := by
  rw [readOneEntryAt_eq] at hgot
  split at hgot
  · cases hgot
  · rename_i frame rest hread
    obtain ⟨hlen, -⟩ := readFrame_length hread
    cases hent : codec.readEntry frame with
    | error error =>
      rw [hent] at hgot
      cases hgot
    | ok entry =>
      rw [hent] at hgot
      cases hgot
      rw [length_drop] at hlen
      simp only [timestampWidth, lengthWidth] at hlen ⊢
      omega

/-- `read_one_entry_at` from an offset on until `EndOfSegment`. -/
def LogPayload.entriesFrom (codec : LogPayload T) (bytes : List UInt8) (offset : ℕ) :
    List (Entry T) × Option LogError :=
  match _hread : codec.readOneEntryAt (some bytes) offset with
  | .error error => ([], some error)
  | .ok .endOfSegment => ([], none)
  | .ok .segmentMissing => ([], none)
  | .ok (.got entry next) =>
    let rest := codec.entriesFrom bytes next
    (entry :: rest.1, rest.2)
termination_by bytes.length - offset
decreasing_by
  have hnext := LogPayload.readOneEntryAt_got _hread
  omega

/-- The loop of `read_segment_entries`. -/
def LogPayload.pushEntries (codec : LogPayload T) (reader : List UInt8)
    (out : List (Entry T)) : Except LogError Unit × List (Entry T) :=
  if reader.length < timestampWidth then
    (.ok (), out)
  else
    let timestampNs := i64OfWord (Framing.leValue (reader.take timestampWidth))
    let afterTimestamp := reader.drop timestampWidth
    if afterTimestamp.length < lengthWidth then
      (.ok (), out)
    else
      let payloadLen := Framing.leValue (afterTimestamp.take lengthWidth)
      let afterLength := afterTimestamp.drop lengthWidth
      if afterLength.length < payloadLen then
        (.ok (), out)
      else
        match codec.decode (afterLength.take payloadLen) with
        | .error error => (.error (.payload error), out)
        | .ok payload =>
          codec.pushEntries (afterLength.drop payloadLen) (out ++ [⟨timestampNs, payload⟩])
termination_by reader.length
decreasing_by
  simp only [List.length_drop, timestampWidth] at *
  omega

/-- `read_segment_entries`, with what it leaves in `out`. -/
def LogPayload.appendSegmentEntries (name : String) (bytes : List UInt8) (out : List (Entry T)) :
    Except LogError Unit × List (Entry T) :=
  if bytes.length < headerSize then
    (.error (.format ("segment " ++ name ++ " too short for header")), out)
  else if bytes.take 4 ≠ [65, 75, 76, 71] then
    (.error (.format ("segment " ++ name ++ " has bad magic")), out)
  else
    let version := Framing.leValue ((bytes.drop 4).take 2)
    if version ≠ 1 then
      (.error (.format ("segment " ++ name ++ " has unsupported version " ++ toString version)),
        out)
    else
      codec.pushEntries (bytes.drop headerSize) out

theorem LogPayload.pushEntries_eq (reader : List UInt8) (out : List (Entry T)) :
    codec.pushEntries reader out =
      match Framing.readFrame timestampWidth lengthWidth reader with
      | none => (.ok (), out)
      | some (frame, rest) =>
        match codec.readEntry frame with
        | .error error => (.error error, out)
        | .ok entry => codec.pushEntries rest (out ++ [entry]) := by
  rw [pushEntries]
  simp only [Framing.readFrame]
  split
  · rfl
  · split
    · rfl
    · split
      · rfl
      · simp only [LogPayload.readEntry]
        generalize reader.drop timestampWidth = rest
        cases codec.decode ((rest.drop lengthWidth).take (Framing.leValue (rest.take lengthWidth)))
          <;> rfl

theorem LogPayload.entriesFrom_eq (bytes : List UInt8) (offset : ℕ) :
    codec.entriesFrom bytes offset =
      match Framing.readFrame timestampWidth lengthWidth (bytes.drop offset) with
      | none => ([], none)
      | some (frame, _) =>
        match codec.readEntry frame with
        | .error error => ([], some error)
        | .ok entry =>
          let next := offset + timestampWidth + lengthWidth + frame.2.length
          (entry :: (codec.entriesFrom bytes next).1, (codec.entriesFrom bytes next).2) := by
  have hread := codec.readOneEntryAt_eq bytes offset
  cases hfrm : Framing.readFrame timestampWidth lengthWidth (bytes.drop offset) with
  | none =>
    rw [hfrm] at hread
    rw [entriesFrom]
    split
    · rename_i heq
      rw [hread] at heq
      cases heq
    · rfl
    · rfl
    · rename_i heq
      rw [hread] at heq
      cases heq
  | some found =>
    obtain ⟨frame, rest⟩ := found
    rw [hfrm] at hread
    simp only at hread ⊢
    cases hent : codec.readEntry frame with
    | error error =>
      rw [hent] at hread
      rw [entriesFrom]
      split
      · rename_i heq
        rw [hread] at heq
        cases heq
        rfl
      all_goals
        rename_i heq
        rw [hread] at heq
        cases heq
    | ok entry =>
      rw [hent] at hread
      rw [entriesFrom]
      split
      · rename_i heq
        rw [hread] at heq
        cases heq
      · rename_i heq
        rw [hread] at heq
        cases heq
      · rename_i heq
        rw [hread] at heq
        cases heq
      · rename_i heq
        rw [hread] at heq
        cases heq
        rfl

theorem LogPayload.pushEntries_entriesFrom (bytes : List UInt8) (offset : ℕ)
    (out : List (Entry T)) :
    codec.pushEntries (bytes.drop offset) out =
      ((codec.entriesFrom bytes offset).2.elim (.ok ()) .error,
        out ++ (codec.entriesFrom bytes offset).1) := by
  induction hleft : bytes.length - offset using Nat.strong_induction_on generalizing offset out with
  | _ left ih =>
    rw [pushEntries_eq, entriesFrom_eq]
    cases hfrm : Framing.readFrame timestampWidth lengthWidth (bytes.drop offset) with
    | none => simp
    | some found =>
      obtain ⟨frame, rest⟩ := found
      obtain ⟨hlen, hrest⟩ := readFrame_length hfrm
      cases hent : codec.readEntry frame with
      | error error => simp [hent]
      | ok entry =>
        have hn : rest = bytes.drop (offset + timestampWidth + lengthWidth + frame.2.length) := by
          rw [hrest, drop_drop]
          congr 1
          omega
        have hsho : bytes.length - (offset + timestampWidth + lengthWidth +
            frame.2.length) < left := by
          rw [length_drop] at hlen
          simp only [timestampWidth, lengthWidth] at hlen ⊢
          omega
        simp only [hent]
        rw [hn, ih _ hsho _ _ rfl, append_assoc]
        rfl

/-- A file that starts with a header of this version. -/
def ValidHeader (bytes : List UInt8) : Prop :=
  headerSize ≤ bytes.length ∧ bytes.take 4 = [65, 75, 76, 71] ∧
    Framing.leValue ((bytes.drop 4).take 2) = 1

/-- The two segment decoders agree on the entries and on the payload error. -/
theorem segment_decoders_agree (codec : LogPayload T) (name : String) {bytes : List UInt8}
    (hheader : ValidHeader bytes) (out : List (Entry T)) :
    (codec.appendSegmentEntries name bytes out).2 = out ++ (codec.entriesFrom bytes headerSize).1 ∧
      ∀ error, (codec.appendSegmentEntries name bytes out).1 = .error error ↔
        (codec.entriesFrom bytes headerSize).2 = some error := by
  obtain ⟨hlength, hmagic, hversion⟩ := hheader
  have happend : codec.appendSegmentEntries name bytes out =
      codec.pushEntries (bytes.drop headerSize) out := by
    rw [LogPayload.appendSegmentEntries, if_neg (not_lt.mpr hlength), if_neg (not_not.mpr hmagic)]
    simp only [hversion, ne_eq, not_true_eq_false, if_false]
  rw [happend, codec.pushEntries_entriesFrom bytes headerSize out]
  refine ⟨rfl, fun error => ?_⟩
  cases (codec.entriesFrom bytes headerSize).2 with
  | none => simp
  | some found => simp

/-- Bytes as payloads, of which one is not accepted. -/
def pickyCodec : LogPayload (List UInt8) where
  encode := id
  decode := fun bytes => if bytes = [0] then .error "zero" else .ok bytes

/-- A header, one entry, one entry that is not accepted, and a cut tail. -/
def corruptedSegment : List UInt8 :=
  segmentHeader 0 ++ pickyCodec.entriesBytes [⟨3, [7]⟩, ⟨4, [0]⟩] ++ [1, 2, 3]

theorem segment_decoders_agree_sample :
    (pickyCodec.appendSegmentEntries "0.seg" corruptedSegment []).2 =
        [] ++ (pickyCodec.entriesFrom corruptedSegment headerSize).1 ∧
      ∀ error, (pickyCodec.appendSegmentEntries "0.seg" corruptedSegment []).1 = .error error ↔
        (pickyCodec.entriesFrom corruptedSegment headerSize).2 = some error :=
  segment_decoders_agree pickyCodec "0.seg" ⟨by decide, by decide, by decide⟩ []

end AukiSdk.Logs
