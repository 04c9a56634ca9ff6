import Mathlib

/-!
# Little-endian words and length-prefixed frames

A frame is a fixed-width key, the length of a body, and the body.
-/

namespace AukiSdk.Foundation.Framing

open List

/-- The low `width` bytes of a value, least significant first. -/
def leBytes : ℕ → ℕ → List UInt8
  | 0, _ => []
  | width + 1, value => UInt8.ofNat value :: leBytes width (value / 256)

/-- The value of little-endian bytes. -/
def leValue : List UInt8 → ℕ
  | [] => 0
  | byte :: bytes => byte.toNat + 256 * leValue bytes

@[simp]
theorem length_leBytes (width value : ℕ) : (leBytes width value).length = width := by
  induction width generalizing value with
  | zero => rfl
  | succ width ih => rw [leBytes, length_cons, ih]

theorem leValue_leBytes {width value : ℕ} (hval : value < 256 ^ width) :
    leValue (leBytes width value) = value := by
  induction width generalizing value with
  | zero =>
    rw [pow_zero, Nat.lt_one_iff] at hval
    rw [hval]
    rfl
  | succ width ih =>
    have hquo : value / 256 < 256 ^ width := by
      rw [Nat.div_lt_iff_lt_mul (by norm_num), ← pow_succ]
      exact hval
    rw [leBytes, leValue, ih hquo, UInt8.toNat_ofNat']
    exact Nat.mod_add_div value 256

theorem leBytes_leValue (bytes : List UInt8) : leBytes bytes.length (leValue bytes) = bytes ∧
      leValue bytes < 256 ^ bytes.length := by
  induction bytes with
  | nil => exact ⟨rfl, Nat.one_pos⟩
  | cons byte bytes ih =>
    have hbyte := UInt8.toNat_lt byte
    constructor
    · rw [length_cons, leBytes, leValue,
        show (byte.toNat + 256 * leValue bytes) / 256 = leValue bytes by omega,
        ih.1]
      congr 1
      apply UInt8.toNat_inj.mp
      rw [UInt8.toNat_ofNat']
      omega
    · rw [leValue, length_cons, pow_succ]
      omega

/-- Key and body of one frame. -/
abbrev Frame := ℕ × List UInt8

/-- A frame with `keyWidth` bytes of key and `lengthWidth` bytes of length. -/
def encodeFrame (keyWidth lengthWidth : ℕ) (frame : Frame) : List UInt8 :=
  leBytes keyWidth frame.1 ++ (leBytes lengthWidth frame.2.length ++ frame.2)

/-- The first frame of some bytes and what follows it. -/
def readFrame (keyWidth lengthWidth : ℕ) (bytes : List UInt8) :
    Option (Frame × List UInt8) :=
  if bytes.length < keyWidth then
    none
  else
    let rest := bytes.drop keyWidth
    if rest.length < lengthWidth then
      none
    else
      let size := leValue (rest.take lengthWidth)
      let body := rest.drop lengthWidth
      if body.length < size then
        none
      else
        some ((leValue (bytes.take keyWidth), body.take size), body.drop size)

/-- A frame whose key and length are representable. -/
def Fits (keyWidth lengthWidth : ℕ) (frame : Frame) : Prop :=
  frame.1 < 256 ^ keyWidth ∧ frame.2.length < 256 ^ lengthWidth

variable {keyWidth lengthWidth : ℕ} {frame : Frame}

theorem length_encodeFrame (keyWidth lengthWidth : ℕ) (frame : Frame) :
    (encodeFrame keyWidth lengthWidth frame).length =
      keyWidth + (lengthWidth + frame.2.length) := by
  simp [encodeFrame]

theorem readFrame_encodeFrame (hfits : Fits keyWidth lengthWidth frame) (rest : List UInt8) :
    readFrame keyWidth lengthWidth (encodeFrame keyWidth lengthWidth frame ++ rest) =
      some (frame, rest) := by
  have hkey : (encodeFrame keyWidth lengthWidth frame ++ rest).take keyWidth =
      leBytes keyWidth frame.1 := by
    rw [encodeFrame, append_assoc, take_left' (length_leBytes _ _)]
  have htail : (encodeFrame keyWidth lengthWidth frame ++ rest).drop keyWidth =
      leBytes lengthWidth frame.2.length ++ (frame.2 ++ rest) := by
    rw [encodeFrame, append_assoc, drop_left' (length_leBytes _ _), append_assoc]
  have hlen : ¬ (encodeFrame keyWidth lengthWidth frame ++ rest).length < keyWidth := by
    rw [length_append, length_encodeFrame]
    omega
  simp only [readFrame, if_neg hlen, htail, hkey, leValue_leBytes hfits.1]
  rw [if_neg (by simp), take_left' (length_leBytes _ _),
    drop_left' (length_leBytes _ _), leValue_leBytes hfits.2, if_neg (by simp),
    take_left' rfl, drop_left' rfl]

variable {bytes : List UInt8}

theorem readFrame_eq_none (hfits : Fits keyWidth lengthWidth frame)
    (hinit : bytes <+: encodeFrame keyWidth lengthWidth frame)
    (hsho : bytes.length < (encodeFrame keyWidth lengthWidth frame).length) :
    readFrame keyWidth lengthWidth bytes = none := by
  obtain ⟨missing, hmiss⟩ := hinit
  rw [length_encodeFrame] at hsho
  simp only [readFrame]
  split
  · rfl
  · rename_i hkey
    rw [not_lt] at hkey
    -- Past the key, the bytes are a beginning of length and body.
    have hrest : bytes.drop keyWidth ++ missing =
        leBytes lengthWidth frame.2.length ++ frame.2 := by
      have hdrop := congrArg (List.drop keyWidth) hmiss
      rwa [drop_append_of_le_length hkey, encodeFrame, drop_left' (length_leBytes _ _)] at hdrop
    split
    · rfl
    · rename_i hlen
      rw [not_lt] at hlen
      have hsize : (bytes.drop keyWidth).take lengthWidth = leBytes lengthWidth frame.2.length := by
        have htake := congrArg (List.take lengthWidth) hrest
        rwa [take_append_of_le_length hlen, take_left' (length_leBytes _ _)] at htake
      rw [hsize, leValue_leBytes hfits.2, if_pos]
      simp only [length_drop] at hlen ⊢
      omega

/-- The whole frames at the front of some bytes. -/
def readFrames (keyWidth lengthWidth : ℕ) : ℕ → List UInt8 → List Frame
  | 0, _ => []
  | fuel + 1, bytes =>
    match readFrame keyWidth lengthWidth bytes with
    | none => []
    | some (frame, rest) => frame :: readFrames keyWidth lengthWidth fuel rest

/-- A sequence of frames. -/
def encodeFrames (keyWidth lengthWidth : ℕ) (frames : List Frame) : List UInt8 :=
  frames.flatMap (encodeFrame keyWidth lengthWidth)

@[simp]
theorem encodeFrames_nil (keyWidth lengthWidth : ℕ) :
    encodeFrames keyWidth lengthWidth [] = [] := rfl

theorem encodeFrames_cons (keyWidth lengthWidth : ℕ) (frame : Frame) (frames : List Frame) :
    encodeFrames keyWidth lengthWidth (frame :: frames) =
      encodeFrame keyWidth lengthWidth frame ++ encodeFrames keyWidth lengthWidth frames :=
  flatMap_cons

theorem encodeFrames_append (keyWidth lengthWidth : ℕ) (first second : List Frame) :
    encodeFrames keyWidth lengthWidth (first ++ second) =
      encodeFrames keyWidth lengthWidth first ++ encodeFrames keyWidth lengthWidth second :=
  flatMap_append

theorem readFrame_nil (hwid : 0 < keyWidth) : readFrame keyWidth lengthWidth [] = none := by
  rw [readFrame, if_pos (by simpa using hwid)]

theorem length_le_encodeFrames (hwidth : 0 < keyWidth) (frames : List Frame) :
    frames.length ≤ (encodeFrames keyWidth lengthWidth frames).length := by
  induction frames with
  | nil => simp
  | cons frame frames ih =>
    rw [encodeFrames_cons, length_append, length_encodeFrame, length_cons]
    omega

variable {frames : List Frame}

theorem readFrames_append {tail : List UInt8} (htail : readFrame keyWidth lengthWidth tail = none)
    (hfits : ∀ frame ∈ frames, Fits keyWidth lengthWidth frame) {fuel : ℕ}
    (hfuel : frames.length < fuel) :
    readFrames keyWidth lengthWidth fuel
      (encodeFrames keyWidth lengthWidth frames ++ tail) = frames := by
  induction frames generalizing fuel with
  | nil =>
    cases fuel with
    | zero => cases hfuel
    | succ fuel => rw [encodeFrames_nil, nil_append, readFrames, htail]
  | cons frame frames ih =>
    cases fuel with
    | zero => cases hfuel
    | succ fuel =>
      rw [encodeFrames_cons, append_assoc, readFrames,
        readFrame_encodeFrame (hfits frame mem_cons_self)]
      simp only
      rw [ih (fun other ho => hfits other (mem_cons_of_mem _ ho)) (by simpa using hfuel)]

theorem readFrames_encodeFrames (hwid : 0 < keyWidth)
    (hfits : ∀ frame ∈ frames, Fits keyWidth lengthWidth frame) {fuel : ℕ}
    (hfuel : frames.length < fuel) :
    readFrames keyWidth lengthWidth fuel (encodeFrames keyWidth lengthWidth frames) = frames := by
  have hread := readFrames_append (readFrame_nil hwid) hfits hfuel
  rwa [append_nil] at hread

/-- A beginning of some frames gives the first frame, or nothing. -/
theorem readFrame_prefix (hwid : 0 < keyWidth)
    (hfits : ∀ frame ∈ frames, Fits keyWidth lengthWidth frame)
    (hinit : bytes <+: encodeFrames keyWidth lengthWidth frames) :
    readFrame keyWidth lengthWidth bytes = none ∨ ∃ frame rest tail, frames = frame :: tail ∧
        readFrame keyWidth lengthWidth bytes = some (frame, rest) ∧
        bytes = encodeFrame keyWidth lengthWidth frame ++ rest ∧
        rest <+: encodeFrames keyWidth lengthWidth tail := by
  cases frames with
  | nil =>
    rw [encodeFrames_nil, prefix_nil] at hinit
    rw [hinit, readFrame_nil hwid]
    exact Or.inl rfl
  | cons frame tail =>
    have hfrm := hfits frame mem_cons_self
    rw [encodeFrames_cons] at hinit
    by_cases hsho : bytes.length < (encodeFrame keyWidth lengthWidth frame).length
    · left
      apply readFrame_eq_none hfrm _ hsho
      exact prefix_of_prefix_length_le hinit (prefix_append _ _) hsho.le
    · right
      rw [not_lt] at hsho
      obtain ⟨rest, rfl⟩ := prefix_of_prefix_length_le (prefix_append _ _) hinit hsho
      refine ⟨frame, rest, tail, rfl, readFrame_encodeFrame hfrm rest, rfl, ?_⟩
      rwa [prefix_append_right_inj] at hinit

theorem readFrames_prefix (hwid : 0 < keyWidth) (fuel : ℕ)
    (hfits : ∀ frame ∈ frames, Fits keyWidth lengthWidth frame)
    (hinit : bytes <+: encodeFrames keyWidth lengthWidth frames) :
    readFrames keyWidth lengthWidth fuel bytes <+: frames := by
  induction fuel generalizing frames bytes with
  | zero => exact nil_prefix
  | succ fuel ih =>
    rw [readFrames]
    rcases readFrame_prefix hwid hfits hinit with hnone | ⟨frame, rest, tail, rfl, hread, -, hrest⟩
    · rw [hnone]
      exact nil_prefix
    · rw [hread]
      simp only
      rw [cons_prefix_cons]
      exact ⟨rfl, ih (fun other ho => hfits other (mem_cons_of_mem _ ho)) hrest⟩

end AukiSdk.Foundation.Framing
