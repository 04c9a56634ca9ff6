import AukiSdk.Foundation.ByteStream

/-!
# Length-prefixed frames

A frame is a big-endian 32-bit length and that many bytes.
-/

namespace AukiSdk.Foundation.LengthPrefix

open ByteStream List

/-- Why no frame was read. -/
inductive FrameError where
  | ended
  | length (actual : ℕ)
  deriving DecidableEq

def frame (body : List UInt8) : List UInt8 :=
  u32ToBeBytes body.length ++ body

/-- Take the next frame off the incoming bytes. -/
def takeFrame (max : ℕ) (incoming : List UInt8) :
    Except FrameError (List UInt8 × List UInt8) :=
  if incoming.length < 4 then
    .error .ended
  else
    let length := u32FromBeBytes (incoming.take 4)
    if length = 0 ∨ max < length then
      .error (.length length)
    else if (incoming.drop 4).length < length then
      .error .ended
    else
      .ok ((incoming.drop 4).take length, (incoming.drop 4).drop length)

@[simp]
theorem length_u32ToBeBytes (value : ℕ) : (u32ToBeBytes value).length = 4 := rfl

theorem u32FromBeBytes_u32ToBeBytes {value : ℕ} (hval : value < 2 ^ 32) :
    u32FromBeBytes (u32ToBeBytes value) = value := by
  simp only [u32FromBeBytes, u32ToBeBytes, foldl_cons, foldl_nil, UInt8.toNat_ofNat']
  omega

theorem u32ToBeBytes_u32FromBeBytes {bytes : List UInt8} (hlen : bytes.length = 4) :
    u32ToBeBytes (u32FromBeBytes bytes) = bytes := by
  match bytes, hlen with
  | [first, second, third, fourth], _ =>
    have hfst := UInt8.toNat_lt first
    have hsnd := UInt8.toNat_lt second
    have hthird := UInt8.toNat_lt third
    have hfourth := UInt8.toNat_lt fourth
    simp only [u32FromBeBytes, u32ToBeBytes, foldl_cons, foldl_nil, List.cons.injEq, and_true]
    refine ⟨?_, ?_, ?_, ?_⟩ <;>
      · apply UInt8.toNat_inj.mp
        rw [UInt8.toNat_ofNat']
        omega

theorem length_frame (body : List UInt8) : (frame body).length = 4 + body.length := by
  rw [frame, length_append, length_u32ToBeBytes]

theorem takeFrame_frame {max : ℕ} (hmax : max < 2 ^ 32) {body : List UInt8}
    (hpos : 0 < body.length) (hbody : body.length ≤ max) (rest : List UInt8) :
    takeFrame max (frame body ++ rest) = .ok (body, rest) := by
  have htake : (frame body ++ rest).take 4 = u32ToBeBytes body.length := by
    rw [frame, append_assoc]
    exact take_left' (length_u32ToBeBytes _)
  have hdrop : (frame body ++ rest).drop 4 = body ++ rest := by
    rw [frame, append_assoc]
    exact drop_left' (length_u32ToBeBytes _)
  have hlen : u32FromBeBytes ((frame body ++ rest).take 4) = body.length := by
    rw [htake, u32FromBeBytes_u32ToBeBytes (by omega)]
  have hlong : ¬ (frame body ++ rest).length < 4 := by
    rw [length_append, length_frame]
    omega
  have hfits : ¬ (body ++ rest).length < body.length := by
    rw [length_append]
    omega
  have hall : ¬ (body.length = 0 ∨ max < body.length) := by omega
  rw [takeFrame, if_neg hlong]
  dsimp only
  rw [hlen, if_neg hall, hdrop, if_neg hfits, take_left, drop_left]

theorem takeFrame_cut {max : ℕ} (hmax : max < 2 ^ 32) {body front : List UInt8}
    (hpos : 0 < body.length) (hbody : body.length ≤ max) (hfro : front <+: frame body)
    (hcut : front.length < (frame body).length) : takeFrame max front = .error .ended := by
  obtain ⟨rest, hrest⟩ := hfro
  rw [takeFrame]
  split
  · rfl
  · rename_i hlong
    have htake : front.take 4 = u32ToBeBytes body.length := by
      have hboth : (front ++ rest).take 4 = u32ToBeBytes body.length := by
        rw [hrest, frame]
        exact take_left' (length_u32ToBeBytes _)
      rw [← hboth, take_append_of_le_length (by omega)]
    have hall : ¬ (body.length = 0 ∨ max < body.length) := by omega
    have hsho : (front.drop 4).length < body.length := by
      rw [length_frame] at hcut
      rw [length_drop]
      omega
    dsimp only
    rw [htake, u32FromBeBytes_u32ToBeBytes (by omega), if_neg hall, if_pos hsho]

theorem takeFrame_eq_ok {max : ℕ} {incoming body rest : List UInt8}
    (hread : takeFrame max incoming = .ok (body, rest)) :
    incoming = incoming.take 4 ++ body ++ rest ∧ body.length ≤ max ∧ 0 < body.length ∧
      body.length = u32FromBeBytes (incoming.take 4) := by
  unfold takeFrame at hread
  split at hread
  · cases hread
  · dsimp only at hread
    split at hread
    · cases hread
    · rename_i hallowed
      split at hread
      · cases hread
      · rename_i hlong
        cases hread
        have hlen := length_take_of_le (not_lt.mp hlong)
        refine ⟨?_, ?_, ?_, hlen⟩
        · rw [append_assoc, take_append_drop, take_append_drop]
        · omega
        · omega

end AukiSdk.Foundation.LengthPrefix
