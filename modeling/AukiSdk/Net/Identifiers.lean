import AukiSdk.Foundation.Text

/-!
# Peer IDs and UUIDs

The two identifier types and their texts.
-/

namespace AukiSdk.Net

open AukiSdk.Foundation

def base58Alphabet : List Char :=
  "123456789ABCDEFGHJKLMNPQRSTUVWXYZabcdefghijkmnopqrstuvwxyz".toList

def base58Digit (digit : ℕ) : Char :=
  base58Alphabet.getD digit '1'

def base58Value (char : Char) : Option ℕ :=
  base58Alphabet.findIdx? (· == char)

/-- `bs58::encode`: each leading zero byte is one leading `1`. -/
def base58Encode (bytes : List UInt8) : List Char :=
  List.replicate (bytes.takeWhile (· = 0)).length '1' ++
    (Nat.digits 58 (Text.horner 256 (bytes.map UInt8.toNat))).reverse.map base58Digit

variable (text : List Char)

/-- `bs58::decode`. -/
def base58Decode : Option (List UInt8) := do
  let digits ← text.mapM base58Value
  some (List.replicate (text.takeWhile (· = '1')).length 0 ++
    (Nat.digits 256 (Text.horner 58 digits)).reverse.map UInt8.ofNat)

/-- A SHA-256 multihash of at most 64 bytes, or an inline key of at most 42 bytes. -/
def isPeerIdBytes : List UInt8 → Bool
  | code :: size :: digest =>
    digest.length == size.toNat &&
      ((code == 0x12 && digest.length ≤ 64) || (code == 0x00 && digest.length ≤ 42))
  | _ => false

structure PeerId where
  bytes : List UInt8
  isPeerIdBytes_bytes : isPeerIdBytes bytes = true
  deriving DecidableEq

theorem PeerId.bytes_injective : Function.Injective PeerId.bytes := by
  intro left right heq
  cases left
  cases right
  simpa using heq

instance : Ord PeerId := ⟨compareOn PeerId.bytes⟩

instance : Std.TransOrd PeerId :=
  inferInstanceAs (Std.TransCmp (compareOn PeerId.bytes))

instance : Std.LawfulEqOrd PeerId where
  compare_self {peer} := Std.ReflCmp.compare_self (a := peer.bytes)
  eq_of_compare h := PeerId.bytes_injective (Std.LawfulEqCmp.eq_of_compare h)

def PeerId.fromBytes (bytes : List UInt8) : Option PeerId :=
  if h : isPeerIdBytes bytes = true then some ⟨bytes, h⟩ else none

/-- `PeerId::fmt`. -/
def PeerId.toText (peer : PeerId) : String :=
  String.ofList (base58Encode peer.bytes)

def PeerId.fromStr (text : String) : Option PeerId := do
  PeerId.fromBytes (← base58Decode text.toList)

/-- The Ed25519 Peer ID whose key ends in `byte`. -/
def samplePeer (byte : UInt8) : PeerId :=
  ⟨[0, 36, 8, 1, 18, 32] ++ List.replicate 31 0 ++ [byte], rfl⟩

abbrev Uuid := BitVec 128

/-- The 32 hexadecimal digits of a UUID, most significant first. -/
def Uuid.hexDigits (uuid : Uuid) : List Char :=
  (List.range 32).map fun index =>
    Text.hexDigit (uuid.toNat / 16 ^ (31 - index) % 16)

/-- `Uuid::fmt`: lower-case hyphenated groups of 8, 4, 4, 4 and 12 digits. -/
def Uuid.toText (uuid : Uuid) : String :=
  let digits := Uuid.hexDigits uuid
  String.ofList (digits.take 8 ++ '-' :: ((digits.drop 8).take 4 ++
    '-' :: ((digits.drop 12).take 4 ++ '-' :: ((digits.drop 16).take 4 ++
      '-' :: digits.drop 20))))

/-- 32 hexadecimal digits in either case. -/
def Uuid.parseSimple : Option Uuid := do
  let digits ← text.mapM Text.hexValue
  if digits.length = 32 then some (BitVec.ofNat 128 (Text.horner 16 digits)) else none

def Uuid.parseHyphenated : Option Uuid :=
  match text.splitOn '-' with
  | [first, second, third, fourth, fifth] =>
    if [first, second, third, fourth, fifth].map List.length = [8, 4, 4, 4, 12] then
      Uuid.parseSimple (first ++ second ++ third ++ fourth ++ fifth)
    else
      none
  | _ => none

/-- `Uuid::parse_str`: the simple form, or the hyphenated form on its own, in
braces or as a URN. -/
def Uuid.parseStr (text : String) : Option Uuid :=
  let chars := text.toList
  if chars.length = 32 then
    Uuid.parseSimple chars
  else if chars.length = 36 then
    Uuid.parseHyphenated chars
  else if chars.length = 38 ∧ chars.head? = some '\x7b' ∧ chars.getLast? = some '\x7d' then
    Uuid.parseHyphenated (chars.drop 1).dropLast
  else if chars.length = 45 ∧ "urn:uuid:".toList <+: chars then
    Uuid.parseHyphenated (chars.drop 9)
  else
    none

end AukiSdk.Net
