import Mathlib

/-!
# Sovra — shared plain types

The types of `sovra-types` and the two byte-level types every crate passes
around: byte strings and the fixed-size words of `alloy-primitives`. A
`PubkeySec1` is well-formed by construction (33 bytes, `0x02`/`0x03` prefix),
as in the source; whether it is a curve point is the MPC layer's concern.
-/

namespace Sovra

/-- `Vec<u8>`, `&[u8]` and `alloy_primitives::Bytes`. -/
abbrev Bytes := List UInt8

/-- `alloy_primitives::FixedBytes<N>`. -/
@[ext] structure FixedBytes (n : Nat) where
  bytes : Bytes
  length_eq : bytes.length = n
deriving DecidableEq

/-- `alloy_primitives::B256`. -/
abbrev B256 := FixedBytes 32

/-- `alloy_primitives::Address`. -/
abbrev Address := FixedBytes 20

/-- `FixedBytes::repeat_byte`. -/
def FixedBytes.repeatByte (n : Nat) (b : UInt8) : FixedBytes n :=
  ⟨List.replicate n b, List.length_replicate⟩

/-- The big-endian `n` bytes of `v`: how `b256!` and `address!` literals read. -/
def FixedBytes.ofNat (n v : Nat) : FixedBytes n :=
  ⟨(List.range n).map fun i => UInt8.ofNat (v >>> (8 * (n - 1 - i))), by simp⟩

/-- `alloy_primitives::U256`: the code compares and encodes these, it never
computes with them modulo `2 ^ 256`. -/
abbrev U256 := Fin (2 ^ 256)

instance u256_neZero : NeZero (2 ^ 256) := ⟨by decide⟩

/-- `u128`, the width of the fee fields. -/
abbrev U128 := Fin (2 ^ 128)

/-- The networks this service can sign for: a closed union. -/
inductive NetworkId
  | Ethereum
deriving DecidableEq, Repr

/-- A 33-byte compressed SEC1 public key. -/
@[ext] structure PubkeySec1 where
  bytes : Bytes
  length_eq : bytes.length = 33
  parity : bytes.head? = some 0x02 ∨ bytes.head? = some 0x03
deriving DecidableEq

/-- `{:#04x}`: two lowercase hex digits behind `0x`. -/
def hexByte (b : UInt8) : String :=
  let digits := String.ofList (Nat.toDigits 16 b.toNat)
  if b.toNat < 16 then "0x0" ++ digits else "0x" ++ digits

/-- `{:#x}` of a byte string: `0x` and two lowercase hex digits a byte. -/
def hexEncode (bytes : Bytes) : String :=
  "0x" ++ String.join (bytes.map fun b => String.ofList ((hexByte b).toList.drop 2))

/-- `PubkeySec1::from_slice`; the error is the text of `InvalidPubkey`. -/
def PubkeySec1.fromSlice (bytes : Bytes) : Except String PubkeySec1 :=
  if hLen : bytes.length = 33 then
    if hPar : bytes.head? = some 0x02 ∨ bytes.head? = some 0x03 then
      .ok ⟨bytes, hLen, hPar⟩
    else
      .error ("invalid compressed SEC1 public key: expected 0x02/0x03 parity prefix, got " ++
        hexByte (bytes.headD 0))
  else
    .error ("invalid compressed SEC1 public key: expected 33 bytes, got " ++
      toString bytes.length)

/-- ECDSA signature components, as `finalize` consumes them. -/
structure EcdsaParts where
  r : U256
  s : U256
  yParity : Bool
deriving DecidableEq

/-- Opaque key-share bytes for one MPC party. -/
structure KeyShare where
  bytes : Bytes
deriving DecidableEq

/-- `{:?}` of a `Vec<u8>`. -/
def debugList (ps : List UInt8) : String :=
  "[" ++ ", ".intercalate (ps.map fun p => toString p.toNat) ++ "]"

end Sovra
