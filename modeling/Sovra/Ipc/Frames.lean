import Sovra.Mpc.Authenticity
import Sovra.Mpc.Frame

/-!
# Sovra — the relay plane's two frames

A socket's first frame is a `Join`, every later one an envelope. Both layouts
are written by hand; here they are shown to be codes: each frame has one value,
each value one frame, and the two kinds cannot be mistaken for each other.

* `Join.decode_eq_some` — `Join::decode` accepts exactly what `encode` writes.
* `join_not_routable`   — a `Join` is no routable frame.
* `frames_canonical`    — all of it, with what a signature covers.
-/

namespace Sovra.Ipc

open Mpc

/-- The relay plane's join frame: it claims one `(instance, party)` mailbox. -/
structure Join where
  inst : B256
  partyId : UInt8
deriving DecidableEq

/-- `b"SOVRA-JOIN-V1"`. -/
def joinDomain : Bytes :=
  [0x53, 0x4f, 0x56, 0x52, 0x41, 0x2d, 0x4a, 0x4f, 0x49, 0x4e, 0x2d, 0x56, 0x31]

/-- `Join::encode`: the domain, the instance, the party. -/
def Join.encode (j : Join) : Bytes := joinDomain ++ j.inst.bytes ++ [j.partyId]

/-- `Join::decode`. -/
def Join.decode (bytes : Bytes) : Option Join :=
  match bytes.dropPrefix? joinDomain with
  | none => none
  | some rest =>
    if rest.length < 32 then none
    else
      match rest.drop 32 with
      | [partyId] => some ⟨.fromSlice 32 (rest.take 32), partyId⟩
      | _ => none

/-- A join is read off its own encoding and nothing else. -/
theorem Join.decode_eq_some {bytes : Bytes} {j : Join} :
    Join.decode bytes = some j ↔ bytes = j.encode := by
  constructor
  · -- the domain, 32 bytes, and one more: nothing is left that is not read
    intro h
    unfold Join.decode at h
    split at h
    · simp at h
    rename_i rest hRest
    obtain ⟨pre, rfl, hPre⟩ := List.dropPrefix?_eq_some_iff.mp hRest
    obtain rfl := eq_of_beq hPre
    split at h
    · simp at h
    rename_i hLen
    split at h
    · rename_i partyId hTail
      rw [Option.some.injEq] at h
      subst h
      have hTake : (rest.take 32).length = 32 := by
        rw [List.length_take]
        omega
      rw [Join.encode, FixedBytes.bytes_fromSlice hTake, ← hTail, List.append_assoc,
        List.take_append_drop]
    · simp at h
  · -- and that is how a join is written
    rintro rfl
    have hLen : j.inst.bytes.length = 32 := j.inst.length_eq
    have hLong : ¬ (j.inst.bytes ++ [j.partyId]).length < 32 := by
      rw [List.length_append, hLen]
      omega
    have hPrefix : (joinDomain ++ (j.inst.bytes ++ [j.partyId])).dropPrefix? joinDomain =
        some (j.inst.bytes ++ [j.partyId]) := List.dropPrefix?_append_of_beq _ (beq_self_eq_true _)
    unfold Join.decode
    rw [Join.encode, List.append_assoc, hPrefix]
    simp only [if_neg hLong, List.drop_left' hLen, List.take_left' hLen,
      FixedBytes.fromSlice_bytes]

/-- The two domains differ in their seventh byte. -/
theorem join_not_routable (j : Join) : peekRoute j.encode = none := by
  rcases hPeek : peekRoute j.encode with _ | route
  · rfl
  obtain ⟨op, round, sender, flag, rest, hRaw⟩ := peekRoute_eq_some.mp hPeek
  have hSeventh := congrArg (fun bytes : Bytes => bytes[6]?) hRaw
  simp only [Join.encode, joinDomain, rawHeader, domain, List.cons_append,
    List.getElem?_cons_succ, List.getElem?_cons_zero] at hSeventh
  exact absurd (Option.some.inj hSeventh) (by decide)

section

variable (C : Crypto)

/-- SHA-512 does not collide on these two payloads. -/
def Distinguishes (a b : Bytes) : Prop := C.sha512 a = C.sha512 b → a = b

/-- No signature verifies under `vk` for two different ones of these messages. -/
def SignsOneOf (vk : C.VerifyingKey) (m m' : Bytes) : Prop :=
  ∀ sig, C.verifyStrict vk m sig = true → C.verifyStrict vk m' sig = true → m = m'

variable {C}

/-- **The frame formats are canonical.** `decode` and `encode` are inverse to
each other on every envelope the length prefix can carry and on every byte
string, for joins too; the routing peek reads the fields `decode` does; no byte
string is a join and routable; and a signature, with the seven fields and the
payload's hash under it, belongs to one envelope. -/
theorem frames_canonical (sigBytes : C.Signature ≃ FixedBytes 64) :
    (∀ s : SignedEnvelope C, s.env.payload.length < 2 ^ 32 →
      SignedEnvelope.decode sigBytes (s.encode sigBytes) = .ok s) ∧
    (∀ bytes (s : SignedEnvelope C), SignedEnvelope.decode sigBytes bytes = .ok s →
      s.encode sigBytes = bytes ∧ peekRoute bytes = some (s.env.inst, s.env.recipient)) ∧
    (∀ j : Join, Join.decode j.encode = some j) ∧
    (∀ bytes j, Join.decode bytes = some j → j.encode = bytes) ∧
    (∀ bytes, Join.decode bytes = none ∨ peekRoute bytes = none) ∧
    (∀ e e' : Envelope, Distinguishes C e.payload e'.payload →
      e.signingPreimage C = e'.signingPreimage C → e = e') ∧
    (∀ vk (s s' : SignedEnvelope C), Distinguishes C s.env.payload s'.env.payload →
      SignsOneOf C vk (s.env.signingPreimage C) (s'.env.signingPreimage C) →
      C.verifyStrict vk (s.env.signingPreimage C) s.sig = true →
      C.verifyStrict vk (s'.env.signingPreimage C) s'.sig = true →
      s.sig = s'.sig → s.env = s'.env) := by
  refine ⟨?_, ?_, ?_, ?_, ?_, ?_, ?_⟩
  · intro s hPayload
    exact decode_eq_ok.mpr ⟨rfl, hPayload⟩
  · intro bytes s hDecode
    obtain ⟨rfl, -⟩ := decode_eq_ok.mp hDecode
    exact ⟨rfl, peekRoute_encode s⟩
  · intro j
    exact Join.decode_eq_some.mpr rfl
  · intro bytes j hDecode
    exact (Join.decode_eq_some.mp hDecode).symm
  · intro bytes
    rcases hDecode : Join.decode bytes with _ | j
    · exact Or.inl rfl
    · rw [Join.decode_eq_some.mp hDecode]
      exact Or.inr (join_not_routable j)
  · intro e e' hSha hPreimage
    exact signingPreimage_injective hSha hPreimage
  · intro vk s s' hSha hSigns hVerify hVerify' hSame
    rw [← hSame] at hVerify'
    exact signingPreimage_injective hSha (hSigns s.sig hVerify hVerify')

end

-- ---------------------------------------------------------------------------
-- A frame, byte by byte
-- ---------------------------------------------------------------------------

namespace Sample

/-- A signature is the key and the first 63 bytes of the message. -/
def signature (key : UInt8) (m : Bytes) : FixedBytes 64 :=
  .fromSlice 64 (key :: (m ++ List.replicate 63 0).take 63)

/-- The symbolic primitives, with 64-byte signatures. -/
def crypto : Crypto := { Symbolic.crypto with
  Signature := FixedBytes 64
  signBytes := signature
  verifyStrict := fun vk m sig => sig == signature vk m }

/-- A broadcast of party 0, to party 1. -/
def broadcast (round : UInt8) : SignedEnvelope crypto :=
  (Envelope.mkBroadcast (.repeatByte 32 7) Op.dkg round 0 1 [9, 9]).sign (5 : UInt8)

end Sample

open Sample in
/-- A broadcast's frame decodes to it; its signature is not that of the next
round's broadcast. -/
theorem frames_canonical_broadcast :
    SignedEnvelope.decode (Equiv.refl _) ((Sample.broadcast 1).encode (Equiv.refl _)) =
        .ok (Sample.broadcast 1) ∧
      peekRoute ((Sample.broadcast 1).encode (Equiv.refl _)) = some (.repeatByte 32 7, 1) ∧
      (Sample.broadcast 1).sig ≠ (Sample.broadcast 2).sig := by
  obtain ⟨hDecode, hEncode, -, -, -, -, hShared⟩ := frames_canonical (C := crypto) (Equiv.refl _)
  have hFrame := hDecode (Sample.broadcast 1) (by decide)
  refine ⟨hFrame, (hEncode _ _ hFrame).2, ?_⟩
  intro hSame
  have hEnv := hShared (5 : UInt8) (Sample.broadcast 1) (Sample.broadcast 2) (fun _ => rfl) ?_ (by decide +kernel)
    (by decide +kernel) hSame
  · exact absurd hEnv (by decide)
  · intro sig hOne hTwo
    have hClash : signature 5 ((Sample.broadcast 1).env.signingPreimage crypto) =
        signature 5 ((Sample.broadcast 2).env.signingPreimage crypto) :=
      (eq_of_beq hOne).symm.trans (eq_of_beq hTwo)
    exact absurd hClash (by decide +kernel)

end Sovra.Ipc
