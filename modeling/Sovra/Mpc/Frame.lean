import Sovra.Lib.Rlp
import Sovra.Mpc.Envelope

/-!
# Sovra — the envelope's wire frame

`envelope.rs`'s `encode`, `peek_route` and `decode`: `header(49) ‖ u32-be payload
len ‖ payload ‖ sig(64)`, with the offsets spelled out where the source spells
them out. An ed25519 signature is any 64 bytes, so its byte form is an
equivalence, a parameter beside `Crypto`.

* `split_header`         — what a byte string with the envelope's domain is.
* `peekRoute_eq_some`    — the routing peek reads two fields of that header.
* `decode_eq_ok`         — `decode` accepts exactly the frames `encode` writes.
-/

namespace Sovra

/-- `FixedBytes::from_slice`. Its panic on a wrong length, which no caller here
reaches, reads as zero bytes. -/
def FixedBytes.fromSlice (n : Nat) (bytes : Bytes) : FixedBytes n :=
  if h : bytes.length = n then ⟨bytes, h⟩ else .repeatByte n 0

/-- Reading back the bytes of a fixed-size array. -/
@[simp] theorem FixedBytes.fromSlice_bytes {n : Nat} (x : FixedBytes n) :
    FixedBytes.fromSlice n x.bytes = x := by
  unfold FixedBytes.fromSlice
  rw [dif_pos x.length_eq]

/-- Bytes of the right length are kept. -/
theorem FixedBytes.bytes_fromSlice {n : Nat} {bytes : Bytes} (h : bytes.length = n) :
    (FixedBytes.fromSlice n bytes).bytes = bytes := by
  unfold FixedBytes.fromSlice
  rw [dif_pos h]

end Sovra

namespace Sovra.Mpc

/-- The signed header's length. -/
def headerLen : Nat := domain.length + 32 + 5
/-- An ed25519 signature. -/
def sigLen : Nat := 64

/-- `u32::from_be_bytes`. -/
def fromU32Be (bytes : Bytes) : UInt32 := UInt32.ofNat (Lib.Rlp.beValue bytes)

section

variable {C : Crypto} (sigBytes : C.Signature ≃ FixedBytes 64)

/-- `SignedEnvelope::encode`. -/
def SignedEnvelope.encode (s : SignedEnvelope C) : Bytes :=
  s.env.headerBytes ++ u32Be (UInt32.ofNat s.env.payload.length) ++ s.env.payload ++
    (sigBytes s.sig).bytes

/-- `SignedEnvelope::peek_route`: `(instance, to)` straight from a frame. -/
def peekRoute (bytes : Bytes) : Option (B256 × UInt8) :=
  if bytes.length < headerLen then none
  else
    let header := bytes.take headerLen
    let fields := header.drop domain.length
    if header.take domain.length ≠ domain then none
    else some (.fromSlice 32 (fields.take 32), fields.getD 35 0)

/-- The error texts of `decode`. -/
def malformed (what : String) : MpcError := .transport ("undecodable envelope: " ++ what)

/-- The sealed flag's byte: 0 or 1, anything else is rejected. -/
def sealedFlag (flag : UInt8) : Option Bool :=
  if flag = 0 then some false else if flag = 1 then some true else none

/-- `SignedEnvelope::decode`. -/
def SignedEnvelope.decode (bytes : Bytes) : Except MpcError (SignedEnvelope C) :=
  if bytes.length < headerLen + 4 + sigLen then .error (malformed "truncated")
  else
    let header := bytes.take headerLen
    let rest := bytes.drop headerLen
    let fields := header.drop domain.length
    if header.take domain.length ≠ domain then .error (malformed "unknown domain/version")
    else
      match sealedFlag (fields.getD 36 0) with
      | none => .error (malformed "non-canonical sealed flag")
      | some sealed =>
        let payloadLen := (fromU32Be (rest.take 4)).toNat
        let rest := rest.drop 4
        if rest.length ≠ payloadLen + sigLen then .error (malformed "length mismatch")
        else
          .ok {
            env := {
              inst := .fromSlice 32 (fields.take 32)
              op := fields.getD 32 0
              round := fields.getD 33 0
              sender := fields.getD 34 0
              recipient := fields.getD 35 0
              payload := rest.take payloadLen
              sealed }
            sig := sigBytes.symm (.fromSlice 64 (rest.drop payloadLen)) }

end

-- ---------------------------------------------------------------------------
-- Big-endian lengths
-- ---------------------------------------------------------------------------

/-- The four bytes of a `u32` are its big-endian value. -/
theorem beValue_u32Be (x : UInt32) : Lib.Rlp.beValue (u32Be x) = x.toNat := by
  have hBound : x.toNat < 2 ^ 32 := x.toNat_lt
  simp only [Lib.Rlp.beValue, u32Be, List.foldl_cons, List.foldl_nil, UInt32.toNat_toUInt8,
    UInt32.toNat_shiftRight, UInt32.reduceToNat, Nat.shiftRight_eq_div_pow, Nat.reduceMod,
    Nat.reducePow]
  omega

/-- Reading back a `u32`. -/
@[simp] theorem fromU32Be_u32Be (x : UInt32) : fromU32Be (u32Be x) = x := by
  unfold fromU32Be
  rw [beValue_u32Be, UInt32.ofNat_toNat]

/-- Four bytes are the big-endian form of what they read as. -/
theorem u32Be_fromU32Be {bytes : Bytes} (h : bytes.length = 4) :
    u32Be (fromU32Be bytes) = bytes := by
  obtain ⟨a, b, c, d, rfl⟩ := List.length_eq_four.mp h
  have ha := a.toNat_lt
  have hb := b.toNat_lt
  have hc := c.toNat_lt
  have hd := d.toNat_lt
  have hValue : Lib.Rlp.beValue [a, b, c, d] =
      ((a.toNat * 256 + b.toNat) * 256 + c.toNat) * 256 + d.toNat := by
    simp only [Lib.Rlp.beValue, List.foldl_cons, List.foldl_nil]
    omega
  have hNat : (fromU32Be [a, b, c, d]).toNat =
      ((a.toNat * 256 + b.toNat) * 256 + c.toNat) * 256 + d.toNat := by
    have hSize : UInt32.size = 4294967296 := rfl
    unfold fromU32Be
    rw [hValue, UInt32.toNat_ofNat_of_lt' (by omega)]
  simp only [u32Be, List.cons.injEq, and_true, ← UInt8.toNat_inj, UInt32.toNat_toUInt8,
    UInt32.toNat_shiftRight, UInt32.reduceToNat, Nat.shiftRight_eq_div_pow, Nat.reduceMod,
    Nat.reducePow, hNat]
  omega

-- ---------------------------------------------------------------------------
-- Headers
-- ---------------------------------------------------------------------------

/-- The header's bytes, field by field. -/
def rawHeader (inst : B256) (op round sender recipient flag : UInt8) : Bytes :=
  domain ++ inst.bytes ++ [op, round, sender, recipient, flag]

/-- The domain tag has twelve bytes. -/
theorem domain_length : domain.length = 12 := rfl

/-- Whatever its fields, a header has one length. -/
theorem rawHeader_length (inst : B256) (op round sender recipient flag : UInt8) :
    (rawHeader inst op round sender recipient flag).length = headerLen := by
  simp [rawHeader, headerLen, inst.length_eq]

/-- A byte string that starts with the domain and holds a header is one. -/
theorem split_header {bytes : Bytes} (hLen : ¬ bytes.length < headerLen)
    (hDomain : (bytes.take headerLen).take domain.length = domain) :
    ∃ inst op round sender recipient flag rest,
      bytes = rawHeader inst op round sender recipient flag ++ rest := by
  -- the fields by their lengths: the domain, 32 bytes, and five more
  have hHeader : (bytes.take headerLen).length = 49 := by
    rw [List.length_take]
    unfold headerLen domain at *
    simp only [List.length_cons, List.length_nil] at *
    omega
  have hFields : ((bytes.take headerLen).drop domain.length).length = 37 := by
    rw [List.length_drop, hHeader, domain_length]
  have hTail : (((bytes.take headerLen).drop domain.length).drop 32).length = 5 := by
    rw [List.length_drop, hFields]
  obtain ⟨op, round, sender, recipient, flag, hFive⟩ :
      ∃ a b c d e, ((bytes.take headerLen).drop domain.length).drop 32 = [a, b, c, d, e] := by
    generalize ((bytes.take headerLen).drop domain.length).drop 32 = tail at hTail
    match tail, hTail with
    | [a, b, c, d, e], _ => exact ⟨a, b, c, d, e, rfl⟩
  have hSplit : bytes.take headerLen = domain ++ (bytes.take headerLen).drop domain.length := by
    conv_lhs => rw [← List.take_append_drop domain.length (bytes.take headerLen), hDomain]
  refine ⟨⟨((bytes.take headerLen).drop domain.length).take 32, ?_⟩, op, round, sender, recipient,
    flag, bytes.drop headerLen, ?_⟩
  · rw [List.length_take, hFields]
    rfl
  · rw [rawHeader, ← hFive, List.append_assoc domain, List.take_append_drop, ← hSplit,
      List.take_append_drop]

/-- A frame starts with its header. -/
@[simp] theorem take_rawHeader (inst : B256) (op round sender recipient flag : UInt8)
    (rest : Bytes) : (rawHeader inst op round sender recipient flag ++ rest).take headerLen =
      rawHeader inst op round sender recipient flag :=
  List.take_left' (rawHeader_length inst op round sender recipient flag)

@[simp] theorem drop_rawHeader (inst : B256) (op round sender recipient flag : UInt8)
    (rest : Bytes) :
    (rawHeader inst op round sender recipient flag ++ rest).drop headerLen = rest :=
  List.drop_left' (rawHeader_length inst op round sender recipient flag)

/-- A header starts with the domain tag. -/
@[simp] theorem take_domain_rawHeader (inst : B256) (op round sender recipient flag : UInt8) :
    (rawHeader inst op round sender recipient flag).take domain.length = domain := by
  rw [rawHeader, List.append_assoc, List.take_left]

/-- The fields that follow the domain. -/
@[simp] theorem drop_domain_rawHeader (inst : B256) (op round sender recipient flag : UInt8) :
    (rawHeader inst op round sender recipient flag).drop domain.length =
      inst.bytes ++ [op, round, sender, recipient, flag] := by
  rw [rawHeader, List.append_assoc, List.drop_left]

/-- The byte at one of the offsets past the instance. -/
theorem getD_fields (inst : B256) (tail : Bytes) (i : Nat) :
    (inst.bytes ++ tail).getD (32 + i) 0 = tail.getD i 0 := by
  have hLen : inst.bytes.length = 32 := inst.length_eq
  rw [List.getD_append_right _ _ _ _ (by omega), hLen]
  congr 1
  omega

/-- The instance comes first of the fields. -/
theorem take_fields (inst : B256) (tail : Bytes) : (inst.bytes ++ tail).take 32 = inst.bytes :=
  List.take_left' inst.length_eq

/-- The header that is signed is the one on the wire. -/
theorem headerBytes_eq (e : Envelope) : e.headerBytes =
    rawHeader e.inst e.op e.round e.sender e.recipient (if e.sealed then 1 else 0) := rfl

-- ---------------------------------------------------------------------------
-- The routing peek
-- ---------------------------------------------------------------------------

/-- The hub's peek reads instance and recipient off any header. -/
theorem peekRoute_rawHeader (inst : B256) (op round sender recipient flag : UInt8)
    (rest : Bytes) :
    peekRoute (rawHeader inst op round sender recipient flag ++ rest) =
      some (inst, recipient) := by
  have hLong : ¬ (rawHeader inst op round sender recipient flag ++ rest).length < headerLen := by
    rw [List.length_append, rawHeader_length]
    omega
  have hTo : (inst.bytes ++ [op, round, sender, recipient, flag]).getD 35 0 = recipient :=
    getD_fields inst [op, round, sender, recipient, flag] 3
  unfold peekRoute
  simp only [if_neg hLong, take_rawHeader, take_domain_rawHeader, ne_eq, not_true_eq_false,
    if_false, drop_domain_rawHeader, take_fields, FixedBytes.fromSlice_bytes, hTo]

/-- The peek reads the instance and the recipient of a header, and nothing
else is routable. -/
theorem peekRoute_eq_some {bytes : Bytes} {route : B256 × UInt8} :
    peekRoute bytes = some route ↔ ∃ op round sender flag rest,
      bytes = rawHeader route.1 op round sender route.2 flag ++ rest := by
  constructor
  · intro h
    have hRaw : ∃ inst op round sender recipient flag rest,
        bytes = rawHeader inst op round sender recipient flag ++ rest := by
      unfold peekRoute at h
      split at h
      · simp at h
      rename_i hLen
      simp only at h
      split at h
      · simp at h
      rename_i hDomain
      exact split_header hLen (not_not.mp hDomain)
    obtain ⟨inst, op, round, sender, recipient, flag, rest, rfl⟩ := hRaw
    rw [peekRoute_rawHeader, Option.some.injEq] at h
    subst h
    exact ⟨op, round, sender, flag, rest, rfl⟩
  · rintro ⟨op, round, sender, flag, rest, rfl⟩
    exact peekRoute_rawHeader route.1 op round sender route.2 flag rest

-- ---------------------------------------------------------------------------
-- Decoding
-- ---------------------------------------------------------------------------

section

variable {C : Crypto} {sigBytes : C.Signature ≃ FixedBytes 64}

/-- So it routes an encoded envelope to its recipient. -/
theorem peekRoute_encode (senv : SignedEnvelope C) :
    peekRoute (senv.encode sigBytes) = some (senv.env.inst, senv.env.recipient) := by
  rw [SignedEnvelope.encode, headerBytes_eq, List.append_assoc, List.append_assoc]
  exact peekRoute_rawHeader _ _ _ _ _ _ _

/-- Only the two canonical flag bytes are read. -/
theorem sealedFlag_eq_some {flag : UInt8} {sealed : Bool} :
    sealedFlag flag = some sealed ↔ flag = if sealed then 1 else 0 := by
  unfold sealedFlag
  split
  · rename_i hZero
    subst hZero
    rcases sealed with _ | _ <;> simp
  split
  · rename_i hOne
    subst hOne
    rcases sealed with _ | _ <;> simp
  · rcases sealed with _ | _ <;> simp_all

/-- `decode` on a header: the flag and the length decide. -/
theorem decode_rawHeader {inst : B256} {op round sender recipient flag : UInt8} {rest : Bytes}
    (hRest : 4 + sigLen ≤ rest.length) :
    SignedEnvelope.decode sigBytes (rawHeader inst op round sender recipient flag ++ rest) =
      match sealedFlag flag with
      | none => .error (malformed "non-canonical sealed flag")
      | some sealed =>
        let payloadLen := (fromU32Be (rest.take 4)).toNat
        if (rest.drop 4).length ≠ payloadLen + sigLen then .error (malformed "length mismatch")
        else .ok ⟨⟨inst, op, round, sender, recipient, (rest.drop 4).take payloadLen, sealed⟩,
          sigBytes.symm (.fromSlice 64 ((rest.drop 4).drop payloadLen))⟩ := by
  have hLong : ¬ (rawHeader inst op round sender recipient flag ++ rest).length <
      headerLen + 4 + sigLen := by
    rw [List.length_append, rawHeader_length]
    omega
  -- the five bytes behind the instance, by their positions
  have hAt : ∀ i, (inst.bytes ++ [op, round, sender, recipient, flag]).getD (32 + i) 0 =
      [op, round, sender, recipient, flag].getD i 0 :=
    fun i => getD_fields inst [op, round, sender, recipient, flag] i
  have h32 := hAt 0
  have h33 := hAt 1
  have h34 := hAt 2
  have h35 := hAt 3
  have h36 := hAt 4
  simp only [Nat.reduceAdd, List.getD_cons_zero, List.getD_cons_succ] at h32 h33 h34 h35 h36
  unfold SignedEnvelope.decode
  simp only [if_neg hLong, take_rawHeader, drop_rawHeader, take_domain_rawHeader, ne_eq,
    not_true_eq_false, if_false, drop_domain_rawHeader, take_fields, FixedBytes.fromSlice_bytes,
    h32, h33, h34, h35, h36]

/-- **`decode` is the inverse of `encode`.** It accepts a byte string exactly if
that is the frame of an envelope whose payload fits the length prefix. -/
theorem decode_eq_ok {bytes : Bytes} {s : SignedEnvelope C} :
    SignedEnvelope.decode sigBytes bytes = .ok s ↔
      bytes = s.encode sigBytes ∧ s.env.payload.length < 2 ^ 32 := by
  constructor
  · intro h
    -- every check of `decode` in turn; what is read determines the bytes
    have hLen : ¬ bytes.length < headerLen + 4 + sigLen := by
      intro hShort
      unfold SignedEnvelope.decode at h
      rw [if_pos hShort] at h
      cases h
    have hDomain : (bytes.take headerLen).take domain.length = domain := by
      by_contra hNe
      unfold SignedEnvelope.decode at h
      simp only [if_neg hLen, ne_eq, hNe, not_false_eq_true, if_true, reduceCtorEq] at h
    obtain ⟨inst, op, round, sender, recipient, flag, rest, rfl⟩ :=
      split_header (by omega) hDomain
    rw [List.length_append, rawHeader_length] at hLen
    rw [decode_rawHeader (by omega)] at h
    split at h
    · cases h
    rename_i sealed hFlag
    simp only at h
    split at h
    · cases h
    rename_i hLength
    rw [not_not] at hLength
    obtain rfl := Except.ok.inj h
    -- the length field is there, and names what lies between it and the signature
    have hFour : (rest.take 4).length = 4 := by
      rw [List.length_take]
      omega
    have hTake : ((rest.drop 4).take (fromU32Be (rest.take 4)).toNat).length =
        (fromU32Be (rest.take 4)).toNat := by
      rw [List.length_take]
      omega
    have hSig : ((rest.drop 4).drop (fromU32Be (rest.take 4)).toNat).length = 64 := by
      rw [List.length_drop, hLength]
      unfold sigLen
      omega
    refine ⟨?_, ?_⟩
    · simp only [SignedEnvelope.encode, headerBytes_eq, hTake, UInt32.ofNat_toNat,
        u32Be_fromU32Be hFour, Equiv.apply_symm_apply, FixedBytes.bytes_fromSlice hSig,
        ← sealedFlag_eq_some.mp hFlag, List.append_assoc, List.take_append_drop]
    · simp only [hTake]
      exact UInt32.toNat_lt _
  · -- a payload that is short enough has its length in four bytes
    rintro ⟨rfl, hPayload⟩
    have hSigLen : (sigBytes s.sig).bytes.length = 64 := (sigBytes s.sig).length_eq
    have hNat : (UInt32.ofNat s.env.payload.length).toNat = s.env.payload.length :=
      UInt32.toNat_ofNat_of_lt' hPayload
    rw [SignedEnvelope.encode, headerBytes_eq, List.append_assoc, List.append_assoc,
      decode_rawHeader]
    · have hFlag : sealedFlag (if s.env.sealed then 1 else 0) = some s.env.sealed :=
        sealedFlag_eq_some.mpr rfl
      have hTake : (u32Be (UInt32.ofNat s.env.payload.length) ++
          (s.env.payload ++ (sigBytes s.sig).bytes)).take 4 =
          u32Be (UInt32.ofNat s.env.payload.length) := List.take_left' rfl
      have hDrop : (u32Be (UInt32.ofNat s.env.payload.length) ++
          (s.env.payload ++ (sigBytes s.sig).bytes)).drop 4 =
          s.env.payload ++ (sigBytes s.sig).bytes := List.drop_left' rfl
      simp only [hFlag, hTake, hDrop, fromU32Be_u32Be, hNat, List.length_append, hSigLen, sigLen,
        ne_eq, not_true_eq_false, if_false, List.take_left, List.drop_left,
        FixedBytes.fromSlice_bytes, Equiv.symm_apply_apply]
    · have hLength : (u32Be (UInt32.ofNat s.env.payload.length)).length = 4 := rfl
      simp only [List.length_append, hLength, hSigLen, sigLen]
      omega

end

end Sovra.Mpc
