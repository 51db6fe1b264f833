import Sovra.Lib.Wire

/-!
# Sovra — RLP

The recursive length prefix code, as self-delimiting codes: lengths, byte
strings, unsigned integers and lists. Integers and lengths are minimal, a
single byte below `0x80` is its own string, and nothing else is accepted.
A length from `2 ^ 64 - 1` on, which no string in memory has, continues in
unary, so that the codes are total.

* `beValue_beDigits`, `beDigits_beValue` — minimal big-endian digits.
* `lawful_length`, `lawful_string`, `lawful_uint`, `lawful_list`.
-/

namespace Sovra.Lib.Rlp

variable {ε α : Type}

-- ---------------------------------------------------------------------------
-- Minimal big-endian digits
-- ---------------------------------------------------------------------------

/-- The big-endian bytes of `n < 256 ^ k`, without leading zeros. -/
def beDigits : Nat → Nat → List UInt8
  | 0, _ => []
  | k + 1, n => if n = 0 then [] else beDigits k (n / 256) ++ [UInt8.ofNat (n % 256)]

/-- The number a big-endian byte string stands for. -/
def beValue (bytes : List UInt8) : Nat :=
  bytes.foldl (fun v b => 256 * v + b.toNat) 0

/-- The last byte is the lowest digit. -/
theorem beValue_snoc (bytes : List UInt8) (b : UInt8) :
    beValue (bytes ++ [b]) = 256 * beValue bytes + b.toNat := by
  simp [beValue]

/-- A remainder fits a byte. -/
theorem toNat_ofNat_mod (n : Nat) : (UInt8.ofNat (n % 256)).toNat = n % 256 := by
  rw [UInt8.toNat_ofNat']
  omega

/-- The digits of a number stand for it, if there are enough of them. -/
theorem beValue_beDigits {k n : Nat} (h : n < 256 ^ k) : beValue (beDigits k n) = n := by
  induction k generalizing n with
  | zero =>
    have hn : n = 0 := by simpa using h
    rw [hn]
    rfl
  | succ k ih =>
    rw [beDigits]
    split
    · rename_i hn
      rw [hn]
      rfl
    · have hDiv : n / 256 < 256 ^ k := by
        rw [Nat.pow_succ] at h
        omega
      rw [beValue_snoc, ih hDiv, toNat_ofNat_mod]
      omega

/-- No number has more digits than it was allowed. -/
theorem length_beDigits_le (k n : Nat) : (beDigits k n).length ≤ k := by
  induction k generalizing n with
  | zero => simp [beDigits]
  | succ k ih =>
    rw [beDigits]
    split
    · simp
    · rw [List.length_append, List.length_singleton]
      have := ih (n / 256)
      omega

/-- Only zero has no digits. -/
theorem beDigits_ne_nil {k n : Nat} (hn : n ≠ 0) (hk : k ≠ 0) : beDigits k n ≠ [] := by
  obtain ⟨k, rfl⟩ := Nat.exists_eq_succ_of_ne_zero hk
  rw [beDigits, if_neg hn]
  simp

/-- No leading zero. -/
def Minimal (bytes : List UInt8) : Prop := bytes.head? ≠ some 0

instance (bytes : List UInt8) : Decidable (Minimal bytes) :=
  inferInstanceAs (Decidable (bytes.head? ≠ some 0))

/-- Digits have no leading zero. -/
theorem minimal_beDigits {k n : Nat} (h : n < 256 ^ k) : Minimal (beDigits k n) := by
  induction k generalizing n with
  | zero => simp [Minimal, beDigits]
  | succ k ih =>
    rw [beDigits]
    split
    · simp [Minimal]
    rename_i hn
    have hDiv : n / 256 < 256 ^ k := by
      rw [Nat.pow_succ] at h
      omega
    have hMin := ih hDiv
    by_cases hNil : beDigits k (n / 256) = []
    · -- a one-byte number is its own remainder, and not zero
      have hZero : n / 256 = 0 := by
        have hVal := beValue_beDigits hDiv
        rw [hNil] at hVal
        exact hVal.symm
      rw [hNil, Minimal]
      intro hHead
      have hByte := congrArg UInt8.toNat (Option.some.inj hHead)
      rw [toNat_ofNat_mod] at hByte
      simp at hByte
      omega
    · obtain ⟨b, bs, hCons⟩ := List.exists_cons_of_ne_nil hNil
      rw [hCons] at hMin ⊢
      exact hMin

/-- A byte string without a leading zero is zero only if it is empty. -/
theorem beValue_pos {bytes : List UInt8} (hMin : Minimal bytes) (hNe : bytes ≠ []) :
    0 < beValue bytes := by
  induction bytes using List.reverseRecOn with
  | nil => exact absurd rfl hNe
  | append_singleton bytes b ih =>
    rw [beValue_snoc]
    by_cases hNil : bytes = []
    · -- the first byte is the leading one
      subst hNil
      have hb : b ≠ 0 := fun h => hMin (by rw [h]; rfl)
      have hNat : b.toNat ≠ 0 := fun h => hb (UInt8.toNat_inj.mp h)
      omega
    · -- a leading byte further up is what it was
      obtain ⟨c, cs, rfl⟩ := List.exists_cons_of_ne_nil hNil
      have := ih hMin hNil
      omega

/-- A byte string without a leading zero is the digits of its number: the second
half of the round trip. -/
theorem beDigits_beValue {k : Nat} {bytes : List UInt8} (hMin : Minimal bytes)
    (hLen : bytes.length ≤ k) : beDigits k (beValue bytes) = bytes := by
  induction bytes using List.reverseRecOn generalizing k with
  | nil => cases k <;> simp [beDigits, beValue]
  | append_singleton bytes b ih =>
    have hPos := beValue_pos hMin (by simp)
    rw [List.length_append, List.length_singleton] at hLen
    obtain ⟨k, rfl⟩ : ∃ j, k = j + 1 := ⟨k - 1, by omega⟩
    rw [beDigits, if_neg (by omega), beValue_snoc]
    have hByte := b.toNat_lt
    -- the last byte is what division leaves
    have hMod : (256 * beValue bytes + b.toNat) % 256 = b.toNat := by omega
    have hDiv : (256 * beValue bytes + b.toNat) / 256 = beValue bytes := by omega
    have hMin' : Minimal bytes := by
      cases bytes with
      | nil => simp [Minimal]
      | cons c cs => exact hMin
    rw [hMod, hDiv, ih hMin' (by omega), UInt8.ofNat_toNat]

/-- The length of a byte string bounds its number. -/
theorem beValue_lt (bytes : List UInt8) : beValue bytes < 256 ^ bytes.length := by
  induction bytes using List.reverseRecOn with
  | nil => simp [beValue]
  | append_singleton bytes b ih =>
    have hByte := b.toNat_lt
    rw [beValue_snoc, List.length_append, List.length_singleton, Nat.pow_succ]
    omega

-- ---------------------------------------------------------------------------
-- Lengths
-- ---------------------------------------------------------------------------

/-- The length part of a header: `base + n` up to 55, else `base + 55` plus the
number of length bytes, then those bytes. -/
def shortLength (base : Nat) (err : ε) : Wire UInt8 ε (Fin (2 ^ 64 - 1 + 1)) where
  write n :=
    if n.val < 56 then [UInt8.ofNat (base + n.val)]
    else UInt8.ofNat (base + 55 + (beDigits 8 n.val).length) :: beDigits 8 n.val
  read
    | [] => .error err
    | first :: rest =>
      if first.toNat < base ∨ base + 63 < first.toNat then .error err
      else if hShort : first.toNat < base + 56 then .ok (⟨first.toNat - base, by omega⟩, rest)
      else
        let digits := rest.take (first.toNat - base - 55)
        if h : digits.length = first.toNat - base - 55 ∧ Minimal digits ∧ 56 ≤ beValue digits ∧
            beValue digits < 2 ^ 64 then
          .ok (⟨beValue digits, h.2.2.2⟩, rest.drop (first.toNat - base - 55))
        else .error err

/-- A number below 256 fits a byte. -/
theorem toNat_ofNat_lt {n : Nat} (h : n < 256) : (UInt8.ofNat n).toNat = n := by
  rw [UInt8.toNat_ofNat']
  omega

/-- The short header: one byte for the lengths up to 55, and 55 plus the number of
length bytes above. -/
theorem lawful_shortLength {base : Nat} (hBase : base + 63 < 256) (err : ε) :
    (shortLength base err).Lawful where
  read_write n rest := by
    by_cases hShort : n.val < 56
    · have hFirst : (UInt8.ofNat (base + n.val)).toNat = base + n.val :=
        toNat_ofNat_lt (by omega)
      simp only [shortLength, hShort, if_true, List.cons_append, List.nil_append, hFirst]
      rw [if_neg (by omega), dif_pos (by omega)]
      congr 2
      exact Fin.ext (by simp)
    · have hLt : n.val < 256 ^ 8 := n.isLt
      have hLen := length_beDigits_le 8 n.val
      have hPos : (beDigits 8 n.val).length ≠ 0 := fun h =>
        beDigits_ne_nil (by omega) (by decide) (List.length_eq_zero_iff.mp h)
      have hFirst : (UInt8.ofNat (base + 55 + (beDigits 8 n.val).length)).toNat =
          base + 55 + (beDigits 8 n.val).length := toNat_ofNat_lt (by omega)
      have hCount : base + 55 + (beDigits 8 n.val).length - base - 55 =
          (beDigits 8 n.val).length := by omega
      simp only [shortLength, hShort, if_false, List.cons_append, hFirst, hCount]
      rw [if_neg (by omega), dif_neg (by omega)]
      -- the length bytes are minimal, and too large for the short form
      have hGood : (beDigits 8 n.val).length = (beDigits 8 n.val).length ∧
          Minimal (beDigits 8 n.val) ∧ 56 ≤ beValue (beDigits 8 n.val) ∧
          beValue (beDigits 8 n.val) < 2 ^ 64 := by
        rw [beValue_beDigits hLt]
        exact ⟨rfl, minimal_beDigits hLt, by omega, n.isLt⟩
      simp only [List.take_left, List.drop_left, hGood, and_self, dite_true]
      congr 2
      exact Fin.ext (beValue_beDigits hLt)
  eq_write := by
    intro input n rest h
    cases input with
    | nil => cases h
    | cons first tail =>
      simp only [shortLength] at h ⊢
      split at h
      · cases h
      rename_i hRange
      split at h
      · -- read in the short form, so written in it
        rename_i hShort
        obtain ⟨rfl, rfl⟩ := Prod.mk.inj (Except.ok.inj h)
        simp only
        rw [if_pos (by omega)]
        have hFirst : base + (first.toNat - base) = first.toNat := by omega
        rw [hFirst, UInt8.ofNat_toNat]
        rfl
      rename_i hLong
      split at h
      · rename_i hGood
        have hLen := hGood.1
        have hMin := hGood.2.1
        have hBig := hGood.2.2.1
        obtain ⟨rfl, rfl⟩ := Prod.mk.inj (Except.ok.inj h)
        simp only
        -- read in the long form: the bytes are the number's digits
        have hDigits : beDigits 8 (beValue (tail.take (first.toNat - base - 55))) =
            tail.take (first.toNat - base - 55) := beDigits_beValue hMin (by omega)
        rw [if_neg (by omega), hDigits, hLen]
        have hFirst : base + 55 + (first.toNat - base - 55) = first.toNat := by omega
        rw [hFirst, UInt8.ofNat_toNat, List.cons_append, List.take_append_drop]
      · cases h

/-- The header of a string (`base = 0x80`) or list (`base = 0xc0`). -/
def length (base : Nat) (err : ε) : Wire UInt8 ε Nat :=
  .escaped (shortLength base err) (.unary 1 0 err)

/-- A header says the length in the short form where there is one, so no length has
two. -/
theorem lawful_length {base : Nat} (hBase : base + 63 < 256) (err : ε) :
    (length base err).Lawful :=
  Wire.lawful_escaped (lawful_shortLength hBase err) (Wire.lawful_unary (by decide) err)

/-- A header's first byte tells its kind. -/
theorem length_write_cons {base : Nat} (hBase : base + 63 < 256) (err : ε) (n : Nat) :
    ∃ first rest, (length base err).write n = first :: rest ∧ base ≤ first.toNat ∧
      first.toNat ≤ base + 63 := by
  have hShort : ∀ k : Fin (2 ^ 64 - 1 + 1), ∃ first rest,
      (shortLength base err).write k = first :: rest ∧ base ≤ first.toNat ∧
        first.toNat ≤ base + 63 := by
    intro k
    have hLen := length_beDigits_le 8 k.val
    simp only [shortLength]
    split
    · refine ⟨_, _, rfl, ?_⟩
      rw [toNat_ofNat_lt (by omega)]
      omega
    · refine ⟨_, _, rfl, ?_⟩
      rw [toNat_ofNat_lt (by omega)]
      omega
  rcases Nat.lt_or_ge n (2 ^ 64 - 1) with h | h
  · rw [length, Wire.escaped_write_lt _ _ h]
    exact hShort _
  · obtain ⟨first, rest, hWrite, hFirst⟩ := hShort (Fin.last _)
    rw [length, Wire.escaped_write_ge _ _ h, hWrite]
    exact ⟨first, _, rfl, hFirst⟩

-- ---------------------------------------------------------------------------
-- Strings, integers and lists
-- ---------------------------------------------------------------------------

/-- The bytes of a frame, as they are. -/
def raw : Block UInt8 ε (List UInt8) where
  write bytes := bytes
  read bytes := .ok bytes

/-- Bytes stand for themselves. -/
theorem lawful_raw : (raw : Block UInt8 ε (List UInt8)).Lawful where
  read_write _ := rfl
  eq_write h := Except.ok.inj h

/-- A byte that is its own string. -/
def SelfCoded (bytes : List UInt8) : Prop := ∃ b, bytes = [b] ∧ b < 0x80

instance (bytes : List UInt8) : Decidable (SelfCoded bytes) :=
  match bytes with
  | [] => isFalse fun ⟨_, h, _⟩ => by cases h
  | [b] => if h : b < 0x80 then isTrue ⟨b, rfl, h⟩
    else isFalse fun ⟨_, hEq, hLt⟩ => h ((List.cons.inj hEq).1 ▸ hLt)
  | _ :: _ :: _ => isFalse fun ⟨_, h, _⟩ => by cases h

/-- A byte string: itself if it is one byte below 0x80, behind its length otherwise. -/
def string (err : ε) : Wire UInt8 ε (List UInt8) where
  write bytes := if SelfCoded bytes then bytes else (Wire.framed (length 0x80 err) raw err).write bytes
  read
    | [] => .error err
    | first :: rest =>
      if first < 0x80 then .ok ([first], rest)
      else
        match (Wire.framed (length 0x80 err) raw err).read (first :: rest) with
        | .error e => .error e
        | .ok (bytes, rest') => if SelfCoded bytes then .error err else .ok (bytes, rest')

/-- The two forms of a string differ in their first byte, and a single low byte
behind a length is refused. -/
theorem lawful_string (err : ε) : (string err).Lawful where
  read_write bytes rest := by
    have hFrame : (Wire.framed (length 0x80 err) raw err).Lawful :=
      Wire.lawful_framed (lawful_length (by decide) err) lawful_raw err
    by_cases hSelf : SelfCoded bytes
    · -- one low byte is itself
      simp only [string, hSelf, if_true]
      obtain ⟨b, rfl, hb⟩ := hSelf
      simp only [List.cons_append, List.nil_append, hb, if_true]
    · obtain ⟨first, tail, hWrite, hFirst, -⟩ :=
        length_write_cons (show 0x80 + 63 < 256 by decide) err bytes.length
      have hRead := hFrame.read_write bytes rest
      -- a header's first byte is no low byte, so the reader does not take it for one
      have hBig : ¬ first < 0x80 := by
        rw [UInt8.lt_iff_toNat_lt]
        exact Nat.not_lt.mpr hFirst
      simp only [string, hSelf, if_false]
      rw [Wire.framed_write] at hRead ⊢
      have hCons : (length 0x80 err).write ((raw : Block UInt8 ε (List UInt8)).write bytes).length ++
          (raw : Block UInt8 ε (List UInt8)).write bytes ++ rest = first :: (tail ++ bytes ++ rest) := by
        show (length 0x80 err).write bytes.length ++ bytes ++ rest = _
        rw [hWrite]
        rfl
      rw [hCons] at hRead ⊢
      simp only [hBig, if_false, hRead, hSelf]
  eq_write := by
    intro input bytes rest h
    have hFrame : (Wire.framed (length 0x80 err) raw err).Lawful :=
      Wire.lawful_framed (lawful_length (by decide) err) lawful_raw err
    cases input with
    | nil => cases h
    | cons first tail =>
      simp only [string] at h ⊢
      split at h
      · rename_i hSmall
        obtain ⟨rfl, rfl⟩ := Prod.mk.inj (Except.ok.inj h)
        rw [if_pos ⟨first, rfl, hSmall⟩]
        rfl
      split at h
      · cases h
      rename_i bytes' rest' hRead
      split at h
      · cases h
      rename_i hSelf
      obtain ⟨rfl, rfl⟩ := Prod.mk.inj (Except.ok.inj h)
      -- a frame of one low byte was refused
      rw [if_neg hSelf]
      exact hFrame.eq_write hRead

/-- A string of a given length. -/
def bytesN (n : Nat) (err : ε) : Wire UInt8 ε { bytes : List UInt8 // bytes.length = n } :=
  (string err).guarded (fun bytes => bytes.length = n) err

/-- A string of one length only. -/
theorem lawful_bytesN (n : Nat) (err : ε) : (bytesN n err).Lawful :=
  Wire.lawful_guarded (lawful_string err) _ err

/-- An unsigned integer of at most `k` bytes: the string of its minimal digits. -/
def uint (k : Nat) (err : ε) : Wire UInt8 ε (Fin (256 ^ k)) :=
  ((string err).guarded (fun bytes => Minimal bytes ∧ bytes.length ≤ k) err).iso
    (fun bytes => ⟨beValue bytes.1, Nat.lt_of_lt_of_le (beValue_lt bytes.1)
      (Nat.pow_le_pow_right (by decide) bytes.2.2)⟩)
    (fun n => ⟨beDigits k n.val, minimal_beDigits n.isLt, length_beDigits_le k n.val⟩)

/-- A number without leading zeros. -/
theorem lawful_uint (k : Nat) (err : ε) : (uint k err).Lawful :=
  Wire.lawful_iso (Wire.lawful_guarded (lawful_string err) _ err)
    (fun n => Fin.ext (beValue_beDigits n.isLt))
    (fun bytes => Subtype.ext (beDigits_beValue bytes.2.1 bytes.2.2))

/-- A list: its items behind the length of their encodings. -/
def list (items : Block UInt8 ε α) (err : ε) : Wire UInt8 ε α :=
  .framed (length 0xc0 err) items err

/-- A list is its items behind their length. -/
theorem lawful_list {items : Block UInt8 ε α} (hItems : items.Lawful) (err : ε) :
    (list items err).Lawful :=
  Wire.lawful_framed (lawful_length (by decide) err) hItems err

/-- Not even an empty list is written as nothing. -/
theorem list_write_ne_nil (items : Block UInt8 ε α) (err : ε) (a : α) :
    (list items err).write a ≠ [] := by
  obtain ⟨first, rest, hWrite, -⟩ :=
    length_write_cons (show 0xc0 + 63 < 256 by decide) err (items.write a).length
  rw [list, Wire.framed_write, hWrite]
  exact List.cons_ne_nil _ _

end Sovra.Lib.Rlp
