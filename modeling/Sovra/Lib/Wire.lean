import Mathlib

/-!
# Sovra — self-delimiting codes

A `Wire` writes values as symbol strings and reads one value off the front of
an input; a `Block` reads its input whole. A code is *lawful* when reading
undoes writing whatever follows, and when everything it reads is something it
wrote — so that no value has two encodings.

Results:

* `Wire.Lawful.write_injective` — one encoding, one value.
* `Wire.Lawful.delimited` — what is lawful is delimited: it reads a value off the
  front whatever follows. The converse fails where a value has two encodings.
* `lawful_seq`, `lawful_iso`, `lawful_framed`, `lawful_counted` — composition.
* `lawful_whole`, `lawful_many` — blocks from self-delimiting codes.
* `lawful_unary`, `lawful_escaped`, `lawful_fixedLE` — codes of numbers.
-/

namespace Sovra.Lib

variable {β ε α γ : Type}

/-- A self-delimiting code over symbols `β`, with read errors `ε`. -/
structure Wire (β ε α : Type) where
  write : α → List β
  read : List β → Except ε (α × List β)

/-- A code whose reader consumes its whole input. -/
structure Block (β ε α : Type) where
  write : α → List β
  read : List β → Except ε α

/-- Reading undoes writing whatever follows, and nothing else reads: the code is
self-delimiting and every value has one form. -/
structure Wire.Lawful (w : Wire β ε α) : Prop where
  read_write : ∀ a rest, w.read (w.write a ++ rest) = .ok (a, rest)
  eq_write : ∀ {input a rest}, w.read input = .ok (a, rest) → input = w.write a ++ rest

/-- Reading undoes writing, and what is read off the front does not depend on what
follows. A value may be read from strings that are not written for it. -/
structure Wire.Delimited (w : Wire β ε α) : Prop where
  read_write : ∀ a rest, w.read (w.write a ++ rest) = .ok (a, rest)
  front : ∀ {input a rest}, w.read input = .ok (a, rest) →
    ∃ front, input = front ++ rest ∧ ∀ more, w.read (front ++ more) = .ok (a, more)

/-- `Wire.Lawful` for a code that takes all of its input. -/
structure Block.Lawful (b : Block β ε α) : Prop where
  read_write : ∀ a, b.read (b.write a) = .ok a
  eq_write : ∀ {input a}, b.read input = .ok a → input = b.write a

namespace Wire

/-- No value's form begins another's. -/
theorem Lawful.write_injective {w : Wire β ε α} (hw : w.Lawful) {a a' : α} {rest rest' : List β}
    (h : w.write a ++ rest = w.write a' ++ rest') : a = a' ∧ rest = rest' := by
  have hRead := hw.read_write a rest
  rw [h, hw.read_write] at hRead
  obtain ⟨rfl, rfl⟩ := Prod.mk.inj (Except.ok.inj hRead)
  exact ⟨rfl, rfl⟩

/-- A lawful wire is delimited: where a prefix reads to its end, more input changes
nothing. -/
theorem Lawful.delimited {w : Wire β ε α} (hw : w.Lawful) : w.Delimited where
  read_write := hw.read_write
  front := by
    intro input a rest h
    exact ⟨w.write a, hw.eq_write h, hw.read_write a⟩

/-- A lawful code of a type with two values writes something for each. -/
theorem Lawful.write_ne_nil {w : Wire β ε α} (hw : w.Lawful) {a a' : α} (hNe : a ≠ a') :
    w.write a ≠ [] := by
  intro hNil
  have hEq : w.write a ++ w.write a' = w.write a' ++ [] := by rw [hNil, List.append_nil]; rfl
  exact hNe (hw.write_injective hEq).1

-- ---------------------------------------------------------------------------
-- Composition
-- ---------------------------------------------------------------------------

/-- One value after another. -/
def seq (u : Wire β ε α) (v : Wire β ε γ) : Wire β ε (α × γ) where
  write p := u.write p.1 ++ v.write p.2
  read input :=
    match u.read input with
    | .error e => .error e
    | .ok (a, rest) =>
      match v.read rest with
      | .error e => .error e
      | .ok (c, rest') => .ok ((a, c), rest')

/-- A pair is written one part after the other. -/
@[simp] theorem seq_write (u : Wire β ε α) (v : Wire β ε γ) (p : α × γ) :
    (u.seq v).write p = u.write p.1 ++ v.write p.2 := rfl

/-- The second part is read from where the first one ended. -/
theorem lawful_seq {u : Wire β ε α} {v : Wire β ε γ} (hu : u.Lawful) (hv : v.Lawful) :
    (u.seq v).Lawful where
  read_write p rest := by
    simp only [seq, List.append_assoc, hu.read_write, hv.read_write]
  eq_write := by
    intro input p rest h
    simp only [seq] at h
    split at h
    · cases h
    rename_i a mid hA
    split at h
    · cases h
    rename_i c rest' hC
    obtain ⟨rfl, rfl⟩ := Prod.mk.inj (Except.ok.inj h)
    rw [hu.eq_write hA, hv.eq_write hC, seq_write, List.append_assoc]

/-- The same strings, read as another type. -/
def iso (w : Wire β ε α) (f : α → γ) (g : γ → α) : Wire β ε γ where
  write c := w.write (g c)
  read input :=
    match w.read input with
    | .error e => .error e
    | .ok (a, rest) => .ok (f a, rest)

/-- A value is written as what it stands for. -/
@[simp] theorem iso_write (w : Wire β ε α) (f : α → γ) (g : γ → α) (c : γ) :
    (w.iso f g).write c = w.write (g c) := rfl

/-- A bijection changes no bytes. -/
theorem lawful_iso {w : Wire β ε α} (hw : w.Lawful) {f : α → γ} {g : γ → α}
    (hfg : ∀ c, f (g c) = c) (hgf : ∀ a, g (f a) = a) : (w.iso f g).Lawful where
  read_write c rest := by simp only [iso, hw.read_write, hfg]
  eq_write := by
    intro input c rest h
    simp only [iso] at h
    split at h
    · cases h
    rename_i a rest' hA
    obtain ⟨rfl, rfl⟩ := Prod.mk.inj (Except.ok.inj h)
    rw [hw.eq_write hA, iso_write, hgf]

/-- The strings of the values that satisfy `p` only. -/
def guarded (w : Wire β ε α) (p : α → Prop) [DecidablePred p] (err : ε) : Wire β ε { a // p a } where
  write a := w.write a.1
  read input :=
    match w.read input with
    | .error e => .error e
    | .ok (a, rest) => if h : p a then .ok (⟨a, h⟩, rest) else .error err

/-- Refusing some values leaves the others their form. -/
theorem lawful_guarded {w : Wire β ε α} (hw : w.Lawful) (p : α → Prop) [DecidablePred p]
    (err : ε) : (w.guarded p err).Lawful where
  read_write a rest := by
    simp only [guarded, hw.read_write, a.2, dite_true]
  eq_write := by
    intro input a rest h
    simp only [guarded] at h
    split at h
    · cases h
    rename_i a' rest' hA
    split at h
    · obtain ⟨rfl, rfl⟩ := Prod.mk.inj (Except.ok.inj h)
      exact hw.eq_write hA
    · cases h

-- ---------------------------------------------------------------------------
-- Blocks
-- ---------------------------------------------------------------------------

/-- A block that is one value and nothing after it. -/
def whole (w : Wire β ε α) (err : ε) : Block β ε α where
  write := w.write
  read input :=
    match w.read input with
    | .error e => .error e
    | .ok (a, []) => .ok a
    | .ok (_, _ :: _) => .error err

/-- A wire that must use up its input is a block. -/
theorem lawful_whole {w : Wire β ε α} (hw : w.Lawful) (err : ε) : (w.whole err).Lawful where
  read_write a := by
    have hRead := hw.read_write a []
    rw [List.append_nil] at hRead
    simp only [whole, hRead]
  eq_write := by
    intro input a h
    simp only [whole] at h
    split at h
    · cases h
    · rename_i a' hA
      rw [hw.eq_write hA, List.append_nil, Except.ok.inj h, whole]
    · cases h

/-- Read values until the input is used up; `fuel` bounds their number. -/
def readMany (w : Wire β ε α) (err : ε) : Nat → List β → Except ε (List α)
  | _, [] => .ok []
  | 0, _ :: _ => .error err
  | fuel + 1, b :: bs =>
    match w.read (b :: bs) with
    | .error e => .error e
    | .ok (a, rest) =>
      match w.readMany err fuel rest with
      | .error e => .error e
      | .ok as => .ok (a :: as)

/-- A block of any number of values. -/
def many (w : Wire β ε α) (err : ε) : Block β ε (List α) where
  write as := as.flatMap w.write
  read input := w.readMany err input.length input

/-- Items that are written one after the other are read until none is left, as no
item is empty. -/
theorem readMany_write {w : Wire β ε α} (hw : w.Lawful) (hNe : ∀ a, w.write a ≠ []) (err : ε)
    (as : List α) {fuel : Nat} (hFuel : as.length ≤ fuel) :
    w.readMany err fuel (as.flatMap w.write) = .ok as := by
  induction as generalizing fuel with
  | nil => cases fuel <;> rfl
  | cons a as ih =>
    rw [List.flatMap_cons]
    -- the reader looks for a first symbol: the item has one
    obtain ⟨b, bs, hWrite⟩ := List.exists_cons_of_ne_nil (hNe a)
    cases fuel with
    | zero => simp at hFuel
    | succ fuel =>
      have hRead := hw.read_write a (as.flatMap w.write)
      rw [hWrite, List.cons_append] at hRead ⊢
      rw [readMany, hRead]
      simp only
      rw [ih (by simpa using hFuel)]

/-- What reads as items is those items, written. -/
theorem eq_write_of_readMany {w : Wire β ε α} (hw : w.Lawful) {err : ε} {fuel : Nat}
    {input : List β} {as : List α} (h : w.readMany err fuel input = .ok as) :
    input = as.flatMap w.write := by
  induction fuel generalizing input as with
  -- without fuel only the empty input reads
  | zero =>
    cases input with
    | nil => rw [← Except.ok.inj h]; rfl
    | cons b bs => cases h
  | succ fuel ih =>
    cases input with
    | nil => rw [← Except.ok.inj h]; rfl
    | cons b bs =>
      rw [readMany] at h
      split at h
      · cases h
      rename_i a rest hA
      split at h
      · cases h
      rename_i as' hAs
      rw [← Except.ok.inj h, List.flatMap_cons, ← ih hAs]
      exact hw.eq_write hA

/-- As no item is empty, the input is at least as long as there are items: enough
fuel. -/
theorem length_le_flatMap {w : Wire β ε α} (hNe : ∀ a, w.write a ≠ []) (as : List α) :
    as.length ≤ (as.flatMap w.write).length := by
  induction as with
  | nil => simp
  | cons a as ih =>
    have hPos := List.length_pos_of_ne_nil (hNe a)
    rw [List.flatMap_cons, List.length_append, List.length_cons]
    omega

/-- Items to the end of the input are a block. -/
theorem lawful_many {w : Wire β ε α} (hw : w.Lawful) (hNe : ∀ a, w.write a ≠ []) (err : ε) :
    (w.many err).Lawful where
  read_write as := readMany_write hw hNe err as (length_le_flatMap hNe as)
  eq_write h := eq_write_of_readMany hw h

/-- A block behind its own length. -/
def framed (len : Wire β ε Nat) (b : Block β ε α) (err : ε) : Wire β ε α where
  write a := len.write (b.write a).length ++ b.write a
  read input :=
    match len.read input with
    | .error e => .error e
    | .ok (n, rest) =>
      if rest.length < n then .error err
      else
        match b.read (rest.take n) with
        | .error e => .error e
        | .ok a => .ok (a, rest.drop n)

/-- A frame is its body's length and its body. -/
@[simp] theorem framed_write (len : Wire β ε Nat) (b : Block β ε α) (err : ε) (a : α) :
    (framed len b err).write a = len.write (b.write a).length ++ b.write a := rfl

/-- A frame takes as much of the input as its length says, and its body all of that. -/
theorem lawful_framed {len : Wire β ε Nat} {b : Block β ε α} (hLen : len.Lawful) (hb : b.Lawful)
    (err : ε) : (framed len b err).Lawful where
  read_write a rest := by
    have hFits : ¬ (b.write a ++ rest).length < (b.write a).length := by
      rw [List.length_append]
      omega
    simp only [framed, List.append_assoc, hLen.read_write, hFits, if_false, List.take_left,
      List.drop_left, hb.read_write]
  eq_write := by
    intro input a rest h
    simp only [framed] at h
    split at h
    · cases h
    rename_i n mid hN
    split at h
    · cases h
    rename_i hFits
    split at h
    · cases h
    rename_i a' hA
    obtain ⟨rfl, rfl⟩ := Prod.mk.inj (Except.ok.inj h)
    -- the body is what its length took, so the length is the body's
    have hTake := hb.eq_write hA
    have hLength : (b.write a').length = n := by
      rw [← hTake, List.length_take]
      omega
    rw [hLen.eq_write hN, framed_write, hLength, List.append_assoc, ← hTake, List.take_append_drop]

/-- Read `n` values. -/
def readTimes (w : Wire β ε α) : Nat → List β → Except ε (List α × List β)
  | 0, input => .ok ([], input)
  | n + 1, input =>
    match w.read input with
    | .error e => .error e
    | .ok (a, rest) =>
      match w.readTimes n rest with
      | .error e => .error e
      | .ok (as, rest') => .ok (a :: as, rest')

/-- A list behind its count. -/
def counted (count : Wire β ε Nat) (w : Wire β ε α) : Wire β ε (List α) where
  write as := count.write as.length ++ as.flatMap w.write
  read input :=
    match count.read input with
    | .error e => .error e
    | .ok (n, rest) => w.readTimes n rest

/-- A counted list is its length and its items. -/
@[simp] theorem counted_write (count : Wire β ε Nat) (w : Wire β ε α) (as : List α) :
    (counted count w).write as = count.write as.length ++ as.flatMap w.write := rfl

/-- As many items are read as were counted, whatever follows. -/
theorem readTimes_write {w : Wire β ε α} (hw : w.Lawful) (as : List α) (rest : List β) :
    w.readTimes as.length (as.flatMap w.write ++ rest) = .ok (as, rest) := by
  induction as with
  | nil => rfl
  | cons a as ih =>
    rw [List.length_cons, readTimes, List.flatMap_cons, List.append_assoc, hw.read_write]
    simp only [ih]

/-- What reads as a number of items is those items, written, and the rest. -/
theorem eq_write_of_readTimes {w : Wire β ε α} (hw : w.Lawful) {n : Nat} {input rest : List β}
    {as : List α} (h : w.readTimes n input = .ok (as, rest)) :
    as.length = n ∧ input = as.flatMap w.write ++ rest := by
  induction n generalizing input as with
  | zero =>
    obtain ⟨rfl, rfl⟩ := Prod.mk.inj (Except.ok.inj h)
    exact ⟨rfl, rfl⟩
  | succ n ih =>
    rw [readTimes] at h
    split at h
    · cases h
    rename_i a mid hA
    split at h
    · cases h
    rename_i as' rest' hAs
    obtain ⟨rfl, rfl⟩ := Prod.mk.inj (Except.ok.inj h)
    obtain ⟨hLen, hMid⟩ := ih hAs
    refine ⟨by rw [List.length_cons, hLen], ?_⟩
    rw [List.flatMap_cons, List.append_assoc, ← hMid]
    exact hw.eq_write hA

/-- The items are read from behind their count. -/
theorem lawful_counted {count : Wire β ε Nat} {w : Wire β ε α} (hCount : count.Lawful)
    (hw : w.Lawful) : (counted count w).Lawful where
  read_write as rest := by
    simp only [counted, List.append_assoc, hCount.read_write, readTimes_write hw]
  eq_write := by
    intro input as rest h
    simp only [counted] at h
    split at h
    · cases h
    rename_i n mid hN
    obtain ⟨hLen, hMid⟩ := eq_write_of_readTimes hw h
    rw [hCount.eq_write hN, counted_write, hLen, List.append_assoc, ← hMid]

-- ---------------------------------------------------------------------------
-- Elementary codes
-- ---------------------------------------------------------------------------

/-- One symbol. -/
def symbol (err : ε) : Wire β ε β where
  write b := [b]
  read
    | [] => .error err
    | b :: rest => .ok (b, rest)

/-- One symbol stands for itself. -/
theorem lawful_symbol (err : ε) : (symbol (β := β) err).Lawful where
  read_write _ _ := rfl
  eq_write := by
    intro input b rest h
    cases input with
    | nil => cases h
    | cons b' bs =>
      obtain ⟨rfl, rfl⟩ := Prod.mk.inj (Except.ok.inj h)
      rfl

/-- `n` marks and a stop. -/
def unary [DecidableEq β] (mark stop : β) (err : ε) : Wire β ε Nat where
  write n := List.replicate n mark ++ [stop]
  read := go 0
where
  go (n : Nat) : List β → Except ε (Nat × List β)
    | [] => .error err
    | b :: rest => if b = stop then .ok (n, rest) else if b = mark then go (n + 1) rest else .error err

/-- A number in unary ends at the first stop mark. -/
theorem lawful_unary [DecidableEq β] {mark stop : β} (hNe : mark ≠ stop) (err : ε) :
    (unary mark stop err).Lawful where
  read_write n rest := by
    -- the reader counts on from any number
    have hGo : ∀ k, unary.go mark stop err k (List.replicate n mark ++ [stop] ++ rest) =
        .ok (k + n, rest) := by
      induction n with
      | zero => intro k; simp [unary.go]
      | succ n ih =>
        intro k
        rw [List.replicate_succ, List.cons_append, List.cons_append, unary.go, if_neg hNe,
          if_pos rfl, ih (k + 1)]
        congr 2
        omega
    have hZero := hGo 0
    rwa [Nat.zero_add] at hZero
  eq_write := by
    -- whatever it read is marks and one stop
    have hGo : ∀ (input : List β) k n rest, unary.go mark stop err k input = .ok (n, rest) →
        ∃ m, n = k + m ∧ input = List.replicate m mark ++ [stop] ++ rest := by
      intro input
      induction input with
      | nil => intro k n rest h; cases h
      | cons b bs ih =>
        intro k n rest h
        rw [unary.go] at h
        split at h
        · rename_i hStop
          obtain ⟨rfl, rfl⟩ := Prod.mk.inj (Except.ok.inj h)
          exact ⟨0, rfl, by rw [hStop]; rfl⟩
        split at h
        · rename_i hMark
          obtain ⟨m, rfl, rfl⟩ := ih (k + 1) n rest h
          exact ⟨m + 1, by omega, by rw [hMark, List.replicate_succ]; rfl⟩
        · cases h
    intro input n rest h
    obtain ⟨m, hm, hInput⟩ := hGo input 0 n rest h
    rw [Nat.zero_add] at hm
    rw [hInput, hm, unary]

/-- A code of the numbers below `N + 1`, extended to every number: `N` escapes
to a unary remainder. -/
def escaped {N : Nat} (w : Wire β ε (Fin (N + 1))) (tail : Wire β ε Nat) : Wire β ε Nat where
  write n :=
    if h : n < N then w.write ⟨n, by omega⟩ else w.write (Fin.last N) ++ tail.write (n - N)
  read input :=
    match w.read input with
    | .error e => .error e
    | .ok (k, rest) =>
      if k.val < N then .ok (k.val, rest)
      else
        match tail.read rest with
        | .error e => .error e
        | .ok (m, rest') => .ok (N + m, rest')

/-- A small number is written in the short form. -/
theorem escaped_write_lt {N : Nat} (w : Wire β ε (Fin (N + 1))) (tail : Wire β ε Nat) {n : Nat}
    (h : n < N) : (escaped w tail).write n = w.write ⟨n, by omega⟩ := dif_pos h

/-- A number too large for that is the escape and what it exceeds the bound by. -/
theorem escaped_write_ge {N : Nat} (w : Wire β ε (Fin (N + 1))) (tail : Wire β ε Nat) {n : Nat}
    (h : N ≤ n) : (escaped w tail).write n = w.write (Fin.last N) ++ tail.write (n - N) :=
  dif_neg (by omega)

/-- The escape is the one short form that stands for no number, so the two forms do
not meet. -/
theorem lawful_escaped {N : Nat} {w : Wire β ε (Fin (N + 1))} {tail : Wire β ε Nat}
    (hw : w.Lawful) (hTail : tail.Lawful) : (escaped w tail).Lawful where
  read_write n rest := by
    rcases Nat.lt_or_ge n N with h | h
    · rw [escaped_write_lt w tail h, escaped]
      simp only [hw.read_write, h, if_true]
    · rw [escaped_write_ge w tail h, escaped]
      simp only [List.append_assoc, hw.read_write, Fin.val_last, Nat.lt_irrefl, if_false,
        hTail.read_write, Nat.add_sub_cancel' h]
  eq_write := by
    intro input n rest h
    rw [escaped] at h
    simp only at h
    split at h
    · cases h
    rename_i k mid hK
    split at h
    · rename_i hLt
      obtain ⟨rfl, rfl⟩ := Prod.mk.inj (Except.ok.inj h)
      rw [escaped_write_lt w tail hLt, hw.eq_write hK]
    rename_i hLt
    split at h
    · cases h
    rename_i m rest' hM
    obtain ⟨rfl, rfl⟩ := Prod.mk.inj (Except.ok.inj h)
    -- no smaller number was read, so it was the escape
    have hLast : k = Fin.last N := Fin.ext (by have := k.isLt; simp only [Fin.val_last]; omega)
    rw [escaped_write_ge w tail (Nat.le_add_right N m), hw.eq_write hK, hTail.eq_write hM, hLast,
      Nat.add_sub_cancel_left, List.append_assoc]

/-- `k` bytes, little-endian. -/
def fixedLE (err : ε) : (k : Nat) → Wire UInt8 ε (Fin (256 ^ k))
  | 0 => { write := fun _ => [], read := fun input => .ok (⟨0, by decide⟩, input) }
  | k + 1 =>
    ((symbol err).seq (fixedLE err k)).iso
      (fun p => ⟨p.1.toNat + 256 * p.2.val, by
        have h₁ := p.1.toNat_lt
        have h₂ := p.2.isLt
        rw [Nat.pow_succ]
        omega⟩)
      (fun n => (UInt8.ofNat (n.val % 256), ⟨n.val / 256, by
        have h : n.val < 256 ^ k * 256 := n.isLt
        omega⟩))

/-- A number of fixed width is its digits, low ones first: by induction on the width. -/
theorem lawful_fixedLE (err : ε) (k : Nat) : (fixedLE err k).Lawful := by
  induction k with
  | zero =>
    refine ⟨fun a rest => ?_, ?_⟩
    · have ha : a = ⟨0, by decide⟩ := Fin.ext (by have := a.isLt; simp at this; omega)
      rw [ha]
      rfl
    · intro input a rest h
      obtain ⟨rfl, rfl⟩ := Prod.mk.inj (Except.ok.inj h)
      rfl
  | succ k ih =>
    refine lawful_iso (lawful_seq (lawful_symbol err) ih) (fun n => Fin.ext ?_) (fun p => ?_)
    · -- a number is its low digit and the rest
      have hByte : (UInt8.ofNat (n.val % 256)).toNat = n.val % 256 := by
        rw [UInt8.toNat_ofNat']
        omega
      simp only [hByte]
      omega
    · -- and a digit and a rest are those of their number
      have hByte := p.1.toNat_lt
      have hMod : (p.1.toNat + 256 * p.2.val) % 256 = p.1.toNat := by omega
      have hDiv : (p.1.toNat + 256 * p.2.val) / 256 = p.2.val := by omega
      refine Prod.ext ?_ (Fin.ext hDiv)
      simp only [hMod, UInt8.ofNat_toNat]

end Wire

end Sovra.Lib
