import Sovra.Lib.Wire
import Sovra.Mpc.Exchange

/-!
# Sovra — the round plumbing of the DKLs23 adapters

`sovra-mpc-dkls23-carbon`'s `rounds.rs`, with the parts of `convert.rs` and
`lib.rs` it uses. `route` and `route_zero_mul` group a phase's transmits by
declared receiver, one serialized payload per recipient; `gather` and
`gather_zero_mul` flatten what every peer's payload decodes to.

The library's transmit structs are a type parameter with a `parties` field,
and bincode is a `Codec`.

* `getElem?_groupBy` — what grouping puts in a recipient's slot.
* `foldlM_de_ok`, `foldlM_de_error` — the decode loop, for both gathers.
* `gather_by_slot` — a gathered item belongs to the peer whose payload held it;
  the `parties` it declares are read by neither gather.
-/

namespace Sovra.Carbon

open Mpc

-- ---------------------------------------------------------------------------
-- Ids and errors
-- ---------------------------------------------------------------------------

/-- 0xCarbon's 1-based `PartyIndex`: zero is rejected at construction. -/
structure PartyIndex where
  val : UInt8
  ne_zero : val ≠ 0
deriving DecidableEq

/-- Index 1 is one. -/
theorem PartyIndex.one_ne_zero : (1 : UInt8) ≠ 0 := by decide

/-- `cidx`; `none` is the panic on id 255. -/
def cidx (partyId : UInt8) : Option PartyIndex :=
  if h : partyId + 1 ≠ 0 then some ⟨partyId + 1, h⟩ else none

/-- `sidx`: the id of an index. -/
def sidx (index : PartyIndex) : UInt8 := index.val - 1

/-- `sidx` undoes `cidx`. -/
theorem sidx_cidx {p : UInt8} {i : PartyIndex} (h : cidx p = some i) : sidx i = p := by
  unfold cidx at h
  split at h
  · rw [← Option.some.inj h]
    exact UInt8.add_sub_cancel p 1
  · cases h

theorem cidx_sidx (i : PartyIndex) : cidx (sidx i) = some i := by
  have hVal : sidx i + 1 = i.val := UInt8.sub_add_cancel i.val 1
  have hNe : sidx i + 1 ≠ 0 := hVal ▸ i.ne_zero
  unfold cidx
  rw [dif_pos hNe]
  congr 1
  cases i
  congr 1

/-- `cidx` where the source calls it: an id of 255 panics. -/
def cidxOrPanic (partyId : UInt8) : Except Halt PartyIndex :=
  match cidx partyId with
  | some index => .ok index
  | none => .error .panic

/-- It does not panic where there is an index. -/
theorem cidxOrPanic_eq_ok {partyId : UInt8} {index : PartyIndex} :
    cidxOrPanic partyId = .ok index ↔ cidx partyId = some index := by
  unfold cidxOrPanic
  split <;> simp_all

/-- The `parties` field of a transmit: sender and receiver, as declared. -/
structure Parties where
  sender : PartyIndex
  receiver : PartyIndex
deriving DecidableEq

/-- `fail`: the seam error variant of an operation. -/
def fail (op : UInt8) (msg : String) : MpcError :=
  if op = Op.sign then .sign msg else .dkg msg

-- ---------------------------------------------------------------------------
-- Serialization
-- ---------------------------------------------------------------------------

/-- `bincode::serialize` and `bincode::deserialize` at one type. -/
structure Codec (α : Type) where
  serialize : α → Bytes
  deserialize : Bytes → Option α

/-- What is serialized is read back. -/
def Codec.RoundTrips {α : Type} (c : Codec α) : Prop :=
  ∀ a, c.deserialize (c.serialize a) = some a

/-- The error text of `de`. -/
def undecodable (sender : UInt8) (what : String) (op : UInt8) : MpcError :=
  fail op ("party " ++ toString sender.toNat ++ " sent an undecodable " ++ what)

/-- `de`: deserialize a peer's payload, attributing failure to the sender. -/
def de {α : Type} (c : Codec α) (bytes : Bytes) (sender : UInt8) (what : String) (op : UInt8) :
    Except MpcError α :=
  match c.deserialize bytes with
  | some a => .ok a
  | none => .error (undecodable sender what op)

-- ---------------------------------------------------------------------------
-- Routing and gathering
-- ---------------------------------------------------------------------------

section

variable {T Z M σ : Type}

/-- `for item in items { push(grouped.entry(key(item)).or_default(), item) }`. -/
def groupBy (key : T → UInt8) (push : σ → T → σ) (default : σ)
    (grouped : Std.ExtTreeMap UInt8 σ) (items : List T) : Std.ExtTreeMap UInt8 σ :=
  items.foldl
    (fun grouped item => grouped.alter (key item) fun slot => some (push (slot.getD default) item))
    grouped

/-- `route`: one payload for each declared receiver. -/
def route (c : Codec (List T)) (receiver : T → UInt8) (items : List T) : PartyMap :=
  (groupBy receiver (fun v item => v ++ [item]) [] ∅ items).map fun _ v => c.serialize v

/-- `gather`: everybody's items, in sender order. -/
def gather (c : Codec (List T)) (p2p : PartyMap) (what : String) (op : UInt8) :
    Except MpcError (List T) :=
  p2p.toList.foldlM (fun out (p, bytes) => do return out ++ (← de c bytes p what op)) []

/-- `route_zero_mul`: zero-shares first, then mul transmits, into one pair per
recipient. -/
def routeZeroMul (c : Codec (List Z × List M)) (zeroParties : Z → Parties)
    (mulParties : M → Parties) (zero : List Z) (mul : List M) : PartyMap :=
  let grouped := groupBy (fun m => sidx (zeroParties m).receiver)
    (fun pair m => (pair.1 ++ [m], pair.2)) ([], []) ∅ zero
  let grouped := groupBy (fun m => sidx (mulParties m).receiver)
    (fun pair m => (pair.1, pair.2 ++ [m])) ([], []) grouped mul
  grouped.map fun _ pair => c.serialize pair

/-- `gather_zero_mul`: the same for the two kinds at once. -/
def gatherZeroMul (c : Codec (List Z × List M)) (p2p : PartyMap) (what : String) (op : UInt8) :
    Except MpcError (List Z × List M) :=
  p2p.toList.foldlM
    (fun out (p, bytes) => do
      let (z, m) ← de c bytes p what op
      return (out.1 ++ z, out.2 ++ m))
    ([], [])

-- ---------------------------------------------------------------------------
-- What routing emits
-- ---------------------------------------------------------------------------

/-- Grouping changes a slot only by pushing, in order, the items keyed to it. -/
theorem getElem?_groupBy (key : T → UInt8) (push : σ → T → σ) (default : σ)
    (grouped : Std.ExtTreeMap UInt8 σ) (items : List T) (q : UInt8) :
    (groupBy key push default grouped items)[q]? =
      if items.filter (key · = q) = [] then grouped[q]?
      else some ((items.filter (key · = q)).foldl push (grouped[q]?.getD default)) := by
  induction items generalizing grouped with
  | nil => rfl
  | cons item items ih =>
    rw [groupBy, List.foldl_cons, ← groupBy, ih, Std.ExtTreeMap.getElem?_alter]
    -- the first item is pushed to this slot or to another
    by_cases hKey : key item = q
    · have hCmp : compare (key item) q = .eq := Std.compare_eq_eq_iff_eq.mpr hKey
      rw [if_pos hCmp, hKey, List.filter_cons_of_pos (by simpa using hKey)]
      simp only [Option.getD_some, List.foldl_cons, reduceCtorEq, if_false]
      split
      · rename_i hNil
        rw [hNil]
        rfl
      · rfl
    · have hCmp : ¬ compare (key item) q = .eq := fun h => hKey (Std.compare_eq_eq_iff_eq.mp h)
      rw [if_neg hCmp, List.filter_cons_of_neg (by simpa using hKey)]

/-- Pushing one item after the other appends them. -/
theorem foldl_snoc (init items : List T) :
    items.foldl (fun v item => v ++ [item]) init = init ++ items := by
  induction items generalizing init with
  | nil => exact (List.append_nil init).symm
  | cons x xs ih => rw [List.foldl_cons, ih, List.append_assoc, List.singleton_append]

/-- The payload `route` addresses to `q` decodes to the transmits declared for
`q`, in emission order. -/
theorem route_payload {c : Codec (List T)} (hCodec : c.RoundTrips) {receiver : T → UInt8}
    {items : List T} {q : UInt8} {bytes : Bytes}
    (h : (route c receiver items)[q]? = some bytes) :
    c.deserialize bytes = some (items.filter (receiver · = q)) := by
  rw [route, Std.ExtTreeMap.getElem?_map, getElem?_groupBy] at h
  split at h
  · simp at h
  · rw [foldl_snoc] at h
    obtain rfl := Option.some.inj h
    exact hCodec _

/-- A fold that appends to the left of a pair. -/
theorem foldl_snoc_fst (init : List Z × List M) (items : List Z) :
    items.foldl (fun pair m => (pair.1 ++ [m], pair.2)) init = (init.1 ++ items, init.2) := by
  induction items generalizing init with
  | nil => rw [List.append_nil]; rfl
  | cons x xs ih => rw [List.foldl_cons, ih, List.append_assoc, List.singleton_append]

theorem foldl_snoc_snd (init : List Z × List M) (items : List M) :
    items.foldl (fun pair m => (pair.1, pair.2 ++ [m])) init = (init.1, init.2 ++ items) := by
  induction items generalizing init with
  | nil => rw [List.append_nil]; rfl
  | cons x xs ih => rw [List.foldl_cons, ih, List.append_assoc, List.singleton_append]

/-- Likewise for the pair `route_zero_mul` addresses to `q`. -/
theorem routeZeroMul_payload {c : Codec (List Z × List M)} (hCodec : c.RoundTrips)
    {zeroParties : Z → Parties} {mulParties : M → Parties} {zero : List Z} {mul : List M}
    {q : UInt8} {bytes : Bytes}
    (h : (routeZeroMul c zeroParties mulParties zero mul)[q]? = some bytes) :
    c.deserialize bytes = some
      (zero.filter (fun m => sidx (zeroParties m).receiver = q),
        mul.filter (fun m => sidx (mulParties m).receiver = q)) := by
  rw [routeZeroMul, Std.ExtTreeMap.getElem?_map, getElem?_groupBy, getElem?_groupBy,
    foldl_snoc_fst, foldl_snoc_snd] at h
  obtain ⟨pair, hPair, rfl⟩ := Option.map_eq_some_iff.mp h
  rw [hCodec]
  -- the slot exists because one of the two phases addressed `q`
  split at hPair
  · rename_i hMul
    split at hPair
    · simp at hPair
    · rw [← Option.some.inj hPair, hMul]
      rfl
  · split at hPair
    · rename_i hZero
      rw [← Option.some.inj hPair, hZero]
      rfl
    · rw [← Option.some.inj hPair]
      rfl

-- ---------------------------------------------------------------------------
-- What gathering returns
-- ---------------------------------------------------------------------------

variable {α : Type} {c : Codec α} {what : String} {op : UInt8}

/-- The decoded payloads of a map, one per sender, in ascending sender order. -/
def Decoded (c : Codec α) (p2p : PartyMap) (parts : List (UInt8 × α)) : Prop :=
  parts.map Prod.fst = p2p.keys ∧
    ∀ part ∈ parts, ∃ bytes, p2p[part.1]? = some bytes ∧ c.deserialize bytes = some part.2

/-- `err` names the lowest sender whose payload does not decode. -/
def NamesUndecodable (c : Codec α) (p2p : PartyMap) (what : String) (op : UInt8)
    (err : MpcError) : Prop :=
  ∃ p bytes, p2p[p]? = some bytes ∧ c.deserialize bytes = none ∧
    (∀ p' < p, ∀ bytes', p2p[p']? = some bytes' → (c.deserialize bytes').isSome = true) ∧
    err = undecodable p what op

/-- One round of the decode loop. -/
theorem foldlM_de_cons (f : σ → α → σ) (p : UInt8) (bytes : Bytes)
    (entries : List (UInt8 × Bytes)) (s : σ) :
    ((p, bytes) :: entries).foldlM
        (fun out e => do return f out (← de c e.2 e.1 what op)) s =
      match c.deserialize bytes with
      | none => .error (undecodable p what op)
      | some a => entries.foldlM (fun out e => do return f out (← de c e.2 e.1 what op)) (f s a) := by
  rw [List.foldlM_cons, de]
  cases c.deserialize bytes <;> rfl

/-- A decode loop that gets through has decoded every entry, in order. -/
theorem foldlM_de_ok (f : σ → α → σ) {entries : List (UInt8 × Bytes)} {s out : σ}
    (h : entries.foldlM (fun out e => do return f out (← de c e.2 e.1 what op)) s = .ok out) :
    ∃ parts : List (UInt8 × α), parts.map Prod.fst = entries.map Prod.fst ∧
      (∀ part ∈ parts, ∃ bytes, (part.1, bytes) ∈ entries ∧
        c.deserialize bytes = some part.2) ∧
      out = parts.foldl (fun out part => f out part.2) s := by
  induction entries generalizing s with
  | nil => exact ⟨[], rfl, by simp, (Except.ok.inj h).symm⟩
  | cons e entries ih =>
    obtain ⟨p, bytes⟩ := e
    rw [foldlM_de_cons] at h
    split at h
    · cases h
    rename_i a hDec
    obtain ⟨parts, hKeys, hParts, rfl⟩ := ih h
    refine ⟨(p, a) :: parts, by rw [List.map_cons, List.map_cons, hKeys], ?_, rfl⟩
    intro part hPart
    rcases List.mem_cons.mp hPart with rfl | hPart
    · exact ⟨bytes, List.mem_cons_self, hDec⟩
    · obtain ⟨bytes', hMem, hDec'⟩ := hParts part hPart
      exact ⟨bytes', List.mem_cons_of_mem _ hMem, hDec'⟩

/-- One that fails names the first entry that does not decode. -/
theorem foldlM_de_error (f : σ → α → σ) {entries : List (UInt8 × Bytes)} {s : σ} {err : MpcError}
    (h : entries.foldlM (fun out e => do return f out (← de c e.2 e.1 what op)) s = .error err) :
    ∃ before p bytes after, entries = before ++ (p, bytes) :: after ∧
      (∀ e ∈ before, (c.deserialize e.2).isSome = true) ∧ c.deserialize bytes = none ∧
      err = undecodable p what op := by
  induction entries generalizing s with
  | nil => cases h
  | cons e entries ih =>
    obtain ⟨p, bytes⟩ := e
    rw [foldlM_de_cons] at h
    split at h
    · rename_i hDec
      exact ⟨[], p, bytes, entries, rfl, by simp, hDec, (Except.error.inj h).symm⟩
    rename_i a hDec
    obtain ⟨before, p', bytes', after, rfl, hBefore, hNone, hErr⟩ := ih h
    refine ⟨(p, bytes) :: before, p', bytes', after, rfl, ?_, hNone, hErr⟩
    intro e he
    rcases List.mem_cons.mp he with rfl | he
    · rw [hDec]
      rfl
    · exact hBefore e he

/-- The decode loop over a map's entries, in the two ways it can end. -/
theorem foldlM_de_toList (c : Codec α) (what : String) (op : UInt8) (f : σ → α → σ)
    (p2p : PartyMap) (s : σ) :
    (∀ out, p2p.toList.foldlM (fun out e => do return f out (← de c e.2 e.1 what op)) s = .ok out →
      ∃ parts, Decoded c p2p parts ∧ out = parts.foldl (fun out part => f out part.2) s) ∧
    (∀ err, p2p.toList.foldlM (fun out e => do return f out (← de c e.2 e.1 what op)) s =
      .error err → NamesUndecodable c p2p what op err) := by
  constructor
  · intro out h
    obtain ⟨parts, hKeys, hParts, hOut⟩ := foldlM_de_ok f h
    refine ⟨parts, ⟨hKeys.trans Std.ExtTreeMap.map_fst_toList_eq_keys, ?_⟩, hOut⟩
    intro part hPart
    obtain ⟨bytes, hMem, hDec⟩ := hParts part hPart
    exact ⟨bytes, Std.ExtTreeMap.mem_toList_iff_getElem?_eq_some.mp hMem, hDec⟩
  · intro err h
    obtain ⟨before, p, bytes, after, hEntries, hBefore, hNone, rfl⟩ := foldlM_de_error f h
    have hSorted := Std.ExtTreeMap.ordered_keys_toList (t := p2p)
    have hGet : ∀ p bytes, (p, bytes) ∈ p2p.toList ↔ p2p[p]? = some bytes :=
      fun _ _ => Std.ExtTreeMap.mem_toList_iff_getElem?_eq_some
    refine ⟨p, bytes, (hGet p bytes).mp (by rw [hEntries]; simp), hNone, ?_, rfl⟩
    intro p' hLt bytes' hGet'
    have hMem := (hGet p' bytes').mpr hGet'
    rw [hEntries] at hMem hSorted
    rcases List.mem_append.mp hMem with hMem | hMem
    · exact hBefore _ hMem
    -- the entries from `p` on have no smaller key
    rcases List.mem_cons.mp hMem with hEq | hMem
    · rw [(Prod.mk.inj hEq).1] at hLt
      exact absurd hLt (UInt8.lt_irrefl p)
    · have hAfter := (List.pairwise_append.mp hSorted).2.1
      have hPp' := Std.compare_eq_lt.mp ((List.pairwise_cons.mp hAfter).1 _ hMem)
      exact absurd (UInt8.lt_trans hLt hPp') (UInt8.lt_irrefl p')

/-- Appending part by part. -/
theorem foldl_append_flatMap (parts : List (UInt8 × List T)) (init : List T) :
    parts.foldl (fun out part => out ++ part.2) init = init ++ parts.flatMap Prod.snd := by
  induction parts generalizing init with
  | nil => exact (List.append_nil init).symm
  | cons part parts ih => rw [List.foldl_cons, ih, List.flatMap_cons, List.append_assoc]

/-- The same for two lists at once. -/
theorem foldl_append_flatMap₂ (parts : List (UInt8 × (List Z × List M)))
    (init : List Z × List M) :
    parts.foldl (fun out part => (out.1 ++ part.2.1, out.2 ++ part.2.2)) init =
      (init.1 ++ parts.flatMap fun part => part.2.1,
        init.2 ++ parts.flatMap fun part => part.2.2) := by
  induction parts generalizing init with
  | nil => rw [List.foldl_nil, List.flatMap_nil, List.flatMap_nil, List.append_nil, List.append_nil]
  | cons part parts ih =>
    rw [List.foldl_cons, ih, List.flatMap_cons, List.flatMap_cons, List.append_assoc,
      List.append_assoc]

/-- **Attribution of gathered items.** Both gathers return, peer by peer in
ascending id, what each peer's payload decodes to, or fail naming the lowest
peer whose payload does not decode. What the items declare is passed through:
an item from `p` declares sender `p` and receiver `q` where `p`'s payload is
one that routing transmits declared by `p` addresses to `q`. -/
theorem gather_by_slot (tc : Codec (List T)) (zc : Codec (List Z × List M))
    (parties : T → Parties) (zeroParties : Z → Parties) (mulParties : M → Parties)
    (hTc : tc.RoundTrips) (hZc : zc.RoundTrips) (p2p : PartyMap) (what : String) (op : UInt8) :
    (∀ items, gather tc p2p what op = .ok items →
      ∃ parts, Decoded tc p2p parts ∧ items = parts.flatMap Prod.snd) ∧
    (∀ err, gather tc p2p what op = .error err → NamesUndecodable tc p2p what op err) ∧
    (∀ zeros muls, gatherZeroMul zc p2p what op = .ok (zeros, muls) →
      ∃ parts, Decoded zc p2p parts ∧ zeros = (parts.flatMap fun part => part.2.1) ∧
        muls = parts.flatMap fun part => part.2.2) ∧
    (∀ err, gatherZeroMul zc p2p what op = .error err →
      NamesUndecodable zc p2p what op err) ∧
    (∀ p q emitted parts xs, (∀ x ∈ emitted, sidx (parties x).sender = p) →
      p2p[p]? = (route tc (fun x => sidx (parties x).receiver) emitted)[q]? →
      Decoded tc p2p parts → (p, xs) ∈ parts →
      ∀ x ∈ xs, x ∈ emitted ∧ sidx (parties x).sender = p ∧ sidx (parties x).receiver = q) ∧
    (∀ p q zero mul parts zs ms, (∀ x ∈ zero, sidx (zeroParties x).sender = p) →
      (∀ x ∈ mul, sidx (mulParties x).sender = p) →
      p2p[p]? = (routeZeroMul zc zeroParties mulParties zero mul)[q]? →
      Decoded zc p2p parts → (p, (zs, ms)) ∈ parts →
      (∀ x ∈ zs, x ∈ zero ∧ sidx (zeroParties x).sender = p ∧
        sidx (zeroParties x).receiver = q) ∧
      ∀ x ∈ ms, x ∈ mul ∧ sidx (mulParties x).sender = p ∧ sidx (mulParties x).receiver = q) := by
  -- both loops decode entry by entry, each with its own way to collect
  obtain ⟨hGatherOk, hGatherErr⟩ :=
    foldlM_de_toList tc what op (fun out xs => out ++ xs) p2p []
  obtain ⟨hZeroOk, hZeroErr⟩ := foldlM_de_toList zc what op
    (fun out part => (out.1 ++ part.1, out.2 ++ part.2)) p2p ([], [])
  refine ⟨?_, hGatherErr, ?_, hZeroErr, ?_, ?_⟩
  · intro items h
    obtain ⟨parts, hParts, hItems⟩ := hGatherOk items h
    rw [foldl_append_flatMap, List.nil_append] at hItems
    exact ⟨parts, hParts, hItems⟩
  · intro zeros muls h
    obtain ⟨parts, hParts, hOut⟩ := hZeroOk (zeros, muls) h
    rw [foldl_append_flatMap₂, List.nil_append, List.nil_append] at hOut
    obtain ⟨hZeros, hMuls⟩ := Prod.mk.inj hOut
    exact ⟨parts, hParts, hZeros, hMuls⟩
  · -- the slot's bytes are what the router put there, and they decode to what was sent
    intro p q emitted parts xs hSender hSlot hParts hMem x hx
    obtain ⟨bytes, hGet, hDec⟩ := hParts.2 _ hMem
    have hRoute := route_payload hTc (hSlot.symm.trans hGet)
    rw [hDec] at hRoute
    obtain rfl := Option.some.inj hRoute
    obtain ⟨hEmitted, hReceiver⟩ := List.mem_filter.mp hx
    exact ⟨hEmitted, hSender x hEmitted, of_decide_eq_true hReceiver⟩
  · intro p q zero mul parts zs ms hZeroSender hMulSender hSlot hParts hMem
    obtain ⟨bytes, hGet, hDec⟩ := hParts.2 _ hMem
    have hRoute := routeZeroMul_payload hZc (hSlot.symm.trans hGet)
    rw [hDec] at hRoute
    obtain ⟨rfl, rfl⟩ := Prod.mk.inj (Option.some.inj hRoute)
    constructor
    · intro x hx
      obtain ⟨hEmitted, hReceiver⟩ := List.mem_filter.mp hx
      exact ⟨hEmitted, hZeroSender x hEmitted, of_decide_eq_true hReceiver⟩
    · intro x hx
      obtain ⟨hEmitted, hReceiver⟩ := List.mem_filter.mp hx
      exact ⟨hEmitted, hMulSender x hEmitted, of_decide_eq_true hReceiver⟩

end

-- ---------------------------------------------------------------------------
-- bincode, for transmits that are their declared parties
-- ---------------------------------------------------------------------------

open Lib

/-- A sequence length: eight bytes, little-endian. -/
def seqLen : Wire UInt8 Unit Nat :=
  .escaped (show Wire UInt8 Unit (Fin (2 ^ 64 - 1 + 1)) from .fixedLE () 8) (.unary 1 0 ())

/-- A `NonZeroU8` pair. -/
def partiesWire : Wire UInt8 Unit Parties :=
  (((Wire.symbol ()).guarded (fun b => b ≠ 0) ()).seq
    ((Wire.symbol ()).guarded (fun b => b ≠ 0) ())).iso
    (fun p => ⟨⟨p.1.1, p.1.2⟩, ⟨p.2.1, p.2.2⟩⟩)
    (fun p => (⟨p.sender.val, p.sender.ne_zero⟩, ⟨p.receiver.val, p.receiver.ne_zero⟩))

/-- A list of transmits, with its length before it. -/
def vecParties : Wire UInt8 Unit (List Parties) := .counted seqLen partiesWire

/-- It is read back, and nothing else is read as it. -/
theorem lawful_vecParties : vecParties.Lawful := by
  have hByte := Wire.lawful_guarded (Wire.lawful_symbol (β := UInt8) ()) (fun b => b ≠ 0) ()
  exact Wire.lawful_counted
    (Wire.lawful_escaped (Wire.lawful_fixedLE () 8) (Wire.lawful_unary (by decide) ()))
    (Wire.lawful_iso (Wire.lawful_seq hByte hByte) (fun _ => rfl) (fun _ => rfl))

/-- bincode's top level: one value off the front of the input. -/
def bincode {α : Type} (w : Wire UInt8 Unit α) : Codec α where
  serialize := w.write
  deserialize bytes := (w.read bytes).toOption.map Prod.fst

/-- A delimited wire makes a codec that round trips. -/
theorem bincode_roundTrips {α : Type} {w : Wire UInt8 Unit α} (hw : w.Delimited) :
    (bincode w).RoundTrips := by
  intro a
  have hRead := hw.read_write a []
  rw [List.append_nil] at hRead
  simp only [bincode, hRead]
  rfl

/-- A transmit declared by party 2 for party 0. -/
def declaredByTwo : Parties := ⟨⟨3, by decide⟩, ⟨1, PartyIndex.one_ne_zero⟩⟩

/-- Party 1's payload carries a transmit that declares party 2: the gather
hands it on. -/
theorem gather_declared_elsewhere :
    gather (bincode vecParties)
        ((∅ : PartyMap).insert 1 ((bincode vecParties).serialize [declaredByTwo]))
        "sign round-1 transmit" Op.sign = .ok [declaredByTwo] ∧
      sidx declaredByTwo.sender = 2 := by
  exact ⟨rfl, rfl⟩

/-- A transmit declared by party 1 for party 0. -/
def declaredByOne : Parties := ⟨⟨2, by decide⟩, ⟨1, PartyIndex.one_ne_zero⟩⟩

/-- Party 0 gathers party 1's honest routing: of its transmits for parties 0
and 2, the one for party 0. -/
theorem gather_by_slot_routed :
    let emitted := [declaredByOne, ⟨⟨2, by decide⟩, ⟨3, by decide⟩⟩]
    let p2p := (∅ : PartyMap).insert 1 ((bincode vecParties).serialize [declaredByOne])
    p2p[(1 : UInt8)]? =
        (route (bincode vecParties) (fun x => sidx x.receiver) emitted)[(0 : UInt8)]? ∧
      ∀ x ∈ [declaredByOne], x ∈ emitted ∧ sidx x.sender = 1 ∧ sidx x.receiver = 0 := by
  intro emitted p2p
  have hSlot := gather_by_slot (bincode vecParties) (bincode (vecParties.seq vecParties)) id id id
    (bincode_roundTrips lawful_vecParties.delimited)
    (bincode_roundTrips (Wire.lawful_seq lawful_vecParties lawful_vecParties).delimited) p2p
    "sign round-1 transmit" Op.sign
  refine ⟨rfl, hSlot.2.2.2.2.1 1 0 emitted [(1, [declaredByOne])] [declaredByOne] (by decide) rfl
    ⟨rfl, ?_⟩ List.mem_cons_self⟩
  intro part hPart
  obtain rfl := List.mem_singleton.mp hPart
  exact ⟨_, rfl, rfl⟩

end Sovra.Carbon
