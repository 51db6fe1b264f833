import Sovra.Carbon.Shard
import Sovra.Mpc.Simulation

/-!
# Sovra — the DKLs23 library as the adapters see it

`dkls23-secp256k1` is third-party code: its types, their bincode and its phases
are parameters. Here are the types and what `convert.rs`, `lib.rs` and
`rounds.rs` do around them, and the vocabulary of direct routing: who a list of
transmits is addressed to, and what of it one participant gets.

* `toList_eq` — the iteration order of an inbox that direct routing fills.
* `gather_routes`, `gatherZeroMul_routes` — gathering such an inbox yields the
  peers' transmits for this party, by sender and then in order of emission.
-/

namespace Sovra.Carbon

open Lib Mpc

/-- The types of `dkls23-secp256k1`, who a transmit is declared between, and how
the adapters serialize. -/
structure Dkls where
  Scalar : Type
  ProofCommitment : Type
  BroadcastDerivationPhase2to4 : Type
  BroadcastDerivationPhase3to4 : Type
  TransmitInitZeroSharePhase2to4 : Type
  TransmitInitZeroSharePhase3to4 : Type
  TransmitInitMulPhase3to4 : Type
  TransmitPhase1to2 : Type
  TransmitPhase2to3 : Type
  Broadcast3to4 : Type
  Correction : Type
  ZeroKeep23 : Type
  ZeroKeep34 : Type
  MulKeep : Type
  Party : Type
  zeroParties2 : TransmitInitZeroSharePhase2to4 → Parties
  zeroParties3 : TransmitInitZeroSharePhase3to4 → Parties
  mulParties3 : TransmitInitMulPhase3to4 → Parties
  signParties1 : TransmitPhase1to2 → Parties
  signParties2 : TransmitPhase2to3 → Parties
  scalar : Codec Scalar
  proofBip2 : Codec (ProofCommitment × BroadcastDerivationPhase2to4)
  proof : Codec ProofCommitment
  bip3 : Codec BroadcastDerivationPhase3to4
  zero2 : Codec (List TransmitInitZeroSharePhase2to4)
  zeroMul : Codec (List TransmitInitZeroSharePhase3to4 × List TransmitInitMulPhase3to4)
  sign1 : Codec (List TransmitPhase1to2)
  sign2 : Codec (List TransmitPhase2to3)
  sign3 : Codec Broadcast3to4
  party : Codec Party
  view : PartyView Party

/-- bincode reads back what it wrote. -/
structure Dkls.RoundTrips (D : Dkls) : Prop where
  scalar : D.scalar.RoundTrips
  proofBip2 : D.proofBip2.RoundTrips
  proof : D.proof.RoundTrips
  bip3 : D.bip3.RoundTrips
  zero2 : D.zero2.RoundTrips
  zeroMul : D.zeroMul.RoundTrips
  sign1 : D.sign1.RoundTrips
  sign2 : D.sign2.RoundTrips
  sign3 : D.sign3.RoundTrips
  party : D.party.RoundTrips

-- ---------------------------------------------------------------------------
-- Aborts, indices, the scheme
-- ---------------------------------------------------------------------------

/-- `Abort`; `banned` is the party of `AbortKind::BanCounterparty`. -/
structure Abort where
  banned : Option PartyIndex
  description : String

/-- `map_abort`. -/
def mapAbort (op : UInt8) (abort : Abort) : MpcError :=
  match abort.banned with
  | some p => fail op ("aborted; party " ++ toString (sidx p).toNat ++
      " must be permanently banned before any retry: " ++ abort.description)
  | none => fail op abort.description

/-- A phase that may abort the ceremony. -/
def abortable {κ α : Type} (op : UInt8) (e : Except Abort α) : Script κ α :=
  Script.attempt (e.mapError (mapAbort op))

/-- A phase that succeeds goes on. -/
theorem Follows.abortable {κ α β : Type} {ps : List UInt8} {p : UInt8} {stages : List Stage}
    {calls : List κ} {result : Except Halt β} {op : UInt8} {e : Except Abort α} {a : α}
    {f : α → Script κ β} (hOk : e = .ok a) (h : Follows ps p stages (f a) calls result) :
    Follows ps p stages (Carbon.abortable op e >>= f) calls result := by
  rw [hOk]
  exact h

/-- `BTreeMap<PartyIndex, _>` is ordered by the index. -/
instance : Ord PartyIndex := ⟨compareOn PartyIndex.val⟩

instance : Std.TransOrd PartyIndex :=
  inferInstanceAs (Std.TransCmp (compareOn PartyIndex.val))

instance : Std.LawfulEqOrd PartyIndex where
  eq_of_compare {a b} h := by
    have hCompare : compare a.val b.val = .eq := h
    have hVal : a.val = b.val := Std.LawfulEqCmp.eq_of_compare hCompare
    cases a
    cases b
    simpa using hVal

/-- `BTreeMap<PartyIndex, _>`. -/
abbrev IndexMap (α : Type) := Std.ExtTreeMap PartyIndex α

/-- `map[&p]`. -/
def at_ {α : Type} (slot : Option α) : Except Halt α :=
  match slot with
  | some a => .ok a
  | none => .error .panic

/-- `Parameters`: threshold and share count. -/
structure Parameters where
  threshold : UInt8
  shareCount : UInt8

/-- `Parameters::new`; `text` is how the library words its refusal. -/
def Parameters.new (text : UInt8 → UInt8 → String) (threshold shareCount : UInt8) :
    Except String Parameters :=
  if 2 ≤ threshold ∧ threshold ≤ shareCount then .ok ⟨threshold, shareCount⟩
  else .error (text threshold shareCount)

/-- `scheme`: the roster's size and the own index, checked. -/
def scheme {C : Crypto} (text : UInt8 → UInt8 → String) (ctx : PartyContext C) :
    Except Halt (Parameters × PartyIndex) := do
  let n := ctx.partyVks.length
  ensure (2 ≤ n ∧ n ≤ 255)
    (.error (.dkg ("roster must have 2..=255 parties, has " ++ toString n)))
  ensure (ctx.partyId.toNat < n) (.error (.dkg ("party id " ++ toString ctx.partyId.toNat ++
    " out of range for " ++ toString n ++ " parties")))
  let parameters ← (Parameters.new text ctx.threshold (UInt8.ofNat n)).mapError fun e =>
    Halt.error (.dkg ("invalid scheme " ++ toString ctx.threshold.toNat ++ "-of-" ++ toString n ++
      ": " ++ e))
  let index ← cidxOrPanic ctx.partyId
  return (parameters, index)

/-- A peer's payload in an inbox slot, decoded. -/
def readFrom {α : Type} (c : Codec α) (slot : PartyMap) (what : String) (op p : UInt8) :
    Except Halt α := do
  let bytes ← at_ slot[p]?
  (de c bytes p what op).mapError .error

/-- A peer's entry that is there and decodes is read. -/
theorem readFrom_ok {α : Type} {c : Codec α} {slot : PartyMap} {what : String} {op p : UInt8}
    {bytes : Bytes} {a : α} (hGet : slot[p]? = some bytes) (hDecode : c.deserialize bytes = some a) :
    readFrom c slot what op p = .ok a := by
  have hDe : de c bytes p what op = .ok a := by
    unfold de
    rw [hDecode]
  unfold readFrom
  rw [hGet]
  show (de c bytes p what op).mapError Halt.error = .ok a
  rw [hDe]
  rfl

-- ---------------------------------------------------------------------------
-- The honest roster
-- ---------------------------------------------------------------------------

/-- The scheme bounds. -/
structure SchemeOk (threshold : UInt8) (n : Nat) : Prop where
  low : 2 ≤ threshold.toNat
  high : threshold.toNat ≤ n
  bound : n ≤ 255

/-- The ids are the bytes below `n`. -/
theorem mem_ids {n : Nat} (hn : n ≤ 256) {p : UInt8} : p ∈ ids n ↔ p.toNat < n := by
  constructor
  · intro h
    obtain ⟨i, hi, rfl⟩ := List.mem_map.mp h
    rw [UInt8.toNat_ofNat']
    have hRange := List.mem_range.mp hi
    omega
  · intro h
    exact List.mem_map.mpr ⟨p.toNat, List.mem_range.mpr h, UInt8.ofNat_toNat⟩

/-- The ids stand in ascending order. -/
theorem ids_ascending {n : Nat} (hn : n ≤ 256) : (ids n).Pairwise (· < ·) := by
  refine List.pairwise_map.mpr (List.Pairwise.imp_of_mem ?_ List.pairwise_lt_range)
  intro a b ha hb hLt
  have ha := List.mem_range.mp ha
  have hb := List.mem_range.mp hb
  rw [UInt8.lt_iff_toNat_lt, UInt8.toNat_ofNat', UInt8.toNat_ofNat']
  omega

/-- Every id but 255 has an index. -/
theorem cidx_some {p : UInt8} (h : p.toNat < 255) : ∃ i, cidx p = some i := by
  have hNe : p + 1 ≠ 0 := by
    intro hEq
    have hNat := congrArg UInt8.toNat hEq
    rw [UInt8.toNat_add] at hNat
    have hZero : (0 : UInt8).toNat = 0 := rfl
    have hOne : (1 : UInt8).toNat = 1 := rfl
    omega
  exact ⟨⟨p + 1, hNe⟩, dif_pos hNe⟩

/-- No two ids share an index. -/
theorem cidx_injective {p q : UInt8} {i : PartyIndex} (hp : cidx p = some i)
    (hq : cidx q = some i) : p = q :=
  (sidx_cidx hp).symm.trans (sidx_cidx hq)

/-- An honest party's context passes the scheme checks. -/
theorem scheme_ok {C : Crypto} {R : Roster C} (hScheme : SchemeOk R.threshold R.count)
    (text : UInt8 → UInt8 → String) {p : UInt8} (hp : p ∈ ids R.count) {i : PartyIndex}
    (hIndex : cidx p = some i) :
    scheme text (R.ctx p) = .ok (⟨R.threshold, UInt8.ofNat R.count⟩, i) := by
  have hLength : (R.ctx p).partyVks.length = R.count := by
    show ((ids R.count).map _).length = R.count
    rw [List.length_map, ids, List.length_map, List.length_range]
  have hBound := hScheme.bound
  have hLow := hScheme.low
  have hHigh := hScheme.high
  have hp' : p.toNat < R.count := (mem_ids (by omega)).mp hp
  have hCount : (UInt8.ofNat R.count).toNat = R.count := by
    rw [UInt8.toNat_ofNat']
    omega
  -- the bounds that the library checks are those of the scheme
  have hNew : Parameters.new text R.threshold (UInt8.ofNat R.count) =
      .ok ⟨R.threshold, UInt8.ofNat R.count⟩ := by
    refine if_pos ⟨?_, ?_⟩
    · rw [UInt8.le_iff_toNat_le]
      exact hLow
    · rw [UInt8.le_iff_toNat_le, hCount]
      exact hHigh
  have hThreshold : (R.ctx p).threshold = R.threshold := rfl
  have hId : (R.ctx p).partyId = p := rfl
  have hRoster : 2 ≤ R.count ∧ R.count ≤ 255 := by omega
  simp only [scheme, hLength, hThreshold, hId, hNew, cidxOrPanic, hIndex, ensure, if_pos hRoster,
    if_pos hp']
  rfl

-- ---------------------------------------------------------------------------
-- Direct routing
-- ---------------------------------------------------------------------------

/-- A list of receivers holds every other participant, and nobody else. -/
structure Addressed (ps : List UInt8) (p : UInt8) (receivers : List UInt8) : Prop where
  all : ∀ q ∈ ps, q ≠ p → q ∈ receivers
  only : ∀ q ∈ receivers, q ∈ ps ∧ q ≠ p

/-- A stage that addresses all others, and broadcasts if broadcasts are expected,
offers what it has to. -/
theorem offered_addressed {st : Stage} {ps : List UInt8} {receivers : UInt8 → List UInt8}
    (hMem : ∀ q r, r ∈ (st.outbox q).p2p ↔ r ∈ receivers q)
    (hAddressed : ∀ q ∈ ps, Addressed ps q (receivers q))
    (hBroadcast : st.expect.broadcasts = true → ∀ q ∈ ps, (st.outbox q).broadcast.isSome = true) :
    st.Offered ps where
  supply p hp q hq hNe k hWants := by
    rcases k with _ | _
    · exact hBroadcast hWants q hq
    · show ((st.outbox q).p2p[p]?).isSome = true
      rw [← Std.ExtTreeMap.mem_iff_isSome_getElem?, hMem]
      exact (hAddressed q hq).all p hp hNe.symm
  addressed q hq p hp := (hAddressed q hq).only p ((hMem q p).mp hp)

/-- What the other participants emitted for `p`, by sender and then in order of
emission. -/
def transmits {T : Type} (ps : List UInt8) (receiver : T → UInt8) (emitted : UInt8 → List T)
    (p : UInt8) : List T :=
  (ps.filter (· ≠ p)).flatMap fun q => (emitted q).filter (receiver · = p)

/-- `map.insert(cidx(p), a)`, for an id below 255. -/
def insertAt {α : Type} (map : IndexMap α) (p : UInt8) (a : α) : IndexMap α :=
  match cidx p with
  | none => map
  | some i => map.insert i a

/-- Every participant's item under its index. -/
def indexed {α : Type} (ps : List UInt8) (item : UInt8 → α) : IndexMap α :=
  ps.foldl (fun map p => insertAt map p (item p)) ∅

section

variable {T Z M α : Type}

/-- Inserting items under their indices, into a map that may have entries. -/
theorem getElem?_indexed_aux (ps : List UInt8) (item : UInt8 → α) (map : IndexMap α) {p : UInt8}
    {i : PartyIndex} (hIndex : cidx p = some i) :
    (ps.foldl (fun map p => insertAt map p (item p)) map)[i]? =
      if p ∈ ps then some (item p) else map[i]? := by
  induction ps generalizing map with
  | nil => rfl
  | cons q ps ih =>
    rw [List.foldl_cons, ih]
    by_cases hSame : q = p
    · subst hSame
      simp only [insertAt, hIndex, Std.ExtTreeMap.getElem?_insert_self, List.mem_cons, true_or,
        if_true, ite_self]
    · have hOther : (insertAt map q (item q))[i]? = map[i]? := by
        unfold insertAt
        rcases hq : cidx q with _ | j
        · rfl
        · rw [Std.ExtTreeMap.getElem?_insert, if_neg]
          intro hCmp
          have hEq : j = i := Std.LawfulEqCmp.eq_of_compare hCmp
          exact hSame (cidx_injective (hEq ▸ hq) hIndex)
      rw [hOther]
      simp only [List.mem_cons, Ne.symm hSame, false_or]

/-- The map holds each participant's item under its index. -/
theorem getElem?_indexed {ps : List UInt8} {item : UInt8 → α} {p : UInt8} {i : PartyIndex}
    (hIndex : cidx p = some i) :
    (indexed ps item)[i]? = if p ∈ ps then some (item p) else none :=
  getElem?_indexed_aux ps item ∅ hIndex

/-- A list and a map built in one loop. -/
theorem foldl_indexed {β : Type} (ps : List UInt8) (item : UInt8 → α) (val : UInt8 → β)
    (out : List α × IndexMap β) :
    ps.foldl (fun out p => (out.1 ++ [item p], insertAt out.2 p (val p))) out =
      (out.1 ++ ps.map item, ps.foldl (fun map p => insertAt map p (val p)) out.2) := by
  induction ps generalizing out with
  | nil => rw [List.foldl_nil, List.map_nil, List.append_nil, List.foldl_nil]
  | cons p ps ih =>
    rw [List.foldl_cons, ih, List.map_cons, List.foldl_cons, List.append_assoc,
      List.singleton_append]

/-- Own item first or in its place, the map is the same. -/
theorem indexed_own_first {ps : List UInt8} {item : UInt8 → α} {p : UInt8} {i : PartyIndex}
    (hp : p ∈ ps) (hIndex : cidx p = some i) :
    (ps.filter (· ≠ p)).foldl (fun map q => insertAt map q (item q))
      ((∅ : IndexMap α).insert i (item p)) = indexed ps item := by
  -- entry by entry: whatever is inserted first, each id has its own index
  apply Std.ExtTreeMap.ext_getElem?
  intro j
  have hj : cidx (sidx j) = some j := cidx_sidx j
  rw [getElem?_indexed_aux _ _ _ hj, getElem?_indexed hj]
  by_cases hOwn : sidx j = p
  · have hSame : i = j := by
      rw [hOwn, hIndex, Option.some.injEq] at hj
      exact hj
    have hNot : sidx j ∉ ps.filter (· ≠ p) := by
      rw [List.mem_filter, decide_eq_true_eq]
      exact fun h => h.2 hOwn
    rw [if_neg hNot, hSame, Std.ExtTreeMap.getElem?_insert_self, hOwn, if_pos hp]
  · have hMem : sidx j ∈ ps.filter (· ≠ p) ↔ sidx j ∈ ps := by
      rw [List.mem_filter, decide_eq_true_eq]
      exact and_iff_left hOwn
    have hNe : ¬ compare i j = .eq := by
      intro hCompare
      have hEq : i = j := Std.LawfulEqCmp.eq_of_compare hCompare
      exact hOwn (cidx_injective hj (hEq ▸ hIndex))
    rw [Std.ExtTreeMap.getElem?_insert, if_neg hNe]
    simp only [hMem, Std.ExtTreeMap.getElem?_empty]

/-- A map is iterated over its keys in ascending order. -/
theorem toList_eq {map : PartyMap} {ks : List UInt8} {f : UInt8 → Bytes}
    (hAscending : ks.Pairwise (· < ·))
    (hGet : ∀ q : UInt8, map[q]? = if q ∈ ks then some (f q) else none) :
    map.toList = ks.map fun q => (q, f q) := by
  have hSorted : map.toList.Pairwise fun a b => a.1 < b.1 :=
    (Std.ExtTreeMap.ordered_keys_toList (t := map)).imp fun h => Std.compare_eq_lt.mp h
  have hSorted' : (ks.map fun q => (q, f q)).Pairwise fun a b => a.1 < b.1 :=
    List.pairwise_map.mpr hAscending
  have hNodup : ∀ {l : List (UInt8 × Bytes)}, (l.Pairwise fun a b => a.1 < b.1) → l.Nodup :=
    fun h => h.imp fun hLt hEq => UInt8.ne_of_lt hLt (congrArg Prod.fst hEq)
  -- both lists ascend and have the same entries
  have hPerm : map.toList.Perm (ks.map fun q => (q, f q)) := by
    refine (List.perm_ext_iff_of_nodup (hNodup hSorted) (hNodup hSorted')).mpr ?_
    rintro ⟨q, bytes⟩
    rw [Std.ExtTreeMap.mem_toList_iff_getElem?_eq_some, hGet]
    simp only [List.mem_map, Prod.mk.injEq]
    constructor
    · intro h
      split at h
      · rename_i hMem
        exact ⟨q, hMem, rfl, Option.some.inj h⟩
      · simp at h
    · rintro ⟨q', hMem, rfl, rfl⟩
      rw [if_pos hMem]
  refine hPerm.eq_of_pairwise ?_ hSorted hSorted'
  intro a b _ _ hab hba
  exact absurd (UInt8.lt_trans hab hba) (UInt8.lt_irrefl _)

/-- Routing has a payload for exactly the receivers. -/
theorem mem_route {c : Codec (List T)} {receiver : T → UInt8} {items : List T} {q : UInt8} :
    q ∈ route c receiver items ↔ q ∈ items.map receiver := by
  have hFilter : items.filter (receiver · = q) = [] ↔ q ∉ items.map receiver := by
    rw [List.filter_eq_nil_iff, List.mem_map]
    simp
  rw [Std.ExtTreeMap.mem_iff_isSome_getElem?, route, Std.ExtTreeMap.getElem?_map,
    getElem?_groupBy]
  by_cases hMem : q ∈ items.map receiver
  · rw [if_neg fun h => hFilter.mp h hMem]
    simp [hMem]
  · rw [if_pos (hFilter.mpr hMem)]
    simp [hMem]

/-- The pair has a payload for exactly the receivers of either kind. -/
theorem mem_routeZeroMul {c : Codec (List Z × List M)} {zeroParties : Z → Parties}
    {mulParties : M → Parties} {zero : List Z} {mul : List M} {q : UInt8} :
    q ∈ routeZeroMul c zeroParties mulParties zero mul ↔
      q ∈ (zero.map fun m => sidx (zeroParties m).receiver) ++
        mul.map fun m => sidx (mulParties m).receiver := by
  have hZero : zero.filter (fun m => sidx (zeroParties m).receiver = q) = [] ↔
      q ∉ zero.map fun m => sidx (zeroParties m).receiver := by
    rw [List.filter_eq_nil_iff, List.mem_map]
    simp
  have hMul : mul.filter (fun m => sidx (mulParties m).receiver = q) = [] ↔
      q ∉ mul.map fun m => sidx (mulParties m).receiver := by
    rw [List.filter_eq_nil_iff, List.mem_map]
    simp
  rw [Std.ExtTreeMap.mem_iff_isSome_getElem?, routeZeroMul, Std.ExtTreeMap.getElem?_map,
    getElem?_groupBy, getElem?_groupBy, List.mem_append]
  -- the slot was made by the multiplication transmits, by the zero-shares, or not at
  -- all
  by_cases hMemM : q ∈ mul.map fun m => sidx (mulParties m).receiver
  · rw [if_neg fun h => hMul.mp h hMemM]
    simp only [Option.map_some, Option.isSome_some, hMemM, or_true]
  · rw [if_pos (hMul.mpr hMemM)]
    by_cases hMemZ : q ∈ zero.map fun m => sidx (zeroParties m).receiver
    · rw [if_neg fun h => hZero.mp h hMemZ]
      simp only [Option.map_some, Option.isSome_some, hMemZ, true_or]
    · rw [if_pos (hZero.mpr hMemZ)]
      simp only [hMemZ, hMemM, or_self]
      simp

/-- The decode loop where every payload decodes. -/
theorem foldlM_de_all {σ : Type} {c : Codec α} (what : String) (op : UInt8) (g : σ → α → σ)
    {ks : List UInt8} {f : UInt8 → Bytes} {a : UInt8 → α}
    (hDecode : ∀ q ∈ ks, c.deserialize (f q) = some (a q)) (s : σ) :
    (ks.map fun q => (q, f q)).foldlM (fun out e => do return g out (← de c e.2 e.1 what op)) s =
      .ok (ks.foldl (fun out q => g out (a q)) s) := by
  induction ks generalizing s with
  | nil => rfl
  | cons q ks ih =>
    rw [List.map_cons, foldlM_de_cons, hDecode q List.mem_cons_self]
    exact ih (fun q' hq' => hDecode q' (List.mem_cons_of_mem _ hq')) _

variable {ps : List UInt8} {p : UInt8} {map : PartyMap} {what : String} {op : UInt8}

/-- The other participants. -/
theorem mem_others {q : UInt8} : q ∈ ps.filter (· ≠ p) ↔ q ∈ ps ∧ q ≠ p := by
  rw [List.mem_filter, decide_eq_true_eq]

/-- What direct routing fills is iterated over the other participants. -/
theorem toList_others {slot : UInt8 → Option Bytes} (hAscending : ps.Pairwise (· < ·))
    (hSlot : ∀ q ∈ ps, q ≠ p → (slot q).isSome = true)
    (hMap : ∀ q : UInt8, map[q]? = if q ∈ ps ∧ q ≠ p then slot q else none) :
    map.toList = (ps.filter (· ≠ p)).map fun q => (q, (slot q).getD []) := by
  refine toList_eq (hAscending.sublist List.filter_sublist) fun q => ?_
  rw [hMap q]
  by_cases hOther : q ∈ ps ∧ q ≠ p
  · obtain ⟨bytes, hBytes⟩ := Option.isSome_iff_exists.mp (hSlot q hOther.1 hOther.2)
    rw [if_pos hOther, if_pos (mem_others.mpr hOther), hBytes]
    rfl
  · rw [if_neg hOther, if_neg fun h => hOther (mem_others.mp h)]

/-- The decode loop over what the other participants' slots hold: one pass for
each, in ascending order. -/
theorem foldlM_others {σ : Type} {c : Codec α} (what : String) (op : UInt8) (g : σ → α → σ)
    {slot : UInt8 → Option Bytes} {a : UInt8 → α} (hAscending : ps.Pairwise (· < ·))
    (hSlot : ∀ q ∈ ps, q ≠ p → ∃ bytes, slot q = some bytes ∧ c.deserialize bytes = some (a q))
    (hMap : ∀ q : UInt8, map[q]? = if q ∈ ps ∧ q ≠ p then slot q else none) (s : σ) :
    map.toList.foldlM (fun out e => do return g out (← de c e.2 e.1 what op)) s =
      .ok ((ps.filter (· ≠ p)).foldl (fun out q => g out (a q)) s) := by
  have hEntries := toList_others hAscending (fun q hq hNe => by
    obtain ⟨bytes, hBytes, -⟩ := hSlot q hq hNe
    rw [hBytes]
    rfl) hMap
  rw [hEntries]
  refine foldlM_de_all what op g ?_ s
  intro q hq
  obtain ⟨hMem, hNe⟩ := mem_others.mp hq
  obtain ⟨bytes, hBytes, hDecode⟩ := hSlot q hMem hNe
  rw [hBytes]
  exact hDecode

/-- Appending key by key. -/
theorem foldl_append_keys (ks : List UInt8) (items : UInt8 → List T) (init : List T) :
    ks.foldl (fun out q => out ++ items q) init = init ++ ks.flatMap items := by
  induction ks generalizing init with
  | nil => exact (List.append_nil init).symm
  | cons q ks ih => rw [List.foldl_cons, ih, List.flatMap_cons, List.append_assoc]

/-- The same for two lists at once. -/
theorem foldl_append_keys₂ (ks : List UInt8) (zeros : UInt8 → List Z) (muls : UInt8 → List M)
    (init : List Z × List M) :
    ks.foldl (fun out q => (out.1 ++ zeros q, out.2 ++ muls q)) init =
      (init.1 ++ ks.flatMap zeros, init.2 ++ ks.flatMap muls) := by
  induction ks generalizing init with
  | nil => rw [List.foldl_nil, List.flatMap_nil, List.flatMap_nil, List.append_nil, List.append_nil]
  | cons q ks ih =>
    rw [List.foldl_cons, ih, List.flatMap_cons, List.flatMap_cons, List.append_assoc,
      List.append_assoc]

/-- Gathering what direct routing delivers. -/
theorem gather_routes {c : Codec (List T)} (hCodec : c.RoundTrips) {receiver : T → UInt8}
    {emitted : UInt8 → List T} (hAscending : ps.Pairwise (· < ·)) (hp : p ∈ ps)
    (hAddressed : ∀ q ∈ ps, Addressed ps q ((emitted q).map receiver))
    (hMap : ∀ q : UInt8, map[q]? =
      if q ∈ ps ∧ q ≠ p then (route c receiver (emitted q))[p]? else none) :
    gather c map what op = .ok (transmits ps receiver emitted p) := by
  have hSlot : ∀ q ∈ ps, q ≠ p → ∃ bytes, (route c receiver (emitted q))[p]? = some bytes ∧
      c.deserialize bytes = some ((emitted q).filter (receiver · = p)) := by
    intro q hq hNe
    have hMem : p ∈ route c receiver (emitted q) :=
      mem_route.mpr ((hAddressed q hq).all p hp hNe.symm)
    have hGet := Std.ExtTreeMap.getElem?_eq_some_getElem hMem
    exact ⟨_, hGet, route_payload hCodec hGet⟩
  have hLoop := foldlM_others what op (fun (out : List T) xs => out ++ xs) hAscending hSlot hMap []
  rw [foldl_append_keys, List.nil_append] at hLoop
  exact hLoop

/-- Gathering both kinds of what direct routing delivers. -/
theorem gatherZeroMul_routes {c : Codec (List Z × List M)} (hCodec : c.RoundTrips)
    {zeroParties : Z → Parties} {mulParties : M → Parties} {zero : UInt8 → List Z}
    {mul : UInt8 → List M} (hAscending : ps.Pairwise (· < ·)) (hp : p ∈ ps)
    (hAddressed : ∀ q ∈ ps, Addressed ps q (((zero q).map fun m => sidx (zeroParties m).receiver) ++
      (mul q).map fun m => sidx (mulParties m).receiver))
    (hMap : ∀ q : UInt8, map[q]? = if q ∈ ps ∧ q ≠ p then
      (routeZeroMul c zeroParties mulParties (zero q) (mul q))[p]? else none) :
    gatherZeroMul c map what op =
      .ok (transmits ps (fun m => sidx (zeroParties m).receiver) zero p,
        transmits ps (fun m => sidx (mulParties m).receiver) mul p) := by
  -- what each of the others routed here, decoded
  have hSlot : ∀ q ∈ ps, q ≠ p → ∃ bytes,
      (routeZeroMul c zeroParties mulParties (zero q) (mul q))[p]? = some bytes ∧
        c.deserialize bytes = some ((zero q).filter (fun m => sidx (zeroParties m).receiver = p),
          (mul q).filter (fun m => sidx (mulParties m).receiver = p)) := by
    intro q hq hNe
    have hMem : p ∈ routeZeroMul c zeroParties mulParties (zero q) (mul q) :=
      mem_routeZeroMul.mpr ((hAddressed q hq).all p hp hNe.symm)
    have hGet := Std.ExtTreeMap.getElem?_eq_some_getElem hMem
    exact ⟨_, hGet, routeZeroMul_payload hCodec hGet⟩
  -- the loop appends both parts in the order of the ids
  have hLoop := foldlM_others what op
    (fun (out : List Z × List M) part => (out.1 ++ part.1, out.2 ++ part.2)) hAscending hSlot hMap
    ([], [])
  rw [foldl_append_keys₂, List.nil_append, List.nil_append] at hLoop
  exact hLoop

end

end Sovra.Carbon
