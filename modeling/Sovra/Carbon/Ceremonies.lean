import Sovra.Carbon.Keygen
import Sovra.Carbon.Refresh
import Sovra.Carbon.Sign

/-!
# Sovra — the three ceremonies compute what direct routing computes

Key generation and refresh of a whole roster, a signature of a subset: on any
schedule of the network, every party gives every library phase the arguments it
would get if all parties were functions called one after the other.

* `ceremonies_direct` — for all three, with progress.
-/

namespace Sovra.Carbon

open Mpc

/-- **Distributed ceremonies compute what direct routing computes.** With honest
parties and a relay that hands over every envelope once, in any order: the calls
a party has made are the first of the direct routing's, with its arguments (item
`i` of a vector is party `i`'s, a map or list of broadcasts has every party's
item once, transmits are the other participants' for this party by sender and
then in order of emission); a finished party has made all of them and ends as
there; and when nothing can move any more, every party has finished. -/
theorem ceremonies_direct {C : Crypto} (hBox : C.SealedBox) (hSigns : C.Signs) {D : Dkls}
    (hCodecs : D.RoundTrips) {R : Roster C} (hScheme : SchemeOk R.threshold R.count)
    (text : UInt8 → UInt8 → String) (rnd : UInt8 → UInt8 → UInt8 → SealRandomness C) :
    (∀ {S : Type} {L : UInt8 → DkgPhases D S} (run : DkgRun D L R),
      (keygen D text L R rnd).Seals run.stages →
      (keygen D text L R rnd).Computes run.calls run.result) ∧
    (∀ {L : UInt8 → RefreshPhases D} {share publicKey} (run : RefreshRun D L R share publicKey),
      (refreshAll D text L R share publicKey rnd).Seals run.stages →
      (refreshAll D text L R share publicKey rnd).Computes run.calls run.result) ∧
    ∀ {S : Type} {E : K256} {L : UInt8 → SignPhases D S} {share digest subset}
      (run : SignRun D L R share digest subset), SubsetOf R subset →
      (signAll D E L R share digest subset rnd).Seals run.stages →
      (signAll D E L R share digest subset rnd).Computes run.calls (run.result E) :=
  ⟨fun run hSeals => keygen_computes hBox hSigns hCodecs hScheme run hSeals,
    fun run hSeals => refresh_computes hBox hSigns hCodecs hScheme run hSeals,
    fun run hSubset hSeals => sign_computes hBox hSigns hCodecs hScheme.bound hSubset run hSeals⟩

-- ---------------------------------------------------------------------------
-- Two of three
-- ---------------------------------------------------------------------------

namespace Sample

/-- Nothing is written, nothing is read. -/
def unit : Codec Unit := ⟨fun _ => [], fun _ => some ()⟩

/-- One byte. -/
def byte : Codec UInt8 := ⟨fun b => [b], fun bytes => bytes.head?⟩

/-- A party is its index. -/
def index : Codec PartyIndex where
  serialize i := [i.val]
  deserialize bytes := bytes.head?.bind fun b => if h : b ≠ 0 then some ⟨b, h⟩ else none

/-- A compressed point. -/
def key : PubkeySec1 := ⟨0x02 :: List.replicate 32 7, rfl, Or.inl rfl⟩

/-- Transmits are their declared parties, everything else is a byte or nothing. -/
def dkls : Dkls where
  Scalar := UInt8
  ProofCommitment := UInt8
  BroadcastDerivationPhase2to4 := Unit
  BroadcastDerivationPhase3to4 := Unit
  TransmitInitZeroSharePhase2to4 := Parties
  TransmitInitZeroSharePhase3to4 := Parties
  TransmitInitMulPhase3to4 := Parties
  TransmitPhase1to2 := Parties
  TransmitPhase2to3 := Parties
  Broadcast3to4 := UInt8
  Correction := Unit
  ZeroKeep23 := Unit
  ZeroKeep34 := Unit
  MulKeep := Unit
  Party := PartyIndex
  zeroParties2 := id
  zeroParties3 := id
  mulParties3 := id
  signParties1 := id
  signParties2 := id
  scalar := byte
  proofBip2 := ⟨fun item => [item.1], fun bytes => bytes.head?.map fun b => (b, ())⟩
  proof := byte
  bip3 := unit
  zero2 := bincode vecParties
  zeroMul := bincode (vecParties.seq vecParties)
  sign1 := bincode vecParties
  sign2 := bincode vecParties
  sign3 := byte
  party := index
  view := ⟨id, fun _ => 2, fun _ => 3, fun _ => key⟩

/-- Everything written here is read back. -/
theorem dkls_roundTrips : dkls.RoundTrips where
  scalar _ := rfl
  proofBip2 _ := rfl
  proof _ := rfl
  bip3 _ := rfl
  zero2 := bincode_roundTrips lawful_vecParties.delimited
  zeroMul := bincode_roundTrips (Lib.Wire.lawful_seq lawful_vecParties lawful_vecParties).delimited
  sign1 := bincode_roundTrips lawful_vecParties.delimited
  sign2 := bincode_roundTrips lawful_vecParties.delimited
  sign3 _ := rfl
  party i := by
    show (if h : i.val ≠ 0 then some (⟨i.val, h⟩ : PartyIndex) else none) = some i
    rw [dif_pos i.ne_zero]
    rfl

/-- A party's index. -/
def indexOf (p : UInt8) : PartyIndex := (cidx p).getD ⟨1, PartyIndex.one_ne_zero⟩

/-- One transmit for each other participant. -/
def announce (ps : List UInt8) (p : UInt8) : List Parties :=
  (ps.filter (· ≠ p)).map fun q => ⟨indexOf p, indexOf q⟩

/-- Three parties, any two of whom sign. -/
def roster : Roster Symbolic.crypto :=
  ⟨.repeatByte 32 0x2a, 3, 2, fun p => show UInt8 from p + 10⟩

/-- What everybody draws for a seal. -/
def rnd : UInt8 → UInt8 → UInt8 → SealRandomness Symbolic.crypto :=
  fun _ _ _ => ⟨(3 : UInt8), .repeatByte 24 9⟩

/-- A statement about three parties is three statements. -/
theorem ids_three {P : UInt8 → Prop} (h0 : P 0) (h1 : P 1) (h2 : P 2) : ∀ p ∈ ids 3, P p := by
  intro p hp
  have hMem : p ∈ [(0 : UInt8), 1, 2] := hp
  simp only [List.mem_cons, List.not_mem_nil, or_false] at hMem
  rcases hMem with rfl | rfl | rfl
  · exact h0
  · exact h1
  · exact h2

/-- The receivers announced are the others. -/
theorem announce_receivers {ps : List UInt8} (hPs : ∀ q ∈ ps, q.toNat < 255) (p : UInt8) :
    ((announce ps p).map fun m => sidx m.receiver) = ps.filter (· ≠ p) := by
  rw [announce, List.map_map]
  refine (List.map_congr_left ?_).trans (List.map_id _)
  intro q hq
  obtain ⟨i, hi⟩ := cidx_some (hPs q (List.mem_filter.mp hq).1)
  show sidx ((cidx q).getD _) = q
  rw [hi]
  exact sidx_cidx hi

/-- An announcement addresses all others and nobody else. -/
theorem announce_addressed {ps : List UInt8} (hPs : ∀ q ∈ ps, q.toNat < 255) (p : UInt8) :
    Addressed ps p ((announce ps p).map fun m => sidx m.receiver) := by
  rw [announce_receivers hPs]
  exact ⟨fun q hq hNe => mem_others.mpr ⟨hq, hNe⟩, fun q hq => mem_others.mp hq⟩

/-- So do two announcements in one round. -/
theorem announce_twice {ps : List UInt8} (hPs : ∀ q ∈ ps, q.toNat < 255) (p : UInt8) :
    Addressed ps p (((announce ps p).map fun m => sidx m.receiver) ++
      (announce ps p).map fun m => sidx m.receiver) := by
  rw [announce_receivers hPs]
  refine ⟨fun q hq hNe => List.mem_append_left _ (mem_others.mpr ⟨hq, hNe⟩), fun q hq => ?_⟩
  rcases List.mem_append.mp hq with h | h
  · exact mem_others.mp h
  · exact mem_others.mp h

theorem three_bound : ∀ q ∈ ids 3, q.toNat < 255 := ids_three (by decide) (by decide) (by decide)

/-- What `p` deals to `q`. -/
def dealt (p q : UInt8) : UInt8 := 16 * p + q

/-- Phases that emit one item for everybody. -/
def dkg (p : UInt8) : DkgPhases dkls Unit where
  new _ _ _ := ()
  phase1 _ := ((), (ids 3).map (dealt p))
  phase2 _ _ := .ok ((), p, announce (ids 3) p, ())
  phase3 _ := .ok ((), announce (ids 3) p, announce (ids 3) p, ())
  phase4 _ _ _ _ _ _ _ := .ok (indexOf p)

/-- They make a run by direct routing. -/
def dkgRun : DkgRun dkls dkg roster where
  session0 _ := ()
  session1 _ := ()
  session2 _ := ()
  session3 _ := ()
  fragment := dealt
  proof p := p
  zero2 := announce (ids 3)
  bip2 _ := ()
  zero3 := announce (ids 3)
  mul3 := announce (ids 3)
  bip3 _ := ()
  new_eq _ _ _ _ := rfl
  phase1_eq _ _ := rfl
  phase2_eq _ _ := rfl
  phase3_eq _ _ := rfl
  addressed2 p _ := announce_addressed three_bound p
  addressed3 p _ := announce_twice three_bound p

/-- A party's shard. -/
def share (p : UInt8) : KeyShare := encode index (indexOf p)

/-- Phases of a refresh that keeps the party. -/
def refreshPhases (p : UInt8) : RefreshPhases dkls where
  phase1 _ := (ids 3).map (dealt p)
  phase2 _ _ _ := ((), p, (), announce (ids 3) p)
  phase3 _ _ _ := ((), announce (ids 3) p, (), announce (ids 3) p)
  phase4 party _ _ _ _ _ _ _ _ := .ok party

/-- They make a run as well. -/
def refreshRun : RefreshRun dkls refreshPhases roster share key where
  party := indexOf
  fragment := dealt
  correction _ := ()
  proof p := p
  zeroKeep23 _ := ()
  zero2 := announce (ids 3)
  zeroKeep34 _ := ()
  zero3 := announce (ids 3)
  mulKeep _ := ()
  mul3 := announce (ids 3)
  decoded := ids_three rfl rfl rfl
  anchored _ _ := rfl
  phase1_eq _ _ := rfl
  phase2_eq _ _ := rfl
  phase3_eq _ _ := rfl
  addressed2 p _ := announce_addressed three_bound p
  addressed3 p _ := announce_twice three_bound p

/-- Parties 0 and 2 sign. -/
def subset : List UInt8 := [0, 2]

/-- What is signed. -/
def digest : B256 := .repeatByte 32 5

/-- Phases that sign with the digest itself. -/
def signPhases (p : UInt8) : SignPhases dkls Unit where
  new _ _ := .ok ((), announce subset p)
  phase2 _ _ := .ok ((), announce subset p)
  phase3 _ _ := .ok ((), p)
  phase4 _ _ := .ok ⟨digest, digest⟩

/-- Odd parity recovers to the key. -/
def k256 : K256 where
  Signature := Unit
  VerifyingKey := PubkeySec1
  fromSlice _ := .ok ()
  fromSec1 := some
  recoverFromPrehash _ _ odd := if odd then some key else none
  decEq := inferInstance

/-- A statement about two signers is two statements. -/
theorem subset_members {P : UInt8 → Prop} (h0 : P 0) (h2 : P 2) : ∀ p ∈ subset, P p := by
  intro p hp
  have hMem : p ∈ [(0 : UInt8), 2] := hp
  simp only [List.mem_cons, List.not_mem_nil, or_false] at hMem
  rcases hMem with rfl | rfl
  · exact h0
  · exact h2

/-- They are in the roster. -/
theorem subset_bound : ∀ q ∈ subset, q.toNat < 3 := subset_members (by decide) (by decide)

/-- Each announces to the other. -/
theorem subset_addressed (p : UInt8) :
    Addressed subset p ((announce subset p).map fun m => sidx m.receiver) :=
  announce_addressed (fun q hq => Nat.lt_trans (subset_bound q hq) (by decide)) p

/-- Their run by direct routing. -/
def signRun : SignRun dkls signPhases roster share digest subset where
  party := indexOf
  session1 _ := ()
  session2 _ := ()
  session3 _ := ()
  sent1 := announce subset
  sent2 := announce subset
  broadcast p := p
  decoded := subset_members rfl rfl
  new_eq _ _ := rfl
  phase2_eq _ _ := rfl
  phase3_eq _ _ := rfl
  addressed1 p _ := subset_addressed p
  addressed2 p _ := subset_addressed p

/-- Ideal signatures verify. -/
theorem symbolic_signs : Symbolic.crypto.Signs := by
  intro sk m
  exact beq_iff_eq.mpr rfl

/-- What an abort by a party says. -/
def text (_ _ : UInt8) : String := "dkls abort"

/-- The symbolic AEAD always seals. -/
theorem symbolic_seals {κ α : Type} (K : Ceremony Symbolic.crypto κ α) (stages : List Stage) :
    K.Seals stages := by
  intro st _ p _ q plaintext _
  exact ⟨_, rfl⟩

end Sample

open Sample in
/-- Each of the three ceremonies of a 2-of-3. -/
theorem ceremonies_direct_three :
    (keygen dkls text dkg roster rnd).Computes dkgRun.calls dkgRun.result ∧
    (refreshAll dkls text refreshPhases roster share key rnd).Computes refreshRun.calls
      refreshRun.result ∧
    (signAll dkls k256 signPhases roster share digest subset rnd).Computes signRun.calls
      (signRun.result k256) := by
  have hScheme : SchemeOk roster.threshold roster.count := ⟨by decide, by decide, by decide⟩
  obtain ⟨hKeygen, hRefresh, hSign⟩ :=
    ceremonies_direct Symbolic.sealedBox symbolic_signs dkls_roundTrips hScheme text rnd
  refine ⟨hKeygen dkgRun (symbolic_seals _ _), hRefresh refreshRun (symbolic_seals _ _),
    hSign signRun ⟨by decide, subset_bound⟩ (symbolic_seals _ _)⟩

end Sovra.Carbon
