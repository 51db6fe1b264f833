import Sovra.Carbon.Library

/-!
# Sovra — round 1 of key generation and refresh

`share_fragments` of `rounds.rs`: one secret fragment for each party, sealed to
it, the own one kept; what comes back is one fragment from each party, in order
of the dealers' ids.

* `follows_shareFragments` — the round's result by direct routing.
-/

namespace Sovra.Carbon

open Lib Mpc

section

variable (D : Dkls)

/-- Everybody else's fragment. -/
def fragmentOutbox (me : UInt8) (fragments : List D.Scalar) : RoundOutbox where
  broadcast := none
  p2p := fragments.zipIdx.foldl
    (fun p2p (fragment, j) =>
      if UInt8.ofNat j ≠ me then p2p.insert (UInt8.ofNat j) (D.scalar.serialize fragment) else p2p)
    ∅

/-- `share_fragments`: deal, then collect one fragment from each party. -/
def shareFragments {κ : Type} (me : UInt8) (fragments : List D.Scalar) (what : String)
    (op : UInt8) : Script κ (List D.Scalar) := do
  let inbox ← Script.exchange 1 (fragmentOutbox D me fragments) .P2p
  Script.ofExcept ((ids (UInt8.ofNat fragments.length).toNat).mapM fun p =>
    if p = me then at_ fragments[p.toNat]? else readFrom D.scalar inbox.p2p what op p)

/-- Round 1, where `p` deals `fragment p q` to `q`. -/
def fragmentStage (n : Nat) (fragment : UInt8 → UInt8 → D.Scalar) : Stage where
  round := 1
  expect := .P2p
  outbox p := fragmentOutbox D p ((ids n).map (fragment p))

end

section

variable {D : Dkls} {n : Nat} {fragment : UInt8 → UInt8 → D.Scalar} {p : UInt8}

/-- Inserting every other party's entry puts it under that party's id. -/
theorem getElem?_foldl_insert (ks : List UInt8) (me : UInt8) (val : UInt8 → Bytes)
    (map : PartyMap) (q : UInt8) :
    (ks.foldl (fun map k => if k ≠ me then map.insert k (val k) else map) map)[q]? =
      if q ∈ ks ∧ q ≠ me then some (val q) else map[q]? := by
  induction ks generalizing map with
  | nil => simp
  | cons k ks ih =>
    rw [List.foldl_cons, ih]
    by_cases hLater : q ∈ ks ∧ q ≠ me
    · rw [if_pos hLater, if_pos ⟨List.mem_cons_of_mem _ hLater.1, hLater.2⟩]
    rw [if_neg hLater]
    -- no later insertion is at `q`; this one may be
    by_cases hHere : k = q ∧ q ≠ me
    · obtain ⟨rfl, hNe⟩ := hHere
      rw [if_pos hNe, if_pos ⟨List.mem_cons_self, hNe⟩, Std.ExtTreeMap.getElem?_insert_self]
    · have hNot : ¬ (q ∈ k :: ks ∧ q ≠ me) := by
        rintro ⟨hMem, hNe⟩
        rcases List.mem_cons.mp hMem with rfl | hMem
        · exact hHere ⟨rfl, hNe⟩
        · exact hLater ⟨hMem, hNe⟩
      rw [if_neg hNot]
      split
      · rename_i hNe
        rw [Std.ExtTreeMap.getElem?_insert, if_neg]
        intro hCompare
        obtain rfl : k = q := Std.LawfulEqCmp.eq_of_compare hCompare
        exact hHere ⟨rfl, hNe⟩
      · rfl

/-- A list indexed by its positions, read as indexed by ids. -/
theorem zipIdx_ids {α : Type} (n : Nat) (f : UInt8 → α) :
    ((ids n).map f).zipIdx = (List.range n).map fun j => (f (UInt8.ofNat j), j) := by
  apply List.ext_getElem?
  intro i
  simp only [ids, List.map_map, List.getElem?_zipIdx, List.getElem?_map, Nat.zero_add]
  by_cases hi : i < n
  · rw [List.getElem?_range hi]
    rfl
  · rw [List.getElem?_eq_none (by rw [List.length_range]; omega)]
    rfl

/-- The fragment for each other party, under its id. -/
theorem getElem?_fragmentOutbox (me q : UInt8) (f : UInt8 → D.Scalar) :
    (fragmentOutbox D me ((ids n).map f)).p2p[q]? =
      if q ∈ ids n ∧ q ≠ me then some (D.scalar.serialize (f q)) else none := by
  have hFold := getElem?_foldl_insert (ids n) me (fun k => D.scalar.serialize (f k)) ∅ q
  rw [ids, List.foldl_map, ← ids] at hFold
  show (((ids n).map f).zipIdx.foldl _ ∅)[q]? = _
  rw [zipIdx_ids, List.foldl_map]
  exact hFold

/-- Round 1 offers every other party its fragment. -/
theorem fragmentStage_offered : (fragmentStage D n fragment).Offered (ids n) where
  supply p hp q hq hNe k hWants := by
    rcases k with _ | _
    · simp [fragmentStage, Expect.wants, Expect.broadcasts] at hWants
    · show ((fragmentOutbox D q ((ids n).map (fragment q))).p2p[p]?).isSome = true
      rw [getElem?_fragmentOutbox, if_pos ⟨hp, hNe.symm⟩]
      rfl
  addressed q hq p hMem := by
    have hMem' : p ∈ (fragmentOutbox D q ((ids n).map (fragment q))).p2p := hMem
    rw [Std.ExtTreeMap.mem_iff_isSome_getElem?, getElem?_fragmentOutbox] at hMem'
    by_contra hNot
    rw [if_neg hNot] at hMem'
    simp at hMem'

variable {κ β : Type} {stages : List Stage} {calls : List κ} {result : Except Halt β}
  {what : String} {op : UInt8} {f : List D.Scalar → Script κ β}

/-- Every party gets the fragments dealt to it, in order of the dealers. -/
theorem follows_shareFragments (hn : n ≤ 255) (hCodec : D.scalar.RoundTrips) (hp : p ∈ ids n)
    (h : Follows (ids n) p stages (f ((ids n).map fun q => fragment q p)) calls result) :
    Follows (ids n) p (fragmentStage D n fragment :: stages)
      (shareFragments D p ((ids n).map (fragment p)) what op >>= f) calls result := by
  have hCount : (UInt8.ofNat ((ids n).map (fragment p)).length).toNat = n := by
    rw [List.length_map, ids, List.length_map, List.length_range, UInt8.toNat_ofNat']
    omega
  unfold shareFragments
  rw [bind_assoc]
  refine Follows.exchange (fragmentStage D n fragment) fun inbox hRoutes => ?_
  rw [hCount]
  refine Follows.ofExcept (mapM_ok fun q hq => ?_) h
  -- the own fragment is kept, the others' are read off the inbox
  by_cases hOwn : q = p
  · subst hOwn
    rw [if_pos rfl, List.getElem?_map, ids_get hq]
    rfl
  · have hSlot := hRoutes true q
    have hGet : inbox.p2p[q]? = some (D.scalar.serialize (fragment q p)) := by
      refine hSlot.trans ?_
      rw [if_pos ⟨rfl, hq, hOwn⟩]
      show (fragmentOutbox D q ((ids n).map (fragment q))).p2p[p]? = _
      rw [getElem?_fragmentOutbox, if_pos ⟨hp, Ne.symm hOwn⟩]
    rw [if_neg hOwn]
    exact readFrom_ok hGet (hCodec _)

end

end Sovra.Carbon
