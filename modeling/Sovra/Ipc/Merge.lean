import Sovra.Ipc.Veto

/-!
# Sovra — the precedence of a merge

What `combine` makes of the answers to one broadcast, for any `PartialEq` that is
an equivalence: vetoes before errors, errors before values, and values only if
all are equal. Which of the three it is does not depend on the order in which the
answers are listed.

* `combineBy_outcome`  — the four ways a merge ends.
* `combine_precedence` — when each of them is taken, and what permuting keeps.
-/

namespace Sovra.Ipc

open Lib Mpc

section

variable {Resp : Type} [BEq Resp]

/-- `combine`, with the values compared by their `PartialEq`. -/
def combineBy (debug : Resp → String) (results : List (UInt8 × Except MpcError Resp)) :
    Option (Except MpcError Resp) :=
  let m := merge results
  if m.vetoes ≠ [] then some (.error (.rejected (sortByParty m.vetoes)))
  else
    match m.firstError with
    | some e => some (.error e)
    | none =>
      match m.oks with
      | [] => none
      | (firstParty, firstValue) :: oks =>
        match oks.find? fun ok => ok.2 != firstValue with
        | some (party, value) => some (.error (.partyMismatch ("cosigner" ++
            displayParty firstParty ++ " returned " ++ debug firstValue ++ ", cosigner" ++
            displayParty party ++ " returned " ++ debug value)))
        | none => some (.ok firstValue)

/-- The types the control plane broadcasts for compare by structure. -/
theorem combine_eq_combineBy {Resp : Type} [DecidableEq Resp] (debug : Resp → String)
    (results : List (UInt8 × Except MpcError Resp)) :
    combine debug results = combineBy debug results := by
  have hFind : ∀ (oks : List (UInt8 × Resp)) (v : Resp),
      (oks.find? fun ok => ok.2 ≠ v) = oks.find? fun ok => ok.2 != v := by
    intro oks v
    congr 1
    funext ok
    simp [bne, beq_eq_decide]
  unfold combine combineBy
  rcases merge results with ⟨vetoes, _ | e, _ | ⟨⟨firstParty, firstValue⟩, oks⟩⟩
  · rfl
  · -- both search the values for one that is not the first
    have hSame := hFind oks firstValue
    rcases hFound : oks.find? fun ok => ok.2 != firstValue with _ | ⟨party, value⟩
    · rw [hFound] at hSame
      simp only [hSame, hFound]
    · rw [hFound] at hSame
      simp only [hSame, hFound]
  · rfl
  · rfl

/-- Somebody vetoed. -/
def Vetoed (results : List (UInt8 × Except MpcError Resp)) : Prop :=
  ∃ r ∈ results, ∃ vetoes, r.2 = .error (.rejected vetoes)

/-- Every rejection is its party's own one veto: what `post` returns. -/
def OwnVetoes (results : List (UInt8 × Except MpcError Resp)) : Prop :=
  ∀ r ∈ results, ∀ vetoes, r.2 = .error (.rejected vetoes) → ∃ reason, vetoes = [⟨r.1, reason⟩]

/-- Some answer is this value. -/
def Answered (results : List (UInt8 × Except MpcError Resp)) (v : Resp) : Prop :=
  ∃ r ∈ results, r.2 = .ok v

/-- The ways a merge ends. -/
inductive MergeOutcome (results : List (UInt8 × Except MpcError Resp)) :
    Option (Except MpcError Resp) → Prop
  | rejected (vetoed : Vetoed results) :
      MergeOutcome results (some (.error (.rejected (sortByParty (results.flatMap vetoesOf)))))
  | failed (e : MpcError) (unvetoed : ¬ Vetoed results)
      (first : results.findSome? errorOf = some e) : MergeOutcome results (some (.error e))
  | agreed (v : Resp) (answered : Answered results v)
      (all : ∀ r ∈ results, ∃ u, r.2 = .ok u ∧ (u == v) = true) : MergeOutcome results (some (.ok v))
  | differed (msg : String) (v u : Resp) (first : Answered results v) (other : Answered results u)
      (all : ∀ r ∈ results, ∃ u, r.2 = .ok u) (differ : (u == v) = false) :
      MergeOutcome results (some (.error (.partyMismatch msg)))

-- ---------------------------------------------------------------------------
-- The three accumulators
-- ---------------------------------------------------------------------------

omit [BEq Resp] in
/-- Vetoes are collected exactly where somebody vetoed. -/
theorem flatMap_vetoesOf_ne_nil {results : List (UInt8 × Except MpcError Resp)}
    (hNamed : VetoesNamed results) : results.flatMap vetoesOf ≠ [] ↔ Vetoed results := by
  constructor
  · intro hSome
    rw [ne_eq, List.flatMap_eq_nil_iff, not_forall] at hSome
    obtain ⟨⟨party, result⟩, hSome⟩ := hSome
    rw [Classical.not_imp] at hSome
    obtain ⟨hr, hVeto⟩ := hSome
    unfold vetoesOf at hVeto
    split at hVeto
    · rename_i vetoes hEq
      exact ⟨_, hr, vetoes, congrArg Prod.snd hEq⟩
    · exact absurd rfl hVeto
  · rintro ⟨⟨party, result⟩, hr, vetoes, rfl⟩ hNil
    rw [List.flatMap_eq_nil_iff] at hNil
    exact hNamed _ hr vetoes rfl (hNil _ hr)

omit [BEq Resp] in
/-- Neither a veto nor an error is a value. -/
theorem ok_of_neither {results : List (UInt8 × Except MpcError Resp)} (hVetoed : ¬ Vetoed results)
    (hErrors : results.findSome? errorOf = none) : ∀ r ∈ results, ∃ v, r.2 = .ok v := by
  rintro ⟨party, result⟩ hr
  have hError := List.findSome?_eq_none_iff.mp hErrors _ hr
  rcases result with e | v
  · exfalso
    rcases e with _ | _ | _ | _ | _ | _ | vetoes
    case rejected => exact hVetoed ⟨_, hr, vetoes, rfl⟩
    all_goals simp [errorOf] at hError
  · exact ⟨v, rfl⟩

omit [BEq Resp] in
/-- The values collected are the values answered. -/
theorem mem_filterMap_okOf {results : List (UInt8 × Except MpcError Resp)} {ok : UInt8 × Resp} :
    ok ∈ results.filterMap okOf ↔ (ok.1, .ok ok.2) ∈ results := by
  constructor
  · intro h
    obtain ⟨⟨party, result⟩, hr, hOk⟩ := List.mem_filterMap.mp h
    rcases result with e | v
    · simp [okOf] at hOk
    · rw [okOf, Option.some.injEq] at hOk
      subst hOk
      exact hr
  · intro h
    exact List.mem_filterMap.mpr ⟨_, h, rfl⟩

omit [BEq Resp] in
/-- An error that is kept is no veto. -/
theorem findSome?_errorOf_ne_rejected {results : List (UInt8 × Except MpcError Resp)}
    {e : MpcError} (h : results.findSome? errorOf = some e) (vetoes : List Veto) :
    e ≠ .rejected vetoes := by
  obtain ⟨⟨party, result⟩, -, hError⟩ := List.exists_of_findSome?_eq_some h
  unfold errorOf at hError
  split at hError
  · simp at hError
  · simp at hError
  · rename_i hNot hEq
    rintro rfl
    obtain rfl := Option.some.inj hError
    exact hNot _ rfl

/-- **Every merge of somebody's answers ends in one of four ways.** -/
theorem combineBy_outcome [EquivBEq Resp] (debug : Resp → String)
    {results : List (UInt8 × Except MpcError Resp)} (hNe : results ≠ [])
    (hNamed : VetoesNamed results) : MergeOutcome results (combineBy debug results) := by
  unfold combineBy
  rw [merge_eq]
  simp only
  split
  · rename_i hVetoes
    -- vetoes first,
    exact .rejected ((flatMap_vetoesOf_ne_nil hNamed).mp hVetoes)
  rename_i hVetoes
  have hUnvetoed : ¬ Vetoed results := fun h => hVetoes ((flatMap_vetoesOf_ne_nil hNamed).mpr h)
  split
  · rename_i e hFirst
    -- then the first error,
    exact .failed e hUnvetoed hFirst
  rename_i hErrors
  have hAll := ok_of_neither hUnvetoed hErrors
  split
  · -- then there are values, since somebody was asked;
    rename_i hNone
    exfalso
    obtain ⟨r, rest, rfl⟩ := List.exists_cons_of_ne_nil hNe
    obtain ⟨v, hOk⟩ := hAll r List.mem_cons_self
    have hMem : (r.1, v) ∈ (r :: rest).filterMap okOf := by
      rw [mem_filterMap_okOf, ← hOk]
      exact List.mem_cons_self
    rw [hNone] at hMem
    simp at hMem
  rename_i firstParty firstValue oks hOks
  have hFirst : Answered results firstValue := by
    have hMem : (firstParty, firstValue) ∈ results.filterMap okOf := by
      rw [hOks]
      exact List.mem_cons_self
    exact ⟨_, mem_filterMap_okOf.mp hMem, rfl⟩
  split
  · rename_i party value hOther
    have hMem : (party, value) ∈ results.filterMap okOf := by
      rw [hOks]
      exact List.mem_cons_of_mem _ (List.mem_of_find?_eq_some hOther)
    have hDiffer := List.find?_some hOther
    -- one of them is not the first,
    exact .differed _ firstValue value hFirst ⟨_, mem_filterMap_okOf.mp hMem, rfl⟩ hAll
      (by simpa [bne] using hDiffer)
  · rename_i hSame
    -- or all are
    refine .agreed firstValue hFirst ?_
    intro r hr
    obtain ⟨v, hOk⟩ := hAll r hr
    have hMem : (r.1, v) ∈ results.filterMap okOf := by
      rw [mem_filterMap_okOf, ← hOk]
      exact hr
    rw [hOks] at hMem
    refine ⟨v, hOk, ?_⟩
    rcases List.mem_cons.mp hMem with hHead | hTail
    · rw [(Prod.mk.inj hHead).2]
      exact BEq.rfl
    · simpa [bne] using List.find?_eq_none.mp hSame _ hTail

-- ---------------------------------------------------------------------------
-- Which of the four
-- ---------------------------------------------------------------------------

omit [BEq Resp] in
/-- Where all answered values nobody vetoed. -/
theorem not_vetoed_of_ok {results : List (UInt8 × Except MpcError Resp)}
    (hAll : ∀ r ∈ results, ∃ v, r.2 = .ok v) : ¬ Vetoed results := by
  rintro ⟨r, hr, vetoes, hVeto⟩
  obtain ⟨v, hOk⟩ := hAll r hr
  rw [hOk] at hVeto
  simp at hVeto

omit [BEq Resp] in
/-- Where all answered values there is no error. -/
theorem findSome?_errorOf_of_ok {results : List (UInt8 × Except MpcError Resp)}
    (hAll : ∀ r ∈ results, ∃ v, r.2 = .ok v) : results.findSome? errorOf = none := by
  rw [List.findSome?_eq_none_iff]
  rintro ⟨party, result⟩ hr
  obtain ⟨v, rfl⟩ := hAll _ hr
  rfl

section

variable {results : List (UInt8 × Except MpcError Resp)} {out : Option (Except MpcError Resp)}

/-- A veto outranks everything. -/
theorem MergeOutcome.of_vetoed (h : MergeOutcome results out) (hVetoed : Vetoed results) :
    out = some (.error (.rejected (sortByParty (results.flatMap vetoesOf)))) := by
  cases h with
  | rejected => rfl
  | failed e hUnvetoed => exact absurd hVetoed hUnvetoed
  | agreed v _ hAll =>
    exact absurd hVetoed (not_vetoed_of_ok fun r hr => (hAll r hr).imp fun _ h => h.1)
  | differed msg v u _ _ hAll => exact absurd hVetoed (not_vetoed_of_ok hAll)

/-- The first error outranks every value. -/
theorem MergeOutcome.of_error (h : MergeOutcome results out) (hVetoed : ¬ Vetoed results)
    {e : MpcError} (hFirst : results.findSome? errorOf = some e) : out = some (.error e) := by
  cases h with
  | rejected h => exact absurd h hVetoed
  | failed e' _ hFirst' =>
    rw [hFirst, Option.some.injEq] at hFirst'
    rw [hFirst']
  | agreed v _ hAll =>
    rw [findSome?_errorOf_of_ok fun r hr => (hAll r hr).imp fun _ h => h.1] at hFirst
    simp at hFirst
  | differed msg v u _ _ hAll =>
    rw [findSome?_errorOf_of_ok hAll] at hFirst
    simp at hFirst

/-- Equal values are one value. -/
theorem MergeOutcome.of_equal [EquivBEq Resp] (h : MergeOutcome results out) {v : Resp}
    (hAll : ∀ r ∈ results, ∃ u, r.2 = .ok u ∧ (u == v) = true) :
    ∃ w, out = some (.ok w) ∧ (w == v) = true := by
  have hOk : ∀ r ∈ results, ∃ u, r.2 = .ok u := fun r hr => (hAll r hr).imp fun _ h => h.1
  have hEqual : ∀ w, Answered results w → (w == v) = true := by
    rintro w ⟨r, hr, hw⟩
    obtain ⟨u, hu, hSame⟩ := hAll r hr
    rw [hw, Except.ok.injEq] at hu
    exact hu ▸ hSame
  cases h with
  | rejected h => exact absurd h (not_vetoed_of_ok hOk)
  | failed e _ hFirst =>
    rw [findSome?_errorOf_of_ok hOk] at hFirst
    simp at hFirst
  | agreed w hAnswered => exact ⟨w, rfl, hEqual w hAnswered⟩
  -- two answers that differ cannot both equal `v`
  | differed msg w u hFirst hOther _ hDiffer =>
    have hSame : (u == w) = true := BEq.trans (hEqual u hOther) (BEq.symm (hEqual w hFirst))
    rw [hSame] at hDiffer
    simp at hDiffer

/-- Two values that differ are a mismatch. -/
theorem MergeOutcome.of_differ [EquivBEq Resp] (h : MergeOutcome results out)
    (hOk : ∀ r ∈ results, ∃ u, r.2 = .ok u) {u v : Resp} (hu : Answered results u)
    (hv : Answered results v) (hDiffer : (u == v) = false) :
    ∃ msg, out = some (.error (.partyMismatch msg)) := by
  cases h with
  | rejected h => exact absurd h (not_vetoed_of_ok hOk)
  | failed e _ hFirst =>
    rw [findSome?_errorOf_of_ok hOk] at hFirst
    simp at hFirst
  | agreed w _ hAll =>
    have hEqual : ∀ x, Answered results x → (x == w) = true := by
      rintro x ⟨r, hr, hx⟩
      obtain ⟨y, hy, hSame⟩ := hAll r hr
      rw [hx, Except.ok.injEq] at hy
      exact hy ▸ hSame
    have hSame : (u == v) = true := BEq.trans (hEqual u hu) (BEq.symm (hEqual v hv))
    rw [hSame] at hDiffer
    simp at hDiffer
  | differed msg => exact ⟨msg, rfl⟩

end

-- ---------------------------------------------------------------------------
-- Order
-- ---------------------------------------------------------------------------

/-- Two merges come to the same: the same kind of outcome, equal values, the same
vetoes. -/
structure Agrees (out out' : Option (Except MpcError Resp)) : Prop where
  ok : ∀ v, out = some (.ok v) → ∃ w, out' = some (.ok w) ∧ (v == w) = true
  rejected : ∀ vetoes, out = some (.error (.rejected vetoes)) →
    out' = some (.error (.rejected vetoes))
  error : ∀ e, out = some (.error e) → (∀ vetoes, e ≠ .rejected vetoes) →
    ∃ e', out' = some (.error e') ∧ ∀ vetoes, e' ≠ .rejected vetoes

omit [BEq Resp] in
/-- The vetoes come out in the order of their parties. -/
theorem sortByParty_sorted (vetoes : List Veto) :
    (sortByParty vetoes).Pairwise fun v w => v.party ≤ w.party := by
  have hSorted : (sortByParty vetoes).Pairwise fun v w => decide (v.party ≤ w.party) = true := by
    refine List.pairwise_mergeSort ?_ ?_ vetoes
    · intro a b c hab hbc
      rw [decide_eq_true_eq] at *
      exact UInt8.le_trans hab hbc
    · intro a b
      rw [Bool.or_eq_true, decide_eq_true_eq, decide_eq_true_eq]
      exact UInt8.le_total a.party b.party
  exact hSorted.imp of_decide_eq_true

omit [BEq Resp] in
/-- Distinct parties' own vetoes are of distinct parties. -/
theorem ownVetoes_unique {results : List (UInt8 × Except MpcError Resp)}
    (hDistinct : (results.map Prod.fst).Nodup) (hOwn : OwnVetoes results) {v w : Veto}
    (hv : v ∈ results.flatMap vetoesOf) (hw : w ∈ results.flatMap vetoesOf)
    (hParty : v.party = w.party) : v = w := by
  have hSource : ∀ x ∈ results.flatMap vetoesOf,
      (x.party, Except.error (.rejected [x])) ∈ results := by
    intro x hx
    obtain ⟨⟨party, result⟩, hr, hMem⟩ := List.mem_flatMap.mp hx
    unfold vetoesOf at hMem
    split at hMem
    · rename_i vetoes hEq
      obtain ⟨rfl, rfl⟩ := Prod.mk.inj hEq
      obtain ⟨reason, hOne⟩ := hOwn _ hr vetoes rfl
      simp only at hOne
      subst hOne
      obtain rfl := List.mem_singleton.mp hMem
      exact hr
    · simp at hMem
  have hSame := List.inj_on_of_nodup_map hDistinct (hSource v hv) (hSource w hw) hParty
  simpa [hParty] using hSame

omit [BEq Resp] in
/-- The vetoes of distinct parties sort to one list. -/
theorem sortByParty_perm {results results' : List (UInt8 × Except MpcError Resp)}
    (hDistinct : (results.map Prod.fst).Nodup) (hOwn : OwnVetoes results)
    (hPerm : results'.Perm results) :
    sortByParty (results'.flatMap vetoesOf) = sortByParty (results.flatMap vetoesOf) := by
  have hMerged : (results'.flatMap vetoesOf).Perm (results.flatMap vetoesOf) := hPerm.flatMap_right _
  have hSorted : (sortByParty (results'.flatMap vetoesOf)).Perm
      (sortByParty (results.flatMap vetoesOf)) :=
    (List.mergeSort_perm _ _).trans (hMerged.trans (List.mergeSort_perm _ _).symm)
  refine List.Perm.eq_of_pairwise ?_ (sortByParty_sorted _) (sortByParty_sorted _) hSorted
  intro v w hv hw hvw hwv
  have hv' := hMerged.mem_iff.mp (mem_sortByParty.mp hv)
  exact ownVetoes_unique hDistinct hOwn hv' (mem_sortByParty.mp hw) (UInt8.le_antisymm hvw hwv)

omit [BEq Resp] in
/-- Whether somebody vetoed does not depend on the order. -/
theorem vetoed_perm {results results' : List (UInt8 × Except MpcError Resp)}
    (hPerm : results'.Perm results) : Vetoed results' ↔ Vetoed results := by
  constructor
  · rintro ⟨r, hr, hVeto⟩
    exact ⟨r, hPerm.mem_iff.mp hr, hVeto⟩
  · rintro ⟨r, hr, hVeto⟩
    exact ⟨r, hPerm.mem_iff.mpr hr, hVeto⟩

omit [BEq Resp] in
/-- An error somewhere is an error in front. -/
theorem findSome?_error_of_mem {results : List (UInt8 × Except MpcError Resp)}
    (hVetoed : ¬ Vetoed results) {r : UInt8 × Except MpcError Resp} (hr : r ∈ results)
    (hError : ∀ v, r.2 ≠ .ok v) : ∃ e, results.findSome? errorOf = some e := by
  rcases hFirst : results.findSome? errorOf with _ | e
  · obtain ⟨v, hOk⟩ := ok_of_neither hVetoed hFirst r hr
    exact absurd hOk (hError v)
  · exact ⟨e, rfl⟩

/-- What one order of the answers comes to, every order does. -/
theorem combineBy_perm [EquivBEq Resp] (debug : Resp → String)
    {results results' : List (UInt8 × Except MpcError Resp)} (hNe : results ≠ [])
    (hNamed : VetoesNamed results) (hDistinct : (results.map Prod.fst).Nodup)
    (hOwn : OwnVetoes results) (hPerm : results'.Perm results) :
    Agrees (combineBy debug results) (combineBy debug results') := by
  have hNe' : results' ≠ [] := fun h => hNe (List.perm_nil.mp (h ▸ hPerm).symm)
  have hNamed' : VetoesNamed results' := fun r hr => hNamed r (hPerm.mem_iff.mp hr)
  have hOut := combineBy_outcome debug hNe hNamed
  have hOut' := combineBy_outcome debug hNe' hNamed'
  -- from here on only the outcomes matter
  generalize combineBy debug results = out at hOut
  generalize combineBy debug results' = out' at hOut'
  have hMem : ∀ r ∈ results', r ∈ results := fun r hr => hPerm.mem_iff.mp hr
  have hAnswered : ∀ v, Answered results v → Answered results' v := by
    rintro v ⟨r, hr, hv⟩
    exact ⟨r, hPerm.mem_iff.mpr hr, hv⟩
  -- each outcome of the one order determines that of the other
  cases hOut with
  | rejected hVetoed =>
    have hSame := hOut'.of_vetoed ((vetoed_perm hPerm).mpr hVetoed)
    rw [sortByParty_perm hDistinct hOwn hPerm] at hSame
    refine ⟨fun v h => by simp at h, fun vetoes h => hSame.trans h, fun e h hNot => ?_⟩
    exact absurd (Except.error.inj (Option.some.inj h)).symm (hNot _)
  | failed e hVetoed hFirst =>
    have hVetoed' : ¬ Vetoed results' := fun h => hVetoed ((vetoed_perm hPerm).mp h)
    -- which error is first depends on the order; that there is one does not
    obtain ⟨r, hr, hError⟩ := List.exists_of_findSome?_eq_some hFirst
    have hNoValue : ∀ v, r.2 ≠ .ok v := by
      rintro v hOk
      obtain ⟨party, result⟩ := r
      rw [show result = .ok v from hOk] at hError
      simp [errorOf] at hError
    obtain ⟨e', hFirst'⟩ := findSome?_error_of_mem hVetoed' (hPerm.mem_iff.mpr hr) hNoValue
    refine ⟨fun v h => by simp at h, fun vetoes h => ?_, fun e₁ _ _ => ?_⟩
    · exact absurd (Except.error.inj (Option.some.inj h)) (findSome?_errorOf_ne_rejected hFirst _)
    · exact ⟨e', hOut'.of_error hVetoed' hFirst', findSome?_errorOf_ne_rejected hFirst'⟩
  | agreed v _ hAll =>
    obtain ⟨w, hSame, hEqual⟩ := hOut'.of_equal fun r hr => hAll r (hMem r hr)
    refine ⟨fun v' h => ?_, fun vetoes h => by simp at h, fun e h => by simp at h⟩
    obtain rfl := Except.ok.inj (Option.some.inj h)
    exact ⟨w, hSame, BEq.symm hEqual⟩
  | differed msg v u hv hu hAll hDiffer =>
    obtain ⟨msg', hSame⟩ := hOut'.of_differ (fun r hr => hAll r (hMem r hr)) (hAnswered u hu)
      (hAnswered v hv) hDiffer
    refine ⟨fun v' h => by simp at h, fun vetoes h => by simp at h, fun e _ _ => ?_⟩
    exact ⟨_, hSame, fun vetoes => by simp⟩

/-- **One precedence.** A merge of answers of distinct parties is a rejection
exactly where somebody vetoed, with all vetoes sorted by party; else the first
error in list order; else the answers' one value, or a mismatch where two differ.
With every rejection its party's own, no order of the answers changes more than
which error is first. -/
theorem combine_precedence [EquivBEq Resp] (debug : Resp → String)
    {results : List (UInt8 × Except MpcError Resp)} (hNe : results ≠ [])
    (hDistinct : (results.map Prod.fst).Nodup) (hNamed : VetoesNamed results) :
    ((∃ vetoes, combineBy debug results = some (.error (.rejected vetoes))) ↔ Vetoed results) ∧
    (∀ vetoes, combineBy debug results = some (.error (.rejected vetoes)) →
      vetoes.Perm (results.flatMap vetoesOf) ∧ vetoes.Pairwise fun v w => v.party ≤ w.party) ∧
    (¬ Vetoed results → ∀ e, results.findSome? errorOf = some e →
      combineBy debug results = some (.error e)) ∧
    (¬ Vetoed results → results.findSome? errorOf = none →
      (∀ v, (∃ w, combineBy debug results = some (.ok w) ∧ (w == v) = true) ↔
        ∀ r ∈ results, ∃ u, r.2 = .ok u ∧ (u == v) = true) ∧
      (∀ u v, Answered results u → Answered results v → (u == v) = false →
        ∃ msg, combineBy debug results = some (.error (.partyMismatch msg)))) ∧
    (OwnVetoes results → ∀ results' : List (UInt8 × Except MpcError Resp), results'.Perm results →
      Agrees (combineBy debug results) (combineBy debug results')) := by
  have hOut := combineBy_outcome debug hNe hNamed
  -- of the four outcomes only one is a rejection
  have hRejected : ∀ vetoes, combineBy debug results = some (.error (.rejected vetoes)) →
      Vetoed results ∧ vetoes = sortByParty (results.flatMap vetoesOf) := by
    intro vetoes hEq
    rw [hEq] at hOut
    cases hOut with
    | rejected hVetoed => exact ⟨hVetoed, rfl⟩
    | failed e _ hFirst => exact absurd rfl (findSome?_errorOf_ne_rejected hFirst vetoes)
  refine ⟨⟨?_, ?_⟩, ?_, ?_, ?_, ?_⟩
  · rintro ⟨vetoes, hEq⟩
    exact (hRejected vetoes hEq).1
  · intro hVetoed
    exact ⟨_, hOut.of_vetoed hVetoed⟩
  · intro vetoes hEq
    rw [(hRejected vetoes hEq).2]
    exact ⟨List.mergeSort_perm _ _, sortByParty_sorted _⟩
  · exact fun hVetoed e hFirst => hOut.of_error hVetoed hFirst
  · intro hVetoed hErrors
    refine ⟨fun v => ⟨?_, fun hAll => hOut.of_equal hAll⟩, ?_⟩
    · -- a value comes out only of the outcome in which all are equal
      rintro ⟨w, hEq, hSame⟩ r hr
      rw [hEq] at hOut
      cases hOut with
      | agreed w _ hAll =>
        obtain ⟨u, hOk, hEqual⟩ := hAll r hr
        exact ⟨u, hOk, BEq.trans hEqual hSame⟩
    · exact fun u v hu hv hDiffer => hOut.of_differ (ok_of_neither hVetoed hErrors) hu hv hDiffer
  · exact fun hOwn results' hPerm => combineBy_perm debug hNe hNamed hDistinct hOwn hPerm

end

/-- Of a value, an error and two vetoes the vetoes come out, in any order of the
four. -/
theorem combine_precedence_vetoed :
    let results : List (UInt8 × Except MpcError Nat) := [(2, .error (.rejected [⟨2, "cap"⟩])),
      (1, .error .deserialize), (3, .ok 7), (0, .error (.rejected [⟨0, "recipient"⟩]))]
    (∃ vetoes, combineBy toString results = some (.error (.rejected vetoes)) ∧
      vetoes.Perm (results.flatMap vetoesOf)) ∧
    Agrees (combineBy toString results) (combineBy toString results.reverse) := by
  intro results
  have hOwn : OwnVetoes results := by
    intro r hr vetoes hVeto
    simp only [results, List.mem_cons, List.not_mem_nil, or_false] at hr
    rcases hr with rfl | rfl | rfl | rfl <;> simp at hVeto <;> exact ⟨_, hVeto.symm⟩
  have hNamed : VetoesNamed results := by
    intro r hr vetoes hVeto
    obtain ⟨reason, rfl⟩ := hOwn r hr vetoes hVeto
    simp
  have hNe : results ≠ [] := List.cons_ne_nil _ _
  have hDistinct : (results.map Prod.fst).Nodup := by decide
  obtain ⟨hIff, hVetoes, -, -, hOrder⟩ := combine_precedence toString hNe hDistinct hNamed
  obtain ⟨vetoes, hEq⟩ := hIff.mpr ⟨_, List.mem_cons_self, _, rfl⟩
  exact ⟨⟨vetoes, hEq, (hVetoes vetoes hEq).1⟩, hOrder hOwn _ results.reverse_perm⟩

end Sovra.Ipc
