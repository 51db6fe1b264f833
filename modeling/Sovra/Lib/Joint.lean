import Sovra.Lib.Transition

/-!
# Sovra — logs that grow in joint sessions

Each of a list of parties keeps a log. It takes part in one session at a time, one
it never took part in before, and goes through its rounds by saying something in
each: it goes on to the next when it has heard all others in this one, and appends
the session to its log once it has heard them all in the last. It may give up at
any time. What was said can be heard at any time later, or never. A founding
session is entered on an empty log, any other on one that is not.

Logs may part, and stay apart: who gives up when the others have heard it misses
what they append, and nothing keeps the next session from succeeding. What they
cannot do is disagree on the order. The history lists every session that was ever
appended, in the order of the first time. A party that appends one of them late has
nothing later in its log, for it has been in that session since.

* `one_history` — all logs are sublists of one list without repetitions.
* `one_founder` — its first entry, and only that, founds; every log begins with it.
* `quorum`      — logs that `k` sessions tell apart are of `2 ^ k` kinds at most;
  as many have one log as are of one kind.
-/

namespace Sovra.Lib

/-- What a party says in a round of a session. -/
structure Word (ι σ : Type) where
  sender : ι
  session : σ
  round : Nat
deriving DecidableEq

/-- The logs, who takes part in what, in which round, and what was said so far.
The `history` is ghost: no step reads it. -/
structure Joint (ι σ : Type) where
  log : ι → List σ
  run : ι → Option (σ × Nat)
  said : List (Word ι σ)
  history : List σ

namespace Joint

/-- What a party does: enter a session, go to its next round, append it, or give up. -/
inductive Act (ι σ : Type)
  | join (p : ι) (s : σ)
  | advance (p : ι)
  | commit (p : ι)
  | leave (p : ι)

section

variable {ι σ : Type} [DecidableEq ι] [DecidableEq σ]

/-- Nobody has a log or has said anything. -/
def init : Joint ι σ := ⟨fun _ => [], fun _ => none, [], []⟩

variable (parties : List ι) (last : Nat) (founds : σ → Bool) (j : Joint ι σ)

/-- `p` says its word in a round of `s`. -/
def say (p : ι) (s : σ) (r : Nat) : Joint ι σ :=
  { j with run := Function.update j.run p (some (s, r)), said := ⟨p, s, r⟩ :: j.said }

/-- The run of `p` is over. -/
def leave (p : ι) : Joint ι σ := { j with run := Function.update j.run p none }

/-- The run of `p` is over and `s` in its log; in the history, too, if it is the
first to append it. -/
def append (p : ι) (s : σ) : Joint ι σ :=
  { j.leave p with
    log := Function.update j.log p (j.log p ++ [s])
    history := if s ∈ j.history then j.history else j.history ++ [s] }

/-- `p` has never taken part in `s`. -/
def Fresh (p : ι) (s : σ) : Prop := ∀ w ∈ j.said, ¬ (w.sender = p ∧ w.session = s)

/-- All others have spoken in a round of `s`. -/
def Heard (p : ι) (s : σ) (r : Nat) : Prop := ∀ q ∈ parties, q ≠ p → ⟨q, s, r⟩ ∈ j.said

/-- `s` is one to enter with the log of `p`. -/
def Suits (p : ι) (s : σ) : Prop := founds s = true ↔ j.log p = []

instance (p : ι) (s : σ) : Decidable (j.Fresh p s) :=
  inferInstanceAs (Decidable (∀ w ∈ j.said, ¬ (w.sender = p ∧ w.session = s)))

instance (p : ι) (s : σ) (r : Nat) : Decidable (j.Heard parties p s r) :=
  inferInstanceAs (Decidable (∀ q ∈ parties, q ≠ p → ⟨q, s, r⟩ ∈ j.said))

instance (p : ι) (s : σ) : Decidable (j.Suits founds p s) :=
  inferInstanceAs (Decidable (founds s = true ↔ j.log p = []))

/-- One act, where it is allowed. -/
def step : Act ι σ → Option (Joint ι σ)
  | .join p s =>
    if p ∈ parties ∧ j.run p = none ∧ j.Fresh p s ∧ j.Suits founds p s then some (j.say p s 1)
    else none
  | .advance p =>
    match j.run p with
    | none => none
    | some (s, r) => if r < last ∧ j.Heard parties p s r then some (j.say p s (r + 1)) else none
  | .commit p =>
    match j.run p with
    | none => none
    | some (s, r) => if r = last ∧ j.Heard parties p s last then some (j.append p s) else none
  | .leave p => some (j.leave p)

def machine : Machine (Joint ι σ) (Act ι σ) := ⟨step parties last founds⟩

-- ---------------------------------------------------------------------------
-- What holds in every state
-- ---------------------------------------------------------------------------

/-- `p` has spoken beyond the first round of `s`. -/
def Spoken (p : ι) (s : σ) : Prop := ∃ w ∈ j.said, w.sender = p ∧ w.session = s ∧ 2 ≤ w.round

/-- The runs and what was said in them. -/
structure Talk : Prop where
  seated : ∀ p s r, j.run p = some (s, r) → p ∈ parties
  present : ∀ p s r, j.run p = some (s, r) → ⟨p, s, r⟩ ∈ j.said
  /-- Nobody gets beyond a first round without everybody. -/
  all : ∀ w ∈ j.said, 2 ≤ w.round → ∀ q ∈ parties,
    ∃ w' ∈ j.said, w'.sender = q ∧ w'.session = w.session
  /-- Of two parties in different sessions one has not got far in the other's. -/
  apart : ∀ p q s r s' r', j.run p = some (s, r) → j.run q = some (s', r') → s ≠ s' →
    j.Spoken q s → ¬ j.Spoken p s'

/-- The logs and the history. -/
structure Recorded : Prop where
  nodup : j.history.Nodup
  known : ∀ s ∈ j.history, ∀ q ∈ parties, ⟨q, s, last⟩ ∈ j.said
  owned : ∀ s ∈ j.history, ∃ p ∈ parties, s ∈ j.log p
  sub : ∀ p, (j.log p).Sublist j.history
  /-- Who is still in a session of the history has only earlier ones. -/
  next : ∀ p s r, j.run p = some (s, r) → s ∈ j.history → (j.log p ++ [s]).Sublist j.history

/-- What founds. -/
structure Founded : Prop where
  suits : ∀ p s r, j.run p = some (s, r) → j.Suits founds p s
  first : ∀ p s, (j.log p).head? = some s → founds s = true
  founder : ∀ s ∈ j.history, founds s = true ↔ j.history.head? = some s
  /-- Somebody with a log has not got far in any other founding session that is on. -/
  settled : ∀ s₀, j.history.head? = some s₀ → ∃ p ∈ parties, j.log p ≠ [] ∧
    ∀ q s r, j.run q = some (s, r) → founds s = true → s ≠ s₀ → ¬ j.Spoken p s

/-- All of it. -/
structure Inv : Prop where
  talk : j.Talk parties
  recorded : j.Recorded parties last
  founded : j.Founded parties founds

variable {parties last founds j}

omit [DecidableEq ι] [DecidableEq σ] in
/-- In the beginning there is nothing to be said. -/
theorem Inv.init : (init : Joint ι σ).Inv parties last founds := by
  refine ⟨⟨?_, ?_, ?_, ?_⟩, ⟨List.nodup_nil, ?_, ?_, fun _ => List.nil_sublist _, ?_⟩,
    ⟨?_, ?_, ?_, ?_⟩⟩
  all_goals simp [Joint.init]

-- ---------------------------------------------------------------------------
-- A word
-- ---------------------------------------------------------------------------

omit [DecidableEq σ] in
/-- After a word its speaker is in that round, and everybody else where it was. -/
theorem run_say {p q : ι} {s s' : σ} {r r' : Nat} (h : (j.say p s r).run q = some (s', r')) :
    (q = p ∧ s' = s ∧ r' = r) ∨ (q ≠ p ∧ j.run q = some (s', r')) := by
  by_cases hSame : q = p
  · rw [hSame] at h
    have hRun : some (s, r) = some (s', r') := by
      rw [← h]
      exact (Function.update_self p _ j.run).symm
    simp only [Option.some.injEq, Prod.mk.injEq] at hRun
    exact Or.inl ⟨hSame, hRun.1.symm, hRun.2.symm⟩
  · refine Or.inr ⟨hSame, ?_⟩
    rw [← h]
    exact (Function.update_of_ne hSame _ j.run).symm

omit [DecidableEq σ] in
/-- A word is all that is new to have been said. -/
theorem spoken_say {p q : ι} {s s' : σ} {r : Nat} (h : (j.say p s r).Spoken q s') :
    j.Spoken q s' ∨ (q = p ∧ s' = s ∧ 2 ≤ r) := by
  obtain ⟨w, hMem, rfl, rfl, hRound⟩ := h
  rcases List.mem_cons.mp hMem with rfl | hOld
  · exact Or.inr ⟨rfl, rfl, hRound⟩
  · exact Or.inl ⟨w, hOld, rfl, rfl, hRound⟩

omit [DecidableEq σ] in
/-- A word may be said beyond the first round if everybody has spoken in the
session, and by one who is in nobody's way. -/
theorem Talk.say (h : j.Talk parties) {p : ι} {s : σ} {r : Nat} (hp : p ∈ parties)
    (hAll : 2 ≤ r → ∀ q ∈ parties, ∃ w ∈ j.said, w.sender = q ∧ w.session = s)
    (hApart : ∀ q s' r', q ≠ p → j.run q = some (s', r') → s ≠ s' →
      j.Spoken q s → ¬ j.Spoken p s') : (j.say p s r).Talk parties := by
  have hOwn : (⟨p, s, r⟩ : Word ι σ) ∈ (j.say p s r).said := List.mem_cons_self
  have hOld : ∀ w ∈ j.said, w ∈ (j.say p s r).said := fun w hw => List.mem_cons_of_mem _ hw
  refine ⟨?_, ?_, ?_, ?_⟩
  · intro q s' r' hRun
    rcases run_say hRun with ⟨rfl, -, -⟩ | ⟨-, hRun⟩
    · exact hp
    · exact h.seated q s' r' hRun
  · intro q s' r' hRun
    rcases run_say hRun with ⟨rfl, rfl, rfl⟩ | ⟨-, hRun⟩
    · exact hOwn
    · exact hOld _ (h.present q s' r' hRun)
  · -- a word of a later round: everybody has spoken in its session
    intro w hMem hRound q hq
    have hBefore : ∃ w' ∈ j.said, w'.sender = q ∧ w'.session = w.session := by
      rcases List.mem_cons.mp hMem with rfl | hMem
      · exact hAll hRound q hq
      · exact h.all w hMem hRound q hq
    obtain ⟨w', hMem', hWord⟩ := hBefore
    exact ⟨w', hOld w' hMem', hWord⟩
  · intro a b sa ra sb rb hA hB hNe hFirst hSecond
    -- the new word is in the session of its speaker's own run
    have hFirst' : j.Spoken b sa := by
      rcases spoken_say hFirst with hBefore | ⟨rfl, rfl, -⟩
      · exact hBefore
      · rcases run_say hB with ⟨-, hSame, -⟩ | ⟨hOther, -⟩
        · exact absurd hSame.symm hNe
        · exact absurd rfl hOther
    have hSecond' : j.Spoken a sb := by
      rcases spoken_say hSecond with hBefore | ⟨rfl, rfl, -⟩
      · exact hBefore
      · rcases run_say hA with ⟨-, hSame, -⟩ | ⟨hOther, -⟩
        · exact absurd hSame hNe
        · exact absurd rfl hOther
    rcases run_say hA with ⟨rfl, rfl, -⟩ | ⟨hOtherA, hA'⟩
    · rcases run_say hB with ⟨-, hSame, -⟩ | ⟨hOtherB, hB'⟩
      · exact hNe hSame.symm
      · exact hApart b sb rb hOtherB hB' hNe hFirst' hSecond'
    · rcases run_say hB with ⟨rfl, rfl, -⟩ | ⟨hOtherB, hB'⟩
      · exact hApart a sa ra hOtherA hA' hNe.symm hSecond' hFirst'
      · exact h.apart a b sa ra sb rb hA' hB' hNe hFirst' hSecond'

omit [DecidableEq σ] in
/-- A word records nothing; only its speaker's run may be new. -/
theorem Recorded.say (h : j.Recorded parties last) {p : ι} {s : σ} {r : Nat}
    (hNext : s ∈ j.history → (j.log p ++ [s]).Sublist j.history) :
    (j.say p s r).Recorded parties last where
  nodup := h.nodup
  known s' hs' q hq := List.mem_cons_of_mem _ (h.known s' hs' q hq)
  owned := h.owned
  sub := h.sub
  next q s' r' hRun hMem := by
    rcases run_say hRun with ⟨rfl, rfl, -⟩ | ⟨-, hRun⟩
    · exact hNext hMem
    · exact h.next q s' r' hRun hMem

omit [DecidableEq σ] in
/-- A word founds nothing if its speaker's run is one it had already, or one in
which nobody has got far. -/
theorem Founded.say (h : j.Founded parties founds) {p : ι} {s : σ} {r : Nat}
    (hSuits : j.Suits founds p s)
    (hRun : (∃ r', j.run p = some (s, r')) ∨ ∀ q, ¬ j.Spoken q s) :
    (j.say p s r).Founded parties founds where
  suits q s' r' hTakes := by
    rcases run_say hTakes with ⟨rfl, rfl, -⟩ | ⟨-, hTakes⟩
    · exact hSuits
    · exact h.suits q s' r' hTakes
  first := h.first
  founder := h.founder
  settled s₀ hHead := by
    obtain ⟨a, ha, hLog, hFar⟩ := h.settled s₀ hHead
    refine ⟨a, ha, hLog, fun q s' r' hTakes hFounds hNe hSpoken => ?_⟩
    have hBefore : j.Spoken a s' := by
      rcases spoken_say hSpoken with hBefore | ⟨rfl, rfl, -⟩
      · exact hBefore
      · -- who has a log speaks in no founding session
        exact absurd (hSuits.mp hFounds) hLog
    rcases run_say hTakes with ⟨rfl, rfl, -⟩ | ⟨-, hTook⟩
    · rcases hRun with ⟨r'', hTook⟩ | hNobody
      · exact hFar q s' r'' hTook hFounds hNe hBefore
      · exact hNobody a hBefore
    · exact hFar q s' r' hTook hFounds hNe hBefore

omit [DecidableEq σ] in
/-- Who enters a session finds nobody beyond its first round. -/
theorem Inv.join (h : j.Inv parties last founds) {p : ι} {s : σ} (hp : p ∈ parties)
    (hFresh : j.Fresh p s) (hSuits : j.Suits founds p s) :
    (j.say p s 1).Inv parties last founds := by
  -- without `p` nobody got beyond the first round
  have hNobody : ∀ q, ¬ j.Spoken q s := by
    rintro q ⟨w, hMem, -, rfl, hRound⟩
    obtain ⟨w', hMem', hSender, hSession⟩ := h.talk.all w hMem hRound p hp
    exact hFresh w' hMem' ⟨hSender, hSession⟩
  refine ⟨h.talk.say hp (fun hRound => by omega) ?_, h.recorded.say ?_,
    h.founded.say hSuits (Or.inr hNobody)⟩
  · intro q s' r' _ _ _ hSpoken _
    exact hNobody q hSpoken
  · intro hMem
    exact absurd ⟨rfl, rfl⟩ (hFresh _ (h.recorded.known s hMem p hp))

omit [DecidableEq σ] in
/-- Who goes on has heard everybody. -/
theorem Inv.advance (h : j.Inv parties last founds) {p : ι} {s : σ} {r : Nat}
    (hRun : j.run p = some (s, r)) (hHeard : j.Heard parties p s r) :
    (j.say p s (r + 1)).Inv parties last founds := by
  refine ⟨h.talk.say (h.talk.seated p s r hRun) ?_ ?_, h.recorded.say (h.recorded.next p s r hRun),
    h.founded.say (h.founded.suits p s r hRun) (Or.inl ⟨r, hRun⟩)⟩
  · intro _ q hq
    by_cases hSame : q = p
    · rw [hSame]
      exact ⟨_, h.talk.present p s r hRun, rfl, rfl⟩
    · exact ⟨_, hHeard q hq hSame, rfl, rfl⟩
  · intro q s' r' _ hOther hNe
    exact h.talk.apart p q s r s' r' hRun hOther hNe

-- ---------------------------------------------------------------------------
-- The end of a run
-- ---------------------------------------------------------------------------

omit [DecidableEq σ] in
/-- Who leaves is nowhere, everybody else where it was. -/
theorem run_leave {p q : ι} {s : σ} {r : Nat} (h : (j.leave p).run q = some (s, r)) :
    q ≠ p ∧ j.run q = some (s, r) := by
  have hRun : Function.update j.run p none q = some (s, r) := h
  by_cases hSame : q = p
  · rw [hSame, Function.update_self] at hRun
    cases hRun
  · rw [Function.update_of_ne hSame] at hRun
    exact ⟨hSame, hRun⟩

omit [DecidableEq σ] in
/-- Leaving unsays nothing. -/
theorem Talk.leave (h : j.Talk parties) (p : ι) : (j.leave p).Talk parties where
  seated q s r hRun := h.seated q s r (run_leave hRun).2
  present q s r hRun := h.present q s r (run_leave hRun).2
  all := h.all
  apart a b s r s' r' hA hB := h.apart a b s r s' r' (run_leave hA).2 (run_leave hB).2

omit [DecidableEq σ] in
/-- Leaving records and founds nothing. -/
theorem Inv.leave (h : j.Inv parties last founds) (p : ι) :
    (j.leave p).Inv parties last founds where
  talk := h.talk.leave p
  recorded := ⟨h.recorded.nodup, h.recorded.known, h.recorded.owned, h.recorded.sub,
    fun q s r hRun => h.recorded.next q s r (run_leave hRun).2⟩
  founded := by
    refine ⟨fun q s r hRun => h.founded.suits q s r (run_leave hRun).2, h.founded.first,
      h.founded.founder, fun s₀ hHead => ?_⟩
    obtain ⟨a, ha, hLog, hFar⟩ := h.founded.settled s₀ hHead
    exact ⟨a, ha, hLog, fun q s r hRun => hFar q s r (run_leave hRun).2⟩

theorem log_append_self {p : ι} {s : σ} : (j.append p s).log p = j.log p ++ [s] :=
  Function.update_self p _ j.log

theorem log_append_of_ne {p q : ι} {s : σ} (h : q ≠ p) : (j.append p s).log q = j.log q :=
  Function.update_of_ne h _ j.log

/-- A session that is in the history stays where it is, a new one comes last. -/
theorem history_append {p : ι} {s : σ} :
    (s ∈ j.history ∧ (j.append p s).history = j.history) ∨
      (s ∉ j.history ∧ (j.append p s).history = j.history ++ [s]) := by
  by_cases hMem : s ∈ j.history
  · exact Or.inl ⟨hMem, if_pos hMem⟩
  · exact Or.inr ⟨hMem, if_neg hMem⟩

/-- An entry of the history stays one, and in its place. -/
theorem history_sublist {p : ι} {s : σ} : j.history.Sublist (j.append p s).history := by
  rcases history_append (j := j) (p := p) (s := s) with ⟨-, hSame⟩ | ⟨-, hMore⟩
  · rw [hSame]
  · rw [hMore]
    exact List.sublist_append_left _ _

/-- Logs only grow. -/
theorem log_subset_append {p q : ι} {s : σ} : j.log q ⊆ (j.append p s).log q := by
  by_cases hSame : q = p
  · rw [hSame, log_append_self]
    exact List.subset_append_left _ _
  · rw [log_append_of_ne hSame]
    exact List.Subset.refl _

section

variable (h : j.Inv parties last founds) {p : ι} {s : σ} (hRun : j.run p = some (s, last))
  (hHeard : j.Heard parties p s last)
include h hRun hHeard

/-- **A session goes on top of whatever a party has.** -/
theorem Recorded.commit : (j.append p s).Recorded parties last := by
  have hp := h.talk.seated p s last hRun
  refine ⟨?_, ?_, ?_, ?_, ?_⟩
  · rcases history_append (j := j) (p := p) (s := s) with ⟨-, hSame⟩ | ⟨hNew, hMore⟩
    · rw [hSame]
      exact h.recorded.nodup
    · rw [hMore]
      exact List.nodup_append_comm.mp (List.nodup_cons.mpr ⟨hNew, h.recorded.nodup⟩)
  · intro x hx q hq
    by_cases hOld : x ∈ j.history
    · exact h.recorded.known x hOld q hq
    · -- the new entry: everybody was in its last round
      have hSame : x = s := by
        rcases history_append (j := j) (p := p) (s := s) with ⟨-, hKept⟩ | ⟨-, hMore⟩
        · rw [hKept] at hx
          exact absurd hx hOld
        · rw [hMore] at hx
          exact (List.mem_append.mp hx).elim (absurd · hOld) List.mem_singleton.mp
      subst hSame
      by_cases hSelf : q = p
      · rw [hSelf]
        exact h.talk.present p x last hRun
      · exact hHeard q hq hSelf
  · intro x hx
    by_cases hOld : x ∈ j.history
    · obtain ⟨q, hq, hMem⟩ := h.recorded.owned x hOld
      exact ⟨q, hq, log_subset_append hMem⟩
    · refine ⟨p, hp, ?_⟩
      rcases history_append (j := j) (p := p) (s := s) with ⟨-, hKept⟩ | ⟨-, hMore⟩
      · rw [hKept] at hx
        exact absurd hx hOld
      · rw [hMore] at hx
        rw [log_append_self]
        exact List.mem_append_right _ ((List.mem_append.mp hx).resolve_left hOld)
  · intro q
    by_cases hSelf : q = p
    · rw [hSelf, log_append_self]
      rcases history_append (j := j) (p := p) (s := s) with ⟨hOld, hKept⟩ | ⟨-, hMore⟩
      · rw [hKept]
        exact h.recorded.next p s last hRun hOld
      · rw [hMore]
        exact (h.recorded.sub p).append_right _
    · rw [log_append_of_ne hSelf]
      exact (h.recorded.sub q).trans history_sublist
  · intro q x r hTakes hx
    obtain ⟨hOther, hTook⟩ := run_leave hTakes
    rw [log_append_of_ne hOther]
    by_cases hOld : x ∈ j.history
    · exact (h.recorded.next q x r hTook hOld).trans history_sublist
    · rcases history_append (j := j) (p := p) (s := s) with ⟨-, hKept⟩ | ⟨-, hMore⟩
      · rw [hKept] at hx
        exact absurd hx hOld
      · -- `q` is in the session that is first appended now
        rw [hMore] at hx ⊢
        rw [List.mem_singleton.mp ((List.mem_append.mp hx).resolve_left hOld)]
        exact (h.recorded.sub q).append_right _

omit [DecidableEq ι] in
/-- Who commits a founding session commits the one of the history. -/
theorem Founded.only (hLast : 2 ≤ last) (hFounds : founds s = true) {s₀ : σ}
    (hHead : j.history.head? = some s₀) : s = s₀ := by
  obtain ⟨a, ha, hLog, hFar⟩ := h.founded.settled s₀ hHead
  by_contra hNe
  have hSelf : a ≠ p := by
    rintro rfl
    exact hLog ((h.founded.suits a s last hRun).mp hFounds)
  exact hFar p s last hRun hFounds hNe ⟨_, hHeard a ha hSelf, rfl, rfl, hLast⟩

/-- **Nothing else founds.** -/
theorem Founded.commit (hLast : 2 ≤ last) : (j.append p s).Founded parties founds := by
  have hp := h.talk.seated p s last hRun
  have hSuits := h.founded.suits p s last hRun
  refine ⟨?_, ?_, ?_, ?_⟩
  · intro q x r hTakes
    obtain ⟨hOther, hTook⟩ := run_leave hTakes
    have hBefore := h.founded.suits q x r hTook
    unfold Suits at hBefore ⊢
    rwa [log_append_of_ne hOther]
  · intro q x hHead
    by_cases hSelf : q = p
    · rw [hSelf, log_append_self] at hHead
      rcases hLog : j.log p with _ | ⟨y, rest⟩
      · rw [hLog] at hHead
        obtain rfl := Option.some.inj hHead
        exact hSuits.mpr hLog
      · rw [hLog] at hHead
        refine h.founded.first p x ?_
        rw [hLog]
        exact hHead
    · rw [log_append_of_ne hSelf] at hHead
      exact h.founded.first q x hHead
  · intro x hx
    rcases history_append (j := j) (p := p) (s := s) with ⟨-, hKept⟩ | ⟨hNew, hMore⟩
    · rw [hKept] at hx ⊢
      exact h.founded.founder x hx
    rw [hMore] at hx ⊢
    rcases hHistory : j.history with _ | ⟨s₀, rest⟩
    · -- nobody has a log yet
      have hEmpty : j.log p = [] := by
        have hSub := h.recorded.sub p
        rw [hHistory] at hSub
        exact List.sublist_nil.mp hSub
      rw [hHistory] at hx
      obtain rfl := List.mem_singleton.mp hx
      exact ⟨fun _ => rfl, fun _ => hSuits.mpr hEmpty⟩
    · have hHead : j.history.head? = some s₀ := by rw [hHistory]; rfl
      show founds x = true ↔ some s₀ = some x
      rcases List.mem_append.mp hx with hOld | hLatest
      · rw [h.founded.founder x hOld, hHead]
      · obtain rfl := List.mem_singleton.mp hLatest
        constructor
        · intro hFounds
          rw [Founded.only h hRun hHeard hLast hFounds hHead]
        · intro hSame
          rw [Option.some.injEq] at hSame
          rw [← hSame, hHistory] at hNew
          exact absurd List.mem_cons_self hNew
  · intro s₀ hHead
    rcases hHistory : j.history with _ | ⟨s₁, rest⟩
    · -- `p` is the first to have a log, and all others were in the last round of `s`
      rcases history_append (j := j) (p := p) (s := s) with ⟨hOld, -⟩ | ⟨-, hMore⟩
      · rw [hHistory] at hOld
        cases hOld
      rw [hMore, hHistory] at hHead
      obtain rfl := Option.some.inj hHead
      refine ⟨p, hp, by rw [log_append_self]; simp, fun q x r hTakes _ hNe hSpoken => ?_⟩
      obtain ⟨hOther, hTook⟩ := run_leave hTakes
      have hFar : j.Spoken q s := ⟨_, hHeard q (h.talk.seated q x r hTook) hOther, rfl, rfl, hLast⟩
      exact h.talk.apart p q s last x r hRun hTook (fun hEq => hNe hEq.symm) hFar hSpoken
    · have hSame : s₁ = s₀ := by
        rcases history_append (j := j) (p := p) (s := s) with ⟨-, hKept⟩ | ⟨-, hMore⟩
        · rw [hKept, hHistory] at hHead
          exact Option.some.inj hHead
        · rw [hMore, hHistory] at hHead
          exact Option.some.inj hHead
      obtain ⟨a, ha, hLog, hFar⟩ := h.founded.settled s₀ (by rw [hHistory, hSame]; rfl)
      refine ⟨a, ha, fun hNil => ?_, fun q x r hTakes => hFar q x r (run_leave hTakes).2⟩
      obtain ⟨x, hx⟩ := List.exists_mem_of_ne_nil _ hLog
      have hMem : x ∈ (j.append p s).log a := log_subset_append hx
      rw [hNil] at hMem
      cases hMem

/-- A party that has heard everybody in the last round may append the session. -/
theorem Inv.commit (hLast : 2 ≤ last) : (j.append p s).Inv parties last founds :=
  have hTalk := h.talk.leave p
  ⟨⟨hTalk.seated, hTalk.present, hTalk.all, hTalk.apart⟩, Recorded.commit h hRun hHeard,
    Founded.commit h hRun hHeard hLast⟩

end

-- ---------------------------------------------------------------------------
-- Every run
-- ---------------------------------------------------------------------------

/-- **Step lemma.** -/
theorem Inv.step (h : j.Inv parties last founds) (hLast : 2 ≤ last) {a : Act ι σ}
    {j' : Joint ι σ} (hStep : j.step parties last founds a = some j') :
    j'.Inv parties last founds := by
  -- each act has its own lemma; the guards are the lemma's hypotheses
  cases a with
  | join p s =>
    simp only [Joint.step] at hStep
    split at hStep
    case isFalse => simp at hStep
    rename_i hOk
    obtain ⟨hp, -, hFresh, hSuits⟩ := hOk
    obtain rfl := Option.some.inj hStep
    exact h.join hp hFresh hSuits
  | advance p =>
    simp only [Joint.step] at hStep
    split at hStep
    · simp at hStep
    rename_i s r hRun
    split at hStep
    case isFalse => simp at hStep
    rename_i hOk
    obtain rfl := Option.some.inj hStep
    exact h.advance hRun hOk.2
  | commit p =>
    simp only [Joint.step] at hStep
    split at hStep
    · simp at hStep
    rename_i s r hRun
    split at hStep
    case isFalse => simp at hStep
    rename_i hOk
    obtain ⟨rfl, hHeard⟩ := hOk
    obtain rfl := Option.some.inj hStep
    exact h.commit hRun hHeard hLast
  | leave p =>
    obtain rfl := Option.some.inj hStep
    exact h.leave p

/-- **Run lemma.** The invariant holds in every state of every run. -/
theorem inv_of_reach (hLast : 2 ≤ last)
    (hReach : (machine parties last founds).Reach (fun _ _ => True) init j) :
    j.Inv parties last founds :=
  hReach.invariant Inv.init fun _ _ _ h _ hStep => h.step hLast hStep

/-- **One history.** Nothing in it twice, all said to the last round by everybody
and in somebody's log; and every log a part of it, in its order. -/
theorem one_history (hLast : 2 ≤ last)
    (hReach : (machine parties last founds).Reach (fun _ _ => True) init j) :
    j.history.Nodup ∧
    (∀ s ∈ j.history, (∃ p ∈ parties, s ∈ j.log p) ∧ ∀ q ∈ parties, ⟨q, s, last⟩ ∈ j.said) ∧
    ∀ p, (j.log p).Sublist j.history := by
  have h := (inv_of_reach hLast hReach).recorded
  exact ⟨h.nodup, fun s hs => ⟨h.owned s hs, h.known s hs⟩, h.sub⟩

/-- **One founder.** Only the first entry of the history founds, and no log begins
with anything else. -/
theorem one_founder (hLast : 2 ≤ last)
    (hReach : (machine parties last founds).Reach (fun _ _ => True) init j) :
    (∀ s ∈ j.history, founds s = true ↔ j.history.head? = some s) ∧
    ∀ p, j.log p ≠ [] → (j.log p).head? = j.history.head? := by
  have h := inv_of_reach hLast hReach
  refine ⟨h.founded.founder, fun p hLog => ?_⟩
  obtain ⟨s, rest, hCons⟩ := List.exists_cons_of_ne_nil hLog
  have hHead : (j.log p).head? = some s := by rw [hCons]; rfl
  have hMem : s ∈ j.history := (h.recorded.sub p).subset (by rw [hCons]; exact List.mem_cons_self)
  rw [hHead, (h.founded.founder s hMem).mp (h.founded.first p s hHead)]

-- ---------------------------------------------------------------------------
-- Parties of one log
-- ---------------------------------------------------------------------------

omit [DecidableEq ι] in
/-- A part of a list without repetitions is what its members are. -/
theorem filter_mem_of_sublist {part whole : List σ} (h : part.Sublist whole)
    (hNodup : whole.Nodup) : whole.filter (· ∈ part) = part := by
  induction h with
  | slnil => rfl
  | cons x hSub ih =>
    obtain ⟨hNew, hRest⟩ := List.nodup_cons.mp hNodup
    rw [List.filter_cons_of_neg (by simpa using fun hx => hNew (hSub.subset hx)), ih hRest]
  | cons_cons x hSub ih =>
    obtain ⟨hNew, hRest⟩ := List.nodup_cons.mp hNodup
    rw [List.filter_cons_of_pos (by simp)]
    refine congrArg (x :: ·) ((List.filter_congr fun y hy => ?_).trans (ih hRest))
    have hNe : y ≠ x := fun hEq => hNew (hEq ▸ hy)
    simp [hNe]

/-- The sessions that some parties have in their logs and others have not. -/
def torn (parties : List ι) (log : ι → List σ) : Finset σ :=
  (parties.toFinset.biUnion fun p => (log p).toFinset).filter fun s => ∃ p ∈ parties, s ∉ log p

/-- What tears is in one log and not in another. -/
theorem mem_torn {log : ι → List σ} {s : σ} :
    s ∈ torn parties log ↔ (∃ p ∈ parties, s ∈ log p) ∧ ∃ p ∈ parties, s ∉ log p := by
  simp [torn]

/-- Logs of one history that have the same torn sessions are the same. -/
theorem log_eq_of_torn {log : ι → List σ} {history : List σ} (hNodup : history.Nodup)
    (hSub : ∀ p, (log p).Sublist history) {p q : ι} (hp : p ∈ parties) (hq : q ∈ parties)
    (hTorn : ∀ s ∈ torn parties log, s ∈ log p ↔ s ∈ log q) : log p = log q := by
  rw [← filter_mem_of_sublist (hSub p) hNodup, ← filter_mem_of_sublist (hSub q) hNodup]
  refine List.filter_congr fun s _ => decide_eq_decide.mpr ?_
  by_cases hMem : s ∈ torn parties log
  · exact hTorn s hMem
  · rw [mem_torn, not_and_or, not_exists, not_exists] at hMem
    rcases hMem with hNobody | hEverybody
    · exact iff_of_false (fun h => hNobody p ⟨hp, h⟩) fun h => hNobody q ⟨hq, h⟩
    · exact iff_of_true (not_not.mp fun h => hEverybody p ⟨hp, h⟩)
        (not_not.mp fun h => hEverybody q ⟨hq, h⟩)

/-- Of many parties in few groups some group has many. -/
theorem exists_group {κ : Type} [DecidableEq κ] {kinds : Finset κ} {kind : ι → κ}
    (hMaps : ∀ p ∈ parties, kind p ∈ kinds) {t : Nat}
    (hMany : kinds.card * (t - 1) < parties.length) :
    ∃ k ∈ kinds, t ≤ (parties.filter fun p => kind p = k).length := by
  have hSum : kinds.card • (t - 1) < ∑ p ∈ parties.toFinset, parties.count p := by
    rwa [List.sum_toFinset_count_eq_length, smul_eq_mul]
  obtain ⟨k, hk, hFiber⟩ := Finset.exists_lt_sum_fiber_of_maps_to_of_nsmul_lt_sum
    (fun p hp => hMaps p (List.mem_toFinset.mp hp)) hSum
  refine ⟨k, hk, ?_⟩
  have hLength := List.sum_toFinset_count_eq_length (parties.filter fun p => kind p = k)
  rw [List.toFinset_filter] at hLength
  simp only [decide_eq_true_eq] at hLength
  have hCounts : ∀ p ∈ parties.toFinset.filter (fun p => kind p = k),
      (parties.filter fun p => kind p = k).count p = parties.count p :=
    fun p hp => List.count_filter (decide_eq_true (Finset.mem_filter.mp hp).2)
  rw [Finset.sum_congr rfl hCounts] at hLength
  omega

/-- The kind of a log: which of the torn sessions it has. -/
def kind (parties : List ι) (log : ι → List σ) (p : ι) : Finset σ :=
  (torn parties log).filter (· ∈ log p)

/-- Logs of one history are the same exactly if they are of one kind. -/
theorem log_eq_iff_kind {log : ι → List σ} {history : List σ} (hNodup : history.Nodup)
    (hSub : ∀ p, (log p).Sublist history) {p q : ι} (hp : p ∈ parties) (hq : q ∈ parties) :
    log p = log q ↔ kind parties log p = kind parties log q := by
  constructor
  · intro hSame
    rw [kind, kind, hSame]
  · intro hKind
    refine log_eq_of_torn hNodup hSub hp hq fun s hs => ?_
    have hBoth := Finset.ext_iff.mp hKind s
    simpa only [kind, Finset.mem_filter, hs, true_and] using hBoth

/-- All logs of one history are the same exactly if nothing is torn. -/
theorem logs_eq_iff {log : ι → List σ} {history : List σ} (hNodup : history.Nodup)
    (hSub : ∀ p, (log p).Sublist history) :
    (∀ p ∈ parties, ∀ q ∈ parties, log p = log q) ↔ torn parties log = ∅ := by
  constructor
  · intro hSame
    refine Finset.eq_empty_of_forall_notMem fun s hs => ?_
    obtain ⟨⟨p, hp, hIn⟩, q, hq, hOut⟩ := mem_torn.mp hs
    exact hOut (hSame p hp q hq ▸ hIn)
  · intro hNone p hp q hq
    refine log_eq_of_torn hNodup hSub hp hq fun s hs => ?_
    rw [hNone] at hs
    exact absurd hs (Finset.notMem_empty s)

omit [DecidableEq ι] [DecidableEq σ] in
/-- A group by one thing is a group by any other that goes with it. -/
theorem group_of_group {κ κ' : Type} [DecidableEq κ] [DecidableEq κ'] [Inhabited κ'] {f : ι → κ}
    {g : ι → κ'} (hAlong : ∀ p ∈ parties, ∀ q ∈ parties, f p = f q → g p = g q) {t : Nat}
    (hGroup : ∃ k, t ≤ parties.countP fun p => f p = k) :
    ∃ k, t ≤ parties.countP fun p => g p = k := by
  obtain ⟨k, hMany⟩ := hGroup
  by_cases hSome : ∃ p ∈ parties, f p = k
  swap
  · -- nobody is in it
    rw [List.countP_eq_zero.mpr fun p hp hIn => hSome ⟨p, hp, of_decide_eq_true hIn⟩] at hMany
    exact ⟨default, hMany.trans (Nat.zero_le _)⟩
  obtain ⟨p, hp, rfl⟩ := hSome
  refine ⟨g p, hMany.trans (List.countP_mono_left fun q hq hSame => ?_)⟩
  rw [decide_eq_true_eq] at hSame ⊢
  exact hAlong q hq p hp hSame

/-- As many have one log as have logs of one kind. -/
theorem quorum_iff_kind {log : ι → List σ} {history : List σ} (hNodup : history.Nodup)
    (hSub : ∀ p, (log p).Sublist history) {t : Nat} :
    (∃ g, t ≤ parties.countP fun p => log p = g) ↔
      ∃ k, t ≤ parties.countP fun p => kind parties log p = k :=
  ⟨group_of_group fun _ hp _ hq => (log_eq_iff_kind hNodup hSub hp hq).mp,
    group_of_group fun _ hp _ hq => (log_eq_iff_kind hNodup hSub hp hq).mpr⟩

omit [DecidableEq ι] in
/-- Where all logs are different no two are of one group. -/
theorem no_pair {log : ι → List σ} (hDifferent : (parties.map log).Nodup) :
    ¬ ∃ g, 2 ≤ parties.countP fun p => log p = g := by
  rintro ⟨g, hTwo⟩
  have hOnce := List.nodup_iff_count_le_one.mp hDifferent g
  rw [List.count, List.countP_map] at hOnce
  have hSame : parties.countP (fun p => log p = g) = parties.countP ((· == g) ∘ log) :=
    List.countP_congr fun p _ => by rw [decide_eq_true_eq, Function.comp_apply, beq_iff_eq]
  omega

/-- **A quorum of one log**, if the parties are more than the kinds of logs there
can be, times one less. -/
theorem quorum {log : ι → List σ} {history : List σ} (hNodup : history.Nodup)
    (hSub : ∀ p, (log p).Sublist history) {t : Nat}
    (hMany : (t - 1) * 2 ^ (torn parties log).card < parties.length) :
    ∃ g, t ≤ parties.countP fun p => log p = g := by
  refine (quorum_iff_kind hNodup hSub).mpr ?_
  -- a kind is a set of torn sessions
  have hMaps : ∀ p ∈ parties, kind parties log p ∈ (torn parties log).powerset :=
    fun p _ => Finset.mem_powerset.mpr (Finset.filter_subset _ _)
  obtain ⟨k, -, hKind⟩ := exists_group hMaps (t := t) (by
    rw [Finset.card_powerset, mul_comm]
    exact hMany)
  rw [← List.countP_eq_length_filter] at hKind
  exact ⟨k, hKind⟩

end

end Joint

end Sovra.Lib
