import Sovra.Mpc.Authenticity

/-!
# Sovra — a ceremony does not depend on the delivery schedule

`recv_round` sees one merged stream; what a ceremony means by its messages is,
for each sender, round and kind, the list of envelopes in the order they were
sent. The receive loop computes a function of these lists alone: each inbox
entry is the head of its list, and a call blocks exactly when a list it needs
is empty over the whole stream — so nothing that came early was lost.

* `Delivered` — the abstract delivery of a call list, over the lists only.
* `admitEnv_caught` — one admission keeps the loop abreast of the stream read.
* `recvRounds_delivered` — the receive calls refine `Delivered`.
* `recvRounds_schedule` — two schedules with the same lists give the same
  inboxes and block at the same call.
-/

namespace Sovra.Mpc

section

variable {C : Crypto} {ex : Exchange C}

-- ---------------------------------------------------------------------------
-- A stream, by sender, round and kind
-- ---------------------------------------------------------------------------

/-- An envelope of this ceremony from `p`, of this round and kind. -/
def Exchange.isMail (ex : Exchange C) (p round : UInt8) (k : Bool) (s : SignedEnvelope C) : Bool :=
  ex.concerns s.env && (s.env.sender == p && s.env.round == round && s.env.sealed == k)

/-- The envelopes `p` sent in this ceremony, of one round and kind, in order. -/
def Exchange.mail (ex : Exchange C) (stream : List (SignedEnvelope C)) (p round : UInt8)
    (k : Bool) : List Envelope :=
  (stream.filter (ex.isMail p round k)).map fun s => s.env

/-- The content of the first of them. -/
def Exchange.first (ex : Exchange C) (stream : List (SignedEnvelope C)) (p round : UInt8)
    (k : Bool) : Option Bytes :=
  (ex.mail stream p round k).head?.bind fun e => (ex.content e).toOption

/-- Every envelope of this ceremony verifies and opens; foreign envelopes may
be anything. -/
def Exchange.WellFormed (ex : Exchange C) (stream : List (SignedEnvelope C)) : Prop :=
  ∀ s ∈ stream, ex.concerns s.env = true →
    s.verify ex.ctx.partyVks = .ok () ∧ ∃ m, ex.content s.env = .ok m

/-- What it takes to be mail from `p` of a round and kind. -/
theorem isMail_iff {p round : UInt8} {k : Bool} {s : SignedEnvelope C} :
    ex.isMail p round k s = true ↔ ex.concerns s.env = true ∧ s.env.sender = p ∧
      s.env.round = round ∧ s.env.sealed = k := by
  simp [Exchange.isMail, and_assoc]

/-- Mail of a longer stream is appended. -/
theorem mail_append (d d' : List (SignedEnvelope C)) (p round : UInt8) (k : Bool) :
    ex.mail (d ++ d') p round k = ex.mail d p round k ++ ex.mail d' p round k := by
  simp [Exchange.mail]

/-- One envelope is mail of one list at most. -/
theorem mail_singleton (s : SignedEnvelope C) (p round : UInt8) (k : Bool) :
    ex.mail [s] p round k = if ex.isMail p round k s then [s.env] else [] := by
  simp only [Exchange.mail, List.filter_singleton]
  cases ex.isMail p round k s <;> rfl

/-- Mail comes from peers. -/
theorem mail_eq_nil_of_not_peer {stream : List (SignedEnvelope C)} {p round : UInt8} {k : Bool}
    (hPeer : p ∉ ex.peers) : ex.mail stream p round k = [] := by
  rw [Exchange.mail, List.map_eq_nil_iff, List.filter_eq_nil_iff]
  intro s _ hMail
  obtain ⟨hCon, rfl, -, -⟩ := isMail_iff.mp hMail
  exact hPeer (concerns_iff.mp hCon).2.2.2

/-- Dropping earlier rounds loses no mail of a later one. -/
theorem mail_filter {stream : List (SignedEnvelope C)} {p round : UInt8} {k : Bool}
    {keep : SignedEnvelope C → Bool} (hKeep : ∀ s, ex.isMail p round k s = true → keep s = true) :
    ex.mail (stream.filter keep) p round k = ex.mail stream p round k := by
  unfold Exchange.mail
  rw [List.filter_filter]
  congr 1
  apply List.filter_congr
  intro s _
  by_cases hMail : ex.isMail p round k s = true
  · rw [hMail, hKeep s hMail, Bool.and_self]
  · rw [Bool.not_eq_true] at hMail
    rw [hMail, Bool.false_and]

/-- What a longer stream prepends to nothing leaves the first entry alone. -/
theorem first_append {d d' : List (SignedEnvelope C)} {p round : UInt8} {k : Bool}
    (hMail : ex.mail d p round k ≠ []) :
    ex.first (d ++ d') p round k = ex.first d p round k := by
  rw [Exchange.first, Exchange.first, mail_append]
  obtain ⟨e, rest, hEq⟩ := List.exists_cons_of_ne_nil hMail
  rw [hEq]
  rfl

/-- Mail of a well-formed stream has a first entry that opens. -/
theorem first_isSome {stream : List (SignedEnvelope C)} (hWf : ex.WellFormed stream)
    {p round : UInt8} {k : Bool} (hMail : ex.mail stream p round k ≠ []) :
    (ex.first stream p round k).isSome := by
  obtain ⟨e, rest, hEq⟩ := List.exists_cons_of_ne_nil hMail
  have hMem : e ∈ ex.mail stream p round k := hEq ▸ List.mem_cons_self
  obtain ⟨s, hs, rfl⟩ := List.mem_map.mp hMem
  obtain ⟨hStream, hMail'⟩ := List.mem_filter.mp hs
  obtain ⟨-, m, hContent⟩ := hWf s hStream (isMail_iff.mp hMail').1
  rw [Exchange.first, hEq]
  simp only [List.head?_cons, Option.bind_some, hContent]
  rfl

/-- No first entry means no mail. -/
theorem first_eq_none_iff {stream : List (SignedEnvelope C)} (hWf : ex.WellFormed stream)
    {p round : UInt8} {k : Bool} :
    ex.first stream p round k = none ↔ ex.mail stream p round k = [] := by
  constructor
  · intro hNone
    by_contra hMail
    have hSome := first_isSome hWf hMail
    rw [hNone] at hSome
    cases hSome
  · intro hMail
    rw [Exchange.first, hMail]
    rfl

-- ---------------------------------------------------------------------------
-- The abstract delivery
-- ---------------------------------------------------------------------------

/-- The inbox holds, for every kind expected, every sender's first envelope of
the round, and nothing of a kind not expected. -/
def Exchange.Firsts (ex : Exchange C) (stream : List (SignedEnvelope C)) (round : UInt8)
    (expect : Expect) (inbox : RoundInbox) : Prop :=
  ∀ k p, (inbox.slot k)[p]? = if expect.wants k then ex.first stream p round k else none

/-- Every list a round needs has an envelope. -/
def Exchange.Supplied (ex : Exchange C) (stream : List (SignedEnvelope C)) (round : UInt8)
    (expect : Expect) : Prop :=
  ∀ k, expect.wants k = true → ∀ p ∈ ex.peers, ex.mail stream p round k ≠ []

/-- What a list of receive calls delivers: round by round the first envelopes,
up to the first round that lacks one. -/
inductive Delivered (ex : Exchange C) (stream : List (SignedEnvelope C)) :
    List (UInt8 × Expect) → List RoundInbox × Ending → Prop
  | done : Delivered ex stream [] ([], .done)
  | blocked {round expect calls} (hGap : ¬ ex.Supplied stream round expect) :
      Delivered ex stream ((round, expect) :: calls) ([], .blocked)
  | round {round expect calls inbox inboxes ending} (hSupplied : ex.Supplied stream round expect)
      (hFirsts : ex.Firsts stream round expect inbox)
      (hRest : Delivered ex stream calls (inboxes, ending)) :
      Delivered ex stream ((round, expect) :: calls) (inbox :: inboxes, ending)

/-- Two inboxes with the same entries are equal. -/
theorem slot_ext {a b : RoundInbox} (h : ∀ k (p : UInt8), (a.slot k)[p]? = (b.slot k)[p]?) : a = b :=
  RoundInbox.ext (Std.ExtTreeMap.ext_getElem? fun {p} => h false p)
    (Std.ExtTreeMap.ext_getElem? fun {p} => h true p)

/-- The firsts are a function of the mail lists. -/
theorem firsts_unique {s₁ s₂ : List (SignedEnvelope C)} {round : UInt8} {expect : Expect}
    {a b : RoundInbox} (hMail : ∀ p round k, ex.mail s₁ p round k = ex.mail s₂ p round k)
    (ha : ex.Firsts s₁ round expect a) (hb : ex.Firsts s₂ round expect b) : a = b := by
  apply slot_ext
  intro k p
  rw [ha k p, hb k p, Exchange.first, Exchange.first, hMail]

/-- Delivery is a function of the mail lists. -/
theorem delivered_unique {s₁ s₂ : List (SignedEnvelope C)}
    (hMail : ∀ p round k, ex.mail s₁ p round k = ex.mail s₂ p round k)
    {calls : List (UInt8 × Expect)} {out₁ out₂ : List RoundInbox × Ending}
    (h₁ : Delivered ex s₁ calls out₁) (h₂ : Delivered ex s₂ calls out₂) : out₁ = out₂ := by
  have hSupplied : ∀ round expect, ex.Supplied s₁ round expect ↔ ex.Supplied s₂ round expect := by
    intro round expect
    simp only [Exchange.Supplied, hMail]
  -- on one delivery; the other must take the same branch
  induction h₁ generalizing out₂ with
  | done =>
    cases h₂
    rfl
  | blocked hGap =>
    cases h₂ with
    | blocked => rfl
    | round hSup => exact absurd ((hSupplied _ _).mpr hSup) hGap
  | round hSup hFirsts _ ih =>
    cases h₂ with
    | blocked hGap => exact absurd ((hSupplied _ _).mp hSup) hGap
    | round _ hFirsts₂ hRest₂ =>
      have hInbox := firsts_unique hMail hFirsts hFirsts₂
      obtain ⟨hInboxes, hEnding⟩ := Prod.mk.inj (ih hRest₂)
      rw [hInbox, hInboxes, hEnding]

-- ---------------------------------------------------------------------------
-- The receive loop
-- ---------------------------------------------------------------------------

/-- The ahead-buffer holds the later rounds of the stream read so far, the
inbox its first envelopes of this round. -/
def Exchange.Caught (ex : Exchange C) (round : UInt8) (expect : Expect)
    (stream ahead : List (SignedEnvelope C)) (inbox : RoundInbox) : Prop :=
  ahead = stream.filter (fun s => ex.concerns s.env && decide (round < s.env.round)) ∧
    ex.Firsts stream round expect inbox

variable {round : UInt8} {expect : Expect} {inbox inbox' : RoundInbox}
  {d ahead : List (SignedEnvelope C)} {s : SignedEnvelope C}

/-- Nothing read, nothing buffered, nothing filed. -/
theorem caught_nil (ex : Exchange C) (round : UInt8) (expect : Expect) :
    ex.Caught round expect [] [] .empty := by
  refine ⟨rfl, fun k p => ?_⟩
  simp [Exchange.first, Exchange.mail]

/-- An envelope of another round or ceremony adds no mail to this round. -/
theorem firsts_append_other (hOther : ∀ p k, ex.isMail p round k s = false)
    (hIn : ex.Firsts d round expect inbox) : ex.Firsts (d ++ [s]) round expect inbox := by
  intro k p
  rw [hIn k p, Exchange.first, Exchange.first, mail_append, mail_singleton, hOther p k]
  simp

/-- Filing keeps the first envelope of every sender and kind. -/
theorem file_firsts (hWf : ex.WellFormed d) (hCon : ex.concerns s.env = true)
    (hRound : s.env.round = round) (hIn : ex.Firsts d round expect inbox)
    (hFile : ex.file s inbox expect = .ok inbox') :
    ex.Firsts (d ++ [s]) round expect inbox' := by
  intro k p
  have hOwn : ex.isMail s.env.sender round s.env.sealed s = true :=
    isMail_iff.mpr ⟨hCon, rfl, hRound, rfl⟩
  -- an entry of another sender or kind keeps both its list and its slot
  by_cases hMine : s.env.sealed = k ∧ s.env.sender = p
  · obtain ⟨rfl, rfl⟩ := hMine
    -- not expected, already there, or filed
    rcases file_cases hFile with ⟨rfl, hWants | hTaken⟩ | ⟨hWants, hFree, m, hContent, rfl⟩
    · rw [hIn, hWants]
      rfl
    · have hGet := hIn s.env.sealed s.env.sender
      rw [Std.ExtTreeMap.getElem?_eq_some_getElem hTaken] at hGet
      split at hGet
      · rename_i hWants
        have hMail : ex.mail d s.env.sender round s.env.sealed ≠ [] := by
          intro hNil
          rw [(first_eq_none_iff hWf).mpr hNil] at hGet
          cases hGet
        rw [hIn, first_append hMail]
      · cases hGet
    · have hNone := hIn s.env.sealed s.env.sender
      rw [Std.ExtTreeMap.getElem?_eq_none hFree, if_pos hWants] at hNone
      -- a free slot means no mail before, so the new envelope is the first
      have hNil := (first_eq_none_iff hWf).mp hNone.symm
      rw [slot_insert, if_pos rfl, Std.ExtTreeMap.getElem?_insert_self, if_pos hWants,
        Exchange.first, mail_append, mail_singleton, hOwn, hNil]
      simp only [if_true, List.nil_append, List.head?_cons, Option.bind_some, hContent]
      rfl
  · have hNot : ex.isMail p round k s = false := by
      rw [Bool.eq_false_iff]
      intro hMail
      obtain ⟨-, hSender, -, hKind⟩ := isMail_iff.mp hMail
      exact hMine ⟨hKind, hSender⟩
    have hFirst : ex.first (d ++ [s]) p round k = ex.first d p round k := by
      rw [Exchange.first, Exchange.first, mail_append, mail_singleton, hNot]
      simp
    rw [hFirst, ← hIn k p]
    rcases file_cases hFile with ⟨rfl, -⟩ | ⟨-, -, m, -, rfl⟩
    · rfl
    rw [slot_insert]
    split
    · rename_i hKind
      rw [Std.ExtTreeMap.getElem?_insert, if_neg]
      intro hSender
      exact hMine ⟨hKind, Std.LawfulEqCmp.eq_of_compare hSender⟩
    · rfl

/-- A well-formed envelope never aborts the ceremony. -/
theorem admitEnv_total (hWf : ex.WellFormed [s]) :
    ∃ out, ({ ex with ahead } : Exchange C).admitEnv round s inbox expect = .ok out := by
  unfold Exchange.admitEnv
  split
  · exact ⟨_, rfl⟩
  rename_i hCon
  rw [Bool.not_eq_true, Bool.not_eq_false'] at hCon
  obtain ⟨hVerify, m, hContent⟩ := hWf s (List.mem_singleton_self s) hCon
  simp only [hVerify]
  split
  · exact ⟨_, rfl⟩
  · exact ⟨_, rfl⟩
  · unfold Exchange.file
    have hContent' : ({ ex with ahead } : Exchange C).content s.env = .ok m := hContent
    simp only [hContent']
    split
    · rename_i h
      split at h
      · cases h
      · split at h <;> cases h
    · exact ⟨_, rfl⟩

/-- **Step lemma.** One admission keeps buffer and inbox abreast of the stream
read. -/
theorem admitEnv_caught (hWf : ex.WellFormed (d ++ [s]))
    (hIn : ex.Caught round expect d ahead inbox) :
    ∃ ahead' inbox', ({ ex with ahead } : Exchange C).admitEnv round s inbox expect =
      .ok ({ ex with ahead := ahead' }, inbox') ∧
      ex.Caught round expect (d ++ [s]) ahead' inbox' := by
  obtain ⟨hAhead, hFirsts⟩ := hIn
  have hWfD : ex.WellFormed d := fun x hx => hWf x (List.mem_append_left _ hx)
  have hWfS : ex.WellFormed [s] := fun x hx => hWf x (List.mem_append_right _ hx)
  obtain ⟨⟨ex', inbox'⟩, hAdmit⟩ :
      ∃ out, ({ ex with ahead } : Exchange C).admitEnv round s inbox expect = .ok out :=
    admitEnv_total hWfS
  rw [hAdmit]
  -- dropped as foreign or late, buffered, or filed
  rcases admitEnv_cases hAdmit with ⟨rfl, rfl, hDrop⟩ | ⟨hCon, -, hLater, rfl, rfl⟩ |
    ⟨hCon, -, hRound, rfl, hFile⟩
  · -- dropped: it would not have been buffered or filed by the spec either
    have hDrop' : (ex.concerns s.env && decide (round < s.env.round)) = false := by
      rw [Bool.and_eq_false_iff, decide_eq_false_iff_not]
      exact hDrop.imp id fun h => UInt8.not_lt.mpr (UInt8.le_of_lt h)
    refine ⟨_, inbox', rfl, ?_, firsts_append_other (fun p k => ?_) hFirsts⟩
    · show ahead = _
      rw [hAhead, List.filter_append, List.filter_singleton, hDrop']
      exact (List.append_nil _).symm
    · rw [Bool.eq_false_iff]
      intro hMail
      obtain ⟨hCon, -, hRound, -⟩ := isMail_iff.mp hMail
      rcases hDrop with hForeign | hLate
      · exact Bool.false_ne_true (hForeign.symm.trans hCon)
      · exact absurd hRound (UInt8.ne_of_lt hLate)
  · -- buffered: at the end of what waits
    refine ⟨_, inbox', rfl, ?_, firsts_append_other (fun p k => ?_) hFirsts⟩
    · have hCon' : ex.concerns s.env = true := hCon
      show ahead ++ [s] = _
      rw [hAhead, List.filter_append, List.filter_singleton, hCon', decide_eq_true hLater]
      rfl
    · rw [Bool.eq_false_iff]
      intro hMail
      exact absurd (isMail_iff.mp hMail).2.2.1.symm (UInt8.ne_of_lt hLater)
  · -- filed: it is not one of those that wait
    refine ⟨_, inbox', rfl, ?_, file_firsts hWfD hCon hRound hFirsts hFile⟩
    have hNow : decide (round < s.env.round) = false := by
      rw [hRound, decide_eq_false_iff_not]
      exact UInt8.lt_irrefl round
    show ahead = _
    rw [hAhead, List.filter_append, List.filter_singleton, hNow, Bool.and_false]
    exact (List.append_nil _).symm

/-- Reading the buffer is admission, envelope by envelope. -/
theorem drainAhead_caught {pool : List (SignedEnvelope C)} (hWf : ex.WellFormed (d ++ pool))
    (hIn : ex.Caught round expect d ahead inbox) :
    ∃ ahead' inbox', ({ ex with ahead } : Exchange C).drainAhead round expect inbox pool =
      .ok ({ ex with ahead := ahead' }, inbox') ∧
      ex.Caught round expect (d ++ pool) ahead' inbox' := by
  induction pool generalizing d ahead inbox with
  | nil => exact ⟨ahead, inbox, rfl, by rwa [List.append_nil]⟩
  | cons s pool ih =>
    rw [List.append_cons] at hWf ⊢
    obtain ⟨ahead₁, inbox₁, hAdmit, hIn₁⟩ :=
      admitEnv_caught (fun x hx => hWf x (List.mem_append_left _ hx)) hIn
    rw [Exchange.drainAhead, hAdmit]
    exact ih hWf hIn₁

/-- Complete means supplied: every list the round needs has arrived. -/
theorem complete_iff_supplied (hWf : ex.WellFormed d) (hIn : ex.Firsts d round expect inbox) :
    ex.complete inbox expect = true ↔ ex.Supplied d round expect := by
  rw [complete_iff]
  have hSlot : ∀ k p, expect.wants k = true →
      (p ∈ inbox.slot k ↔ ex.mail d p round k ≠ []) := by
    intro k p hWants
    rw [Std.ExtTreeMap.mem_iff_isSome_getElem?, hIn k p, if_pos hWants, ← not_iff_not,
      Bool.not_eq_true, Option.isSome_eq_false_iff, Option.isNone_iff_eq_none,
      first_eq_none_iff hWf, not_not]
  constructor
  · intro h k hWants p hPeer
    exact (hSlot k p hWants).mp (h k hWants p hPeer)
  · intro h k hWants p hPeer
    exact (hSlot k p hWants).mpr (h k hWants p hPeer)

/-- The `while` loop reads up to the envelope that completes the round, or to
the end of the stream. -/
theorem collect_caught {rest : List (SignedEnvelope C)} (hWf : ex.WellFormed (d ++ rest))
    (hIn : ex.Caught round expect d ahead inbox) :
    (∃ read left ahead' inbox', rest = read ++ left ∧
      ({ ex with ahead } : Exchange C).collect round expect inbox (rest.map .envelope) =
        .ready inbox' { ex with ahead := ahead' } (left.map .envelope) ∧
      ex.Caught round expect (d ++ read) ahead' inbox' ∧
      ex.complete inbox' expect = true) ∨
    (({ ex with ahead } : Exchange C).collect round expect inbox (rest.map .envelope) = .pending ∧
      ¬ ex.Supplied (d ++ rest) round expect) := by
  -- on what is left of the stream; the inbox is checked before each envelope
  induction rest generalizing d ahead inbox with
  | nil =>
    rw [List.append_nil] at hWf ⊢
    by_cases hComplete : ex.complete inbox expect = true
    · refine Or.inl ⟨[], [], ahead, inbox, rfl, if_pos hComplete, ?_, hComplete⟩
      rwa [List.append_nil]
    · exact Or.inr ⟨if_neg hComplete, fun h => hComplete ((complete_iff_supplied hWf hIn.2).mpr h)⟩
  | cons s rest ih =>
    rw [List.map_cons, collect_cons]
    by_cases hComplete : ex.complete inbox expect = true
    · refine Or.inl ⟨[], s :: rest, ahead, inbox, rfl, if_pos hComplete, ?_, hComplete⟩
      rwa [List.append_nil]
    rw [List.append_cons] at hWf ⊢
    obtain ⟨ahead₁, inbox₁, hAdmit, hIn₁⟩ :=
      admitEnv_caught (fun x hx => hWf x (List.mem_append_left _ hx)) hIn
    have hComplete' : ¬ ({ ex with ahead } : Exchange C).complete inbox expect = true := hComplete
    rw [if_neg hComplete']
    simp only [hAdmit]
    rcases ih hWf hIn₁ with ⟨read, left, ahead', inbox', rfl, hEq, hIn', hDone⟩ | ⟨hEq, hGap⟩
    · refine Or.inl ⟨s :: read, left, ahead', inbox', rfl, hEq, ?_, hDone⟩
      rwa [List.append_cons]
    · exact Or.inr ⟨hEq, hGap⟩

/-- The buffer an `Exchange` holds before a round: what it read of the rounds
from `lo` on. -/
def Exchange.buffered (ex : Exchange C) (lo : Nat) (stream : List (SignedEnvelope C)) :
    List (SignedEnvelope C) :=
  stream.filter fun s => ex.concerns s.env && decide (lo ≤ s.env.round.toNat)

/-- Draining the buffer catches up with everything read before the round. -/
theorem caught_buffered {lo : Nat} (hLo : lo ≤ round.toNat)
    (hIn : ex.Caught round expect (ex.buffered lo d) ahead inbox) :
    ex.Caught round expect d ahead inbox := by
  obtain ⟨hAhead, hFirsts⟩ := hIn
  constructor
  · rw [hAhead, Exchange.buffered, List.filter_filter]
    apply List.filter_congr
    intro s _
    -- a later round is at least `lo`, so the buffer has kept it
    by_cases hLater : round < s.env.round
    · have hNat := UInt8.lt_iff_toNat_lt.mp hLater
      have hKept : lo ≤ s.env.round.toNat := by omega
      rw [decide_eq_true hKept, Bool.and_true, Bool.and_right_comm, Bool.and_self]
    · rw [decide_eq_false hLater, Bool.and_false, Bool.false_and]
  · intro k p
    rw [hFirsts k p, Exchange.first, Exchange.first, Exchange.buffered, mail_filter]
    intro s hMail
    obtain ⟨hCon, -, rfl, -⟩ := isMail_iff.mp hMail
    rw [hCon, decide_eq_true hLo, Bool.and_self]

/-- **Round lemma.** A `recv_round` returns the firsts of the stream read up to
the envelope that completes it, or has read everything and misses a list. -/
theorem recvRound_caught {lo : Nat} {rest : List (SignedEnvelope C)}
    (hWf : ex.WellFormed (d ++ rest)) (hLo : lo ≤ round.toNat) :
    (∃ read left inbox', rest = read ++ left ∧
      ({ ex with ahead := ex.buffered lo d } : Exchange C).recvRound round expect
          (rest.map .envelope) =
        .ready inbox' { ex with ahead := ex.buffered (round.toNat + 1) (d ++ read) }
          (left.map .envelope) ∧
      ex.Firsts (d ++ read) round expect inbox' ∧ ex.Supplied (d ++ read) round expect) ∨
    (({ ex with ahead := ex.buffered lo d } : Exchange C).recvRound round expect
        (rest.map .envelope) = .pending ∧ ¬ ex.Supplied (d ++ rest) round expect) := by
  have hWfBuf : ex.WellFormed ([] ++ ex.buffered lo d) := fun s hs =>
    hWf s (List.mem_append_left _ (List.mem_filter.mp hs).1)
  -- what was buffered for this round first, then what arrives
  obtain ⟨ahead₁, inbox₁, hDrain, hIn₁⟩ := drainAhead_caught hWfBuf
    (caught_nil ex round expect)
  rw [Exchange.recvRound]
  simp only [hDrain]
  rcases collect_caught hWf (caught_buffered hLo hIn₁) with
    ⟨read, left, ahead', inbox', rfl, hEq, ⟨hAhead, hFirsts⟩, hComplete⟩ | hBlocked
  · -- the round was completed, at the same envelope as in the spec
    have hWf' : ex.WellFormed (d ++ read) := fun s hs => hWf s (by
      rw [← List.append_assoc]
      exact List.mem_append_left _ hs)
    refine Or.inl ⟨read, left, inbox', rfl, ?_, hFirsts,
      (complete_iff_supplied hWf' hFirsts).mp hComplete⟩
    rw [hEq, hAhead]
    simp only [Exchange.buffered, UInt8.lt_iff_toNat_lt, Nat.succ_le_iff]
  · exact Or.inr hBlocked

/-- A supplied round's firsts and supply are those of any longer stream. -/
theorem firsts_append (d' : List (SignedEnvelope C)) (hSupplied : ex.Supplied d round expect)
    (hIn : ex.Firsts d round expect inbox) :
    ex.Supplied (d ++ d') round expect ∧ ex.Firsts (d ++ d') round expect inbox := by
  constructor
  · intro k hWants p hPeer
    rw [mail_append]
    exact List.append_ne_nil_of_left_ne_nil (hSupplied k hWants p hPeer) _
  · intro k p
    rw [hIn k p]
    split
    · rename_i hWants
      by_cases hPeer : p ∈ ex.peers
      · rw [first_append (hSupplied k hWants p hPeer)]
      · rw [Exchange.first, Exchange.first, mail_eq_nil_of_not_peer hPeer,
          mail_eq_nil_of_not_peer hPeer]
    · rfl

/-- **Run lemma.** Receive calls of increasing rounds deliver what the mail
lists of the whole stream say. -/
theorem recvRounds_delivered {calls : List (UInt8 × Expect)} {lo : Nat}
    {rest : List (SignedEnvelope C)} (hWf : ex.WellFormed (d ++ rest))
    (hRounds : (calls.map Prod.fst).Pairwise (· < ·)) (hLo : ∀ c ∈ calls, lo ≤ c.1.toNat) :
    Delivered ex (d ++ rest) calls
      (({ ex with ahead := ex.buffered lo d } : Exchange C).recvRounds calls
        (rest.map .envelope)) := by
  -- on the calls; between two of them the buffer is what was read of later rounds
  induction calls generalizing d lo rest with
  | nil => exact .done
  | cons call calls ih =>
    obtain ⟨round, expect⟩ := call
    rw [List.map_cons, List.pairwise_cons] at hRounds
    rw [Exchange.recvRounds]
    rcases recvRound_caught hWf (hLo _ List.mem_cons_self) with
      ⟨read, left, inbox', rfl, hEq, hFirsts, hSupplied⟩ | ⟨hEq, hGap⟩
    · rw [hEq]
      rw [← List.append_assoc] at hWf ⊢
      obtain ⟨hSupplied', hFirsts'⟩ := firsts_append left hSupplied hFirsts
      refine .round hSupplied' hFirsts' (ih hWf hRounds.2 fun c hc => ?_)
      exact UInt8.lt_iff_toNat_lt.mp (hRounds.1 c.1 (List.mem_map_of_mem hc))
    · rw [hEq]
      exact .blocked hGap

-- ---------------------------------------------------------------------------
-- What delivery means for the caller
-- ---------------------------------------------------------------------------

/-- Each inbox delivered holds its round's firsts. -/
theorem delivered_firsts {calls : List (UInt8 × Expect)} {out : List RoundInbox × Ending}
    (h : Delivered ex d calls out) {i : Nat} (hCall : calls[i]? = some (round, expect))
    (hOut : out.1[i]? = some inbox) : ex.Firsts d round expect inbox := by
  induction h generalizing i with
  | done => simp at hCall
  | blocked => simp at hOut
  | round _ hFirsts _ ih =>
    cases i with
    | zero =>
      obtain ⟨rfl, rfl⟩ := Prod.mk.inj (Option.some.inj hCall)
      obtain rfl := Option.some.inj hOut
      exact hFirsts
    | succ i => exact ih hCall hOut

/-- Delivery ends with every call answered, or at the first call that needs a
list the whole stream leaves empty. -/
theorem delivered_ending {calls : List (UInt8 × Expect)} {out : List RoundInbox × Ending}
    (h : Delivered ex d calls out) :
    (out.2 = .done ∧ out.1.length = calls.length) ∨
    (out.2 = .blocked ∧ ∃ round expect, calls[out.1.length]? = some (round, expect) ∧
      ∃ k, expect.wants k = true ∧ ∃ p ∈ ex.peers, ex.mail d p round k = []) := by
  induction h with
  | done => exact Or.inl ⟨rfl, rfl⟩
  | @blocked round expect calls hGap =>
    unfold Exchange.Supplied at hGap
    push Not at hGap
    exact Or.inr ⟨rfl, round, expect, rfl, hGap⟩
  | round _ _ _ ih =>
    rcases ih with ⟨hDone, hLen⟩ | ⟨hBlocked, hGap⟩
    · exact Or.inl ⟨hDone, congrArg (· + 1) hLen⟩
    · exact Or.inr ⟨hBlocked, hGap⟩

/-- **Schedule independence.** Two streams with the same mail lists, however
they interleave them and whatever foreign envelopes they add, give the same
inboxes and block at the same call; each inbox entry is the content of the
first envelope of its sender, round and kind; and a call blocks only where the
whole stream holds no envelope it needs. -/
theorem recvRounds_schedule (ctx : PartyContext C) (op : UInt8) (participants : List UInt8)
    (calls : List (UInt8 × Expect)) (hRounds : (calls.map Prod.fst).Pairwise (· < ·))
    (s₁ s₂ : List (SignedEnvelope C))
    (hWf₁ : (Exchange.new ctx op participants).WellFormed s₁)
    (hWf₂ : (Exchange.new ctx op participants).WellFormed s₂)
    (hMail : ∀ p round k, (Exchange.new ctx op participants).mail s₁ p round k =
      (Exchange.new ctx op participants).mail s₂ p round k) :
    let ex := Exchange.new ctx op participants
    let out := ex.recvRounds calls (s₁.map .envelope)
    ex.recvRounds calls (s₂.map .envelope) = out ∧
    (∀ (i : Nat) round (expect : Expect) (inbox : RoundInbox), calls[i]? = some (round, expect) →
      out.1[i]? = some inbox → ∀ k (p : UInt8), (inbox.slot k)[p]? =
        if expect.wants k then ex.first s₁ p round k else none) ∧
    ((out.2 = .done ∧ out.1.length = calls.length) ∨
      (out.2 = .blocked ∧ ∃ round expect, calls[out.1.length]? = some (round, expect) ∧
        ∃ k, expect.wants k = true ∧ ∃ p ∈ ex.peers, ex.mail s₁ p round k = [])) := by
  intro ex out
  -- each stream is delivered as the spec says, and the spec looks at the mail alone
  have hRun : ∀ s, ex.WellFormed s → Delivered ex s calls (ex.recvRounds calls (s.map .envelope)) :=
    fun s hWf => @recvRounds_delivered _ ex [] calls 0 s hWf hRounds fun _ _ => Nat.zero_le _
  have h₁ := hRun s₁ hWf₁
  have h₂ := hRun s₂ hWf₂
  exact ⟨(delivered_unique hMail h₁ h₂).symm,
    fun i round expect inbox hCall hOut => delivered_firsts h₁ hCall hOut,
    delivered_ending h₁⟩

end

namespace Symbolic

/-- A broadcast of party 0 to party 1. -/
def cast (inst : B256) (round : UInt8) (m : Bytes) : SignedEnvelope crypto :=
  (Envelope.mkBroadcast inst Op.sign round 0 1 m).sign (10 : UInt8)

/-- Party 0's broadcast of round 1. -/
def round1 : SignedEnvelope crypto := cast (.repeatByte 32 0x2a) 1 [7]

/-- Party 0's broadcast of round 2. -/
def round2 : SignedEnvelope crypto := cast (.repeatByte 32 0x2a) 2 [8]

/-- Round 1's broadcast of another ceremony. -/
def foreign : SignedEnvelope crypto := cast (.repeatByte 32 0) 1 [7]

/-- Party 1, that collects them. -/
def receiver : Exchange crypto := Exchange.new (ctx 1 (11 : UInt8)) Op.sign [0, 1]

/-- What party 0 casts verifies. -/
theorem wellFormed_of_cast {stream : List (SignedEnvelope crypto)}
    (hCast : ∀ s ∈ stream, ∃ inst round m, s = cast inst round m) :
    receiver.WellFormed stream := by
  intro s hs _
  obtain ⟨inst, round, m, rfl⟩ := hCast s hs
  exact ⟨if_pos (beq_iff_eq.mpr rfl), m, rfl⟩

/-- Both schedules have the same mail lists. -/
theorem mail_reordered (p round : UInt8) (k : Bool) :
    receiver.mail [round1, round2] p round k = receiver.mail [round2, foreign, round1] p round k := by
  have hForeign : receiver.isMail p round k foreign = false := by
    rw [Exchange.isMail, Bool.and_eq_false_iff]
    exact Or.inl (by decide)
  have hOne : receiver.isMail p round k round1 = true → receiver.isMail p round k round2 = false := by
    intro h₁
    rw [Bool.eq_false_iff]
    intro h₂
    have hClash : round1.env.round = round2.env.round :=
      (isMail_iff.mp h₁).2.2.1.trans (isMail_iff.mp h₂).2.2.1.symm
    exact absurd hClash (by decide)
  simp only [Exchange.mail, List.filter_cons, List.filter_nil, hForeign]
  by_cases h₁ : receiver.isMail p round k round1 = true
  · simp [h₁, hOne h₁]
  · simp [h₁]

end Symbolic

open Symbolic in
/-- Round 2 arriving first, with a foreign broadcast in between, changes
nothing. -/
theorem recvRounds_schedule_reordered :
    receiver.recvRounds [(1, .Broadcasts), (2, .Broadcasts)]
        ([round2, foreign, round1].map .envelope) =
      ([⟨(∅ : PartyMap).insert 0 [7], ∅⟩, ⟨(∅ : PartyMap).insert 0 [8], ∅⟩], .done) := by
  have hCast : ∀ s ∈ [round2, foreign, round1], ∃ inst round m, s = cast inst round m := by
    simp only [List.mem_cons, List.not_mem_nil, or_false]
    rintro s (rfl | rfl | rfl)
    · exact ⟨_, _, _, rfl⟩
    · exact ⟨_, _, _, rfl⟩
    · exact ⟨_, _, _, rfl⟩
  have hEq := (recvRounds_schedule (Symbolic.ctx 1 (11 : UInt8)) Op.sign [0, 1]
    [(1, .Broadcasts), (2, .Broadcasts)] (by decide) [round1, round2] [round2, foreign, round1]
    (wellFormed_of_cast fun s hs => hCast s (by simp_all; tauto)) (wellFormed_of_cast hCast)
    mail_reordered).1
  exact hEq.trans (by decide +kernel)

end Sovra.Mpc
