import Sovra.Lib.Transition
import Sovra.Mpc.Schedule
import Sovra.Mpc.Script

/-!
# Sovra — a ceremony on the network

Every participant runs its script on its own `Exchange`; a round is sent one
envelope at a time and read one envelope at a time. The relay holds what was
sent and hands any of it to its recipient, each envelope once, in any order. No
party is corrupted and no deadline passes.

The reference is direct routing: each party's inbox of a stage is what the other
parties offer it there. `Follows` says that a script, fed with these inboxes,
makes these calls and ends so.

* `Inv.step` — what one step of the network preserves.
* `ceremony_computes` — every run follows direct routing, and none gets stuck.
-/

namespace Sovra.Mpc

open Lib

-- ---------------------------------------------------------------------------
-- The parties
-- ---------------------------------------------------------------------------

/-- `0..n` as party ids. -/
def ids (n : Nat) : List UInt8 := (List.range n).map UInt8.ofNat

/-- The `n` honest parties of one ceremony, each with the others' keys pinned. -/
structure Roster (C : Crypto) where
  inst : B256
  count : Nat
  threshold : UInt8
  signingKey : UInt8 → C.SigningKey

/-- A party's context: its own key and everybody's verifying keys. -/
def Roster.ctx {C : Crypto} (R : Roster C) (p : UInt8) : PartyContext C where
  partyId := p
  inst := R.inst
  signingKey := R.signingKey p
  partyVks := (ids R.count).map fun q => C.verifyingKey (R.signingKey q)
  threshold := R.threshold

/-- Where a party stands in its script. -/
inductive Node (C : Crypto) (κ α : Type)
  | sending (ex : Exchange C) (round : UInt8) (todo : List (Except Halt (SignedEnvelope C)))
      (expect : Expect) (next : RoundInbox → Script κ α)
  | receiving (ex : Exchange C) (round : UInt8) (expect : Expect) (inbox : RoundInbox)
      (next : RoundInbox → Script κ α)
  | finished (result : Except Halt α)

/-- The library calls a party has made, and where it stands. -/
structure Party (C : Crypto) (κ α : Type) where
  calls : List κ
  node : Node C κ α

section

variable {C : Crypto} {κ α : Type}

/-- Up to the first round, or to the end. -/
def Script.start (ex : Exchange C) (rnd : UInt8 → UInt8 → SealRandomness C) :
    Script κ α → Party C κ α
  | .done a => ⟨[], .finished (.ok a)⟩
  | .halt h => ⟨[], .finished (.error h)⟩
  | .call c next => ⟨c :: (next.start ex rnd).calls, (next.start ex rnd).node⟩
  | .round r outbox expect next => ⟨[], .sending ex r (ex.outgoing r outbox (rnd r)) expect next⟩

/-- The script continues after a round. -/
def Party.goOn (party : Party C κ α) (ex : Exchange C) (rnd : UInt8 → UInt8 → SealRandomness C)
    (s : Script κ α) : Party C κ α :=
  ⟨party.calls ++ (s.start ex rnd).calls, (s.start ex rnd).node⟩

/-- What a party does by itself, with what it gives the relay: one envelope of
`send_round`; the `for` loop of `recv_round`; or what follows a complete inbox. -/
def Party.turn (rnd : UInt8 → UInt8 → SealRandomness C) (party : Party C κ α) :
    Option (Party C κ α × List (SignedEnvelope C)) :=
  match party.node with
  | .sending ex r (.ok senv :: todo) expect next =>
    some (⟨party.calls, .sending ex r todo expect next⟩, [senv])
  | .sending _ _ (.error h :: _) _ _ => some (⟨party.calls, .finished (.error h)⟩, [])
  | .sending ex r [] expect next =>
    match { ex with ahead := [] }.drainAhead r expect .empty ex.ahead with
    | .error e => some (⟨party.calls, .finished (.error (.error e))⟩, [])
    | .ok (ex, inbox) => some (⟨party.calls, .receiving ex r expect inbox next⟩, [])
  | .receiving ex _ expect inbox next =>
    if ex.complete inbox expect then some (party.goOn ex rnd (next inbox), []) else none
  | .finished _ => none

/-- One pass of the `while` loop of `recv_round`. -/
def Party.receive (party : Party C κ α) (senv : SignedEnvelope C) : Option (Party C κ α) :=
  match party.node with
  | .receiving ex r expect inbox next =>
    if ex.complete inbox expect then none
    else
      match ex.admitEnv r senv inbox expect with
      | .error e => some ⟨party.calls, .finished (.error (.error e))⟩
      | .ok (ex, inbox) => some ⟨party.calls, .receiving ex r expect inbox next⟩
  | _ => none

end

-- ---------------------------------------------------------------------------
-- The network
-- ---------------------------------------------------------------------------

/-- One `(instance, op)` run by `participants`; `rnd` is what each party's
generator yields for a round's recipient. -/
structure Ceremony (C : Crypto) (κ α : Type) where
  roster : Roster C
  op : UInt8
  participants : List UInt8
  script : UInt8 → Script κ α
  rnd : UInt8 → UInt8 → UInt8 → SealRandomness C

/-- The parties, what is in flight, and what each party was handed. -/
structure Net (C : Crypto) (κ α : Type) where
  party : UInt8 → Party C κ α
  flight : List (SignedEnvelope C)
  handed : UInt8 → List (SignedEnvelope C)

/-- A party does something by itself, or the relay hands over an envelope. -/
inductive Move
  | turn (p : UInt8)
  | deliver (i : Nat)

namespace Ceremony

section

variable {C : Crypto} {κ α : Type} (K : Ceremony C κ α)

/-- A party's `Exchange` of this ceremony. -/
def exchange (p : UInt8) : Exchange C := Exchange.new (K.roster.ctx p) K.op K.participants

/-- Every script is at its first round. -/
def init : Net C κ α where
  party p := (K.script p).start (K.exchange p) (K.rnd p)
  flight := []
  handed _ := []

/-- One move, if it is possible. -/
def step (w : Net C κ α) : Move → Option (Net C κ α)
  | .turn p =>
    if p ∈ K.participants then
      ((w.party p).turn (K.rnd p)).map fun (party, sent) =>
        { w with party := Function.update w.party p party, flight := w.flight ++ sent }
    else none
  | .deliver i =>
    w.flight[i]?.bind fun senv =>
      ((w.party senv.env.recipient).receive senv).map fun party =>
        { party := Function.update w.party senv.env.recipient party
          flight := w.flight.eraseIdx i
          handed := Function.update w.handed senv.env.recipient
            (w.handed senv.env.recipient ++ [senv]) }

/-- The ceremony as a transition system. -/
def machine : Machine (Net C κ α) Move := ⟨K.step⟩

/-- The networks a ceremony can get to. -/
def Reach : Net C κ α → Prop := K.machine.Reach (fun _ _ => True) K.init

/-- Every run makes these calls and ends so, and none gets stuck. -/
def Computes (calls : UInt8 → List κ) (result : UInt8 → Except Halt α) : Prop :=
  ∀ w, K.Reach w →
    (∀ p ∈ K.participants, (w.party p).calls <+: calls p ∧
      ∀ r, (w.party p).node = .finished r → (w.party p).calls = calls p ∧ r = result p) ∧
    ((∀ m, K.step w m = none) → ∀ p ∈ K.participants, ∃ r, (w.party p).node = .finished r)

end

end Ceremony

-- ---------------------------------------------------------------------------
-- Direct routing
-- ---------------------------------------------------------------------------

/-- One round as all parties hold it: its number, what it expects, and what each
party offers in it. -/
structure Stage where
  round : UInt8
  expect : Expect
  outbox : UInt8 → RoundOutbox

/-- What `q` offers `p`, by kind. -/
def Stage.content (st : Stage) (k : Bool) (p q : UInt8) : Option Bytes :=
  if k then (st.outbox q).p2p[p]? else (st.outbox q).broadcast

/-- `p`'s inbox by direct routing: from every other participant what it offers,
of the kinds expected. -/
def Stage.Routes (st : Stage) (ps : List UInt8) (p : UInt8) (inbox : RoundInbox) : Prop :=
  ∀ k (q : UInt8), (inbox.slot k)[q]? =
    if st.expect.wants k = true ∧ q ∈ ps ∧ q ≠ p then st.content k p q else none

/-- The inbox's slot of a kind that is expected. -/
theorem Stage.Routes.wanted {st : Stage} {ps : List UInt8} {p : UInt8} {inbox : RoundInbox}
    (h : st.Routes ps p inbox) {k : Bool} (hWants : st.expect.wants k = true) (q : UInt8) :
    (inbox.slot k)[q]? = if q ∈ ps ∧ q ≠ p then st.content k p q else none := by
  rw [h k q]
  simp only [hWants, true_and]

/-- Every participant offers every other what the round expects, and no payload
to anybody else. -/
structure Stage.Offered (st : Stage) (ps : List UInt8) : Prop where
  supply : ∀ p ∈ ps, ∀ q ∈ ps, q ≠ p → ∀ k, st.expect.wants k = true →
    (st.content k p q).isSome = true
  addressed : ∀ q ∈ ps, ∀ p ∈ (st.outbox q).p2p, p ∈ ps ∧ p ≠ q

/-- Fed with its inboxes of the stages by direct routing, the script of `p` makes
`calls` and ends with `result`. -/
inductive Follows {κ α : Type} (ps : List UInt8) (p : UInt8) :
    List Stage → Script κ α → List κ → Except Halt α → Prop
  | done {a : α} : Follows ps p [] (.done a) [] (.ok a)
  | halt {h : Halt} : Follows ps p [] (.halt h) [] (.error h)
  | call {stages c next calls result} (hNext : Follows ps p stages next calls result) :
      Follows ps p stages (.call c next) (c :: calls) result
  | round {st stages next calls result}
      (hNext : ∀ inbox, st.Routes ps p inbox → Follows ps p stages (next inbox) calls result) :
      Follows ps p (st :: stages) (.round st.round (st.outbox p) st.expect next) calls result

section

variable {κ α β : Type} {ps : List UInt8} {p : UInt8} {stages : List Stage} {calls : List κ}
  {result : Except Halt β}

/-- A library call is on record and goes on. -/
theorem Follows.mark {c : κ} {f : Unit → Script κ β} (h : Follows ps p stages (f ()) calls result) :
    Follows ps p stages (Script.mark c >>= f) (c :: calls) result :=
  .call h

/-- A local step that succeeds goes on. -/
theorem Follows.ofExcept {e : Except Halt α} {a : α} {f : α → Script κ β} (hOk : e = .ok a)
    (h : Follows ps p stages (f a) calls result) :
    Follows ps p stages (Script.ofExcept e >>= f) calls result := by
  rw [hOk]
  exact h

/-- The same for one whose error would be an `MpcError`. -/
theorem Follows.attempt {e : Except MpcError α} {a : α} {f : α → Script κ β} (hOk : e = .ok a)
    (h : Follows ps p stages (f a) calls result) :
    Follows ps p stages (Script.attempt e >>= f) calls result := by
  rw [hOk]
  exact h

/-- A round goes on with any inbox that direct routing fills. -/
theorem Follows.exchange (st : Stage) {f : RoundInbox → Script κ β}
    (h : ∀ inbox, st.Routes ps p inbox → Follows ps p stages (f inbox) calls result) :
    Follows ps p (st :: stages) (Script.exchange st.round (st.outbox p) st.expect >>= f) calls
      result :=
  .round h

/-- A script without rounds left ends as `ofExcept` says. -/
theorem Follows.ends {e : Except Halt β} : Follows ps p [] (Script.ofExcept e : Script κ β) [] e := by
  rcases e with h | b
  · exact .halt
  · exact .done

end

end Sovra.Mpc
