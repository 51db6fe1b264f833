import Sovra.Ipc.Delivery
import Sovra.Mpc.Simulation

/-!
# Sovra — the relay plane

A ceremony over the hub, with its sockets: every party runs its script through
`WsEnvelopeRelay`, the hub runs one `serve_env` task for each of them, and each
direction of a socket is a FIFO of finite capacity on which a write waits while
it is full. A frame is what the two formats make of its bytes.

The clock stands still: no unclaimed mailbox is ever too old. A party that has
finished has dropped its connection; the hub reads what is left in it, and a
write to it fails.

* `frame_wire` — the byte formats read a frame as this model does.
-/

namespace Sovra.Ipc

open Lib Mpc

-- ---------------------------------------------------------------------------
-- Frames
-- ---------------------------------------------------------------------------

/-- What a party writes to its socket. -/
inductive Frame (C : Crypto)
  | join (key : Key)
  | envelope (senv : SignedEnvelope C)

section

variable {C : Crypto}

/-- What the hub reads of a frame. -/
def frameFraming : Framing (Frame C) where
  join
    | .join key => some key
    | .envelope _ => none
  route
    | .join _ => none
    | .envelope senv => some (senv.env.inst, senv.env.recipient)

variable (sigBytes : C.Signature ≃ FixedBytes 64)

/-- The bytes of a frame on the socket. -/
def Frame.bytes : Frame C → Bytes
  | .join key => Join.encode ⟨key.1, key.2⟩
  | .envelope senv => senv.encode sigBytes

/-- The peeks at a frame's bytes see the frame. -/
theorem frame_wire (frame : Frame C) :
    wireFraming.join (frame.bytes sigBytes) = frameFraming.join frame ∧
      wireFraming.route (frame.bytes sigBytes) = frameFraming.route frame := by
  rcases frame with key | senv
  · constructor
    · show (Join.decode (Join.encode ⟨key.1, key.2⟩)).map (fun j => (j.inst, j.partyId)) = some key
      rw [Join.decode_eq_some.mpr rfl]
      rfl
    · exact join_not_routable ⟨key.1, key.2⟩
  · have hRoute : peekRoute (senv.encode sigBytes) = some (senv.env.inst, senv.env.recipient) :=
      peekRoute_encode senv
    refine ⟨?_, hRoute⟩
    show (Join.decode (senv.encode sigBytes)).map (fun j => (j.inst, j.partyId)) = none
    rcases hDecode : Join.decode (senv.encode sigBytes) with _ | j
    · rfl
    · rw [Join.decode_eq_some.mp hDecode, join_not_routable] at hRoute
      simp at hRoute

end

-- ---------------------------------------------------------------------------
-- The parties at their sockets
-- ---------------------------------------------------------------------------

section

variable {C : Crypto} {κ α : Type}

/-- The run has ended, and with it the connection. -/
def ended (party : Party C κ α) : Bool :=
  match party.node with
  | .finished _ => true
  | _ => false

/-- `WsEnvelopeRelay::recv` in the loop of `recv_round`: a frame that is no
envelope does not decode. -/
def readFrame (party : Party C κ α) : Frame C → Option (Party C κ α)
  | .envelope senv => party.receive senv
  | .join _ =>
    match party.node with
    | .receiving ex _ expect inbox _ =>
      if ex.complete inbox expect then none
      else some ⟨party.calls, .finished (.error (.error (malformed "unknown domain/version")))⟩
    | _ => none

/-- How many frames each party's socket holds in each direction. -/
structure Capacity where
  up : UInt8 → Nat
  down : UInt8 → Nat

/-- Every direction holds a frame. -/
def Capacity.Positive (cap : Capacity) : Prop := ∀ p, 1 ≤ cap.up p ∧ 1 ≤ cap.down p

/-- The parties, what each was handed, the sockets in both directions, and the
hub; `failed` once a write to a socket has. -/
structure Plane (C : Crypto) (κ α : Type) where
  party : UInt8 → Party C κ α
  handed : UInt8 → List (SignedEnvelope C)
  up : UInt8 → List (Frame C)
  down : UInt8 → List (Frame C)
  hub : Hub.World (Frame C)
  failed : Bool

/-- What a party does: dial, send or compute, read. What its task at the hub
does: read the socket, take from the mailbox, write to the socket, clean up. -/
inductive Act
  | dial (p : UInt8)
  | turn (p : UInt8)
  | read (p : UInt8)
  | hubRead (p : UInt8)
  | hubTake (p : UInt8)
  | hubWrite (p : UInt8)
  | cleanup (p : UInt8)

/-- Whose connection an action is about. -/
def Act.party : Act → UInt8
  | .dial p | .turn p | .read p | .hubRead p | .hubTake p | .hubWrite p | .cleanup p => p

namespace Plane

variable (K : Ceremony C κ α) (cap : Capacity)

/-- Where the hub keeps `p`'s mail. -/
def mailbox (p : UInt8) : Key := (K.roster.inst, p)

/-- No party has dialled; every mailbox is still to be created. -/
def init (ttl : Nat) : Plane C κ α where
  party := K.init.party
  handed _ := []
  up _ := []
  down _ := []
  hub := Hub.World.init ttl
  failed := false

/-- The task that serves `p`'s socket. -/
def task (w : Plane C κ α) (p : UInt8) : Option (Serve (Frame C)) := w.hub.tasks p.toNat

/-- A step of the task that serves `p`. -/
def serve (w : Plane C κ α) (a : Hub.Action (Frame C)) : Option (Plane C κ α) :=
  (Hub.step frameFraming w.hub a).map fun hub => { w with hub }

/-- One action, where it is enabled and its socket has room. -/
def act (w : Plane C κ α) : Act → Option (Plane C κ α)
  | .dial p =>
    (w.serve (.accept p.toNat)).map fun w =>
      { w with up := Function.update w.up p [.join (mailbox K p)] }
  | .turn p =>
    if (w.task p).isSome then
      ((w.party p).turn (K.rnd p)).bind fun (party, out) =>
        if out = [] ∨ (w.up p).length < cap.up p then
          some { w with
            party := Function.update w.party p party
            up := Function.update w.up p (w.up p ++ out.map .envelope) }
        else none
    else none
  | .read p =>
    match w.down p with
    | [] => none
    | frame :: rest =>
      (readFrame (w.party p) frame).map fun party =>
        { w with
          party := Function.update w.party p party
          down := Function.update w.down p rest
          handed := match frame with
            | .envelope senv => Function.update w.handed p (w.handed p ++ [senv])
            | .join _ => w.handed }
  | .hubRead p =>
    match w.up p with
    | frame :: rest =>
      (w.serve (.inbound p.toNat (.binary frame))).map fun w =>
        { w with up := Function.update w.up p rest }
    | [] => if ended (w.party p) then w.serve (.inbound p.toNat .closed) else none
  | .hubTake p => w.serve (.outbound p.toNat)
  | .hubWrite p =>
    match w.task p with
    | some (.writing _ _ frame) =>
      if ended (w.party p) then
        (w.serve (.written p.toNat false)).map fun w => { w with failed := true }
      else if (w.down p).length < cap.down p then
        (w.serve (.written p.toNat true)).map fun w =>
          { w with down := Function.update w.down p (w.down p ++ [frame]) }
      else none
    | _ => none
  | .cleanup p => w.serve (.cleanup p.toNat)

/-- One step of a party or of its task at the hub. -/
def step (w : Plane C κ α) (a : Act) : Option (Plane C κ α) :=
  if a.party ∈ K.participants then act K cap w a else none

/-- The plane as a transition system. -/
def machine : Machine (Plane C κ α) Act := ⟨step K cap⟩

/-- The states any schedule reaches. -/
def Reach (ttl : Nat) : Plane C κ α → Prop :=
  (machine K cap).Reach (fun _ _ => True) (init K ttl)

/-- Some participant has not finished. -/
def Unfinished (w : Plane C κ α) : Prop := ∃ p ∈ K.participants, ended (w.party p) = false

/-- While somebody is unfinished and no connection failed, something can happen. -/
def Progresses (ttl : Nat) : Prop :=
  ∀ w, Reach K cap ttl w → w.failed = false → Unfinished K w →
    ∃ a w', step K cap w a = some w'

/-- `p` waits to write to its full socket, and its task at the hub, which would
empty it, waits to write to the other direction, which only `p` would empty. -/
def TwoWay (w : Plane C κ α) (p : UInt8) : Prop :=
  (∃ ex r senv todo expect next,
    (w.party p).node = .sending ex r (.ok senv :: todo) expect next) ∧
  cap.up p ≤ (w.up p).length ∧
  (∃ key chan frame, w.task p = some (.writing key chan frame)) ∧
  cap.down p ≤ (w.down p).length

end Plane

end

end Sovra.Ipc
