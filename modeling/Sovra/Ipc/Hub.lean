import Sovra.Ipc.Frames
import Sovra.Lib.Transition

/-!
# Sovra — the envelope hub

`hub.rs`: `EnvelopeHub` and the tasks `serve_env` runs, one per socket. A
mailbox is created on first use, claimed by the first joiner, swept when it
stays unclaimed past its ttl, and removed with its claimer. Frames are opaque
but for what the two peeks read of them (`Framing`).

A step is one uninterrupted stretch of a task, or the passage of time; what the
sockets do is chosen freely. The world also records what was delivered (`log`),
where in that record each channel was opened (`since`), who claimed what
(`claims`) and what was handed to each socket (`sent`): no step reads these.

* `Hub.Inv.step`, `Hub.inv_of_reach` — one claimer for a mailbox, and its mail
  is what was delivered, in order, less what was handed to the socket.
* `Hub.step_change` — what one step can do to the hub, one case for each kind of change.
-/

namespace Sovra.Ipc

open Lib Mpc

/-- What a mailbox is kept under: `(instance, party)`. -/
abbrev Key := B256 × UInt8

/-- What the hub reads of a frame: the claim of a join, the route of an
envelope. -/
structure Framing (F : Type) where
  join : F → Option Key
  route : F → Option Key

/-- The two wire formats. -/
def wireFraming : Framing Bytes where
  join bytes := (Join.decode bytes).map fun j => (j.inst, j.partyId)
  route := peekRoute

/-- `Mailbox`: the channel its `tx` feeds, and whether `rx` is still here. -/
structure Mailbox where
  chan : Nat
  rx : Bool
  created : Nat
deriving DecidableEq

/-- `EnvelopeHub`, with the unbounded channels by number: what waits in each, and
whether its receiver was dropped. -/
structure EnvelopeHub (F : Type) where
  mailboxes : Key → Option Mailbox
  queues : Nat → List F
  dropped : Nat → Bool
  fresh : Nat
  unclaimedTtl : Nat

namespace EnvelopeHub

variable {F : Type}

/-- An empty hub with the given ttl for unclaimed mailboxes. -/
def new (unclaimedTtl : Nat) : EnvelopeHub F :=
  ⟨fun _ => none, fun _ => [], fun _ => false, 0, unclaimedTtl⟩

/-- The test of `sweep`: claimed, or younger than the ttl. -/
def keeps (h : EnvelopeHub F) (now : Nat) (m : Mailbox) : Bool :=
  !m.rx || decide (now - m.created < h.unclaimedTtl)

/-- `sweep`: the mailboxes the test does not keep are gone, with what waits in them. -/
def sweep (h : EnvelopeHub F) (now : Nat) : EnvelopeHub F :=
  { h with mailboxes := fun key => (h.mailboxes key).filter (h.keeps now) }

/-- `boxes.entry(key).or_insert_with(Mailbox::new)`. -/
def entry (h : EnvelopeHub F) (now : Nat) (key : Key) : EnvelopeHub F × Mailbox :=
  match h.mailboxes key with
  | some m => (h, m)
  | none =>
    let m : Mailbox := ⟨h.fresh, true, now⟩
    ({ h with mailboxes := Function.update h.mailboxes key (some m), fresh := h.fresh + 1 }, m)

/-- `claim`: the receiver, if nobody has it yet. -/
def claim (h : EnvelopeHub F) (now : Nat) (key : Key) : EnvelopeHub F × Option Nat :=
  let (h, m) := (h.sweep now).entry now key
  if m.rx then
    ({ h with mailboxes := Function.update h.mailboxes key (some { m with rx := false }) },
      some m.chan)
  else (h, none)

/-- `deliver`: a send to a dropped receiver is lost. -/
def deliver (h : EnvelopeHub F) (now : Nat) (key : Key) (frame : F) : EnvelopeHub F :=
  let (h, m) := (h.sweep now).entry now key
  if h.dropped m.chan then h
  else { h with queues := Function.update h.queues m.chan (h.queues m.chan ++ [frame]) }

/-- `remove`: the claimer's cleanup. -/
def remove (h : EnvelopeHub F) (key : Key) : EnvelopeHub F :=
  { h with mailboxes := Function.update h.mailboxes key none }

end EnvelopeHub

-- ---------------------------------------------------------------------------
-- The tasks
-- ---------------------------------------------------------------------------

/-- Where a `serve_env` task stands: before its join, in the `select!`, in
`socket.send`, past the loop and about to clean up, or returned. -/
inductive Serve (F : Type)
  | joining
  | serving (key : Key) (chan : Nat)
  | writing (key : Key) (chan : Nat) (frame : F)
  | leaving (key : Key) (chan : Nat)
  | returned

/-- What `socket.recv()` yields. -/
inductive Received (F : Type)
  | binary (frame : F)
  | other
  | closed

namespace Hub

variable {F : Type}

/-- A hub, its clock and its tasks, and four records no step reads. -/
structure World (F : Type) where
  hub : EnvelopeHub F
  now : Nat
  tasks : Nat → Option (Serve F)
  claims : Nat → Option (Key × Nat)
  sent : Nat → List F
  log : List (Key × F)
  since : Nat → Nat

/-- Time passes, a socket connects, yields a message, takes a frame or finishes a
write, or a task cleans up. -/
inductive Action (F : Type)
  | tick (elapsed : Nat)
  | accept (i : Nat)
  | inbound (i : Nat) (msg : Received F)
  | outbound (i : Nat)
  | written (i : Nat) (ok : Bool)
  | cleanup (i : Nat)

/-- A hub that was just started. -/
def World.init (unclaimedTtl : Nat) : World F :=
  ⟨.new unclaimedTtl, 0, fun _ => none, fun _ => none, fun _ => [], [], fun _ => 0⟩

/-- Task `i` moves on; the hub and the records stay. -/
def World.goto (w : World F) (i : Nat) (task : Serve F) : World F :=
  { w with tasks := Function.update w.tasks i (some task) }

/-- The hub after one of its operations; a channel it opened counts from here. -/
def World.setHub (w : World F) (hub : EnvelopeHub F) : World F :=
  { w with hub, since := fun c => if w.hub.fresh ≤ c then w.log.length else w.since c }

/-- `hub.deliver`, recorded. -/
def World.route (w : World F) (key : Key) (frame : F) : World F :=
  { w.setHub (w.hub.deliver w.now key frame) with log := w.log ++ [(key, frame)] }

/-- `hub.claim` by socket `i`. -/
def World.join (w : World F) (i : Nat) (key : Key) : World F :=
  match w.hub.claim w.now key with
  | (hub, none) => (w.setHub hub).goto i .returned
  | (hub, some chan) =>
    { (w.setHub hub).goto i (.serving key chan) with
      claims := Function.update w.claims i (some (key, chan)) }

/-- `rx.recv()` yields `frame`, with `rest` behind it, and the write starts. -/
def World.take (w : World F) (i : Nat) (key : Key) (chan : Nat) (frame : F) (rest : List F) :
    World F :=
  { w.goto i (.writing key chan frame) with
    hub := { w.hub with queues := Function.update w.hub.queues chan rest }
    sent := Function.update w.sent i (w.sent i ++ [frame]) }

/-- `hub.remove`, and the receiver goes out of scope. -/
def World.leave (w : World F) (i : Nat) (key : Key) (chan : Nat) : World F :=
  { w.goto i .returned with
    hub := { w.hub.remove key with dropped := Function.update w.hub.dropped chan true } }

/-- `socket.recv()` of task `i` yields `msg`. -/
def receive (Fr : Framing F) (w : World F) (i : Nat) (msg : Received F) :
    Serve F → Option (World F)
  | .joining =>
    match msg with
    | .binary frame =>
      match Fr.join frame with
      | some key => some (w.join i key)
      | none => some (w.goto i .returned)
    | .other => some w
    | .closed => some (w.goto i .returned)
  | .serving key chan =>
    match msg with
    | .binary frame =>
      match Fr.route frame with
      | some to_ => some (w.route to_ frame)
      | none => some w
    | .other => some w
    | .closed => some (w.goto i (.leaving key chan))
  | _ => none

/-- One uninterrupted stretch of a task. `none`: the task is elsewhere, or blocked. -/
def step (Fr : Framing F) (w : World F) : Action F → Option (World F)
  | .tick elapsed => some { w with now := w.now + elapsed }
  | .accept i =>
    match w.tasks i with
    | none => some (w.goto i .joining)
    | some _ => none
  | .inbound i msg => (w.tasks i).bind (receive Fr w i msg)
  | .outbound i =>
    match w.tasks i with
    | some (.serving key chan) =>
      match w.hub.queues chan with
      | frame :: rest => some (w.take i key chan frame rest)
      | [] =>
        -- the channel's only sender is the mailbox
        if (w.hub.mailboxes key).map Mailbox.chan = some chan then none
        else some (w.goto i (.leaving key chan))
    | _ => none
  | .written i ok =>
    match w.tasks i with
    | some (.writing key chan _) =>
      some (w.goto i (if ok then .serving key chan else .leaving key chan))
    | _ => none
  | .cleanup i =>
    match w.tasks i with
    | some (.leaving key chan) => some (w.leave i key chan)
    | _ => none

/-- The hub as a transition system. -/
def machine (Fr : Framing F) : Machine (World F) (Action F) := ⟨step Fr⟩

/-- The worlds any schedule of tasks, sockets and clock reaches. -/
def Reach (Fr : Framing F) : World F → World F → Prop :=
  (machine Fr).Reach fun _ _ => True

-- ---------------------------------------------------------------------------
-- The invariant
-- ---------------------------------------------------------------------------

/-- The mailbox and the channel a task has claimed and not yet given up. -/
def held : Serve F → Option (Key × Nat)
  | .serving key chan | .writing key chan _ | .leaving key chan => some (key, chan)
  | .joining | .returned => none

/-- What task `i` holds. -/
def World.holds (w : World F) (i : Nat) : Option (Key × Nat) := (w.tasks i).bind held

/-- What was delivered to `key` since `chan` was opened, in order. -/
def World.delivered (w : World F) (key : Key) (chan : Nat) : List F :=
  ((w.log.drop (w.since chan)).filter fun e => e.1 = key).map Prod.snd

/-- What holds of a hub in every state: channels are new when they are opened, a
mailbox has one claimer, and no frame gets lost between the record and a socket. -/
structure Inv (Fr : Framing F) (w : World F) : Prop where
  opened : ∀ key m, w.hub.mailboxes key = some m → m.chan < w.hub.fresh
  apart : ∀ key key' m m', w.hub.mailboxes key = some m → w.hub.mailboxes key' = some m' →
    m.chan = m'.chan → key = key'
  present : ∀ key m, w.hub.mailboxes key = some m → w.hub.dropped m.chan = false
  /-- In an unclaimed mailbox waits all that was delivered to it. -/
  waiting : ∀ key m, w.hub.mailboxes key = some m → m.rx = true →
    w.hub.queues m.chan = w.delivered key m.chan
  /-- Who holds a mailbox holds the one in the map, which is claimed. -/
  holder : ∀ i key chan, w.holds i = some (key, chan) →
    ∃ m, w.hub.mailboxes key = some m ∧ m.chan = chan ∧ m.rx = false
  /-- Who holds a mailbox holds it alone. -/
  alone : ∀ i j key chan chan', w.holds i = some (key, chan) → w.holds j = some (key, chan') →
    i = j
  /-- What was delivered was handed over or waits. -/
  handed : ∀ i key chan, w.holds i = some (key, chan) →
    w.sent i ++ w.hub.queues chan = w.delivered key chan
  claimer : ∀ i key chan, w.holds i = some (key, chan) → w.claims i = some (key, chan)
  /-- What was handed over stays the beginning of what is delivered, also when the
  mailbox is gone. -/
  claimed : ∀ i key chan, w.claims i = some (key, chan) →
    chan < w.hub.fresh ∧ w.sent i <+: w.delivered key chan
  silent : ∀ i, w.claims i = none → w.sent i = []
  unclaimed : ∀ i, w.tasks i = none ∨ w.tasks i = some .joining → w.claims i = none
  unopened : ∀ c, w.hub.fresh ≤ c → w.hub.queues c = [] ∧ w.hub.dropped c = false
  past : ∀ c, w.since c ≤ w.log.length
  routed : ∀ e ∈ w.log, Fr.route e.2 = some e.1

/-- An empty hub has nothing to keep apart. -/
theorem inv_init (Fr : Framing F) (ttl : Nat) : Inv Fr (World.init ttl) := by
  constructor <;> simp [World.init, EnvelopeHub.new, World.holds]

section

variable {Fr : Framing F} {w : World F}

/-- A task that only moves on keeps what it holds. -/
theorem Inv.goto (h : Inv Fr w) {i : Nat} {task : Serve F} (hHeld : held task = w.holds i)
    (hClaims : task = .joining → w.claims i = none) : Inv Fr (w.goto i task) := by
  have hHolds : (w.goto i task).holds = w.holds := by
    funext j
    show (Function.update w.tasks i (some task) j).bind held = w.holds j
    by_cases hj : j = i
    · rw [hj, Function.update_self, Option.bind_some, hHeld]
    · rw [Function.update_of_ne hj]
      rfl
  refine { h with
    holder := by rw [hHolds]; exact h.holder
    alone := by rw [hHolds]; exact h.alone
    handed := by rw [hHolds]; exact h.handed
    claimer := by rw [hHolds]; exact h.claimer
    unclaimed := ?_ }
  intro j hTask
  by_cases hj : j = i
  · subst hj
    change Function.update w.tasks j (some task) j = none ∨
      Function.update w.tasks j (some task) j = some .joining at hTask
    rw [Function.update_self] at hTask
    rcases hTask with hTask | hTask
    · simp at hTask
    · exact hClaims (Option.some.inj hTask)
  · refine h.unclaimed j ?_
    change Function.update w.tasks i (some task) j = none ∨
      Function.update w.tasks i (some task) j = some .joining at hTask
    rwa [Function.update_of_ne hj] at hTask

-- ---------------------------------------------------------------------------
-- Looking up a mailbox
-- ---------------------------------------------------------------------------

/-- The hub as an operation on `key` finds it: swept, with a mailbox for `key`. -/
def World.looked (w : World F) (key : Key) : World F :=
  w.setHub ((w.hub.sweep w.now).entry w.now key).1

/-- The mailbox that operation finds. -/
def World.box (w : World F) (key : Key) : Mailbox := ((w.hub.sweep w.now).entry w.now key).2

/-- A mailbox survives the sweep where it was and passes the test. -/
theorem sweep_eq_some {h : EnvelopeHub F} {now : Nat} {key : Key} {m : Mailbox} :
    (h.sweep now).mailboxes key = some m ↔ h.mailboxes key = some m ∧ h.keeps now m = true :=
  Option.filter_eq_some_iff

/-- Where a mailbox of the looked-up hub comes from. -/
theorem looked_mailboxes {key k : Key} {m : Mailbox}
    (h : (w.looked key).hub.mailboxes k = some m) :
    (w.hub.mailboxes k = some m ∧ w.hub.keeps w.now m = true) ∨
      (k = key ∧ m = ⟨w.hub.fresh, true, w.now⟩ ∧ (w.hub.sweep w.now).mailboxes key = none ∧
        (w.looked key).hub.fresh = w.hub.fresh + 1) := by
  simp only [World.looked, World.setHub, EnvelopeHub.entry] at h ⊢
  split at h
  · exact Or.inl (sweep_eq_some.mp h)
  rename_i hNone
  by_cases hk : k = key
  · subst hk
    simp only [Function.update_self, Option.some.injEq] at h
    exact Or.inr ⟨rfl, h.symm, hNone, rfl⟩
  · simp only [Function.update_of_ne hk] at h
    exact Or.inl (sweep_eq_some.mp h)

/-- After the lookup there is a mailbox for the key. -/
theorem looked_box (w : World F) (key : Key) :
    (w.looked key).hub.mailboxes key = some (w.box key) := by
  simp only [World.looked, World.setHub, World.box, EnvelopeHub.entry]
  split
  · rename_i m hSome
    exact hSome
  · exact Function.update_self ..

/-- What survives the sweep is found as it was. -/
theorem looked_kept {key k : Key} {m : Mailbox} (hBox : w.hub.mailboxes k = some m)
    (hKeeps : w.hub.keeps w.now m = true) : (w.looked key).hub.mailboxes k = some m := by
  have hSwept := sweep_eq_some.mpr ⟨hBox, hKeeps⟩
  simp only [World.looked, World.setHub, EnvelopeHub.entry]
  split
  · exact hSwept
  · rename_i hNone
    have hk : k ≠ key := by
      rintro rfl
      rw [hSwept] at hNone
      simp at hNone
    simp only [Function.update_of_ne hk]
    exact hSwept

/-- Looking up a key closes no channel number. -/
theorem looked_fresh (w : World F) (key : Key) : w.hub.fresh ≤ (w.looked key).hub.fresh := by
  simp only [World.looked, World.setHub, EnvelopeHub.entry]
  split
  · exact le_refl _
  · exact Nat.le_succ _

/-- Looking up a key changes neither what waits in the channels nor who reads them. -/
theorem looked_queues (w : World F) (key : Key) :
    (w.looked key).hub.queues = w.hub.queues ∧ (w.looked key).hub.dropped = w.hub.dropped := by
  simp only [World.looked, World.setHub, EnvelopeHub.entry]
  split <;> exact ⟨rfl, rfl⟩

/-- Channels that were open keep their place in the record; a new one starts at
its end. -/
theorem looked_delivered (w : World F) (key k : Key) (c : Nat) :
    (w.looked key).delivered k c = if w.hub.fresh ≤ c then [] else w.delivered k c := by
  show (((w.log.drop (if w.hub.fresh ≤ c then w.log.length else w.since c)).filter
    fun e => e.1 = k).map Prod.snd) = _
  split
  · simp
  · rfl

/-- A new mailbox is empty and has a new channel: it is apart from the others, and
all that was delivered to it, nothing, waits in it. -/
theorem Inv.looked (h : Inv Fr w) (key : Key) : Inv Fr (w.looked key) := by
  have hOld : ∀ {k c}, c < w.hub.fresh → (w.looked key).delivered k c = w.delivered k c := by
    intro k c hc
    rw [looked_delivered, if_neg (by omega)]
  have hLe := looked_fresh w key
  obtain ⟨hQueues, hDropped⟩ := looked_queues w key
  have hClaimedBox : ∀ {i k chan}, w.holds i = some (k, chan) → chan < w.hub.fresh := by
    intro i k chan hHolds
    exact (h.claimed i k chan (h.claimer i k chan hHolds)).1
  exact { h with
    opened := by
      intro k m hBox
      -- an old mailbox with an old channel, or the new one with the next
      rcases looked_mailboxes hBox with ⟨hBox, -⟩ | ⟨-, rfl, -, hFresh⟩
      · exact lt_of_lt_of_le (h.opened k m hBox) hLe
      · rw [hFresh]
        exact Nat.lt_succ_self _
    apart := by
      intro k k' m m' hBox hBox' hChan
      -- the new mailbox's channel was never open, so no old mailbox has it
      rcases looked_mailboxes hBox with ⟨hOldBox, -⟩ | ⟨hKey, hNew, -⟩ <;>
        rcases looked_mailboxes hBox' with ⟨hOldBox', -⟩ | ⟨hKey', hNew', -⟩
      · exact h.apart k k' m m' hOldBox hOldBox' hChan
      · have hLt := h.opened k m hOldBox
        rw [hChan, hNew'] at hLt
        exact absurd hLt (lt_irrefl _)
      · have hLt := h.opened k' m' hOldBox'
        rw [← hChan, hNew] at hLt
        exact absurd hLt (lt_irrefl _)
      · rw [hKey, hKey']
    present := by
      intro k m hBox
      rw [hDropped]
      rcases looked_mailboxes hBox with ⟨hBox, -⟩ | ⟨-, rfl, -⟩
      · exact h.present k m hBox
      · exact (h.unopened _ (le_refl _)).2
    waiting := by
      intro k m hBox hRx
      rw [hQueues]
      rcases looked_mailboxes hBox with ⟨hBox, -⟩ | ⟨-, rfl, -⟩
      · rw [hOld (h.opened k m hBox)]
        exact h.waiting k m hBox hRx
      · -- nothing waits in the new mailbox, and its record starts here
        rw [looked_delivered, if_pos (le_refl _)]
        exact (h.unopened _ (le_refl _)).1
    holder := by
      intro i k chan hHolds
      -- a claimed mailbox survives the sweep
      obtain ⟨m, hBox, hChan, hRx⟩ := h.holder i k chan hHolds
      exact ⟨m, looked_kept hBox (by simp [EnvelopeHub.keeps, hRx]), hChan, hRx⟩
    handed := by
      intro i k chan hHolds
      rw [hQueues, hOld (hClaimedBox hHolds)]
      exact h.handed i k chan hHolds
    claimed := by
      intro i k chan hClaim
      obtain ⟨hLt, hPrefix⟩ := h.claimed i k chan hClaim
      rw [hOld hLt]
      exact ⟨lt_of_lt_of_le hLt hLe, hPrefix⟩
    unopened := by
      intro c hc
      rw [hQueues, hDropped]
      exact h.unopened c (le_trans hLe hc)
    past := by
      intro c
      show (if w.hub.fresh ≤ c then w.log.length else w.since c) ≤ w.log.length
      split
      · exact le_refl _
      · exact h.past c }

-- ---------------------------------------------------------------------------
-- One operation at a time
-- ---------------------------------------------------------------------------

/-- Only the task that moved on may hold something else. -/
theorem goto_holds (w : World F) (i j : Nat) (task : Serve F) :
    (w.goto i task).holds j = if j = i then held task else w.holds j := by
  show (Function.update w.tasks i (some task) j).bind held = _
  split
  · rename_i hj
    rw [hj, Function.update_self, Option.bind_some]
  · rename_i hj
    rw [Function.update_of_ne hj]
    rfl

/-- Who has not started or still has to join is not the one that moved on, and stood
there before. -/
theorem goto_waits (w : World F) {i j : Nat} (task : Serve F) (hTask : task ≠ .joining)
    (h : (w.goto i task).tasks j = none ∨ (w.goto i task).tasks j = some .joining) :
    j ≠ i ∧ (w.tasks j = none ∨ w.tasks j = some .joining) := by
  change Function.update w.tasks i (some task) j = none ∨
    Function.update w.tasks i (some task) j = some .joining at h
  by_cases hj : j = i
  · rw [hj, Function.update_self, Option.some.injEq] at h
    simp [hTask] at h
  · rw [Function.update_of_ne hj] at h
    exact ⟨hj, h⟩

/-- The world after socket `i` took the receiver of the mailbox it found. -/
def World.taken (w : World F) (i : Nat) (key : Key) (m : Mailbox) : World F :=
  { w.goto i (.serving key m.chan) with
    hub := { w.hub with
      mailboxes := Function.update w.hub.mailboxes key (some { m with rx := false }) }
    claims := Function.update w.claims i (some (key, m.chan)) }

/-- A join looks its key up, and takes the receiver if that is still there. -/
theorem join_eq (w : World F) (i : Nat) (key : Key) :
    w.join i key = if (w.box key).rx then (w.looked key).taken i key (w.box key)
      else (w.looked key).goto i .returned := by
  have hClaim : w.hub.claim w.now key = if (w.box key).rx then
      ({ (w.looked key).hub with
          mailboxes := Function.update (w.looked key).hub.mailboxes key
            (some { w.box key with rx := false }) }, some (w.box key).chan)
    else ((w.looked key).hub, none) := rfl
  unfold World.join
  rw [hClaim]
  by_cases hRx : (w.box key).rx = true
  · simp only [if_pos hRx]
    rfl
  · simp only [if_neg hRx]
    rfl

/-- The claimer holds the mailbox, and the others hold what they held. -/
theorem taken_holds (w : World F) (i j : Nat) (key : Key) (m : Mailbox) :
    (w.taken i key m).holds j = if j = i then some (key, m.chan) else w.holds j :=
  goto_holds w i j _

/-- One mailbox is marked as claimed, the others are as before. -/
theorem taken_mailboxes {i : Nat} {key k : Key} {m m' : Mailbox}
    (h : (w.taken i key m).hub.mailboxes k = some m') :
    (k = key ∧ m' = { m with rx := false }) ∨ (k ≠ key ∧ w.hub.mailboxes k = some m') := by
  change Function.update w.hub.mailboxes key _ k = some m' at h
  by_cases hk : k = key
  · rw [hk, Function.update_self, Option.some.injEq] at h
    exact Or.inl ⟨hk, h.symm⟩
  · rw [Function.update_of_ne hk] at h
    exact Or.inr ⟨hk, h⟩

/-- Nobody holds a mailbox whose receiver is still there. -/
theorem Inv.free (h : Inv Fr w) {key k : Key} {m : Mailbox} (hBox : w.hub.mailboxes key = some m)
    (hRx : m.rx = true) {j chan : Nat} (hHold : w.holds j = some (k, chan)) : k ≠ key := by
  rintro rfl
  obtain ⟨m', hBox', -, hRx'⟩ := h.holder j k chan hHold
  rw [hBox, Option.some.injEq] at hBox'
  rw [← hBox', hRx] at hRx'
  simp at hRx'

/-- Socket `i` becomes the one holder of a mailbox that nobody held. It is handed
nothing yet, and all that waits in the mailbox is all that was delivered there. -/
theorem Inv.taken (h : Inv Fr w) {i : Nat} {key : Key} {m : Mailbox}
    (hBox : w.hub.mailboxes key = some m) (hRx : m.rx = true)
    (hTask : w.tasks i = some .joining) : Inv Fr (w.taken i key m) := by
  have hNone : w.claims i = none := h.unclaimed i (Or.inr hTask)
  have hSilent : w.sent i = [] := h.silent i hNone
  exact { h with
    opened := by
      intro k m' hMail
      -- the mailboxes are the same, but for the mark on one of them
      rcases taken_mailboxes hMail with ⟨-, rfl⟩ | ⟨-, hMail⟩
      · exact h.opened key m hBox
      · exact h.opened k m' hMail
    apart := by
      intro k k' m₁ m₂ hMail hMail' hChan
      -- the claimed mailbox keeps its channel, so both sides are as before
      rcases taken_mailboxes hMail with ⟨hk, hNew⟩ | ⟨hk, hOld⟩ <;>
        rcases taken_mailboxes hMail' with ⟨hk', hNew'⟩ | ⟨hk', hOld'⟩
      · rw [hk, hk']
      · exact absurd (h.apart key k' m m₂ hBox hOld' (by rw [← hChan, hNew])) (Ne.symm hk')
      · exact absurd (h.apart k key m₁ m hOld hBox (by rw [hChan, hNew'])) hk
      · exact h.apart k k' m₁ m₂ hOld hOld' hChan
    present := by
      intro k m' hMail
      rcases taken_mailboxes hMail with ⟨-, rfl⟩ | ⟨-, hMail⟩
      · exact h.present key m hBox
      · exact h.present k m' hMail
    waiting := by
      intro k m' hMail hRx'
      rcases taken_mailboxes hMail with ⟨-, rfl⟩ | ⟨-, hMail⟩
      · -- the one that was taken has no receiver any more
        simp at hRx'
      · exact h.waiting k m' hMail hRx'
    holder := by
      intro j k chan hHold
      rw [taken_holds] at hHold
      split at hHold
      · -- the new holder, of the mailbox just marked
        obtain ⟨rfl, rfl⟩ := Prod.mk.inj (Option.some.inj hHold)
        exact ⟨{ m with rx := false }, Function.update_self .., rfl, rfl⟩
      · -- the other holders, of other mailboxes: this one was free
        obtain ⟨m', hMail, hChan, hRx'⟩ := h.holder j k chan hHold
        refine ⟨m', ?_, hChan, hRx'⟩
        show Function.update w.hub.mailboxes key _ k = some m'
        rw [Function.update_of_ne (h.free hBox hRx hHold), hMail]
    alone := by
      intro j j' k chan chan' hHold hHold'
      rw [taken_holds] at hHold hHold'
      -- the new holder beside an old one would be two holders of a free mailbox
      split at hHold <;> split at hHold'
      · rename_i hj hj'
        rw [hj, hj']
      · obtain ⟨hk, -⟩ := Prod.mk.inj (Option.some.inj hHold)
        exact absurd hk.symm (h.free hBox hRx hHold')
      · obtain ⟨hk, -⟩ := Prod.mk.inj (Option.some.inj hHold')
        exact absurd hk.symm (h.free hBox hRx hHold)
      · exact h.alone j j' k chan chan' hHold hHold'
    handed := by
      intro j k chan hHold
      rw [taken_holds] at hHold
      split at hHold
      · -- the new holder: nothing was handed over, everything waits
        rename_i hj
        obtain ⟨rfl, rfl⟩ := Prod.mk.inj (Option.some.inj hHold)
        show w.sent j ++ w.hub.queues m.chan = w.delivered key m.chan
        rw [hj, hSilent, List.nil_append, h.waiting key m hBox hRx]
      · exact h.handed j k chan hHold
    claimer := by
      intro j k chan hHold
      rw [taken_holds] at hHold
      show Function.update w.claims i _ j = _
      split at hHold
      · rename_i hj
        rw [hj, Function.update_self, hHold]
      · rename_i hj
        rw [Function.update_of_ne hj]
        exact h.claimer j k chan hHold
    claimed := by
      intro j k chan hClaim
      change Function.update w.claims i _ j = _ at hClaim
      by_cases hj : j = i
      · -- the new claim, with nothing handed over
        rw [hj, Function.update_self, Option.some.injEq, Prod.mk.injEq] at hClaim
        obtain ⟨rfl, rfl⟩ := hClaim
        refine ⟨h.opened key m hBox, ?_⟩
        show w.sent j <+: _
        rw [hj, hSilent]
        exact List.nil_prefix
      · rw [Function.update_of_ne hj] at hClaim
        exact h.claimed j k chan hClaim
    silent := by
      intro j hClaim
      change Function.update w.claims i _ j = none at hClaim
      by_cases hj : j = i
      · rw [hj, Function.update_self] at hClaim
        simp at hClaim
      · rw [Function.update_of_ne hj] at hClaim
        exact h.silent j hClaim
    unclaimed := by
      intro j hTask'
      obtain ⟨hj, hBefore⟩ := goto_waits w (.serving key m.chan) (by simp) hTask'
      show Function.update w.claims i _ j = none
      rw [Function.update_of_ne hj]
      exact h.unclaimed j hBefore }

/-- The first joiner claims the mailbox, any other is refused. -/
theorem Inv.join (h : Inv Fr w) {i : Nat} (key : Key) (hTask : w.tasks i = some .joining) :
    Inv Fr (w.join i key) := by
  have hLooked := h.looked key
  rw [join_eq]
  split
  · rename_i hRx
    exact hLooked.taken (looked_box w key) hRx hTask
  · refine hLooked.goto ?_ (by simp)
    show none = (w.tasks i).bind held
    rw [hTask]
    rfl

/-- The world after `frame` was sent into the channel `chan` of `key`. -/
def World.pushed (w : World F) (key : Key) (chan : Nat) (frame : F) : World F :=
  { w with
    hub := { w.hub with
      queues := Function.update w.hub.queues chan (w.hub.queues chan ++ [frame]) }
    log := w.log ++ [(key, frame)] }

/-- A mailbox in the map still has its receiver, so nothing sent is lost. -/
theorem Inv.route_eq (h : Inv Fr w) (key : Key) (frame : F) :
    w.route key frame = (w.looked key).pushed key (w.box key).chan frame := by
  have hPresent : (w.looked key).hub.dropped (w.box key).chan = false :=
    (h.looked key).present key _ (looked_box w key)
  have hDeliver : w.hub.deliver w.now key frame = { (w.looked key).hub with
      queues := Function.update (w.looked key).hub.queues (w.box key).chan
        ((w.looked key).hub.queues (w.box key).chan ++ [frame]) } := by
    show (if (w.looked key).hub.dropped (w.box key).chan then _ else _) = _
    rw [if_neg (by simp [hPresent])]
    rfl
  unfold World.route
  rw [hDeliver]
  rfl

/-- One more frame for `key`: at the end of what was delivered to it. -/
theorem pushed_delivered {key k : Key} {chan c : Nat} {frame : F}
    (hPast : w.since c ≤ w.log.length) : (w.pushed key chan frame).delivered k c =
      w.delivered k c ++ if k = key then [frame] else [] := by
  show ((((w.log ++ [(key, frame)]).drop (w.since c)).filter fun e => e.1 = k).map Prod.snd) = _
  rw [List.drop_append_of_le_length hPast, List.filter_append, List.map_append]
  congr 1
  by_cases hk : k = key
  · simp [hk]
  · simp [hk, Ne.symm hk]

/-- One frame more is delivered, and it waits at the end of its mailbox's channel,
whoever holds that. -/
theorem Inv.pushed (h : Inv Fr w) {key : Key} {m : Mailbox} {frame : F}
    (hBox : w.hub.mailboxes key = some m) (hRoute : Fr.route frame = some key) :
    Inv Fr (w.pushed key m.chan frame) := by
  -- only the channel of `key` grows, as the channels of the mailboxes are apart
  have hQueue : ∀ {k m'}, w.hub.mailboxes k = some m' →
      (w.pushed key m.chan frame).hub.queues m'.chan =
        w.hub.queues m'.chan ++ if k = key then [frame] else [] := by
    intro k m' hMail
    show Function.update w.hub.queues m.chan _ m'.chan = _
    by_cases hk : k = key
    · rw [hk, hBox, Option.some.injEq] at hMail
      rw [← hMail, Function.update_self, if_pos hk]
    · have hNe : m'.chan ≠ m.chan := fun hChan => hk (h.apart k key m' m hMail hBox hChan)
      rw [Function.update_of_ne hNe, if_neg hk, List.append_nil]
  exact { h with
    waiting := by
      intro k m' hMail hRx
      rw [hQueue hMail, pushed_delivered (h.past _), h.waiting k m' hMail hRx]
    handed := by
      intro i k chan hHold
      obtain ⟨m', hMail, rfl, -⟩ := h.holder i k chan hHold
      rw [hQueue hMail, pushed_delivered (h.past _), ← h.handed i k m'.chan hHold,
        List.append_assoc]
      rfl
    claimed := by
      intro i k chan hClaim
      obtain ⟨hLt, hPrefix⟩ := h.claimed i k chan hClaim
      -- the record grows at its end, so its beginnings stay
      rw [pushed_delivered (h.past _)]
      exact ⟨hLt, hPrefix.trans (List.prefix_append _ _)⟩
    unopened := by
      intro c hc
      have hLt : m.chan < c := lt_of_lt_of_le (h.opened key m hBox) hc
      refine ⟨?_, (h.unopened c hc).2⟩
      show Function.update w.hub.queues m.chan _ c = []
      rw [Function.update_of_ne (by omega)]
      exact (h.unopened c hc).1
    past := by
      intro c
      show w.since c ≤ (w.log ++ [(key, frame)]).length
      have hPast := h.past c
      rw [List.length_append]
      omega
    routed := by
      intro e he
      rcases List.mem_append.mp he with he | he
      · exact h.routed e he
      · rw [List.mem_singleton.mp he]
        exact hRoute }

/-- A routed frame waits in the mailbox its peek names. -/
theorem Inv.route (h : Inv Fr w) {key : Key} {frame : F} (hRoute : Fr.route frame = some key) :
    Inv Fr (w.route key frame) := by
  rw [h.route_eq]
  exact (h.looked key).pushed (looked_box w key) hRoute

/-- A mailbox with the channel of a holder is that holder's, and claimed. -/
theorem Inv.holder_chan (h : Inv Fr w) {i : Nat} {key k : Key} {chan : Nat} {m : Mailbox}
    (hHold : w.holds i = some (key, chan)) (hBox : w.hub.mailboxes k = some m)
    (hChan : m.chan = chan) : k = key ∧ m.rx = false := by
  obtain ⟨m', hBox', hChan', hRx⟩ := h.holder i key chan hHold
  have hk : k = key := h.apart k key m m' hBox hBox' (hChan.trans hChan'.symm)
  rw [hk, hBox', Option.some.injEq] at hBox
  exact ⟨hk, hBox ▸ hRx⟩

/-- Different sockets read from different channels. -/
theorem Inv.chan_ne (h : Inv Fr w) {i j : Nat} {key k : Key} {chan c : Nat}
    (hHold : w.holds i = some (key, chan)) (hOther : w.holds j = some (k, c)) (hNe : j ≠ i) :
    c ≠ chan := by
  rintro rfl
  obtain ⟨m, hBox, hChan, -⟩ := h.holder j k c hOther
  obtain ⟨rfl, -⟩ := h.holder_chan hHold hBox hChan
  exact hNe (h.alone j i k c c hOther hHold)

/-- Who takes a frame off its channel goes on holding it. -/
theorem take_holds {i : Nat} {key : Key} {chan : Nat} (hHold : w.holds i = some (key, chan))
    (frame : F) (rest : List F) (j : Nat) :
    (w.take i key chan frame rest).holds j = w.holds j := by
  refine (goto_holds w i j _).trans ?_
  split
  · rename_i hj
    rw [hj, hHold]
    rfl
  · rfl

/-- Socket `i` takes the frame that waits first: it moves from the queue to what the
socket was handed, and the two are still what was delivered. -/
theorem Inv.take (h : Inv Fr w) {i : Nat} {key : Key} {chan : Nat} {frame : F} {rest : List F}
    (hTask : w.tasks i = some (.serving key chan))
    (hQueue : w.hub.queues chan = frame :: rest) : Inv Fr (w.take i key chan frame rest) := by
  have hHold : w.holds i = some (key, chan) := by
    show (w.tasks i).bind held = _
    rw [hTask]
    rfl
  have hClaim := h.claimer i key chan hHold
  have hHolds := take_holds hHold frame rest
  have hHanded : (w.sent i ++ [frame]) ++ rest = w.delivered key chan := by
    rw [← h.handed i key chan hHold, hQueue, List.append_assoc]
    rfl
  exact { h with
    waiting := by
      intro k m hBox hRx
      -- an unclaimed mailbox has another channel
      have hNe : m.chan ≠ chan := by
        intro hChan
        rw [(h.holder_chan hHold hBox hChan).2] at hRx
        simp at hRx
      show Function.update w.hub.queues chan rest m.chan = _
      rw [Function.update_of_ne hNe]
      exact h.waiting k m hBox hRx
    holder := by
      intro j k c hHold'
      rw [hHolds] at hHold'
      exact h.holder j k c hHold'
    alone := by
      intro j j' k c c' hHold' hHold''
      rw [hHolds] at hHold' hHold''
      exact h.alone j j' k c c' hHold' hHold''
    handed := by
      intro j k c hHold'
      rw [hHolds] at hHold'
      show Function.update w.sent i _ j ++ Function.update w.hub.queues chan rest c =
        w.delivered k c
      by_cases hj : j = i
      · -- what left the queue was handed over
        rw [hj, hHold, Option.some.injEq, Prod.mk.injEq] at hHold'
        obtain ⟨rfl, rfl⟩ := hHold'
        rw [hj, Function.update_self, Function.update_self, hHanded]
      · -- other sockets read from other channels
        rw [Function.update_of_ne hj, Function.update_of_ne (h.chan_ne hHold hHold' hj)]
        exact h.handed j k c hHold'
    claimer := by
      intro j k c hHold'
      rw [hHolds] at hHold'
      exact h.claimer j k c hHold'
    claimed := by
      intro j k c hClaim'
      refine ⟨(h.claimed j k c hClaim').1, ?_⟩
      show Function.update w.sent i _ j <+: w.delivered k c
      by_cases hj : j = i
      · -- the frame is the next of what was delivered
        have hSame : w.claims i = some (k, c) := hj ▸ hClaim'
        rw [hClaim, Option.some.injEq, Prod.mk.injEq] at hSame
        obtain ⟨rfl, rfl⟩ := hSame
        rw [hj, Function.update_self, ← hHanded]
        exact List.prefix_append _ _
      · rw [Function.update_of_ne hj]
        exact (h.claimed j k c hClaim').2
    silent := by
      intro j hClaim'
      show Function.update w.sent i _ j = []
      have hj : j ≠ i := by
        rintro rfl
        rw [show w.claims j = none from hClaim'] at hClaim
        simp at hClaim
      rw [Function.update_of_ne hj]
      exact h.silent j hClaim'
    unclaimed := by
      intro j hTask'
      exact h.unclaimed j (goto_waits w (.writing key chan frame) (by simp) hTask').2
    unopened := by
      intro c hc
      -- the channel was opened, so it is none of those that are still to come
      have hLt : chan < c := lt_of_lt_of_le (h.claimed i key chan hClaim).1 hc
      refine ⟨?_, (h.unopened c hc).2⟩
      show Function.update w.hub.queues chan rest c = []
      rw [Function.update_of_ne (by omega)]
      exact (h.unopened c hc).1 }

/-- The mailbox goes with its holder. What the socket was handed stays on record. -/
theorem Inv.leave (h : Inv Fr w) {i : Nat} {key : Key} {chan : Nat}
    (hTask : w.tasks i = some (.leaving key chan)) : Inv Fr (w.leave i key chan) := by
  have hHold : w.holds i = some (key, chan) := by
    show (w.tasks i).bind held = _
    rw [hTask]
    rfl
  have hClaim := h.claimer i key chan hHold
  have hHolds : ∀ {j k c}, (w.leave i key chan).holds j = some (k, c) →
      j ≠ i ∧ w.holds j = some (k, c) := by
    intro j k c hHold'
    have hGoto := (goto_holds w i j .returned).symm.trans hHold'
    split at hGoto
    · simp [held] at hGoto
    · rename_i hj
      exact ⟨hj, hGoto⟩
  -- what is left: the other mailboxes, and the other holders
  have hBoxes : ∀ {k m}, (w.leave i key chan).hub.mailboxes k = some m →
      k ≠ key ∧ w.hub.mailboxes k = some m := by
    intro k m hMail
    change Function.update w.hub.mailboxes key none k = some m at hMail
    have hk : k ≠ key := by
      rintro rfl
      simp at hMail
    exact ⟨hk, by rwa [Function.update_of_ne hk] at hMail⟩
  exact { h with
    opened := by
      intro k m hMail
      exact h.opened k m (hBoxes hMail).2
    apart := by
      intro k k' m m' hMail hMail' hChan
      exact h.apart k k' m m' (hBoxes hMail).2 (hBoxes hMail').2 hChan
    present := by
      intro k m hMail
      obtain ⟨hk, hMail⟩ := hBoxes hMail
      -- the channel that closes is that of the mailbox that goes
      have hNe : m.chan ≠ chan := fun hChan => hk (h.holder_chan hHold hMail hChan).1
      show Function.update w.hub.dropped chan true m.chan = false
      rw [Function.update_of_ne hNe]
      exact h.present k m hMail
    waiting := by
      intro k m hMail hRx
      exact h.waiting k m (hBoxes hMail).2 hRx
    holder := by
      intro j k c hHold'
      obtain ⟨hj, hBefore⟩ := hHolds hHold'
      obtain ⟨m, hMail, hChan, hRx⟩ := h.holder j k c hBefore
      -- the mailbox that goes had one holder, who goes with it
      have hk : k ≠ key := by
        rintro rfl
        exact hj (h.alone j i k c chan hBefore hHold)
      refine ⟨m, ?_, hChan, hRx⟩
      show Function.update w.hub.mailboxes key none k = some m
      rw [Function.update_of_ne hk, hMail]
    alone := by
      intro j j' k c c' hHold' hHold''
      exact h.alone j j' k c c' (hHolds hHold').2 (hHolds hHold'').2
    handed := by
      intro j k c hHold'
      exact h.handed j k c (hHolds hHold').2
    claimer := by
      intro j k c hHold'
      exact h.claimer j k c (hHolds hHold').2
    unclaimed := by
      intro j hTask'
      exact h.unclaimed j (goto_waits w .returned (by simp) hTask').2
    unopened := by
      intro c hc
      have hLt : chan < c := lt_of_lt_of_le (h.claimed i key chan hClaim).1 hc
      refine ⟨(h.unopened c hc).1, ?_⟩
      show Function.update w.hub.dropped chan true c = false
      rw [Function.update_of_ne (by omega)]
      exact (h.unopened c hc).2 }

-- ---------------------------------------------------------------------------
-- Every step
-- ---------------------------------------------------------------------------

/-- What a task holds is read off where it stands. -/
theorem holds_eq {i : Nat} {task : Serve F} (hTask : w.tasks i = some task) :
    w.holds i = held task := by
  show (w.tasks i).bind held = _
  rw [hTask, Option.bind_some]

/-- What an action did to the hub: one constructor for each kind of change, with what
the guards of the step had ensured. -/
inductive Change (Fr : Framing F) (w : World F) : Action F → World F → Prop
  /-- Time passed. -/
  | tick (elapsed : Nat) : Change Fr w (.tick elapsed) { w with now := w.now + elapsed }
  /-- A message was ignored. -/
  | idle {a : Action F} : Change Fr w a w
  /-- A task moved on and holds what it held. -/
  | goto {a : Action F} {i : Nat} {task : Serve F} (hHeld : held task = w.holds i)
      (hClaims : task = .joining → w.claims i = none) : Change Fr w a (w.goto i task)
  | join {i : Nat} {frame : F} {key : Key} (hTask : w.tasks i = some .joining)
      (hJoin : Fr.join frame = some key) :
      Change Fr w (.inbound i (.binary frame)) (w.join i key)
  | route {i : Nat} {key to_ : Key} {chan : Nat} {frame : F}
      (hTask : w.tasks i = some (.serving key chan)) (hRoute : Fr.route frame = some to_) :
      Change Fr w (.inbound i (.binary frame)) (w.route to_ frame)
  | take {i : Nat} {key : Key} {chan : Nat} {frame : F} {rest : List F}
      (hTask : w.tasks i = some (.serving key chan)) (hQueue : w.hub.queues chan = frame :: rest) :
      Change Fr w (.outbound i) (w.take i key chan frame rest)
  | leave {i : Nat} {key : Key} {chan : Nat} (hTask : w.tasks i = some (.leaving key chan)) :
      Change Fr w (.cleanup i) (w.leave i key chan)

/-- What a message from the socket changes. -/
theorem receive_change {i : Nat} {msg : Received F} {task : Serve F} {w' : World F}
    (hTask : w.tasks i = some task) (hStep : receive Fr w i msg task = some w') :
    Change Fr w (.inbound i msg) w' := by
  have hHold := holds_eq hTask
  unfold receive at hStep
  split at hStep
  · -- a joining task: the first binary frame is its claim
    split at hStep
    · split at hStep <;> rw [← Option.some.inj hStep]
      · rename_i hJoin
        exact .join hTask hJoin
      · exact .goto hHold.symm (by simp)
    · rw [← Option.some.inj hStep]
      exact .idle
    · rw [← Option.some.inj hStep]
      exact .goto hHold.symm (by simp)
  · -- a serving task: frames are routed by what the peek reads of them
    split at hStep
    · split at hStep <;> rw [← Option.some.inj hStep]
      · rename_i hRoute
        exact .route hTask hRoute
      · exact .idle
    · rw [← Option.some.inj hStep]
      exact .idle
    · rw [← Option.some.inj hStep]
      exact .goto hHold.symm (by simp)
  · simp at hStep

/-- **Inversion.** Every step is one of the changes. -/
theorem step_change (h : Inv Fr w) {a : Action F} {w' : World F}
    (hStep : step Fr w a = some w') : Change Fr w a w' := by
  -- what each action does where its guard lets it
  match a with
  | .tick elapsed =>
    rw [← Option.some.inj hStep]
    exact .tick elapsed
  | .accept i =>
    simp only [Hub.step] at hStep
    split at hStep
    · rename_i hNone
      rw [← Option.some.inj hStep]
      refine .goto ?_ fun _ => h.unclaimed i (Or.inl hNone)
      show none = (w.tasks i).bind held
      rw [hNone]
      rfl
    · simp at hStep
  | .inbound i msg =>
    obtain ⟨task, hTask, hReceive⟩ := Option.bind_eq_some_iff.mp hStep
    exact receive_change hTask hReceive
  | .outbound i =>
    simp only [Hub.step] at hStep
    split at hStep
    · rename_i key chan hTask
      split at hStep
      · rename_i frame rest hQueue
        rw [← Option.some.inj hStep]
        exact .take hTask hQueue
      · split at hStep
        · simp at hStep
        · rw [← Option.some.inj hStep]
          exact .goto (holds_eq hTask).symm (by simp)
    · simp at hStep
  | .written i ok =>
    simp only [Hub.step] at hStep
    split at hStep
    · rename_i key chan frame hTask
      rw [← Option.some.inj hStep]
      refine .goto ?_ ?_
      · rw [holds_eq hTask]
        split <;> rfl
      · split <;> simp
    · simp at hStep
  | .cleanup i =>
    simp only [Hub.step] at hStep
    split at hStep
    · rename_i key chan hTask
      rw [← Option.some.inj hStep]
      exact .leave hTask
    · simp at hStep

/-- **Step lemma.** Every change keeps the invariant. -/
theorem Inv.step (h : Inv Fr w) {a : Action F} {w' : World F} (hStep : step Fr w a = some w') :
    Inv Fr w' := by
  cases step_change h hStep with
  | tick elapsed => exact { h with }
  | idle => exact h
  | goto hHeld hClaims => exact h.goto hHeld hClaims
  | join hTask _ => exact h.join _ hTask
  | route _ hRoute => exact h.route hRoute
  | take hTask hQueue => exact h.take hTask hQueue
  | leave hTask => exact h.leave hTask

/-- **Run lemma.** The invariant holds in every world of a fresh hub's runs. -/
theorem inv_of_reach {ttl : Nat} (h : Reach Fr (World.init ttl) w) : Inv Fr w :=
  Machine.Reach.invariant h (inv_init Fr ttl) fun _ _ _ hInv _ hStep => hInv.step hStep

end

end Hub

end Sovra.Ipc
