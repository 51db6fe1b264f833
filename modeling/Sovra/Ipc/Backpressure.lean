import Sovra.Ipc.Plane
import Sovra.Carbon.Ceremonies

/-!
# Sovra — who can wait for whom on the relay plane

A party writes a whole round before it reads, and its task at the hub does not
read the socket while it writes to it. So the two can wait for each other; this
module shows that nothing else can bring the plane to a stop.

* `Inv.step`       — what one step preserves.
* `plane_progress` — a plane that has stopped has such a pair, and none has one
  whose way up holds all that its party sends.
* `plane_locked`   — with room for one frame the pair is reached.
-/

namespace Sovra.Ipc

open Lib Mpc

-- ---------------------------------------------------------------------------
-- Mail from the first frame on
-- ---------------------------------------------------------------------------

namespace Hub

variable {F : Type} {Fr : Framing F} {w w' : World F} {key k : Key}

/-- The clock stands where every mailbox is young. -/
def Still (w : World F) : Prop := w.now = 0 ∧ 0 < w.hub.unclaimedTtl

/-- Nothing was routed to `key` before its mailbox was opened. -/
structure Whole (w : World F) (key : Key) : Prop where
  unopened : w.hub.mailboxes key = none → ∀ e ∈ w.log, e.1 ≠ key
  opened : ∀ m, w.hub.mailboxes key = some m → ∀ e ∈ w.log.take (w.since m.chan), e.1 ≠ key

/-- Nobody has claimed the mailbox of `key`. -/
def Unclaimed (w : World F) (key : Key) : Prop :=
  ∀ m, w.hub.mailboxes key = some m → m.rx = true

/-- While no time passes no mailbox is old enough to be swept. -/
theorem Still.keeps (h : Still w) (m : Mailbox) : w.hub.keeps w.now m = true := by
  obtain ⟨hNow, hTtl⟩ := h
  have hYoung : w.now - m.created < w.hub.unclaimedTtl := by omega
  simp [EnvelopeHub.keeps, hYoung]

/-- So a lookup drops none. -/
theorem Still.looked_none (h : Still w) (hNone : (w.looked k).hub.mailboxes key = none) :
    w.hub.mailboxes key = none := by
  rcases hBox : w.hub.mailboxes key with _ | m
  · rfl
  · rw [looked_kept hBox (h.keeps m)] at hNone
    simp at hNone

/-- A lookup loses no mail of a mailbox that has it all. -/
theorem Whole.looked (hw : Whole w key) (h : Inv Fr w) (hStill : Still w) (k : Key) :
    Whole (w.looked k) key where
  unopened hNone := hw.unopened (hStill.looked_none hNone)
  opened m hBox := by
    rcases looked_mailboxes hBox with ⟨hOld, -⟩ | ⟨rfl, rfl, hNone, -⟩
    · have hSince : (w.looked k).since m.chan = w.since m.chan :=
        (looked_later w k).since m.chan (h.opened key m hOld)
      rw [hSince]
      exact hw.opened m hOld
    · intro e hMem
      refine hw.unopened ?_ e (List.mem_of_mem_take hMem)
      rcases hBox' : w.hub.mailboxes key with _ | m'
      · rfl
      · rw [sweep_eq_some.mpr ⟨hBox', hStill.keeps m'⟩] at hNone
        simp at hNone

/-- What is kept of a mailbox when only queues, tasks and flags change. -/
theorem Whole.of_same (hw : Whole w key)
    (hBoxes : (w'.hub.mailboxes key).map Mailbox.chan = (w.hub.mailboxes key).map Mailbox.chan)
    (hLog : w'.log = w.log) (hSince : w'.since = w.since) : Whole w' key where
  unopened hNone := by
    rw [hLog]
    rw [hNone, Option.map_none, eq_comm, Option.map_eq_none_iff] at hBoxes
    exact hw.unopened hBoxes
  opened m hBox := by
    rw [hBox, Option.map_some, eq_comm, Option.map_eq_some_iff] at hBoxes
    obtain ⟨m', hBox', hChan⟩ := hBoxes
    rw [hLog, hSince, ← hChan]
    exact hw.opened m' hBox'

/-- A delivery adds to the mailbox and to the record at once. -/
theorem Whole.pushed (hw : Whole w key) (h : Inv Fr w) {m : Mailbox} {frame : F}
    (hBox : w.hub.mailboxes k = some m) : Whole (w.pushed k m.chan frame) key where
  unopened hNone := by
    intro e hMem
    rcases List.mem_append.mp hMem with hOld | hNew
    · exact hw.unopened hNone e hOld
    · rw [List.mem_singleton.mp hNew]
      rintro rfl
      have hNone' : w.hub.mailboxes k = none := hNone
      simp [hBox] at hNone'
  opened m' hBox' := by
    show ∀ e ∈ (w.log ++ [(k, frame)]).take (w.since m'.chan), e.1 ≠ key
    rw [List.take_append_of_le_length (h.past m'.chan)]
    exact hw.opened m' hBox'

/-- A lookup claims nothing. -/
theorem Unclaimed.looked (hu : Unclaimed w key) (k : Key) : Unclaimed (w.looked k) key := by
  intro m hBox
  rcases looked_mailboxes hBox with ⟨hOld, -⟩ | ⟨-, rfl, -⟩
  · exact hu m hOld
  · rfl

/-- All that was ever routed to `key` is in its channel's record. -/
theorem Whole.delivered (hw : Whole w key) {m : Mailbox} (hBox : w.hub.mailboxes key = some m) :
    w.delivered key m.chan = (w.log.filter fun e => e.1 = key).map Prod.snd := by
  have hNone : (w.log.take (w.since m.chan)).filter (fun e => decide (e.1 = key)) = [] := by
    rw [List.filter_eq_nil_iff]
    intro e hMem
    simpa using hw.opened m hBox e hMem
  conv_rhs => rw [← List.take_append_drop (w.since m.chan) w.log, List.filter_append, hNone]
  rfl

-- ---------------------------------------------------------------------------
-- What a step of one task leaves of another
-- ---------------------------------------------------------------------------

/-- Another task, its socket's record and its mailbox are as they were, and
whatever was routed stays so. -/
structure Spares (w w' : World F) (j : Nat) (key : Key) : Prop where
  task : w'.tasks j = w.tasks j
  sent : w'.sent j = w.sent j
  log : w.log ⊆ w'.log
  whole : Whole w key → Whole w' key
  unclaimed : Unclaimed w key → Unclaimed w' key

/-- A task that moves on touches no other task's lane. -/
theorem spares_goto {i j : Nat} (hj : j ≠ i) (task : Serve F) :
    Spares w (w.goto i task) j key where
  task := Function.update_of_ne hj _ _
  sent := rfl
  log := List.Subset.refl _
  whole hw := hw.of_same rfl rfl rfl
  unclaimed hu := hu

/-- Claiming a mailbox moves no mail. -/
theorem whole_taken (hw : Whole w key) {i : Nat} {m : Mailbox}
    (hBox : w.hub.mailboxes k = some m) : Whole (w.taken i k m) key := by
  refine hw.of_same ?_ rfl rfl
  show (Function.update w.hub.mailboxes k (some { m with rx := false }) key).map Mailbox.chan = _
  by_cases hk : key = k
  · rw [hk, Function.update_self, hBox]
    rfl
  · rw [Function.update_of_ne hk]

/-- A join of an unclaimed mailbox takes its receiver. -/
theorem join_unclaimed (hu : Unclaimed w k) (i : Nat) :
    w.join i k = (w.looked k).taken i k (w.box k) := by
  rw [join_eq, if_pos (hu.looked k _ (looked_box w k))]

/-- Nor does joining. -/
theorem whole_join (h : Inv Fr w) (hStill : Still w) (hu : Unclaimed w k) (hw : Whole w key)
    (i : Nat) : Whole (w.join i k) key := by
  rw [join_unclaimed hu]
  exact whole_taken (hw.looked h hStill k) (looked_box w k)

/-- A join touches one mailbox, unclaimed until then. -/
theorem spares_join (h : Inv Fr w) (hStill : Still w) (hu : Unclaimed w k) {i j : Nat}
    (hj : j ≠ i) (hk : key ≠ k) : Spares w (w.join i k) j key where
  task := by
    rw [join_unclaimed hu]
    exact Function.update_of_ne hj _ _
  sent := by
    rw [join_unclaimed hu]
    rfl
  log := by
    rw [join_unclaimed hu]
    exact List.Subset.refl _
  whole hw := whole_join h hStill hu hw i
  unclaimed hOther := by
    rw [join_unclaimed hu]
    intro m hBox
    have hBox' : (w.looked k).hub.mailboxes key = some m :=
      (Function.update_of_ne hk _ _).symm.trans hBox
    exact hOther.looked k m hBox'

/-- A delivery touches no task, and only adds mail. -/
theorem spares_route (h : Inv Fr w) (hStill : Still w) (frame : F) (j : Nat) :
    Spares w (w.route k frame) j key := by
  rw [h.route_eq]
  refine ⟨rfl, rfl, ?_, ?_, ?_⟩
  · exact List.subset_append_left _ _
  · intro hw
    exact (hw.looked h hStill k).pushed (h.looked k) (looked_box w k)
  · intro hu m hBox
    exact hu.looked k m hBox

/-- A frame on its way out leaves its own channel. -/
theorem spares_take {i j : Nat} (hj : j ≠ i) {chan : Nat} {frame : F} {rest : List F} :
    Spares w (w.take i k chan frame rest) j key where
  task := Function.update_of_ne hj _ _
  sent := Function.update_of_ne hj _ _
  log := List.Subset.refl _
  whole hw := hw.of_same rfl rfl rfl
  unclaimed hu := hu

/-- A cleanup removes the mailbox of its own task. -/
theorem spares_leave {i j : Nat} (hj : j ≠ i) (hk : key ≠ k) (chan : Nat) :
    Spares w (w.leave i k chan) j key := by
  have hBoxes : (w.leave i k chan).hub.mailboxes key = w.hub.mailboxes key :=
    Function.update_of_ne hk _ _
  refine ⟨Function.update_of_ne hj _ _, rfl, List.Subset.refl _, ?_, ?_⟩
  · intro hw
    exact hw.of_same (by rw [hBoxes]) rfl rfl
  · intro hu m hBox
    exact hu m (hBoxes.symm.trans hBox)

/-- Only the clock moves the clock. -/
theorem step_still (h : Inv Fr w) (hStill : Still w) {a : Action F}
    (hStep : step Fr w a = some w') (hTick : ∀ elapsed, a ≠ .tick elapsed) : Still w' := by
  refine ⟨?_, by rw [(step_later h hStep).ttl]; exact hStill.2⟩
  have hNow : w'.now = w.now := by
    cases step_change h hStep with
    | tick elapsed => exact absurd rfl (hTick elapsed)
    | join _ _ =>
      rw [join_eq]
      split <;> rfl
    | route _ _ =>
      rw [h.route_eq]
      rfl
    | idle | goto _ _ | take _ _ | leave _ => rfl
  rw [hNow, hStill.1]

end Hub

-- ---------------------------------------------------------------------------
-- One party, its socket and its task
-- ---------------------------------------------------------------------------

namespace Plane

section

variable {C : Crypto} {κ α : Type} {K : Ceremony C κ α} {cap : Capacity} {stages : List Stage}
  {calls : UInt8 → List κ} {result : UInt8 → Except Halt α} {w w' : Plane C κ α} {p : UInt8}

/-- The frame that precedes the envelopes on a way up. -/
def heading (K : Ceremony C κ α) (p : UInt8) : Option (Serve (Frame C)) → List (Frame C)
  | some .joining => [.join (mailbox K p)]
  | _ => []

/-- The frame a task is writing. -/
def current : Option (Serve (Frame C)) → List (Frame C)
  | some (.writing _ _ frame) => [frame]
  | _ => []

/-- The task is past its loop. -/
def Departed (task : Option (Serve (Frame C))) : Prop :=
  (∃ key chan, task = some (.leaving key chan)) ∨ task = some .returned

/-- What holds of one party, what it was handed, its socket in both directions,
and its task and mailbox at the hub: what it sent is on the way up or routed, and
while it is unfinished all that was routed to it is in its channel, being
written, on the way down, or handed over. -/
structure Lane (K : Ceremony C κ α) (stages : List Stage) (calls : UInt8 → List κ)
    (result : UInt8 → Except Halt α) (p : UInt8) (party : Party C κ α)
    (handed : List (SignedEnvelope C)) (up down : List (Frame C)) (hub : Hub.World (Frame C)) :
    Prop where
  standing : ∃ past sent, Ceremony.Standing K stages (calls p) (result p) p handed past party sent ∧
    up.length ≤ sent.length + 1 ∧
    ∀ senv ∈ sent, .envelope senv ∈ up ∨ (mailbox K senv.env.recipient, .envelope senv) ∈ hub.log
  written : ∃ envs : List (SignedEnvelope C),
    up = heading K p (hub.tasks p.toNat) ++ envs.map .envelope ∧ ∀ senv ∈ envs, K.Sent stages senv
  undialed : hub.tasks p.toNat = none → up = []
  seat : ∀ key chan, hub.holds p.toNat = some (key, chan) → key = mailbox K p
  gone : Departed (hub.tasks p.toNat) → ended party = true ∧ up = []
  whole : ended party = false → Hub.Whole hub (mailbox K p)
  unclaimed : hub.tasks p.toNat = none ∨ hub.tasks p.toNat = some .joining →
    Hub.Unclaimed hub (mailbox K p)
  fed : ended party = false →
    hub.sent p.toNat = handed.map .envelope ++ down ++ current (hub.tasks p.toNat)

/-- What holds between two steps, until a connection fails. -/
structure Inv (K : Ceremony C κ α) (stages : List Stage) (calls : UInt8 → List κ)
    (result : UInt8 → Except Halt α) (w : Plane C κ α) : Prop where
  hub : Hub.Inv frameFraming w.hub
  still : Hub.Still w.hub
  handed : ∀ p, K.HandedOnly stages p (w.handed p)
  routed : ∀ e ∈ w.hub.log, ∃ senv : SignedEnvelope C,
    e = (mailbox K senv.env.recipient, .envelope senv) ∧ K.Sent stages senv
  lanes : ∀ p ∈ K.participants,
    Lane K stages calls result p (w.party p) (w.handed p) (w.up p) (w.down p) w.hub

section

variable {party : Party C κ α} {handed : List (SignedEnvelope C)} {up down : List (Frame C)}
  {hub hub' : Hub.World (Frame C)}

/-- A lane stays as it is where a step of the hub spares it. -/
theorem Lane.spared (h : Lane K stages calls result p party handed up down hub)
    (hSpares : Hub.Spares hub hub' p.toNat (mailbox K p)) :
    Lane K stages calls result p party handed up down hub' := by
  have hTask := hSpares.task
  have hHolds : hub'.holds p.toNat = hub.holds p.toNat := by
    unfold Hub.World.holds
    rw [hTask]
  -- what a lane says of the hub is about its own task and its own mailbox
  constructor
  · obtain ⟨past, sent, hStanding, hLength, hKept⟩ := h.standing
    exact ⟨past, sent, hStanding, hLength,
      fun senv hMem => (hKept senv hMem).imp id fun hLog => hSpares.log hLog⟩
  · rw [hTask]
    exact h.written
  · rw [hTask]
    exact h.undialed
  · rw [hHolds]
    exact h.seat
  · rw [hTask]
    exact h.gone
  · exact fun hOpen => hSpares.whole (h.whole hOpen)
  · rw [hTask]
    exact fun hFree => hSpares.unclaimed (h.unclaimed hFree)
  · rw [hTask, hSpares.sent]
    exact h.fed

/-- The task of an unfinished party has not gone: it waits to join, or serves. -/
theorem Lane.task_cases (h : Lane K stages calls result p party handed up down hub)
    (hOpen : ended party = false) :
    hub.tasks p.toNat = none ∨ hub.tasks p.toNat = some .joining ∨
    ∃ chan, hub.holds p.toNat = some (mailbox K p, chan) ∧
      (hub.tasks p.toNat = some (.serving (mailbox K p) chan) ∨
        ∃ frame, hub.tasks p.toNat = some (.writing (mailbox K p) chan frame)) := by
  -- a party that has not ended has a task that has not left
  have hStays : ¬ Departed (hub.tasks p.toNat) := by
    intro hGone
    rw [(h.gone hGone).1] at hOpen
    simp at hOpen
  rcases hTask : hub.tasks p.toNat with _ | task
  · exact Or.inl rfl
  right
  rcases task with _ | ⟨key, chan⟩ | ⟨key, chan, frame⟩ | ⟨key, chan⟩ | _
  · exact Or.inl rfl
  · right
    have hHolds : hub.holds p.toNat = some (key, chan) := Hub.holds_eq hTask
    obtain rfl := h.seat key chan hHolds
    exact ⟨chan, hHolds, Or.inl rfl⟩
  · right
    have hHolds : hub.holds p.toNat = some (key, chan) := Hub.holds_eq hTask
    obtain rfl := h.seat key chan hHolds
    exact ⟨chan, hHolds, Or.inr ⟨frame, rfl⟩⟩
  · exact absurd (Or.inl ⟨key, chan, hTask⟩) hStays
  · exact absurd (Or.inr hTask) hStays

end

theorem mailbox_ne {q : UInt8} (h : q ≠ p) : mailbox K q ≠ mailbox K p :=
  fun hSame => h (Prod.mk.inj hSame).2

theorem toNat_ne {q : UInt8} (h : q ≠ p) : q.toNat ≠ p.toNat :=
  fun hSame => h (UInt8.toNat_inj.mp hSame)

/-- A step about `p` leaves the others' lanes to the hub. -/
theorem Inv.advance (h : Inv K stages calls result w) (p : UInt8)
    (hHub : Hub.Inv frameFraming w'.hub) (hStill : Hub.Still w'.hub)
    (hParty : ∀ q, q ≠ p → w'.party q = w.party q)
    (hHanded : ∀ q, q ≠ p → w'.handed q = w.handed q) (hUp : ∀ q, q ≠ p → w'.up q = w.up q)
    (hDown : ∀ q, q ≠ p → w'.down q = w.down q)
    (hSpares : ∀ q ∈ K.participants, q ≠ p →
      Hub.Spares w.hub w'.hub q.toNat (mailbox K q))
    (hRouted : ∀ e ∈ w'.hub.log, e ∈ w.hub.log ∨ ∃ senv : SignedEnvelope C,
      e = (mailbox K senv.env.recipient, .envelope senv) ∧ K.Sent stages senv)
    (hMine : K.HandedOnly stages p (w'.handed p))
    (hLane : Lane K stages calls result p (w'.party p) (w'.handed p) (w'.up p) (w'.down p) w'.hub) :
    Inv K stages calls result w' where
  hub := hHub
  still := hStill
  handed q := by
    by_cases hq : q = p
    · exact hq ▸ hMine
    · rw [hHanded q hq]
      exact h.handed q
  routed e hMem := (hRouted e hMem).elim (h.routed e) id
  lanes q hq := by
    by_cases hSame : q = p
    · exact hSame ▸ hLane
    · rw [hParty q hSame, hHanded q hSame, hUp q hSame, hDown q hSame]
      exact (h.lanes q hq).spared (hSpares q hq hSame)

-- ---------------------------------------------------------------------------
-- The party's own steps
-- ---------------------------------------------------------------------------

/-- A party that takes a turn is not finished. -/
theorem turn_open {party : Party C κ α} {rnd : UInt8 → UInt8 → SealRandomness C}
    {x : Party C κ α × List (SignedEnvelope C)} (h : party.turn rnd = some x) :
    ended party = false := by
  unfold ended
  split
  · rename_i hNode
    simp [Party.turn, hNode] at h
  · rfl

/-- Nor is one that reads a frame. -/
theorem read_open {party party' : Party C κ α} {frame : Frame C}
    (h : readFrame party frame = some party') : ended party = false := by
  unfold ended
  split
  · rename_i hNode
    rcases frame with key | senv <;> simp [readFrame, Party.receive, hNode] at h
  · rfl

/-- A hub that does nothing spares everyone. -/
theorem spares_refl (hub : Hub.World (Frame C)) (j : Nat) (key : Key) :
    Hub.Spares hub hub j key :=
  ⟨rfl, rfl, List.Subset.refl _, id, id⟩

/-- A dial puts the join, the heading of an empty way up, and starts the task. -/
theorem Inv.dial (h : Inv K stages calls result w) (hp : p ∈ K.participants)
    (hAct : act K cap w (.dial p) = some w') : Inv K stages calls result w' := by
  obtain ⟨w₁, hServe, rfl⟩ := Option.map_eq_some_iff.mp hAct
  obtain ⟨hub, hStep, rfl⟩ := Option.map_eq_some_iff.mp hServe
  have hHub := h.hub.step hStep
  have hStill := Hub.step_still h.hub h.still hStep (fun _ => by simp)
  have hLane := h.lanes p hp
  simp only [Hub.step] at hStep
  split at hStep
  case h_2 => simp at hStep
  rename_i hTask
  obtain rfl := Option.some.inj hStep
  have hNew : (w.hub.goto p.toNat .joining).tasks p.toNat = some .joining :=
    Function.update_self _ _ _
  -- before its dial a party has nothing on the way up
  have hUp : w.up p = [] := hLane.undialed hTask
  -- nobody else's lane is touched
  refine h.advance p hHub hStill (fun _ _ => rfl) (fun _ _ => rfl)
    (fun q hq => Function.update_of_ne hq _ _) (fun _ _ => rfl)
    (fun q _ hq => Hub.spares_goto (toNat_ne hq) _) (fun e hMem => Or.inl hMem) (h.handed p) ?_
  show Lane K stages calls result p (w.party p) (w.handed p) (Function.update w.up p _ p)
    (w.down p) _
  rw [Function.update_self]
  constructor
  · obtain ⟨past, sent, hStanding, -, hKept⟩ := hLane.standing
    refine ⟨past, sent, hStanding, Nat.le_add_left 1 _, ?_⟩
    intro senv hMem
    right
    rcases hKept senv hMem with hOld | hLog
    · simp [hUp] at hOld
    · exact hLog
  · exact ⟨[], by rw [hNew]; rfl, by simp⟩
  · intro hNone
    rw [hNew] at hNone
    simp at hNone
  · intro key chan hHolds
    rw [Hub.holds_eq hNew] at hHolds
    simp [Hub.held] at hHolds
  · intro hGone
    rw [hNew] at hGone
    simp [Departed] at hGone
  · exact fun hOpen => (hLane.whole hOpen).of_same rfl rfl rfl
  · exact fun _ => hLane.unclaimed (Or.inl hTask)
  · intro hOpen
    -- nothing was handed out, and nothing is in hand
    have hFed := hLane.fed hOpen
    rw [hTask] at hFed
    rw [hNew]
    exact hFed

variable (D : K.Direct stages calls result)
include D

/-- What a turn sends goes behind what is already on the way up. -/
theorem Inv.turn (h : Inv K stages calls result w) (hp : p ∈ K.participants)
    (hAct : act K cap w (.turn p) = some w') : Inv K stages calls result w' := by
  simp only [act] at hAct
  split at hAct
  case isFalse => simp at hAct
  rename_i hDialed
  obtain ⟨⟨party, out⟩, hTurn, hRest⟩ := Option.bind_eq_some_iff.mp hAct
  simp only at hRest
  split at hRest
  case isFalse => simp at hRest
  obtain rfl := Option.some.inj hRest
  have hLane := h.lanes p hp
  -- a party that is finished takes no turn
  have hWasOpen := turn_open hTurn
  refine h.advance p h.hub h.still (fun q hq => Function.update_of_ne hq _ _) (fun _ _ => rfl)
    (fun q hq => Function.update_of_ne hq _ _) (fun _ _ => rfl)
    (fun q _ _ => spares_refl _ _ _) (fun e hMem => Or.inl hMem) (h.handed p) ?_
  show Lane K stages calls result p (Function.update w.party p party p) (w.handed p)
    (Function.update w.up p (w.up p ++ out.map .envelope) p) (w.down p) w.hub
  rw [Function.update_self, Function.update_self]
  obtain ⟨past, sent, hStanding, hLength, hKept⟩ := hLane.standing
  -- the protocol's own invariant moves on; what was sent is its concern
  obtain ⟨past', hStanding'⟩ := Ceremony.standing_turn D hp (h.handed p) hStanding hTurn
  constructor
  · refine ⟨past', sent ++ out, hStanding', ?_, ?_⟩
    · rw [List.length_append, List.length_append, List.length_map]
      omega
    · -- every envelope sent is on the way up or was routed: the new ones are the last
      -- on the way up
      intro senv hMem
      rcases List.mem_append.mp hMem with hOld | hNew
      · exact (hKept senv hOld).imp (List.mem_append_left _) id
      · exact Or.inl (List.mem_append_right _ (List.mem_map_of_mem hNew))
  · obtain ⟨envs, hUp, hSent⟩ := hLane.written
    refine ⟨envs ++ out, by rw [hUp, List.map_append, List.append_assoc], ?_⟩
    intro senv hMem
    rcases List.mem_append.mp hMem with hOld | hNew
    · exact hSent senv hOld
    · exact Ceremony.standing_sent hp hStanding' senv (List.mem_append_right _ hNew)
  · intro hNone
    have hNone' : w.task p = none := hNone
    simp [hNone'] at hDialed
  · exact hLane.seat
  · intro hGone
    rw [(hLane.gone hGone).1] at hWasOpen
    simp at hWasOpen
  · exact fun _ => hLane.whole hWasOpen
  · exact hLane.unclaimed
  · exact fun _ => hLane.fed hWasOpen

omit D in
/-- What waits on the way down to an unfinished party is mail for it. -/
theorem Inv.down_mail (h : Inv K stages calls result w) (hp : p ∈ K.participants)
    (hOpen : ended (w.party p) = false) {frame : Frame C} (hFrame : frame ∈ w.down p) :
    ∃ senv, frame = .envelope senv ∧ K.Sent stages senv ∧ senv.env.recipient = p := by
  have hLane := h.lanes p hp
  have hSent : frame ∈ w.hub.sent p.toNat := by
    rw [hLane.fed hOpen]
    exact List.mem_append_left _ (List.mem_append_right _ hFrame)
  -- its task has claimed the mailbox: before the claim the hub sends nothing
  have hClaimed : ∃ chan, w.hub.claims p.toNat = some (mailbox K p, chan) := by
    rcases hLane.task_cases hOpen with hTask | hTask | ⟨chan, hHolds, -⟩
    · rw [h.hub.silent _ (h.hub.unclaimed _ (Or.inl hTask))] at hSent
      simp at hSent
    · rw [h.hub.silent _ (h.hub.unclaimed _ (Or.inr hTask))] at hSent
      simp at hSent
    · exact ⟨chan, h.hub.claimer _ _ _ hHolds⟩
  obtain ⟨chan, hClaim⟩ := hClaimed
  -- and what it sends was delivered to that mailbox, so it was routed there
  obtain ⟨hPrefix, -⟩ := Hub.sent_delivered h.hub hClaim
  obtain ⟨e, hMem, rfl⟩ := List.mem_map.mp (hPrefix.subset hSent)
  obtain ⟨hLog, hKey⟩ := List.mem_filter.mp hMem
  obtain ⟨senv, rfl, hWasSent⟩ := h.routed e (List.mem_of_mem_drop hLog)
  rw [decide_eq_true_eq] at hKey
  exact ⟨senv, rfl, hWasSent, (Prod.mk.inj hKey).2⟩

/-- A frame read leaves the way down and was handed to the party. -/
theorem Inv.read (h : Inv K stages calls result w) (hp : p ∈ K.participants)
    (hAct : act K cap w (.read p) = some w') : Inv K stages calls result w' := by
  simp only [act] at hAct
  split at hAct
  case h_1 => simp at hAct
  rename_i frame rest hDown
  obtain ⟨party, hRead, rfl⟩ := Option.map_eq_some_iff.mp hAct
  have hLane := h.lanes p hp
  have hWasOpen := read_open hRead
  have hFrame : frame ∈ w.down p := by
    rw [hDown]
    exact List.mem_cons_self
  -- no stray join comes down
  obtain ⟨senv, rfl, hSent, hTo⟩ := h.down_mail hp hWasOpen hFrame
  have hHanded : K.HandedOnly stages p (w.handed p ++ [senv]) := by
    intro s hMem
    rcases List.mem_append.mp hMem with hOld | hNew
    · exact h.handed p s hOld
    · rw [List.mem_singleton.mp hNew]
      exact ⟨hSent, hTo⟩
  refine h.advance p h.hub h.still (fun q hq => Function.update_of_ne hq _ _)
    (fun q hq => Function.update_of_ne hq _ _) (fun _ _ => rfl)
    (fun q hq => Function.update_of_ne hq _ _)
    (fun q _ _ => spares_refl _ _ _) (fun e hMem => Or.inl hMem) ?_ ?_
  · show K.HandedOnly stages p (Function.update w.handed p _ p)
    rwa [Function.update_self]
  show Lane K stages calls result p (Function.update w.party p party p)
    (Function.update w.handed p (w.handed p ++ [senv]) p) (w.up p)
    (Function.update w.down p rest p) w.hub
  rw [Function.update_self, Function.update_self, Function.update_self]
  obtain ⟨past, sent, hStanding, hLength, hKept⟩ := hLane.standing
  constructor
  · -- the protocol's own invariant takes the envelope in
    exact ⟨past, sent, Ceremony.standing_receive D hHanded hStanding hRead, hLength, hKept⟩
  · exact hLane.written
  · exact hLane.undialed
  · exact hLane.seat
  · intro hGone
    rw [(hLane.gone hGone).1] at hWasOpen
    simp at hWasOpen
  · exact fun _ => hLane.whole hWasOpen
  · exact hLane.unclaimed
  · intro _
    -- what was sent splits after one envelope more
    rw [hLane.fed hWasOpen, hDown, List.map_append, List.append_assoc, List.append_assoc,
      List.append_assoc]
    rfl

-- ---------------------------------------------------------------------------
-- The steps of its task
-- ---------------------------------------------------------------------------

/-- What is sent is for this ceremony's mailboxes. -/
theorem sent_inst {senv : SignedEnvelope C} (h : K.Sent stages senv) :
    senv.env.inst = K.roster.inst := by
  obtain ⟨st, -, q, hq, hMem⟩ := h
  exact (concerns_iff.mp (Ceremony.honest_of_mem D hq hMem).concerns).1

omit D in
/-- The hub reads a join: the mailbox is claimed with all its mail in it. -/
theorem Inv.join (h : Inv K stages calls result w) (hp : p ∈ K.participants) {frame : Frame C}
    {rest : List (Frame C)} {hub : Hub.World (Frame C)} (hUp : w.up p = frame :: rest)
    (hTask : w.hub.tasks p.toNat = some .joining)
    (hStep : Hub.step frameFraming w.hub (.inbound p.toNat (.binary frame)) = some hub) :
    Inv K stages calls result { w with hub, up := Function.update w.up p rest } := by
  have hHub := h.hub.step hStep
  have hStill := Hub.step_still h.hub h.still hStep (fun _ => by simp)
  have hLane := h.lanes p hp
  -- nobody has claimed this mailbox before: its one party joins once
  have hFree := hLane.unclaimed (Or.inr hTask)
  -- the join heads the way up
  obtain ⟨envs, hWritten, hSent⟩ := hLane.written
  rw [hTask, hUp] at hWritten
  obtain ⟨rfl, rfl⟩ := List.cons.inj hWritten
  simp only [Hub.step, hTask, Option.bind_some, Hub.receive, frameFraming,
    Option.some.injEq] at hStep
  subst hStep
  have hJoin := Hub.join_unclaimed hFree p.toNat
  have hNew : (w.hub.join p.toNat (mailbox K p)).tasks p.toNat =
      some (.serving (mailbox K p) (w.hub.box (mailbox K p)).chan) := by
    rw [hJoin]
    exact Function.update_self _ _ _
  have hLog : (w.hub.join p.toNat (mailbox K p)).log = w.hub.log := by
    rw [hJoin]
    rfl
  refine h.advance p hHub hStill (fun _ _ => rfl) (fun _ _ => rfl)
    (fun q hq => Function.update_of_ne hq _ _) (fun _ _ => rfl)
    (fun q _ hq => Hub.spares_join h.hub h.still hFree (toNat_ne hq) (mailbox_ne hq))
    (fun e hMem => Or.inl (hLog ▸ hMem)) (h.handed p) ?_
  show Lane K stages calls result p (w.party p) (w.handed p)
    (Function.update w.up p (envs.map .envelope) p) (w.down p) (w.hub.join p.toNat (mailbox K p))
  rw [Function.update_self]
  constructor
  · obtain ⟨past, sent, hStanding, hLength, hKept⟩ := hLane.standing
    rw [hUp] at hLength
    refine ⟨past, sent, hStanding, Nat.le_of_succ_le hLength, ?_⟩
    intro senv hMem
    rcases hKept senv hMem with hOld | hDone
    · left
      rw [hUp] at hOld
      -- the frame that left is the join, not an envelope
      rcases List.mem_cons.mp hOld with hHead | hTail
      · simp at hHead
      · exact hTail
    · exact Or.inr (hLog ▸ hDone)
  · exact ⟨envs, by rw [hNew]; rfl, hSent⟩
  · intro hNone
    rw [hNew] at hNone
    simp at hNone
  · intro key chan hHolds
    rw [Hub.holds_eq hNew] at hHolds
    exact (Prod.mk.inj (Option.some.inj hHolds)).1.symm
  · intro hGone
    rw [hNew] at hGone
    simp [Departed] at hGone
  · -- the mail that came early is in the mailbox that is claimed
    exact fun hOpen => Hub.whole_join h.hub h.still hFree (hLane.whole hOpen) p.toNat
  · intro hFresh
    rw [hNew] at hFresh
    simp at hFresh
  · intro hOpen
    have hFed := hLane.fed hOpen
    rw [hTask] at hFed
    rw [hNew, hJoin]
    exact hFed

/-- The hub reads an envelope: it leaves the way up for its addressee's mailbox. -/
theorem Inv.route (h : Inv K stages calls result w) (hp : p ∈ K.participants) {frame : Frame C}
    {rest : List (Frame C)} {hub : Hub.World (Frame C)} (hUp : w.up p = frame :: rest) {key : Key}
    {chan : Nat} (hTask : w.hub.tasks p.toNat = some (.serving key chan))
    (hStep : Hub.step frameFraming w.hub (.inbound p.toNat (.binary frame)) = some hub) :
    Inv K stages calls result { w with hub, up := Function.update w.up p rest } := by
  have hHub := h.hub.step hStep
  have hStill := Hub.step_still h.hub h.still hStep (fun _ => by simp)
  have hLane := h.lanes p hp
  obtain ⟨envs, hWritten, hSent⟩ := hLane.written
  rw [hTask, hUp] at hWritten
  -- past its join a party only writes envelopes
  rcases envs with _ | ⟨senv, envs⟩
  · simp [heading] at hWritten
  obtain ⟨rfl, rfl⟩ := List.cons.inj hWritten
  -- each for a mailbox of this ceremony
  have hKey : (senv.env.inst, senv.env.recipient) = mailbox K senv.env.recipient := by
    rw [sent_inst D (hSent senv List.mem_cons_self)]
    rfl
  simp only [Hub.step, hTask, Option.bind_some, Hub.receive, frameFraming,
    Option.some.injEq, hKey] at hStep
  subst hStep
  have hLog : (w.hub.route (mailbox K senv.env.recipient) (.envelope senv)).log =
      w.hub.log ++ [(mailbox K senv.env.recipient, .envelope senv)] := rfl
  have hSpares : ∀ q, Hub.Spares w.hub
      (w.hub.route (mailbox K senv.env.recipient) (.envelope senv)) q.toNat (mailbox K q) :=
    fun q => Hub.spares_route h.hub h.still _ _
  -- routing spares every lane, its own included
  refine h.advance p hHub hStill (fun _ _ => rfl) (fun _ _ => rfl)
    (fun q hq => Function.update_of_ne hq _ _) (fun _ _ => rfl) (fun q _ _ => hSpares q)
    ?_ (h.handed p) ?_
  · intro e hMem
    have hMem' : e ∈ w.hub.log ++ [(mailbox K senv.env.recipient, Frame.envelope senv)] := hMem
    rcases List.mem_append.mp hMem' with hOld | hNew
    · exact Or.inl hOld
    · exact Or.inr ⟨senv, List.mem_singleton.mp hNew, hSent senv List.mem_cons_self⟩
  show Lane K stages calls result p (w.party p) (w.handed p)
    (Function.update w.up p (envs.map .envelope) p) (w.down p) _
  rw [Function.update_self]
  have hSpared := hLane.spared (hSpares p)
  refine { hSpared with standing := ?_, written := ?_, undialed := ?_, gone := ?_ }
  · obtain ⟨past, sent, hStanding, hLength, hKept⟩ := hLane.standing
    rw [hUp, List.length_cons] at hLength
    refine ⟨past, sent, hStanding, by omega, ?_⟩
    intro s hMem
    rw [hLog]
    -- the envelope that left the way up is in the hub's log
    rcases hKept s hMem with hOld | hDone
    · rw [hUp] at hOld
      rcases List.mem_cons.mp hOld with hHead | hTail
      · obtain rfl := Frame.envelope.inj hHead
        exact Or.inr (List.mem_append_right _ (List.mem_singleton_self _))
      · exact Or.inl hTail
    · exact Or.inr (List.mem_append_left _ hDone)
  · refine ⟨envs, ?_, fun s hMem => hSent s (List.mem_cons_of_mem _ hMem)⟩
    rw [(hSpares p).task, hTask]
    rfl
  · intro hNone
    rw [(hSpares p).task, hTask] at hNone
    simp at hNone
  · intro hGone
    rw [(hSpares p).task, hTask] at hGone
    simp [Departed] at hGone

omit D in
/-- A step after which the task of `p` is elsewhere and nothing else at the hub
but its socket's record and its channel has changed. -/
theorem Inv.moved (h : Inv K stages calls result w) (hHub : Hub.Inv frameFraming w'.hub)
    (hStill : Hub.Still w'.hub) (hParty : w'.party = w.party) (hHanded : w'.handed = w.handed)
    (hUp : w'.up = w.up) (hDown : ∀ q, q ≠ p → w'.down q = w.down q)
    (hLog : w'.hub.log = w.hub.log)
    (hSpares : ∀ q ∈ K.participants, q ≠ p → Hub.Spares w.hub w'.hub q.toNat (mailbox K q))
    (hLane : Lane K stages calls result p (w.party p) (w.handed p) (w.up p) (w'.down p) w'.hub) :
    Inv K stages calls result w' := by
  refine h.advance p hHub hStill (fun q _ => by rw [hParty]) (fun q _ => by rw [hHanded])
    (fun q _ => by rw [hUp]) hDown hSpares (fun e hMem => Or.inl (hLog ▸ hMem))
    (by rw [hHanded]; exact h.handed p) ?_
  rw [hParty, hHanded, hUp]
  exact hLane

omit D in
/-- A finished party with an empty way up is noticed by its task. -/
theorem Inv.hangUp (h : Inv K stages calls result w) (hp : p ∈ K.participants)
    {hub : Hub.World (Frame C)} (hUp : w.up p = []) (hEnded : ended (w.party p) = true)
    (hStep : Hub.step frameFraming w.hub (.inbound p.toNat .closed) = some hub) :
    Inv K stages calls result { w with hub } := by
  have hHub := h.hub.step hStep
  have hStill := Hub.step_still h.hub h.still hStep (fun _ => by simp)
  have hLane := h.lanes p hp
  obtain ⟨task, hTask, hReceive⟩ := Option.bind_eq_some_iff.mp hStep
  -- a task before its join still has that to read, one that writes does not read
  rcases task with _ | ⟨key, chan⟩ | _ | _ | _
  · obtain ⟨envs, hWritten, -⟩ := hLane.written
    rw [hTask, hUp] at hWritten
    simp [heading] at hWritten
  · obtain rfl := Option.some.inj hReceive
    have hNew : (w.hub.goto p.toNat (.leaving key chan)).tasks p.toNat =
        some (.leaving key chan) := Function.update_self _ _ _
    refine h.moved hHub hStill rfl rfl rfl (fun _ _ => rfl) rfl
      (fun q _ hq => Hub.spares_goto (toNat_ne hq) _) ?_
    constructor
    · exact hLane.standing
    · exact ⟨[], by rw [hNew, hUp]; rfl, by simp⟩
    · exact fun _ => hUp
    · intro key' chan' hHolds
      refine hLane.seat key' chan' ?_
      rw [Hub.holds_eq hNew] at hHolds
      rw [Hub.holds_eq hTask]
      exact hHolds
    · exact fun _ => ⟨hEnded, hUp⟩
    · exact fun hOpen => (hLane.whole hOpen).of_same rfl rfl rfl
    · intro hFresh
      rw [hNew] at hFresh
      simp at hFresh
    · intro hOpen
      rw [hEnded] at hOpen
      simp at hOpen
  all_goals simp [Hub.receive] at hReceive

/-- Whatever the hub reads of a party's way up. -/
theorem Inv.hubRead (h : Inv K stages calls result w) (hp : p ∈ K.participants)
    (hAct : act K cap w (.hubRead p) = some w') : Inv K stages calls result w' := by
  simp only [act] at hAct
  split at hAct
  · rename_i frame rest hUp
    obtain ⟨w₁, hServe, rfl⟩ := Option.map_eq_some_iff.mp hAct
    obtain ⟨hub, hStep, rfl⟩ := Option.map_eq_some_iff.mp hServe
    obtain ⟨task, hTask, hReceive⟩ := Option.bind_eq_some_iff.mp hStep
    rcases task with _ | ⟨key, chan⟩ | _ | _ | _
    · exact h.join hp hUp hTask hStep
    · exact h.route D hp hUp hTask hStep
    all_goals simp [Hub.receive] at hReceive
  · rename_i hUp
    split at hAct
    · rename_i hEnded
      obtain ⟨hub, hStep, rfl⟩ := Option.map_eq_some_iff.mp hAct
      exact h.hangUp hp hUp hEnded hStep
    · simp at hAct

omit D in
/-- A frame leaves the channel for the task's hand. -/
theorem Inv.hubTake (h : Inv K stages calls result w) (hp : p ∈ K.participants)
    (hAct : act K cap w (.hubTake p) = some w') : Inv K stages calls result w' := by
  obtain ⟨hub, hStep, rfl⟩ := Option.map_eq_some_iff.mp hAct
  have hHub := h.hub.step hStep
  have hStill := Hub.step_still h.hub h.still hStep (fun _ => by simp)
  have hLane := h.lanes p hp
  simp only [Hub.step] at hStep
  split at hStep
  case h_2 => simp at hStep
  rename_i key chan hTask
  have hHolds : w.hub.holds p.toNat = some (key, chan) := Hub.holds_eq hTask
  split at hStep
  · rename_i frame rest hQueue
    obtain rfl := Option.some.inj hStep
    have hNew : (w.hub.take p.toNat key chan frame rest).tasks p.toNat =
        some (.writing key chan frame) := Function.update_self _ _ _
    refine h.moved hHub hStill rfl rfl rfl (fun _ _ => rfl) rfl
      (fun q _ hq => Hub.spares_take (toNat_ne hq)) ?_
    constructor
    · exact hLane.standing
    · rw [hNew]
      have hWritten := hLane.written
      rw [hTask] at hWritten
      exact hWritten
    · intro hNone
      rw [hNew] at hNone
      simp at hNone
    · intro key' chan' hNow
      refine hLane.seat key' chan' ?_
      rw [Hub.holds_eq hNew] at hNow
      rw [hHolds]
      exact hNow
    · intro hGone
      rw [hNew] at hGone
      simp [Departed] at hGone
    · exact fun hOpen => (hLane.whole hOpen).of_same rfl rfl rfl
    · intro hFresh
      rw [hNew] at hFresh
      simp at hFresh
    · intro hOpen
      -- the frame counts as sent from now on, and is what the task has in hand
      have hFed := hLane.fed hOpen
      rw [hTask] at hFed
      show Function.update w.hub.sent p.toNat (w.hub.sent p.toNat ++ [frame]) p.toNat = _
      rw [Function.update_self, hNew, hFed]
      simp [current]
  · -- the mailbox of a serving task is still there
    obtain ⟨m, hBox, hChan, -⟩ := h.hub.holder _ _ _ hHolds
    rw [if_pos (by rw [hBox, Option.map_some, hChan])] at hStep
    simp at hStep

omit D in
/-- A written frame is the last on the way down. -/
theorem Inv.hubWrite (h : Inv K stages calls result w) (hp : p ∈ K.participants)
    (hAct : act K cap w (.hubWrite p) = some w') (hFailed : w'.failed = false) :
    Inv K stages calls result w' := by
  simp only [act] at hAct
  split at hAct
  case h_2 => simp at hAct
  rename_i key chan frame hTask
  split at hAct
  · -- a write to a party that is gone fails, which is excluded here
    obtain ⟨w₁, -, rfl⟩ := Option.map_eq_some_iff.mp hAct
    simp at hFailed
  split at hAct
  case isFalse => simp at hAct
  obtain ⟨w₁, hServe, rfl⟩ := Option.map_eq_some_iff.mp hAct
  obtain ⟨hub, hStep, rfl⟩ := Option.map_eq_some_iff.mp hServe
  have hHub := h.hub.step hStep
  have hStill := Hub.step_still h.hub h.still hStep (fun _ => by simp)
  have hLane := h.lanes p hp
  have hTask' : w.hub.tasks p.toNat = some (.writing key chan frame) := hTask
  simp only [Hub.step, hTask', if_true, Option.some.injEq] at hStep
  subst hStep
  have hNew : (w.hub.goto p.toNat (.serving key chan)).tasks p.toNat =
      some (.serving key chan) := Function.update_self _ _ _
  refine h.moved (p := p) hHub hStill rfl rfl rfl (fun q hq => Function.update_of_ne hq _ _) rfl
    (fun q _ hq => Hub.spares_goto (toNat_ne hq) _) ?_
  show Lane K stages calls result p (w.party p) (w.handed p) (w.up p)
    (Function.update w.down p (w.down p ++ [frame]) p) _
  rw [Function.update_self]
  constructor
  · exact hLane.standing
  · rw [hNew]
    have hWritten := hLane.written
    rw [hTask'] at hWritten
    exact hWritten
  · intro hNone
    rw [hNew] at hNone
    simp at hNone
  · intro key' chan' hNow
    refine hLane.seat key' chan' ?_
    rw [Hub.holds_eq hNew] at hNow
    rw [Hub.holds_eq hTask']
    exact hNow
  · intro hGone
    rw [hNew] at hGone
    simp [Departed] at hGone
  · exact fun hOpen => (hLane.whole hOpen).of_same rfl rfl rfl
  · intro hFresh
    rw [hNew] at hFresh
    simp at hFresh
  · intro hOpen
    -- it moves from the task's hand to the end of the way down
    have hFed := hLane.fed hOpen
    rw [hTask'] at hFed
    rw [hNew]
    show w.hub.sent p.toNat = _
    rw [hFed]
    simp [current]

omit D in
/-- Only a finished party's mailbox is removed. -/
theorem Inv.cleanup (h : Inv K stages calls result w) (hp : p ∈ K.participants)
    (hAct : act K cap w (.cleanup p) = some w') : Inv K stages calls result w' := by
  obtain ⟨hub, hStep, rfl⟩ := Option.map_eq_some_iff.mp hAct
  have hHub := h.hub.step hStep
  have hStill := Hub.step_still h.hub h.still hStep (fun _ => by simp)
  have hLane := h.lanes p hp
  simp only [Hub.step] at hStep
  split at hStep
  case h_2 => simp at hStep
  rename_i key chan hTask
  obtain rfl := Option.some.inj hStep
  obtain rfl := hLane.seat key chan (Hub.holds_eq hTask)
  -- a task leaves only after its party has ended with nothing on the way up
  obtain ⟨hEnded, hUp⟩ := hLane.gone (Or.inl ⟨_, chan, hTask⟩)
  have hNew : (w.hub.leave p.toNat (mailbox K p) chan).tasks p.toNat = some .returned :=
    Function.update_self _ _ _
  refine h.moved hHub hStill rfl rfl rfl (fun _ _ => rfl) rfl
    (fun q _ hq => Hub.spares_leave (toNat_ne hq) (mailbox_ne hq) _) ?_
  constructor
  · exact hLane.standing
  · exact ⟨[], by rw [hNew, hUp]; rfl, by simp⟩
  · exact fun _ => hUp
  · intro key' chan' hHolds
    rw [Hub.holds_eq hNew] at hHolds
    simp [Hub.held] at hHolds
  · exact fun _ => ⟨hEnded, hUp⟩
  · intro hOpen
    rw [hEnded] at hOpen
    simp at hOpen
  · intro hFresh
    rw [hNew] at hFresh
    simp at hFresh
  · intro hOpen
    rw [hEnded] at hOpen
    simp at hOpen

/-- **Step lemma.** -/
theorem Inv.step (h : Inv K stages calls result w) {a : Act} (hStep : step K cap w a = some w')
    (hFailed : w'.failed = false) : Inv K stages calls result w' := by
  unfold Plane.step at hStep
  split at hStep
  case isFalse => simp at hStep
  rename_i hp
  -- one lemma for each kind of step
  match a with
  | .dial p => exact h.dial hp hStep
  | .turn p => exact h.turn D hp hStep
  | .read p => exact h.read D hp hStep
  | .hubRead p => exact h.hubRead D hp hStep
  | .hubTake p => exact h.hubTake hp hStep
  | .hubWrite p => exact h.hubWrite hp hStep hFailed
  | .cleanup p => exact h.cleanup hp hStep

-- ---------------------------------------------------------------------------
-- Runs
-- ---------------------------------------------------------------------------

/-- Before anyone dials there is nothing on the way. -/
theorem Inv.init {ttl : Nat} (hTtl : 0 < ttl) : Inv K stages calls result (init K ttl) where
  hub := Hub.inv_init frameFraming ttl
  still := ⟨rfl, hTtl⟩
  handed p := by
    intro senv hMem
    simp [Plane.init] at hMem
  routed e hMem := by
    simp [Plane.init, Hub.World.init] at hMem
  lanes p hp := by
    obtain ⟨past, sent, hStanding, hKept⟩ := (Ceremony.Inv.init D).standing p hp
    -- nobody has sent anything, and the hub is empty
    have hNothing : ∀ senv, senv ∉ sent := by
      intro senv hMem
      rcases hKept senv hMem with h | h <;> simp [Ceremony.init] at h
    refine ⟨⟨past, sent, hStanding, Nat.zero_le _, fun senv hMem => ?_⟩, ⟨[], rfl, by simp⟩,
      fun _ => rfl, ?_, ?_, ?_, ?_, fun _ => rfl⟩
    · exact absurd hMem (hNothing senv)
    · intro key chan hHolds
      simp [Plane.init, Hub.World.init, Hub.World.holds] at hHolds
    · intro hGone
      simp [Plane.init, Hub.World.init, Departed] at hGone
    · intro _
      refine ⟨fun _ e hMem => ?_, fun m _ e hMem => ?_⟩ <;>
        simp [Plane.init, Hub.World.init] at hMem
    · intro _ m hBox
      simp [Plane.init, Hub.World.init, EnvelopeHub.new] at hBox

omit D in
/-- A connection that failed stays so. -/
theorem step_failed {a : Act} (hStep : Plane.step K cap w a = some w')
    (hFailed : w'.failed = false) : w.failed = false := by
  unfold Plane.step at hStep
  split at hStep
  case isFalse => simp at hStep
  -- what the hub does by itself fails no connection; `hubWrite` may
  have hServe : ∀ {a : Hub.Action (Frame C)} {w₁ : Plane C κ α}, w.serve a = some w₁ →
      w₁.failed = w.failed := by
    intro a w₁ h
    obtain ⟨hub, -, rfl⟩ := Option.map_eq_some_iff.mp h
    rfl
  match a with
  | .dial p =>
    obtain ⟨w₁, hDial, rfl⟩ := Option.map_eq_some_iff.mp hStep
    exact (hServe hDial).symm.trans hFailed
  | .turn p =>
    simp only [act] at hStep
    split at hStep
    case isFalse => simp at hStep
    obtain ⟨⟨party, out⟩, -, hRest⟩ := Option.bind_eq_some_iff.mp hStep
    simp only at hRest
    split at hRest
    · rw [← Option.some.inj hRest] at hFailed
      exact hFailed
    · simp at hRest
  | .read p =>
    simp only [act] at hStep
    split at hStep
    · simp at hStep
    · obtain ⟨party, -, rfl⟩ := Option.map_eq_some_iff.mp hStep
      exact hFailed
  | .hubRead p =>
    simp only [act] at hStep
    split at hStep
    · obtain ⟨w₁, hRead, rfl⟩ := Option.map_eq_some_iff.mp hStep
      exact (hServe hRead).symm.trans hFailed
    · split at hStep
      · exact (hServe hStep).symm.trans hFailed
      · simp at hStep
  | .hubTake p | .cleanup p => exact (hServe hStep).symm.trans hFailed
  | .hubWrite p =>
    simp only [act] at hStep
    split at hStep
    · split at hStep
      · obtain ⟨w₁, -, rfl⟩ := Option.map_eq_some_iff.mp hStep
        simp at hFailed
      · split at hStep
        · obtain ⟨w₁, hWrite, rfl⟩ := Option.map_eq_some_iff.mp hStep
          exact (hServe hWrite).symm.trans hFailed
        · simp at hStep
    · simp at hStep

/-- **Run lemma.** The invariant holds wherever no exchange has failed. -/
theorem inv_of_reach {ttl : Nat} (hTtl : 0 < ttl) (hReach : Reach K cap ttl w)
    (hFailed : w.failed = false) : Inv K stages calls result w := by
  have hRun : w.failed = false → Inv K stages calls result w := by
    refine Machine.Reach.invariant hReach (fun _ => Inv.init D hTtl) ?_
    intro w a w' hInv _ hStep hOpen
    exact (hInv (step_failed hStep hOpen)).step D hStep hOpen
  exact hRun hFailed

-- ---------------------------------------------------------------------------
-- A plane that has stopped
-- ---------------------------------------------------------------------------

omit D in
/-- An ended party has its result. -/
theorem ended_iff {party : Party C κ α} :
    ended party = true ↔ ∃ r, party.node = .finished r := by
  unfold ended
  rcases party.node with _ | _ | r <;> simp

omit D in
/-- What a party sends by itself is the next envelope of its round. -/
theorem turn_sends {party party' : Party C κ α} {rnd : UInt8 → UInt8 → SealRandomness C}
    {out : List (SignedEnvelope C)} (h : party.turn rnd = some (party', out)) (hOut : out ≠ []) :
    ∃ ex r senv todo expect next, party.node = .sending ex r (.ok senv :: todo) expect next := by
  unfold Party.turn at h
  split at h
  · rename_i ex r senv todo expect next hNode
    exact ⟨ex, r, senv, todo, expect, next, hNode⟩
  · simp only [Option.some.injEq, Prod.mk.injEq] at h
    exact absurd h.2.symm hOut
  · split at h <;> simp only [Option.some.injEq, Prod.mk.injEq] at h <;> exact absurd h.2.symm hOut
  · split at h
    · simp only [Option.some.injEq, Prod.mk.injEq] at h
      exact absurd h.2.symm hOut
    · simp at h
  · simp at h

omit D in
/-- A task before or in its loop reads whatever comes up. -/
theorem hubRead_some {frame : Frame C} {rest : List (Frame C)} (hUp : w.up p = frame :: rest)
    (hTask : w.hub.tasks p.toNat = some .joining ∨
      ∃ key chan, w.hub.tasks p.toNat = some (.serving key chan)) :
    act K cap w (.hubRead p) ≠ none := by
  have hStep : ∃ hub, Hub.step frameFraming w.hub (.inbound p.toNat (.binary frame)) = some hub := by
    rcases hTask with hTask | ⟨key, chan, hTask⟩
    · rcases hJoin : frameFraming.join frame with _ | key <;>
        exact ⟨_, by simp only [Hub.step, hTask, Option.bind_some, Hub.receive, hJoin]; rfl⟩
    · rcases hRoute : frameFraming.route frame with _ | key' <;>
        exact ⟨_, by simp only [Hub.step, hTask, Option.bind_some, Hub.receive, hRoute]; rfl⟩
  obtain ⟨hub, hStep⟩ := hStep
  simp [act, hUp, serve, hStep]

/-- Nothing can happen on the plane, and no two wait for each other. -/
structure Stopped (K : Ceremony C κ α) (cap : Capacity) (w : Plane C κ α) : Prop where
  stuck : ∀ a, Plane.step K cap w a = none
  unpaired : ∀ p ∈ K.participants, ¬ TwoWay cap w p

omit D in
/-- In a stopped plane no participant can act. -/
theorem Stopped.act_none (hStop : Stopped K cap w) (a : Act) (ha : a.party ∈ K.participants) :
    act K cap w a = none := by
  have hNone := hStop.stuck a
  unfold Plane.step at hNone
  rwa [if_pos ha] at hNone

section

variable (hCap : cap.Positive) (hStop : Stopped K cap w)
include hStop

omit D in
/-- Every party has dialed and joined. -/
theorem Stopped.task (h : Inv K stages calls result w) (hp : p ∈ K.participants)
    (hOpen : ended (w.party p) = false) :
    ∃ chan, w.hub.holds p.toNat = some (mailbox K p, chan) ∧
      (w.hub.tasks p.toNat = some (.serving (mailbox K p) chan) ∨
        ∃ frame, w.hub.tasks p.toNat = some (.writing (mailbox K p) chan frame)) := by
  have hLane := h.lanes p hp
  rcases hLane.task_cases hOpen with hTask | hTask | hServes
  · have hNone := hStop.act_none (.dial p) hp
    simp [act, serve, Hub.step, hTask] at hNone
  · obtain ⟨envs, hUp, -⟩ := hLane.written
    rw [hTask] at hUp
    exact absurd (hStop.act_none (.hubRead p) hp) (hubRead_some hUp (Or.inl hTask))
  · exact hServes

omit D in
/-- A way up is only full while its task writes. -/
theorem Stopped.serving_up (hp : p ∈ K.participants) {key : Key} {chan : Nat}
    (hTask : w.hub.tasks p.toNat = some (.serving key chan)) : w.up p = [] := by
  rcases hUp : w.up p with _ | ⟨frame, rest⟩
  · rfl
  · exact absurd (hStop.act_none (.hubRead p) hp) (hubRead_some hUp (Or.inr ⟨key, chan, hTask⟩))

omit D in
/-- A task only waits to write to an unfinished party's full socket. -/
theorem Stopped.writing_down (hp : p ∈ K.participants) {key : Key} {chan : Nat} {frame : Frame C}
    (hTask : w.hub.tasks p.toNat = some (.writing key chan frame)) :
    ended (w.party p) = false ∧ cap.down p ≤ (w.down p).length := by
  have hTask' : w.task p = some (.writing key chan frame) := hTask
  have hNone := hStop.act_none (.hubWrite p) hp
  simp only [act, hTask'] at hNone
  split at hNone
  · simp [serve, Hub.step, hTask] at hNone
  rename_i hOpen
  split at hNone
  · simp [serve, Hub.step, hTask] at hNone
  rename_i hFull
  exact ⟨by simpa using hOpen, by omega⟩

include hCap

omit D in
/-- No party has a move of its own. -/
theorem Stopped.idle (h : Inv K stages calls result w) (hp : p ∈ K.participants) :
    (w.party p).turn (K.rnd p) = none := by
  rcases hTurn : (w.party p).turn (K.rnd p) with _ | ⟨party, out⟩
  · rfl
  exfalso
  obtain ⟨chan, -, hServes⟩ := hStop.task h hp (turn_open hTurn)
  have hDialed : (w.task p).isSome = true := by
    rcases hServes with hTask | ⟨frame, hTask⟩ <;> simp [Plane.task, hTask]
  have hNone := hStop.act_none (.turn p) hp
  simp only [act, if_pos hDialed, hTurn, Option.bind_some] at hNone
  split at hNone
  · simp at hNone
  rename_i hBlocked
  rw [not_or] at hBlocked
  obtain ⟨hOut, hFull⟩ := hBlocked
  have hRoom := hCap p
  rcases hServes with hTask | ⟨frame, hTask⟩
  · -- a serving task has emptied the way up, so there is room
    rw [hStop.serving_up hp hTask, List.length_nil] at hFull
    omega
  · -- a writing one waits for the party's socket while the party waits for it: the pair
    -- that is excluded
    refine hStop.unpaired p hp ⟨turn_sends hTurn hOut, by omega, ⟨_, chan, frame, hTask⟩, ?_⟩
    exact (hStop.writing_down hp hTask).2

/-- Nothing waits on the way down. -/
theorem Stopped.down (h : Inv K stages calls result w) (hp : p ∈ K.participants)
    (hOpen : ended (w.party p) = false) : w.down p = [] := by
  rcases hDown : w.down p with _ | ⟨frame, rest⟩
  · rfl
  exfalso
  have hFrame : frame ∈ w.down p := by
    rw [hDown]
    exact List.mem_cons_self
  obtain ⟨senv, rfl, -, -⟩ := h.down_mail hp hOpen hFrame
  obtain ⟨past, sent, hStanding, -, -⟩ := (h.lanes p hp).standing
  have hWaits : ∀ r, (w.party p).node ≠ .finished r := by
    intro r hNode
    rw [ended_iff.mpr ⟨r, hNode⟩] at hOpen
    simp at hOpen
  have hSome := Ceremony.receive_isSome D (h.handed p) hStanding (hStop.idle hCap h hp) hWaits senv
  have hNone := hStop.act_none (.read p) hp
  simp only [act, hDown, readFrame, Option.map_eq_none_iff] at hNone
  simp [hNone] at hSome

/-- The tasks of unfinished parties are in their `select!`. -/
theorem Stopped.serves (h : Inv K stages calls result w) (hp : p ∈ K.participants)
    (hOpen : ended (w.party p) = false) :
    ∃ chan, w.hub.holds p.toNat = some (mailbox K p, chan) ∧
      w.hub.tasks p.toNat = some (.serving (mailbox K p) chan) := by
  obtain ⟨chan, hHolds, hTask | ⟨frame, hTask⟩⟩ := hStop.task h hp hOpen
  · exact ⟨chan, hHolds, hTask⟩
  · have hFull := (hStop.writing_down hp hTask).2
    have hRoom := hCap p
    rw [hStop.down D hCap h hp hOpen, List.length_nil] at hFull
    omega

/-- Nothing waits on the way up, also of those who are done. -/
theorem Stopped.up (h : Inv K stages calls result w) (hp : p ∈ K.participants) : w.up p = [] := by
  rcases hEnded : ended (w.party p) with _ | _
  · obtain ⟨chan, -, hTask⟩ := hStop.serves D hCap h hp hEnded
    exact hStop.serving_up hp hTask
  have hLane := h.lanes p hp
  rcases hTask : w.hub.tasks p.toNat with _ | task
  · exact hLane.undialed hTask
  rcases task with _ | ⟨key, chan⟩ | ⟨key, chan, frame⟩ | ⟨key, chan⟩ | _
  · obtain ⟨envs, hUp, -⟩ := hLane.written
    rw [hTask] at hUp
    exact absurd (hStop.act_none (.hubRead p) hp) (hubRead_some hUp (Or.inl hTask))
  · exact hStop.serving_up hp hTask
  · have hOpen := (hStop.writing_down hp hTask).1
    rw [hEnded] at hOpen
    simp at hOpen
  · exact (hLane.gone (Or.inl ⟨key, chan, hTask⟩)).2
  · exact (hLane.gone (Or.inr hTask)).2

/-- An unfinished party was handed all that was routed to it. -/
theorem Stopped.reached (h : Inv K stages calls result w) (hp : p ∈ K.participants)
    (hOpen : ended (w.party p) = false) {senv : SignedEnvelope C}
    (hLog : (mailbox K p, .envelope senv) ∈ w.hub.log) : senv ∈ w.handed p := by
  obtain ⟨chan, hHolds, hTask⟩ := hStop.serves D hCap h hp hOpen
  have hLane := h.lanes p hp
  obtain ⟨m, hBox, rfl, -⟩ := h.hub.holder _ _ _ hHolds
  have hQueue : w.hub.hub.queues m.chan = [] := by
    rcases hQueue : w.hub.hub.queues m.chan with _ | ⟨frame, rest⟩
    · rfl
    · have hNone := hStop.act_none (.hubTake p) hp
      simp [act, serve, Hub.step, hTask, hQueue] at hNone
  have hAll := h.hub.handed _ _ _ hHolds
  rw [hQueue, List.append_nil, (hLane.whole hOpen).delivered hBox, hLane.fed hOpen,
    hStop.down D hCap h hp hOpen, hTask, List.append_nil] at hAll
  have hMem : Frame.envelope senv ∈
      (w.hub.log.filter fun e => decide (e.1 = mailbox K p)).map Prod.snd :=
    List.mem_map.mpr ⟨_, List.mem_filter.mpr ⟨hLog, by simp⟩, rfl⟩
  rw [← hAll] at hMem
  simp only [current, List.append_nil] at hMem
  obtain ⟨s, hHere, hSame⟩ := List.mem_map.mp hMem
  exact Frame.envelope.inj hSame ▸ hHere

/-- A plane that has stopped without a pair is done. -/
theorem Stopped.finished (h : Inv K stages calls result w) (hp : p ∈ K.participants) :
    ended (w.party p) = true := by
  have hReached : ∀ q ∈ K.participants, ∃ past sent,
      Ceremony.Standing K stages (calls q) (result q) q (w.handed q) past (w.party q) sent ∧
        ∀ senv ∈ sent, senv.env.recipient ∈ K.participants →
          (∀ r, (w.party senv.env.recipient).node ≠ .finished r) →
          senv ∈ w.handed senv.env.recipient := by
    intro q hq
    obtain ⟨past, sent, hStanding, -, hKept⟩ := (h.lanes q hq).standing
    refine ⟨past, sent, hStanding, ?_⟩
    intro senv hSent hTo hWaits
    have hOpen : ended (w.party senv.env.recipient) = false := by
      rcases hEnded : ended (w.party senv.env.recipient) with _ | _
      · rfl
      · obtain ⟨r, hNode⟩ := ended_iff.mp hEnded
        exact absurd hNode (hWaits r)
    rcases hKept senv hSent with hUp | hLog
    · rw [hStop.up D hCap h hq] at hUp
      simp at hUp
    · exact hStop.reached D hCap h hTo hOpen hLog
  obtain ⟨past, sent, hStanding, -, -⟩ := (h.lanes p hp).standing
  exact ended_iff.mpr (Ceremony.all_finished D h.handed hReached
    (fun q hq => hStop.idle hCap h hq) past.length p hp past sent hStanding rfl)

end

-- ---------------------------------------------------------------------------
-- Room on the way up
-- ---------------------------------------------------------------------------

omit D in
/-- A party that has an envelope left to send has not sent all. -/
theorem standing_unsent {past : List Stage} {handed : List (SignedEnvelope C)}
    {party : Party C κ α} {sent : List (SignedEnvelope C)}
    (h : Ceremony.Standing K stages (calls p) (result p) p handed past party sent)
    {ex : Exchange C} {r : UInt8} {senv : Except Halt (SignedEnvelope C)}
    {todo : List (Except Halt (SignedEnvelope C))} {expect : Expect}
    {next : RoundInbox → Script κ α}
    (hNode : party.node = .sending ex r (senv :: todo) expect next) :
    sent.length < (stages.flatMap fun st => K.envelopes st p).length := by
  cases h with
  | @sending past st rest sent todo' lo made left next' hStages hSplit _ _ _ =>
    obtain ⟨-, -, hTodo, -, -⟩ := Node.sending.inj hNode
    have hLeft : todo'.length = todo.length + 1 := by
      have hLength := congrArg List.length hTodo
      rwa [List.length_map, List.length_cons] at hLength
    rw [hStages, List.flatMap_append, List.flatMap_cons, hSplit]
    simp only [List.length_append]
    omega
  | receiving => simp at hNode
  | finished => simp at hNode

omit D in
/-- A way up that takes all of a party's envelopes is never full with one more to
send. -/
theorem unpaired_of_room (h : Inv K stages calls result w) (hp : p ∈ K.participants)
    (hRoom : (stages.flatMap fun st => K.envelopes st p).length < cap.up p) : ¬ TwoWay cap w p := by
  rintro ⟨⟨ex, r, senv, todo, expect, next, hNode⟩, hFull, -, -⟩
  obtain ⟨past, sent, hStanding, hLength, -⟩ := (h.lanes p hp).standing
  have hUnsent := standing_unsent hStanding hNode
  omega

end

end Plane

open Plane

/-- **The only deadlock of the relay plane.** When nothing can happen although a
party is unfinished and no connection failed, some party waits to write to its
full socket while its task at the hub waits to write to the other direction of
that socket, full too. That never happens where every party's way up holds its
join and all envelopes it sends in the ceremony. -/
theorem plane_progress {C : Crypto} {κ α : Type} {K : Ceremony C κ α} {stages : List Stage}
    {calls : UInt8 → List κ} {result : UInt8 → Except Halt α} (D : K.Direct stages calls result)
    {cap : Capacity} (hCap : cap.Positive) {ttl : Nat} (hTtl : 0 < ttl) :
    (∀ w, Reach K cap ttl w → w.failed = false → Unfinished K w →
      (∃ a w', step K cap w a = some w') ∨ ∃ p ∈ K.participants, TwoWay cap w p) ∧
    ((∀ p ∈ K.participants, (stages.flatMap fun st => K.envelopes st p).length < cap.up p) →
      Progresses K cap ttl) := by
  -- a plane in which nothing moves and nobody is in a two-way wait has finished
  have hEither : ∀ w, Reach K cap ttl w → w.failed = false → Unfinished K w →
      (∃ a w', step K cap w a = some w') ∨ ∃ p ∈ K.participants, TwoWay cap w p := by
    intro w hReach hFailed hUnfinished
    have hInv := inv_of_reach D hTtl hReach hFailed
    by_contra hNeither
    rw [not_or] at hNeither
    obtain ⟨hStuck, hUnpaired⟩ := hNeither
    have hStop : Stopped K cap w := by
      refine ⟨?_, fun p hp hPair => hUnpaired ⟨p, hp, hPair⟩⟩
      intro a
      rcases hStep : step K cap w a with _ | w'
      · rfl
      · exact absurd ⟨a, w', hStep⟩ hStuck
    obtain ⟨p, hp, hOpen⟩ := hUnfinished
    rw [hStop.finished D hCap hInv hp] at hOpen
    simp at hOpen
  refine ⟨hEither, ?_⟩
  intro hRoom w hReach hFailed hUnfinished
  rcases hEither w hReach hFailed hUnfinished with hStep | ⟨p, hp, hPair⟩
  · exact hStep
  · exact absurd hPair (unpaired_of_room (inv_of_reach D hTtl hReach hFailed) hp (hRoom p hp))

-- ---------------------------------------------------------------------------
-- Three parties on sockets of one frame
-- ---------------------------------------------------------------------------

namespace Plane.Sample

open Carbon

/-- A key generation of three. -/
def ceremony : Ceremony Symbolic.crypto (DkgCall Carbon.Sample.dkls Unit)
    (KeyShare × PubkeySec1) :=
  keygen Carbon.Sample.dkls Carbon.Sample.text Carbon.Sample.dkg Carbon.Sample.roster
    Carbon.Sample.rnd

/-- One frame in every direction. -/
def one : Capacity := ⟨fun _ => 1, fun _ => 1⟩

/-- A party dials and its task reads the join. -/
def join (p : UInt8) : List Act := [.dial p, .hubRead p]

/-- `p` writes until its socket is full and its task waits for the next frame. -/
def sendAll (p : UInt8) : List Act := [.turn p, .hubRead p, .turn p, .hubRead p, .turn p]

/-- Parties 1 and 2 write their first round. The task of party 0 takes two frames
for it, of which its socket holds one, and then party 0 starts its own round. The
others read what they got and wait. -/
def acts : List Act :=
  join 0 ++ join 1 ++ join 2 ++ sendAll 1 ++ sendAll 2 ++
    [.hubTake 0, .hubWrite 0, .hubTake 0, .turn 0] ++
    [.hubTake 1, .hubWrite 1, .read 1, .hubTake 2, .hubWrite 2, .read 2]

/-- Every step of the schedule is enabled. -/
theorem acts_run : ((machine ceremony one).run (init ceremony 1) acts).isSome = true := by
  decide +kernel

/-- Where the schedule ends. -/
def locked : Plane Symbolic.crypto (DkgCall Carbon.Sample.dkls Unit) (KeyShare × PubkeySec1) :=
  ((machine ceremony one).run (init ceremony 1) acts).get acts_run

/-- Everything `p` and its task can do. -/
def kinds (p : UInt8) : List Act :=
  [.dial p, .turn p, .read p, .hubRead p, .hubTake p, .hubWrite p, .cleanup p]

/-- Every action of a party is on its list. -/
theorem mem_kinds (a : Act) : a ∈ kinds a.party := by
  cases a <;> simp [kinds, Act.party]

/-- None of the listed actions is enabled there. -/
theorem locked_stuck : (([0, 1, 2].flatMap kinds).all fun a =>
    (step ceremony one locked a).isNone) = true := by
  decide +kernel

/-- The schedule is a run. -/
theorem locked_reach : Reach ceremony one 1 locked :=
  Machine.reach_of_run (Option.some_get acts_run).symm

/-- No action at all is enabled there. -/
theorem locked_none (a : Act) : step ceremony one locked a = none := by
  by_cases ha : a.party ∈ ceremony.participants
  · have hParties : a.party ∈ [(0 : UInt8), 1, 2] := ha
    have hNone := List.all_eq_true.mp locked_stuck a
      (List.mem_flatMap.mpr ⟨a.party, hParties, mem_kinds a⟩)
    simpa using hNone
  · exact if_neg ha

end Plane.Sample

open Plane.Sample in
/-- Three honest parties that have all joined wait for each other for ever. -/
theorem plane_locked : ¬ Progresses ceremony one 1 := by
  intro hProgresses
  have hFailed : locked.failed = false := by decide +kernel
  have hOpen : ended (locked.party 0) = false := by decide +kernel
  obtain ⟨a, w', hStep⟩ := hProgresses locked locked_reach hFailed ⟨0, by decide, hOpen⟩
  rw [locked_none a] at hStep
  simp at hStep

open Plane.Sample Carbon Carbon.Sample in
theorem plane_progress_three :
    (∃ p ∈ ceremony.participants, TwoWay one locked p) ∧
    Progresses ceremony ⟨fun _ => 11, fun _ => 1⟩ 1 := by
  have hScheme : SchemeOk roster.threshold roster.count :=
    ⟨by decide, by decide, by decide⟩
  have hDirect : ceremony.Direct dkgRun.stages dkgRun.calls dkgRun.result :=
    keygen_direct Symbolic.sealedBox symbolic_signs dkls_roundTrips hScheme dkgRun
      (symbolic_seals _ _)
  constructor
  · have hFailed : locked.failed = false := by decide +kernel
    have hOpen : ended (locked.party 0) = false := by decide +kernel
    have hOne : one.Positive := fun _ => ⟨le_rfl, le_rfl⟩
    have hEither := (plane_progress hDirect hOne Nat.one_pos).1 locked locked_reach hFailed
      ⟨0, by decide, hOpen⟩
    rcases hEither with ⟨a, w', hStep⟩ | hPair
    · rw [locked_none a] at hStep
      simp at hStep
    · exact hPair
  · have hRoomy : (⟨fun _ => 11, fun _ => 1⟩ : Capacity).Positive :=
      fun _ => ⟨Nat.succ_pos 10, le_rfl⟩
    exact (plane_progress hDirect hRoomy Nat.one_pos).2 (by decide +kernel)

end Sovra.Ipc
