import Sovra.Ipc.Hub

/-!
# Sovra — what the hub promises of a mailbox

Over every run of one hub: whom a mailbox belongs to, what its claimer's socket
is handed, and what other traffic can do to it.

* `Hub.step_other`   — a step about other keys leaves the queue alone, or drops
  an unclaimed expired mailbox whole.
* `Hub.mailbox_kept` — a mailbox younger than the ttl waits for its claimer.
* `hub_delivers`     — the four promises together.
-/

namespace Sovra.Ipc

open Lib Mpc

namespace Hub

variable {F : Type}

/-- The key a step is about: whose mailbox it claims, fills, drains or removes. -/
def Action.about (Fr : Framing F) (w : World F) : Action F → Option Key
  | .inbound i (.binary frame) =>
    match w.tasks i with
    | some .joining => Fr.join frame
    | some (.serving _ _) => Fr.route frame
    | _ => none
  | .outbound i | .cleanup i => (w.holds i).map Prod.fst
  | _ => none

/-- What waits in the mailbox of `key`. -/
def World.queueOf (w : World F) (key : Key) : Option (List F) :=
  (w.hub.mailboxes key).map fun m => w.hub.queues m.chan

/-- Unclaimed past its ttl. -/
def World.Expired (w : World F) (m : Mailbox) : Prop :=
  m.rx = true ∧ w.hub.unclaimedTtl ≤ w.now - m.created

/-- The task still has its socket. -/
def Up (w : World F) (i : Nat) : Prop :=
  (∃ key chan, w.tasks i = some (.serving key chan)) ∨
    ∃ key chan frame, w.tasks i = some (.writing key chan frame)

section

variable {Fr : Framing F} {w w' : World F}

-- ---------------------------------------------------------------------------
-- Other keys
-- ---------------------------------------------------------------------------

/-- The sweep drops exactly the expired mailboxes. -/
theorem keeps_eq_false {m : Mailbox} : w.hub.keeps w.now m = false ↔ w.Expired m := by
  unfold EnvelopeHub.keeps World.Expired
  rcases m.rx <;> simp

/-- Looking up `key` leaves every other mailbox alone, unless it is expired. -/
theorem looked_other {key k : Key} (hk : k ≠ key) :
    (w.looked key).hub.mailboxes k = w.hub.mailboxes k ∨
      ∃ m, w.hub.mailboxes k = some m ∧ w.Expired m ∧ (w.looked key).hub.mailboxes k = none := by
  rcases hBox : w.hub.mailboxes k with _ | m
  · left
    rcases hLooked : (w.looked key).hub.mailboxes k with _ | m
    · rfl
    · rcases looked_mailboxes hLooked with ⟨hOld, -⟩ | ⟨hSame, -⟩
      · rw [hBox] at hOld
        simp at hOld
      · exact absurd hSame hk
  · rcases hKeeps : w.hub.keeps w.now m with _ | _
    · right
      refine ⟨m, rfl, keeps_eq_false.mp hKeeps, ?_⟩
      rcases hLooked : (w.looked key).hub.mailboxes k with _ | m'
      · rfl
      · rcases looked_mailboxes hLooked with ⟨hOld, hOldKeeps⟩ | ⟨hSame, -⟩
        · rw [hBox, Option.some.injEq] at hOld
          rw [← hOld, hKeeps] at hOldKeeps
          simp at hOldKeeps
        · exact absurd hSame hk
    · exact Or.inl (looked_kept hBox hKeeps)

/-- The mailbox of `key` as it was, or dropped whole for being expired. -/
def Untouched (w w' : World F) (key : Key) : Prop :=
  (w'.hub.mailboxes key = w.hub.mailboxes key ∧ w'.queueOf key = w.queueOf key) ∨
    ∃ m, w.hub.mailboxes key = some m ∧ w.Expired m ∧ w'.hub.mailboxes key = none

/-- The same mailbox on a channel with the same mail. -/
theorem untouched_of_eq {key : Key} (hBoxes : w'.hub.mailboxes key = w.hub.mailboxes key)
    (hQueues : ∀ m, w.hub.mailboxes key = some m →
      w'.hub.queues m.chan = w.hub.queues m.chan) : Untouched w w' key := by
  refine Or.inl ⟨hBoxes, ?_⟩
  unfold World.queueOf
  rw [hBoxes]
  rcases hBox : w.hub.mailboxes key with _ | m
  · rfl
  · simp [hQueues m hBox]

/-- A join marks one mailbox as claimed; the sweep before it may drop expired ones. -/
theorem join_other {i : Nat} {key k : Key} (hk : k ≠ key) : Untouched w (w.join i key) k := by
  have hBoxes : (w.join i key).hub.mailboxes k = (w.looked key).hub.mailboxes k := by
    rw [join_eq]
    split
    · exact Function.update_of_ne hk ..
    · rfl
  have hQueues : (w.join i key).hub.queues = w.hub.queues := by
    rw [join_eq]
    split <;> exact (looked_queues w key).1
  rcases looked_other (w := w) hk with hSame | ⟨m, hBox, hExpired, hGone⟩
  · exact untouched_of_eq (hBoxes.trans hSame) fun m _ => by rw [hQueues]
  · exact Or.inr ⟨m, hBox, hExpired, hBoxes.trans hGone⟩

/-- A frame goes into the channel of its own mailbox, and no two mailboxes share one. -/
theorem route_other (h : Inv Fr w) {key k : Key} {frame : F} (hk : k ≠ key) :
    Untouched w (w.route key frame) k := by
  rw [h.route_eq]
  have hQueues : ∀ m, (w.looked key).hub.mailboxes k = some m →
      ((w.looked key).pushed key (w.box key).chan frame).hub.queues m.chan =
        w.hub.queues m.chan := by
    intro m hBox
    have hNe : m.chan ≠ (w.box key).chan := fun hChan =>
      hk ((h.looked key).apart k key m _ hBox (looked_box w key) hChan)
    show Function.update (w.looked key).hub.queues _ _ m.chan = _
    rw [Function.update_of_ne hNe, (looked_queues w key).1]
  rcases looked_other (w := w) hk with hSame | ⟨m, hBox, hExpired, hGone⟩
  · exact untouched_of_eq hSame fun m hBox => hQueues m (hSame.trans hBox)
  · exact Or.inr ⟨m, hBox, hExpired, hGone⟩

/-- A socket reads from the channel of the mailbox it holds. -/
theorem take_other (h : Inv Fr w) {i : Nat} {key k : Key} {chan : Nat} {frame : F}
    {rest : List F} (hHold : w.holds i = some (key, chan)) (hk : k ≠ key) :
    Untouched w (w.take i key chan frame rest) k := by
  refine untouched_of_eq rfl ?_
  intro m hBox
  have hNe : m.chan ≠ chan := fun hChan => hk (h.holder_chan hHold hBox hChan).1
  exact Function.update_of_ne hNe ..

/-- A cleanup removes one mailbox. -/
theorem leave_other {i : Nat} {key k : Key} {chan : Nat} (hk : k ≠ key) :
    Untouched w (w.leave i key chan) k :=
  untouched_of_eq (Function.update_of_ne hk ..) fun _ _ => rfl

/-- **Frame.** A step about other keys, or about none. -/
theorem step_other (h : Inv Fr w) {a : Action F} (hStep : step Fr w a = some w') {key : Key}
    (hOther : a.about Fr w ≠ some key) : Untouched w w' key := by
  have hSame : ∀ {w₁ : World F}, w₁.hub = w.hub → Untouched w w₁ key := by
    intro w₁ hHub
    exact untouched_of_eq (by rw [hHub]) fun m _ => by rw [hHub]
  cases step_change h hStep with
  | tick _ | idle | goto _ _ => exact hSame rfl
  | join hTask hJoin =>
    refine join_other ?_
    rintro rfl
    simp [Action.about, hTask, hJoin] at hOther
  | route hTask hRoute =>
    refine route_other h ?_
    rintro rfl
    simp [Action.about, hTask, hRoute] at hOther
  | take hTask hQueue =>
    refine take_other h (holds_eq hTask) ?_
    rintro rfl
    simp [Action.about, holds_eq hTask, held] at hOther
  | leave hTask =>
    refine leave_other ?_
    rintro rfl
    simp [Action.about, holds_eq hTask, held] at hOther

-- ---------------------------------------------------------------------------
-- What only grows
-- ---------------------------------------------------------------------------

/-- `w'` comes after `w`: the clock and the records only grow, claims stand, and
channels that were open keep their place in the record. -/
structure Later (w w' : World F) : Prop where
  now : w.now ≤ w'.now
  ttl : w'.hub.unclaimedTtl = w.hub.unclaimedTtl
  fresh : w.hub.fresh ≤ w'.hub.fresh
  log : w.log <+: w'.log
  since : ∀ c, c < w.hub.fresh → w'.since c = w.since c
  claims : ∀ i x, w.claims i = some x → w'.claims i = some x

theorem Later.refl (w : World F) : Later w w :=
  ⟨le_refl _, rfl, le_refl _, List.prefix_refl _, fun _ _ => rfl, fun _ _ h => h⟩

theorem Later.trans {w₁ w₂ w₃ : World F} (h : Later w₁ w₂) (h' : Later w₂ w₃) : Later w₁ w₃ where
  now := le_trans h.now h'.now
  ttl := h'.ttl.trans h.ttl
  fresh := le_trans h.fresh h'.fresh
  log := h.log.trans h'.log
  since c hc := (h'.since c (lt_of_lt_of_le hc h.fresh)).trans (h.since c hc)
  claims i x hClaim := h'.claims i x (h.claims i x hClaim)

/-- A lookup opens at most one channel, after those that were open. -/
theorem looked_later (w : World F) (key : Key) : Later w (w.looked key) where
  now := le_refl _
  ttl := by
    simp only [World.looked, World.setHub, EnvelopeHub.entry]
    split <;> rfl
  fresh := looked_fresh w key
  log := List.prefix_refl _
  since c hc := by
    show (if w.hub.fresh ≤ c then w.log.length else w.since c) = w.since c
    rw [if_neg (by omega)]
  claims _ _ hClaim := hClaim

/-- A join by a socket that has claimed nothing adds a claim and changes none. -/
theorem join_later {i : Nat} {key : Key} (hNone : w.claims i = none) :
    Later w (w.join i key) := by
  refine (looked_later w key).trans ?_
  rw [join_eq]
  split
  · refine ⟨le_refl _, rfl, le_refl _, List.prefix_refl _, fun _ _ => rfl, ?_⟩
    intro j x hClaim
    show Function.update w.claims i _ j = some x
    have hj : j ≠ i := by
      rintro rfl
      rw [show w.claims j = some x from hClaim] at hNone
      simp at hNone
    rw [Function.update_of_ne hj]
    exact hClaim
  · exact ⟨le_refl _, rfl, le_refl _, List.prefix_refl _, fun _ _ => rfl, fun _ _ h => h⟩

/-- A delivery adds to the end of the record. -/
theorem route_later (h : Inv Fr w) {key : Key} {frame : F} : Later w (w.route key frame) := by
  rw [h.route_eq]
  refine (looked_later w key).trans ?_
  exact ⟨le_refl _, rfl, le_refl _, List.prefix_append _ _, fun _ _ => rfl, fun _ _ h => h⟩

/-- **Step lemma.** Every step only adds to what is on record. -/
theorem step_later (h : Inv Fr w) {a : Action F} (hStep : step Fr w a = some w') :
    Later w w' := by
  have hRecords : ∀ {w₁ : World F}, w₁.now = w.now → w₁.hub.unclaimedTtl = w.hub.unclaimedTtl →
      w₁.hub.fresh = w.hub.fresh → w₁.log = w.log → w₁.since = w.since →
      w₁.claims = w.claims → Later w w₁ := by
    intro w₁ hNow hTtl hFresh hLog hSince hClaims
    exact ⟨hNow.ge, hTtl, hFresh.ge, by rw [hLog], fun c _ => by rw [hSince],
      fun i x h => by rw [hClaims, h]⟩
  cases step_change h hStep with
  | tick elapsed =>
    exact ⟨Nat.le_add_right _ _, rfl, le_refl _, List.prefix_refl _, fun _ _ => rfl,
      fun _ _ h => h⟩
  | idle => exact Later.refl w
  | join hTask _ => exact join_later (h.unclaimed _ (Or.inr hTask))
  | route _ _ => exact route_later h
  | goto _ _ | take _ _ | leave _ => exact hRecords rfl rfl rfl rfl rfl rfl

/-- **Run lemma.** So does every run. -/
theorem later_of_reach {w₀ : World F} (h₀ : Inv Fr w₀) (h : Reach Fr w₀ w) :
    Inv Fr w ∧ Later w₀ w := by
  refine Machine.Reach.invariant h ⟨h₀, Later.refl w₀⟩ ?_
  rintro w₁ a w₂ ⟨hInv, hLater⟩ _ hStep
  exact ⟨hInv.step hStep, hLater.trans (step_later hInv hStep)⟩

/-- The frames delivered to `key` after `w`. -/
def World.deliveredAfter (w w' : World F) (key : Key) : List F :=
  ((w'.log.drop w.log.length).filter fun e => e.1 = key).map Prod.snd

/-- What is delivered to an open channel later comes after what was delivered before. -/
theorem Later.delivered (hLater : Later w w') (h : Inv Fr w) {key : Key} {chan : Nat}
    (hOpen : chan < w.hub.fresh) :
    w'.delivered key chan = w.delivered key chan ++ w.deliveredAfter w' key := by
  obtain ⟨ext, hExt⟩ := hLater.log
  unfold World.delivered World.deliveredAfter
  rw [hLater.since chan hOpen, ← hExt, List.drop_append_of_le_length (h.past chan),
    List.drop_left, List.filter_append, List.map_append]

-- ---------------------------------------------------------------------------
-- Mail waits for its claimer
-- ---------------------------------------------------------------------------

/-- A mailbox that survives the sweep is the one the operation finds. -/
theorem box_eq {key : Key} {m : Mailbox} (hBox : w.hub.mailboxes key = some m)
    (hFresh : ¬ w.Expired m) : w.box key = m := by
  have hKeeps : w.hub.keeps w.now m = true := by
    rcases hKeeps : w.hub.keeps w.now m with _ | _
    · exact absurd (keeps_eq_false.mp hKeeps) hFresh
    · rfl
  have hLooked : (w.looked key).hub.mailboxes key = some m := looked_kept hBox hKeeps
  rw [looked_box, Option.some.injEq] at hLooked
  exact hLooked

/-- Who joins first gets the mailbox that waits. -/
theorem join_claims {i : Nat} {key : Key} {m : Mailbox} (hBox : w.hub.mailboxes key = some m)
    (hRx : m.rx = true) (hFresh : ¬ w.Expired m) :
    (w.join i key).claims i = some (key, m.chan) ∧
      (w.join i key).tasks i = some (.serving key m.chan) := by
  have hFound := box_eq hBox hFresh
  rw [join_eq, hFound, if_pos hRx]
  exact ⟨Function.update_self .., Function.update_self ..⟩

/-- **Step lemma.** An unclaimed mailbox that is not expired stays, or is
claimed. -/
theorem step_kept (h : Inv Fr w) {key : Key} {m : Mailbox} (hBox : w.hub.mailboxes key = some m)
    (hRx : m.rx = true) (hFresh : ¬ w.Expired m) {a : Action F}
    (hStep : step Fr w a = some w') :
    w'.hub.mailboxes key = some m ∨ ∃ i, w'.claims i = some (key, m.chan) := by
  have hSpared : Untouched w w' key → w'.hub.mailboxes key = some m := by
    rintro (⟨hSame, -⟩ | ⟨m', hBox', hExpired, -⟩)
    · exact hSame.trans hBox
    · rw [hBox, Option.some.injEq] at hBox'
      exact absurd (hBox' ▸ hExpired) hFresh
  cases step_change h hStep with
  | tick _ | idle | goto _ _ => exact Or.inl hBox
  | @join i _ k _ _ =>
    by_cases hk : key = k
    · subst hk
      exact Or.inr ⟨i, (join_claims hBox hRx hFresh).1⟩
    · exact Or.inl (hSpared (join_other hk))
  | @route _ _ k _ _ _ _ =>
    by_cases hk : key = k
    · subst hk
      left
      rw [h.route_eq]
      show (w.looked key).hub.mailboxes key = some m
      rw [looked_box, box_eq hBox hFresh]
    · exact Or.inl (hSpared (route_other h hk))
  | take hTask hQueue =>
    exact Or.inl hBox
  | leave hTask =>
    -- nobody holds an unclaimed mailbox
    exact Or.inl (hSpared (leave_other (h.free hBox hRx (holds_eq hTask)).symm))

/-- **Run lemma.** Until it is as old as the ttl, an unclaimed mailbox stays or
is claimed. -/
theorem mailbox_kept {w₀ : World F} (h₀ : Inv Fr w₀) {key : Key} {m : Mailbox}
    (hBox : w₀.hub.mailboxes key = some m) (hRx : m.rx = true) (h : Reach Fr w₀ w)
    (hYoung : w.now - m.created < w.hub.unclaimedTtl) :
    w.hub.mailboxes key = some m ∨ ∃ i, w.claims i = some (key, m.chan) := by
  have hRun : Inv Fr w ∧ (w.now - m.created < w.hub.unclaimedTtl →
      w.hub.mailboxes key = some m ∨ ∃ i, w.claims i = some (key, m.chan)) := by
    refine Machine.Reach.invariant h ⟨h₀, fun _ => Or.inl hBox⟩ ?_
    rintro w₁ a w₂ ⟨hInv, hKept⟩ _ hStep
    refine ⟨hInv.step hStep, ?_⟩
    intro hYoung₂
    have hLater := step_later hInv hStep
    have hNow := hLater.now
    have hYoung₁ : w₁.now - m.created < w₁.hub.unclaimedTtl := by
      rw [hLater.ttl] at hYoung₂
      omega
    rcases hKept hYoung₁ with hStill | ⟨i, hClaim⟩
    · refine step_kept hInv hStill hRx ?_ hStep
      rintro ⟨-, hOld⟩
      omega
    · exact Or.inr ⟨i, hLater.claims i _ hClaim⟩
  exact hRun.2 hYoung

/-- What was handed to a socket is a part of what was delivered to its mailbox,
from its start and in order. -/
theorem sent_delivered (h : Inv Fr w) {i : Nat} {key : Key} {chan : Nat}
    (hClaim : w.claims i = some (key, chan)) :
    w.sent i <+: w.delivered key chan ∧ ∀ frame ∈ w.sent i, Fr.route frame = some key := by
  have hPrefix := (h.claimed i key chan hClaim).2
  refine ⟨hPrefix, ?_⟩
  intro frame hFrame
  obtain ⟨e, hMem, rfl⟩ := List.mem_map.mp (hPrefix.subset hFrame)
  obtain ⟨hLog, hKey⟩ := List.mem_filter.mp hMem
  rw [decide_eq_true_eq] at hKey
  rw [← hKey]
  exact h.routed e (List.mem_of_mem_drop hLog)

/-- While its socket is up a claimer has been handed all that was delivered, but
for what waits in the channel. -/
theorem up_handed (h : Inv Fr w) {i : Nat} {key : Key} {chan : Nat} (hUp : Up w i)
    (hClaim : w.claims i = some (key, chan)) :
    w.sent i ++ w.hub.queues chan = w.delivered key chan := by
  obtain ⟨k, c, hHold⟩ : ∃ k c, w.holds i = some (k, c) := by
    rcases hUp with ⟨k, c, hTask⟩ | ⟨k, c, frame, hTask⟩ <;> exact ⟨k, c, holds_eq hTask⟩
  have hSame := h.claimer i k c hHold
  rw [hClaim, Option.some.injEq, Prod.mk.injEq] at hSame
  obtain ⟨rfl, rfl⟩ := hSame
  exact h.handed i key chan hHold

/-- A second claimer is refused at once: it holds nothing, and the mailbox, its
queue and its claimer are as they were. -/
theorem join_refused (h : Inv Fr w) {i j : Nat} {key : Key} {chan : Nat}
    (hHold : w.holds j = some (key, chan)) (hij : j ≠ i) :
    (w.join i key).tasks i = some .returned ∧ (w.join i key).claims = w.claims ∧
      (w.join i key).tasks j = w.tasks j ∧
      (w.join i key).hub.mailboxes key = w.hub.mailboxes key ∧
      (w.join i key).queueOf key = w.queueOf key := by
  obtain ⟨m, hBox, -, hRx⟩ := h.holder j key chan hHold
  have hFresh : ¬ w.Expired m := by
    rintro ⟨hUnclaimed, -⟩
    rw [hRx] at hUnclaimed
    simp at hUnclaimed
  have hLooked : (w.looked key).hub.mailboxes key = w.hub.mailboxes key := by
    rw [looked_box, box_eq hBox hFresh, hBox]
  have hRefused : w.join i key = (w.looked key).goto i .returned := by
    rw [join_eq, box_eq hBox hFresh, hRx]
    rfl
  rw [hRefused]
  refine ⟨Function.update_self .., rfl, Function.update_of_ne hij .., hLooked, ?_⟩
  show ((w.looked key).hub.mailboxes key).map (fun m => (w.looked key).hub.queues m.chan) = _
  rw [hLooked, (looked_queues w key).1]
  rfl

end

end Hub

open Hub

/-- **The hub delivers each mailbox's mail once, in order, to one claimer.** In
every run of one hub: (a) a socket is handed only frames routed to the mailbox
it claimed, the first ones delivered there since the mailbox was opened, in
order; (b) while it is up it has been handed all of these but what is still in
the channel, and a mailbox younger than the ttl is the one its first joiner gets,
with everything delivered to it before; (c) no two tasks hold one mailbox or one channel,
and a second joiner is refused without touching the first one's; (d) steps about
other keys leave the mailbox and its queue as they are, or drop it for being
unclaimed and expired. -/
theorem hub_delivers (ttl : Nat) (w : Hub.World Bytes)
    (hReach : Reach wireFraming (Hub.World.init ttl) w) :
    (∀ i key chan, w.claims i = some (key, chan) →
      w.sent i <+: w.delivered key chan ∧ ∀ frame ∈ w.sent i, peekRoute frame = some key) ∧
    (∀ i key chan, Up w i → w.claims i = some (key, chan) →
      w.sent i ++ w.hub.queues chan = w.delivered key chan) ∧
    (∀ key m, w.hub.mailboxes key = some m → m.rx = true →
      ∀ w₁ i frame w₂, Reach wireFraming w w₁ → w₁.now - m.created < ttl →
        (∀ j, w₁.claims j ≠ some (key, m.chan)) →
        w₁.tasks i = some .joining → wireFraming.join frame = some key →
        step wireFraming w₁ (.inbound i (.binary frame)) = some w₂ →
        w₂.tasks i = some (.serving key m.chan) ∧
        ∀ w₃, Reach wireFraming w₂ w₃ → Up w₃ i →
          w₃.sent i ++ w₃.hub.queues m.chan =
            w.hub.queues m.chan ++ w.deliveredAfter w₃ key) ∧
    (∀ i j key key' chan chan', w.holds i = some (key, chan) → w.holds j = some (key', chan') →
      key = key' ∨ chan = chan' → i = j) ∧
    (∀ i j key chan frame w', w.holds j = some (key, chan) → w.tasks i = some .joining →
      wireFraming.join frame = some key →
      step wireFraming w (.inbound i (.binary frame)) = some w' →
      w'.tasks i = some .returned ∧ w'.claims = w.claims ∧ w'.tasks j = w.tasks j ∧
        w'.hub.mailboxes key = w.hub.mailboxes key ∧ w'.queueOf key = w.queueOf key) ∧
    (∀ a w' key, step wireFraming w a = some w' → a.about wireFraming w ≠ some key →
      (w'.hub.mailboxes key = w.hub.mailboxes key ∧ w'.queueOf key = w.queueOf key) ∨
      ∃ m, w.hub.mailboxes key = some m ∧ w.Expired m ∧ w'.hub.mailboxes key = none) := by
  have hInv := inv_of_reach hReach
  have hTtl : w.hub.unclaimedTtl = ttl := (later_of_reach (inv_init wireFraming ttl) hReach).2.ttl
  refine ⟨fun i key chan hClaim => sent_delivered hInv hClaim,
    fun i key chan hUp hClaim => up_handed hInv hUp hClaim, ?_, ?_, ?_,
    fun a w' key hStep hOther => step_other hInv hStep hOther⟩
  · -- until the ttl is over only a claim can take the mailbox away, and by assumption
    -- there was none
    intro key m hBox hRx w₁ i frame w₂ hReach₁ hYoung hFirst hTask hJoin hStep
    obtain ⟨hInv₁, hLater₁⟩ := later_of_reach hInv hReach₁
    have hTtl₁ : w₁.hub.unclaimedTtl = ttl := hLater₁.ttl.trans hTtl
    have hBox₁ : w₁.hub.mailboxes key = some m := by
      rcases mailbox_kept hInv hBox hRx hReach₁ (by rw [hTtl₁]; exact hYoung) with
        hStill | ⟨j, hClaim⟩
      · exact hStill
      · exact absurd hClaim (hFirst j)
    have hFresh : ¬ w₁.Expired m := by
      rintro ⟨-, hOld⟩
      omega
    have hJoined : w₂ = w₁.join i key := by
      simp only [step, hTask, Option.bind_some, receive, hJoin, Option.some.injEq] at hStep
      exact hStep.symm
    -- so the join gets that very mailbox and its channel
    obtain ⟨hClaim₂, hTask₂⟩ := join_claims (i := i) hBox₁ hRx hFresh
    rw [← hJoined] at hClaim₂ hTask₂
    refine ⟨hTask₂, ?_⟩
    intro w₃ hReach₃ hUp
    have hInv₂ := hInv₁.step hStep
    obtain ⟨hInv₃, hLater₃⟩ := later_of_reach hInv₂ hReach₃
    have hLater : Later w w₃ := (hLater₁.trans (step_later hInv₁ hStep)).trans hLater₃
    -- handed over and waiting make up everything delivered since the mailbox was opened
    rw [up_handed hInv₃ hUp (hLater₃.claims i _ hClaim₂),
      hLater.delivered hInv (hInv.opened key m hBox), hInv.waiting key m hBox hRx]
  · -- a channel belongs to one mailbox, so one channel means one key
    intro i j key key' chan chan' hHold hHold' hSame
    have hKey : key = key' := by
      rcases hSame with hSame | hSame
      · exact hSame
      · obtain ⟨m, hBox, hChan, -⟩ := hInv.holder j key' chan' hHold'
        exact ((hInv.holder_chan hHold hBox (hChan.trans hSame.symm)).1).symm
    subst hKey
    exact hInv.alone i j key chan chan' hHold hHold'
  · -- the second joiner finds the mailbox claimed
    intro i j key chan frame w' hHold hTask hJoin hStep
    have hij : j ≠ i := by
      rintro rfl
      rw [holds_eq hTask] at hHold
      simp [held] at hHold
    have hJoined : w' = w.join i key := by
      simp only [step, hTask, Option.bind_some, receive, hJoin, Option.some.injEq] at hStep
      exact hStep.symm
    rw [hJoined]
    exact join_refused hInv hHold hij

/-- One step is a run. -/
theorem reach_step {Fr : Framing Bytes} {w w' : Hub.World Bytes} {a : Hub.Action Bytes}
    (h : step Fr w a = some w') : Reach Fr w w' :=
  Machine.Reach.step (Machine.Reach.refl w) trivial h

namespace Sample

/-- The mailbox of party 1 in the broadcast's ceremony. -/
def mailKey : Key := (.repeatByte 32 7, 1)

/-- Its bytes on the wire. -/
def frame : Bytes := (broadcast 1).encode (Equiv.refl _)

/-- The example's hub. -/
def hub : Machine (Hub.World Bytes) (Hub.Action Bytes) := machine wireFraming

/-- Party 0 joins and broadcasts. -/
def earlyEvents : List (Hub.Action Bytes) :=
  [.accept 0, .inbound 0 (.binary (Join.encode ⟨.repeatByte 32 7, 0⟩)), .inbound 0 (.binary frame)]

theorem early_some : (hub.run (Hub.World.init 120) earlyEvents).isSome = true := by
  decide +kernel

/-- Party 1 has mail and is not there yet. -/
def early : Hub.World Bytes := (hub.run (Hub.World.init 120) earlyEvents).get early_some

theorem waiting_some : (hub.run early [.accept 1]).isSome = true := by decide +kernel

/-- The hub with the second socket, which has not joined yet. -/
def waiting : Hub.World Bytes := (hub.run early [.accept 1]).get waiting_some

/-- The second socket's join. -/
def hello : Bytes := Join.encode ⟨.repeatByte 32 7, 1⟩

theorem joined_some : (step wireFraming waiting (.inbound 1 (.binary hello))).isSome = true := by decide +kernel

/-- The hub with the second socket serving the mailbox. -/
def joined : Hub.World Bytes := (step wireFraming waiting (.inbound 1 (.binary hello))).get joined_some

theorem handed_some : (hub.run joined [.outbound 1]).isSome = true := by decide +kernel

/-- It has joined and was handed the frame. -/
def handed : Hub.World Bytes := (hub.run joined [.outbound 1]).get handed_some

theorem early_reach : Reach wireFraming (Hub.World.init 120) early :=
  Machine.reach_of_run (Option.some_get early_some).symm

theorem waiting_reach : Reach wireFraming early waiting :=
  Machine.reach_of_run (Option.some_get waiting_some).symm

theorem joined_step : step wireFraming waiting (.inbound 1 (.binary hello)) = some joined :=
  (Option.some_get joined_some).symm

theorem joined_reach : Reach wireFraming waiting joined := reach_step joined_step

theorem handed_reach : Reach wireFraming joined handed :=
  Machine.reach_of_run (Option.some_get handed_some).symm

set_option maxRecDepth 20000 in
theorem waiting_claims : waiting.claims =
    Function.update (fun _ : Nat => (none : Option (Key × Nat))) 0
      (some ((.repeatByte 32 7, 0), 0)) := rfl

/-- Nobody has claimed the addressee's mailbox. -/
theorem waiting_unclaimed (j : Nat) : waiting.claims j ≠ some (mailKey, 1) := by
  rw [waiting_claims]
  by_cases hSelf : j = 0
  · rw [hSelf, Function.update_self]
    decide
  · rw [Function.update_of_ne hSelf]
    simp

set_option maxRecDepth 20000 in
theorem waiting_joining : waiting.tasks 1 = some .joining := rfl

set_option maxRecDepth 20000 in
theorem handed_up : Up handed 1 := Or.inr ⟨_, _, _, rfl⟩

end Sample

/-- Mail from before the join is the joiner's: it is all the mailbox held, and it is
handed over first. -/
theorem hub_delivers_early :
    Sample.handed.sent 1 = [Sample.frame] ∧
    (∀ frame ∈ Sample.handed.sent 1, peekRoute frame = some Sample.mailKey) ∧
    Sample.handed.sent 1 ++ Sample.handed.hub.queues 1 =
      Sample.early.hub.queues 1 ++ Sample.early.deliveredAfter Sample.handed Sample.mailKey ∧
    Sample.early.hub.queues 1 = [Sample.frame] := by
  have hReach : Reach wireFraming (Hub.World.init 120) Sample.handed :=
    ((Sample.early_reach.trans Sample.waiting_reach).trans Sample.joined_reach).trans
      Sample.handed_reach
  have hClaim : Sample.handed.claims 1 = some (Sample.mailKey, 1) := by decide +kernel
  obtain ⟨hSent, -⟩ := hub_delivers 120 Sample.handed hReach
  -- the mailbox is young and nobody has claimed it when party 1 joins
  obtain ⟨-, -, hEarly, -⟩ := hub_delivers 120 Sample.early Sample.early_reach
  have hBox : Sample.early.hub.mailboxes Sample.mailKey = some ⟨1, true, 0⟩ := by decide +kernel
  obtain ⟨-, hMail⟩ := hEarly Sample.mailKey _ hBox rfl Sample.waiting 1 Sample.hello Sample.joined
    Sample.waiting_reach (by decide +kernel) Sample.waiting_unclaimed Sample.waiting_joining
    (by decide +kernel) Sample.joined_step
  dsimp only at hMail
  exact ⟨by decide +kernel, (hSent 1 _ _ hClaim).2,
    hMail Sample.handed Sample.handed_reach Sample.handed_up, by decide +kernel⟩

end Sovra.Ipc
