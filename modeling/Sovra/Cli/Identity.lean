import Sovra.Cosigner.Identity
import Sovra.Lib.Guard

/-!
# Sovra — first runs at the same time

The CLI's `identity` verb makes the same file as the cosigner. Any number of
calls of either run on one data directory, step by step in any order, and any of
them may die between two steps. All of them share one temporary file, and none
looks again once it found no identity.

* `step_inv`              — one step keeps every returned key in the file.
* `identity_stable`       — while no call misses the file that another is making,
  all calls return one key, and it stays in the file.
* `first_runs_collide`    — two first runs at once return two keys.
-/

namespace Sovra.Cli

open Lib State Cosigner

/-- The CLI words what goes wrong as text. -/
def identityErrors : IdentityErrors String where
  read path e := hostPath path ++ ": " ++ ioText e
  size := sizeError
  createDir dir e := dir ++ ": " ++ ioText e
  write := StateError.display

/-- The CLI's `load_or_generate`. -/
def loadOrGenerate (dataDir : String) (fresh : SigningKey) : Files String Bytes String SigningKey :=
  loadOrGenerateWith identityErrors dataDir fresh

/-- Who calls `load_or_generate`, and the key it would draw. -/
inductive FirstRun
  | cosigner (fresh : SigningKey)
  | identity (fresh : SigningKey)

/-- How a call ends: with a key or with the caller's error. -/
abbrev Ending := Except (IdentityError ⊕ String) SigningKey

/-- A call of either function. -/
abbrev Call := Program (FileCall String Bytes) FileCall.Reply Ending

/-- Any number of calls on one disk. -/
abbrev Calls := Crew HostDisk (FileCall String Bytes) FileCall.Reply Ending

/-- What a caller runs. -/
def launch (dataDir : String) : FirstRun → Call
  | .cosigner fresh => (ExceptT.adapt .inl (Cosigner.loadOrGenerate dataDir fresh)).run
  | .identity fresh => (ExceptT.adapt .inr (loadOrGenerate dataDir fresh)).run

/-- The machine: calls start, go on by one file operation, and are cut off, in any
order. -/
def calls (dataDir : String) : Machine Calls (Move FirstRun) :=
  Crew.machine Mount.whole.exec (launch dataDir)

/-- A call past its check, with a step to come that writes. -/
def Generating (p : Call) : Prop := ∃ step, p.next? = some (.perform step)

/-- No call finds the file missing while another is making it. -/
def OneFirstRun (w : Calls) : Move FirstRun → Prop
  | .advance id => ∀ p path, w.tasks id = some p → p.next? = some (.exists_ path) →
      w.state.file? path = none → ∀ other q, other ≠ id → w.tasks other = some q → ¬ Generating q
  | _ => True

/-- All returned keys are one, and it is in the file. -/
structure Stable (dataDir : String) (w : Calls) : Prop where
  same : ∀ key key', .ok key ∈ w.results → .ok key' ∈ w.results → key = key'
  stored : ∀ key, .ok key ∈ w.results →
    w.state.content? (identityPath dataDir) = some key.bytes

-- ---------------------------------------------------------------------------
-- One call
-- ---------------------------------------------------------------------------

section

variable {dataDir : String}

/-- A call that has not looked yet: what it goes on with either way. -/
theorem launch_cases (dataDir : String) (job : FirstRun) :
    ∃ next : Bool → Call, launch dataDir job = .call (.exists_ (identityPath dataDir)) next ∧
      (∀ disk, (next true).Sat Mount.whole.exec (readerTerms dataDir) (Returns dataDir) disk) ∧
      (∀ disk : HostDisk, disk.content? (identityPath dataDir) = none →
        (next false).Sat Mount.whole.exec (writerTerms dataDir) (Returns dataDir) disk) ∧
      (next false).Only IsStep := by
  have hMapped : ∀ {ε ε' : Type} (f : ε → ε') (r : Except ε SigningKey) (disk : HostDisk),
      Returns dataDir r disk → Returns dataDir (r.mapError f) disk := by
    intro ε ε' f r disk h key hKey
    exact h key (mapError_eq_ok.mp hKey)
  rcases job with fresh | fresh
  · refine ⟨fun found => (ExceptT.adapt .inl (if found then load Cosigner.identityErrors dataDir
      else generate Cosigner.identityErrors dataDir fresh)).run, rfl, ?_, ?_, ?_⟩
    · exact fun disk => Program.Sat.adapt (load_sat.weaken fun r s => hMapped _ r s)
    · exact fun disk hNone =>
        Program.Sat.adapt ((generate_sat hNone).weaken fun r s => hMapped _ r s)
    · exact generate_only.map
  · refine ⟨fun found => (ExceptT.adapt .inr (if found then load identityErrors dataDir
      else generate identityErrors dataDir fresh)).run, rfl, ?_, ?_, ?_⟩
    · exact fun disk => Program.Sat.adapt (load_sat.weaken fun r s => hMapped _ r s)
    · exact fun disk hNone =>
        Program.Sat.adapt ((generate_sat hNone).weaken fun r s => hMapped _ r s)
    · exact generate_only.map

/-- Where a call can stand: it has not looked, it only reads, or it is the one
that makes the file. -/
def Stands (dataDir : String) (writer : Option Nat) (disk : HostDisk) (id : Nat) (p : Call) :
    Prop :=
  (∃ job, p = launch dataDir job) ∨
  p.Sat Mount.whole.exec (readerTerms dataDir) (Returns dataDir) disk ∨
  (writer = some id ∧ p.Only IsStep ∧
    p.Sat Mount.whole.exec (writerTerms dataDir) (Returns dataDir) disk)

/-- What holds in every state, with at most one call that makes the file. -/
structure Inv (dataDir : String) (writer : Option Nat) (w : Calls) : Prop where
  tasks : ∀ id p, w.tasks id = some p → Stands dataDir writer w.state id p
  results : ∀ result ∈ w.results, Returns dataDir result w.state

/-- A call that is not the writer keeps its place while the key stays where it is. -/
theorem Stands.pinned {writer : Option Nat} {disk disk' : HostDisk} {id : Nat} {p : Call}
    (h : Stands dataDir writer disk id p) (hPinned : Pinned dataDir disk disk')
    (hOther : writer ≠ some id) : Stands dataDir writer disk' id p := by
  rcases h with hNew | hReads | ⟨hWriter, -, -⟩
  · exact Or.inl hNew
  · exact Or.inr (Or.inl (hReads.rely hPinned))
  · exact absurd hWriter hOther

/-- The writer, once it is not generating any more, has its result. -/
theorem Stands.settled {writer writer' : Option Nat} {disk : HostDisk} {id : Nat} {p : Call}
    (h : Stands dataDir writer disk id p) (hIdle : writer = some id → ¬ Generating p) :
    Stands dataDir writer' disk id p := by
  rcases h with hNew | hReads | ⟨hWriter, hOnly, hSat⟩
  · exact Or.inl hNew
  · exact Or.inr (Or.inl hReads)
  · cases p with
    | done result =>
      right
      left
      refine Program.Sat.done ?_
      intro later hLater
      exact hSat.result.pinned hLater
    | call c next =>
      exfalso
      refine hIdle hWriter ?_
      rcases c with path | path | dir | step
      · exact hOnly.1.elim
      · exact hOnly.1.elim
      · exact hOnly.1.elim
      · exact ⟨step, rfl⟩

/-- A call may go on to any place it can stand in. -/
theorem Inv.setTask {writer : Option Nat} {w : Calls} (h : Inv dataDir writer w) {id : Nat}
    {task : Option Call} (hTask : ∀ p, task = some p → Stands dataDir writer w.state id p) :
    Inv dataDir writer (w.setTask id task) where
  tasks i p hAt := by
    rcases Crew.setTask_cases hAt with ⟨rfl, hNew⟩ | ⟨-, hOld⟩
    · exact hTask p hNew
    · exact h.tasks i p hOld
  results := h.results

/-- **One step keeps every returned key in the file.** -/
theorem step_inv {writer : Option Nat} {w w' : Calls} (h : Inv dataDir writer w)
    {m : Move FirstRun} (hOne : OneFirstRun w m) (hStep : (calls dataDir).step w m = some w') :
    ∃ writer', Inv dataDir writer' w' := by
  obtain ⟨id, job, rfl, -, rfl⟩ | ⟨id, a, rfl, hTask, rfl⟩ | ⟨id, c, next, rfl, hTask, rfl⟩ |
    ⟨id, rfl, rfl⟩ := Crew.step_cases hStep
  · -- A call starts.
    refine ⟨writer, h.setTask ?_⟩
    rintro p ⟨⟩
    exact Or.inl ⟨job, rfl⟩
  · -- A call returns.
    have hKept : Inv dataDir writer (w.setTask id none) := h.setTask (by simp)
    have hReturns : Returns dataDir a w.state := by
      rcases h.tasks id _ hTask with ⟨job, hNew⟩ | hReads | ⟨-, -, hSat⟩
      · obtain ⟨next, hLaunch, -⟩ := launch_cases dataDir job
        rw [hLaunch] at hNew
        simp at hNew
      · exact hReads.result
      · exact hSat.result
    refine ⟨writer, hKept.tasks, ?_⟩
    intro result hMem
    rcases List.mem_cons.mp hMem with rfl | hOld
    · exact hReturns
    · exact h.results result hOld
  · rcases h.tasks id _ hTask with ⟨job, hNew⟩ | hReads | ⟨hWriter, hOnly, hSat⟩
    · -- A call looks for the file.
      obtain ⟨next', hLaunch, hFound, hMissing, hOnly⟩ := launch_cases dataDir job
      obtain ⟨rfl, hNext⟩ := Program.call.inj (hNew.trans hLaunch)
      obtain rfl := eq_of_heq hNext
      change ∃ writer', Inv dataDir writer'
        (w.setTask id (some (next (w.state.file? (identityPath dataDir)).isSome)))
      -- Missing: it becomes the writer, and by the condition nobody else is past its
      -- check.
      rcases hFile : w.state.file? (identityPath dataDir) with _ | file
      · refine ⟨some id, ?_, h.results⟩
        intro i p hAt
        rcases Crew.setTask_cases hAt with ⟨rfl, hNew⟩ | ⟨hNe, hOld⟩
        · obtain rfl := Option.some.inj hNew
          exact Or.inr (Or.inr ⟨rfl, hOnly, hMissing _ (Disk.content?_eq_none.mpr hFile)⟩)
        · refine (h.tasks i p hOld).settled ?_
          intro _
          exact hOne _ _ hTask rfl hFile i p hNe hOld
      · refine ⟨writer, h.setTask ?_⟩
        rintro p ⟨⟩
        exact Or.inr (Or.inl (hFound _))
    · -- A call that only reads goes on.
      obtain ⟨hSame, hNext⟩ := hReads w.state ((readerTerms dataDir).rely_refl _) trivial
      have hSame : (Mount.whole.exec w.state c).1 = w.state := hSame
      rw [hSame] at hNext ⊢
      refine ⟨writer, Inv.setTask h ?_⟩
      rintro p ⟨⟩
      exact Or.inr (Or.inl hNext)
    · -- The one call that makes the file goes on.
      obtain ⟨hPinned, hNext⟩ := hSat w.state rfl trivial
      refine ⟨writer, ?_, fun result hMem => (h.results result hMem).pinned hPinned⟩
      intro i p hAt
      rcases Crew.setTask_cases hAt with ⟨rfl, hNew⟩ | ⟨hNe, hOld⟩
      · obtain rfl := Option.some.inj hNew
        exact Or.inr (Or.inr ⟨hWriter, hOnly.2 _, hNext⟩)
      · refine (h.tasks i p hOld).pinned hPinned ?_
        rintro hSelf
        exact hNe (Option.some.inj (hSelf.symm.trans hWriter))
  · -- A call is cut off.
    exact ⟨writer, h.setTask (by simp)⟩

/-- Returned keys are in the file, and a file holds one key. -/
theorem Inv.stable {writer : Option Nat} {w : Calls} (h : Inv dataDir writer w) :
    Stable dataDir w where
  stored key hKey := h.results _ hKey key rfl
  same key key' hKey hKey' := by
    have hBytes := (h.results _ hKey key rfl).symm.trans (h.results _ hKey' key' rfl)
    exact FixedBytes.ext (Option.some.inj hBytes)

-- ---------------------------------------------------------------------------
-- Runs of a few calls
-- ---------------------------------------------------------------------------

/-- `Generating`, decided. -/
def generating (p : Call) : Bool :=
  match p.next? with
  | some (.perform _) => true
  | _ => false

/-- Whether the call is about to look for the file and find it missing. -/
def misses (w : Calls) (p : Call) : Bool :=
  match p.next? with
  | some (.exists_ path) => (w.state.file? path).isNone
  | _ => false

/-- `OneFirstRun`, where there are no calls but these. -/
def orderly (ids : List Nat) (w : Calls) : Move FirstRun → Bool
  | .advance id => (w.tasks id).all fun p => !misses w p ||
      ids.all fun other => other == id || (w.tasks other).all fun q => !generating q
  | _ => true

/-- `orderly` suffices for `OneFirstRun`. -/
theorem orderly_sound {ids : List Nat} {w : Calls} {m : Move FirstRun}
    (hAlone : ∀ other, other ∉ ids → w.tasks other = none) (h : orderly ids w m = true) :
    OneFirstRun w m := by
  cases m with
  | start id job => trivial
  | stop id => trivial
  | advance id =>
    rintro p path hTask hNext hMissing other q hNe hOther ⟨step, hPerforms⟩
    simp only [orderly, hTask, Option.all_some, misses, hNext, hMissing, Option.isNone_none,
      Bool.not_true, Bool.false_or, List.all_eq_true] at h
    have hMem : other ∈ ids := by
      by_contra hNot
      simp [hAlone other hNot] at hOther
    simpa [hOther, hNe, generating, hPerforms] using h other hMem

/-- Steps that all pass `orderly` are a run whose steps all meet `OneFirstRun`. -/
theorem reach_of_orderly {ids : List Nat} {moves : List (Move FirstRun)} {w w' : Calls}
    (hIds : ∀ m ∈ moves, m.id ∈ ids) (hAlone : ∀ other, other ∉ ids → w.tasks other = none)
    (hRun : (calls dataDir).runIf (orderly ids) w moves = some w') :
    (calls dataDir).Reach OneFirstRun w w' := by
  -- on the moves; calls outside `ids` never start
  induction moves generalizing w with
  | nil =>
    obtain rfl := Option.some.inj hRun
    exact Machine.Reach.refl w
  | cons m moves ih =>
    rw [Machine.runIf] at hRun
    split at hRun
    case isFalse => simp at hRun
    rename_i hOrderly
    obtain ⟨v, hStep, hRest⟩ := Option.bind_eq_some_iff.mp hRun
    have hStill : ∀ other, other ∉ ids → v.tasks other = none := by
      intro other hNot
      have hNe : other ≠ m.id := fun hEq => hNot (hEq ▸ hIds m List.mem_cons_self)
      rw [Crew.step_other hStep hNe]
      exact hAlone other hNot
    exact Relation.ReflTransGen.head ⟨m, orderly_sound hAlone hOrderly, hStep⟩
      (ih (fun m' hMem => hIds m' (List.mem_cons_of_mem m hMem)) hStill hRest)

/-- **A pinned identity is stable.** From any directory, in every run in which no
call finds `identity.key` missing while another call is past that check: any two
calls that return a key return the same, and the file holds it ever after. -/
theorem identity_stable {disk : HostDisk} {w : Calls}
    (hReach : (calls dataDir).Reach OneFirstRun (Crew.init disk) w) : Stable dataDir w := by
  have hInv : ∃ writer, Inv dataDir writer w := by
    refine hReach.invariant ⟨none, ?_, ?_⟩ ?_
    · intro id p hTask
      simp [Crew.init] at hTask
    · intro result hMem
      simp [Crew.init] at hMem
    · rintro v m v' ⟨writer, hInv⟩ hOne hStep
      exact step_inv hInv hOne hStep
  obtain ⟨writer, hInv⟩ := hInv
  exact hInv.stable

end

-- ---------------------------------------------------------------------------
-- Two first runs
-- ---------------------------------------------------------------------------

namespace Sample

/-- The key that the first call draws. -/
def keyA : SigningKey := .repeatByte 32 0x0a

/-- The key that the second call draws. -/
def keyB : SigningKey := .repeatByte 32 0x0b

/-- A first run has looked and written its temporary when another call starts, which
gets to look once the key is in its place, and returns before the first one. -/
def interleaved : List (Move FirstRun) :=
  .start 0 (.identity keyA) :: List.replicate 3 (.advance 0) ++
    .start 1 (.cosigner keyB) :: List.replicate 2 (.advance 0) ++
    List.replicate 3 (.advance 1) ++ [.advance 0]

theorem interleaved_some :
    ((calls "data").runIf (orderly [0, 1]) (Crew.init .empty) interleaved).isSome = true := by
  decide +kernel

/-- The directory once both have returned. -/
def afterBoth : Calls :=
  ((calls "data").runIf (orderly [0, 1]) (Crew.init .empty) interleaved).get interleaved_some

theorem afterBoth_reach : (calls "data").Reach OneFirstRun (Crew.init .empty) afterBoth :=
  reach_of_orderly (by decide) (fun _ _ => rfl)
    (Option.some_get interleaved_some).symm

/-- Both look before either has written. -/
def together : List (Move FirstRun) :=
  [.start 0 (.identity keyA), .start 1 (.cosigner keyB), .advance 0, .advance 1] ++
    List.replicate 5 (.advance 0) ++ List.replicate 5 (.advance 1)

/-- Each returns its own key, and the later rename wins. -/
theorem together_run :
    (((calls "data").run (Crew.init .empty) together).map fun w =>
      (w.results, w.state.content? (identityPath "data"))) =
      some ([.ok keyB, .ok keyA], some keyB.bytes) := by
  decide +kernel

end Sample

/-- The second call loads what the first one is not yet done making. -/
theorem identity_stable_interleaved :
    Sample.afterBoth.results = [.ok Sample.keyA, .ok Sample.keyA] ∧
      Stable "data" Sample.afterBoth :=
  ⟨by decide +kernel, identity_stable Sample.afterBoth_reach⟩

/-- Two first runs at once return two keys, and the file holds one of them. -/
theorem first_runs_collide :
    ¬ ∀ (dataDir : String) (disk : HostDisk) (w : Calls),
      (calls dataDir).Reach (fun _ _ => True) (Crew.init disk) w → Stable dataDir w := by
  intro h
  obtain ⟨w, hRun, hSeen⟩ := Option.map_eq_some_iff.mp Sample.together_run
  have hResults : w.results = [.ok Sample.keyB, .ok Sample.keyA] := congrArg Prod.fst hSeen
  have hStable := h "data" .empty w (Machine.reach_of_run hRun)
  have hSame : Sample.keyA = Sample.keyB :=
    hStable.same _ _ (by simp [hResults]) (by simp [hResults])
  exact absurd hSame (by decide)

end Sovra.Cli
