import Sovra.Lib.Program

/-!
# Sovra — files with modes

A `Disk` holds directories and files with their modes; `Disk.apply` is one
file-system step, and `Files` are programs that issue such steps and reads, one
call each. A new file or directory gets what the umask leaves of `0666` or
`0777`; writing to a file that exists keeps its mode, a rename takes the mode
along. `δ` names directories, `β` is what files contain.

* `apply_write`, `apply_setMode`, `apply_rename` — what a step does to files, and
  `content?_write`, … — to what is in them.
* `Program.Sat.perform`, `Program.Sat.exists_`, … — `Sat` for each kind of call.
-/

namespace Sovra.Lib

/-- The permission bits of a file or a directory. -/
abbrev Mode := UInt16

/-- The usual umask: group and others get no write permission. -/
def umask : Mode := 0o022

/-- The mode a new file or directory is given. -/
def masked (mode : Mode) : Mode := mode &&& ~~~umask

/-- A file by its directory and its name there. -/
structure FilePath (δ : Type) where
  dir : δ
  name : String
deriving DecidableEq

/-- What a file holds, and who may read it. -/
structure File (β : Type) where
  content : β
  mode : Mode
deriving DecidableEq

/-- Directories with their modes, and the files in them. -/
structure Disk (δ β : Type) where
  dirs : AList fun _ : δ => Mode
  files : AList fun _ : FilePath δ => File β

/-- `std::io::Error`, as far as it arises here. -/
inductive IoError
  | NotFound
deriving DecidableEq

/-- A step that changes the disk. -/
inductive FileStep (δ β : Type)
  | createDirAll (dir : δ)
  | setDirMode (dir : δ) (mode : Mode)
  | write (path : FilePath δ) (content : β)
  | setMode (path : FilePath δ) (mode : Mode)
  | rename (source target : FilePath δ)
deriving DecidableEq

/-- The calls a program makes to the file system, and what each is answered. -/
inductive FileCall (δ β : Type)
  | exists_ (path : FilePath δ)
  | read (path : FilePath δ)
  | readDir (dir : δ)
  | perform (step : FileStep δ β)

/-- What a call is answered. -/
def FileCall.Reply {δ β : Type} : FileCall δ β → Type
  | .exists_ _ => Bool
  | .read _ => Except IoError β
  | .readDir _ => Except IoError (List String)
  | .perform _ => Except IoError Unit

/-- Programs over files that may fail with an `ε`. -/
abbrev Files (δ β ε : Type) : Type → Type := ExceptT ε (Program (FileCall δ β) FileCall.Reply)

namespace Disk

variable {δ β : Type} [DecidableEq δ]

/-- No directory and no file. -/
def empty : Disk δ β := ⟨∅, ∅⟩

def file? (disk : Disk δ β) (path : FilePath δ) : Option (File β) := disk.files.lookup path

def dirMode? (disk : Disk δ β) (dir : δ) : Option Mode := disk.dirs.lookup dir

/-- The bytes of a file. -/
def content? (disk : Disk δ β) (path : FilePath δ) : Option β := (disk.file? path).map File.content

def setDir (disk : Disk δ β) (dir : δ) (mode : Mode) : Disk δ β :=
  { disk with dirs := disk.dirs.insert dir mode }

def setFile (disk : Disk δ β) (path : FilePath δ) (file : File β) : Disk δ β :=
  { disk with files := disk.files.insert path file }

/-- Someone deletes a file. -/
def remove (disk : Disk δ β) (path : FilePath δ) : Disk δ β :=
  { disk with files := disk.files.erase path }

/-- One step of the file system, or why it fails. -/
def apply (disk : Disk δ β) : FileStep δ β → Except IoError (Disk δ β)
  | .createDirAll dir =>
    if (disk.dirMode? dir).isSome then .ok disk else .ok (disk.setDir dir (masked 0o777))
  | .setDirMode dir mode =>
    if (disk.dirMode? dir).isSome then .ok (disk.setDir dir mode) else .error .NotFound
  | .write path content =>
    if (disk.dirMode? path.dir).isSome then
      .ok (disk.setFile path ⟨content, ((disk.file? path).map File.mode).getD (masked 0o666)⟩)
    else .error .NotFound
  | .setMode path mode =>
    match disk.file? path with
    | some file => .ok (disk.setFile path { file with mode })
    | none => .error .NotFound
  | .rename source target =>
    match disk.file? source with
    | some file => .ok ((disk.remove source).setFile target file)
    | none => .error .NotFound

/-- The names in a directory. -/
def names (disk : Disk δ β) (dir : δ) : List String :=
  (disk.files.keys.filter fun path => decide (path.dir = dir)).map FilePath.name

/-- `std::fs::read`. -/
def readFile (disk : Disk δ β) (path : FilePath δ) : Except IoError β :=
  match disk.content? path with
  | some content => .ok content
  | none => .error .NotFound

/-- `std::fs::read_dir`, as the names it yields. -/
def listDir (disk : Disk δ β) (dir : δ) : Except IoError (List String) :=
  if (disk.dirMode? dir).isSome then .ok (disk.names dir) else .error .NotFound

/-- What a call does and is answered. Only `perform` changes anything, and only
where it succeeds. -/
def exec (disk : Disk δ β) : (c : FileCall δ β) → Disk δ β × c.Reply
  | .exists_ path => (disk, (disk.file? path).isSome)
  | .read path => (disk, disk.readFile path)
  | .readDir dir => (disk, disk.listDir dir)
  | .perform step =>
    match disk.apply step with
    | .ok disk' => (disk', .ok ())
    | .error e => (disk, .error e)

-- ---------------------------------------------------------------------------
-- What a step does
-- ---------------------------------------------------------------------------

section

variable (disk : Disk δ β) (dir dir' : δ) (mode : Mode) (path path' : FilePath δ) (file : File β)

@[simp] theorem setDir_file? : (disk.setDir dir mode).file? path = disk.file? path := rfl
@[simp] theorem setFile_dirMode? : (disk.setFile path file).dirMode? dir = disk.dirMode? dir := rfl
@[simp] theorem remove_dirMode? : (disk.remove path).dirMode? dir = disk.dirMode? dir := rfl

/-- A directory that is set is there, the others are as before. -/
@[simp] theorem setDir_dirMode? :
    (disk.setDir dir mode).dirMode? dir' = if dir' = dir then some mode else disk.dirMode? dir' := by
  show (disk.dirs.insert dir mode).lookup dir' = _
  split
  · rename_i hDir
    rw [hDir]
    exact AList.lookup_insert disk.dirs
  · rename_i hDir
    exact AList.lookup_insert_ne hDir

/-- A file that is set is there, the others are as before. -/
@[simp] theorem setFile_file? :
    (disk.setFile path file).file? path' =
      if path' = path then some file else disk.file? path' := by
  show (disk.files.insert path file).lookup path' = _
  split
  · rename_i hPath
    rw [hPath]
    exact AList.lookup_insert disk.files
  · rename_i hPath
    exact AList.lookup_insert_ne hPath

/-- A file that is removed is gone, the others are as before. -/
@[simp] theorem remove_file? :
    (disk.remove path).file? path' = if path' = path then none else disk.file? path' := by
  show (disk.files.erase path).lookup path' = _
  split
  · rename_i hPath
    rw [hPath]
    exact AList.lookup_erase path disk.files
  · rename_i hPath
    exact AList.lookup_erase_ne hPath

end

variable {disk disk' : Disk δ β} {dir : δ} {mode : Mode} {path source target : FilePath δ}
  {content : β}

/-- `create_dir_all` makes a directory without touching files or other directories. -/
theorem apply_createDirAll (h : disk.apply (.createDirAll dir) = .ok disk') :
    (∀ path, disk'.file? path = disk.file? path) ∧ (disk'.dirMode? dir).isSome = true ∧
      ∀ other mode, disk.dirMode? other = some mode → disk'.dirMode? other = some mode := by
  rw [apply] at h
  split at h
  · rename_i hDir
    obtain rfl := Except.ok.inj h
    exact ⟨fun _ => rfl, hDir, fun _ _ hMode => hMode⟩
  · rename_i hDir
    obtain rfl := Except.ok.inj h
    refine ⟨fun _ => rfl, by simp, ?_⟩
    intro other mode hMode
    rw [setDir_dirMode?, if_neg]
    · exact hMode
    · rintro rfl
      simp [hMode] at hDir

/-- `set_permissions` on a directory changes that directory's mode alone. -/
theorem apply_setDirMode (h : disk.apply (.setDirMode dir mode) = .ok disk') :
    (∀ path, disk'.file? path = disk.file? path) ∧
      ∀ other, disk'.dirMode? other = if other = dir then some mode else disk.dirMode? other := by
  rw [apply] at h
  split at h
  · obtain rfl := Except.ok.inj h
    exact ⟨fun _ => rfl, fun other => disk.setDir_dirMode? dir other mode⟩
  · simp at h

/-- A new file gets the umask's mode, an old one keeps its own. -/
theorem apply_write (h : disk.apply (.write path content) = .ok disk') :
    (∀ other, disk'.dirMode? other = disk.dirMode? other) ∧
      ∀ other, disk'.file? other = if other = path then
        some ⟨content, ((disk.file? path).map File.mode).getD (masked 0o666)⟩
        else disk.file? other := by
  rw [apply] at h
  split at h
  · obtain rfl := Except.ok.inj h
    exact ⟨fun _ => rfl, fun other => disk.setFile_file? path other _⟩
  · simp at h

/-- `set_permissions` on a file keeps what the file holds. -/
theorem apply_setMode (h : disk.apply (.setMode path mode) = .ok disk') :
    ∃ file, disk.file? path = some file ∧
      (∀ other, disk'.dirMode? other = disk.dirMode? other) ∧
      ∀ other, disk'.file? other =
        if other = path then some { file with mode } else disk.file? other := by
  rw [apply] at h
  split at h
  · rename_i file hFile
    obtain rfl := Except.ok.inj h
    exact ⟨file, hFile, fun _ => rfl, fun other => disk.setFile_file? path other _⟩
  · simp at h

/-- `rename` moves a file with its mode, over whatever was there. -/
theorem apply_rename (h : disk.apply (.rename source target) = .ok disk') :
    ∃ file, disk.file? source = some file ∧
      (∀ other, disk'.dirMode? other = disk.dirMode? other) ∧
      ∀ other, disk'.file? other = if other = target then some file
        else if other = source then none else disk.file? other := by
  rw [apply] at h
  split at h
  · rename_i file hFile
    obtain rfl := Except.ok.inj h
    refine ⟨file, hFile, fun _ => rfl, ?_⟩
    intro other
    rw [setFile_file?, remove_file?]
  · simp at h

/-- Making a directory changes what no file holds. -/
theorem content?_createDirAll (h : disk.apply (.createDirAll dir) = .ok disk') :
    disk'.content? = disk.content? :=
  funext fun other => congrArg (Option.map File.content) ((apply_createDirAll h).1 other)

/-- A write changes what one file holds. -/
theorem content?_write (h : disk.apply (.write path content) = .ok disk') :
    disk'.content? = Function.update disk.content? path (some content) := by
  funext other
  rw [content?, (apply_write h).2, Function.update_apply]
  split
  · rfl
  · rfl

/-- Modes are not content. -/
theorem content?_setMode (h : disk.apply (.setMode path mode) = .ok disk') :
    disk'.content? = disk.content? := by
  obtain ⟨file, hFile, -, hFiles⟩ := apply_setMode h
  funext other
  rw [content?, hFiles]
  split
  · rename_i hPath
    rw [hPath, content?, hFile]
    rfl
  · rfl

/-- A rename moves what one file holds to another name. -/
theorem content?_rename (h : disk.apply (.rename source target) = .ok disk') :
    ∃ content, disk.content? source = some content ∧
      disk'.content? =
        Function.update (Function.update disk.content? source none) target (some content) := by
  obtain ⟨file, hFile, -, hFiles⟩ := apply_rename h
  refine ⟨file.content, by rw [content?, hFile]; rfl, ?_⟩
  funext other
  rw [content?, hFiles, Function.update_apply, Function.update_apply]
  split
  · rfl
  split
  · rfl
  · rfl

/-- A removed file holds nothing, the others what they did. -/
theorem content?_remove :
    (disk.remove path).content? = Function.update disk.content? path none := by
  funext other
  rw [content?, remove_file?, Function.update_apply]
  split
  · rfl
  · rfl

/-- A step that succeeds is answered so, and done. -/
theorem exec_perform {step : FileStep δ β} (h : disk.apply step = .ok disk') :
    disk.exec (.perform step) = (disk', .ok ()) := by
  simp only [exec, h]

/-- A step that fails leaves everything as it was. -/
theorem exec_perform_error {step : FileStep δ β} {e : IoError} (h : disk.apply step = .error e) :
    disk.exec (.perform step) = (disk, .error e) := by
  simp only [exec, h]

/-- A read returns what the file holds. -/
theorem readFile_ok : disk.readFile path = .ok content ↔ disk.content? path = some content := by
  unfold readFile
  split <;> simp_all

/-- A listing that succeeds is complete. -/
theorem listDir_ok {found : List String} (h : disk.listDir dir = .ok found) :
    found = disk.names dir := by
  unfold listDir at h
  split at h
  · exact (Except.ok.inj h).symm
  · simp at h

/-- A name is listed exactly if there is a file of it. -/
theorem mem_names {name : String} :
    name ∈ disk.names dir ↔ (disk.file? ⟨dir, name⟩).isSome = true := by
  show name ∈ disk.names dir ↔ (disk.files.lookup ⟨dir, name⟩).isSome = true
  rw [AList.lookup_isSome, AList.mem_keys]
  simp only [names, List.mem_map, List.mem_filter, decide_eq_true_eq]
  constructor
  · rintro ⟨⟨_, _⟩, ⟨hMem, rfl⟩, rfl⟩
    exact hMem
  · intro hMem
    exact ⟨⟨dir, name⟩, ⟨hMem, rfl⟩, rfl⟩

/-- There is no content exactly where there is no file. -/
theorem content?_eq_none : disk.content? path = none ↔ disk.file? path = none :=
  Option.map_eq_none_iff

end Disk

-- ---------------------------------------------------------------------------
-- Programs over files
-- ---------------------------------------------------------------------------

namespace Files

variable {δ β ε : Type}

/-- Whether a file is there. -/
def exists_ (path : FilePath δ) : Files δ β ε Bool :=
  ExceptT.mk (.call (.exists_ path) fun found => .done (.ok found))

/-- What a file holds; `f` names the error. -/
def read (path : FilePath δ) (f : IoError → ε) : Files δ β ε β :=
  ExceptT.mk (.call (.read path) fun reply => .done (reply.mapError f))

/-- The names in a directory. -/
def readDir (dir : δ) (f : IoError → ε) : Files δ β ε (List String) :=
  ExceptT.mk (.call (.readDir dir) fun reply => .done (reply.mapError f))

def perform (step : FileStep δ β) (f : IoError → ε) : Files δ β ε Unit :=
  ExceptT.mk (.call (.perform step) fun reply => .done (reply.mapError f))

/-- What is computed without the disk. -/
def liftExcept {α : Type} (result : Except ε α) : Files δ β ε α := ExceptT.mk (.done result)

end Files

/-- A disk that is part of a larger state. -/
structure Mount (σ δ β : Type) where
  get : σ → Disk δ β
  set : σ → Disk δ β → σ
  set_get : ∀ s, set s (get s) = s

/-- A disk by itself. -/
def Mount.whole {δ β : Type} : Mount (Disk δ β) δ β := ⟨fun disk => disk, fun _ disk => disk, fun _ => rfl⟩

/-- A call on the part of a state that is a file system. -/
def Mount.exec {σ δ β : Type} [DecidableEq δ] (M : Mount σ δ β) (s : σ) (c : FileCall δ β) :
    σ × c.Reply :=
  (M.set s ((M.get s).exec c).1, ((M.get s).exec c).2)

namespace Program.Sat

variable {σ δ β ε α : Type} [DecidableEq δ] {M : Mount σ δ β} {T : Terms σ (FileCall δ β)} {s : σ}

/-- A step that changes the disk is answered for, unless it fails. -/
theorem perform {Q : Except ε Unit → σ → Prop} {step : FileStep δ β} {f : IoError → ε}
    (hError : ∀ e s, Q (.error e) s)
    (hStep : ∀ before disk, T.rely s before → T.pre before (.perform step) →
      (M.get before).apply step = .ok disk → T.guarantee before (M.set before disk) ∧
        ∀ later, T.rely (M.set before disk) later → Q (.ok ()) later) :
    Sat M.exec T Q (Files.perform step f).run s := by
  intro before hRely hPre
  show T.guarantee before (M.set before ((M.get before).exec (.perform step)).1) ∧
    Sat M.exec T Q (.done (Except.mapError f ((M.get before).exec (.perform step)).2))
      (M.set before ((M.get before).exec (.perform step)).1)
  rcases hApply : (M.get before).apply step with e | disk
  · rw [Disk.exec_perform_error hApply, M.set_get]
    exact ⟨T.guarantee_refl before, fun later _ => hError _ later⟩
  · rw [Disk.exec_perform hApply]
    exact hStep before disk hRely hPre hApply

/-- A look at a file tells what was so then, which may no longer be so. -/
theorem exists_ {Q : Except ε Bool → σ → Prop} {path : FilePath δ}
    (h : ∀ before later, T.rely s before → T.pre before (.exists_ path) → T.rely before later →
      Q (.ok ((M.get before).file? path).isSome) later) :
    Sat M.exec T Q (Files.exists_ path).run s := by
  intro before hRely hPre
  show T.guarantee before (M.set before (M.get before)) ∧
    Sat M.exec T Q (.done (.ok ((M.get before).file? path).isSome)) (M.set before (M.get before))
  rw [M.set_get]
  exact ⟨T.guarantee_refl before, fun later hLater => h before later hRely hPre hLater⟩

/-- What a read returns was there when it looked. -/
theorem read {Q : Except ε β → σ → Prop} {path : FilePath δ} {f : IoError → ε}
    (hError : ∀ e s, Q (.error e) s)
    (h : ∀ before later content, T.rely s before → T.pre before (.read path) →
      (M.get before).content? path = some content → T.rely before later → Q (.ok content) later) :
    Sat M.exec T Q (Files.read path f).run s := by
  intro before hRely hPre
  show T.guarantee before (M.set before (M.get before)) ∧
    Sat M.exec T Q (.done (Except.mapError f ((M.get before).readFile path)))
      (M.set before (M.get before))
  rw [M.set_get]
  refine ⟨T.guarantee_refl before, ?_⟩
  intro later hLater
  rcases hRead : (M.get before).readFile path with e | content
  · exact hError _ later
  · exact h before later content hRely hPre (Disk.readFile_ok.mp hRead) hLater

/-- A listing is complete as of when it looked. -/
theorem readDir {Q : Except ε (List String) → σ → Prop} {dir : δ} {f : IoError → ε}
    (hError : ∀ e s, Q (.error e) s)
    (h : ∀ before later, T.rely s before → T.pre before (.readDir dir) → T.rely before later →
      Q (.ok ((M.get before).names dir)) later) :
    Sat M.exec T Q (Files.readDir dir f).run s := by
  intro before hRely hPre
  show T.guarantee before (M.set before (M.get before)) ∧
    Sat M.exec T Q (.done (Except.mapError f ((M.get before).listDir dir)))
      (M.set before (M.get before))
  rw [M.set_get]
  refine ⟨T.guarantee_refl before, ?_⟩
  intro later hLater
  rcases hList : (M.get before).listDir dir with e | found
  · exact hError _ later
  · rw [Disk.listDir_ok hList]
    exact h before later hRely hPre hLater

/-- What needs no file promises what it returns. -/
theorem liftExcept {Q : Except ε α → σ → Prop} {result : Except ε α}
    (h : ∀ later, T.rely s later → Q result later) :
    Sat M.exec T Q (Files.liftExcept result : Files δ β ε α).run s := h

/-- Renaming errors changes nothing else. -/
theorem adapt {ε' : Type} {Q : Except ε' α → σ → Prop} {f : ε → ε'} {p : Files δ β ε α}
    (h : Sat M.exec T (fun r s => Q (r.mapError f) s) p.run s) :
    Sat M.exec T Q (ExceptT.adapt f p).run s :=
  Sat.map h

end Program.Sat

end Sovra.Lib
