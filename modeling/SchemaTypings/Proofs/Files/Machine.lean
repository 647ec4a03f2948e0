import SchemaTypings.Files.Tree

/-!
# Machines

What a system may do with a tree of files besides what the tree says: the names of a folder come
in an order of the system's own, and a request may be refused for a cause that has nothing to do
with what stands in the tree, such as a permission that is missing. A refused request changes
nothing. A machine fixes both, and its runs are a store. One that lists a folder as the tree does
and refuses nothing is the tree itself (`Machine.plain_run`).

A run is a function of the tree it begins with: `Machine.Run.on` gives its outcome and the tree
that it leaves. `AnswersAlike` says that it answers the same on two trees and changes neither, as
whatever only asks about one path does where it leads to the same in both
(`AnswersAlike.size`, `AnswersAlike.bytes`).
-/

namespace SchemaTypings

/-- **A request that a machine may refuse.** Where a file or a folder stands is always told. -/
inductive Request where
  /-- How many bytes stand at a path. -/
  | size
  /-- The bytes of a file. -/
  | bytes
  /-- The names in a folder. -/
  | names
  /-- Creating a folder. -/
  | createFolder
  /-- Writing a file. -/
  | write
deriving DecidableEq, Repr

/-- **A machine**, whose files are a tree. -/
structure Machine where
  /-- The order in which the names in a folder are listed. -/
  order : List String → List String
  /-- Every name is listed, as often as it is there. -/
  order_perm : ∀ names, (order names).Perm names
  /-- What is refused, whatever stands in the tree. -/
  refusal : Request → Path → Option SystemError

namespace FileTree

/-- An attempt changes the tree if it succeeds, and otherwise nothing. -/
theorem run_attempt (change : FileTree → Except SystemError FileTree) (t : FileTree) :
    StateT.run (m := Id) (attempt change) t
      = match change t with
        | .ok u => (.ok (), u)
        | .error e => (.error e, t) := by
  show StateT.run (m := Id) (match change t with
    | .ok u => do set u; return .ok ()
    | .error e => return .error e : StateM FileTree (Except SystemError Unit)) t = _
  cases change t with
  | error e => rfl
  | ok u => rfl

end FileTree

namespace Machine

variable {α β : Type} (machine : Machine)

/-- The machine that lists a folder as the tree does, and refuses nothing. -/
def plain : Machine where
  order names := names
  order_perm names := .refl names
  refusal _ _ := none

/-- An answer, unless the request is refused. -/
def answer (request : Request) (p : Path) (result : Except SystemError α) :
    Except SystemError α :=
  match machine.refusal request p with
  | some e => .error e
  | none => result

/-- An answer that is given is the result. -/
theorem eq_ok_of_answer_eq_ok {request : Request} {p : Path} {result : Except SystemError α} {a : α}
    (h : machine.answer request p result = .ok a) : result = .ok a := by
  unfold answer at h
  split at h
  · cases h
  · exact h

/-- **A run on a machine**, as a step from tree to tree. -/
def Run (_machine : Machine) : Type → Type :=
  StateM FileTree

instance : Monad machine.Run :=
  inferInstanceAs (Monad (StateM FileTree))

/-- **The files of a machine are a store.** -/
instance : FileStore machine.Run where
  size p := (machine.answer .size p ·) <$> (FileStore.size p : StateM FileTree _)
  bytes p := (machine.answer .bytes p ·) <$> (FileStore.bytes p : StateM FileTree _)
  names p :=
    (machine.answer .names p <| ·.map machine.order) <$> (FileStore.names p : StateM FileTree _)
  isFile p := (FileStore.isFile p : StateM FileTree _)
  isFolder p := (FileStore.isFolder p : StateM FileTree _)
  createFolder p := FileTree.attempt fun t => machine.answer .createFolder p (t.withFolder p)
  write p text := FileTree.attempt fun t => machine.answer .write p (t.withFile p text.toUTF8)

/-- **The plain machine is the tree** as a store. -/
theorem plain_run :
    (inferInstance : FileStore plain.Run) = (inferInstance : FileStore (StateM FileTree)) := by
  have hnames : ∀ p : Path, FileStore.names (m := plain.Run) p
      = FileStore.names (m := StateM FileTree) p := by
    intro p
    refine funext fun t => ?_
    show ((t.namesAt p).map fun names => names, t) = (t.namesAt p, t)
    cases t.namesAt p with
    | error e => rfl
    | ok names => rfl
  let tree : FileStore (StateM FileTree) := inferInstance
  exact congrArg (fun names => { tree with names }) (funext hnames)

namespace Run

variable {machine}

/-- **What comes of a run**, and the tree that it leaves. -/
def on (run : machine.Run α) (t : FileTree) : α × FileTree :=
  StateT.run (m := Id) run t

@[simp] theorem on_pure (a : α) (t : FileTree) : (pure a : machine.Run α).on t = (a, t) :=
  rfl

@[simp] theorem on_bind (run : machine.Run α) (next : α → machine.Run β) (t : FileTree) :
    (run >>= next).on t = (next (run.on t).1).on (run.on t).2 :=
  rfl

/-- After a failure nothing more happens. -/
theorem on_bindExcept (run : ExceptT Error machine.Run α) (next : α → ExceptT Error machine.Run β)
    (t : FileTree) :
    (run >>= next).run.on t
      = match run.run.on t with
        | (.ok a, u) => (next a).run.on u
        | (.error e, u) => (.error e, u) := by
  show (ExceptT.bindCont next (run.run.on t).1).on (run.run.on t).2 = _
  rcases run.run.on t with ⟨_ | _, u⟩
  · rfl
  · rfl

/-- A refusal that is an error is worded, and nothing else happens. -/
theorem on_demand (refused : SystemError → Error) (request : machine.Run (Except SystemError α))
    (t : FileTree) :
    (demand refused request : ExceptT Error machine.Run α).run.on t
      = ((request.on t).1.mapError refused, (request.on t).2) :=
  rfl

/-! ## What a store is asked -/

variable (p : Path) (t : FileTree)

@[simp] theorem on_size :
    (FileStore.size p : machine.Run _).on t = (machine.answer .size p (t.sizeAt p), t) :=
  rfl

@[simp] theorem on_bytes :
    (FileStore.bytes p : machine.Run _).on t = (machine.answer .bytes p (t.bytesAt p), t) :=
  rfl

@[simp] theorem on_names :
    (FileStore.names p : machine.Run _).on t
      = (machine.answer .names p ((t.namesAt p).map machine.order), t) :=
  rfl

@[simp] theorem on_isFile : (FileStore.isFile p : machine.Run _).on t = (t.isFileAt p, t) :=
  rfl

@[simp] theorem on_isFolder : (FileStore.isFolder p : machine.Run _).on t = (t.isFolderAt p, t) :=
  rfl

/-- **A request that may change the tree** changes it if it succeeds, and otherwise nothing. -/
theorem on_createFolder :
    (FileStore.createFolder p : machine.Run _).on t
      = match machine.answer .createFolder p (t.withFolder p) with
        | .ok u => (.ok (), u)
        | .error e => (.error e, t) :=
  FileTree.run_attempt (fun t => machine.answer .createFolder p (t.withFolder p)) t

theorem on_write (text : String) :
    (FileStore.write p text : machine.Run _).on t
      = match machine.answer .write p (t.withFile p text.toUTF8) with
        | .ok u => (.ok (), u)
        | .error e => (.error e, t) :=
  FileTree.run_attempt (fun t => machine.answer .write p (t.withFile p text.toUTF8)) t

/-! ## Runs that only ask -/

/-- **A run that answers the same on two trees**, and changes neither. -/
def AnswersAlike (t u : FileTree) (run : machine.Run α) : Prop :=
  ∃ a, run.on t = (a, t) ∧ run.on u = (a, u)

namespace AnswersAlike

variable {p : Path} {t u : FileTree}

protected theorem pure (a : α) : AnswersAlike t u (pure a : machine.Run α) :=
  ⟨a, rfl, rfl⟩

protected theorem bind {run : machine.Run α} {next : α → machine.Run β}
    (h : AnswersAlike t u run) (hnext : ∀ a, AnswersAlike t u (next a)) :
    AnswersAlike t u (run >>= next) := by
  obtain ⟨a, ht, hu⟩ := h
  obtain ⟨b, hbt, hbu⟩ := hnext a
  refine ⟨b, ?_, ?_⟩
  · rw [on_bind, ht, hbt]
  · rw [on_bind, hu, hbu]

/-- A step after one that may fail. -/
theorem bindExcept {run : ExceptT Error machine.Run α}
    {next : α → ExceptT Error machine.Run β} (h : AnswersAlike t u run.run)
    (hnext : ∀ a, AnswersAlike t u (next a).run) : AnswersAlike t u (run >>= next).run := by
  show AnswersAlike t u (run.run >>= ExceptT.bindCont next)
  refine .bind h fun result => ?_
  cases result with
  | ok a => exact hnext a
  | error e => exact .pure (Except.error e)

/-- A request whose refusal is an error. -/
theorem demand {request : machine.Run (Except SystemError α)} (h : AnswersAlike t u request)
    (refused : SystemError → Error) :
    AnswersAlike t u (demand refused request : ExceptT Error machine.Run α).run :=
  .bind h fun a => .pure (a.mapError refused)

theorem settle (result : Except Error α) :
    AnswersAlike t u (settle result : ExceptT Error machine.Run α).run :=
  .pure result

/-- **Where a path leads to the same**, the same bytes are counted. -/
theorem size (h : t.find p = u.find p) :
    AnswersAlike t u (FileStore.size p : machine.Run _) := by
  refine ⟨machine.answer .size p (t.sizeAt p), rfl, ?_⟩
  rw [on_size, FileTree.sizeAt, FileTree.sizeAt, h]

/-- **Where a path leads to the same**, the same bytes are read. -/
theorem bytes (h : t.find p = u.find p) :
    AnswersAlike t u (FileStore.bytes p : machine.Run _) := by
  refine ⟨machine.answer .bytes p (t.bytesAt p), rfl, ?_⟩
  rw [on_bytes, FileTree.bytesAt, FileTree.bytesAt, h]

end AnswersAlike

end Run

end Machine

end SchemaTypings
