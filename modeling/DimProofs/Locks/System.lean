/-
The processes that use the locks side by side: their calls of `acquire…Lock` and `release` take one effect at a time, in
any order, and a process may start and die whenever it pleases, with all its calls and the guards they hold. Whatever
the answers are, a call keeps to the files of its own lock, but for the entries that it sweeps by their stem.
-/
import DimProofs.Locks.Lock

namespace Dim.Locks

open Effectful Relation

inductive Action where
  | acquire (rounds : Nat)
  | release

/-- A request by a call, and what is done with it. -/
structure Op where
  request : Request
  call : Call
  action : Action

def Op.program (op : Op) : Lock Unit :=
  match op.action with
  | .acquire rounds => acquireLifecycleLock op.request op.call rounds
  | .release => release op.request op.call

structure Running where
  op : Op
  rest : Lock Unit

/-- The world, the calls that run, and all that ever began. -/
structure System where
  world : World
  running : List Running
  begun : List Op

/-- The end of a process ends the pipes of its guards. -/
def World.died (w : World) (pid : Nat) : World :=
  { w with
    guards := w.guards.filter (·.2.pid ≠ pid)
    active := w.active.filter (·.pid ≠ pid)
    processes := w.processes.filter (·.1 ≠ pid) }

/-- What happens next, where the requests `P` are made. -/
inductive Step (P : Request → Prop) : System → System → Prop
  | began {w : World} {running : List Running} {begun : List Op} {op : Op} (hrequest : P op.request)
    (hadmitted : op.request.admitted = true) (hnonce : validNonce op.call.nonce = true) :
    Step P ⟨w, running, begun⟩ ⟨w, running ++ [⟨op, op.program⟩], begun ++ [op]⟩
  | performed {w w' : World} {before after : List Running} {begun : List Op} {op : Op} {e : Effect} {a : Answer e}
    {next : Answer e → Lock Unit} (h : performs e w a w') :
    Step P ⟨w, before ++ ⟨op, .perform e next⟩ :: after, begun⟩ ⟨w', before ++ ⟨op, next a⟩ :: after, begun⟩
  | started {w : World} {running : List Running} {begun : List Op} {pid : Nat} {startTicks : String}
    (h : w.processes.lookup pid = none) :
    Step P ⟨w, running, begun⟩ ⟨{ w with processes := (pid, startTicks) :: w.processes }, running, begun⟩
  | died {w : World} {running : List Running} {begun : List Op} {pid : Nat} :
    Step P ⟨w, running, begun⟩ ⟨w.died pid, running.filter (·.op.call.pid ≠ pid), begun⟩
  | booted {w : World} {running : List Running} {begun : List Op} {bootId : String} :
    Step P ⟨w, running, begun⟩ ⟨⟨w.files, [], [], bootId, []⟩, [], begun⟩

/-- No lock was ever asked for. -/
def System.initial (bootId : String) (processes : List (Nat × String)) : System := ⟨⟨[], [], [], bootId, processes⟩, [], []⟩

def Reachable (P : Request → Prop) (s : System) : Prop :=
  ∃ bootId processes, ReflTransGen (Step P) (System.initial bootId processes) s

theorem performs_step (e : Effect) (w : World) : performs e w (step e w).1 (step e w).2 := .inl rfl

/-- The effects of a call are steps of the system. -/
theorem steps_of_reaches {P : Request → Prop} {before after : List Running} {begun : List Op} {op : Op} {p rest : Lock Unit}
    {w w' : World} (h : Reaches performs p w rest w') :
    ReflTransGen (Step P) ⟨w, before ++ ⟨op, p⟩ :: after, begun⟩ ⟨w', before ++ ⟨op, rest⟩ :: after, begun⟩ := by
  induction h with
  | here => exact .refl
  | perform hp _ ih => exact .head (.performed hp) ih

/-! ## The effects of a call -/

/-- The files that an effect reads, makes, replaces, removes or locks. -/
def Effect.files : Effect → List FileName
  | .operate (.openGuard file) => [file]
  | .operate (.closeGuard file) => [file]
  | .operate (.remove file) => [file]
  | .operate (.create file) => [file]
  | .operate (.writeFile file _) => [file]
  | .operate (.sync file) => [file]
  | .operate (.close file) => [file]
  | .operate (.rename source target) => [source, target]
  | .operate (.removeOwner file) => [file]
  | .flock file _ => [file]
  | .readFile file => [file]
  | _ => []

/-- What a call does that leaves guards, owner records and its `release` alone. -/
inductive Quiet (name : List Char) (c : Call) : Effect → Prop
  | mkdir : Quiet name c (.operate .mkdir)
  | openGuard : Quiet name c (.operate (.openGuard (guardFile name)))
  | closeGuard : Quiet name c (.operate (.closeGuard (guardFile name)))
  | sweep {file : FileName} (h : stagingStem name <+: file) : Quiet name c (.operate (.remove file))
  | create : Quiet name c (.operate (.create (stagingFile name c.nonce)))
  | write {owner : Owner} (h : owner.call = c) : Quiet name c (.operate (.writeFile (stagingFile name c.nonce) owner))
  | sync : Quiet name c (.operate (.sync (stagingFile name c.nonce)))
  | close : Quiet name c (.operate (.close (stagingFile name c.nonce)))
  | openDirectory : Quiet name c (.operate .openDirectory)
  | syncDirectory : Quiet name c (.operate .syncDirectory)
  | closeDirectory : Quiet name c (.operate .closeDirectory)
  | readFile : Quiet name c (.readFile (ownerFile name))
  | readdir : Quiet name c .readdir
  | readBootId : Quiet name c .readBootId
  | readStat {pid : Nat} : Quiet name c (.readStat pid)
  | sleep : Quiet name c .sleep
  | isActive : Quiet name c (.isActive c)

/-- What the calls of an operation do. -/
inductive Within (op : Op) : Effect → Prop
  | quiet {e : Effect} (h : Quiet op.request.name op.call e) : Within op e
  | flock : Within op (.flock (guardFile op.request.name) op.call)
  | releaseGuard : Within op (.releaseGuard op.call)
  | rename : Within op (.operate (.rename (stagingFile op.request.name op.call.nonce) (ownerFile op.request.name)))
  | removeOwner : Within op (.operate (.removeOwner (ownerFile op.request.name)))
  | activate : Within op (.activate op.call)
  | deactivate : Within op (.deactivate op.call)

section Programs

variable {P : Effect → Prop} {α : Type}

theorem every_call {e : Effect} (h : P e) : (call e).Every P := every_effect h

theorem every_answered (answer : Except Errno α) : (answered answer).Every P := by
  cases answer <;> trivial

theorem every_operate {operation : Operation} (h : P (.operate operation)) : (operate operation).Every P :=
  (every_call h).andThen every_answered

variable {name : List Char} {c : Call}

theorem every_readProcessStat (pid : Nat) : (readProcessStat pid).Every (Quiet name c) := by
  refine (every_call .readStat).andThen fun stat => ?_
  split <;> trivial

theorem every_currentProcessIdentity (pid : Nat) : (currentProcessIdentity pid).Every (Quiet name c) := by
  refine ((every_call .readBootId).andThen every_answered).andThen fun bootId => ?_
  refine (every_readProcessStat _).andThen fun stat => ?_
  split
  · split <;> trivial
  · trivial

theorem every_probeProcess (owner : Owner) : (probeProcess owner).Every (Quiet name c) := by
  refine (every_call .readBootId).andThen fun bootId => ?_
  split
  · trivial
  · split
    · trivial
    · refine Program.Every.orElse (fun _ => every_pure _) ?_
      refine (every_readProcessStat _).andThen fun stat => ?_
      split <;> trivial

theorem every_readOwner : (readOwner (ownerFile name)).Every (Quiet name c) := by
  refine (every_call .readFile).andThen fun answer => ?_
  split <;> trivial

theorem every_syncDirectory : syncDirectory.Every (Quiet name c) := by
  refine (every_operate .openDirectory).andThen fun _ => ?_
  exact (every_operate .syncDirectory).andFinally (every_operate .closeDirectory)

theorem every_removeEntries : ∀ entries : List FileName, (removeEntries (stagingStem name) entries).Every (Quiet name c)
  | [] => trivial
  | entry :: rest => by
    rw [removeEntries]
    split
    · rename_i h
      exact (every_operate (.sweep (List.isPrefixOf_iff_prefix.mp h))).andThen fun _ => every_removeEntries rest
    · exact every_removeEntries rest

/-- The staging file is written and closed. -/
theorem every_written {owner : Owner} (h : owner.call = c) :
    (Program.tryFinally
      (do
        operate (.writeFile (stagingFile name c.nonce) owner)
        operate (.sync (stagingFile name c.nonce)))
      (operate (.close (stagingFile name c.nonce)))).Every (Quiet name c) :=
  Program.Every.andFinally ((every_operate (.write h)).andThen fun _ => every_operate .sync) (every_operate .close)

variable {op : Op}

theorem within_of_quiet {p : Lock α} (h : p.Every (Quiet op.request.name op.call)) : p.Every (Within op) :=
  h.mono fun _ => .quiet

theorem every_publishOwner {owner : Owner} (h : owner.call = op.call) :
    (publishOwner op.request.name owner).Every (Within op) := by
  refine ((every_call (.quiet .readdir)).andThen every_answered).andThen fun entries => ?_
  refine (within_of_quiet (every_removeEntries entries)).andThen fun _ => ?_
  rw [h]
  refine (every_operate (.quiet .create)).andThen fun _ => ?_
  refine (within_of_quiet (every_written h)).andThen fun _ => ?_
  refine Program.Every.andFinally ?_ (every_operate (.quiet (.sweep (List.prefix_append _ _))))
  exact (every_operate .rename).andThen fun _ => within_of_quiet every_syncDirectory

theorem every_releaseGuard : (releaseGuard op.call).Every (Within op) := by
  refine (every_call .releaseGuard).andThen fun released => ?_
  split <;> trivial

theorem every_attemptOwner {owner : Owner} (h : owner.call = op.call) :
    (attemptOwner op.request owner).Every (Within op) := by
  refine (within_of_quiet every_readOwner).andThen fun existing => ?_
  split
  · exact (every_publishOwner h).andThen fun _ => every_pure _
  · trivial
  · trivial
  · refine (within_of_quiet (every_probeProcess _)).andThen fun status => ?_
    split
    · exact (every_publishOwner h).andThen fun _ => every_pure _
    · exact (every_publishOwner h).andThen fun _ => every_pure _
    · trivial
    · trivial

theorem every_tryAcquireKernelGuard : (tryAcquireKernelGuard op.request.name op.call).Every (Within op) := by
  refine (every_operate (.quiet .openGuard)).andThen fun _ => ?_
  refine (every_operate (.quiet .closeGuard)).andThen fun _ => ?_
  refine (every_call .flock).andThen fun answer => ?_
  split <;> trivial

theorem every_unlessTransferred {body : Lock (Option String)} (h : body.Every (Within op)) :
    (unlessTransferred op.call body).Every (Within op) := by
  refine Program.Every.andThen (fun waiting => ?_) (h.orElse fun _ => every_releaseGuard.andThen fun _ => every_throw _)
  split
  · trivial
  · exact every_releaseGuard.andThen fun _ => every_pure _

theorem every_attempts {owner : Owner} (h : owner.call = op.call) : ∀ (rounds : Nat) (diagnostic : String),
    (attempts op.request owner rounds diagnostic).Every (Within op)
  | rounds, diagnostic => by
    rw [attempts.eq_def]
    refine Program.Every.andThen (fun waiting => ?_) ?_
    · split
      · exact h ▸ every_call .activate
      · split
        · trivial
        · exact (every_call (.quiet .sleep)).andThen fun _ => every_attempts h _ _
    · rw [attempt, h]
      refine every_tryAcquireKernelGuard.andThen fun acquired => ?_
      split
      · exact every_unlessTransferred (every_attemptOwner h)
      · trivial

theorem every_release : (release op.request op.call).Every (Within op) := by
  refine (every_call (.quiet .isActive)).andThen fun active => ?_
  split
  · refine (every_call .deactivate).andThen fun _ => ?_
    refine Program.Every.andFinally ?_ every_releaseGuard
    refine (within_of_quiet every_readOwner).andThen fun existing => ?_
    split
    · split
      · exact (every_operate .removeOwner).andThen fun _ => within_of_quiet every_syncDirectory
      · trivial
    · trivial
  · trivial

/-- A call keeps to the files of its lock. -/
theorem every_program (op : Op) : op.program.Every (Within op) := by
  rw [Op.program]
  split
  · refine (within_of_quiet (every_currentProcessIdentity _)).andThen fun identity => ?_
    exact (every_operate (.quiet .mkdir)).andThen fun _ => every_attempts rfl _ _
  · exact every_release

end Programs

end Dim.Locks
