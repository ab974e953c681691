import Mathlib.Logic.Function.Basic
import WindowsFidoLogon.Library.Program
import WindowsFidoLogon.Model.LocalAccount

/-!
# The machine the Broker runs on

`Machine` is the state outside the process: the vault file with its companions
and the published policy in the registry.  `Environment` fixes everything that
the process does not decide: which calls fail and what they leave behind, the
clock, the random source, the account database and the installed filters.

Every call to the outside takes the next `tick`, and the environment answers by
tick.  A theorem that holds for all environments therefore holds for every
pattern of faults and every sequence of readings.
-/

namespace WindowsFidoLogon

open Text LocalAccount

/-! ## Files and registry -/

/-- The vault file and the three files `Save` keeps beside it. -/
inductive VaultFile
  | primary
  | backup
  | temporary
  | rollback
  deriving DecidableEq, Repr

/-- The content of each file; `none` where it does not exist. -/
abbrev Disk : Type := VaultFile → Option Bytes

inductive RegistryType
  | sz
  | dword
  | multiSz
  deriving DecidableEq, Repr

structure RegistryValue where
  type : RegistryType
  data : Bytes
  deriving DecidableEq, Repr

/-- The two policy values under `CONFIG_REGISTRY_PATH`. -/
structure Registry where
  /-- `ENFORCED_SIDS_REGISTRY_VALUE` -/
  enforcedSids : Option RegistryValue := none
  /-- `enable_filter` -/
  enableFilter : Option RegistryValue := none
  deriving DecidableEq, Repr

/-! ## Faults -/

/-- The error of a read that fails although the file is there. -/
abbrev IoError : Type :=
  { e : DWORD // e ≠ ERROR_SUCCESS ∧ e ≠ ERROR_FILE_NOT_FOUND ∧ e ≠ ERROR_PATH_NOT_FOUND }

/-- What an unfinished file write left at its destination. -/
inductive Wreck
  | untouched
  | complete
  | torn (content : Option Bytes)
  deriving DecidableEq, Repr

/-- What becomes of one step that changes something. -/
inductive StepFault
  | done
  | fails (error : DWORD) (wreck : Wreck)
  | stops (wreck : Wreck)
  deriving DecidableEq, Repr

/-- The result of enumerating the installed Credential Provider Filters. -/
structure FilterScan where
  openStatus : DWORD
  names : List WString
  /-- `ERROR_NO_MORE_ITEMS`, or the error that ended the enumeration -/
  endStatus : DWORD
  /-- `GetSystemDirectoryW`, if the path fits -/
  systemDirectory : Option WString
  /-- the `InprocServer32` of a CLSID, if it can be read -/
  inprocServer : WString → Option WString

/-- The fields of `SYSTEMTIME` that are printed. -/
structure SystemTime where
  year : Nat
  month : Nat
  day : Nat
  hour : Nat
  minute : Nat
  second : Nat

structure Environment where
  /-- the error of a read of an existing file, if it fails -/
  readFault : VaultFile → Nat → Option IoError
  /-- the fate of a write, copy, move, deletion or registry change -/
  stepFault : Nat → StepFault
  /-- whether reading `EnforcedSids` fails -/
  registryReadFails : Nat → Bool
  /-- `std::chrono::steady_clock::now()`, in nanoseconds -/
  clock : Nat → Nat
  /-- `BCryptGenRandom` for a number of bytes -/
  random : (bytes : Nat) → Nat → Option { data : Bytes // data.length = bytes }
  /-- the account database -/
  accounts : Nat → AccountDatabase
  /-- `GetSystemTime` -/
  systemTime : Nat → SystemTime
  /-- the registered Credential Provider Filters -/
  filters : Nat → FilterScan

/-! ## The state and the calls that use it -/

/-- What happened in the store and no result shows.  No program reads the log: it
is the history variable in which results about runs are stated. -/
inductive LogEntry
  /-- `Load` returned the vault of this file -/
  | loaded (file : VaultFile) (vault : Vault)
  /-- `Load` returned false -/
  | loadFailed
  /-- `LoadOrCreate` made a new vault -/
  | created
  /-- a step that was to restore the previous file or policy failed -/
  | compensationFailed
  deriving DecidableEq, Repr

structure Machine where
  disk : Disk
  registry : Registry := {}
  /-- the number of calls made so far -/
  tick : Nat := 0
  log : List LogEntry := []

/-- A program of the Broker process; its exceptions carry their `what()`. -/
abbrev Call (α : Type) : Type := Program Machine Bytes α

namespace Machine

/-- The machine after one more call. -/
def next (m : Machine) : Machine := { m with tick := m.tick + 1 }

def setFile (file : VaultFile) (content : Option Bytes) (m : Machine) : Machine :=
  { m with disk := Function.update m.disk file content }

def setRegistry (registry : Registry) (m : Machine) : Machine :=
  { m with registry }

def record (entry : LogEntry) (m : Machine) : Machine :=
  { m with log := entry :: m.log }

/-- The destination after an unfinished write of `content`. -/
def wreckFile (file : VaultFile) (content : Bytes) : Wreck → Machine → Machine
  | .untouched, m => m
  | .complete, m => m.setFile file (some content)
  | .torn left, m => m.setFile file left

@[simp] theorem next_disk (m : Machine) : m.next.disk = m.disk := rfl
@[simp] theorem next_registry (m : Machine) : m.next.registry = m.registry := rfl
@[simp] theorem next_tick (m : Machine) : m.next.tick = m.tick + 1 := rfl
@[simp] theorem next_log (m : Machine) : m.next.log = m.log := rfl

@[simp] theorem setFile_disk (f : VaultFile) (c : Option Bytes) (m : Machine) :
    (m.setFile f c).disk = Function.update m.disk f c := rfl
@[simp] theorem setFile_registry (f : VaultFile) (c : Option Bytes) (m : Machine) :
    (m.setFile f c).registry = m.registry := rfl
@[simp] theorem setFile_tick (f : VaultFile) (c : Option Bytes) (m : Machine) :
    (m.setFile f c).tick = m.tick := rfl
@[simp] theorem setFile_log (f : VaultFile) (c : Option Bytes) (m : Machine) :
    (m.setFile f c).log = m.log := rfl

@[simp] theorem setRegistry_disk (r : Registry) (m : Machine) :
    (m.setRegistry r).disk = m.disk := rfl
@[simp] theorem setRegistry_registry (r : Registry) (m : Machine) :
    (m.setRegistry r).registry = r := rfl
@[simp] theorem setRegistry_tick (r : Registry) (m : Machine) :
    (m.setRegistry r).tick = m.tick := rfl
@[simp] theorem setRegistry_log (r : Registry) (m : Machine) :
    (m.setRegistry r).log = m.log := rfl

@[simp] theorem record_disk (i : LogEntry) (m : Machine) : (m.record i).disk = m.disk := rfl
@[simp] theorem record_registry (i : LogEntry) (m : Machine) :
    (m.record i).registry = m.registry := rfl
@[simp] theorem record_tick (i : LogEntry) (m : Machine) : (m.record i).tick = m.tick := rfl
@[simp] theorem record_log (i : LogEntry) (m : Machine) :
    (m.record i).log = i :: m.log := rfl

@[simp] theorem wreckFile_registry (f : VaultFile) (c : Bytes) (w : Wreck) (m : Machine) :
    (m.wreckFile f c w).registry = m.registry := by cases w <;> rfl
@[simp] theorem wreckFile_tick (f : VaultFile) (c : Bytes) (w : Wreck) (m : Machine) :
    (m.wreckFile f c w).tick = m.tick := by cases w <;> rfl
@[simp] theorem wreckFile_log (f : VaultFile) (c : Bytes) (w : Wreck) (m : Machine) :
    (m.wreckFile f c w).log = m.log := by cases w <;> rfl

/-- A wreck only concerns the file that was being written. -/
theorem wreckFile_disk_of_ne {f g : VaultFile} (h : g ≠ f) (c : Bytes) (w : Wreck)
    (m : Machine) : (m.wreckFile f c w).disk g = m.disk g := by
  cases w with
  | untouched => rfl
  | complete => exact Function.update_of_ne h _ _
  | torn left => exact Function.update_of_ne h _ _

end Machine

namespace Environment

variable (E : Environment)

/-- Ask the environment for an answer that changes nothing. -/
def ask {α : Type} (answer : Nat → α) : Call α := fun m =>
  (.returned (answer m.tick), m.next)

/-- A change that happens entirely or not at all. -/
def atomicStep (effect : Machine → Machine) : Call (Except DWORD Unit) := fun m =>
  match E.stepFault m.tick with
  | .done => (.returned (.ok ()), effect m.next)
  | .fails e _ => (.returned (.error e), m.next)
  | .stops .complete => (.stopped, effect m.next)
  | .stops _ => (.stopped, m.next)

/-- A file write, which may leave anything behind when it does not finish. -/
def fileStep (file : VaultFile) (content : Bytes) : Call (Except DWORD Unit) := fun m =>
  match E.stepFault m.tick with
  | .done => (.returned (.ok ()), m.next.setFile file (some content))
  | .fails e wreck => (.returned (.error e), m.next.wreckFile file content wreck)
  | .stops wreck => (.stopped, m.next.wreckFile file content wreck)

/-- `CopyFileW(from, to, FALSE)` -/
def copyFile (source target : VaultFile) : Call (Except DWORD Unit) := fun m =>
  match m.disk source with
  | none => (.returned (.error ERROR_FILE_NOT_FOUND), m.next)
  | some content => E.fileStep target content m

/-- `MoveFileExW(from, to, MOVEFILE_REPLACE_EXISTING | MOVEFILE_WRITE_THROUGH)` -/
def moveFile (source target : VaultFile) : Call (Except DWORD Unit) := fun m =>
  match m.disk source with
  | none => (.returned (.error ERROR_FILE_NOT_FOUND), m.next)
  | some content =>
      E.atomicStep (fun m => (m.setFile target (some content)).setFile source none) m

/-- `DeleteFileW`, whose result is ignored. -/
def deleteFile (file : VaultFile) : Call Unit := do
  let _ ← E.atomicStep (Machine.setFile file none)

end Environment

end WindowsFidoLogon
