/-
  The files that a cache maintenance works on, and its file-system steps.

  A file is found under a place of a cache directory, or staged in the private directory of an
  operation.  A JSON file is torn while it is written.  The content of a file is fixed; a digest that
  is stored stands for the bytes that were digested.
-/
import Mathlib.Data.List.Nodup
import Mathlib.Logic.Function.Basic
import Mathlib.Algebra.Order.Ring.Rat
import SmartHome.Lib.Guard
import SmartHome.Lib.Table

namespace SmartHome.StorageMaintenance

open Verif

abbrev Bytes := List UInt8

/-! ## Files -/

/-- `(st_dev, st_ino)` -/
@[ext]
structure Key where
  device : ℕ
  inode : ℕ
  deriving DecidableEq

inductive Kind where
  | regular
  | symlink (dangling : Bool)
  | other
  deriving DecidableEq

structure File where
  key : Key
  kind : Kind
  content : Bytes
  mtime : ℤ
  ctime : ℤ
  uid : ℕ
  gid : ℕ
  mode : ℕ
  deriving DecidableEq

structure Identity where
  device : ℕ
  inode : ℕ
  bytes : ℕ
  mtime : ℤ
  ctime : ℤ
  uid : ℕ
  gid : ℕ
  mode : ℕ
  deriving DecidableEq

/-- `identity` -/
def File.identity (f : File) : Identity :=
  ⟨f.key.device, f.key.inode, f.content.length, f.mtime, f.ctime, f.uid, f.gid, f.mode⟩

/-- The identity without the time of the last change of the inode. -/
def Identity.lasting (i : Identity) : Identity := { i with ctime := 0 }

/-- The file after a change of its links. -/
def File.touched (f : File) (now : ℤ) : File := { f with ctime := now }

@[simp] theorem File.touched_content (f : File) (now : ℤ) : (f.touched now).content = f.content := rfl
@[simp] theorem File.touched_key (f : File) (now : ℤ) : (f.touched now).key = f.key := rfl

theorem File.key_eq {f g : File} (h : f.identity.lasting = g.identity.lasting) : f.key = g.key := by
  simp only [File.identity, Identity.lasting, Identity.mk.injEq] at h
  exact Key.ext h.1 h.2.1

/-- An entry of a cache directory. -/
structure Entry where
  scope : String
  name : String
  file : File
  deriving DecidableEq

def Entry.place (e : Entry) : String × String := (e.scope, e.name)

/-! ## Operations -/

/-- A row of a plan. -/
structure Item where
  id : String
  name : String
  identity : Identity
  deriving DecidableEq

structure Plan where
  scope : String
  expires : ℚ
  items : List Item

/-- A JSON file: in the course of being written, or complete. -/
inductive Doc (α : Type) where
  | torn
  | whole (a : α)

structure Seal where
  item : String
  source : Bytes
  bytes : ℕ
  recoveryVerified : Bool

/-- The members of the receipts that say what was done. -/
inductive Report where
  | noEligibleItems
  | executionIntent
  | quarantined (items : List String)
  | outcomeUnknown (completed : List String) (reason : String)
  | restoreIntent
  | restored (items : List String)
  | restoreUnconfirmed (completed : List String) (reason : String)
  deriving DecidableEq

/-- The receipts of an operation. -/
inductive Record where
  | intent | result | restoreIntent | restoreResult
  deriving DecidableEq

/-- `payload` -/
structure Payload where
  originals : String → Option File := fun _ => none
  archives : String → Option Bytes := fun _ => none
  seals : String → Option (Doc Seal) := fun _ => none

/-- The directory of an operation. -/
structure Dir where
  plan : Plan
  records : Record → Option (Doc Report) := fun _ => none
  payload : Option Payload := none

inductive Phase where
  | execute | restore
  deriving DecidableEq

/-- The receipt that a phase begins with. -/
def Phase.intent : Phase → Record
  | execute => .intent
  | restore => .restoreIntent

/-- What happened so far, which no step reads: the phases that were begun and the steps on files
    that were taken, each with the run that did it; the files that were taken out of the cache, and
    those that were linked back. -/
structure History where
  session : ℕ
  begun : List (String × Phase × ℕ)
  acts : List (String × Phase × ℕ)
  taken : List (String × Item × Bytes)
  restored : List (String × Item × Bytes)

structure Disk where
  cache : List Entry
  dirs : String → Option Dir
  opened : Option File
  history : History

namespace Disk
variable (s : Disk)

/-- The file at a place of a cache directory. -/
def entry (place : String × String) : Option File := (lookup Entry.place place s.cache).map Entry.file

def payload (op : String) : Option Payload := (s.dirs op).bind Dir.payload

def original (op id : String) : Option File := (s.payload op).bind (·.originals id)

def archive (op id : String) : Option Bytes := (s.payload op).bind (·.archives id)

def sealOf (op id : String) : Option (Doc Seal) := (s.payload op).bind (·.seals id)

def record (op : String) (r : Record) : Option (Doc Report) := (s.dirs op).bind (·.records r)

/-- A new version of the directory of an operation. -/
def setDir (op : String) (d : Dir) : Disk := { s with dirs := Function.update s.dirs op (some d) }

end Disk

/-- A new version of a receipt. -/
def Dir.setRecord (d : Dir) (r : Record) (doc : Doc Report) : Dir :=
  { d with records := Function.update d.records r (some doc) }

section
variable {s : Disk} {op op' : String} {d : Dir} {r r' : Record} {doc : Doc Report}

@[simp] theorem Disk.setDir_dirs_self : (s.setDir op d).dirs op = some d := by simp [Disk.setDir]

@[simp] theorem Disk.setDir_dirs_of_ne (h : op' ≠ op) : (s.setDir op d).dirs op' = s.dirs op' := by
  simp [Disk.setDir, h]

@[simp] theorem Dir.setRecord_payload : (d.setRecord r doc).payload = d.payload := rfl

@[simp] theorem Dir.setRecord_self : (d.setRecord r doc).records r = some doc := by
  simp [Dir.setRecord]

@[simp] theorem Dir.setRecord_of_ne (h : r' ≠ r) : (d.setRecord r doc).records r' = d.records r' := by
  simp [Dir.setRecord, h]

end

/-! ## Steps -/

/-- A step that the file system refuses or takes. -/
abbrev FileStep := Disk → Except String Disk

/-- A step in the directory of an operation. -/
def inDir (op : String) (f : Dir → Except String Dir) : FileStep := fun s => do
  let d ← orFail "FileNotFoundError" (s.dirs op)
  let d ← f d
  return s.setDir op d

/-- A step in the payload of an operation. -/
def inPayload (op : String) (f : Payload → Except String Payload) : FileStep := inDir op fun d => do
  let p ← orFail "FileNotFoundError" d.payload
  let p ← f p
  return { d with payload := some p }

/-- A step of a phase was taken. -/
def Disk.remember (s : Disk) (op : String) (phase : Phase) : Disk :=
  { s with history := { s.history with acts := s.history.acts ++ [(op, phase, s.history.session)] } }

/-- The step is remembered as one of a phase. -/
def acting (op : String) (phase : Phase) (f : FileStep) : FileStep := fun s => do
  let s ← f s
  return s.remember op phase

/-- The lock is taken. -/
def enter (s : Disk) : Disk := { s with history := { s.history with session := s.history.session + 1 } }

def makePayload (op : String) : FileStep := inDir op fun d => do
  need (d.payload.isNone = true) "FileExistsError"
  return { d with payload := some {} }

/-- A receipt is created. -/
def createRecord (op : String) (r : Record) : FileStep := inDir op fun d => do
  need ((d.records r).isNone = true) "FileExistsError"
  return d.setRecord r .torn

/-- A receipt is created with which a phase begins. -/
def createIntent (op : String) (phase : Phase) : FileStep := fun s => do
  let s ← createRecord op phase.intent s
  return { s with history := { s.history with begun := s.history.begun ++ [(op, phase, s.history.session)] } }

def fillRecord (op : String) (r : Record) (report : Report) : FileStep := inDir op fun d =>
  return d.setRecord r (.whole report)

/-- The file at a place is opened. -/
def openFile (scope name : String) : FileStep := fun s => do
  let f ← orFail "FileNotFoundError" (s.entry (scope, name))
  need (f.kind = .regular ∨ f.kind = .other) "OSError"
  return { s with opened := some f }

def closeFile (s : Disk) : Disk := { s with opened := none }

/-- The entry at a place goes. -/
def Disk.without (s : Disk) (place : String × String) : Disk :=
  { s with cache := remove Entry.place place s.cache }

/-- A content was taken out of the cache for a row. -/
def Disk.took (s : Disk) (op : String) (row : Item) (c : Bytes) : Disk :=
  { s with history := { s.history with taken := s.history.taken ++ [(op, row, c)] } }

/-- A content was linked back for a row. -/
def Disk.gaveBack (s : Disk) (op : String) (row : Item) (c : Bytes) : Disk :=
  { s with history := { s.history with restored := s.history.restored ++ [(op, row, c)] } }

/-- The payload with or without a staged file. -/
def Payload.stage (p : Payload) (id : String) (f : Option File) : Payload :=
  { p with originals := Function.update p.originals id f }

/-- `os.rename` of a candidate into the payload. -/
def renameIn (op scope : String) (row : Item) (now : ℤ) : FileStep := fun s => do
  let f ← orFail "FileNotFoundError" (s.entry (scope, row.name))
  let s ← inPayload op (fun p => return p.stage row.id (some (f.touched now))) s
  return (s.without (scope, row.name)).took op row f.content

def Payload.newArchive (id : String) (p : Payload) : Except String Payload := do
  need ((p.archives id).isNone = true) "FileExistsError"
  return { p with archives := Function.update p.archives id (some []) }

def Payload.growArchive (id : String) (bytes : Bytes) (p : Payload) : Except String Payload := do
  let b ← orFail "FileNotFoundError" (p.archives id)
  return { p with archives := Function.update p.archives id (some (b ++ bytes)) }

def Payload.newSeal (id : String) (p : Payload) : Except String Payload := do
  need ((p.seals id).isNone = true) "FileExistsError"
  return { p with seals := Function.update p.seals id (some .torn) }

def Payload.writeSeal (id : String) (v : Seal) (p : Payload) : Except String Payload :=
  return { p with seals := Function.update p.seals id (some (.whole v)) }

def Payload.unlink (id : String) (p : Payload) : Except String Payload := do
  need ((p.originals id).isSome = true) "FileNotFoundError"
  return p.stage id none

def createArchive (op id : String) : FileStep := inPayload op (Payload.newArchive id)

def appendArchive (op id : String) (bytes : Bytes) : FileStep := inPayload op (Payload.growArchive id bytes)

def createSeal (op id : String) : FileStep := inPayload op (Payload.newSeal id)

def fillSeal (op id : String) (v : Seal) : FileStep := inPayload op (Payload.writeSeal id v)

def unlinkOriginal (op id : String) : FileStep := inPayload op (Payload.unlink id)

/-- `os.link` of a file to a place. -/
def linkTo (place : String × String) (f : File) : FileStep := fun s => do
  need ((s.entry place).isNone = true) "FileExistsError"
  return { s with cache := s.cache ++ [⟨place.1, place.2, f⟩] }

/-- `os.link` of a staged file to its name. -/
def linkOriginal (op scope : String) (row : Item) : FileStep := fun s => do
  let f ← orFail "FileNotFoundError" (s.original op row.id)
  let s ← linkTo (scope, row.name) f s
  return s.gaveBack op row f.content

/-- The name of the file that a restore writes first. -/
def Item.temp (row : Item) : String := ".storage-restore-" ++ row.id

/-- A file is created for a restore. -/
def createTemp (scope : String) (row : Item) (key : Key) (now : ℤ) : FileStep :=
  linkTo (scope, row.temp) ⟨key, .regular, [], now, now, 0, 0, 0o600⟩

/-- The file with a key is changed, under whatever names it has. -/
def changeFile (key : Key) (change : File → File) : FileStep := fun s =>
  return { s with cache := s.cache.map fun e =>
    if e.file.key = key then { e with file := change e.file } else e }

def linkTemp (scope : String) (row : Item) : FileStep := fun s => do
  let f ← orFail "FileNotFoundError" (s.entry (scope, row.temp))
  linkTo (scope, row.name) f s

def unlinkTemp (scope : String) (row : Item) : FileStep := fun s => do
  need ((s.entry (scope, row.temp)).isSome = true) "FileNotFoundError"
  return s.without (scope, row.temp)

end SmartHome.StorageMaintenance
