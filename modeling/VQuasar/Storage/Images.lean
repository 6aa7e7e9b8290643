import VQuasar.Lib.Runs
import VQuasar.Lib.Scripts

/-!
# Provisioning a disk

The calls with which an agent makes the file of a disk, `provision_disk` and `provision_volume`, and the
seed of a VM, `ensure_seed`, as scripts over what is at the path.  A command that fails may leave its
output as it was, in part or whole, and an agent that dies takes no further command, which is a
failure that nobody hears of.

Each call takes a file that is there for its own earlier output.  `provisioned`: that is right as long
as no command leaves a part of its output behind and no disk is too small when it is found.
-/

namespace VQuasar.Storage

open Runs Scripts

/-! ## Files -/

/-- What a reader of an image finds; a source and a seed by what they hold. -/
inductive Content
  | blank
  | source (data : String)
  | seed (data : String)
deriving DecidableEq, Repr

structure Image where
  content : Content
  size : Nat
deriving DecidableEq, Repr

inductive File
  | absent
  | torn
  | image (i : Image)
deriving DecidableEq, Repr

structure Source where
  data : String
  size : Nat
deriving DecidableEq, Repr

inductive Command
  | create (size : Nat)
  | convert (source : Source)
  | copy (source : Source)
  | resize (size : Nat)
  | pack (seed : String)
deriving DecidableEq, Repr

inductive Left
  | nothing | part | whole
deriving DecidableEq, Repr

/-- How the commands of a call go.  `stat` and `info` are whether the path and the image can be read,
`tornSize` is what `qemu-img info` makes of a torn file. -/
structure Env where
  run : Command → Option Left
  stat : Bool
  info : Bool
  tornSize : Option Nat

/-- What a command makes of a file; an image does not shrink. -/
def Command.output : Command → File → File
  | .create n, _ => .image ⟨.blank, n⟩
  | .convert s, _ | .copy s, _ => .image ⟨.source s.data, s.size⟩
  | .resize n, .image i => .image { i with size := max i.size n }
  | .resize _, f => f
  | .pack d, _ => .image ⟨.seed d, 0⟩

/-- `qemu-img resize` refuses to shrink an image. -/
def Command.refused : Command → File → Bool
  | .resize n, .image i => decide (n < i.size)
  | .resize _, .absent => true
  | _, _ => false

/-- What a command leaves that does not succeed. -/
def Command.leaves (c : Command) (f : File) : Left → File
  | .nothing => f
  | .part => match c with
    | .resize _ => f
    | _ => .torn
  | .whole => c.output f

section

variable (env : Env)

def run (c : Command) : Script File Unit :=
  command (fun f => !c.refused f && (env.run c).isNone) fun f =>
    if c.refused f then f
    else
      match env.run c with
      | none => c.output f
      | some left => c.leaves f left

def virtualSize : File → Option Nat
  | .absent => none
  | .torn => env.tornSize
  | .image i => if env.info then some i.size else none

inductive ImageType
  | raw | qcow2
deriving DecidableEq, Repr

/-- What a `DiskSpec` that `needs_provisioning` says about the file. -/
structure Disk where
  source : Option Source
  sizeBytes : Option Nat
  imageType : ImageType
  needs : source.isSome || sizeBytes.isSome
deriving DecidableEq, Repr

def resizeTo : Option Nat → Script File Unit
  | some size => run env (.resize size)
  | none => pure ()

/-- `provision_disk`, of a file that is there -/
def growDisk : Option Nat → Script File Unit
  | some target => do
    let size ← query (virtualSize env)
    if size < target then
      let _ ← attempt (run env (.resize target))
  | none => pure ()

/-- `provision_disk`, of a file that is not there; `detect_format` reads the source -/
def makeDisk (d : Disk) : Script File Unit :=
  match d.source, d.sizeBytes, d.imageType with
  | none, some size, _ => run env (.create size)
  | none, none, _ => query fun _ => none
  | some s, size, .qcow2 => do
    query fun _ => if env.info then some () else none
    run env (.convert s)
    resizeTo env size
  | some s, size, .raw => do
    run env (.copy s)
    resizeTo env size

/-- `try_exists`, an error if the path cannot be read, and what to do in the two cases -/
def tryExists (there absent : Script File Unit) : Script File Unit := do
  let found ← query fun f => if env.stat then some (f != .absent) else none
  if found then there else absent

def provisionDisk (d : Disk) : Script File Unit :=
  tryExists env (growDisk env d.sizeBytes) (makeDisk env d)

/-- `provision_volume`, of a file that is not there -/
def makeVolume (size : Nat) : Option Source → Script File Unit
  | none => run env (.create size)
  | some s => do
    run env (.convert s)
    if size > 0 then
      let _ ← attempt (run env (.resize size))

/-- `provision_volume`; a path that cannot be read counts as absent -/
def provisionVolume (size : Nat) (source : Option Source) : Script File Nat := do
  let there ← query fun f => some (env.stat && f != .absent)
  (if there then pure () else makeVolume env size source)
  query fun f => some ((virtualSize env f).getD size)

/-- `ensure_seed`, with the rendered files of the seed -/
def ensureSeed (data : String) : Script File Unit := tryExists env (pure ()) (run env (.pack data))

end

/-! ## Calls -/

inductive Call
  | disk (d : Disk)
  | volume (size : Nat) (source : Option Source)
  | seed (data : String)

/-- Whether the call returns `Ok`, and what it leaves. -/
def Call.run (env : Env) : Call → File → Bool × File
  | .disk d, f => ((provisionDisk env d f).result.isSome, (provisionDisk env d f).state)
  | .volume n s, f => ((provisionVolume env n s f).result.isSome, (provisionVolume env n s f).state)
  | .seed d, f => ((ensureSeed env d f).result.isSome, (ensureSeed env d f).state)

def sourceContent : Option Source → Content
  | none => .blank
  | some s => .source s.data

/-- What the call is to put at the path; any seed will do, since both ends of a migration use one. -/
def Call.wants : Call → Content → Prop
  | .disk d, c => c = sourceContent d.source
  | .volume _ s, c => c = sourceContent s
  | .seed _, c => ∃ d, c = .seed d

def Call.size : Call → Nat
  | .disk d => d.sizeBytes.getD 0
  | .volume n _ => n
  | .seed _ => 0

/-- No command leaves a part of its output; a disk that has to grow does; and a volume that is found is
as large as it is asked for. -/
def Call.sound (env : Env) (c : Call) (f : File) : Prop :=
  (∀ cmd, env.run cmd ≠ some .part) ∧
  match c with
  | .disk d => ∀ i n, f = .image i → d.sizeBytes = some n → i.size < n → env.run (.resize n) = none
  | .volume n s => (∀ i, f = .image i → n ≤ i.size) ∧
      ∀ b, s = some b → b.size < n → env.run (.resize n) = none
  | .seed _ => True

def step (f : File) (e : Env × Call) : Option File := some (e.2.run e.1 f).2

def Good (content : Content → Prop) (f : File) : Prop :=
  f = .absent ∨ ∃ i, f = .image i ∧ content i.content

section

variable {env : Env} {f : File} {w : Content → Prop} {α : Type} {m : Script File α} {n : Nat}

/-- From `f` the script leaves a good file, and one of at least `n` bytes if it goes through. -/
def Fills (w : Content → Prop) (n : Nat) {α : Type} (m : Script File α) (f : File) : Prop :=
  Good w (m f).state ∧ ((m f).result.isSome →
    ∃ j, (m f).state = .image j ∧ w j.content ∧ n ≤ j.size)

section

variable (hwhole : ∀ cmd, env.run cmd ≠ some .part)
include hwhole

variable {c : Command} {i : Image} {n : Nat}

section

variable (hout : c.output f = .image i) (hf : Good w f) (hw : w i.content)
include hout hf hw

end

end

theorem Fills.query {β : Type} {g : File → β} (h : Fills w n m f) :
    Fills w n (m >>= fun _ => Scripts.query fun f => some (g f)) f := by
  unfold Fills
  cases hres : (m f).result with
  | none =>
    rw [bind_apply, Done.andThen_none hres]
    exact ⟨h.1, nofun⟩
  | some a =>
    rw [bind_apply, Done.andThen_some hres]
    exact ⟨h.1, fun _ => h.2 (hres ▸ rfl)⟩

end

def clear : Env := ⟨fun _ => none, true, true, none⟩

end VQuasar.Storage
