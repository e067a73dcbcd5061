import RelayRamp.Files.Access

/-!
# A disk in memory

Files and directories by their parts from the root. A relative path starts in the working directory. Two dots
lead to the directory above; every step of a path but the last must lead into a directory.
-/
namespace RelayRamp.Files

/-- The parts of a place on the disk, from the root. -/
abbrev Place := List String

structure Disk where
  files : List (Place × Octets)
  /-- Directories besides the root. -/
  directories : List Place
  /-- The working directory. -/
  workPlace : Place

namespace Disk

def isDirectoryAt (d : Disk) (p : Place) : Bool := p.isEmpty || d.directories.contains p

def file? (d : Disk) (p : Place) : Option Octets := d.files.lookup p

/-- Goes along the parts from a directory. -/
def walk (d : Disk) : Place → List String → Except FileFault Place
  | at', [] => .ok at'
  | at', part :: rest =>
    if Text.octets part > maxPart then .error .longName
    else
      let next := if part = ".." then at'.dropLast else at' ++ [part]
      if rest.isEmpty || d.isDirectoryAt next then d.walk next rest
      else if (d.file? next).isSome then .error .notDirectory
      else .error .missing

/-- The place that a path names, whether or not anything is there. -/
def locate (d : Disk) (path : String) : Except FileFault Place :=
  if path.toList.any (·.toNat = 0) then .error .nulCharacter
  else if path.isEmpty then .error .missing
  else if Text.octets path ≥ maxPath then .error .longName
  else d.walk (if isAbsolute path then [] else d.workPlace) (parts path)

def readAt (d : Disk) (path : String) : Except FileFault Octets := do
  let p ← d.locate path
  if d.isDirectoryAt p then throw .isDirectory
  match d.file? p with
  | some octets => if path.endsWith "/" then throw .notDirectory else pure octets
  | none => throw .missing

/-- Changes the content of a file; a file that does not exist begins empty. -/
def change (d : Disk) (path : String) (f : Octets → Octets) : Except FileFault Disk := do
  let p ← d.locate path
  if d.isDirectoryAt p || path.endsWith "/" then throw .isDirectory
  let content := f ((d.file? p).getD [])
  pure { d with files := (p, content) :: d.files.filter (·.1 ≠ p) }

/-- Makes the directories that lead along the parts. -/
def makeAlong (d : Disk) : Place → List String → Except FileFault Disk
  | _, [] => .ok d
  | at', part :: rest =>
    if Text.octets part > maxPart then .error .longName
    else
      let next := if part = ".." then at'.dropLast else at' ++ [part]
      if (d.file? next).isSome then .error (if rest.isEmpty then .taken else .notDirectory)
      else
        let d := if d.isDirectoryAt next then d else { d with directories := next :: d.directories }
        d.makeAlong next rest

def makeDirectoryAt (d : Disk) (path : String) : Except FileFault Disk :=
  d.makeAlong (if isAbsolute path then [] else d.workPlace) (parts path)

def hasDirectory (d : Disk) (path : String) : Bool :=
  match d.locate path with
  | .ok p => d.isDirectoryAt p
  | .error _ => false

/-- Keeps the disk that a change led to. -/
def keep (change : Disk → Except FileFault Disk) : StateM Disk (Except FileFault Unit) := do
  match change (← get) with
  | .ok d =>
    set d
    pure (.ok ())
  | .error fault => pure (.error fault)

end Disk

instance : FileAccess (StateM Disk) where
  read path := do pure ((← get).readAt path)
  write path octets := Disk.keep (·.change path fun _ => octets)
  append path octets := Disk.keep (·.change path (· ++ octets))
  makeDirectory path := Disk.keep (·.makeDirectoryAt path)
  isDirectory path := do pure ((← get).hasDirectory path)

end RelayRamp.Files
