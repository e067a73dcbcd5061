import RelayRamp.Files.Path

/-!
# Access to files

What the program asks of a file system. An operation that fails says why in the words of the system.
-/
namespace RelayRamp.Files

abbrev Octets := List UInt8

inductive FileFault where
  | missing
  | taken
  | notDirectory
  | isDirectory
  | longName
  | nulCharacter
  /-- The octets are not text. -/
  | notText
  | other (words : String)
  deriving DecidableEq, Repr

def FileFault.message : FileFault → String
  | missing => "No such file or directory (os error 2)"
  | taken => "File exists (os error 17)"
  | notDirectory => "Not a directory (os error 20)"
  | isDirectory => "Is a directory (os error 21)"
  | longName => "File name too long (os error 36)"
  | nulCharacter => "file name contained an unexpected NUL byte"
  | notText => "stream did not contain valid UTF-8"
  | other words => words

/-- Files by path. -/
class FileAccess (m : Type → Type) where
  read : String → m (Except FileFault Octets)
  /-- Replaces a file, or makes it. -/
  write : String → Octets → m (Except FileFault Unit)
  /-- Adds to the end of a file, or makes it. -/
  append : String → Octets → m (Except FileFault Unit)
  /-- Makes a directory and those that it is in, where they do not exist yet. -/
  makeDirectory : String → m (Except FileFault Unit)
  isDirectory : String → m Bool

/-- The path of the directory that a path lies in; empty when it names none. -/
def parent (path : String) : String :=
  let written := Text.dropEndWhile (· = '/') path.toList
  match Text.splitLast '/' written with
  | some (before, _) =>
    let before := Text.dropEndWhile (· = '/') before
    if before.isEmpty then "/" else String.ofList before
  | none => ""

end RelayRamp.Files
