import RelayRamp.Policy.Request
import RelayRamp.Text.Utf8

/-!
# The policy stream

A connection carries lines that end with a newline. They are read in pieces: a piece ends with its line, or when it
has the greatest length that a line may have. A line that does not end within its first piece is too long; that piece
is dropped, and so is every other up to the one that ends the line. A line that is empty but for line ends closes a
request, which consists of the lines since the one before it. What follows the last newline is never looked at.
-/
namespace RelayRamp.Policy

open RelayRamp.Text

/-- The longest line that is taken, with its newline, in octets. -/
def maxLineOctets : Nat := 4096

def newline : UInt8 := 10

/-- The text of a line that was read with its newline, without line ends. -/
def lineText (line : List UInt8) : List Char :=
  dropEndWhile (fun c => c = '\r' || c = '\n') (Utf8.decodeLossy line)

/-- What has come over a connection and ends no request yet. -/
structure Intake where
  /-- The octets of the piece that is being read, the newest first. -/
  piece : List UInt8
  /-- The octets that the piece may still take. -/
  room : Nat
  /-- The line began with a piece that did not end it. -/
  discarding : Bool
  request : PolicyRequest
  deriving DecidableEq, Repr

namespace Intake

/-- Before the first octet of a piece. -/
def awaiting (discarding : Bool) (request : PolicyRequest) : Intake := ⟨[], maxLineOctets, discarding, request⟩

def empty : Intake := awaiting false .empty

/-- Takes in a line; gives the request that it ends. -/
def takeLine (request : PolicyRequest) (text : List Char) : Intake × Option PolicyRequest :=
  if text.isEmpty then (empty, some request) else (awaiting false (request.push text), none)

/-- Takes in the piece that was read. -/
def close (i : Intake) : Intake × Option PolicyRequest :=
  let complete := i.piece.head? = some newline
  if i.discarding || !complete then (awaiting (!complete) i.request, none)
  else takeLine i.request (lineText i.piece.reverse)

/-- Reads one octet; gives the request that it ends. -/
def next (i : Intake) (octet : UInt8) : Intake × Option PolicyRequest :=
  let i := { i with piece := octet :: i.piece, room := i.room - 1 }
  if octet = newline ∨ i.room = 0 then i.close else (i, none)

/-- Reads octets; gives the requests that they end. -/
def receive (i : Intake) : List UInt8 → Intake × List PolicyRequest
  | [] => (i, [])
  | octet :: octets =>
    let (i, ended) := i.next octet
    let (i, later) := i.receive octets
    (i, ended.toList ++ later)

/-- Whether octets end the piece that is being read. -/
def endsPiece (i : Intake) (octets : List UInt8) : Bool := octets.contains newline || i.room ≤ octets.length

/-- Reads octets and sees to the requests that they end, one after the other. -/
def hear {m : Type → Type u} [Monad m] (see : PolicyRequest → m Unit) (i : Intake) (octets : List UInt8) : m Intake := do
  let (i, requests) := i.receive octets
  requests.forM see
  pure i

end Intake

end RelayRamp.Policy
