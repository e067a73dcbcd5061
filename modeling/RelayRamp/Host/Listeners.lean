import Std.Async.Signal
import Std.Async.TCP
import Std.Http
import RelayRamp.Admin.Service
import RelayRamp.Cli.Program
import RelayRamp.Host.Desk
import RelayRamp.Policy.Conversation

/-!
# Listeners

The running server: the admin interface over HTTP, the policy stream over TCP, and maintenance, all at one desk.
It ends when the program is interrupted, and then writes the counters once more.
-/
namespace RelayRamp.Host

open RelayRamp.Admin RelayRamp.Config RelayRamp.Plane RelayRamp.Policy RelayRamp.Server
open Std.Async (Async ContextAsync Selectable)
open Std.Async.TCP.Socket (Client)

/-- A socket that takes policy connections. -/
abbrev PolicySocket := Std.Async.TCP.Socket.Server

/-- The address of a socket of this machine. -/
def socketOf (address : Net.SocketAddress) : Std.Net.SocketAddress :=
  let octet (i : Nat) : UInt8 := (address.octets.getD i 0).toUInt8
  let group (i : Nat) : UInt16 := (octet (2 * i)).toUInt16 * 256 + (octet (2 * i + 1)).toUInt16
  if address.octets.length = 4 then
    .v4 ⟨.ofParts (octet 0) (octet 1) (octet 2) (octet 3), address.port.toUInt16⟩
  else
    let parts := .ofParts (group 0) (group 1) (group 2) (group 3) (group 4) (group 5) (group 6) (group 7)
    .v6 ⟨parts, address.port.toUInt16⟩

/-- The address that a text of the configuration names. -/
def socketNamed (text : String) : IO Std.Net.SocketAddress :=
  match Net.SocketAddress.parse text with
  | some address => pure (socketOf address)
  | none => throw (.userError s!"invalid socket address: {text}")

/-- Receives a body, and of one that is too long only enough to tell. -/
def receiveBody (body : Std.Http.Body.Stream) : Async (List UInt8) := do
  let mut received := ByteArray.empty
  for chunk in body do
    received := received ++ chunk.data
    if received.size > maxReceived then break
  pure received.toList

/-- The HTTP response for a reply. -/
def sent (reply : Reply) : Async (Std.Http.Response Std.Http.Body.Any) := do
  let status := (Std.Http.Status.ofCode none reply.status.toUInt16).getD .internalServerError
  let builder := Std.Http.Response.withStatus status
  let response ← match reply.content with
    | .empty => builder.fromBytes .empty
    | .json value => builder.json value.compress
    | .text text => builder.text text
  pure response

/-- The admin interface of a desk. -/
structure AdminListener where
  desk : Desk

/-- Replies to one request; waits if the reply is the verdict of an attempt. -/
def AdminListener.reply (l : AdminListener) (method target : String) (body : List UInt8) : Async Reply := do
  match Request.ofParts? method target body with
  | none => pure (.bare 400)
  | some request =>
    match ← l.desk.work fun e => Admin.respond l.desk.config.server.maxBodyOctets e request with
    | .reply reply => pure reply
    | .attempt wanted => pure (verdictReply (← l.desk.attempt wanted))

instance : Std.Http.Server.Handler AdminListener where
  onRequest l request := do
    let body ← receiveBody request.body
    let reply ← l.reply (toString request.line.method) (toString request.line.uri) body
    sent reply

/-- Milliseconds that a policy connection has for each piece of a line. -/
def pieceTime : Nat := 10000

/-- Milliseconds between a connection that failed and the next try. -/
def acceptPause : Std.Time.Millisecond.Offset := 100

/-- The next octets of a connection, unless none come before the machine's clock reads the given time. -/
def receiveBy (client : Client) (due : Nat) : Async (Option ByteArray) := do
  let left := due - (← IO.monoMsNow)
  let late ← Std.Async.Selector.sleep (.ofNat left)
  Selectable.one #[
    .case (client.recvSelector 4096) fun octets => pure octets,
    .case late fun () => pure none ]

/-- The action for one policy request. -/
def Desk.evaluate (d : Desk) (request : PolicyRequest) : Async PolicyAction := do
  match request.recipient? with
  | none => pure .dunno
  | some recipient =>
    let admission ← d.attempt (.single recipient)
    d.work fun e => (Engine.complete e admission, ())
    pure (.ofVerdict admission.verdict)

/-- Answers the requests of one policy connection until it ends. A client that lets the octets of a piece drip has no
more time for it than another; the time for the next piece begins when everything before it is answered. -/
partial def Desk.converse (d : Desk) (client : Client) (intake : Intake) (due : Nat) : Async Unit := do
  match ← receiveBy client due with
  | none => client.shutdown
  | some octets =>
    let octets := octets.toList
    let later ← intake.hear (answer d.evaluate fun reply => client.send reply.toUTF8) octets
    let now ← IO.monoMsNow
    d.converse client later (if intake.endsPiece octets then now + pieceTime else due)

/-- Takes policy connections. One that fails is recorded and the next is tried after a pause. -/
partial def Desk.welcome (d : Desk) (listener : PolicySocket) : Async Unit := do
  try
    let client ← listener.accept
    let now ← IO.monoMsNow
    Std.Async.background (d.converse client .empty (now + pieceTime))
  catch fault =>
    let words := "policy listener accept failed: " ++ faultWords fault
    d.work fun e => (e.record (.plain .policyAcceptFailed words), ())
    Std.Async.sleep acceptPause
  d.welcome listener

/-- Lets maintenance go on as time passes. -/
partial def Desk.keepTime (d : Desk) : Async Unit := do
  d.touch
  Std.Async.sleep pause
  d.keepTime

/-- Binds the listener of an action, or tells why that failed. -/
def bound (name : String) (action : IO α) : IO (Except ServerFault α) := do
  match ← action.toBaseIO with
  | .ok a => pure (.ok a)
  | .error fault => pure (.error (.transport name (faultWords fault)))

def bindAdmin (d : Desk) : IO (Except ServerFault Std.Http.Server) :=
  bound "api" do
    let address ← socketNamed d.config.server.bind
    (Std.Http.Server.serve address (AdminListener.mk d)).block

def bindPolicy (text : String) : IO (Except ServerFault PolicySocket) :=
  bound "policy" do
    let address ← socketNamed text
    let listener ← Std.Async.TCP.Socket.Server.mk
    listener.bind address
    listener.listen 1024
    pure listener

/-- Waits until the program is interrupted. -/
def interrupted : Async Unit := do
  let waiter ← Std.Async.Signal.Waiter.mk .sigint false
  let _ ← Std.Async.await (← waiter.wait)

/-- Serves until the program is interrupted. -/
def Desk.serve (d : Desk) (policy : Option PolicySocket) : Async Unit := do
  let timing := d.config.maintenance
  let number ← d.work fun e => Engine.startMaintenance e timing.persistInterval timing.reclaimInterval
  Std.Async.background d.keepTime
  match policy with
  | some listener => Std.Async.background (d.welcome listener)
  | none => pure ()
  interrupted
  d.work fun e => (Engine.endMaintenance e number, ())

def initFailed (fault : ServerFault) : Cli.Outcome := Cli.failed "serve.init_failed" fault.message

/-- Sets up the server and its listeners, and serves. -/
def serve (begun : Nat) : Cli.Serving IO := fun config => do
  match ← setUp config (← momentSince begun) with
  | .error fault => pure (initFailed fault)
  | .ok station =>
    let desk ← Desk.new config begun station
    match ← bindAdmin desk with
    | .error fault => pure (initFailed fault)
    | .ok admin =>
      match ← config.server.policyBind.mapM bindPolicy with
      | some (.error fault) => pure (initFailed fault)
      | some (.ok listener) => go desk admin (some listener)
      | none => go desk admin none
where
  go (desk : Desk) (admin : Std.Http.Server) (policy : Option PolicySocket) : IO Cli.Outcome := do
    let told (key : String) (address : Std.Net.SocketAddress) : IO Unit :=
      IO.eprintln (Cli.message key [("addr", toString address)])
    match admin.localAddr with
    | some address => told "serve.listening.api" address
    | none => pure ()
    match policy with
    | some listener => told "serve.listening.policy" (← listener.getSockName)
    | none => pure ()
    match ← ((desk.serve policy).block : IO Unit).toBaseIO with
    | .ok () =>
      admin.shutdown.block
      pure (.success "")
    | .error fault => pure (Cli.failed "serve.failed" (faultWords fault))

end RelayRamp.Host
