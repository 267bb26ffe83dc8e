import Agenda.Api.Answer
import Agenda.System
import Std.Http

/-!
The API on a port. Each request is answered from what the store holds at that time, under its lock.
Where the API gives no response, the connection is cut.
-/

namespace Agenda.Server

open Std.Async (ContextAsync Selectable Signal)
open Std.Async.TCP (Socket.Client Socket.Server)

/-- What is served: the tasks in a folder, so many in a list. -/
structure Service where
  limit : Nat
  folder : String

/-- Answers a request on a disk. In a folder that is not there any more the lock cannot be opened,
as if another folder lay in its place. -/
def Service.answer (service : Service) (today : Option Date) (r : Api.Request) (disk : Disk) :
    Option Api.Response × Disk :=
  match disk.locateFolder service.folder with
  | .error _ => ((Api.answer ⟨service.limit, today⟩ r { lock := .folder }).1, disk)
  | .ok place =>
      let (response, d) := Api.answer ⟨service.limit, today⟩ r (disk.directory place)
      (response, disk.setDirectory place d)

def Service.carryOut (service : Service) (r : Api.Request) : IO (Option Api.Response) := do
  let today := Clock.today? (← System.clock)
  System.carryOut (do System.exploreStore service.folder (← System.blank))
    (fun _ => some service.folder) (service.answer today r)

/-! Messages. -/

def received (r : Std.Http.Request Std.Http.Body.Stream) : ContextAsync Api.Request := do
  let body : ByteArray ← r.body.readAll
  return {
    method := .ofText (toString r.line.method)
    target := toString r.line.uri
    contentType := (r.line.headers.get? .contentType).map toString
    body := body.toList }

def headers (response : Api.Response) : List (String × String) :=
  (response.contentType.map fun type => ("content-type", type)).toList ++
    (response.allow.map fun methods =>
      ("allow", ",".intercalate (methods.map Api.Method.text))).toList

def sent (response : Api.Response) : ContextAsync (Std.Http.Response Std.Http.Body.Any) := do
  let status := (Std.Http.Status.ofCode none response.status.toUInt16).getD .internalServerError
  let mut builder := Std.Http.Response.withStatus status
  for (name, value) in headers response do
    builder := (builder.header? name value).getD builder
  let body ← Std.Http.Body.Full.ofString response.body
  return builder.body (.ofBody body)

/-! Connections. -/

/-- The connection with a client, and whether nothing is to be sent on it any more. -/
structure Wire where
  client : Socket.Client
  cut : IO.Ref Bool

instance : Std.Http.Transport Wire where
  recv wire size := wire.client.recv? size
  sendAll wire content := do
    if ← wire.cut.get then throw (IO.userError "the connection is cut")
    wire.client.sendAll content
  recvSelector wire size := wire.client.recvSelector size

def respond (service : Service) (wire : Wire) (r : Std.Http.Request Std.Http.Body.Stream) :
    ContextAsync (Std.Http.Response Std.Http.Body.Any) := do
  match ← service.carryOut (← received r) with
  | some response => sent response
  | none =>
      wire.cut.set true
      throw (IO.userError "there is no response")

def connect (service : Service) (client : Socket.Client) : ContextAsync Unit := do
  let wire : Wire := ⟨client, ← IO.mkRef false⟩
  Std.Http.Server.serveConnection wire (Std.Http.Server.Handler.ofFn (respond service wire))
    { serverName := none }

/-- Takes connections until the program is interrupted. -/
def serve (service : Service) (port : Nat) : IO Unit := do
  let server ← Socket.Server.mk
  server.bind (.v4 ⟨.ofParts 0 0 0 0, port.toUInt16⟩)
  server.listen 1024
  let interrupted ← Signal.Waiter.mk .sigint false
  let accept : ContextAsync (Option Socket.Client) := Selectable.one #[
    .case server.acceptSelector fun client => pure (some client),
    .case interrupted.selector fun _ => pure none]
  ContextAsync.run (do
    let mut open? := true
    while open? do
      match ← accept with
      | some client => ContextAsync.background (connect service client)
      | none => open? := false : ContextAsync Unit) |>.block

end Agenda.Server
