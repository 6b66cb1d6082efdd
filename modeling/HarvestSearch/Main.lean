/-
The command line program.

All decisions are made by `Program`; this module reads the two files, carries at most one request over
the network, and prints. Which request that is does not depend on its reply, so it is learned from a
first run whose connection fails, and the reply is given to a second one.

`main` is that of `gleaner_query`.
-/
import HarvestSearch.Http.Message
import HarvestSearch.Program
import Std.Async.DNS
import Std.Async.TCP

set_option autoImplicit false

namespace HarvestSearch.CommandLineProgram

open Std.Async

/-- The bytes of a file, or nothing when it cannot be read. -/
def readFile? (path : String) : IO (Option ByteArray) := do
  try
    return some (← IO.FS.readBinFile path)
  catch _ =>
    return none

/-- All bytes up to the end of a connection. -/
partial def receiveAll (socket : TCP.Socket.Client) (before : ByteArray) : Async ByteArray := do
  match ← socket.recv? 65536 with
  | some bytes => receiveAll socket (before ++ bytes)
  | none => return before

/-- Sends the bytes of a request to an address and receives the bytes of its reply. -/
def exchangeBytes (address : Http.Address) (bytes : ByteArray) : Async ByteArray := do
  let found ← DNS.getAddrInfo address.host (Json.intText address.service.toNat)
  let some ip := found[0]? | throw (IO.userError "the host has no address")
  let socket ← TCP.Socket.Client.mk
  match ip with
  | .v4 v4 => socket.connect (.v4 ⟨v4, address.service⟩)
  | .v6 v6 => socket.connect (.v6 ⟨v6, address.service⟩)
  socket.send bytes
  receiveAll socket .empty

/-- Carries a request over the network. -/
def exchange (request : Http.Request) : IO (Except String Http.Reply) := do
  let some address := Http.Address.ofUrl? request.url
    | return .error "the address of the engine is not an http URL"
  try
    let bytes ← (exchangeBytes address (request.toBytes address)).block
    match Http.Reply.ofBytes? bytes with
    | some reply => return .ok reply
    | none => return .error "the reply is not an HTTP reply"
  catch error =>
    return .error (toString error)

/-- The connection before anything was sent over it. -/
def unconnected : Http.Connection := fun _ => .error "not connected"

/-- Reads the files that the arguments name. -/
def readFiles (a : Arguments) : IO Program.Files := do
  return ⟨← readFile? a.config, ← readFile? a.catalog⟩

/-- The request that a run sends, if it sends any. -/
def requestOf (a : Arguments) (files : Program.Files) : Option Http.Request := do
  if a.dryRun then none
  let config ← (Load.config a.config files.config).toOption
  let engine ← (Engine.ofConfig config.engine).toOption
  let p ← (Program.prepare unconnected a files).toOption
  pure (engine.request (p.finder.queryDocument p.service))

/-- The outcome of a run, with its request carried over the network. -/
def outcome (arguments : List String) : IO Program.Outcome := do
  match Arguments.parse arguments with
  | .error error =>
    if let some complaint := error.complaint? then
      IO.eprintln ("error: " ++ complaint)
    return Program.usageOutcome error
  | .ok a =>
    let files ← readFiles a
    match requestOf a files with
    | none => return Program.runArguments unconnected a files
    | some request =>
      let reply ← exchange request
      return Program.runArguments (fun _ => reply) a files

end HarvestSearch.CommandLineProgram

/-- Runs the program and prints what it leaves behind. -/
def main (arguments : List String) : IO UInt32 := do
  let outcome ← HarvestSearch.CommandLineProgram.outcome arguments
  IO.print outcome.stdout
  if let some failure := outcome.failure then
    IO.eprintln ("Error: " ++ failure)
  return UInt32.ofNat outcome.exitCode
