import PgGateway.Connection
import PgGateway.Options
import PgGateway.Server

/-!
# The program

Serves one client on standard input and standard output, as a program that is started for every
client does. No engine is part of the program, so it runs on the empty script: the handshake and the
framing are complete, and every statement is answered as if the engine were gone.
-/

namespace PgGateway

/-- What the next read from a stream delivers. -/
def nextDelivery (input : IO.FS.Stream) : IO Delivery := do
  try
    return .data (← input.read 8192).toList
  catch e =>
    return .failure (toString e).toList

/-- Serves a connection until it ends. -/
partial def converse {σ : Type} (engine : Engine σ) (input output : IO.FS.Stream)
    (c : Connection σ) : IO Ending := do
  let (written, status) := c.feed engine none (← nextDelivery input)
  unless written.isEmpty do
    output.write ⟨written.toArray⟩
    output.flush
  match status with
  | .waiting next => converse engine input output next
  | .ended ending _ => return ending

/-- Reports why the program cannot go on. -/
def reportFailure (message : Text) : IO UInt32 := do
  IO.eprintln ("error: " ++ String.ofList message)
  return 1

/-- Serves one client of a server with the given options. -/
def serveClient (arguments : List Text) : IO UInt32 := do
  match Config.readOptions arguments {} with
  | .error e => discard (reportFailure e.message); return 2
  | .ok config =>
    match Server.start Script.engine config [] with
    | .error e => reportFailure e.message
    | .ok (server, shared) =>
      let secretKey := Int32.ofNat (← IO.rand 0 0xFFFFFFFF)
      let (session, _) := server.newSession secretKey
      let ending ← converse Script.engine (← IO.getStdin) (← IO.getStdout)
        { session, buffer := [], shared }
      match ending with
      | .ok () => return 0
      | .error e => reportFailure e.message

end PgGateway

def main (arguments : List String) : IO UInt32 := do
  PgGateway.serveClient (arguments.map String.toList)
