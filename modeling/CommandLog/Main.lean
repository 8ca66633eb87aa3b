import CommandLog.Control
import CommandLog.Serve

/-!
# The executable

The thin layer between the programs and the machine. With `serve` in front the arguments are those
of the server program, otherwise those of the control program.

Files are copied to a disk before a program runs, and a journal is copied back after it. There is
no network here: the server program serves one connection, which is its standard input and output,
and no time goes by while it does; the control program finds every server unreachable.
-/

namespace CommandLog

/-- The directories that a path goes through. -/
def enclosing (path : Path) : List Path :=
  (List.range path.parts.length).drop 1 |>.map fun n => { parts := path.parts.take n }

/-- A disk with a copy of the file or directory at a path, if there is one. -/
def copyIn (disk : Disk) (path : Path) : IO Disk := do
  try
    if ← (← IO.FS.realPath path.text).isDir then
      return (disk.makeDirectory path).toOption.getD disk
    let content ← IO.FS.readBinFile path.text
    return (disk.put path content.toList).toOption.getD disk
  catch _ => return disk

/-- A disk with copies of the file or directory of a name and of the directories around it. -/
def fetch (disk : Disk) (name : String) : IO Disk :=
  let path := Path.ofString name
  (enclosing path ++ [path]).foldlM copyIn disk

/-- The file of a name as it is on a disk, or no such file. -/
def store (disk : Disk) (name : String) : IO Unit := do
  match disk.read (Path.ofString name) with
  | .ok content => IO.FS.writeBinFile name (ByteArray.mk content.toArray)
  | .error _ => try IO.FS.removeFile name catch _ => return

/-- When the file of a name was changed, as text. -/
def modifiedText (name : String) : IO String := do
  try
    let data ← (← IO.FS.realPath name).metadata
    let time : Instant := { seconds := data.modified.sec, nanos := data.modified.nsec.toNat }
    return Timestamp.renderPlain time
  catch _ => return ""

/-- Prints what a program has printed, and gives its exit code. -/
def finish (o : Outcome) : IO UInt32 := do
  let output ← IO.getStdout
  output.write (ByteArray.mk o.output.toArray)
  output.flush
  (← IO.getStderr).putStr o.problems
  return UInt32.ofNat o.code

/-- All pieces of the input, as they come. -/
partial def pieces (input : IO.FS.Stream) (before : List Bytes) : IO (List Bytes) := do
  let piece ← input.read (USize.ofNat Transport.receiveLimit)
  if piece.isEmpty then return before.reverse else pieces input (piece.toList :: before)

/-- What a server answers to a single connection, and the server after it was shut down. -/
def serveOnce (server : Server) (input : List Bytes) : Bytes × Server :=
  match server.settle.accept? with
  | none => ([], server.shutDown)
  | some (id, server) =>
    let service := input.foldl (fun s piece => s.handle (.deliver id piece)) server.service
    let server := { server with service := service.handle (.endInput id .closed) }.settle
    let answer := (server.service.sessions[id]?).map (·.transport.delivered.reverse.flatten)
    (answer.getD [], server.shutDown)

/-- The server program. -/
def serve (args : List String) : IO UInt32 := do
  match Serve.scan args with
  | .error r => finish (.refused r)
  | .ok given =>
    let disk ← (given.value? "config").toList.foldlM fetch Disk.empty
    match Serve.settings disk given with
    | .error chain => finish (.failed chain [])
    | .ok settings =>
      let disk ← settings.journalPath.toList.foldlM fetch disk
      match Serve.start settings (.ok ()) { disk } 0 with
      | .error chain => finish (.failed chain [])
      | .ok server =>
        let (answer, server) := serveOnce server (← pieces (← IO.getStdin) [])
        settings.journalPath.forM (store server.service.host.disk)
        match server.result? with
        | some (.error e) => finish (.failed e.chain answer)
        | _ => finish { output := answer }

/-- The control program. -/
def control (args : List String) : IO UInt32 := do
  match Control.parse args with
  | .ok { command := .inspect journal, .. } =>
    let disk ← fetch Disk.empty journal
    finish (Control.run disk (← modifiedText journal) Client.unreachable args)
  | _ => finish (Control.run Disk.empty "" Client.unreachable args)

end CommandLog

/-- Runs the program that the arguments ask for. -/
def main (args : List String) : IO UInt32 :=
  match args with
  | "serve" :: rest => CommandLog.serve rest
  | _ => CommandLog.control args
