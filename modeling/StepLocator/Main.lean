import StepLocator.CommandLine.Command
import StepLocator.Server.Endpoint
import StepLocator.Server.Start

/-!
The program. It takes over from the disk what a command looks at, carries the command out on that,
and says what comes of it. A server reads messages from the standard input until it is told to
leave, and takes over the files anew for each message.
-/
namespace StepLocator
namespace Program

def stamp (time : IO.FS.SystemTime) : Int := time.sec * 1000000000 + time.nsec.toNat

/-- The listing of a directory on disk. Of its files only names and times count; links to
directories are not followed. -/
partial def listing (directory : String) : IO Listing := do
  let mut result := Listing.empty
  for e in ← (← IO.FS.realPath directory).readDir do
    let name := e.fileName.toList
    if (← e.path.symlinkMetadata).type == .dir then
      let inner ← try listing e.path.toString catch _ => pure .empty
      result := .directory name inner result
    else
      let info? ← try pure (some (← e.path.metadata)) catch _ => pure none
      match info? with
      | none => result := .link name name result
      | some info =>
        if info.type == .dir then result := .directory name .empty result
        else result := .file name [] (stamp info.modified) result
  return result

def put (fs : FileSystem) (path : Path) (entry : Entry) : FileSystem :=
  (fs.makeDirectories path.parent).files.putAt path.names entry

def takeWorkspace (fs : FileSystem) (root : Path) : IO FileSystem := do
  let layout := Layout.ofRoot root
  let mut result := (fs.makeDirectories root).files
  for tree in [layout.configRoot, layout.registryRoot] do
    try
      result := put result tree (.directory (← listing (String.ofList tree.toText)))
    catch _ => pure ()
  return result

/-- Take over what is at a path: a file with its content, or a workspace. -/
def take (fs : FileSystem) (path : Path) : IO FileSystem := do
  let shown := fs.absolute path
  try
    let real ← IO.FS.realPath (String.ofList shown.toText)
    let actual := Path.ofText real.toString.toList
    let info ← real.metadata
    let mut result := fs
    if info.type == .dir then
      result ← takeWorkspace fs actual
    else
      let content ← IO.FS.readBinFile real
      result := put fs actual (.file content.toList (stamp info.modified))
    return if actual = shown then result else put result shown (.link actual.toText)
  catch _ => return fs

def filesAt (paths : List Path) : IO FileSystem := do
  let here := Path.ofText (← IO.currentDir).toString.toList
  let bare := { FileSystem.ofListing .empty with here := here.names }
  paths.foldlM take (bare.makeDirectories here).files

structure LogStream where
  level : Int
  stream : IO.FS.Stream

def openLog (settings : Settings) : IO LogStream := do
  let level :=
    match Log.levelOf settings.logLevel with
    | .ok level => level
    | .error _ => Log.info
  match Server.logFile settings with
  | none => return ⟨level, ← IO.getStderr⟩
  | some file =>
    IO.FS.createDirAll (String.ofList file.parent.toText)
    let handle ← IO.FS.Handle.mk (String.ofList file.toText) .append
    return ⟨level, IO.FS.Stream.ofHandle handle⟩

def LogStream.write (log : LogStream) (records : List Log.Record) : IO Unit := do
  for record in records do
    if log.level ≤ record.level then
      log.stream.putStr (String.ofList record.line)
  log.stream.flush

partial def readHeader (input : IO.FS.Stream) (soFar : Bytes) : IO (Option Bytes) := do
  let line ← input.getLine
  if line.isEmpty then return none
  let header := soFar ++ line.toUTF8.toList
  if line == "\r\n" then return some header
  readHeader input header

partial def readBody (input : IO.FS.Stream) (need : Nat) (soFar : ByteArray) : IO Bytes := do
  if need ≤ soFar.size then return soFar.toList
  let piece ← input.read (USize.ofNat (need - soFar.size))
  if piece.isEmpty then return soFar.toList
  readBody input need (soFar ++ piece)

/-- Read a message; nothing if the input ends or holds none. -/
def readMessage (input : IO.FS.Stream) : IO (Option Entries) := do
  match ← readHeader input [] with
  | none => return none
  | some header =>
    match Incoming.lengthOf 0 (Incoming.headerLines header) with
    | .error _ => return none
    | .ok length => return (Incoming.messageOf (← readBody input length.toNat .empty)).toOption

partial def pathsIn : Value → List Path
  | .list items => items.flatMap pathsIn
  | .table entries =>
    entries.flatMap fun (key, value) =>
      match value with
      | .text t => if key = "uri".toList then [Uri.documentPath t] else []
      | other => pathsIn other
  | _ => []

/-- Serve messages until the server is told to leave or the input ends; gives the exit code. -/
partial def serveMessages (input output : IO.FS.Stream) (log : LogStream)
    (endpoint : Server.Endpoint) : IO UInt32 := do
  match ← readMessage input with
  | none => return 0
  | some message =>
    let known := (endpoint.controller.session.map fun s => s.layout.root).toList
    let served := endpoint.receive (← filesAt (known ++ pathsIn (.table message))) message
    for reply in served.sent do
      output.write (Frame.encode reply).toByteArray
    output.flush
    log.write served.records
    match served.endpoint.exitCode with
    | some code => return UInt32.ofNat code.toNat
    | none => serveMessages input output log served.endpoint

def freshMark : IO Text := do
  let octets ← IO.getRandomBytes 16
  return octets.toList.flatMap fun octet => natText octet.toNat ++ "-"

def serve (settings : Settings) : IO UInt32 := do
  let log ← openLog settings
  log.write [Server.startRecord settings]
  match Server.Listening.ofSettings settings with
  | .stdio =>
    let endpoint := Server.Endpoint.fresh (← freshMark)
    serveMessages (← IO.getStdin) (← IO.getStdout) log endpoint
  | .tcp _ _ =>
    IO.eprintln "this build serves over its standard input and output only"
    return 1

end Program
end StepLocator

open StepLocator in
def main (arguments : List String) : IO UInt32 := do
  let texts := arguments.map String.toList
  let paths :=
    match CommandLine.Command.read texts with
    | .ok command => command.paths
    | .error _ => []
  let result := CommandLine.run (← Program.filesAt paths) texts
  IO.eprint (String.ofList result.errors)
  match result with
  | .serve settings => Program.serve settings
  | .answered ending =>
    IO.print (String.ofList ending.output)
    return UInt32.ofNat result.exitCode
  | _ => return UInt32.ofNat result.exitCode
