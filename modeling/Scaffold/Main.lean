import Std.Http
import Scaffold.Command.Run
import Scaffold.Form.Server

/-!
# The program

The command line on a real file system. What a run may read is taken into a tree, the run works on
the tree, and what has changed is written back. Everything that is decided is decided in
`runCommand` and `answerRequest`.
-/

namespace Scaffold.Program

/-! ## The file system -/

/-- A path of the file system as the entry of its folder. -/
def onDisk (path : Path) : IO.FS.DirEntry where
  root := String.ofList path.parent.text
  fileName := String.ofList path.name

/-- What stands at a path of the file system. -/
def readEntry (path : Path) : IO (Option Entry) := do
  let place := (onDisk path).path
  if ← place.isDir then return some .folder
  if ← place.pathExists then return some (.file (.ofBytes (← IO.FS.readBinFile place)))
  return none

/-- Takes what stands at a path into the tree. -/
def take (tree : Tree) (path : Path) : IO Tree := do
  if path.isEmpty then return tree
  match ← readEntry path with
  | some entry => return tree.put path entry
  | none => return tree

/-- Takes a path and all folders on the way to it. -/
def takeAlong (tree : Tree) (path : Path) : IO Tree :=
  ((List.range (path.length + 1)).map fun n => Path.resolve (path.take n)).foldlM take tree

/-- Takes all that lies below a folder. -/
partial def takeBelow (tree : Tree) (folder : Path) : IO Tree := do
  if !tree.isFolder folder then return tree
  (← (onDisk folder).path.readDir).foldlM (fun tree entry => do
    let path := folder ++ [entry.fileName.toList]
    takeBelow (← take tree path) path) tree

/-- Takes what a run with a configuration may read. -/
def survey (config : Config) (tree : Tree) : IO Tree := do
  let features := config.root.join config.featuresPath
  let places := [config.root, config.manifestPath, config.specPath, config.errorUnionPath, features]
  takeBelow (← places.foldlM takeAlong tree) features.resolve

/-- Writes one entry. -/
def writeEntry (path : Path) : Entry → IO Unit
  | .folder => IO.FS.createDirAll (onDisk path).path
  | .file (.text text) => IO.FS.writeFile (onDisk path).path (String.ofList text)
  | .file (.bytes bytes) => IO.FS.writeBinFile (onDisk path).path (ByteArray.mk bytes.toArray)

/-- Writes what has changed. -/
def writeBack (before after : Tree) : IO Unit :=
  (before.changesTo after).forM fun change => writeEntry change.1 change.2

/-- Shows texts. -/
def present (shown : List Shown) : IO Unit :=
  shown.forM fun shown => do
    let stream ← if shown.isWarning then IO.getStderr else IO.getStdout
    stream.putStr (String.ofList shown.text)
    stream.flush

/-! ## Serving the form -/

/-- What is served. -/
structure Site where
  config : Config
  project : Project

/-- Answers a request on the file system as it is now. -/
def Site.answer (site : Site) (request : Request) : IO Reply := do
  let before ← survey site.config {}
  let (reply, desk) := (answerRequest site.config site.project request).run ⟨before, []⟩
  writeBack before desk.tree
  present desk.shown
  return reply

/-- An answer as it is sent. -/
def respond (reply : Reply) : Std.Async.Async (Std.Http.Response Std.Http.Body.Full) := do
  let status := (Std.Http.Status.ofCode none reply.status.toUInt16).getD .ok
  let response := Std.Http.Response.new.status status
  match reply.payload with
  | .value value => response.json (String.ofList (Json.write value))
  | .page text => response.html (String.ofList text)

instance : Std.Http.Server.Handler Site where
  ResponseBody := Std.Http.Body.Full
  onRequest site request := do
    let body : ByteArray ← request.body.readAll
    let method := toString request.line.method
    let target := toString request.line.uri
    let reply ← site.answer ⟨method.toList, target.toList, body.toList⟩
    respond reply

/-- The address for a host and a port. -/
def socket (host : Text) (port : Int) : Std.Async.Async Std.Net.SocketAddress := do
  let port := port.toNat.toUInt16
  let addresses : Array Std.Net.IPAddr ← Std.Async.DNS.getAddrInfo (String.ofList host) ""
  match addresses.toList with
  | .v4 address :: _ => return .v4 ⟨address, port⟩
  | .v6 address :: _ => return .v6 ⟨address, port⟩
  | [] => throw (IO.userError "The host has no address")

/-- Serves a site until it is shut down. -/
def serve (site : Site) (host : Text) (port : Int) : IO Unit :=
  Std.Async.Async.block do
    let server ← Std.Http.Server.serve (← socket host port) site
    server.waitShutdown

/-! ## The command line -/

/-- The names of the settings that a run looks at. -/
def settingNames : List String :=
  ["FEATURE_GEN_PROJECT_ROOT", "FEATURE_GEN_SPEC", "FEATURE_GEN_FEATURES_PATH"]

/-- The settings of the environment. -/
def readEnvironment : IO Environment :=
  settingNames.filterMapM fun name => do
    return (← IO.getEnv name).map fun value => (name.toList, value.toList)

/-- The next line of the input, nothing at its end. -/
def readLine : IO (Option Text) := do
  return firstLine? (← (← IO.getStdin).getLine).toList

/-- Ends a run: writes back, shows what has not been shown, and serves the form if asked to. -/
def finish (before : Tree) (config : Option Config) (alreadyShown : Nat) (desk : Desk)
    (status : Status) : IO UInt32 := do
  writeBack before desk.tree
  present (desk.shown.drop alreadyShown)
  match status.address, config.map fun config => (config, loadProject config before) with
  | some (host, port), some (config, .ok project) => serve ⟨config, project⟩ host port
  | _, _ => pure ()
  return status.code.toUInt32

/-- Runs the command line. The line that answers a question is not shown again. -/
def run (arguments : List Text) : IO UInt32 := do
  let here := Path.names (← IO.currentDir).toString.toList
  let environment ← readEnvironment
  let invocation := Invocation.ofArguments? environment arguments
  let config := invocation.map (·.place.config here)
  let root ← takeAlong {} (here.join ((invocation.map (·.place.root)).getD []))
  let before ← match config with
    | some config => survey config root
    | none => pure root
  match runCommand here environment arguments before with
  | .finished desk status => finish before config 0 desk status
  | .asks desk resume =>
    present desk.shown
    let line ← readLine
    let (after, status) := resume line
    finish before config (desk.shown.length + if line.isSome then 1 else 0) after status

end Scaffold.Program

def main (arguments : List String) : IO UInt32 :=
  Scaffold.Program.run (arguments.map String.toList)
