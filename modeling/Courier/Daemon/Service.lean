-- The daemon as a whole: it reads its command line and settings, starts a node that takes commands
-- from one trusted friend and a console node that sends it each line of input, step by step, the
-- first failing step ending the run with a report.
import Courier.Daemon.Station
import Courier.Daemon.Options
import Courier.Daemon.LogFilter
import Courier.Settings.File

namespace Courier.Daemon

open Transfer Files

/-- What the daemon starts with besides its command line: the working directory, the user's
configuration directory, the host's name, the log filter's text if one is set, the files, and the
lines of its input. -/
structure Launch where
  workDir : String
  configHome : String
  host : String
  logFilter : Option String := none
  volume : Volume
  input : List String := []

/-- Why start-up failed: the chain of sentences, what was being done first and then each cause. -/
structure Failure where
  chain : List String

/-- The report of a failure: the first sentence, then the causes under a heading, numbered from
zero when there are several. -/
def Failure.text (f : Failure) : String :=
  match f.chain with
  | [] => "Error: \n"
  | [top] => "Error: " ++ top ++ "\n"
  | top :: causes =>
    let pad (s : String) : String := String.ofList (List.replicate (5 - s.length) ' ') ++ s
    let lines := match causes with
      | [c] => "    " ++ c ++ "\n"
      | _ => String.join (causes.zipIdx.map fun (c, i) => pad (toString i) ++ ": " ++ c ++ "\n")
    "Error: " ++ top ++ "\n\nCaused by:\n" ++ lines

/-- How a run ends: its exit status, the lines on standard output that are not log records, the
text on standard error, whether the console logged that it reached the daemon, and the files. -/
structure Outcome where
  exit : Nat
  lines : List String := []
  errors : String := ""
  connected : Bool := false
  volume : Volume

/-- The lines of a text; a last line ends with or without a line feed. -/
def textLines (s : String) : List String :=
  let parts := s.splitOn "\n"
  if parts.getLast? == some "" then parts.dropLast else parts

/-- A line of input as the console reads it: without its carriage return at the end, and trimmed
of blanks. -/
def commandLine (raw : String) : String :=
  Text.trimBlank (if raw.endsWith "\r" then (raw.dropEnd 1).toString else raw)

/-- The name the console node gets. -/
def consoleName : String := "console"

/-- The text of the console's friend request. -/
def greeting : String := "friendsend console"

/-- How many commands the daemon queues. -/
def commandQueue : Nat := 32

/-- The target of the records of the settings loader. -/
def settingsTarget : String := "friendsend_core::config"

/-- The target of the console's records. -/
def consoleTarget : String := "friendsend_daemon::console"

/-- Starts a bridge over the network for a node made, or failed to be made. -/
def openStation (made : Except NativeError (Network × PublicKey)) (cfg : BridgeConfig) :
    Except TransportError (Network × Station) :=
  let key := match made with
    | .ok (_, k) => k
    | .error _ => PublicKey.replicate 0
  let m : Made Network := match made with
    | .ok (net, _) => .made net
    | .error e => .failed e.display
  (Bridge.spawn (Network.wire key) m cfg).map fun (bridge, net) => (net, { key, bridge })

/-- A step of start-up: its error, under what was being done. -/
def within (context : String) (chain : ε → List String) : Except ε α → Except Failure α
  | .ok a => .ok a
  | .error e => .error ⟨context :: chain e⟩

/-- The daemon and console started and introduced, or why start-up failed. -/
def start (s : Settings) (downloadDir : String) (l : Launch) : Except Failure World := do
  let path (p : String) := join l.workDir p
  let saved ← match s.saveFile with
    | some p =>
      if (l.volume.stat true (path p)).toOption.isSome then
        within ("无法读取保存文件 " ++ Text.quotePath p) (fun (e : Errno) => [e.message])
          ((l.volume.fileBytes (path p)).map some)
      else pure none
    | none => pure none
  let made : Except NativeError (Network × PublicKey) := match saved with
    | some bytes => ({} : Network).restore s.nodeName ((String.fromUTF8? bytes).getD "")
    | none => .ok (({} : Network).fresh s.nodeName)
  let cfg := s.bridgeConfig
  let (net, daemon) ← within "无法启动守护节点" TransportError.chain
    (openStation made { cfg with saveFile := s.saveFile.map path })
  let (net, consoleKey) := net.fresh consoleName
  let (net, console) ← within "无法启动控制台节点" TransportError.chain
    (openStation (.ok (net, consoleKey)) { cfg with saveFile := none })
  let trusted ← match s.friendAddress with
    | some text => within ("好友地址无效: " ++ text) AddressError.chain ((Address.parse text).map (·.key))
    | none => pure consoleKey
  let w : World := { net, volume := l.volume, stations := #[daemon, console] }
  let (w, r) := w.attach 0 (path s.rootDir) (s.receiveDir.map path)
  within "无法启动传输引擎" TransferError.chain r
  let volume ← within ("无法创建下载目录 " ++ Text.quotePath downloadDir) (fun (e : Errno) => [e.message])
    (w.volume.makeDirs (path downloadDir))
  let (w, r) := ({ w with volume } : World).attach 1 (path downloadDir) none
  within "无法启动控制台的传输引擎" TransferError.chain r
  let (w, r) := w.assume 0 (.commands ⟨trusted⟩ ⟨commandQueue, []⟩)
  (r.mapError fun e => (⟨e.chain⟩ : Failure))
  let (w, r) := w.assume 1 (.console none)
  (r.mapError fun e => (⟨e.chain⟩ : Failure))
  let net ← within "控制台无法发送好友请求" (fun (e : NativeError) => [e.display])
    (w.net.requestFriend consoleKey daemon.bridge.address greeting)
  pure ({ w with net }.settle budget)

/-- The daemon's peer as the console knows it, once it does. -/
def World.daemonPeer (w : World) : Option UInt32 :=
  match (w.stations[1]?).map Station.role with
  | some (.console p) => p
  | _ => none

/-- Hands a line of input to the console: sent to the daemon when the console knows it. -/
def World.typed (w : World) (raw : String) : World :=
  let line := commandLine raw
  if line.isEmpty then w
  else
    match w.daemonPeer with
    | some peer =>
      (w.onBridge 1 (fun b wire net => b.sendMessage wire net peer line) (.error .shutdown)).1.settle budget
    | none => w

/-- Runs the daemon with a command line: help and version are printed, a command line refused is
reported with status 2; otherwise the daemon starts and reads its input to the end. -/
def run (args : List String) (l : Launch) : Outcome :=
  match Options.read args with
  | .help => { exit := 0, lines := textLines Options.helpText, volume := l.volume }
  | .version => { exit := 0, lines := [Options.versionText], volume := l.volume }
  | .refused r => { exit := 2, errors := r.text, volume := l.volume }
  | .run o =>
    let filter := LogFilter.ofText l.logFilter
    let configPath := match o.config with
      | some p => join l.workDir p
      | none => Settings.configPath l.configHome
    let (s, warning) := Settings.load l.volume l.host configPath
    -- a record's first line carries its time and level; the lines after it print as they are
    let warned := match warning with
      | some w => if filter.allows settingsTarget .warn then (textLines w).drop 1 else []
      | none => []
    match start (o.apply s) o.downloadDir l with
    | .error f => { exit := 1, lines := warned, errors := f.text, volume := l.volume }
    | .ok w =>
      let w := (l.input.flatMap textLines).foldl World.typed w
      { exit := 0, lines := warned ++ w.printed.toList,
        connected := w.daemonPeer.isSome && filter.allows consoleTarget .info, volume := w.volume }

end Courier.Daemon
