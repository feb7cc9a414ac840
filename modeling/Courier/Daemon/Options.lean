-- The daemon's command line: long and short options with attached or following values, help and
-- version, no operands. Which of two mistakes is reported is fixed by the order options are read in.
import Courier.Settings.Basic

namespace Courier.Daemon

/-- What the command line sets. -/
structure Options where
  config : Option String := none
  root : Option String := none
  receiveDir : Option String := none
  friend : Option String := none
  saveFile : Option String := none
  name : Option String := none
  downloadDir : String := "downloads"
  logLevel : Option LogLevel := none

/-- The options of the command line. -/
inductive Flag where
  | config
  | root
  | receiveDir
  | friend
  | saveFile
  | name
  | downloadDir
  | logLevel
  | help
  | version
deriving DecidableEq, Repr

namespace Flag

/-- Every option, in the order the help lists them. -/
def all : List Flag :=
  [.config, .root, .receiveDir, .friend, .saveFile, .name, .downloadDir, .logLevel, .help, .version]

/-- The long name. -/
def long : Flag → String
  | .config => "config"
  | .root => "root"
  | .receiveDir => "receive-dir"
  | .friend => "friend"
  | .saveFile => "save-file"
  | .name => "name"
  | .downloadDir => "download-dir"
  | .logLevel => "log-level"
  | .help => "help"
  | .version => "version"

/-- The short name, if any. -/
def short? : Flag → Option Char
  | .config => some 'c'
  | .root => some 'r'
  | .friend => some 'f'
  | .name => some 'n'
  | .logLevel => some 'l'
  | .help => some 'h'
  | .version => some 'V'
  | _ => none

/-- Whether the option takes a value. -/
def takesValue : Flag → Bool
  | .help | .version => false
  | _ => true

/-- The option as messages name it: the long name, and the value's name in capitals. -/
def display (f : Flag) : String :=
  if f.takesValue then
    "--" ++ f.long ++ " <" ++ String.ofList (f.long.toList.map fun c => if c == '-' then '_' else c.toUpper) ++ ">"
  else "--" ++ f.long

/-- What the help says of the option. -/
def about : Flag → String
  | .config => "设置文件路径（默认在用户配置目录下）"
  | .root => "发送路径的根目录"
  | .receiveDir => "接收目录"
  | .friend => "信任的好友地址（76 位十六进制）"
  | .saveFile => "节点状态保存文件"
  | .name => "节点名称"
  | .downloadDir => "控制台节点的下载目录 [default: downloads]"
  | .logLevel => "核心库日志级别 (error/warn/info/debug/trace)"
  | .help => "Print help"
  | .version => "Print version"

/-- Whether a value given to the option is a path, which must not be empty. -/
def isPath : Flag → Bool
  | .config | .root | .receiveDir | .saveFile | .downloadDir => true
  | _ => false

end Flag

/-- The program's name on the command line. -/
def Options.programName : String := "friendsend-daemon"

/-- The version line. -/
def Options.versionText : String := Options.programName ++ " 0.1.0"

/-- The usage line. -/
def Options.usageLine : String := "Usage: " ++ Options.programName ++ " [OPTIONS]"

/-- The help: what the program does, its usage, and a line per option with the descriptions in
one column two places after the widest option. -/
def Options.helpText : String :=
  let left (f : Flag) : String :=
    "  " ++ (match f.short? with | some c => "-" ++ String.singleton c ++ ", " | none => "    ") ++ f.display
  let width := (Flag.all.map fun f => (left f).length).foldl max 0
  let line (f : Flag) : String :=
    left f ++ String.ofList (List.replicate (width + 2 - (left f).length) ' ') ++ f.about
  "\n".intercalate (["通过好友网络共享目录的守护进程", "", Options.usageLine, "", "Options:"] ++ Flag.all.map line) ++ "\n"

/-- The Jaro similarity of two texts: matches are equal characters at most half the longer length
(less one) apart, and each pair of matches out of order counts half. -/
def jaro (a b : List Char) : Float :=
  let la := a.length
  let lb := b.length
  if la == 0 && lb == 0 then 1
  else if la == 0 || lb == 0 then 0
  else
    let range := max la lb / 2 - 1
    let (aHits, bFlags, count) := (a.zipIdx).foldl (fun (aHits, bFlags, m) (c, i) =>
      let lo := i - range
      let hi := min lb (i + range + 1)
      match (List.range hi).find? fun j => lo ≤ j && b[j]? == some c && bFlags[j]? == some false with
      | some j => (aHits ++ [c], bFlags.set! j true, m + 1)
      | none => (aHits, bFlags, m)) (([] : List Char), Array.replicate lb false, 0)
    let bHits := (b.zipIdx).filterMap fun (c, j) => if bFlags[j]? == some true then some c else none
    let swaps := ((aHits.zip bHits).filter fun (x, y) => x != y).length / 2
    if count == 0 then 0
    else
      let m := count.toFloat
      (m / la.toFloat + m / lb.toFloat + (count - swaps).toFloat / m) / 3

/-- The long name most similar to a mistyped one, if any is similar enough; of equally similar
names the later wins. -/
def suggestion (typed : String) : Option String :=
  let scored := Flag.all.filterMap fun f =>
    let s := jaro typed.toList f.long.toList
    if s > 0.7 then some (s, f.long) else none
  let best := scored.foldl (fun acc (s, n) => match acc with
    | some (t, _) => if s ≥ t then some (s, n) else acc
    | none => some (s, n)) none
  best.map (·.2)

/-- Why a command line is refused, in the words printed. -/
inductive Refusal where
  | unknown (arg : String) (tip : Option String)
  | twice (f : Flag)
  | noValue (f : Flag)
  | badValue (f : Flag) (value reason : String)
  | extraValue (f : Flag) (value : String)

/-- The full text printed for a refusal. -/
def Refusal.text : Refusal → String
  | .unknown arg tip =>
    "error: unexpected argument '" ++ arg ++ "' found\n" ++
      (match tip with
        | some t => "\n  tip: a similar argument exists: '--" ++ t ++ "'\n"
        | none => "") ++ "\n" ++ Options.usageLine ++ "\n\nFor more information, try '--help'.\n"
  | .twice f =>
    "error: the argument '" ++ f.display ++ "' cannot be used multiple times\n\n" ++ Options.usageLine ++
      "\n\nFor more information, try '--help'.\n"
  | .noValue f =>
    "error: a value is required for '" ++ f.display ++ "' but none was supplied\n\n" ++
      "For more information, try '--help'.\n"
  | .badValue f v r =>
    "error: invalid value '" ++ v ++ "' for '" ++ f.display ++ "': " ++ r ++ "\n\n" ++
      "For more information, try '--help'.\n"
  | .extraValue f v =>
    "error: unexpected value '" ++ v ++ "' for '" ++ f.display ++ "' found; no more were expected\n\n" ++
      Options.usageLine ++ "\n\nFor more information, try '--help'.\n"

/-- What reading a command line comes to. -/
inductive Reading where
  | run (o : Options)
  | help
  | version
  | refused (r : Refusal)

/-- Where reading stands: the options taken up so far with their values, the option waiting for a
value and what it has got, whether it still expects one, and whether `--` has been read. -/
structure Progress where
  taken : List (Flag × String) := []
  waiting : Option (Flag × Option String) := none
  expecting : Bool := false
  operandsOnly : Bool := false

/-- How reading an argument ends: with more to read, or with an answer. -/
abbrev Step := Except Reading Progress

namespace Progress

/-- Takes up an option with what it got. It is refused without a value, when it was given
before, or when the value is not one the option takes, in that order. -/
def take (p : Progress) (f : Flag) (v : Option String) : Step := do
  let some s := v | throw (.refused (.noValue f))
  if p.taken.any (·.1 == f) then throw (.refused (.twice f))
  if f.isPath && s.isEmpty then throw (.refused (.noValue f))
  if f == .logLevel then
    match LogLevel.parse s with
    | .ok _ => pure ()
    | .error m => throw (.refused (.badValue f s m))
  pure { p with taken := p.taken ++ [(f, s)] }

/-- Takes up the option waiting for a value, if any. -/
def settle (p : Progress) : Step :=
  match p.waiting with
  | some (f, v) => { p with waiting := none, expecting := false }.take f v
  | none => .ok p

/-- Reads an option found by name, with a value attached to it or not. The option waiting is
taken up first. -/
def option (p : Progress) (f : Flag) (attached : Option String) : Step := do
  let p ← p.settle
  if !f.takesValue then
    throw (if f == .help then .help else .version)
  match attached with
  | some v => p.take f (some v)
  | none => pure { p with waiting := some (f, none), expecting := true }

/-- Reads a cluster of short options after its dash. -/
def shorts (p : Progress) : List Char → Step
  | [] => .ok p
  | c :: rest =>
    match Flag.all.find? (·.short? == some c) with
    | none => .error (.refused (.unknown ("-" ++ String.singleton c) none))
    | some f =>
      if !f.takesValue then do
        let p ← p.option f none
        p.shorts rest
      else
        let attached := match rest with
          | [] => none
          | '=' :: v => some (String.ofList v)
          | v => some (String.ofList v)
        p.option f attached

/-- Reads one argument. -/
def arg (p : Progress) (a : String) : Step :=
  let operand : Step := .error (.refused (.unknown a none))
  if p.operandsOnly then operand
  else if a == "--" then .ok { p with operandsOnly := true }
  else if a.startsWith "--" then
    let body := (a.drop 2).toString
    let name := (body.takeWhile (· != '=')).toString
    let attached := if body.contains '=' then some (body.dropWhile (· != '=') |>.drop 1).toString else none
    match Flag.all.find? (·.long == name) with
    | none => .error (.refused (.unknown ("--" ++ name) (suggestion name)))
    | some f =>
      match attached with
      | some v => if f.takesValue then p.option f (some v) else .error (.refused (.extraValue f v))
      | none => p.option f none
  else if a.startsWith "-" && a != "-" then p.shorts (a.toList.drop 1)
  else if p.expecting then
    match p.waiting with
    | some (f, _) => .ok { p with waiting := some (f, some a), expecting := false }
    | none => operand
  else operand

/-- Ends reading: the option waiting is taken up, and the options read become the answer. -/
def finish (p : Progress) : Reading :=
  match p.settle with
  | .error r => r
  | .ok p =>
    let get (f : Flag) : Option String := (p.taken.find? (·.1 == f)).map (·.2)
    .run { config := get .config, root := get .root, receiveDir := get .receiveDir,
           friend := get .friend, saveFile := get .saveFile, name := get .name,
           downloadDir := (get .downloadDir).getD "downloads",
           logLevel := (get .logLevel).bind fun s => (LogLevel.parse s).toOption }

end Progress

/-- Reads a command line, the program's name left out. -/
def Options.read (args : List String) : Reading :=
  match args.foldlM Progress.arg {} with
  | .ok p => p.finish
  | .error r => r

/-- The settings with what the command line sets put over them. -/
def Options.apply (o : Options) (s : Settings) : Settings :=
  { s with
    rootDir := o.root.getD s.rootDir
    receiveDir := o.receiveDir.orElse fun _ => s.receiveDir
    friendAddress := o.friend.orElse fun _ => s.friendAddress
    saveFile := o.saveFile.orElse fun _ => s.saveFile
    nodeName := o.name.getD s.nodeName
    logLevel := o.logLevel.getD s.logLevel }

end Courier.Daemon
