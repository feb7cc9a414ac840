-- Commands a trusted friend sends as text, one a line: `send <path>`, `save`, `status` and `help`,
-- the verb in any case. A line of blanks is no command, and any other line is an unknown command.
import Courier.Text.Blank

namespace Courier

/-- A command of the daemon. -/
inductive Command where
  | send (path : String)
  | save
  | status
  | help
  | unknown (text : String)
deriving DecidableEq, Repr, Inhabited

/-- The reply to `help`. -/
def helpText : String :=
  "commands:\n" ++
  "  send <path>  send a file or directory under the shared root\n" ++
  "  save         persist the node state\n" ++
  "  status       list active transfers\n" ++
  "  help         show this message"

/-- Lower case of the ASCII letters; the verbs are ASCII words, so no other letter can make a
line name one of them. -/
def lowerAscii (s : String) : String :=
  String.ofList (s.toList.map fun c => if 'A' ≤ c && c ≤ 'Z' then Char.ofNat (c.toNat + 32) else c)

/-- A line split into its verb and its argument. The verb is the first run of non-blanks; the
argument is the rest without its outer blanks, `none` when that is empty. A line of blanks has
no verb, and a line whose argument holds a line feed has no split at all. -/
def splitCommand (line : String) : Option (String × Option String) :=
  let t := Text.dropBlank line.toList
  let verb := t.takeWhile (fun c => !Text.isBlank c)
  let rest := t.dropWhile (fun c => !Text.isBlank c)
  let arg := (Text.dropBlank (Text.dropBlank rest).reverse).reverse
  if verb.isEmpty then none
  else if arg.isEmpty then some (String.ofList verb, none)
  else if arg.contains '\n' then none
  else some (String.ofList verb, some (String.ofList arg))

namespace Command

/-- Reads one line as a command; a line of blanks is none. -/
def parse (line : String) : Option Command :=
  (splitCommand line).map fun (verb, arg) =>
    match lowerAscii verb, arg with
    | "send", some path => .send path
    | "save", none => .save
    | "status", none => .status
    | "help", none => .help
    | _, _ => .unknown (Text.trimBlank line)

/-- A line that ended in a line feed, without a carriage return just before it. -/
def dropReturn (p : String) : String :=
  if p.endsWith "\r" then String.ofList p.toList.dropLast else p

/-- The lines of a text: split at line feeds, a carriage return just before a line feed dropped,
and no empty last line after a final line feed. -/
def lines (text : String) : List String :=
  match (text.splitOn "\n").reverse with
  | [] => []
  | last :: ended =>
    let ended := (ended.map dropReturn).reverse
    if last.isEmpty then ended else ended ++ [last]

/-- The commands of a text, one a line, blank lines skipped. -/
def ofText (text : String) : List Command := (lines text).filterMap parse

end Command

end Courier
