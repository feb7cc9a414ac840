-- Log filters read from comma-separated directives of targets and levels. A record passes when the
-- directive with the longest matching target lets its level through; a list that cannot be read is
-- refused whole and the fallback filter holds.
import Courier.LogLevel
import Courier.Text.Blank

namespace Courier.Daemon

/-- A directive: the target it is for (every target when none), the most verbose level it lets
through (0 lets none through, 1 errors, up to 5 for everything), and whether it names spans. -/
structure Directive where
  target : Option String
  verbosity : Nat
  inSpans : Bool := false

/-- A filter: its directives, in the order given. -/
structure LogFilter where
  directives : List Directive

namespace LogFilter

/-- How verbose a level is: 1 for error up to 5 for trace. -/
def verbosityOf (l : LogLevel) : Nat := l.rank + 1

/-- The verbosity a level word names, in any case, or as a digit from 0 to 5. -/
def levelWord? (s : String) : Option Nat :=
  match String.ofList (s.toList.map Char.toLower) with
  | "off" | "0" => some 0
  | "error" | "1" => some 1
  | "warn" | "2" => some 2
  | "info" | "3" => some 3
  | "debug" | "4" => some 4
  | "trace" | "5" => some 5
  | _ => none

/-- A character of a target: a letter or digit, an underscore, a colon or a dash. Characters
beyond ASCII count as letters unless they are blank. -/
def isTargetChar (c : Char) : Bool :=
  c.isAlphanum || c == '_' || c == ':' || c == '-' || (c.toNat ≥ 128 && !Text.isBlank c)

/-- The parts before the level: one or two, each a run of target characters or a bracketed
span list; answers the target and whether spans were named. -/
def selector? (cs : List Char) : Option (Option String × Bool) :=
  let piece (cs : List Char) : Option (Option String × Bool × List Char) :=
    match cs with
    | '[' :: rest =>
      match rest.span (· != ']') with
      | (_, ']' :: after) => some (none, true, after)
      | _ => none
    | _ =>
      let (t, after) := cs.span isTargetChar
      if t.isEmpty then none else some (some (String.ofList t), false, after)
  match piece cs with
  | none => none
  | some (t, s, []) => some (t, s)
  | some (t, s, more) =>
    match piece more with
    | some (t', s', []) => some (t'.orElse fun _ => t, s || s')
    | _ => none

/-- Reads one directive. -/
def directive? (text : String) : Option Directive :=
  match levelWord? text with
  | some v => some { target := none, verbosity := v }
  | none =>
    let cs := text.toList
    let (head, tail) := cs.span (· != '=')
    let level? : Option Nat := match tail with
      | [] => some 5
      | _ :: [] => some 5
      | _ :: word => levelWord? (String.ofList word)
    match selector? head, level? with
    | some (target, inSpans), some v => some { target, verbosity := v, inSpans }
    | _, _ => none

/-- Reads a filter; empty directives are skipped, and one that cannot be read refuses all. -/
def read (text : String) : Option LogFilter :=
  ((text.splitOn ",").filter (· != "")).mapM directive? |>.map (⟨·⟩)

/-- The filter that holds when the given one cannot be read: info for everything, debug for the
core library. -/
def fallback : LogFilter :=
  ⟨[{ target := none, verbosity := 3 }, { target := some "friendsend_core", verbosity := 4 }]⟩

/-- The filter a process runs with, from the text it was given, if any. -/
def ofText : Option String → LogFilter
  | some text => (read text).getD fallback
  | none => fallback

/-- Whether a record of a target and level is printed. -/
def allows (f : LogFilter) (target : String) (level : LogLevel) : Bool :=
  let matching := f.directives.filter fun d =>
    !d.inSpans && (d.target.all fun t => target.startsWith t)
  let length (d : Directive) : Nat := (d.target.map String.length).getD 0
  let best := matching.foldl (fun acc d => match acc with
    | some b => if length d ≥ length b then some d else acc
    | none => some d) none
  match best with
  | some d => verbosityOf level ≤ d.verbosity
  | none => false

end LogFilter

end Courier.Daemon
