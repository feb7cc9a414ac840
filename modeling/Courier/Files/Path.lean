-- Paths as texts with `/` between their parts; empty parts and `.` after the first are dropped, and
-- a path that starts with `/` is absolute.

namespace Courier.Files

/-- One part of a path. -/
inductive PathPart where
  | root
  | current
  | parent
  | name (s : String)
deriving DecidableEq, Repr

/-- The texts of a path between its `/`s, empty ones included. -/
def pieces (p : String) : List String := (p.split '/').toList.map (·.copy)

/-- The parts of a path. -/
def parts (p : String) : List PathPart :=
  let pieces := pieces p
  let absolute := p.startsWith "/"
  let leadDot := !absolute && pieces.head? == some "."
  let named := (pieces.filter fun s => s != "" && s != ".").map fun s =>
    if s == ".." then PathPart.parent else PathPart.name s
  (if absolute then [PathPart.root] else if leadDot then [PathPart.current] else []) ++ named

/-- A path that starts at the root. -/
def isAbsolute (p : String) : Bool := p.startsWith "/"

/-- A path joined to a base. -/
def join (base p : String) : String :=
  if isAbsolute p then p
  else if base.isEmpty then p
  else if base.endsWith "/" then base ++ p
  else base ++ "/" ++ p

/-- The last part of a path, when it is a name. -/
def fileName? (p : String) : Option String :=
  match (parts p).getLast? with
  | some (.name s) => some s
  | _ => none

/-- The name a file is offered under: its last part, or nothing. -/
def offerName (p : String) : String := (fileName? p).getD ""

/-- The part of an offered name after its last `/` or `\`; an empty part, `.`, `..` and a part
holding NUL are refused. -/
def sanitizeName (name : String) : Option String :=
  let last := (name.split (fun c => c == '/' || c == '\\')).toList.getLast?.map (·.toString)
  match last with
  | some s => if s == "" || s == "." || s == ".." || s.contains '\x00' then none else some s
  | none => none

/-- Whether the parts of `root` begin the parts of `p`. -/
def isUnder (p root : String) : Bool := (parts root).isPrefixOf (parts p)

end Courier.Files
