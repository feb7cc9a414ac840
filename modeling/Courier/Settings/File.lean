-- The settings file in the user's configuration directory. Loading never fails: a file that cannot
-- be used gives the defaults, with a warning unless it is missing.
import Courier.Settings.Basic
import Courier.Files.Volume

namespace Courier

open Files

namespace Settings

/-- The settings file under a configuration directory. -/
def configPath (configDir : String) : String := join (join configDir "friendsend") "settings.toml"

/-- The settings in a file, with the warning given when the file is there but cannot be read as
settings; a missing file gives the defaults without a word. -/
def load (v : Volume) (host path : String) : Settings × Option String :=
  let fallback (why : String) := (defaults host, some (why ++ ", using defaults"))
  match v.stat true path with
  | .error _ => (defaults host, none)
  | .ok _ =>
    match v.fileBytes path with
    | .error e => fallback ("Failed to read settings file: " ++ e.message)
    | .ok bytes =>
      match String.fromUTF8? bytes with
      | none => fallback "Failed to read settings file: stream did not contain valid UTF-8"
      | some text =>
        match ofToml host text with
        | .ok s => (s, none)
        | .error m => fallback ("Failed to parse settings: " ++ m)

/-- The settings in a file, or the defaults when it cannot be read as settings. -/
def loadFrom (v : Volume) (host path : String) : Settings := (load v host path).1

/-- Writes the settings to a file, making the directories above it; answers the text written. -/
def saveTo (v : Volume) (s : Settings) (path : String) : Except String (Volume × String) := do
  let v ← match parentText? path with
    | some q => if q.isEmpty then pure v else (v.makeDirs q).mapError (·.message)
    | none => pure v
  let text ← s.toToml
  let v ← (v.writeFile path text.toUTF8).mapError (·.message)
  pure (v, text)

end Settings

end Courier
