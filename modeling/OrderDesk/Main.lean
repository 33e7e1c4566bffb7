import OrderDesk.Demo
import OrderDesk.Toml.Config

/-
  This file defines the program that gives the demonstration
  with the settings from a file. The file is named on the
  command line. If it is not, `config.toml` is taken if
  there is one, and otherwise the standard settings.

  Key definitions include:
    * `main`
-/

namespace OrderDesk

/- What is wrong with settings, in words. -/
def ConfigError.shown
    (e : ConfigError) : String :=
  e.message?.getD "TOML: the settings cannot be understood"

/- Read settings from a file. -/
def readSettings
    (path : String) : IO (Except ConfigError Config) := do
  try
    return Config.load path (.ok (← IO.FS.readFile path))
  catch e =>
    let fault : FileFault :=
      match e with
      | .noFileOrDirectory _ _ _ => .notFound
      | .inappropriateType _ _ _ => .isDirectory
      | e => ⟨toString e, 5⟩
    return Config.load path (.error fault)

/- Read the settings that hold if no file is named. -/
def readStandardSettings : IO Config := do
  match ← readSettings "config.toml" with
  | .ok config => return config
  | .error (.unreadable _ _) => return Config.standard
  | .error e =>
      IO.eprintln ("Ignoring config.toml: " ++ e.shown)
      return Config.standard

/- Give the demonstration, and tell how it went. -/
def demonstrate
    (config : Config) : IO UInt32 := do
  match Demo.play config ⟨1700000000, 0⟩ with
  | .error refusal =>
      IO.eprintln ("Error: " ++ refusal.message)
      return 1
  | .ok desk =>
      for line in Demo.report desk do
        IO.println line
      return 0

end OrderDesk

open OrderDesk in
/- Give the demonstration with the settings that are asked for. -/
def main
    (args : List String) : IO UInt32 := do
  match args with
  | [] => demonstrate (← readStandardSettings)
  | path :: _ =>
      match ← readSettings path with
      | .ok config => demonstrate config
      | .error e =>
          IO.eprintln ("Error: " ++ e.shown)
          return 1
