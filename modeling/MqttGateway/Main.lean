import MqttGateway.CommandLine
import MqttGateway.Gateway.Basic
import MqttGateway.Settings.Written
/-!
# The program

Loads settings from a file and the environment, checks them, and sets the gateway up with the files
that they name.
-/
namespace MqttGateway.Program

/-- Files that have been read, and a network on which nothing answers. -/
def surroundings : Surroundings (List (String × Octets)) where
  send _ := return .error none
  read path := do return ((← get).find? (·.1 == path)).map (·.2)
  now := return 0

def readFile? (path : String) : IO (Option Octets) := do
  try return some (← IO.FS.readBinFile path).toList
  catch _ => return none

def readFiles (paths : List String) : IO (List (String × Octets)) :=
  paths.filterMapM fun path => do return (← readFile? path).map fun content => (path, content)

def fail (message : String) : IO UInt32 := do
  IO.eprintln ("Error: " ++ message)
  return 1

def loadSettings (path : Option String) : IO (Except String Settings) := do
  match path with
  | none => return .ok {}
  | some path =>
    match ← readFile? path with
    | none => return .error ("failed to read config file " ++ path ++ ": " ++ missingFile)
    | some content =>
      return (Settings.load content).mapError fun
        | .unreadable => "failed to read config file " ++ path
        | .unparsable _ => "failed to parse config file " ++ path

def readEnvironment (start : String) : IO (List (String × String)) :=
  Settings.Key.all.filterMapM fun key => do
    return (← IO.getEnv (start ++ key.name)).map fun value => (start ++ key.name, value)

def setUp (s : Settings) : IO UInt32 := do
  let files ← readFiles s.files
  match ((Gateway.ofSettings surroundings s).run files).1 with
  | .error fault => fail ("failed to initialize MQTT relay: " ++ fault.message)
  | .ok g =>
    IO.println ("Relay initialized " ++ g.security.text ++ ": " ++ g.address ++ " to " ++ g.target)
    return 0

def run (o : CommandLine.Options) : IO UInt32 := do
  let path ← match o.settingsFile with
    | some path => pure (some path)
    | none => IO.getEnv "MQTT_RELAY_CONFIG"
  match ← loadSettings path with
  | .error message => fail message
  | .ok s =>
    let environment ← readEnvironment o.environment
    match s.overlay o.environment (environment.lookup ·) with
    | (_, some fault) => fail fault.message
    | (s, none) =>
      match s.inconsistency? with
      | some fault => fail fault.message
      | none => setUp s

end MqttGateway.Program

def main (arguments : List String) : IO UInt32 := do
  match MqttGateway.CommandLine.read arguments with
  | .ok .help =>
    IO.println MqttGateway.CommandLine.usage
    return 0
  | .ok (.run options) => MqttGateway.Program.run options
  | .error fault => MqttGateway.Program.fail fault.message
