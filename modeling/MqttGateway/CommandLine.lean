/-!
# The command line

What can be said on the command line: where the settings are, under which names their parts are
looked up in the environment, and how much is to be logged in which form.
-/
namespace MqttGateway

namespace CommandLine

structure Options where
  settingsFile : Option String := none
  environment : String := "MQTT_RELAY_"
  logLevel : String := "info"
  jsonLogs : Bool := false
  deriving DecidableEq, Repr

inductive Command
  | run (options : Options)
  | help
  deriving DecidableEq, Repr

inductive Fault
  | missingValue (option : String)
  | unknown (argument : String)
  deriving DecidableEq, Repr

def Fault.message : Fault → String
  | .missingValue option => "a value is required for '" ++ option ++ "' but none was supplied"
  | .unknown argument => "unexpected argument '" ++ argument ++ "' found"

/-- An argument with its value after an equals sign, if it has one. -/
def splitValue (argument : String) : String × Option String :=
  match argument.splitOn "=" with
  | [] => (argument, none)
  | [_] => (argument, none)
  | name :: value => (name, some ("=".intercalate value))

/-- What an option with a value changes. -/
def setter? (option : String) : Option (String → Options → Options) :=
  if option = "--config" ∨ option = "-c" then some fun v o => { o with settingsFile := v }
  else if option = "--env-prefix" then some fun v o => { o with environment := v }
  else if option = "--log-level" then some fun v o => { o with logLevel := v }
  else none

def readFrom (o : Options) : List String → Except Fault Command
  | [] => .ok (.run o)
  | argument :: rest =>
    if argument = "--help" ∨ argument = "-h" then .ok .help
    else if argument = "--json-logs" then readFrom { o with jsonLogs := true } rest
    else
      let (option, value) := splitValue argument
      match setter? option, value, rest with
      | some set, some value, rest => readFrom (set value o) rest
      | some set, none, value :: rest => readFrom (set value o) rest
      | some _, none, [] => .error (.missingValue option)
      | none, _, _ => .error (.unknown argument)

def read (arguments : List String) : Except Fault Command :=
  readFrom {} arguments

def usage : String :=
  "MQTT relay gateway with client certificate revocation checks\n\n" ++
  "Options:\n" ++
  "  -c, --config <CONFIG>          Configuration file path (JSON)\n" ++
  "      --env-prefix <ENV_PREFIX>  Prefix of the environment variables overlaid on the configuration\n" ++
  "      --log-level <LOG_LEVEL>    Log level (trace, debug, info, warn, error)\n" ++
  "      --json-logs                Enable JSON log format\n" ++
  "  -h, --help                     Print help"

end CommandLine
end MqttGateway
