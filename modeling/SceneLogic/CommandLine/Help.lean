import SceneLogic.CommandLine.Request

/-!
# Help texts

What the program says about itself and its commands.
-/

namespace SceneLogic

/-- The lines of a text. -/
def linesText (lines : List String) : String := String.join (lines.map (· ++ "\n"))

/-- The help on a topic. -/
def Topic.text : Topic → String
  | .program => linesText
    ["Run and check event sheet projects",
      "",
      "Usage: eventsheet [OPTIONS] <COMMAND>",
      "",
      "Commands:",
      "  run        Run a scene and print its variables",
      "  check      Validate every scene against the instruction registry",
      "  functions  List the function events of every scene",
      "  help       Print this message or the help of the given subcommand(s)",
      "",
      "Options:",
      "  -p, --project <PROJECT>  Path to the project directory [default: ./project]",
      "  -h, --help               Print help"]
  | .run => linesText
    ["Run a scene and print its variables",
      "",
      "Usage: eventsheet run [OPTIONS]",
      "",
      "Options:",
      "      --scene <SCENE>  Scene to run (defaults to the project's first scene)",
      "      --steps <STEPS>  Number of steps (defaults to the project's runtime.steps)",
      "  -h, --help           Print help"]
  | .check => linesText
    ["Validate every scene against the instruction registry",
      "",
      "Usage: eventsheet check",
      "",
      "Options:",
      "  -h, --help  Print help"]
  | .functions => linesText
    ["List the function events of every scene",
      "",
      "Usage: eventsheet functions",
      "",
      "Options:",
      "  -h, --help  Print help"]
  | .help => linesText
    ["Print this message or the help of the given subcommand(s)",
      "",
      "Usage: eventsheet help [COMMAND]...",
      "",
      "Arguments:",
      "  [COMMAND]...  Print help for the subcommand(s)"]

/-- What is said when the command line cannot be understood. -/
def misuseText : String := linesText
  ["error: the command line is not understood",
    "",
    "Usage: eventsheet [OPTIONS] <COMMAND>",
    "",
    "For more information, try '--help'."]

end SceneLogic
