import Retouch.Text.Basic

/-!
# Help texts

The help of the program and of each of its commands.
-/

namespace Retouch.Help

def ofLines (lines : List Text) : Text :=
  lines.flatMap (· ++ ['\n'])

/-- The option for help, as the help of a command with short options shows it. -/
def helpLine : Text := "  -h, --help  show this help message and exit"

def program : Text :=
  ofLines
    ["usage: alchemy [-h] \x7bvalidate,split,effects,invoke,presets,run\x7d ...",
      "",
      "Alchemy image command pipeline",
      "",
      "positional arguments:",
      "  \x7bvalidate,split,effects,invoke,presets,run\x7d",
      "    validate            Validate command text",
      "    split               Split command text into stack entries",
      "    effects             Parse command text into editable effects",
      "    invoke              Print the sanitized engine invocation",
      "    presets             List preset commands",
      "    run                 Apply a vibe to an image",
      "",
      "options:",
      "  -h, --help            show this help message and exit"]

/-- The help of a command that takes nothing but a text. -/
def ofTextCommand (name : Text) : Text :=
  ofLines
    ["usage: alchemy " ++ name ++ " [-h] text",
      "",
      "positional arguments:",
      "  text",
      "",
      "options:",
      helpLine]

def effects : Text :=
  ofLines
    ["usage: alchemy effects [-h] [--reconstruct] text",
      "",
      "positional arguments:",
      "  text",
      "",
      "options:",
      "  -h, --help     show this help message and exit",
      "  --reconstruct  Print the rebuilt command instead"]

def invoke : Text :=
  ofLines
    ["usage: alchemy invoke [-h] --size SIZE [--export] text",
      "",
      "positional arguments:",
      "  text",
      "",
      "options:",
      "  -h, --help   show this help message and exit",
      "  --size SIZE  WIDTHxHEIGHT",
      "  --export"]

def presets : Text :=
  ofLines
    ["usage: alchemy presets [-h] [--catalog \x7bprimitives,ready,spellbook\x7d]",
      "",
      "options:",
      "  -h, --help            show this help message and exit",
      "  --catalog \x7bprimitives,ready,spellbook\x7d"]

def run : Text :=
  ofLines
    ["usage: alchemy run [-h] --image IMAGE --vibe VIBE --out OUT [--events EVENTS]",
      "                   [--source SOURCE] [--export]",
      "",
      "options:",
      "  -h, --help       show this help message and exit",
      "  --image IMAGE    Input image path",
      "  --vibe VIBE",
      "  --out OUT        Output image path",
      "  --events EVENTS  Path to events.jsonl",
      "  --source SOURCE",
      "  --export         Write a JPEG at full quality"]

end Retouch.Help
