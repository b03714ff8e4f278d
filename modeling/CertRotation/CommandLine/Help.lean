import CertRotation.CommandLine.Basic

namespace CertRotation.CommandLine

/-- What a command does, in a line. -/
def Command.purpose : Command → String
  | run => "Run rotation managers for every configured webhook"
  | initConfig => "Generate a sample config file"

def helpPurpose : String := "Print this message or the help of the given subcommand(s)"

namespace Flag

/-- The name of the value that a flag takes. -/
def valueName? : Flag → Option String
  | logFormat => some "LOG_FORMAT"
  | config => some "CONFIG"
  | output => some "OUTPUT"
  | help | version => none

def purpose : Flag → String
  | logFormat =>
    "Log output format [default: text] [possible values: " ++
      ", ".intercalate (LogFormat.all.map LogFormat.name) ++ "]"
  | config => "Path to config file [default: " ++ defaultSettingsPath ++ "]"
  | output => "Path to write config [default: " ++ defaultSettingsPath ++ "]"
  | help => "Print help"
  | version => "Print version"

/-- A flag as it is typed, with its value. -/
def usage (flag : Flag) : String :=
  "--" ++ flag.longName ++ (flag.valueName?.map fun name => " <" ++ name ++ ">").getD ""

/-- A flag as it is typed, with its letter before its name. -/
def spelling (flag : Flag) : String :=
  (match flag.letter? with
    | some letter => String.ofList ['-', letter, ',', ' ']
    | none => "    ") ++ flag.usage

end Flag

def table (rows : List (String × String)) : List String :=
  let width := (rows.map fun row => row.1.length).foldl max 0
  rows.map fun (left, right) =>
    "  " ++ left ++ String.ofList (List.replicate (width - left.length + 2) ' ') ++ right

def flagLines (level : Level) : List String :=
  "Options:" :: table (level.flags.map fun flag => (flag.spelling, flag.purpose))

/-- How a command line about a topic goes on. -/
def Topic.usage : Topic → String
  | level .top => programName ++ " [OPTIONS] <COMMAND>"
  | level (.within command) => programName ++ " " ++ command.name ++ " [OPTIONS]"
  | help => programName ++ " " ++ helpName ++ " [COMMAND]..."

/-- The line that tells how to use a topic. -/
def Topic.usageLine (topic : Topic) : String := "Usage: " ++ topic.usage

def Topic.lines (topic : Topic) : List String :=
  match topic with
  | level .top =>
    ["Admission webhook certificate rotation daemon", "", topic.usageLine, "", "Commands:"] ++
      table ((Command.all.map fun command => (command.name, command.purpose)) ++
        [(helpName, helpPurpose)]) ++
      [""] ++ flagLines .top
  | level (.within command) =>
    [command.purpose, "", topic.usageLine, ""] ++ flagLines (.within command)
  | help =>
    [helpPurpose, "", topic.usageLine, "", "Arguments:"] ++
      table [("[COMMAND]...", "Print help for the subcommand(s)")]

def Misuse.message : Misuse → String
  | missingCommand => programName ++ " requires a subcommand but one was not provided"
  | unknownFlag word => "unexpected argument '" ++ word ++ "' found"
  | unexpectedWord word => "unexpected argument '" ++ word ++ "' found"
  | unknownTopic word => "unrecognized subcommand '" ++ word ++ "'"
  | missingValue flag => "a value is required for '" ++ flag.usage ++ "' but none was supplied"
  | badValue flag value => "invalid value '" ++ value ++ "' for '" ++ flag.usage ++ "'"
  | repeatedFlag flag => "the argument '" ++ flag.usage ++ "' cannot be used multiple times"
  | valueNotTaken flag => "unexpected value for '" ++ flag.usage ++ "' found; no more were expected"

def unlines (lines : List String) : String := String.join (lines.map (· ++ "\n"))

/-- The name of the program with its version. -/
def versionText : String := unlines [programName ++ " " ++ programVersion]

/-- What is said of a command line that is refused. -/
def Misuse.text (fault : Misuse) : String :=
  unlines ["error: " ++ fault.message, "", (Topic.level .top).usageLine, "",
    "For more information, try '" ++ Flag.help.usage ++ "'."]

end CertRotation.CommandLine
