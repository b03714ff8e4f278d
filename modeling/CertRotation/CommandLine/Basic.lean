namespace CertRotation.CommandLine

def programName : String := "webhook-certd"

def programVersion : String := "0.1.0"

/-- The file of settings where none is named. -/
def defaultSettingsPath : String := "/etc/webhook-certd/config.json"

/-- The form of log lines. -/
inductive LogFormat where
  | text
  | json
deriving DecidableEq, Repr

namespace LogFormat

def all : List LogFormat := [text, json]

def name : LogFormat → String
  | text => "text"
  | json => "json"

def ofName? (name : String) : Option LogFormat := all.find? (·.name == name)

end LogFormat

/-- A command of the program. -/
inductive Command where
  | run
  | initConfig
deriving DecidableEq, Repr

namespace Command

def all : List Command := [run, initConfig]

def name : Command → String
  | run => "run"
  | initConfig => "init-config"

def ofName? (name : String) : Option Command := all.find? (·.name == name)

end Command

/-- The name of the command that explains the others. -/
def helpName : String := "help"

/-- A part of the command line: before a command, or after it. -/
inductive Level where
  | top
  | within (command : Command)
deriving DecidableEq, Repr

/-- A flag. -/
inductive Flag where
  | logFormat
  | config
  | output
  | help
  | version
deriving DecidableEq, Repr

namespace Flag

def longName : Flag → String
  | logFormat => "log-format"
  | config => "config"
  | output => "output"
  | help => "help"
  | version => "version"

def letter? : Flag → Option Char
  | logFormat => none
  | config => some 'c'
  | output => some 'o'
  | help => some 'h'
  | version => some 'V'

end Flag

/-- The flags of a level, in the order in which they are explained. -/
def Level.flags : Level → List Flag
  | .top => [.logFormat, .help, .version]
  | .within .run => [.config, .logFormat, .help]
  | .within .initConfig => [.logFormat, .output, .help]

/-- What help is about. -/
inductive Topic where
  | level (level : Level)
  | help
deriving DecidableEq, Repr

/-- The command that a name stands for, as something to explain. -/
def Topic.ofName? (name : String) : Option Topic :=
  match Command.ofName? name with
  | some command => some (level (.within command))
  | none => if name = helpName then some help else none

/-- Why a command line is refused. -/
inductive Misuse where
  | missingCommand
  | unknownFlag (word : String)
  | unexpectedWord (word : String)
  | unknownTopic (word : String)
  | missingValue (flag : Flag)
  | badValue (flag : Flag) (value : String)
  | repeatedFlag (flag : Flag)
  | valueNotTaken (flag : Flag)
deriving DecidableEq, Repr

/-- A command line that asks for no work: it asks for help or for the version, or is refused. -/
inductive Halt where
  | help (topic : Topic)
  | version
  | misuse (fault : Misuse)
deriving DecidableEq, Repr

/-- A command line that asks for work: a command, on a file of settings. -/
structure Invocation where
  logFormat : LogFormat
  command : Command
  path : String
deriving DecidableEq, Repr

end CertRotation.CommandLine
