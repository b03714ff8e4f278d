import CertRotation.CommandLine.Basic

/-!
Reading a command line. Each level is read word by word. A value may stand in the word of its flag,
and is then looked at at once; or it is the next word, and is looked at when the next flag or the
end of the level is reached. A command ends the level that it stands in, and the words after it are
read before the values of that level are settled.
-/

namespace CertRotation.CommandLine

/-- A word by its dashes. -/
inductive Word where
  | separator
  | long (name : String) (value : Option String)
  | short (letters : List Char)
  | plain
deriving DecidableEq, Repr

namespace Word

/-- A word with two dashes before it: its name, and a value after the first equals sign. -/
def ofLong (chars : List Char) : Word :=
  let name := String.ofList (chars.takeWhile (· ≠ '='))
  match chars.dropWhile (· ≠ '=') with
  | [] => long name none
  | _ :: value => long name (some (String.ofList value))

/-- Tells words apart. A single dash is a word like any other. -/
def ofText (text : String) : Word :=
  match text.toList with
  | ['-', '-'] => separator
  | '-' :: '-' :: rest => ofLong rest
  | '-' :: c :: rest => short (c :: rest)
  | _ => plain

end Word

/-- The values that a level has been given. -/
structure Values where
  logFormat : Option LogFormat
  path : Option String
deriving DecidableEq, Repr

/-- How far a level has been read: the values that are settled, and a flag whose value is not, with
the value as soon as it is there. -/
structure Reading where
  values : Values
  pending : Option (Flag × Option String)
deriving DecidableEq, Repr

namespace Values

def none : Values := ⟨.none, .none⟩

/-- Takes the value of a flag, which must be the first for the flag. -/
def take (values : Values) (flag : Flag) (value : String) : Except Halt Values :=
  match flag with
  | .logFormat =>
    if values.logFormat.isSome then throw (.misuse (.repeatedFlag flag))
    else
      match LogFormat.ofName? value with
      | some format => return { values with logFormat := format }
      | .none => throw (.misuse (.badValue flag value))
  | _ =>
    if values.path.isSome then throw (.misuse (.repeatedFlag flag))
    else if value = "" then throw (.misuse (.badValue flag value))
    else return { values with path := value }

end Values

/-- What a flag without a value asks for in place of work. -/
def Flag.halt? (level : Level) : Flag → Option Halt
  | .help => some (.help (.level level))
  | .version => some .version
  | _ => none

namespace Reading

/-- The reading of a level before its first word. -/
def start : Reading := ⟨.none, none⟩

/-- Settles the value that is pending. -/
def settle (reading : Reading) : Except Halt Values :=
  match reading.pending with
  | none => return reading.values
  | some (flag, none) => throw (.misuse (.missingValue flag))
  | some (flag, some value) => reading.values.take flag value

/-- Takes a flag whose value stands in its own word, or is to come. -/
def takeFlag (reading : Reading) (flag : Flag) (value : Option String) : Except Halt Reading := do
  let values ← reading.settle
  match value with
  | some value => return ⟨← values.take flag value, none⟩
  | none => return ⟨values, some (flag, none)⟩

/-- Ends the reading, unless the value that is pending is refused. -/
def stop {α : Type} (reading : Reading) (halt : Halt) : Except Halt α := do
  let _ ← reading.settle
  throw halt

/-- Takes a word with two dashes before it. -/
def takeLong (reading : Reading) (level : Level) (name : String) (value : Option String) :
    Except Halt Reading :=
  match level.flags.find? (·.longName == name) with
  | none => throw (.misuse (.unknownFlag ("--" ++ name)))
  | some flag =>
    match flag.halt? level, value with
    | none, value => reading.takeFlag flag value
    | some halt, none => reading.stop halt
    | some _, some _ => throw (.misuse (.valueNotTaken flag))

/-- Takes the letters of a word with one dash before it. What follows the letter of a flag with a
value is the value; an equals sign between them is no part of it. -/
def takeShort (reading : Reading) (level : Level) (letters : List Char) : Except Halt Reading :=
  match letters with
  | [] => return reading
  | letter :: rest =>
    match level.flags.find? (·.letter? == some letter) with
    | none => throw (.misuse (.unknownFlag (String.ofList ['-', letter])))
    | some flag =>
      match flag.halt? level, rest with
      | some halt, _ => reading.stop halt
      | none, [] => reading.takeFlag flag none
      | none, '=' :: value => reading.takeFlag flag (some (String.ofList value))
      | none, value => reading.takeFlag flag (some (String.ofList value))

/-- Takes a word as the value that is awaited, if one is. -/
def awaited? (reading : Reading) (word : String) : Option Reading :=
  match reading.pending with
  | some (flag, none) => some { reading with pending := some (flag, some word) }
  | _ => none

end Reading

/-- The words after the command for help: a command to explain, or nothing. -/
def topic : List String → Except Halt Topic
  | [] => return .level .top
  | word :: rest =>
    match Topic.ofName? word, rest with
    | none, _ => throw (.misuse (.unknownTopic word))
    | some _, next :: _ => throw (.misuse (.unknownTopic next))
    | some topic, [] => return topic

/-- What a word is at a level as a command. -/
inductive CommandWord where
  | command (command : Command)
  | help
  | other
deriving DecidableEq, Repr

/-- Commands stand at the top only. -/
def CommandWord.ofText (level : Level) (word : String) : CommandWord :=
  match level with
  | .within _ => other
  | .top =>
    match Command.ofName? word with
    | some found => command found
    | none => if word = helpName then help else other

/-- Reads a level up to a command, with the words after the command, or up to the end. -/
def readLevel (level : Level) (reading : Reading) :
    List String → Except Halt (Reading × Option (Command × List String))
  | [] => return (reading, none)
  | word :: rest => do
    match reading.awaited? word, CommandWord.ofText level word, Word.ofText word with
    | none, .command command, _ => return (reading, some (command, rest))
    | none, .help, _ => throw (.help (← topic rest))
    | _, _, .separator =>
      match rest with
      | [] => return (reading, none)
      | next :: _ => reading.stop (.misuse (.unexpectedWord next))
    | _, _, .long name value => readLevel level (← reading.takeLong level name value) rest
    | _, _, .short letters => readLevel level (← reading.takeShort level letters) rest
    | some reading, _, .plain => readLevel level reading rest
    | none, _, .plain => reading.stop (.misuse (.unexpectedWord word))

/-- Reads a command line. The form of log lines may be given at either level; the one after the
command counts. -/
def read (words : List String) : Except Halt Invocation := do
  let (top, next) ← readLevel .top .start words
  match next with
  | none => top.stop (.misuse .missingCommand)
  | some (command, words) =>
    let (inner, _) ← readLevel (.within command) .start words
    let inner ← inner.settle
    let outer ← top.settle
    return ⟨(inner.logFormat.or outer.logFormat).getD .text, command,
      inner.path.getD defaultSettingsPath⟩

end CertRotation.CommandLine
