/-
The arguments of the command line: options, the word that names a
command, and the words that the command is about. They are read from left
to right on two levels, in front of the command word and behind it. An
option may stand on each level once; of a server directory given on both,
the one behind the command word counts.

A value and a word are taken in when what follows them has been read
(`Level.settle`), so of several mistakes the one that is reported is the
first that is met in this way.
-/
import Depot.Text.Split

namespace Depot.CommandLine

-- ===================================================== commands

/-- What can be done with a depot. -/
inductive Command where
  /-- Downloads what a link leads to. -/
  | fetch (url : String)
  /-- Takes in a file as an upload to an index. -/
  | upload (target file : String)
  /-- Writes out the content of an artifact. -/
  | cat (relpath : String)
  /-- Removes an artifact. -/
  | remove (relpath : String)
  /-- Lists the artifacts. -/
  | list
  /-- Writes out the documents of a snapshot. -/
  | index (snapshot : String)
deriving DecidableEq, Repr

/-- The words that name commands. -/
inductive Verb where
  | fetch
  | upload
  | cat
  | remove
  | list
  | index
deriving DecidableEq, Repr

/-- What a word behind a verb is. A path may not be empty. -/
inductive Operand where
  | text
  | path
deriving DecidableEq, Repr

namespace Verb

/-- Every verb. -/
def all : List Verb := [fetch, upload, cat, remove, list, index]

/-- The word itself. -/
def name : Verb → String
  | fetch => "fetch"
  | upload => "upload"
  | cat => "cat"
  | remove => "rm"
  | list => "ls"
  | index => "index"

/-- The verb that a word is, if it is one. -/
def ofName? (s : String) : Option Verb := all.find? fun verb => verb.name = s

/-- The words that a verb goes with. -/
def operands : Verb → List Operand
  | fetch => [.text]
  | upload => [.text, .path]
  | cat => [.text]
  | remove => [.text]
  | list => []
  | index => [.path]

/-- The command of a verb with its words. -/
def command? : Verb → List String → Option Command
  | fetch, [url] => some (.fetch url)
  | upload, [target, file] => some (.upload target file)
  | cat, [relpath] => some (.cat relpath)
  | remove, [relpath] => some (.remove relpath)
  | list, [] => some .list
  | index, [snapshot] => some (.index snapshot)
  | _, _ => none

end Verb

/-- The verb of a command. -/
def Command.verb : Command → Verb
  | .fetch _ => .fetch
  | .upload .. => .upload
  | .cat _ => .cat
  | .remove _ => .remove
  | .list => .list
  | .index _ => .index

/-- The file that a command reads. -/
def Command.file? : Command → Option String
  | .upload _ file => some file
  | .index snapshot => some snapshot
  | _ => none

/-- What the arguments ask for. -/
structure Invocation where
  command : Command
  /-- Whether a message is written as JSON. -/
  json : Bool
  serverDir : Option String
deriving DecidableEq, Repr

/-- Why the arguments ask for no command. -/
inductive Usage where
  /-- Help is asked for. -/
  | help
  /-- The version is asked for. -/
  | version
  /-- There are no arguments. -/
  | nothing
  /-- There are options only. -/
  | missingCommand
  | unknownCommand
  /-- An unknown option, or a word too many. -/
  | unknownArgument
  /-- The command goes with more words. -/
  | missingArgument
  /-- An option without its value, or a path without text. -/
  | missingValue
  /-- A value for an option that takes none. -/
  | surplusValue
  /-- An option that was there already. -/
  | repeated
deriving DecidableEq, Repr

/-- The status that a program ends with. -/
def Usage.exitCode : Usage → Nat
  | help => 0
  | version => 0
  | _ => 2

/-- What is wrong with the arguments, in words. -/
def Usage.message : Usage → String
  | help => "usage: pxm [-v] [--trace] [--json] [--serverdir DIR] COMMAND"
  | version => "pxm"
  | nothing => "no command; the commands are " ++ ", ".intercalate (Verb.all.map Verb.name)
  | missingCommand => "a command is missing"
  | unknownCommand => "there is no such command"
  | unknownArgument => "there is an unknown option or a word too many"
  | missingArgument => "the command needs more words"
  | missingValue => "a value is missing"
  | surplusValue => "an option that takes no value has one"
  | repeated => "an option is repeated"

-- ===================================================== options

/-- Options without a value. -/
inductive Flag where
  /-- More about what is going on; may be repeated. -/
  | verbose
  /-- All about what is going on. -/
  | trace
  | json
  | help
  | version
deriving DecidableEq, Repr

/-- The flag of a long name. -/
def Flag.ofName? : List Char → Option Flag
  | ['v', 'e', 'r', 'b', 'o', 's', 'e'] => some verbose
  | ['t', 'r', 'a', 'c', 'e'] => some trace
  | ['j', 's', 'o', 'n'] => some json
  | ['h', 'e', 'l', 'p'] => some help
  | ['v', 'e', 'r', 's', 'i', 'o', 'n'] => some version
  | _ => none

/-- The flag of a letter. -/
def Flag.ofLetter? : Char → Option Flag
  | 'v' => some verbose
  | 'h' => some help
  | 'V' => some version
  | _ => none

/-- The name of the option that takes the server directory. -/
def serverDirOption : List Char := ['s', 'e', 'r', 'v', 'e', 'r', 'd', 'i', 'r']

/-- What was read last and is not taken in yet. -/
inductive Waiting where
  | nothing
  /-- The option for the server directory, and its value once it came. -/
  | serverDir (value : Option String)
  | word (text : String)
deriving DecidableEq, Repr

/-- What was read on one level. -/
structure Level where
  /-- The verb that the level is behind. -/
  verb : Option Verb := none
  /-- Whether there were options. -/
  hasOptions : Bool := false
  trace : Bool := false
  json : Bool := false
  serverDir : Option String := none
  words : List String := []
  waiting : Waiting := .nothing
  /-- Whether two dashes have said that all that follows is words. -/
  wordsOnly : Bool := false
deriving DecidableEq, Repr

namespace Level

/-- The words that the level goes with. -/
def operands (level : Level) : List Operand := (level.verb.map Verb.operands).getD []

/-- Takes in a word. -/
def addWord (level : Level) (text : String) : Except Usage Level :=
  if text = "" ∧ level.operands[level.words.length]? = some .path then .error .missingValue
  else .ok { level with words := level.words ++ [text], waiting := .nothing }

/-- Takes in the server directory. -/
def addServerDir (level : Level) (dir : String) : Except Usage Level :=
  if level.serverDir.isSome then .error .repeated
  else if dir = "" then .error .missingValue
  else .ok { level with serverDir := some dir, hasOptions := true, waiting := .nothing }

/-- Takes in what is waiting. -/
def settle (level : Level) : Except Usage Level :=
  match level.waiting with
  | .nothing => .ok level
  | .serverDir none => .error .missingValue
  | .serverDir (some dir) => level.addServerDir dir
  | .word text => level.addWord text

/-- Whether the level has a flag. -/
def knows (level : Level) (flag : Flag) : Bool := flag ≠ .version || level.verb.isNone

/-- Takes in a flag. -/
def addFlag (level : Level) (flag : Flag) : Except Usage Level := do
  let level ← level.settle
  match flag with
  | .verbose => return { level with hasOptions := true }
  | .trace =>
      if level.trace then throw .repeated
      else return { level with trace := true, hasOptions := true }
  | .json =>
      if level.json then throw .repeated else return { level with json := true, hasOptions := true }
  | .help => throw .help
  | .version => throw .version

/-- Reads flags that are letters behind one dash. -/
def readLetters (level : Level) : List Char → Except Usage Level
  | [] => .ok level
  | letter :: rest =>
      match (Flag.ofLetter? letter).filter level.knows with
      | none => .error .unknownArgument
      | some flag =>
          match level.addFlag flag with
          | .error e => .error e
          | .ok level => level.readLetters rest

/-- Reads an option behind two dashes, with the value that stands behind
an equals sign. -/
def readLong (level : Level) (name : List Char) (value : Option (List Char)) :
    Except Usage Level := do
  if name = serverDirOption then
    let level ← level.settle
    match value with
    | none => return { level with waiting := .serverDir none }
    | some dir => level.addServerDir (String.ofList dir)
  else
    match (Flag.ofName? name).filter level.knows with
    | none => throw .unknownArgument
    | some flag => if value.isSome then throw .surplusValue else level.addFlag flag

/-- Reads a word that is no verb. -/
def readWord (level : Level) (text : String) : Except Usage Level :=
  match level.verb with
  | none =>
      if level.wordsOnly ∧ (Verb.ofName? text).isSome then .error .unknownArgument
      else .error .unknownCommand
  | some _ =>
      let count := match level.waiting with
        | .word _ => level.words.length + 1
        | _ => level.words.length
      if level.operands.length ≤ count then .error .unknownArgument
      else level.settle.map ({ · with waiting := .word text })

/-- Reads one argument that is no verb. A dash alone is a word. -/
def read (level : Level) (arg : String) : Except Usage Level :=
  if level.wordsOnly then level.readWord arg
  else
    match arg.toList with
    | ['-', '-'] => .ok { level with wordsOnly := true }
    | '-' :: '-' :: text =>
        match Text.cut? '=' text with
        | some (name, value) => level.readLong name (some value)
        | none => level.readLong text none
    | '-' :: letter :: letters => level.readLetters (letter :: letters)
    | _ =>
        if level.waiting = .serverDir none then
          .ok { level with waiting := .serverDir (some arg) }
        else level.readWord arg

/-- The verb that an argument is, where it may be one. -/
def verbAt? (level : Level) (arg : String) : Option Verb :=
  if level.wordsOnly ∨ level.waiting = .serverDir none then none else Verb.ofName? arg

/-- Reads up to the verb. -/
def readToVerb (level : Level) : List String → Except Usage (Level × Option (Verb × List String))
  | [] => .ok (level, none)
  | arg :: rest =>
      match level.verbAt? arg with
      | some verb => .ok (level, some (verb, rest))
      | none =>
          match level.read arg with
          | .error e => .error e
          | .ok level => level.readToVerb rest

end Level

-- ===================================================== all arguments

/-- Reads the arguments behind a verb. -/
def readBehind (verb : Verb) (args : List String) : Except Usage (Level × Command) := do
  let level ← args.foldlM Level.read { verb := some verb }
  let level ← level.settle
  match verb.command? level.words with
  | some command => return (level, command)
  | none => throw .missingArgument

/-- Reads the arguments. -/
def parse (args : List String) : Except Usage Invocation := do
  let (front, found) ← Level.readToVerb {} args
  match found with
  | none =>
      let front ← front.settle
      throw (if front.hasOptions then .missingCommand else .nothing)
  | some (verb, rest) =>
      let (behind, command) ← readBehind verb rest
      let front ← front.settle
      return {
        command
        json := front.json || behind.json
        serverDir := behind.serverDir <|> front.serverDir }

end Depot.CommandLine
