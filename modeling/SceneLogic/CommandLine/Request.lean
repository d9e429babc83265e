import SceneLogic.Text.Digits

/-!
# Requests on the command line

The words of a command line are options of the program, the name of a command and
options of the command.  An option takes one value, in the same word or in the next
one, and may be given once.  Two dashes alone end the options; nothing can follow
them, for no command takes other words.

A wish for help is granted as soon as it is read, when everything before it on the
same level is in order; it is read also where the options of the program are not.

## Main definitions

* `Command` — what the program can do with a project.
* `Request` — what a command line asks for; `Request.ofWords`.
* `Grammar.read` — the options of one level.
-/

namespace SceneLogic

/-- What the program can do with a project: run a scene for a number of steps, check
all scenes, or list their functions. -/
inductive Command where
  | run (scene : Option String) (steps : Option UInt32)
  | check
  | functions
deriving DecidableEq, Repr

/-- What there is help on. -/
inductive Topic where
  | program
  | run
  | check
  | functions
  | help
deriving DecidableEq, Repr

/-- What a command line asks for. -/
inductive Request where
  | help (topic : Topic)
  | misuse
  | command (project : String) (command : Command)
deriving DecidableEq, Repr

namespace CommandLine

/-- An option with a value, and which values it admits. -/
structure ValueOption where
  long : String
  short : Option Char
  admits : String → Bool

/-- The options and commands of one level. -/
structure Grammar where
  options : List ValueOption
  commands : List String

/-- The options read so far.  The last one may still wait for its value, and a value
in a word of its own is not checked before the next option or the end. -/
structure Progress where
  settled : List (String × String)
  pending : Option (ValueOption × Option String)

/-- No options. -/
def Progress.empty : Progress := ⟨[], none⟩

/-- Check the last option: it has a value that it admits, and it was not given before. -/
def Progress.settle? (progress : Progress) : Option Progress :=
  match progress.pending with
  | none => some progress
  | some (_, none) => none
  | some (option, some value) =>
    if option.admits value && (progress.settled.lookup option.long).isNone then
      some ⟨(option.long, value) :: progress.settled, none⟩
    else none

/-- Whether the last option waits for its value. -/
def Progress.waits (progress : Progress) : Bool :=
  match progress.pending with
  | some (_, none) => true
  | _ => false

/-- The kinds of words. -/
inductive Word where
  | long (name : String) (value : Option String)
  | short (name : Char) (rest : List Char)
  | plain

/-- The kind of a word.  A dash alone is a plain word. -/
def Word.classify (word : List Char) : Word :=
  match word with
  | '-' :: '-' :: rest =>
    match rest.span (· ≠ '=') with
    | (name, '=' :: value) => .long (String.ofList name) (some (String.ofList value))
    | (name, _) => .long (String.ofList name) none
  | '-' :: name :: rest => .short name rest
  | _ => .plain

/-- The value behind a short option in the same word. -/
def attachedValue? : List Char → Option String
  | [] => none
  | '=' :: value => some (String.ofList value)
  | value => some (String.ofList value)

/-- What the words of one level come to. -/
inductive Outcome where
  | help
  | misuse
  | command (name : String) (words : List String) (progress : Progress)
  | finished (progress : Progress)

/-- Take up an option.  Its value may come in the next word. -/
def Progress.take? (progress : Progress) (option : ValueOption) (value : Option String) :
    Option Progress := do
  let progress ← progress.settle?
  let progress := { progress with pending := some (option, value) }
  if value.isSome then progress.settle? else return progress

/-- Read the words of one level up to the name of a command or to the end. -/
def Grammar.read (grammar : Grammar) (progress : Progress) : List String → Outcome
  | [] => .finished progress
  | word :: words =>
    if !progress.waits && grammar.commands.contains word then .command word words progress
    else if word = "--" then
      if words.isEmpty then .finished progress else .misuse
    else
      let help := fun (_ : Unit) =>
        if progress.settle?.isSome then Outcome.help else Outcome.misuse
      match Word.classify word.toList with
      | .long name value =>
        if name = "help" then if value.isSome then .misuse else help ()
        else
          match grammar.options.find? fun option => option.long = name with
          | none => .misuse
          | some option =>
            match progress.take? option value with
            | some progress => grammar.read progress words
            | none => .misuse
      | .short name rest =>
        if name = 'h' then help ()
        else
          match grammar.options.find? fun option => option.short = some name with
          | none => .misuse
          | some option =>
            match progress.take? option (attachedValue? rest) with
            | some progress => grammar.read progress words
            | none => .misuse
      | .plain =>
        match progress.pending with
        | some (option, none) =>
          grammar.read { progress with pending := some (option, some word) } words
        | _ => .misuse

/-! ## The options and commands of the program -/

/-- A number of steps: decimal digits after an optional sign, within 32 bits. -/
def steps? (text : String) : Option UInt32 :=
  let (negative, digits) := match text.toList with
    | '+' :: digits => (false, digits)
    | '-' :: digits => (true, digits)
    | digits => (false, digits)
  let size := digitsValue digits
  if digits ≠ [] ∧ digits.all Char.isDigit ∧ size < UInt32.size ∧ (negative → size = 0) then
    some (UInt32.ofNat size)
  else none

/-- The directory of the project. -/
def projectOption : ValueOption := ⟨"project", some 'p', fun path => path ≠ ""⟩

/-- The scene to run. -/
def sceneOption : ValueOption := ⟨"scene", none, fun _ => true⟩

/-- The number of steps to run. -/
def stepsOption : ValueOption := ⟨"steps", none, fun text => (steps? text).isSome⟩

/-- Where the project is unless something else is said. -/
def defaultProject : String := "./project"

/-- The topic that bears the name of a command. -/
def topic? (name : String) : Option Topic :=
  match name with
  | "run" => some .run
  | "check" => some .check
  | "functions" => some .functions
  | "help" => some .help
  | _ => none

/-- The options of the program, and its commands. -/
def programGrammar : Grammar := ⟨[projectOption], ["run", "check", "functions", "help"]⟩

/-- The options of a command. -/
def commandGrammar (topic : Topic) : Grammar :=
  match topic with
  | .run => ⟨[sceneOption, stepsOption], []⟩
  | _ => ⟨[], []⟩

/-- The command with the options that were read. -/
def command? (topic : Topic) (progress : Progress) : Option Command :=
  match topic with
  | .run =>
    some (.run (progress.settled.lookup "scene") ((progress.settled.lookup "steps").bind steps?))
  | .check => some .check
  | .functions => some .functions
  | _ => none

/-- The request for help on a command. -/
def helpOn (words : List String) : Request :=
  match words with
  | [] => .help .program
  | [name] => ((topic? name).map .help).getD .misuse
  | _ => .misuse

/-- The request for a command, with the options of the program before it. -/
def requestCommand (progress : Progress) (topic : Topic) (words : List String) : Request :=
  match (commandGrammar topic).read .empty words with
  | .help => .help topic
  | .finished inner =>
    let request? : Option Request := do
      let inner ← inner.settle?
      let progress ← progress.settle?
      let command ← command? topic inner
      return .command ((progress.settled.lookup "project").getD defaultProject) command
    request?.getD .misuse
  | _ => .misuse

end CommandLine

/-- What the words of a command line ask for. -/
def Request.ofWords (words : List String) : Request :=
  match CommandLine.programGrammar.read .empty words with
  | .help => .help .program
  | .command name words progress =>
    match CommandLine.topic? name with
    | some .help => CommandLine.helpOn words
    | some topic => CommandLine.requestCommand progress topic words
    | none => .misuse
  | _ => .misuse

end SceneLogic
