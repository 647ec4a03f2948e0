import SchemaTypings.Files.Path
import SchemaTypings.Naming.Policy

/-!
# Command lines

What is asked for on a command line: to convert a folder, to print the declarations of one
document, or to be told the version or how to use the tool.

Arguments are read from left to right. An option is given in full (`--output DIR`), with its
value attached (`--output=DIR`), or by a letter (`-o DIR`, `-oDIR`, `-o=DIR`), and letters
without values can be joined. After `--` everything is an operand. No option is given twice.
A request for help ends the reading, so what comes before it must be right and what comes
after it does not matter.
-/

namespace SchemaTypings.Command

/-- **An option** of a command. -/
inductive OptionName where
  /-- The folder that receives the declaration files. -/
  | output
  /-- The settings file. -/
  | config
  /-- The naming policy. -/
  | naming
  /-- Leave the lint directives out. -/
  | noHeader
  /-- Show the report as JSON. -/
  | json
  /-- Tell how to use the command. -/
  | help
deriving DecidableEq, Repr

namespace OptionName

/-- Whether an option has a value. -/
def takesValue : OptionName → Bool
  | .output | .config | .naming => true
  | .noHeader | .json | .help => false

/-- The full name of an option. -/
def long : OptionName → String
  | .output => "output"
  | .config => "config"
  | .naming => "naming"
  | .noHeader => "no-header"
  | .json => "json"
  | .help => "help"

/-- The letter of an option. -/
def letter? : OptionName → Option Char
  | .output => some 'o'
  | .config => some 'c'
  | .json => some 'j'
  | .help => some 'h'
  | .naming | .noHeader => none

end OptionName

/-- **A command** that works on documents. -/
inductive Verb where
  /-- Convert a folder. -/
  | convert
  /-- Print the declarations of a document. -/
  | print
deriving DecidableEq, Repr

/-- The name of a command. -/
def Verb.label : Verb → String
  | .convert => "convert"
  | .print => "print"

/-- The command with a name. -/
def Verb.ofLabel? (label : String) : Option Verb :=
  [convert, print].find? (·.label = label)

/-- The options of a command. -/
def Verb.options : Verb → List OptionName
  | .convert => [.output, .config, .naming, .noHeader, .json, .help]
  | .print => [.config, .naming, .noHeader, .help]

/-- **What has been read** of the arguments of a command. -/
structure Given where
  /-- The operand. -/
  operand : Option Path := none
  /-- The folder that receives the declaration files. -/
  output : Option Path := none
  /-- The settings file. -/
  config : Option Path := none
  /-- The naming policy. -/
  naming : Option NamingPolicy := none
  /-- Whether the lint directives are left out. -/
  noHeader : Bool := false
  /-- Whether the report is shown as JSON. -/
  json : Bool := false
deriving DecidableEq, Repr, Inhabited

/-- **Why reading stops** before the end of the arguments. -/
inductive Stop where
  /-- The arguments are not what the command takes. -/
  | misuse
  /-- Help is asked for. -/
  | help
deriving DecidableEq, Repr

/-- A path given as an argument, which must not be empty. -/
def givenPath (s : String) : Except Stop Path :=
  if s = "" then .error .misuse else .ok ⟨s⟩

/-- A value for something that is not given yet. -/
def once {α : Type} (before : Option α) (value : Except Stop α) : Except Stop (Option α) :=
  if before.isSome then .error .misuse else some <$> value

namespace Given

/-- One more operand. -/
def addOperand (g : Given) (s : String) : Except Stop Given := do
  return { g with operand := ← once g.operand (givenPath s) }

/-- One more option with a value. -/
def addValue (g : Given) (name : OptionName) (s : String) : Except Stop Given := do
  match name with
  | .output => return { g with output := ← once g.output (givenPath s) }
  | .config => return { g with config := ← once g.config (givenPath s) }
  | .naming =>
    let policy := (NamingPolicy.ofLabel? s).elim (.error .misuse) .ok
    return { g with naming := ← once g.naming policy }
  | _ => throw .misuse

/-- One more option without a value. -/
def addFlag (g : Given) (name : OptionName) : Except Stop Given :=
  match name with
  | .noHeader => if g.noHeader then .error .misuse else .ok { g with noHeader := true }
  | .json => if g.json then .error .misuse else .ok { g with json := true }
  | .help => .error .help
  | _ => .error .misuse

end Given

/-- Whether an argument is an option or the end of options, so that it can be no value of an
option before it. A lone hyphen is neither. -/
def isOptionLike (s : String) : Bool :=
  match s.toList with
  | '-' :: _ :: _ => true
  | _ => false

/-- The value of an option that has none attached: the argument after it. -/
def nextValue : List String → Except Stop (String × List String)
  | [] => .error .misuse
  | s :: more => if isOptionLike s then .error .misuse else .ok (s, more)

/-- **An option in full**, without its hyphens, and the arguments left after it. -/
def readLong (verb : Verb) (g : Given) (body : List Char) (more : List String) :
    Except Stop (Given × List String) := do
  let name := String.ofList (body.takeWhile (· ≠ '='))
  match verb.options.find? (·.long = name), body.dropWhile (· ≠ '=') with
  | none, _ => throw .misuse
  | some option, _ :: attached =>
    if option.takesValue then return (← g.addValue option (String.ofList attached), more)
    else throw .misuse
  | some option, [] =>
    if option.takesValue then do
      let (value, more) ← nextValue more
      return (← g.addValue option value, more)
    else return (← g.addFlag option, more)

/-- **Options by letter**, without the hyphen, and the arguments left after them. What follows
the letter of an option with a value is that value, with or without an equals sign. -/
def readLetters (verb : Verb) (g : Given) : List Char → List String →
    Except Stop (Given × List String)
  | [], more => .ok (g, more)
  | c :: cs, more =>
    match verb.options.find? (·.letter? = some c) with
    | none => .error .misuse
    | some option =>
      if option.takesValue then
        match cs with
        | [] => do
          let (value, more) ← nextValue more
          return (← g.addValue option value, more)
        | '=' :: attached => do return (← g.addValue option (String.ofList attached), more)
        | attached => do return (← g.addValue option (String.ofList attached), more)
      else
        match g.addFlag option with
        | .ok g => readLetters verb g cs more
        | .error stop => .error stop

/-- **The arguments of a command**, from left to right. Each turn uses up at least one
argument, so as many turns as there are arguments are enough. -/
def readArguments (verb : Verb) : Nat → Given → List String → Except Stop Given
  | _, g, [] => .ok g
  | 0, _, _ :: _ => .error .misuse
  | turns + 1, g, s :: more =>
    match s.toList with
    | ['-', '-'] => more.foldlM Given.addOperand g
    | '-' :: '-' :: body => do
      let (g, more) ← readLong verb g body more
      readArguments verb turns g more
    | '-' :: c :: cs => do
      let (g, more) ← readLetters verb g (c :: cs) more
      readArguments verb turns g more
    | _ => do
      let g ← g.addOperand s
      readArguments verb turns g more

/-- **What a command line asks for.** -/
inductive Request where
  /-- Convert a folder. -/
  | convert (given : Given)
  /-- Print the declarations of a document. -/
  | print (file : Path) (given : Given)
  /-- Tell the version. -/
  | version
  /-- Tell how to use the tool. -/
  | help
deriving DecidableEq, Repr

/-- The request of a command with its arguments; printing needs an operand. -/
def requestOf (verb : Verb) (arguments : List String) : Option Request :=
  match readArguments verb arguments.length {} arguments with
  | .error .help => some .help
  | .error .misuse => none
  | .ok given =>
    match verb, given.operand with
    | .convert, _ => some (.convert given)
    | .print, some file => some (.print file given)
    | .print, none => none

/-- The request for help with commands by name. -/
def helpRequest : List String → Option Request
  | [] => some .help
  | [name] => if name = "help" ∨ (Verb.ofLabel? name).isSome then some .help else none
  | _ => none

/-- **The request of a command line**, or nothing if it is misused. -/
def request? : List String → Option Request
  | [] => none
  | first :: more =>
    match Verb.ofLabel? first with
    | some verb => requestOf verb more
    | none =>
      if first = "help" then helpRequest more
      else if first = "--version" then some .version
      else if first = "--help" then some .help
      else
        match first.toList with
        | '-' :: 'V' :: _ => some .version
        | '-' :: 'h' :: _ => some .help
        | _ => none

end SchemaTypings.Command
