import LiveCheck.Text.Digit
import LiveCheck.Text.Quoted

/-!
# Command-line arguments

The command line takes one file and four options. A long option may be cut short as long as it stays
clear which one is meant, and has its value after an equals sign or in the next argument; short
options may be bundled behind one dash. What follows two dashes is no option, and neither are a lone
dash, a negative number, and an unknown option with a space in it.

The arguments are first told apart into tokens, then taken from left to right. Help, as soon as it
is reached, ends everything; arguments that find no use are complained about in the end.
-/

namespace LiveCheck

namespace CommandLine

/-- An option. -/
inductive Flag
  | help
  | once
  | compiler
  | verbose
  deriving DecidableEq, Repr

/-- The spellings of an option, each with its dashes. -/
def spellings : List (Text × Flag) := [
  ("-h".toList, .help), ("--help".toList, .help), ("--once".toList, .once),
  ("--compiler".toList, .compiler), ("-v".toList, .verbose), ("--verbose".toList, .verbose)]

/-- What an option is called in a complaint. -/
def Flag.title : Flag → String
  | help => "-h/--help"
  | once => "--once"
  | compiler => "--compiler"
  | verbose => "-v/--verbose"

/-- An option as it was given. -/
structure GivenOption where
  /-- The option that is meant. -/
  flag : Flag
  /-- Is it spelled with one dash? -/
  short : Bool
  /-- The value that is part of the same argument. -/
  value : Option Text
  deriving DecidableEq, Repr

/-- What an argument is. -/
inductive Token
  /-- Two dashes. -/
  | dashes
  /-- Not an option. -/
  | plain (text : Text)
  /-- An option. -/
  | option (given : GivenOption)
  /-- It looks like an option, but none is meant. -/
  | unknown (text : Text)
  deriving DecidableEq, Repr

/-- What is wrong with a command line. -/
inductive Complaint
  /-- Several options may be meant. -/
  | ambiguous (argument : Text) (matching : List Text)
  /-- An option has a value that it does not take. -/
  | unwantedValue (flag : Flag) (value : Text)
  /-- An option lacks its value. -/
  | missingValue (flag : Flag)
  /-- Arguments found no use. -/
  | unrecognized (arguments : List Text)
  deriving DecidableEq, Repr

/-- The words for a complaint. -/
def Complaint.message : Complaint → String
  | ambiguous argument matching =>
    let all := Text.join ", ".toList matching
    s!"ambiguous option: {argument} could match {all}"
  | unwantedValue flag value =>
    s!"argument {flag.title}: ignored explicit argument {Text.quoted value}"
  | missingValue flag => s!"argument {flag.title}: expected one argument"
  | unrecognized arguments =>
    let all := Text.join " ".toList arguments
    s!"unrecognized arguments: {all}"

/-- Does the text look like a negative number? A line feed at its end does no harm. -/
def isNegativeNumber (text : Text) : Bool :=
  match text with
  | '-' :: rest =>
    let rest := if rest.getLast? = some '\n' then rest.dropLast else rest
    let fraction := rest.dropWhile isDecimalDigit
    match fraction with
    | [] => !rest.isEmpty
    | '.' :: digits => !digits.isEmpty && digits.all isDecimalDigit
    | _ => false
  | _ => false

/-- The part of an argument before its first equals sign, and what follows the sign. -/
def splitValue (argument : Text) : Text × Option Text :=
  let name := argument.takeWhile (· ≠ '=')
  match argument.dropWhile (· ≠ '=') with
  | [] => (name, none)
  | _ :: value => (name, some value)

/-- The options that a shortened or bundled argument may mean, with their spellings. -/
def candidates (argument : Text) : List (Text × GivenOption) :=
  match argument with
  | '-' :: '-' :: _ =>
    let (name, value) := splitValue argument
    (spellings.filter fun s => name.isPrefixOf s.1).map fun s =>
      (s.1, ⟨s.2, false, value⟩)
  | _ =>
    (spellings.filter fun s => s.1 = argument.take 2).map fun s =>
      (s.1, ⟨s.2, true, some (argument.drop 2)⟩)

/-- Is the spelling one with a single dash? -/
def isShort (spelling : Text) : Bool := spelling.length = 2

/-- Tells what an argument is. -/
def tokenOf (argument : Text) : Except Complaint Token :=
  match argument with
  | '-' :: _ :: _ =>
    match spellings.find? (·.1 = argument) with
    | some s => .ok (.option ⟨s.2, isShort s.1, none⟩)
    | none =>
      let (name, value) := splitValue argument
      match value, spellings.find? (·.1 = name) with
      | some value, some s => .ok (.option ⟨s.2, isShort s.1, some value⟩)
      | _, _ =>
        match candidates argument with
        | [c] => .ok (.option c.2)
        | [] =>
          .ok (if isNegativeNumber argument || argument.contains ' ' then .plain argument
            else .unknown argument)
        | cs => .error (.ambiguous argument (cs.map (·.1)))
  | _ => .ok (.plain argument)

/-- Tells what the arguments are. -/
def tokens : List Text → Except Complaint (List Token)
  | [] => .ok []
  | argument :: rest =>
    if argument = ['-', '-'] then .ok (.dashes :: rest.map .plain)
    else do
      let token ← tokenOf argument
      return token :: (← tokens rest)

/-- What is given for an option that takes a value. -/
inductive Given
  /-- A text. -/
  | text (text : Text)
  /-- Two dashes, which leave nothing. -/
  | nothing
  deriving DecidableEq, Repr

/-- What a text gives. -/
def Given.ofText (text : Text) : Given := if text = ['-', '-'] then nothing else .text text

/-- What the command line asks for. -/
structure Request where
  /-- The file. -/
  file : Option Text := none
  /-- Is it to be checked once? -/
  once : Bool := false
  /-- The compiler that is to be used. -/
  compiler : Option Given := none
  /-- Is everything to be logged? -/
  verbose : Bool := false
  deriving DecidableEq, Repr

/-- How far the arguments were taken. -/
structure Taking where
  /-- What they ask for so far. -/
  request : Request := {}
  /-- Was there an argument for the file? -/
  fileTaken : Bool := false
  /-- The arguments that found no use. -/
  unused : List Text := []
  deriving DecidableEq, Repr

/-- Why the taking of arguments ends early. -/
inductive Stop
  /-- Help was asked for. -/
  | help
  /-- Something is wrong. -/
  | complaint (complaint : Complaint)
  deriving DecidableEq, Repr

namespace Taking

/-- Takes options that need no value. -/
def takeFlags (t : Taking) : List Flag → Except Stop Taking
  | [] => .ok t
  | .help :: _ => .error .help
  | .once :: rest => takeFlags { t with request := { t.request with once := true } } rest
  | .verbose :: rest => takeFlags { t with request := { t.request with verbose := true } } rest
  | .compiler :: rest => takeFlags t rest

/-- Leaves an argument unused. -/
def leave (t : Taking) (argument : Text) : Taking := { t with unused := t.unused ++ [argument] }

/-- Takes the option given last in a bundle whose rest is still to be read, after the options before
    it. -/
def takeBundle (t : Taking) (before : List Flag) (flag : Flag) : Text → Except Stop Taking
  | [] => t.takeFlags (before ++ [flag])
  | c :: rest =>
    match spellings.find? (·.1 = ['-', c]) with
    | some s => takeBundle t (before ++ [flag]) s.2 rest
    | none => .error (.complaint (.unwantedValue flag (c :: rest)))

/-- Takes what is given for the compiler. -/
def takeCompiler (t : Taking) (value : Text) : Taking :=
  { t with request := { t.request with compiler := some (.ofText value) } }

/-- Takes an option that has a value in the same argument. The value of a short option that takes
    none is the rest of a bundle. -/
def takeValued (t : Taking) (given : GivenOption) (value : Text) : Except Stop Taking :=
  if given.flag = .compiler then .ok (t.takeCompiler value)
  else if given.short ∧ value ≠ [] then t.takeBundle [] given.flag value
  else .error (.complaint (.unwantedValue given.flag value))

/-- Takes the argument for the file. -/
def takeFile (t : Taking) (file : Option Text) : Taking :=
  { t with request := { t.request with file }, fileTaken := true }

/-- Takes tokens from left to right. -/
def takeAll (t : Taking) : List Token → Except Stop Taking
  | [] => .ok t
  | .unknown text :: rest => takeAll (t.leave text) rest
  | .option given :: rest =>
    match given.value with
    | some value => do takeAll (← t.takeValued given value) rest
    | none =>
      if given.flag = .compiler then
        match rest with
        | .plain value :: rest =>
          takeAll (t.takeCompiler value) rest
        | _ => .error (.complaint (.missingValue .compiler))
      else do takeAll (← t.takeFlags [given.flag]) rest
  | .dashes :: rest =>
    if t.fileTaken then takeAll (t.leave ['-', '-']) rest
    else
      match rest with
      | .plain file :: rest => takeAll (t.takeFile (some file)) rest
      | rest => takeAll (t.takeFile none) rest
  | .plain text :: rest =>
    if t.fileTaken then takeAll (t.leave text) rest
    else
      match rest with
      | .dashes :: rest => takeAll (t.takeFile (some text)) rest
      | rest => takeAll (t.takeFile (some text)) rest

end Taking

/-- Reads a command line. -/
def readArguments (arguments : List Text) : Except Stop Request :=
  match tokens arguments with
  | .error complaint => .error (.complaint complaint)
  | .ok found => do
    let t ← ({} : Taking).takeAll found
    if t.unused.isEmpty then return t.request
    else throw (.complaint (.unrecognized t.unused))

/-- The line that shows how the program is called. -/
def usageLine : String := "usage: gamscheck [-h] [--once] [--compiler COMPILER] [-v] [file]\n"

/-- The text that help shows. -/
def helpText : String :=
  usageLine ++ "\n" ++
  "gamscheck: on-the-fly GAMS compiler diagnostics\n" ++ "\n" ++
  "positional arguments:\n" ++
  "  file                 GAMS source file to check\n" ++ "\n" ++
  "options:\n" ++
  "  -h, --help           show this help message and exit\n" ++
  "  --once               Check the file once and print the diagnostics\n" ++
  "  --compiler COMPILER  Compiler command (overrides the configured one)\n" ++
  "  -v, --verbose        Log debug output\n"

/-- The text of a complaint. -/
def complaintText (c : Complaint) : String :=
  usageLine ++ s!"gamscheck: error: {c.message}\n"

/-- The exit status after help, and after a complaint. -/
def Stop.status : Stop → Int
  | help => 0
  | complaint _ => 2

end CommandLine

end LiveCheck
