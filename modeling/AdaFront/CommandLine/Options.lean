namespace AdaFront.CommandLine

/-- What the command line asks for. -/
structure Options where
  file : String
  verbose : Bool
  output : Option String
  /-- How often more detail in the log was asked for. -/
  debug : Nat
deriving DecidableEq, Repr, Inhabited

inductive Request where
  | run (options : Options)
  | version
  | misuse
deriving DecidableEq, Repr, Inhabited

/-- The options met so far. -/
structure Draft where
  file : Option String
  verbose : Bool
  output : Option String
  debug : Nat
deriving DecidableEq, Repr, Inhabited

/-- How far the arguments have been read: an option may wait for its value, and behind `--` there
are only values. -/
inductive Progress where
  | options (draft : Draft)
  | awaiting (draft : Draft)
  | values (draft : Draft)
  | version
  | misuse
deriving DecidableEq, Repr, Inhabited

namespace Draft

def empty : Draft := ⟨none, false, none, 0⟩

/-- A single dash is an ordinary value. -/
def isDashed (argument : String) : Bool :=
  argument.startsWith "-" && argument != "-"

/-- Takes the one file, which has a name. -/
def setFile (draft : Draft) (name : String) (next : Draft → Progress) : Progress :=
  if draft.file.isSome || name.isEmpty then .misuse else next { draft with file := some name }

/-- The output can be set once, to a name. -/
def setOutput (draft : Draft) (name : String) : Progress :=
  if draft.output.isSome || name.isEmpty then .misuse
  else .options { draft with output := some name }

def setVerbose (draft : Draft) (next : Draft → Progress) : Progress :=
  if draft.verbose then .misuse else next { draft with verbose := true }

def raiseDebug (draft : Draft) : Draft :=
  { draft with debug := draft.debug + 1 }

/-- One-letter options that share a dash. What follows an `o` is its value. -/
def letters (draft : Draft) : List Char → Progress
  | [] => .options draft
  | 'v' :: rest => draft.setVerbose fun after => after.letters rest
  | 'd' :: rest => draft.raiseDebug.letters rest
  | 'V' :: _ => .version
  | 'o' :: [] => .awaiting draft
  | 'o' :: '=' :: value => draft.setOutput (String.ofList value)
  | 'o' :: value => draft.setOutput (String.ofList value)
  | _ => .misuse

/-- An option with a long name, of which the value may follow behind an equals sign. -/
def long (draft : Draft) (name : String) (value : Option String) : Progress :=
  match name, value with
  | "verbose", none => draft.setVerbose .options
  | "debug", none => .options draft.raiseDebug
  | "version", none => .version
  | "output", none => .awaiting draft
  | "output", some value => draft.setOutput value
  | _, _ => .misuse

/-- Splits a text at its first equals sign. -/
def splitValue (text : List Char) : String × Option String :=
  let name := text.takeWhile (· != '=')
  match text.drop name.length with
  | [] => (String.ofList name, none)
  | _ :: value => (String.ofList name, some (String.ofList value))

/-- An argument in a place where an option can stand. -/
def argument (draft : Draft) (text : String) : Progress :=
  if isDashed text then
    match text.toList with
    | ['-', '-'] => .values draft
    | '-' :: '-' :: option => let (name, value) := splitValue option; draft.long name value
    | _ :: letters => draft.letters letters
    | [] => .misuse
  else draft.setFile text .options

end Draft

namespace Progress

def step (progress : Progress) (argument : String) : Progress :=
  match progress with
  | options draft => draft.argument argument
  | awaiting draft => if Draft.isDashed argument then misuse else draft.setOutput argument
  | values draft => draft.setFile argument values
  | version => version
  | misuse => misuse

/-- A run needs its file, and an option its value. -/
def request : Progress → Request
  | options draft | values draft =>
    match draft.file with
    | some file => .run ⟨file, draft.verbose, draft.output, draft.debug⟩
    | none => .misuse
  | awaiting _ | misuse => .misuse
  | version => .version

end Progress

/-- Reads the arguments from left to right. The first that asks for the version or is wrong decides. -/
def Request.ofArguments (arguments : List String) : Request :=
  (arguments.foldl Progress.step (.options Draft.empty)).request

end AdaFront.CommandLine
