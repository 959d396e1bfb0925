import AdaFront.CommandLine.Console
import AdaFront.CommandLine.FileTree
import AdaFront.CommandLine.Options
import AdaFront.Compilation

namespace AdaFront.CommandLine

/-- What a run of the program shows. -/
structure Response where
  exit : Nat
  stdout : List UInt8
  stderr : String
deriving DecidableEq, Repr, Inhabited

def versionResponse : Response :=
  ⟨0, Text.lineBytes "tinyada 0.1.0", ""⟩

def misuseResponse : Response :=
  ⟨2, [], "usage error"⟩

namespace Options

/-- The log shows warnings, and more with each request for detail. -/
def threshold (options : Options) : Severity :=
  match options.debug with
  | 0 => .warn
  | 1 => .info
  | 2 => .debug
  | _ => .trace

def unreadable (options : Options) (reason : String) : Response :=
  ⟨2, [], "E: invalid filepath or faulty file: " ++ options.file ++ " (" ++ reason ++ ")\n"⟩

def unwritable (output reason : String) : Response :=
  ⟨1, [], "Error: failed to create output file Some(" ++ Text.quotedText output ++
    ")\n\nCaused by:\n    " ++ reason ++ "\n"⟩

/-- Compiles a source. Each line is written through the writer of its channel, in the order of writing. -/
def compile (options : Options) (intake : Intake) (source : String) (tees : Tees) (console : Console) :
    Response × Console :=
  let compilation := Compilation.ofSource source
  let records := (compilation.delivery Sinks.reliable options.verbose).recordsAt options.threshold
  let after := (compilation.lines options.verbose).foldl (tees.writeLine intake) console
  ({ exit := if compilation.summary.clean then 0 else 1
     stdout := after.stdout
     stderr := String.join (records.map fun record => record.description ++ "\n") }, after)

/-- Compiles a source without an output file. -/
def compilePlain (options : Options) (intake : Intake) (source : String) : Response :=
  (options.compile intake source (.sharing none) .start).1

/-- Compiles a source when the output file has been created. The second part of the answer is what the file
holds in the end. -/
def compileMirrored (options : Options) (intake : Intake) (source : String) : Response × List UInt8 :=
  let (handle, console) := Console.start.create
  let (response, after) := options.compile intake source (.sharing (some handle)) console
  (response, after.content handle)

/-- Reads the source before the output file is created, and creates it before anything is compiled. -/
def run (options : Options) (intake : Intake) (tree : FileTree) : Response × FileTree :=
  match tree.readText options.file with
  | .error error => (options.unreadable error.message, tree)
  | .ok source =>
    match options.output with
    | none => (options.compilePlain intake source, tree)
    | some output =>
      match tree.writable output with
      | .error error => (unwritable output error.message, tree)
      | .ok path =>
        let created := tree.put path []
        let (response, content) := options.compileMirrored intake source
        (response, created.put path content)

end Options

/-- Answers a command line in a working directory while standard output takes bytes in its way. -/
def respondThrough (intake : Intake) (arguments : List String) (tree : FileTree) : Response × FileTree :=
  match Request.ofArguments arguments with
  | .run options => options.run intake tree
  | .version => (versionResponse, tree)
  | .misuse => (misuseResponse, tree)

/-- Answers a command line in a working directory. -/
def respond (arguments : List String) (tree : FileTree) : Response × FileTree :=
  respondThrough .whole arguments tree

end AdaFront.CommandLine
