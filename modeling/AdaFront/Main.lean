import AdaFront.CommandLine.Response

namespace AdaFront.CommandLine

/-- The system's number for a failed file operation, with its words. Some operations give the number
negated. -/
def errorNumber (error : IO.Error) : Option (Nat × String) :=
  match error with
  | .noFileOrDirectory _ code details | .permissionDenied _ code details
  | .inappropriateType _ code details | .alreadyExists _ code details
  | .resourceExhausted _ code details | .invalidArgument _ code details =>
    some (if code < 0x80000000 then code.toNat else (0 - code).toNat, details)
  | _ => none

def fileReason (error : IO.Error) : String :=
  match errorNumber error with
  | some (2, _) => FileError.notFound.message
  | some (20, _) => FileError.notDirectory.message
  | some (21, _) => FileError.isDirectory.message
  | some (36, _) => FileError.nameTooLong.message
  | some (number, details) => details ++ " (os error " ++ toString number ++ ")"
  | none => toString error

def writeResponse (response : Response) : IO UInt32 := do
  let stdout ← IO.getStdout
  stdout.write ⟨response.stdout.toArray⟩
  stdout.flush
  IO.eprint response.stderr
  return UInt32.ofNat response.exit

def readSource (name : String) : IO (Except String String) := do
  try
    let content ← IO.FS.readBinFile name
    return match Text.ofBytes? content.data.toList with
      | some source => .ok source
      | none => .error FileError.notText.message
  catch error => return .error (fileReason error)

/-- Reads the source, then makes the output file, then compiles. -/
def runOptions (options : Options) : IO UInt32 := do
  match ← readSource options.file with
  | .error reason => writeResponse (options.unreadable reason)
  | .ok source =>
    let some output := options.output | writeResponse (options.compilePlain .whole source)
    try
      IO.FS.writeBinFile output ByteArray.empty
    catch error => return ← writeResponse (Options.unwritable output (fileReason error))
    let (response, content) := options.compileMirrored .whole source
    IO.FS.writeBinFile output ⟨content.toArray⟩
    writeResponse response

end AdaFront.CommandLine

open AdaFront.CommandLine in
def main (arguments : List String) : IO UInt32 :=
  match Request.ofArguments arguments with
  | .run options => runOptions options
  | .version => writeResponse versionResponse
  | .misuse => writeResponse misuseResponse
