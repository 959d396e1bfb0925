import Mathlib.Control.Monad.Basic
import AdaFront.CommandLine.Response
import AdaFront.Proofs.FileTrees
import AdaFront.Proofs.Verbosity

namespace AdaFront

namespace Delivery

end Delivery

namespace Compilation

variable (compilation : Compilation) (verbose : Bool)

end Compilation

namespace CommandLine

/-- The file of the handle holds what standard output has shown, and is written to at its end. -/
def Console.Mirrors (console : Console) (handle : Handle) : Prop :=
  ∃ file, console.opened[handle]? = some file ∧ file.content = console.stdout ∧
    file.offset = file.content.length

namespace Tee

variable {intake : Intake} {tee : Tee} {console : Console} {handle : Handle}

end Tee

namespace Tees

variable {intake : Intake}

end Tees

namespace Options

variable (options : Options) (intake : Intake) (source : String)

section Run

variable {options : Options} {tree : FileTree} {source output : String}

variable (read : tree.read options.file = .ok (Text.bytes source))

include read

end Run

end Options

end CommandLine

end AdaFront
