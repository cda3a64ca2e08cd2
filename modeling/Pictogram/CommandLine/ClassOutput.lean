import Pictogram.Compile.Options
import Pictogram.Host

/-!
# Writing class files
-/

namespace Pictogram
namespace CommandLine

variable {m : Type → Type} [Monad m] [Host m]

/-- Goes on with a result, or is given up with what was tried and why it
failed. -/
def orGiveUp {α : Type} (attempt : String) : Except FileFault α → ExceptT String m α
  | .ok value => pure value
  | .error fault => throw (attempt ++ ": " ++ fault.describe)

/-- Writes a class below a directory, in the directories of its packages; gives
the file written. -/
def writeClass (root : Path) (options : Compile.Options) (bytes : List UInt8) :
    ExceptT String m Path := do
  let target := root.push options.classFilePath
  if let some parent := target.parent? then
    orGiveUp s!"failed to create {parent.text}" (← Host.makeDirectories parent)
  orGiveUp s!"failed to write {target.text}" (← Host.writeBytes target ⟨bytes.toArray⟩)
  return target

end CommandLine
end Pictogram
