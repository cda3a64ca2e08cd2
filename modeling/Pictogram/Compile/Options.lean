import Pictogram.Path

/-!
# Names of a class

A class is named by parts between points: the packages from the outside in,
then its simple name.
-/

namespace Pictogram
namespace Compile

/-- How a class is to be named. -/
structure Options where
  /-- The name of the class with its packages. -/
  className : String
  /-- The name of the source file, if it is not to follow from the class. -/
  sourceFile : Option String
  deriving DecidableEq, Repr

namespace Options

/-- The name of a class that is given none. -/
def defaultClassName : String := "EmojinMain"

/-- Options for a class by its name alone. -/
def ofClassName (className : String) : Options := ⟨className, none⟩

/-- Options for a class that is given no name. -/
def default : Options := ofClassName defaultClassName

/-- The parts of the class name. -/
def parts (options : Options) : List (List Char) :=
  Text.split '.' options.className.toList

/-- The class name with slashes for its points, as a class holds it. -/
def internalName (options : Options) : String :=
  String.ofList (options.className.toList.map fun character =>
    if character = '.' then '/' else character)

/-- The class name without its packages. -/
def simpleName (options : Options) : String :=
  String.ofList (options.parts.getLast?.getD [])

/-- The name of the source file that the class states. -/
def statedSource (options : Options) : String :=
  options.sourceFile.getD (options.simpleName ++ ".java")

/-- The name of the file that holds the class. -/
def classFileName (options : Options) : String :=
  options.simpleName ++ ".class"

/-- The path of the file that holds the class: a directory for each package. -/
def classFilePath (options : Options) : Path :=
  let start : Path := ⟨""⟩
  let place := options.parts.foldl (fun path part => path.push ⟨String.ofList part⟩) start
  place.withFileName options.classFileName

/-- The name of a class that is named after the file of its source: what is not
a letter or a digit becomes an underscore, and the first letter is a capital. -/
def classNameOf (path : Path) : String :=
  let letters := (path.stem?.getD "").toList.map fun character =>
    if character.isAlphanum then character else '_'
  match letters with
  | [] => defaultClassName
  | first :: rest =>
    if first.isDigit then String.ofList ('_' :: first :: rest)
    else String.ofList (first.toUpper :: rest)

end Options
end Compile
end Pictogram
