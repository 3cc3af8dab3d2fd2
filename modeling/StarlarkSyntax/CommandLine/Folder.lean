import StarlarkSyntax.CommandLine.Surroundings
/-!
# Folders

A folder as the list of the files in it and below it, for runs that read no disk. A path is followed
one step at a time: a dot stays in a directory, two dots go up from it, and anything else has to be
a file or a directory that has something in it. Above the folder there is only the directory that
holds it, in which nothing else can be found.
-/

set_option autoImplicit false

namespace StarlarkSyntax.CommandLine

/-- The names that lead from the folder to something in it. -/
abbrev Place := List (List Char)

/-- The files in a folder and below it. -/
structure Folder where
  files : List (Place × ByteArray) := []

namespace Folder

/-- The steps of a path. A slash at its end demands a directory, as a dot after it would. -/
def steps (path : List Char) : Place :=
  let steps := path.splitOn '/'
  let named := steps.filter fun step => step != [] && step != ['.']
  if steps.getLast? == some [] || steps.getLast? == some ['.'] then named ++ [['.']] else named

/-- The folder with one more file. -/
def add (folder : Folder) (path : String) (content : ByteArray) : Folder :=
  ⟨folder.files ++ [(steps path.toList, content)]⟩

/-- The file at a place. -/
def fileAt? (folder : Folder) (place : Place) : Option ByteArray :=
  (folder.files.find? fun (file, _) => file == place).map Prod.snd

/-- Is there a directory at a place? The folder is one, even without files. -/
def hasDirectory (folder : Folder) (place : Place) : Bool :=
  place == [] || folder.files.any fun (file, _) => place.isPrefixOf file && place != file

/-- Follows the steps of a path from a directory, which is given by the names that lead to it, the
last one first, and by how many directories it is above the folder. -/
def follow (folder : Folder) (above : Nat) (place : Place) :
    Place → Except ReadFailure ByteArray
  | [] => .error .isDirectory
  | step :: more =>
    if step == ['.'] then follow folder above place more
    else if step == ['.', '.'] then
      match place with
      | [] => follow folder (above + 1) [] more
      | _ :: place => follow folder above place more
    else if above != 0 then .error .noSuchFile
    else
      let place := step :: place
      if folder.hasDirectory place.reverse then follow folder above place more
      else
        match folder.fileAt? place.reverse with
        | none => .error .noSuchFile
        | some content => if more.isEmpty then .ok content else .error .notADirectory

/-- The bytes of the file at a path. -/
def file (folder : Folder) (path : String) : Except ReadFailure ByteArray :=
  match path.toList with
  | [] => .error .noSuchFile
  | '/' :: path => if (steps path).all (· == ['.']) then .error .isDirectory else .error .noSuchFile
  | path => follow folder 0 [] (steps path)

end Folder
end StarlarkSyntax.CommandLine
