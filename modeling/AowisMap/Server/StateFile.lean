/-
How the provider state is written (`saveMapProvidersToState`,
`configuration.cpp`): what `/etc` is guarded from, the directories that are
made, and the file.

# What is the system's

The tree of files is `Lib.FileTree`, with what `QDir` and `QSaveFile` do to
it. Whatever else can fail (permissions, a full disk) fails where `Faults`
says so.
-/
import AowisMap.Lib.FileTree
import AowisMap.Server.Catalogue

namespace AowisMap.Server

open Lib
open Catalogue (Text MapProvider)

/-- What fails on its own, and what the output then says. -/
structure Faults where
  makePath : Bool
  opening : Bool
  permissions : Bool
  writing : Bool
  errorString : Text

/-- What a save leaves: the directories that it made, the tree with them,
that with the file, and the place of the file. -/
structure Saved where
  directories : List Place
  prepared : FileTree
  tree : FileTree
  file : Place

/-- `/etc`, or a text that starts with `/etc/`. -/
def underEtc (text : Text) : Bool :=
  text == "/etc".toList || "/etc/".toList.isPrefixOf text

/-- Whether a path is refused: its clean text, and the canonical one of its
directory as it is before anything is made. -/
def refusesPath (tree : FileTree) (path : Text) : Bool :=
  let absolute := Path.ofNames (tree.absoluteNames path)
  let canonicalParent := tree.canonicalPath path
  underEtc absolute || underEtc canonicalParent

/-- `saveMapProvidersToState`. -/
def saveMapProvidersToState (tree : FileTree) (faults : Faults)
    (path : Text) (providers : List MapProvider) : Except Text Saved :=
  if QString.trimmed path = [] then
    .error "No writable provider state path configured".toList
  else if refusesPath tree path then
    .error ("Provider state must not be written under /etc: ".toList ++ path)
  else
    let text := Catalogue.saveMapProvidersToState providers
    let directory := tree.absolutePath path
    match if faults.makePath then none else tree.makePath [] directory with
    | none =>
        .error ("Could not create provider state directory: ".toList ++
          Path.ofNames directory)
    | some (tree', directories) =>
        match if faults.opening then none else tree'.saveFile path text with
        | none => .error faults.errorString
        | some (tree'', file) =>
            if faults.permissions then
              .error ("Could not restrict provider state permissions: ".toList
                ++ faults.errorString)
            else if faults.writing then .error faults.errorString
            else .ok
              { directories
                prepared := tree'
                tree := tree''
                file }

end AowisMap.Server
