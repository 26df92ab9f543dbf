import ArithTree.Settings.Store

/-!
# Required files

During development the program makes sure, before its window is opened, that the files it is made
of are in their places, and names those that are missing.

* `missing` : the required files that are not among the given ones.
-/

namespace ArithTree.CommandLine

/-- The directory of the modules. -/
def modulesDirectory : String := "ExprTree"

/-- The names of the modules. -/
def moduleFiles : List String :=
  ["__init__.py", "error.py", "UI.py", "ParseEngine.py", "TermScanner.py", "TermValidator.py",
    "ShuntingYard.py", "TreeReducer.py", "TreeRenderer.py", "config_manager.py"]

/-- The names of the files beside that directory. -/
def dataFiles : List String := [Settings.Store.settingsFile, Settings.Store.descriptionsFile]

/-- The required files: the path of each, and its name. -/
def requiredFiles : List (String × String) :=
  moduleFiles.map (fun name => (Settings.Store.pathIn modulesDirectory name, name)) ++
    dataFiles.map fun name => (name, name)

/-- Whether a path is there, as a file or as a directory that holds one. -/
def isThere (present : List String) (path : String) : Bool :=
  present.any fun file => file = path || (path ++ "/").toList.isPrefixOf file.toList

/-- The names of the required files that are not there. -/
def missing (present : List String) : List String :=
  (requiredFiles.filter fun (path, _) => !isThere present path).map Prod.snd

/-- The message about missing files; none if there are none. -/
def missingMessage? (present : List String) : Option String :=
  match missing present with
  | [] => none
  | names =>
    some (String.join
      ("Error 1000: The following files are missing or in the wrong location:\n" ::
        names.map fun name => "- " ++ name ++ "\n"))

end ArithTree.CommandLine
