import HeaderSurvey.Text.Split

/-! A directory with text files, as far as a command line sees it: names of files are paths from the
directory, and a path stands for a directory if some file lies below it. -/
namespace HeaderSurvey.CommandLine

/-- What a path leads to. -/
inductive FileEntry where
  | missing
  | directory
  /-- A file, with its text if it has one. -/
  | file (content : Option String)
  /-- What takes any text and gives back none. -/
  | sink
deriving DecidableEq, Repr

/-- The path of the sink, which is the same from every directory. -/
def sinkPath : String := "/dev/null"

structure Directory where
  files : List (String × String)
deriving DecidableEq, Repr

namespace Directory

/-- The names on a path, without those that stay in place. -/
def steps (path : String) : List String :=
  (Text.pieces '/' path).filter fun step => step != "" && step != "."

/-- Whether a place is the directory itself or one inside it that holds a file. -/
def isDirectory (d : Directory) (place : List String) : Bool :=
  place.isEmpty || d.files.any fun f =>
    place.length < (steps f.1).length && (steps f.1).take place.length == place

/-- The place that the steps lead to from another one. Nothing outside the directory is known, and
only a directory has one above it. -/
def walk? (d : Directory) : List String → List String → Option (List String)
  | place, [] => some place
  | place, step :: rest =>
    if step = ".." then
      if place.isEmpty || !d.isDirectory place then none else d.walk? place.dropLast rest
    else d.walk? (place ++ [step]) rest

/-- The place that a path stands for. -/
def place? (d : Directory) (path : String) : Option (List String) :=
  if path.toList.head? = some '/' then none else d.walk? [] (steps path)

def find? (d : Directory) (place : List String) : Option String :=
  (d.files.find? fun f => steps f.1 == place).map (·.2)

/-- Whether a path can only be that of a directory. -/
def namesDirectory (path : String) : Bool :=
  ["", ".", ".."].contains ((Text.pieces '/' path).getLastD "")

def entry (d : Directory) (path : String) : FileEntry :=
  match d.place? path with
  | none => if path = sinkPath then .sink else .missing
  | some place =>
    if d.isDirectory place then .directory
    else match d.find? place with
      | some content => if namesDirectory path then .missing else .file (some content)
      | none => .missing

/-- The directory after writing a file, if the path allows it. -/
def write? (d : Directory) (path content : String) : Option Directory :=
  match d.place? path with
  | none => if path = sinkPath then some d else none
  | some place =>
    if namesDirectory path || d.isDirectory place || !d.isDirectory place.dropLast then none
    else
      let others := d.files.filter fun f => steps f.1 != place
      some ⟨others ++ [(Text.join "/" place, content)]⟩

end Directory
end HeaderSurvey.CommandLine
