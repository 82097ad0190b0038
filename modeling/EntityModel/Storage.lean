import EntityModel.Model.Source
import EntityModel.Settings

/-!
# Files

Models and settings are kept in files. What is found at a path is told by a function `look`, so that
loading itself does not depend on where files come from.
-/

namespace EntityModel

/-- What is found at a path. -/
inductive FileState where
  | absent
  /-- Something is there that cannot be read. -/
  | unreadable (reason : String)
  | content (bytes : ByteArray)

/-- The text of what has been found, or the reason why it has none; `none` when nothing was. -/
def FileState.text? : FileState → Option (Except String String)
  | absent => none
  | unreadable reason => some (.error reason)
  | content bytes =>
    match String.fromUTF8? bytes with
    | some s => some (.ok s)
    | none => some (.error "stream did not contain valid UTF-8")

namespace Storage

/-- The last part of a path, unless that is a step up. -/
def fileName? (path : String) : Option String :=
  match ((path.splitOn "/").filter fun part => part ≠ "" && part ≠ ".").getLast? with
  | some ".." => none
  | name => name

/-- What stands behind the last point of the file name, where something stands before it. -/
def extension (path : String) : String :=
  match fileName? path with
  | none => ""
  | some name =>
    let parts := name.splitOn "."
    if parts.length ≤ 1 ∨ parts.dropLast = [""] then "" else parts.getLast?.getD ""

def join (dir name : String) : String :=
  if dir = "" then name else if dir.endsWith "/" then dir ++ name else dir ++ "/" ++ name

end Storage

/-- Why a model could not be loaded. -/
inductive LoadError where
  | fileNotFound (path : String)
  | unsupportedExtension (extension : String)
  | unreadable (reason : String)
  | json (err : JsonError)
  | model (err : ModelError)

def JsonError.describe : JsonError → String
  | malformed => "the text is not JSON"
  | truncated => "the text ends too early"
  | mismatched => "the text does not declare a model"

def LoadError.message : LoadError → String
  | fileNotFound path => s!"File not found: {path}"
  | unsupportedExtension extension =>
    s!"Unsupported file extension: {extension}. Supported: .json"
  | unreadable reason => s!"IO error: {reason}"
  | json err => s!"JSON error: {err.describe}"
  | model err => s!"Invalid model: {err.message}"

namespace Model

def ofText (text : String) : Except LoadError Model :=
  match ModelSource.ofText text with
  | .error err => .error (.json err)
  | .ok source =>
    match source.load with
    | .error err => .error (.model err)
    | .ok m => .ok m

def ofFile (path : String) (file : FileState) : Except LoadError Model :=
  match file.text? with
  | none => .error (.fileNotFound path)
  | some found =>
    if Storage.extension path = "json" then
      match found with
      | .ok text => ofText text
      | .error reason => .error (.unreadable reason)
    else .error (.unsupportedExtension (Storage.extension path))

end Model

namespace Settings

def fileName : String := "strata.toml"

/-- The variable of the environment that names a settings file. -/
def variableName : String := "STRATA_CONFIG"

/-- The settings in what has been found at a path, if anything was. -/
def ofFile? (file : FileState) : Option (Except SettingsError Settings) :=
  file.text?.map fun found =>
    match found with
    | .ok text => ofToml text
    | .error reason => .error (.unreadable reason)

variable {m : Type → Type} [Monad m] (look : String → m FileState)

def load (path : String) : m (Except SettingsError Settings) :=
  return (ofFile? (← look path)).getD (.error (.fileNotFound path))

/-- The settings of the file that the environment names, else of the file in a directory, else the
defaults. -/
def discover (named : Option String) (dir : String) : m (Except SettingsError Settings) :=
  match named with
  | some path => load look path
  | none => return (ofFile? (← look (Storage.join dir fileName))).getD (.ok default)

end Settings

end EntityModel
