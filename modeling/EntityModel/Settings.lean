import EntityModel.Json.Decoder
import EntityModel.Registry
import EntityModel.Text.Blank
import EntityModel.Toml.Reader

/-!
# Settings

What can be set about models, resolution and logging. Settings are read from a TOML document, in
which every section and every entry may be left out, and checked when they have been read.
-/

namespace EntityModel

structure Settings where
  /-- The namespace of a model that declares none. -/
  defaultNameSpace : Option String
  memoizeComplete : Bool
  narrowReferences : Bool
  logLevel : String
  deriving DecidableEq, Repr

inductive SettingsError where
  | fileNotFound (path : String)
  | unreadable (reason : String)
  | malformed
  | unknownLevel (level : String)
  | blankNameSpace
  deriving DecidableEq, Repr

namespace Settings

def default : Settings := ⟨none, true, true, "info"⟩

instance : Inhabited Settings := ⟨default⟩

def levels : List String := ["trace", "debug", "info", "warn", "error"]

def resolveOptions (s : Settings) : ResolveOptions := ⟨s.narrowReferences⟩

def modelDecoder : Decoder (Option String) := .openRecord (.string? "default_namespace")

def resolutionDecoder : Decoder (Bool × Bool) :=
  .openRecord <| Prod.mk <$> .orElse "memoize_complete" .bool default.memoizeComplete <*>
    .orElse "narrow_entity_references" .bool default.narrowReferences

def loggingDecoder : Decoder String := .openRecord (.orElse "level" .string default.logLevel)

def decoder : Decoder Settings :=
  .openRecord <| (fun name (memoize, narrow) level => ⟨name, memoize, narrow, level⟩) <$>
    .orElse "model" modelDecoder default.defaultNameSpace <*>
    .orElse "resolution" resolutionDecoder (default.memoizeComplete, default.narrowReferences) <*>
    .orElse "logging" loggingDecoder default.logLevel

/-- A level is known in any mix of capitals, and a namespace holds more than blanks. -/
def check (s : Settings) : Except SettingsError Settings :=
  if s.logLevel.toLower ∉ levels then .error (.unknownLevel s.logLevel)
  else if s.defaultNameSpace.any fun name => name.toList.all Text.isBlank then
    .error .blankNameSpace
  else .ok s

def ofToml (text : String) : Except SettingsError Settings :=
  match Toml.parse text with
  | none => .error .malformed
  | some json =>
    match Decoder.ofJson decoder json with
    | .ok s => s.check
    | .error _ => .error .malformed

end Settings

def SettingsError.message : SettingsError → String
  | fileNotFound path => s!"Config file not found: {path}"
  | unreadable reason => s!"Failed to read config file: {reason}"
  | malformed => "Failed to parse config file: not a settings document"
  | unknownLevel level =>
    s!"Invalid configuration: unknown logging level '{level}', expected one of " ++
      ", ".intercalate Settings.levels
  | blankNameSpace => "Invalid configuration: default_namespace must not be blank"

end EntityModel
