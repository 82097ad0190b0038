import EntityModel.Json.Printer
import EntityModel.Schema
import EntityModel.Storage
import EntityModel.View

/-!
# The command line

A command reads a model, and settings where there are any, and reports: it validates the model, or
lists its entities, or resolves them. A report is what goes to either output and the exit code.
-/

namespace EntityModel.CommandLine

inductive Command where
  | validate (file : String)
  | list (file : String)
  | resolve (file : String) (entity : Option String)
  deriving DecidableEq, Repr

def Command.file : Command → String
  | validate file => file
  | list file => file
  | resolve file _ => file

structure Report where
  output : String
  errors : String
  exitCode : UInt8
  deriving DecidableEq, Repr

namespace Report

def success (lines : List String) : Report := ⟨String.join (lines.map (· ++ "\n")), "", 0⟩

def failure (lines : List String) : Report := ⟨"", String.join (lines.map (· ++ "\n")), 1⟩

end Report

def invalidModel (err : ModelError) : Report := .failure [s!"Invalid model: {err.message}"]

def validate (file : String) (m : Model) (settings : Settings) : Report :=
  match m.registry.problems with
  | [] =>
    match m.build settings with
    | .error err => invalidModel err
    | .ok schema =>
      let count := schema.entities.length
      let hash := Digest.short schema.contentHash
      .success [s!"✓ {file} is valid ({count} entities, hash {hash})"]
  | errors =>
    let count := errors.length
    .failure (s!"{count} problem(s) in {file}:" :: errors.map fun err => s!"  - {err.message}")

def listLine (schema : Schema) (e : Entity) : Except ModelError String := do
  let fragments ← schema.registry.effectiveFragments e
  let base := match e.base with
    | some base => s!" : {base}"
    | none => ""
  let disabled := if e.disabled then " (disabled)" else ""
  let properties := e.properties.length
  let tables := fragments.length
  return s!"  - {e.id}{base} [{properties} properties, {tables} fragments]{disabled}"

/-- The lines of entities up to the first that has none, and the error of that one. -/
def listLines (schema : Schema) : List Entity → List String × Option (Entity × ModelError)
  | [] => ([], none)
  | e :: rest =>
    match listLine schema e with
    | .error err => ([], some (e, err))
    | .ok line =>
      let (lines, failed) := listLines schema rest
      (line :: lines, failed)

def list (file : String) (m : Model) (settings : Settings) : Report :=
  match m.build settings with
  | .error err => invalidModel err
  | .ok schema =>
    let nameSpace := schema.nameSpace.toList.map fun name => s!"Namespace: {name}"
    let title := s!"File: {file}" :: nameSpace ++ [""]
    if schema.entities.isEmpty then .success (title ++ ["No entities defined."])
    else
      let (lines, failed) := listLines schema schema.entities
      let listed := Report.success (title ++ "Entities:" :: lines)
      match failed with
      | none => listed
      | some (e, err) =>
        { listed with
          errors := s!"Error resolving '{e.id}': {err.message}\n"
          exitCode := 1 }

def resolvedJson (v : EntityView) : Except ModelError Json := do
  let complete ← v.registry.complete v.entity.id
  let relations ← v.relations false
  let selfRelations ← v.selfRelations false
  let hasSingleKey ← v.hasSingleKey
  return .obj [("namespace", .ofString? v.nameSpace), ("complete", complete.toJson),
    ("relations", .ofList BinaryRelation.toJson relations),
    ("self_relations", .ofList SelfRelation.toJson selfRelations),
    ("has_single_pk", .bool hasSingleKey)]

def resolve (entity : Option String) (m : Model) (settings : Settings) : Report :=
  match m.build settings with
  | .error err => invalidModel err
  | .ok schema =>
    let r := schema.registry
    let ids : List String := match entity with
      | some id => [id]
      | none => r.activeEntities.map (·.id)
    let resolved : Except ModelError (List Json) := ids.mapM fun id => do resolvedJson (← r.view id)
    match resolved with
    | .ok views => .success [(Json.arr views).indented]
    | .error err => .failure [s!"Resolution error: {err.message}"]

def report (command : Command) (m : Model) (settings : Settings) : Report :=
  match command with
  | .validate file => validate file m settings
  | .list file => list file m settings
  | .resolve _ entity => resolve entity m settings

/-- Carries a command out. Settings come from `config`, or else from where they are looked for;
`named` is the file that the environment names. -/
def run {m : Type → Type} [Monad m] (look : String → m FileState) (named config : Option String)
    (command : Command) : m Report := do
  let settings ← match config with
    | some path => Settings.load look path
    | none => Settings.discover look named "."
  match settings with
  | .error err => return .failure [s!"Settings error: {err.message}"]
  | .ok settings =>
    match Model.ofFile command.file (← look command.file) with
    | .error err => return .failure [s!"Error loading '{command.file}': {err.message}"]
    | .ok model => return report command model settings

/-- The arguments of a call as far as they have been read. -/
structure Arguments where
  config : Option String
  entity : Option String
  positional : List String

def joined? (names : List String) (argument : String) : Option String :=
  names.findSome? fun name =>
    if argument.startsWith name then some (argument.drop name.length).toString else none

/-- Reads arguments: options with their values, anywhere, and the rest in order. -/
def readArguments (read : Arguments) : List String → Option Arguments
  | [] => some { read with positional := read.positional.reverse }
  | [argument] => (single read argument).bind fun read => readArguments read []
  | argument :: value :: rest =>
    if argument = "--config" ∨ argument = "-c" then
      readArguments { read with config := some value } rest
    else if argument = "--entity" ∨ argument = "-e" then
      readArguments { read with entity := some value } rest
    else (single read argument).bind fun read => readArguments read (value :: rest)
where
  /-- An argument that takes no other with it. -/
  single (read : Arguments) (argument : String) : Option Arguments :=
    match joined? ["--config=", "-c=", "-c"] argument,
        joined? ["--entity=", "-e=", "-e"] argument with
    | some path, _ => some { read with config := some path }
    | none, some id => some { read with entity := some id }
    | none, none =>
      if argument.startsWith "-" then none
      else some { read with positional := argument :: read.positional }

/-- The command of a call and the settings file that it names. -/
def Command.ofArguments? (arguments : List String) : Option (Option String × Command) := do
  let read ← readArguments ⟨none, none, []⟩ arguments
  match read.positional, read.entity with
  | ["validate", file], none => return (read.config, validate file)
  | ["list", file], none => return (read.config, list file)
  | ["resolve", file], entity => return (read.config, resolve file entity)
  | _, _ => none

def usage : String :=
  "Usage: [--config FILE] (validate | list | resolve) MODEL.json [--entity ID]"

end EntityModel.CommandLine
