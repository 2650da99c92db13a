import SimWorkbench.Build.Compiler
import SimWorkbench.Run.Artifact
import SimWorkbench.Toml.Reader
import SimWorkbench.Toml.Section

/-!
# Settings of a project

A project is a directory with a file of settings. Every setting but the generator's command has a
value of its own, so the empty file configures a project.
-/
namespace SimWorkbench
open Toml

/-- The name of the file of settings. -/
def settingsFileName : String := "simforge.toml"

/-- Directories of a project, as seen from its root. -/
structure ProjectPaths where
  source : Path := ⟨"src"⟩
  classes : Path := ⟨"build/classes"⟩
  reports : Path := ⟨"reports"⟩
  deriving DecidableEq, Repr, Inhabited

/-- The program that turns models into sources. -/
structure GeneratorSettings where
  command : String
  arguments : List String
  deriving DecidableEq, Repr

structure ProjectSettings where
  name : Option String := none
  paths : ProjectPaths := {}
  /-- More places for compilers and runs to search. -/
  extraClasspath : List Path := []
  compiler : CompilerSettings := {}
  generator : Option GeneratorSettings := none
  run : RunSettings := {}
  deriving DecidableEq, Repr, Inhabited

/-- Why a project's settings could not be had. -/
inductive SettingsFault where
  | unreadable (file : Path) (cause : OsError)
  | malformed
  | noReplications
  deriving DecidableEq, Repr

namespace SettingsFault

def message : SettingsFault → String
  | unreadable file _ => "failed to read " ++ file.text
  | malformed => "failed to parse " ++ settingsFileName
  | noReplications => "[run] replications must be at least 1"

/-- What lies behind a fault, if anything does. -/
def cause? : SettingsFault → Option String
  | unreadable _ cause => some cause.message
  | malformed => some "the text is not a document of settings"
  | noReplications => none

end SettingsFault

namespace ProjectPaths

def read (s : Section) : Option ProjectPaths := do
  let standard : ProjectPaths := {}
  return {
    source := ← s.withDefault 0 "source" standard.source Node.path?
    classes := ← s.withDefault 1 "classes" standard.classes Node.path?
    reports := ← s.withDefault 2 "reports" standard.reports Node.path? }

end ProjectPaths

def GeneratorSettings.read (s : Section) : Option GeneratorSettings := do
  return {
    command := ← s.required 0 "command" Node.text?
    arguments := ← s.withDefault 1 "args" [] (Node.list? Node.text?) }

def CompilerSettings.read (s : Section) : Option CompilerSettings := do
  let standard : CompilerSettings := {}
  return {
    binary := ← s.withDefault 0 "binary" standard.binary Node.text?
    edition := ← s.withDefault 1 "edition" standard.edition Node.text?
    optLevel := ← s.withDefault 2 "opt-level" standard.optLevel Node.word?
    extraArguments := ← s.withDefault 3 "extra-args" standard.extraArguments
      (Node.list? Node.text?) }

def RunSettings.read (s : Section) : Option RunSettings := do
  let standard : RunSettings := {}
  return {
    replications := ← s.withDefault 0 "replications" standard.replications Node.word?
    stopTime := ← s.optional 1 "stop-time" Node.number?
    verbose := ← s.withDefault 2 "verbose" standard.verbose Node.boolean? }

namespace ProjectSettings

/-- The settings that a document holds; none if a known field is of another type. -/
def ofMembers? (members : Members) : Option ProjectSettings := do
  let top := Section.keyed members
  let part {α : Type} (read : Section → Option α) (node : Node) : Option α := do
    read (← node.section?)
  let standard : ProjectSettings := {}
  return {
    name := ← top.withDefault 0 "project" none (part fun s => s.optionalKey 0 "name" Node.text?)
    paths := ← top.withDefault 1 "paths" standard.paths (part ProjectPaths.read)
    extraClasspath := ← top.withDefault 2 "classpath" []
      (part fun s => s.withDefault 0 "extra" [] (Node.list? Node.path?))
    compiler := ← top.withDefault 3 "compiler" standard.compiler (part CompilerSettings.read)
    generator := ← top.optional 4 "generator" (part GeneratorSettings.read)
    run := ← top.withDefault 5 "run" standard.run (part RunSettings.read) }

/-- The settings that a text spells out. -/
def parse (text : String) : Except SettingsFault ProjectSettings :=
  match (Toml.parse? text.toList).bind ofMembers? with
  | none => .error .malformed
  | some s => if s.run.replications = 0 then .error .noReplications else .ok s

end ProjectSettings
end SimWorkbench
