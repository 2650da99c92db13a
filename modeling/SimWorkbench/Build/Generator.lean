import SimWorkbench.Build.Failure
import SimWorkbench.Process.Basic
import SimWorkbench.Text.Utf8

/-!
# Generators

A generator turns a model file into a source. The usual one is a program that gets the model's
path as its last argument and prints the source.
-/
namespace SimWorkbench

/-- Turns a model into a source; it may change files. -/
abbrev Generator := FileTree → Path → FileTree × Except GenerationFailure GeneratedSource

namespace Generator

/-- The source that a program printed, or why there is none. -/
def sourceOf (program : String) (ended : Except OsError Completed) :
    Except String GeneratedSource :=
  match ended with
  | .error e => .error ("failed to run " ++ program ++ ": " ++ e.message)
  | .ok out =>
    if out.status.success then
      match Text.Utf8.decode? out.stdout with
      | none => .error "generator output is not valid UTF-8"
      | some text =>
        if Text.isAllBlank text then .error "generator produced no source"
        else .ok ⟨String.ofList text, none, none⟩
    else
      let stderr := Text.trim (Text.Utf8.decodeLossy out.stderr)
      if stderr.isEmpty then .error (program ++ " exited with " ++ out.status.text)
      else .error (String.ofList stderr)

/-- The generator that runs a program. -/
def ofProgram (launch : Launcher) (program : String) (arguments : List String) : Generator :=
  fun files model =>
    let (files, ended) := launch files ⟨program, arguments ++ [model.text]⟩
    match sourceOf program ended with
    | .ok source => (files, .ok source)
    | .error message => (files, .error ⟨model, message⟩)

/-- The generator that always fails with the same message. -/
def failing (message : String) : Generator := fun files model => (files, .error ⟨model, message⟩)

end Generator
end SimWorkbench
