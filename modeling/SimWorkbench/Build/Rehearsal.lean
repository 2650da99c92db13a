import SimWorkbench.Build.Pipeline
import SimWorkbench.Text.Lines

/-!
# Rehearsals of a build

A rehearsal compiler obeys directions in the source: it rejects a source that says so, or succeeds
and leaves nothing, or leaves the source's bytes in reverse order as the executable. A rehearsal
generator takes the model for the source. With them a build can be tried without any program.
-/
namespace SimWorkbench.Rehearsal

/-- The answer that a source asks for, if it asks to be rejected. -/
def rejection? (text : List Char) : Option String :=
  (Text.splitAt? "!reject ".toList text).map fun found =>
    String.ofList (Text.replaceAll ['\\', 'n'] ['\n'] (found.2.takeWhile (· != '\n')))

/-- The compiler that obeys the source. -/
def compiler (identity : Bytes) (here : Location) : Compiler where
  identity files := (files, identity)
  compile files job :=
    match files.read here job.source with
    | .error e => (files, e.message)
    | .ok content =>
      let text := Text.Utf8.decodeLossy content
      match rejection? text with
      | some answer => (files, answer)
      | none =>
        if (Text.splitAt? "!nothing".toList text).isSome then (files, compileSuccess)
        else
          match files.write here job.output content.reverse with
          | .ok files => (files, compileSuccess)
          | .error e => (files, e.message)

/-- The generator that takes the model for the source, with the names given to it. -/
def generator (here : Location) (package typeName : Option String) : Generator :=
  fun files model =>
    match files.readText here model with
    | .error _ => (files, .error ⟨model, "unreadable"⟩)
    | .ok text =>
      if (Text.splitAt? "ungeneratable".toList text.toList).isSome then
        (files, .error ⟨model, "ungeneratable"⟩)
      else (files, .ok ⟨text, package, typeName⟩)

end SimWorkbench.Rehearsal
