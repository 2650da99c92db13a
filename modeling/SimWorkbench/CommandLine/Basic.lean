import SimWorkbench.Decimal.Literal
import SimWorkbench.Path.Basic

/-!
# Command lines

The tool has commands, some of them with commands of their own. Each is a level of the command line
with parameters: switches, options with a value, and the model. Three switches belong to every
level.
-/
namespace SimWorkbench.CommandLine
open Decimal

/-- What the tool is asked to do. -/
inductive Task where
  | compile (model : Path)
  | run (model : Path) (replications : Option UInt32) (stopTime : Option Binary64)
      (modelVerbose : Bool)
  | listCache
  | invalidate (model : Path)
  | clearCache
  | collectGarbage
  | clean
  deriving DecidableEq, Repr

inductive Switch where
  | force | quiet | verbose | modelVerbose
  deriving DecidableEq, Repr

/-- A request: a task with the switches that every level has. -/
structure Request where
  task : Task
  force : Bool
  quiet : Bool
  verbose : Bool
  deriving DecidableEq, Repr

/-- A parameter with a value. -/
inductive Slot where
  | model | replications | stopTime
  deriving DecidableEq, Repr

inductive Parameter where
  | help | version
  | switch (switch : Switch)
  | slot (slot : Slot)
  deriving DecidableEq, Repr

/-- How far the commands of a line have led. -/
inductive Level where
  | top | compile | run
  | cache | cacheList | cacheInvalidate | cacheClear | cacheCollect
  | clean
  deriving DecidableEq, Repr

namespace Level

/-- The commands that may follow, by name. -/
def commands : Level → List (String × Level)
  | top => [("compile", compile), ("run", run), ("cache", cache), ("clean", clean)]
  | cache => [("list", cacheList), ("invalidate", cacheInvalidate), ("clear", cacheClear),
      ("gc", cacheCollect)]
  | _ => []

/-- Whether a command has to follow. -/
def isOpen (l : Level) : Bool := !l.commands.isEmpty

/-- Whether a model has to be named. -/
def takesModel : Level → Bool
  | compile | run | cacheInvalidate => true
  | _ => false

/-- The parameters with a name, their long and their short names. -/
def parameters (l : Level) : List (Parameter × String × Option Char) :=
  [(.switch .force, "force", some 'f'), (.switch .quiet, "quiet", some 'q'),
    (.switch .verbose, "verbose", some 'v'), (.help, "help", some 'h')] ++
  match l with
  | top => [(.version, "version", some 'V')]
  | run => [(.slot .replications, "replications", none), (.slot .stopTime, "stop-time", none),
      (.switch .modelVerbose, "model-verbose", none)]
  | _ => []

/-- The parameter with a long name. -/
def long? (l : Level) (name : String) : Option Parameter :=
  (l.parameters.find? fun p => p.2.1 == name).map Prod.fst

/-- The parameter with a short name. -/
def short? (l : Level) (name : Char) : Option Parameter :=
  (l.parameters.find? fun p => p.2.2 == some name).map Prod.fst

end Level

/-- A page of help: about a level, or about the help that a level gives. -/
inductive Page where
  | level (level : Level)
  | help (level : Level)
  deriving DecidableEq, Repr

/-- Why a command line makes no request. -/
inductive Refusal where
  /-- Help was asked for. -/
  | help (page : Page)
  | version
  /-- Nothing was given where a command has to follow. -/
  | nothingGiven (level : Level)
  | missingCommand
  | missingModel
  | unknownCommand
  | unknownParameter
  /-- A parameter has no value, or an empty one. -/
  | missingValue
  /-- A value is no number of the right kind. -/
  | badValue
  /-- A switch was given a value. -/
  | needlessValue
  /-- Parameters exclude each other, or one was given twice. -/
  | conflict
  deriving DecidableEq, Repr

/-- Whether the line only asked for a text. -/
def Refusal.isAnswer : Refusal → Bool
  | .help _ | .version => true
  | _ => false

end SimWorkbench.CommandLine
