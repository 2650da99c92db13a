import SimWorkbench.Proofs.Run.Tail
import SimWorkbench.Proofs.Run.Transcript
import SimWorkbench.Proofs.Text.Lines

/-!
# What is heard of a program

However a program prints, in parts of lines or several lines at once, and whatever the host and others
do in between: when its run returns, what was passed on, kept and answered is what the whole of its
output says, cut into lines and read line by line.
-/
namespace SimWorkbench

/-! ### What an output says -/

namespace Heard

/-- What the lines of an output say, the first one first. -/
def events (output : Bytes) : List (Except MalformedEvent Event) := (lines output).map read

variable (said : List (Except MalformedEvent Event))

/-- The lines to be printed. -/
def outputs : List String := said.filterMap fun
  | .ok (.output text) => some text
  | _ => none

/-- The changes of properties. -/
def changes : List PropertyChange := said.filterMap fun
  | .ok (.property c) => some c
  | _ => none

def reports : List Path := said.filterMap fun
  | .ok (.report path) => some path
  | _ => none

def faults : List String := said.filterMap fun
  | .ok (.fault message) => some message
  | _ => none

def violations : List MalformedEvent := said.filterMap fun
  | .error e => some e
  | _ => none

/-- How a run ended whose program said this and ended with a status: a fault comes before a malformed
line, which comes before everything else. -/
def verdict (status : ExitStatus) (stderr : String) : Except Fault Unit :=
  match faults said, violations said with
  | message :: _, _ => .error (.raised message)
  | [], e :: _ => .error (.protocol e.message)
  | [], [] =>
    if .ok .done ∈ said ∧ status.success = true then .ok () else .error (.exited status.text stderr)

theorem faults_eq_nil_iff {said : List (Except MalformedEvent Event)} :
    faults said = [] ↔ ∀ message, .ok (.fault message) ∉ said := by
  rw [faults, List.filterMap_eq_nil_iff]
  constructor
  · intro none message member
    cases none _ member
  · intro none event member
    split
    · exact absurd member (none _)
    · rfl

theorem violations_eq_nil_iff {said : List (Except MalformedEvent Event)} :
    violations said = [] ↔ ∀ e, .error e ∉ said := by
  rw [violations, List.filterMap_eq_nil_iff]
  constructor
  · intro none e member
    cases none _ member
  · intro none event member
    split
    · exact absurd member (none _)
    · rfl

/-- A run ends well if its program said so, no fault, nothing malformed, and ended well itself. -/
theorem verdict_ok_iff {said : List (Except MalformedEvent Event)} (status : ExitStatus)
    (stderr : String) : verdict said status stderr = .ok () ↔
      .ok .done ∈ said ∧ (∀ message, .ok (.fault message) ∉ said) ∧ (∀ e, .error e ∉ said) ∧
        status.success = true := by
  rw [← faults_eq_nil_iff, ← violations_eq_nil_iff, verdict]
  cases faults said with
  | cons message rest => simp
  | nil =>
    cases violations said with
    | cons e rest => simp
    | nil =>
      simp only [true_and]
      split
      · exact iff_of_true rfl ‹_›
      · exact iff_of_false (by simp) ‹_›

/-- A report takes the place of an earlier one. -/
theorem report_hear (h : Heard) (directory : Path) (line : Bytes) :
    (h.hear directory line).1.report.or h.report = (h.hear directory line).1.report := by
  rw [hear]
  cases read line with
  | error e => exact Option.or_self
  | ok event => cases event <;> first | exact Option.or_self | rfl

/-- What was heard of some lines. -/
def ofLines (directory : Path) (lines : List Bytes) : Heard :=
  lines.foldl (fun h line => (h.hear directory line).1) {}

theorem foldl_hear (directory : Path) (lines : List Bytes) (h : Heard) :
    lines.foldl (fun h line => (h.hear directory line).1) h = {
      done := h.done || decide (.ok .done ∈ lines.map read)
      fault := h.fault.or (faults (lines.map read)).head?
      violation := h.violation.or (violations (lines.map read)).head?
      report := ((reports (lines.map read)).getLast?.map directory.join).or h.report } := by
  induction lines generalizing h with
  | nil => simp [faults, violations, reports]
  | cons line lines ih =>
    rw [List.foldl_cons, ih, hear]
    cases said : read line with
    | error e => simp [said, faults, violations, reports]
    | ok event =>
      cases event with
      | report path =>
        have later : reports (Except.ok (.report path) :: lines.map read) =
            path :: reports (lines.map read) := rfl
        rw [List.map_cons, said, later, List.getLast?_cons]
        cases (reports (lines.map read)).getLast? <;> simp [faults, violations]
      | _ => simp [said, faults, violations, reports]

/-- What is heard of some lines is what they say. -/
theorem ofLines_eq (directory : Path) (lines : List Bytes) :
    ofLines directory lines = {
      done := decide (.ok .done ∈ lines.map read)
      fault := (faults (lines.map read)).head?
      violation := (violations (lines.map read)).head?
      report := (reports (lines.map read)).getLast?.map directory.join } := by
  rw [ofLines]
  simpa using foldl_hear directory lines {}

/-- The outcome of a run follows from what its program said and its status. -/
theorem outcome_ofLines (directory : Path) (lines : List Bytes) (status : ExitStatus)
    (stderr : String) :
    (ofLines directory lines).outcome status stderr = verdict (lines.map read) status stderr := by
  rw [ofLines_eq, outcome, verdict]
  cases faults (lines.map read) with
  | cons message rest => rfl
  | nil =>
    cases violations (lines.map read) with
    | cons e rest => rfl
    | nil => simp

/-- An output is cut after each line feed; what follows the last one counts if there is anything. -/
theorem exists_lines (output : Bytes) :
    ∃ whole rest, (∀ line ∈ whole, Text.IsLine 10 line) ∧ 10 ∉ rest ∧
      output = whole.flatten ++ rest ∧ lines output = whole ++ Text.lastPiece rest := by
  obtain ⟨whole, rest, areLines, unmarked, rfl⟩ := Text.exists_lines 10 output
  exact ⟨whole, rest, areLines, unmarked, rfl, Text.terminated_flatten areLines unmarked⟩

end Heard

/-! ### Parts of an output -/

namespace ProcessRun

variable {r : ProcessRun} {consumed : List Bytes} {printed : Bytes}

/-- What is noticed comes as lines and a rest. -/
theorem notice_eq (r : ProcessRun) (files : FileTree) (progress : Progress) :
    ∃ whole rest, (∀ line ∈ whole, Text.IsLine 10 line) ∧ 10 ∉ rest ∧
      r.unfinished ++ Shell.toBytes (Progress.stdout (progress.actions.drop r.noticed)) =
        whole.flatten ++ rest ∧
      (r.notice files progress).1 = { r with
        progress := progress
        noticed := progress.actions.length
        pending := r.pending ++ whole ++
          (if progress.ending = .waiting then [] else Text.lastPiece rest)
        unfinished := if progress.ending = .waiting then rest else []
        errors := r.errors.takeAll
          (Shell.toBytes (Progress.stderr (progress.actions.drop r.noticed))) } := by
  obtain ⟨whole, rest, areLines, unmarked, isText, cut⟩ := Heard.exists_lines
    (r.unfinished ++ Shell.toBytes (Progress.stdout (progress.actions.drop r.noticed)))
  have isWhole : ∀ line ∈ whole, line.getLast? = some 10 := fun line member =>
    (areLines line member).last
  have isRest : ∀ line ∈ Text.lastPiece rest, line.getLast? ≠ some 10 := by
    intro line member
    rw [Text.lastPiece] at member
    split at member
    · cases member
    · rw [List.mem_singleton.mp member]
      exact Text.last_ne_of_unmarked unmarked
  have complete : (whole ++ Text.lastPiece rest).filter (fun l => l.getLast? = some 10) = whole := by
    rw [List.filter_append, List.filter_eq_self.mpr (by simpa using isWhole),
      List.filter_eq_nil_iff.mpr (by simpa using isRest), List.append_nil]
  have others : ((whole ++ Text.lastPiece rest).filter fun l => l.getLast? ≠ some 10).flatten =
      rest := by
    rw [List.filter_append, List.filter_eq_nil_iff.mpr (by simpa using isWhole),
      List.filter_eq_self.mpr (by simpa using isRest), List.nil_append, Text.lastPiece_flatten]
  refine ⟨whole, rest, areLines, unmarked, isText, ?_⟩
  simp only [notice, cut, complete, others]
  cases progress.ending <;> simp [Text.lastPiece]

/-- How the output of a program was cut: some lines were heard, others wait, and the last one may go
on as long as the program does. -/
structure Cut (r : ProcessRun) (consumed : List Bytes) (printed : Bytes) : Prop where
  waiting : r.progress.ending = .waiting →
    (∀ line ∈ consumed ++ r.pending, Text.IsLine 10 line) ∧ 10 ∉ r.unfinished ∧
      printed = (consumed ++ r.pending).flatten ++ r.unfinished
  ended : r.progress.ending ≠ .waiting → Heard.lines printed = consumed ++ r.pending

/-- Where an output is cut does not depend on the parts in which it comes. -/
theorem Cut.notice (cut : r.Cut consumed printed) (running : r.progress.ending = .waiting)
    (files : FileTree) (progress : Progress) :
    (r.notice files progress).1.Cut consumed
      (printed ++ Shell.toBytes (Progress.stdout (progress.actions.drop r.noticed))) := by
  obtain ⟨areLines, -, isPrinted⟩ := cut.waiting running
  obtain ⟨whole, rest, more, unmarked, isText, noticed⟩ := r.notice_eq files progress
  have all : ∀ line ∈ consumed ++ r.pending ++ whole, Text.IsLine 10 line := by
    intro line member
    exact (List.mem_append.mp member).elim (areLines line) (more line)
  have isAll : printed ++ Shell.toBytes (Progress.stdout (progress.actions.drop r.noticed)) =
      (consumed ++ r.pending ++ whole).flatten ++ rest := by
    rw [isPrinted, List.append_assoc, isText]
    simp
  rw [noticed, isAll]
  refine ⟨fun waits => ?_, fun ended => ?_⟩
  · simp only at waits
    simp only [waits, if_true, List.append_nil, ← List.append_assoc]
    exact ⟨all, unmarked, trivial⟩
  · simp only at ended
    simp only [if_neg ended, ← List.append_assoc]
    exact Text.terminated_flatten all unmarked

end ProcessRun

/-! ### What is passed on -/

/-- The lines that came through a handle, the oldest first. -/
def OutputSink.through (s : OutputSink) (h : Handle) : List String :=
  (s.lines.reverse.filter fun l => l.1 == h).map Prod.snd

namespace OutputSink

variable {s : OutputSink} {h : Handle}

theorem through_writeLine_open (isOpen : s.isOpen h = true) (line : String) :
    (s.writeLine h line).through h = s.through h ++ [line] := by
  simp [writeLine, isOpen, append, through]

theorem through_writeLine_closed (closed : s.isOpen h = false) (line : String) :
    (s.writeLine h line).through h = s.through h := by
  simp [writeLine, closed]

end OutputSink

/-- What others may do to what a run shares with them: they print and notify elsewhere, and nobody
opens a handle again. -/
structure Scene.Aside (h : Handle) (s s' : Scene) : Prop where
  properties : s'.properties = s.properties
  notices : s'.notices = s.notices
  through : s'.sink.through h = s.sink.through h
  closed : s'.sink.isOpen h = true → s.sink.isOpen h = true

/-- Whether all that some lines say was passed on since some time, up to lines that came after the
handle was closed. -/
structure Passed (b : Bindings) (first : Scene) (said : List (Except MalformedEvent Event))
    (s : Scene) : Prop where
  lines : ∃ dropped, first.sink.through b.handle ++ Heard.outputs said =
    s.sink.through b.handle ++ dropped ∧ (s.sink.isOpen b.handle = true → dropped = [])
  notices : s.notices =
    ((Heard.changes said).flatMap fun c => b.observers.map fun o => (o, c)).reverse ++ first.notices
  properties : s.properties = (Heard.changes said).foldl Properties.record first.properties

namespace Passed

variable {b : Bindings} {first s s' : Scene} {said : List (Except MalformedEvent Event)}

theorem start (b : Bindings) (first : Scene) : Passed b first [] first :=
  ⟨⟨[], rfl, fun _ => rfl⟩, rfl, rfl⟩

theorem aside (passed : Passed b first said s) (aside : s.Aside b.handle s') :
    Passed b first said s' := by
  obtain ⟨dropped, all, open'⟩ := passed.lines
  exact ⟨⟨dropped, aside.through ▸ all, fun isOpen => open' (aside.closed isOpen)⟩,
    aside.notices.trans passed.notices, aside.properties.trans passed.properties⟩

/-- A line that says nothing to others. -/
theorem silent (passed : Passed b first said s) {event : Except MalformedEvent Event}
    (output : Heard.outputs [event] = []) (change : Heard.changes [event] = []) :
    Passed b first (said ++ [event]) s := by
  obtain ⟨lines, notices, properties⟩ := passed
  have outputs : Heard.outputs (said ++ [event]) = Heard.outputs said := by
    rw [Heard.outputs, List.filterMap_append]
    exact (congrArg (Heard.outputs said ++ ·) output).trans (List.append_nil _)
  have changes : Heard.changes (said ++ [event]) = Heard.changes said := by
    rw [Heard.changes, List.filterMap_append]
    exact (congrArg (Heard.changes said ++ ·) change).trans (List.append_nil _)
  exact ⟨outputs ▸ lines, changes ▸ notices, changes ▸ properties⟩

theorem change {c : PropertyChange} (passed : Passed b first said s)
    (keeps : b.keepsProperties = true) :
    Passed b first (said ++ [.ok (.property c)]) (s.notify b c) := by
  obtain ⟨lines, notices, properties⟩ := passed
  have changes : Heard.changes (said ++ [.ok (.property c)]) = Heard.changes said ++ [c] := by
    rw [Heard.changes, List.filterMap_append]
    rfl
  have outputs : Heard.outputs (said ++ [.ok (.property c)]) = Heard.outputs said := by
    rw [Heard.outputs, List.filterMap_append]
    exact List.append_nil _
  refine ⟨outputs ▸ lines, ?_, ?_⟩
  · simp [changes, Scene.notify, notices]
  · simp [changes, Scene.notify, keeps, properties]

theorem output {text : String} (passed : Passed b first said s) :
    Passed b first (said ++ [.ok (.output text)]) (s.print b text) := by
  obtain ⟨⟨dropped, all, open'⟩, notices, properties⟩ := passed
  have changes : Heard.changes (said ++ [.ok (.output text)]) = Heard.changes said := by
    rw [Heard.changes, List.filterMap_append]
    exact List.append_nil _
  have outputs : Heard.outputs (said ++ [.ok (.output text)]) = Heard.outputs said ++ [text] := by
    rw [Heard.outputs, List.filterMap_append]
    rfl
  refine ⟨?_, changes ▸ notices, changes ▸ properties⟩
  cases isOpen : s.sink.isOpen b.handle with
  | true =>
    refine ⟨[], ?_, fun _ => rfl⟩
    rw [outputs, ← List.append_assoc, all, open' isOpen, Scene.print]
    simp [OutputSink.through_writeLine_open isOpen]
  | false =>
    refine ⟨dropped ++ [text], ?_, fun isOpen' => ?_⟩
    · rw [outputs, ← List.append_assoc, all, Scene.print]
      simp [OutputSink.through_writeLine_closed isOpen]
    · rw [Scene.print, OutputSink.isOpen_writeLine, isOpen] at isOpen'
      cases isOpen'

/-- What a line says is passed on when it is heard. -/
theorem hear {a : ProcessArtifact} (passed : Passed a.bindings first said s)
    (keeps : a.bindings.keepsProperties = true) (h : Heard) (directory : Path) (line : Bytes) :
    Passed a.bindings first (said ++ [Heard.read line])
      (a.pass s (h.hear directory line).2) := by
  rw [Heard.hear]
  cases Heard.read line with
  | error e => exact passed.silent rfl rfl
  | ok event =>
    cases event with
    | property c => exact passed.change keeps
    | output text => exact passed.output
    | report path => exact passed.silent rfl rfl
    | fault message => exact passed.silent rfl rfl
    | done => exact passed.silent rfl rfl

end Passed

/-! ### One step of a run -/

/-- What a run that is under way can do in one step. -/
inductive ProcessRun.Goes (around : Surroundings) (a : ProcessArtifact) (r : ProcessRun) (s : Scene) :
    ProcessArtifact → Scene → Prop where
  | hears {line : Bytes} {rest : List Bytes} (pending : r.pending = line :: rest) :
    Goes around a r s
      { a with
        stage := .live { r with heard := (r.heard.hear (a.directory around) line).1, pending := rest }
        report := (r.heard.hear (a.directory around) line).1.report.or a.report }
      (a.pass s (r.heard.hear (a.directory around) line).2)
  | returns {status : ExitStatus} (pending : r.pending = [])
    (ended : r.progress.ending = .ended status) :
    Goes around a r s { a with stage := .over } { s with channel := s.channel.finish }
  | speaks {host : Host} {channel : SignalChannel} :
    Goes around a r s { a with stage := .live { r with host := host } } { s with channel := channel }
  | proceeds {host : Host} {channel : SignalChannel} {files : FileTree} {progress : Progress}
    (running : r.progress.ending = .waiting) :
    Goes around a r s
      { a with stage := .live (({ r with host := host }).notice s.files progress).1 }
      { s with channel := channel, files := files }

namespace ProcessArtifact

variable {around : Surroundings} {a a' : ProcessArtifact} {r : ProcessRun} {s s' : Scene}

theorem goes_of_converse (next : (a.converse r s).next? = some (a', s')) :
    r.Goes around a s a' s' := by
  unfold converse at next
  cases step : r.host.step? s.channel r.listening with
  | none => simp [step, Advance.next?] at next
  | some moved =>
    obtain ⟨host, channel⟩ := moved
    simp only [step] at next
    split at next
    case isTrue runs =>
      cases next
      simp only [ProcessRun.listening, decide_eq_true_eq] at runs
      exact .proceeds runs
    case isFalse =>
      cases next
      exact .speaks

theorem goes_of_next? (stage : a.stage = .live r)
    (next : (a.advance around s).next? = some (a', s')) : r.Goes around a s a' s' := by
  simp only [advance, stage, goOn] at next
  split at next
  case isFalse => exact goes_of_converse next
  case isTrue =>
    cases pending : r.pending with
    | cons line rest =>
      simp only [pending] at next
      cases next
      exact .hears pending
    | nil =>
      simp only [pending] at next
      cases ended : r.progress.ending with
      | ended status =>
        simp only [ended] at next
        cases next
        exact .returns pending ended
      | waiting =>
        simp only [ended] at next
        exact goes_of_converse next

/-- What a run was noticed to do when it went on. -/
def news (a a' : ProcessArtifact) : List Shell.Action :=
  match a.stage, a'.stage with
  | .live r, .live r' => r'.progress.actions.drop r.noticed
  | _, _ => []

/-- A run whose program has just been started. -/
def opened (a : ProcessArtifact) (program : Program) : ProcessRun :=
  ⟨program, .start a.bindings.settings a.bindings.singleStep, {}, ⟨[], .waiting⟩, 0, [], [], {}⟩

end ProcessArtifact

/-! ### Whole runs -/

/-- A run of a program with what the program printed to its output and to its error stream. -/
structure Hearing where
  artifact : ProcessArtifact
  scene : Scene
  printed : Bytes
  errors : Bytes

namespace Hearing

/-- A run whose program has printed nothing. -/
def start (artifact : ProcessArtifact) (scene : Scene) : Hearing := ⟨artifact, scene, [], []⟩

/-- The run when it has gone on. -/
def went (t : Hearing) (artifact : ProcessArtifact) (scene : Scene) : Hearing where
  artifact := artifact
  scene := scene
  printed := t.printed ++ Shell.toBytes (Progress.stdout (t.artifact.news artifact))
  errors := t.errors ++ Shell.toBytes (Progress.stderr (t.artifact.news artifact))

/-- What can happen while a program runs. -/
inductive Step (around : Surroundings) : Hearing → Hearing → Prop where
  /-- The run goes on. -/
  | goesOn {t : Hearing} {artifact : ProcessArtifact} {scene : Scene}
    (next : (t.artifact.advance around t.scene).next? = some (artifact, scene)) :
    Step around t (t.went artifact scene)
  /-- The program does anything, and perhaps ends. -/
  | acts {t : Hearing} {r : ProcessRun} {progress : Progress} (live : t.artifact.stage = .live r)
    (running : r.progress.ending = .waiting) :
    Step around t
      (t.went { t.artifact with stage := .live (r.notice t.scene.files progress).1 } t.scene)
  /-- Others do anything else. -/
  | shares {t : Hearing} {scene : Scene}
    (aside : t.scene.Aside t.artifact.bindings.handle scene) :
    Step around t { t with scene := scene }

/-- What some schedule leads to. -/
inductive Reaches (around : Surroundings) : Hearing → Hearing → Prop where
  | refl (t : Hearing) : Reaches around t t
  | tail {t u v : Hearing} (past : Reaches around t u) (step : Step around u v) :
    Reaches around t v

variable {around : Surroundings} {artifact : ProcessArtifact} {first : Scene} {t u : Hearing}
  {r : ProcessRun} {consumed : List Bytes}

/-- What holds of a run that is under way when some lines were heard. -/
structure Attends (around : Surroundings) (artifact : ProcessArtifact) (first : Scene) (t : Hearing)
    (r : ProcessRun) (consumed : List Bytes) : Prop where
  stage : t.artifact.stage = .live r
  bindings : t.artifact.bindings = artifact.bindings
  directory : t.artifact.directory around = artifact.directory around
  report : t.artifact.report = r.heard.report
  heard : r.heard = .ofLines (artifact.directory around) consumed
  noticed : r.noticed = r.progress.actions.length
  cut : r.Cut consumed t.printed
  errors : r.errors.Keeps t.errors
  passed : Passed artifact.bindings first (consumed.map Heard.read) t.scene

/-- What holds of a run between two events. -/
inductive Sound (around : Surroundings) (artifact : ProcessArtifact) (first : Scene) (t : Hearing) :
    Prop where
  | ready (same : t.artifact = artifact) (printed : t.printed = []) (errors : t.errors = [])
    (passed : Passed artifact.bindings first [] t.scene)
  | live {r : ProcessRun} {consumed : List Bytes}
    (attends : Attends around artifact first t r consumed)
  | returned (stage : t.artifact.stage = .over)

/-- Where nothing was noticed, nothing was printed. -/
theorem went_of_quiet {artifact' : ProcessArtifact} (quiet : t.artifact.news artifact' = [])
    (scene : Scene) : t.went artifact' scene = { t with artifact := artifact', scene := scene } := by
  have none : Shell.toBytes [] = [] := rfl
  simp [went, quiet, Progress.stdout, Progress.stderr, none]

/-- A run whose program was started has heard nothing. -/
theorem Attends.of_started (program : Program) (blank : t.artifact.report = none)
    (printed : t.printed = []) (errors : t.errors = [])
    (passed : Passed t.artifact.bindings first [] t.scene) :
    Attends around t.artifact first
      { t with artifact := { t.artifact with stage := .live (t.artifact.opened program) } }
      (t.artifact.opened program) [] :=
  ⟨rfl, rfl, rfl, blank, rfl, rfl,
    ⟨fun _ => ⟨by simp [ProcessArtifact.opened], by simp [ProcessArtifact.opened], printed⟩,
      fun ended => absurd rfl ended⟩, errors ▸ .start, passed⟩

/-- A run that begins has heard nothing. -/
theorem Sound.begins (ready : t.artifact.stage = .ready) (blank : t.artifact.report = none)
    (printed : t.printed = []) (errors : t.errors = [])
    (passed : Passed t.artifact.bindings first [] t.scene) {artifact' : ProcessArtifact}
    {scene : Scene} (next : (t.artifact.advance around t.scene).next? = some (artifact', scene)) :
    Sound around t.artifact first (t.went artifact' scene) := by
  have quiet : t.artifact.news artifact' = [] := by rw [ProcessArtifact.news, ready]
  rw [went_of_quiet quiet]
  simp only [ProcessArtifact.advance, ready, ProcessArtifact.begin] at next
  split at next
  · cases next
    exact .returned rfl
  · cases next
    exact .live (.of_started _ blank printed errors passed)

/-- What the program does is noticed. -/
theorem Attends.notices (attends : Attends around artifact first t r consumed)
    (running : r.progress.ending = .waiting) (host : Host) (progress : Progress) {scene : Scene}
    (aside : t.scene.Aside artifact.bindings.handle scene) :
    Sound around artifact first (t.went { t.artifact with
      stage := .live (({ r with host := host }).notice t.scene.files progress).1 } scene) := by
  obtain ⟨stage, bindings, directory, report, heard, noticed, cut, errors, passed⟩ := attends
  have cut' : ({ r with host := host } : ProcessRun).Cut consumed t.printed :=
    ⟨cut.waiting, cut.ended⟩
  have notices := cut'.notice running t.scene.files progress
  obtain ⟨whole, rest, -, -, -, isNotice⟩ :=
    ({ r with host := host } : ProcessRun).notice_eq t.scene.files progress
  have news : t.artifact.news { t.artifact with
      stage := .live (({ r with host := host }).notice t.scene.files progress).1 } =
      progress.actions.drop r.noticed := by
    rw [ProcessArtifact.news, stage, isNotice]
  refine @Sound.live _ _ _ _ _ consumed ⟨rfl, bindings, directory, ?_, ?_, ?_, ?_, ?_,
    passed.aside aside⟩
  · rw [isNotice]
    exact report
  · rw [isNotice]
    exact heard
  · rw [isNotice]
  · rw [went, news]
    exact notices
  · rw [went, news, isNotice]
    exact errors.takeAll _

theorem Attends.goes (attends : Attends around artifact first t r consumed)
    (keeps : artifact.bindings.keepsProperties = true) {artifact' : ProcessArtifact} {scene : Scene}
    (goes : r.Goes around t.artifact t.scene artifact' scene) :
    Sound around artifact first (t.went artifact' scene) := by
  cases goes with
  | @proceeds host channel files progress running =>
    exact attends.notices running host progress ⟨rfl, rfl, rfl, id⟩
  | returns => exact .returned rfl
  | @speaks host channel =>
    obtain ⟨stage, bindings, directory, report, heard, noticed, cut, errors, passed⟩ := attends
    rw [went_of_quiet (by simp [ProcessArtifact.news, stage, noticed])]
    exact .live ⟨rfl, bindings, directory, report, heard, noticed, ⟨cut.waiting, cut.ended⟩, errors,
      passed.aside ⟨rfl, rfl, rfl, id⟩⟩
  | @hears line rest pending =>
    obtain ⟨stage, bindings, directory, report, heard, noticed, cut, errors, passed⟩ := attends
    rw [went_of_quiet (by simp [ProcessArtifact.news, stage, noticed])]
    have further : (consumed ++ [line]) ++ rest = consumed ++ r.pending := by simp [pending]
    refine @Sound.live _ _ _ _ _ (consumed ++ [line]) ⟨rfl, bindings, directory, ?_, ?_, noticed,
      ⟨?_, ?_⟩, errors, ?_⟩
    · rw [report]
      exact Heard.report_hear ..
    · rw [Heard.ofLines, List.foldl_append, ← Heard.ofLines, ← heard, directory]
      rfl
    · rw [further]
      exact cut.waiting
    · rw [further]
      exact cut.ended
    · rw [List.map_append]
      rw [← bindings] at passed ⊢
      exact passed.hear (bindings ▸ keeps) r.heard _ line

theorem Sound.step (sound : Sound around artifact first t) (ready : artifact.stage = .ready)
    (blank : artifact.report = none) (keeps : artifact.bindings.keepsProperties = true)
    (step : Step around t u) : Sound around artifact first u := by
  cases sound with
  | ready same printed errors passed =>
    subst same
    cases step with
    | goesOn next => exact .begins ready blank printed errors passed next
    | acts live => cases ready.symm.trans live
    | shares aside => exact .ready rfl printed errors (passed.aside aside)
  | live attends =>
    cases step with
    | goesOn next => exact attends.goes keeps (ProcessArtifact.goes_of_next? attends.stage next)
    | acts live running =>
      cases attends.stage.symm.trans live
      exact attends.notices running _ _ ⟨rfl, rfl, rfl, id⟩
    | shares aside =>
      obtain ⟨stage, bindings, directory, report, heard, noticed, cut, errors, passed⟩ := attends
      exact .live ⟨stage, bindings, directory, report, heard, noticed, cut, errors,
        passed.aside (bindings ▸ aside)⟩
  | returned stage =>
    cases step with
    | acts live => cases stage.symm.trans live
    | shares => exact .returned stage
    | goesOn next =>
      simp only [ProcessArtifact.advance, stage] at next
      cases next
      exact .returned stage

theorem Reaches.sound (past : Reaches around (start artifact first) t)
    (ready : artifact.stage = .ready) (blank : artifact.report = none)
    (keeps : artifact.bindings.keepsProperties = true) : Sound around artifact first t := by
  induction past with
  | refl => exact .ready rfl rfl rfl (.start ..)
  | tail _ step ih => exact ih.step ready blank keeps step

theorem Reaches.attends (past : Reaches around (start artifact first) t)
    (ready : artifact.stage = .ready) (blank : artifact.report = none)
    (keeps : artifact.bindings.keepsProperties = true) (live : t.artifact.stage = .live r) :
    ∃ consumed, Attends around artifact first t r consumed := by
  cases past.sound ready blank keeps with
  | ready same => cases (same ▸ ready).symm.trans live
  | live attends =>
    cases attends.stage.symm.trans live
    exact ⟨_, attends⟩
  | returned stage => cases stage.symm.trans live

/-! ### What comes of a run -/

/-- How a run ends whose program has printed this and ended with a status. -/
def ending (t : Hearing) (status : ExitStatus) : RunEnding :=
  .returned (Heard.verdict (Heard.events t.printed) status
    (Text.Utf8.toStringLossy (t.errors.drop (t.errors.length - tailLimit))))

/-- What a run leaves when its program has printed some output: its lines have come through the handle
as long as that was open, every observer was told of every change, the last new value of each property
is kept, and the last report counts. -/
structure Leaves (around : Surroundings) (artifact : ProcessArtifact) (first : Scene)
    (printed : Bytes) (artifact' : ProcessArtifact) (scene : Scene) : Prop where
  lines : ∃ dropped, first.sink.through artifact.bindings.handle ++
      Heard.outputs (Heard.events printed) =
        scene.sink.through artifact.bindings.handle ++ dropped ∧
      (scene.sink.isOpen artifact.bindings.handle = true → dropped = [])
  notices : scene.notices = ((Heard.changes (Heard.events printed)).flatMap fun c =>
    artifact.bindings.observers.map fun o => (o, c)).reverse ++ first.notices
  properties : ∀ name, scene.properties.get? name =
    ((Heard.changes (Heard.events printed)).reverse.find? fun c => c.name == name).map
      PropertyChange.new
  report : artifact'.report =
    (Heard.reports (Heard.events printed)).getLast?.map (artifact.directory around).join

/-- A run that ends has passed all on that its program said, which has ended. -/
theorem Attends.ends (attends : Attends around artifact first t r consumed)
    {artifact' : ProcessArtifact} {scene : Scene} {e : RunEnding}
    (returned : t.artifact.advance around t.scene = .ended artifact' scene e) :
    ∃ status, r.progress.ending = .ended status ∧ e = t.ending status ∧
      (r.host.stage = .forwarding ∨ r.host.stage = .silent) ∧
      Passed artifact.bindings first (Heard.events t.printed) t.scene ∧
      scene = { t.scene with channel := t.scene.channel.finish } ∧ artifact'.stage = .over ∧
      artifact'.report =
        (Heard.reports (Heard.events t.printed)).getLast?.map (artifact.directory around).join := by
  obtain ⟨stage, bindings, directory, report, heard, noticed, cut, errors, passed⟩ := attends
  have blocked : ∀ {a r s}, ProcessArtifact.converse a r s ≠ .ended artifact' scene e := by
    intro a r s
    unfold ProcessArtifact.converse
    split <;> simp
  simp only [ProcessArtifact.advance, stage, ProcessArtifact.goOn] at returned
  split at returned
  case isFalse => exact absurd returned blocked
  case isTrue listens =>
    cases pending : r.pending with
    | cons line rest => simp [pending] at returned
    | nil =>
      cases ended : r.progress.ending with
      | waiting =>
        simp only [pending, ended] at returned
        exact absurd returned blocked
      | ended status =>
        simp only [pending, ended, Advance.ended.injEq] at returned
        obtain ⟨rfl, rfl, rfl⟩ := returned
        have all : Heard.lines t.printed = consumed := by
          simpa [pending] using cut.ended (by simp [ended])
        have said : consumed.map Heard.read = Heard.events t.printed := by rw [Heard.events, all]
        rw [said] at passed
        refine ⟨status, rfl, ?_, by simpa using listens, passed, rfl, rfl, ?_⟩
        · rw [ending, heard, Heard.outcome_ofLines, said, StreamTail.text, errors.bytes]
        · rw [← said]
          exact report.trans (by rw [heard, Heard.ofLines_eq])

/-- A run that returns has heard all lines of its program, which has ended. -/
theorem Attends.returns (attends : Attends around artifact first t r consumed)
    (fresh : first.properties = []) {artifact' : ProcessArtifact} {scene : Scene} {e : RunEnding}
    (returned : t.artifact.advance around t.scene = .ended artifact' scene e) :
    ∃ status, r.progress.ending = .ended status ∧ e = t.ending status ∧
      Leaves around artifact first t.printed artifact' scene := by
  obtain ⟨status, ended, isEnding, -, passed, rfl, -, report⟩ := attends.ends returned
  refine ⟨status, ended, isEnding, passed.lines, passed.notices, fun name => ?_, report⟩
  rw [← Properties.get?_ofChanges, Properties.ofChanges, ← fresh, ← passed.properties]

/-- How many steps a run has left at most when its program has ended. -/
def remaining (r : ProcessRun) : Nat :=
  r.pending.length + match r.host.stage with
    | .begun => 3
    | .choosing _ => 2
    | .opening _ => 1
    | .forwarding | .silent => 0

/-- The host goes on without a program that has ended. -/
theorem converse_of_ended {a : ProcessArtifact} {s : Scene} {status : ExitStatus} {host : Host}
    {channel : SignalChannel} (ended : r.progress.ending = .ended status)
    (step : r.host.step? s.channel false = some (host, channel)) :
    a.converse r s =
      .went { a with stage := .live { r with host := host } } { s with channel := channel } := by
  have deaf : ∀ host, ({ r with host := host } : ProcessRun).listening = false := fun _ => by
    simp [ProcessRun.listening, ended]
  have deaf' : r.listening = false := deaf r.host
  simp only [ProcessArtifact.converse, deaf', step, deaf, Bool.false_eq_true, if_false]

/-- When its program has ended, a run does not wait. -/
theorem advance_of_ended {a : ProcessArtifact} {s : Scene} {status : ExitStatus}
    (stage : a.stage = .live r) (ended : r.progress.ending = .ended status) :
    (∃ a' s' e, a.advance around s = .ended a' s' e) ∨
      ∃ a' s' r', a.advance around s = .went a' s' ∧ a'.stage = .live r' ∧
        r'.progress = r.progress ∧ remaining r' < remaining r := by
  have speaks : ∀ {host channel}, r.host.step? s.channel false = some (host, channel) →
      a.advance around s = a.converse r s → remaining { r with host := host } < remaining r →
      ∃ a' s' r', a.advance around s = .went a' s' ∧ a'.stage = .live r' ∧
        r'.progress = r.progress ∧ remaining r' < remaining r :=
    fun step isConverse less =>
      ⟨_, _, _, isConverse.trans (converse_of_ended ended step), rfl, rfl, less⟩
  have hears : a.advance around s = a.goOn around r s := by rw [ProcessArtifact.advance, stage]
  have listens : (r.host.stage = .forwarding ∨ r.host.stage = .silent) →
      (∃ a' s' e, a.advance around s = .ended a' s' e) ∨
        ∃ a' s' r', a.advance around s = .went a' s' ∧ a'.stage = .live r' ∧
          r'.progress = r.progress ∧ remaining r' < remaining r := by
    intro set
    rw [hears, ProcessArtifact.goOn, if_pos (by simpa using set)]
    cases pending : r.pending with
    | nil =>
      simp only [ended]
      exact .inl ⟨_, _, _, rfl⟩
    | cons line rest => exact .inr ⟨_, _, _, rfl, rfl, rfl, by simp [remaining, pending]⟩
  cases at' : r.host.stage with
  | begun =>
    exact .inr (speaks (by simp only [Host.step?, at']; rfl)
      (by rw [hears, ProcessArtifact.goOn, if_neg (by simp [at'])]) (by simp [remaining, at']))
  | choosing before =>
    exact .inr (speaks (by simp only [Host.step?, at']; rfl)
      (by rw [hears, ProcessArtifact.goOn, if_neg (by simp [at'])]) (by simp [remaining, at']))
  | opening left =>
    have isConverse : a.advance around s = a.converse r s := by
      rw [hears, ProcessArtifact.goOn, if_neg (by simp [at'])]
    cases left with
    | nil =>
      exact .inr (speaks (by simp only [Host.step?, at']; rfl) isConverse (by simp [remaining, at']))
    | cons c left =>
      exact .inr (speaks (by simp only [Host.step?, at']; rfl) isConverse
        (by simp [remaining, at', Host.write]))
  | forwarding => exact listens (.inl at')
  | silent => exact listens (.inr at')

/-- When its program has ended, a run that is left alone returns. -/
theorem Attends.finishes (attends : Attends around artifact first t r consumed)
    (ready : artifact.stage = .ready) (fresh : first.properties = [])
    (keeps : artifact.bindings.keepsProperties = true) {status : ExitStatus}
    (ended : r.progress.ending = .ended status) (workDir : Option Path) :
    ∃ n artifact' scene, Leaves around artifact first t.printed artifact' scene ∧
      (ProcessArtifact.kind around workDir).advanceAll none n t.artifact t.scene =
        (artifact', scene, some (t.ending status)) := by
  induction left : remaining r using Nat.strong_induction_on generalizing t r consumed with
  | h m ih =>
    rcases @advance_of_ended around _ _ t.scene _ attends.stage ended with
      ⟨a', s', e, returned⟩ | ⟨a', s', r', went, stage, same, less⟩
    · obtain ⟨_, isEnded, rfl, leaves⟩ := attends.returns fresh returned
      cases ended.symm.trans isEnded
      refine ⟨1, a', s', leaves, ?_⟩
      simp only [ArtifactKind.advanceAll, ProcessArtifact.kind, returned]
    · have quiet : t.artifact.news a' = [] := by
        simp [ProcessArtifact.news, attends.stage, stage, same, attends.noticed]
      have sound := attends.goes keeps (ProcessArtifact.goes_of_next? attends.stage
        (by rw [went]; rfl : (t.artifact.advance around t.scene).next? = some (a', s')))
      rw [went_of_quiet quiet] at sound
      cases sound with
      | ready isReady =>
        have isArtifact : a' = artifact := isReady
        rw [isArtifact, ready] at stage
        cases stage
      | returned isOver => cases stage.symm.trans isOver
      | live attends' =>
        cases stage.symm.trans attends'.stage
        obtain ⟨n, last, scene, leaves, all⟩ := ih _ (left ▸ less) attends' (same ▸ ended) rfl
        refine ⟨n + 1, last, scene, leaves, ?_⟩
        simp only [ArtifactKind.advanceAll, ProcessArtifact.kind, went]
        exact all

/-- However a program prints, ends, and is interrupted by what others do: its output is cut after each
line feed, its run returns only when the program has ended and all lines were heard, and a run that is
left alone then does return. What it leaves and how it ends is what the whole output says; it ends well
exactly if the program said so, no fault and nothing malformed, and ended well. -/
theorem whole_output (ready : artifact.stage = .ready) (blank : artifact.report = none)
    (keeps : artifact.bindings.keepsProperties = true) (fresh : first.properties = [])
    (past : Reaches around (start artifact first) t) (live : t.artifact.stage = .live r) :
    (∃ whole rest, (∀ line ∈ whole, Text.IsLine 10 line) ∧ 10 ∉ rest ∧
      t.printed = whole.flatten ++ rest ∧ Heard.lines t.printed = whole ++ Text.lastPiece rest) ∧
    (∀ artifact' scene e, t.artifact.advance around t.scene = .ended artifact' scene e →
      ∃ status, r.progress.ending = .ended status ∧ e = t.ending status ∧
        Leaves around artifact first t.printed artifact' scene) ∧
    ∀ status, r.progress.ending = .ended status →
      (t.ending status = .returned (.ok ()) ↔ .ok .done ∈ Heard.events t.printed ∧
        (∀ message, .ok (.fault message) ∉ Heard.events t.printed) ∧
        (∀ e, .error e ∉ Heard.events t.printed) ∧ status.success = true) ∧
      ∀ workDir, ∃ n artifact' scene, Leaves around artifact first t.printed artifact' scene ∧
        (ProcessArtifact.kind around workDir).advanceAll none n t.artifact t.scene =
          (artifact', scene, some (t.ending status)) := by
  obtain ⟨consumed, attends⟩ := past.attends ready blank keeps live
  refine ⟨Heard.exists_lines t.printed, fun _ _ _ returned => attends.returns fresh returned,
    fun status ended => ⟨?_, attends.finishes ready fresh keeps ended⟩⟩
  rw [ending, RunEnding.returned.injEq]
  exact Heard.verdict_ok_iff status _

/-! ### A rehearsed run -/

/-- A program that is bound to somebody who watches. -/
def watched : ProcessArtifact :=
  { Conversation.echoing with bindings := { handle := 0, observers := ["o"] } }

/-- The program starts, prints some text and ends. -/
def spoken? (text : Shell.Chars) : Option Hearing :=
  (watched.advance ⟨[], []⟩ Conversation.stage).next?.bind fun next =>
    match next.1.stage with
    | .live r =>
      if r.progress.ending = .waiting then
        some (((start watched Conversation.stage).went next.1 next.2).went { next.1 with
          stage := .live (r.notice next.2.files ⟨[.stdout text], .ended (.code 0)⟩).1 } next.2)
      else none
    | _ => none

theorem reaches_of_spoken? {text : Shell.Chars} (spoken : spoken? text = some t) :
    Reaches ⟨[], []⟩ (start watched Conversation.stage) t := by
  obtain ⟨⟨a, s⟩, next, said⟩ := Option.bind_eq_some_iff.mp spoken
  have begun := (@Reaches.refl ⟨[], []⟩ (start watched Conversation.stage)).tail (.goesOn next)
  split at said
  case h_1 r stage =>
    obtain ⟨running, ⟨⟩⟩ := Option.ite_none_right_eq_some.mp said
    exact begun.tail (.acts stage running)
  case h_2 => cases said

end Hearing

open Hearing in
/-- Lines with and without a carriage return, an empty line and a rest that says more after the end was
said: all of it counts. -/
theorem Hearing.whole_output_rehearsed : ∃ t r,
    Reaches ⟨[], []⟩ (start watched Conversation.stage) t ∧ t.artifact.stage = .live r ∧
      Heard.outputs (Heard.events t.printed) = ["x", "", "late"] ∧
      Heard.changes (Heard.events t.printed) = [⟨"p", "0", "1"⟩, ⟨"p", "1", "2"⟩] ∧
      t.ending (.code 0) = .returned (.ok ()) ∧
      ∃ n artifact' scene,
        Leaves ⟨[], []⟩ watched Conversation.stage t.printed artifact' scene ∧
          (ProcessArtifact.kind ⟨[], []⟩ none).advanceAll none n t.artifact t.scene =
            (artifact', scene, some (t.ending (.code 0))) := by
  have spoken : ((spoken?
      (Shell.ofText "@property p 0 1\r\nx\n\n@done\n@property p 1 2\nlate")).any fun t =>
      decide (Heard.outputs (Heard.events t.printed) = ["x", "", "late"] ∧
        Heard.changes (Heard.events t.printed) = [⟨"p", "0", "1"⟩, ⟨"p", "1", "2"⟩] ∧
        .ok .done ∈ Heard.events t.printed ∧
        Heard.faults (Heard.events t.printed) = [] ∧ Heard.violations (Heard.events t.printed) = []) &&
      match t.artifact.stage with
        | .live r => decide (r.progress.ending = .ended (.code 0))
        | _ => false) = true := by
    decide +kernel
  obtain ⟨t, said, facts⟩ := (Option.any_eq_true _ _).mp spoken
  rw [Bool.and_eq_true, decide_eq_true_iff] at facts
  obtain ⟨⟨outputs, changes, done, faults, violations⟩, ended⟩ := facts
  have past := reaches_of_spoken? said
  split at ended
  case h_1 r live =>
    obtain ⟨-, -, finishes⟩ := whole_output rfl rfl rfl rfl past live
    obtain ⟨endsWell, returns⟩ := finishes (.code 0) (of_decide_eq_true ended)
    exact ⟨t, r, past, live, outputs, changes,
      endsWell.mpr ⟨done, Heard.faults_eq_nil_iff.mp faults,
        Heard.violations_eq_nil_iff.mp violations, rfl⟩, returns none⟩
  case h_2 => cases ended

end SimWorkbench
