import SimWorkbench.Proofs.Keyed
import SimWorkbench.Run.ProcessArtifact
import SimWorkbench.Run.Rehearsal

/-!
# The conduct of artifacts

What an artifact may do to what it shares with its controller: it opens and closes no handle, makes
and takes back no request to stop, opens no finished channel, and its properties are the last values
of the changes it reports. Programs and rehearsals keep to that.
-/
namespace SimWorkbench

/-- Whether a writer is that of an earlier time: handles that were closed are closed. -/
structure OutputSink.Follows (s s' : OutputSink) : Prop where
  handles : s.accepting.length ≤ s'.accepting.length
  closed : ∀ h < s.accepting.length, s.isOpen h = false → s'.isOpen h = false

namespace OutputSink

variable {s s' : OutputSink}

theorem Follows.refl (s : OutputSink) : s.Follows s := ⟨Nat.le_refl _, fun _ _ closed => closed⟩

theorem follows_close (s : OutputSink) (h : Handle) : s.Follows (s.close h) := by
  refine ⟨by simp [close], fun i _ closed => ?_⟩
  by_cases same : i = h
  · rw [same, isOpen_close_self]
  · rw [s.isOpen_close_of_ne same, closed]

theorem follows_session (s : OutputSink) : s.Follows s.session.1 :=
  ⟨by simp [session], fun _ old closed => (s.isOpen_session_of_lt old).trans closed⟩

theorem follows_flush (s : OutputSink) : s.Follows s.flush := ⟨Nat.le_refl _, fun _ _ closed => closed⟩

theorem accepting_writeLine (s : OutputSink) (h : Handle) (line : String) :
    (s.writeLine h line).accepting = s.accepting := by
  rw [writeLine]
  split <;> rfl

theorem Follows.of_accepting (same : s'.accepting = s.accepting) : s.Follows s' :=
  ⟨same ▸ Nat.le_refl _, fun h _ closed => by rw [isOpen, same]; exact closed⟩

/-- A handle that is open is one of the writer. -/
theorem lt_of_isOpen {h : Handle} (isOpen : s.isOpen h = true) : h < s.accepting.length := by
  by_contra beyond
  simp [OutputSink.isOpen, List.getD_eq_getElem?_getD, Nat.le_of_not_lt beyond] at isOpen

end OutputSink

/-! ### Properties -/

namespace Properties

theorem key_eq {p : String × String} {name : String} :
    key p = name.toList.map Char.toNat ↔ p.1 = name := by
  constructor
  · intro same
    rw [← String.toList_inj]
    exact List.map_injective_iff.mpr (fun x y h => Char.ext (UInt32.toNat_inj.mp h)) same
  · rintro rfl
    rfl

theorem get?_eq (ps : Properties) (name : String) :
    ps.get? name = (Keyed.get? key (name.toList.map Char.toNat) ps).map Prod.snd := by
  induction ps with
  | nil => rfl
  | cons p rest ih =>
    rw [Keyed.get?_cons, get?, List.lookup_cons]
    by_cases same : p.1 = name
    · rw [if_pos (key_eq.mpr same), same, beq_self_eq_true]
      rfl
    · rw [if_neg fun h => same (key_eq.mp h), ← ih, beq_false_of_ne (Ne.symm same)]
      rfl

/-- The properties after some changes. -/
def ofChanges (changes : List PropertyChange) : Properties := changes.foldl record []

theorem ofChanges_append (first second : List PropertyChange) :
    ofChanges (first ++ second) = second.foldl record (ofChanges first) :=
  List.foldl_append

/-- The value of a property is the new one of its last change. -/
theorem get?_ofChanges (changes : List PropertyChange) (name : String) :
    (ofChanges changes).get? name =
      (changes.reverse.find? fun c => c.name == name).map PropertyChange.new := by
  have same : ofChanges changes = Keyed.ofList key (changes.map fun c => (c.name, c.new)) := by
    rw [Keyed.ofList, List.foldl_map]
    rfl
  rw [same, get?_eq, Keyed.get?_ofList, ← List.map_reverse, List.find?_map, Option.map_map]
  have names : ((fun p : String × String => key p == name.toList.map Char.toNat) ∘
      fun c : PropertyChange => (c.name, c.new)) = fun c => c.name == name := by
    funext c
    rw [Bool.eq_iff_iff]
    simp only [Function.comp, beq_iff_eq]
    exact key_eq
  rw [names]
  rfl

end Properties

/-! ### Laws -/

/-- What an artifact that reports some changes may do to what it shares with its controller. -/
structure Scene.Follows (reports : List PropertyChange) (s s' : Scene) : Prop where
  properties : s'.properties = reports.foldl Properties.record s.properties
  accepting : s'.sink.accepting = s.sink.accepting
  stopRequested : s'.channel.stopRequested = s.channel.stopRequested
  finished : s.channel.finished = true → s'.channel.finished = true

/-- What an artifact that goes on leaves, itself included. -/
def Advance.next? {α : Type} : Advance α → Option (α × Scene)
  | blocked => none
  | went a s | ended a s _ => some (a, s)

/-- How artifacts of a kind behave, given which of them keep their properties, as those do that a
controller has bound, and what they report in their next step. -/
structure ArtifactKind.Behaves {α : Type} (kind : ArtifactKind α) (keeps : α → Prop)
    (reports : α → Scene → List PropertyChange) : Prop where
  bind : ∀ b a, b.keepsProperties = true → keeps (kind.bind b a).2
  setSingleStep : ∀ on a, keeps a → keeps (kind.setSingleStep on a).2
  advance : ∀ a s a' s', keeps a → (kind.advance a s).next? = some (a', s') →
    keeps a' ∧ s.Follows (reports a s) s'

namespace Scene

variable {s : Scene}

theorem follows_channel {channel : SignalChannel}
    (stopRequested : channel.stopRequested = s.channel.stopRequested)
    (finished : s.channel.finished = true → channel.finished = true) (files : FileTree)
    (journal : List String) :
    s.Follows [] { s with channel := channel, files := files, journal := journal } :=
  ⟨rfl, rfl, stopRequested, finished⟩

theorem Follows.refl (s : Scene) : s.Follows [] s := follows_channel rfl id s.files s.journal

theorem follows_print (s : Scene) (b : Bindings) (line : String) : s.Follows [] (s.print b line) :=
  ⟨rfl, s.sink.accepting_writeLine b.handle line, rfl, id⟩

theorem follows_notify (s : Scene) {b : Bindings} (keeps : b.keepsProperties = true)
    (c : PropertyChange) : s.Follows [c] (s.notify b c) :=
  ⟨by simp [notify, keeps], rfl, rfl, id⟩

end Scene

theorem SignalChannel.take?_flags {c c' : SignalChannel} {signal : Signal}
    (taken : c.take? = some (signal, c')) :
    c'.stopRequested = c.stopRequested ∧ c'.finished = c.finished := by
  unfold take? at taken
  split at taken
  · cases taken
  · split at taken
    · cases taken
    · cases taken
      exact ⟨rfl, rfl⟩

namespace Rehearsal

/-- The changes that a rehearsal reports in its next step. -/
def reports (a : Artifact) (_ : Scene) : List PropertyChange :=
  match a.left with
  | .change c :: _ => [c]
  | _ => []

theorem behaves (instructions : List Instruction) (refusal : Option String) :
    (kind instructions refusal).Behaves (fun a => a.bindings.keepsProperties = true) reports := by
  refine ⟨fun b a keeps => keeps, fun on a keeps => keeps, fun a s a' s' keeps next => ?_⟩
  have taken : ∀ {signal channel} (text : String), s.channel.take? = some (signal, channel) →
      s.Follows [] ({ s with channel := channel }.note text) := fun text taken => by
    obtain ⟨stop, finished⟩ := SignalChannel.take?_flags taken
    exact Scene.follows_channel stop (fun h => finished.trans h) _ _
  simp only [kind, Artifact.advance] at next
  simp only [reports]
  cases left : a.left with
  | nil =>
    simp only [left] at next
    cases next
    exact ⟨keeps, .refl s⟩
  | cons i rest =>
    simp only [left] at next
    cases i with
    | gate =>
      cases passes : a.passes with
      | none =>
        simp only [passes] at next
        cases next
        exact ⟨keeps, .refl s⟩
      | some n =>
        cases n with
        | zero => simp [passes, Advance.next?] at next
        | succ n =>
          simp only [passes] at next
          cases next
          exact ⟨keeps, .refl s⟩
    | note text =>
      cases next
      exact ⟨keeps, Scene.follows_channel rfl id _ _⟩
    | print text =>
      cases next
      exact ⟨keeps, s.follows_print a.bindings text⟩
    | change c =>
      cases next
      exact ⟨keeps, s.follows_notify keeps c⟩
    | report path =>
      cases next
      exact ⟨keeps, .refl s⟩
    | poll =>
      cases waiting : s.channel.take? with
      | none =>
        simp only [waiting] at next
        cases next
        exact ⟨keeps, Scene.follows_channel rfl id _ _⟩
      | some signal =>
        simp only [waiting] at next
        cases next
        exact ⟨keeps, taken _ waiting⟩
    | untilStop =>
      cases waiting : s.channel.take? with
      | none =>
        simp only [waiting] at next
        split at next
        · cases next
          exact ⟨keeps, .refl s⟩
        · cases next
      | some signal =>
        simp only [waiting] at next
        cases next
        refine ⟨?_, taken _ waiting⟩
        split <;> exact keeps
    | fail fault =>
      cases next
      exact ⟨keeps, .refl s⟩
    | panic text =>
      cases next
      exact ⟨keeps, .refl s⟩

/-- Rehearsals that nobody needs to let through. -/
def unattended (instructions : List Instruction) : ArtifactKind Artifact :=
  { kind instructions none with
    load := fun files loaded searchPath =>
      let (notes, artifact) := (kind instructions none).load files loaded searchPath
      (notes, artifact.map Artifact.allowAll) }

theorem unattended_behaves (instructions : List Instruction) :
    (unattended instructions).Behaves (fun a => a.bindings.keepsProperties = true) reports :=
  have behaves := behaves instructions none
  ⟨behaves.bind, behaves.setSingleStep, behaves.advance⟩

end Rehearsal

namespace ProcessArtifact

/-- The changes that a program reports in its next step: that of the line that is heard. -/
def reports (surroundings : Surroundings) (a : ProcessArtifact) (_ : Scene) : List PropertyChange :=
  match a.stage with
  | .live r =>
    if r.host.stage = .forwarding || r.host.stage = .silent then
      match r.pending with
      | line :: _ =>
        match (r.heard.hear (a.directory surroundings) line).2 with
        | some (.change c) => [c]
        | _ => []
      | [] => []
    else []
  | _ => []

theorem follows_pass (a : ProcessArtifact) (s : Scene) (keeps : a.bindings.keepsProperties = true)
    (passing : Option Passing) :
    s.Follows (match passing with | some (.change c) => [c] | _ => []) (a.pass s passing) := by
  match passing with
  | none => exact .refl s
  | some (.line text) => exact s.follows_print a.bindings text
  | some (.change c) => exact s.follows_notify keeps c

theorem step?_flags {h h' : Host} {c c' : SignalChannel} {listening : Bool}
    (step : h.step? c listening = some (h', c')) :
    c'.stopRequested = c.stopRequested ∧ c'.finished = c.finished := by
  unfold Host.step? at step
  split at step
  · cases step; exact ⟨rfl, rfl⟩
  · cases step; exact ⟨rfl, rfl⟩
  · cases step; exact ⟨rfl, rfl⟩
  · cases step; exact ⟨rfl, rfl⟩
  · obtain ⟨⟨signal, rest⟩, taken, ⟨⟩⟩ := Option.map_eq_some_iff.mp step
    exact SignalChannel.take?_flags taken
  · cases step

theorem follows_converse {a a' : ProcessArtifact} {r : ProcessRun} {s s' : Scene}
    (next : (a.converse r s).next? = some (a', s')) :
    a'.bindings = a.bindings ∧ s.Follows [] s' := by
  unfold converse at next
  cases step : r.host.step? s.channel r.listening with
  | none => simp [step, Advance.next?] at next
  | some moved =>
    obtain ⟨host, channel⟩ := moved
    obtain ⟨stop, finished⟩ := step?_flags step
    simp only [step] at next
    cases next
    exact ⟨rfl, Scene.follows_channel stop (fun h => finished.trans h) _ _⟩

theorem behaves (surroundings : Surroundings) (workDir : Option Path) :
    (kind surroundings workDir).Behaves (fun a => a.bindings.keepsProperties = true)
      (reports surroundings) := by
  refine ⟨fun b a keeps => keeps, fun on a keeps => keeps, fun a s a' s' keeps next => ?_⟩
  simp only [kind, advance] at next
  simp only [reports]
  cases stage : a.stage with
  | ready =>
    simp only [stage, begin] at next
    split at next <;>
    · cases next
      exact ⟨keeps, .refl s⟩
  | live r =>
    simp only [stage, goOn] at next
    simp only
    split at next
    case isTrue hears =>
      rw [if_pos hears]
      cases pending : r.pending with
      | cons line rest =>
        simp only [pending] at next
        cases next
        exact ⟨keeps, follows_pass a s keeps _⟩
      | nil =>
        simp only [pending] at next
        cases ending : r.progress.ending with
        | ended status =>
          simp only [ending] at next
          cases next
          exact ⟨keeps, rfl, rfl, rfl, fun _ => rfl⟩
        | waiting =>
          simp only [ending] at next
          obtain ⟨bindings, follows⟩ := follows_converse next
          exact ⟨bindings ▸ keeps, follows⟩
    case isFalse opens =>
      rw [if_neg opens]
      obtain ⟨bindings, follows⟩ := follows_converse next
      exact ⟨bindings ▸ keeps, follows⟩
  | _ =>
    simp only [stage] at next
    cases next
    exact ⟨keeps, .refl s⟩

end ProcessArtifact
end SimWorkbench
