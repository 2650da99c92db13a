import SimWorkbench.Proofs.Run.Conduct
import SimWorkbench.Proofs.Run.Signals

/-!
# The transcript of a run

What a host writes to a program has a fixed form, however requests, the program and the host take
turns: what the program is to know, one command to run or to stop, and then a command for each signal
taken from the channel, in the order in which the requests were accepted. The program may listen or
not whenever it likes, and nothing is written any more when its run has returned.
-/
namespace SimWorkbench

/-- The command with which a run begins after some accepted requests. -/
def Command.opening (requests : List Signal) : Command := if .stop ∈ requests then stop else run

/-- A run of a program with what was asked of it and what it was told. -/
structure Conversation where
  artifact : ProcessArtifact
  scene : Scene
  /-- The requests that the channel accepted, oldest first. -/
  accepted : List Signal
  /-- What had been accepted when the host looked at the stepping mode. -/
  looked : Option (List Signal)
  /-- What had been accepted when the host chose between running and stopping. -/
  chosen : Option (List Signal)
  /-- The commands written to the program, oldest first. -/
  written : List Command

/-- What there is of the host of a run. -/
inductive HostPoint where
  /-- The run has not begun; this is what its host will know. -/
  | waiting (settings : RunSettings) (singleStep : Bool)
  | on (host : Host)
  | over

namespace HostPoint

/-- Whether the host looks at the stepping mode next. -/
def looks : HostPoint → Bool
  | .on host => host.stage = .begun
  | .waiting .. | .over => false

/-- Whether the host chooses between running and stopping next. -/
def chooses : HostPoint → Bool
  | .on ⟨_, _, .choosing _, _⟩ => true
  | _ => false

/-- What a host has written. -/
def written? : HostPoint → Option (List Command)
  | .on host => some host.written
  | .waiting .. | .over => none

end HostPoint

/-- What there is of the host of an artifact's run. -/
def ProcessArtifact.point (a : ProcessArtifact) : HostPoint :=
  match a.stage with
  | .ready => .waiting a.bindings.settings a.bindings.singleStep
  | .live r => .on r.host
  | .over => .over

namespace Conversation

/-- A run that has not begun, bound to a channel of its own. -/
def start (artifact : ProcessArtifact) (scene : Scene) : Conversation :=
  ⟨artifact, { scene with channel := .fresh }, [], none, none, []⟩

/-- The conversation when somebody has asked for something. -/
def asked (t : Conversation) (s : Signal) : Conversation :=
  { t with
    scene := { t.scene with channel := t.scene.channel.request s }
    accepted := t.accepted ++ t.scene.channel.accepted s }

/-- The conversation when the host has gone on. -/
def went (t : Conversation) (artifact : ProcessArtifact) (scene : Scene) : Conversation where
  artifact := artifact
  scene := scene
  accepted := t.accepted
  looked := if t.artifact.point.looks then some t.accepted else t.looked
  chosen := if t.artifact.point.chooses then some t.accepted else t.chosen
  written := artifact.point.written?.getD t.written

/-- What can happen in a conversation. -/
inductive Step (around : Surroundings) : Conversation → Conversation → Prop where
  /-- Somebody asks the run for something. -/
  | asks {t : Conversation} (s : Signal) : Step around t (t.asked s)
  /-- Somebody closes the channel. -/
  | closes {t : Conversation} :
    Step around t { t with scene := { t.scene with channel := t.scene.channel.finish } }
  /-- Others change what they share with the run, the channel apart. -/
  | shares {t : Conversation} {scene : Scene} (channel : scene.channel = t.scene.channel) :
    Step around t { t with scene := scene }
  /-- The program does anything: it prints, ends, listens no more. -/
  | acts {t : Conversation} {artifact : ProcessArtifact}
    (point : artifact.point = t.artifact.point) : Step around t { t with artifact := artifact }
  /-- The run goes on. -/
  | advances {t : Conversation} {artifact : ProcessArtifact} {scene : Scene}
    (next : (t.artifact.advance around t.scene).next? = some (artifact, scene)) :
    Step around t (t.went artifact scene)
  /-- A signal is passed on while lines of the program wait to be heard. -/
  | forwards {t : Conversation} {artifact : ProcessArtifact} {host host' : Host} {listening : Bool}
    {channel : SignalChannel} (point : t.artifact.point = .on host)
    (forwarding : host.stage = .forwarding)
    (step : host.step? t.scene.channel listening = some (host', channel))
    (point' : artifact.point = .on host') :
    Step around t (t.went artifact { t.scene with channel := channel })

/-- What some schedule leads to. -/
inductive Reaches (around : Surroundings) : Conversation → Conversation → Prop where
  | refl (t : Conversation) : Reaches around t t
  | tail {t u v : Conversation} (past : Reaches around t u) (step : Step around u v) :
    Reaches around t v

variable {around : Surroundings} {settings : RunSettings} {singleStep : Bool}
  {t u : Conversation} {taken : List Signal}

/-- All that a host with some settings is to write when it has taken some signals. -/
def script (t : Conversation) (settings : RunSettings) (singleStep : Bool) (taken : List Signal) :
    List Command :=
  Host.preface settings (singleStep || Signal.stepping (t.looked.getD [])) ++
    [Command.opening (t.chosen.getD [])] ++ taken.map Command.ofSignal

/-! ### What is said at each point -/

/-- Whether the host has not chosen how the run begins and has said nothing. -/
structure Unsaid (t : Conversation) (taken : List Signal) : Prop where
  chosen : t.chosen = none
  written : t.written = []
  taken : taken = []

/-- What had been accepted when the host looked at the stepping mode and when it chose. -/
structure Decided (t : Conversation) (seen known : List Signal) : Prop where
  looked : t.looked = some seen
  chosen : t.chosen = some known
  first : seen <+: known
  before : known <+: t.accepted

/-- What has been said so far, by where the host is. -/
inductive Told (settings : RunSettings) (singleStep : Bool) (t : Conversation) (taken : List Signal) :
    Prop where
  | ready (point : t.artifact.point = .waiting settings singleStep) (looked : t.looked = none)
    (unsaid : t.Unsaid taken)
  | begun (point : t.artifact.point = .on (.start settings singleStep)) (looked : t.looked = none)
    (unsaid : t.Unsaid taken)
  | choosing {seen : List Signal}
    (point : t.artifact.point = .on ⟨settings, singleStep,
      .choosing (Host.preface settings (singleStep || Signal.stepping seen)), []⟩)
    (looked : t.looked = some seen) (before : seen <+: t.accepted) (unsaid : t.Unsaid taken)
  | opening {left : List Command} {seen known : List Signal}
    (point : t.artifact.point = .on ⟨settings, singleStep, .opening left, t.written⟩)
    (decided : t.Decided seen known) (written : t.written ++ left = t.script settings singleStep [])
    (untaken : taken = [])
  | forwarding {seen known : List Signal}
    (point : t.artifact.point = .on ⟨settings, singleStep, .forwarding, t.written⟩)
    (decided : t.Decided seen known) (written : t.written = t.script settings singleStep taken)
  | silent {seen known : List Signal}
    (point : t.artifact.point = .on ⟨settings, singleStep, .silent, t.written⟩)
    (decided : t.Decided seen known) (written : t.written <+: t.script settings singleStep taken)
  | returned {seen known : List Signal} (point : t.artifact.point = .over)
    (decided : t.Decided seen known) (written : t.written <+: t.script settings singleStep taken)
  | neverBegan (point : t.artifact.point = .over) (looked : t.looked = none)
    (unsaid : t.Unsaid taken)

/-- As long as the host does not go on, nothing changes of what was said, whoever asks for more. -/
theorem Told.rests {artifact : ProcessArtifact} {scene : Scene} {accepted : List Signal}
    (told : t.Told settings singleStep taken) (point : artifact.point = t.artifact.point)
    (more : t.accepted <+: accepted) :
    ({ t with artifact := artifact, scene := scene, accepted := accepted } : Conversation).Told
      settings singleStep taken := by
  have unsaid : t.Unsaid taken → Unsaid
      { t with artifact := artifact, scene := scene, accepted := accepted } taken :=
    fun ⟨chosen, written, untaken⟩ => ⟨chosen, written, untaken⟩
  have decided : ∀ {seen known}, t.Decided seen known → Decided
      { t with artifact := artifact, scene := scene, accepted := accepted } seen known :=
    fun ⟨looked, chosen, first, before⟩ => ⟨looked, chosen, first, before.trans more⟩
  cases told with
  | ready here looked said => exact .ready (point.trans here) looked (unsaid said)
  | begun here looked said => exact .begun (point.trans here) looked (unsaid said)
  | choosing here looked before said =>
    exact .choosing (point.trans here) looked (before.trans more) (unsaid said)
  | opening here known written untaken =>
    exact .opening (point.trans here) (decided known) written untaken
  | forwarding here known written => exact .forwarding (point.trans here) (decided known) written
  | silent here known written => exact .silent (point.trans here) (decided known) written
  | returned here known written => exact .returned (point.trans here) (decided known) written
  | neverBegan here looked said => exact .neverBegan (point.trans here) looked (unsaid said)

/-- The signals that a host takes in one step. -/
def taking (host : Host) (channel : SignalChannel) : List Signal :=
  if host.stage = .forwarding then (channel.take?.map Prod.fst).toList else []

/-- A command is written, or the host falls silent. -/
theorem write_cases (host : Host) (listening : Bool) (c : Command) (next : HostStage) :
    host.write listening c next = ⟨host.settings, host.singleStep, next, host.written ++ [c]⟩ ∨
      host.write listening c next = ⟨host.settings, host.singleStep, .silent, host.written⟩ := by
  cases listening with
  | true => exact .inl rfl
  | false => exact .inr rfl

/-- When the host has chosen, its steps change nothing of what it saw. -/
theorem Decided.went {artifact : ProcessArtifact} {scene : Scene} {seen known : List Signal}
    (decided : t.Decided seen known) (looks : t.artifact.point.looks = false)
    (chooses : t.artifact.point.chooses = false) : (t.went artifact scene).Decided seen known where
  looked := by simp [Conversation.went, looks, decided.looked]
  chosen := by simp [Conversation.went, chooses, decided.chosen]
  first := decided.first
  before := decided.before

theorem script_went {artifact : ProcessArtifact} {scene : Scene}
    (looks : t.artifact.point.looks = false) (chooses : t.artifact.point.chooses = false) :
    (t.went artifact scene).script settings singleStep taken = t.script settings singleStep taken := by
  simp [script, Conversation.went, looks, chooses]

theorem script_append (t : Conversation) (settings : RunSettings) (singleStep : Bool)
    (taken more : List Signal) :
    t.script settings singleStep (taken ++ more) =
      t.script settings singleStep taken ++ more.map Command.ofSignal := by
  simp [script]

theorem written_went {artifact : ProcessArtifact} {scene : Scene} {host : Host}
    (point : artifact.point = .on host) : (t.went artifact scene).written = host.written := by
  simp [Conversation.went, point, HostPoint.written?]

/-- The host has said the whole script so far. -/
theorem Told.forwards {artifact : ProcessArtifact} {scene : Scene} {seen known : List Signal}
    {commands : List Command} (decided : t.Decided seen known)
    (looks : t.artifact.point.looks = false) (chooses : t.artifact.point.chooses = false)
    (point : artifact.point = .on ⟨settings, singleStep, .forwarding, commands⟩)
    (written : commands = t.script settings singleStep taken) :
    (t.went artifact scene).Told settings singleStep taken := by
  have written' : (t.went artifact scene).written = commands := written_went point
  exact .forwarding (point.trans (by rw [written'])) (decided.went looks chooses)
    (written'.trans (written.trans (script_went looks chooses).symm))

/-- The host falls silent before it has said the whole script. -/
theorem Told.fallsSilent {artifact : ProcessArtifact} {scene : Scene} {seen known : List Signal}
    (decided : t.Decided seen known) (looks : t.artifact.point.looks = false)
    (chooses : t.artifact.point.chooses = false)
    (point : artifact.point = .on ⟨settings, singleStep, .silent, t.written⟩)
    (written : t.written <+: t.script settings singleStep taken) :
    (t.went artifact scene).Told settings singleStep taken := by
  have written' : (t.went artifact scene).written = t.written := written_went point
  refine .silent (point.trans (by rw [written'])) (decided.went looks chooses) ?_
  rw [written', script_went looks chooses]
  exact written

/-- A step of the host says what comes next. -/
theorem Told.speaks {artifact : ProcessArtifact} {scene : Scene} {host host' : Host}
    {channel : SignalChannel} {listening : Bool} (told : t.Told settings singleStep taken)
    (tells : t.scene.channel.Tells t.accepted) (point : t.artifact.point = .on host)
    (step : host.step? t.scene.channel listening = some (host', channel))
    (point' : artifact.point = .on host') :
    (t.went artifact scene).Told settings singleStep (taken ++ taking host t.scene.channel) := by
  cases told with
  | ready here | returned here | neverBegan here => cases here.symm.trans point
  | begun here looked said =>
    obtain ⟨chosen, written, rfl⟩ := said
    cases here.symm.trans point
    cases step
    rw [tells.stepping] at point'
    refine .choosing point' ?_ (List.prefix_refl _) ⟨?_, written_went point', rfl⟩
    · simp [went, here, HostPoint.looks, Host.start]
    · simp [went, here, HostPoint.chooses, Host.start, chosen]
  | @choosing seen here looked before said =>
    obtain ⟨chosen, written, rfl⟩ := said
    cases here.symm.trans point
    cases step
    have last : (if t.scene.channel.stopRequested = true then .stop else .run) =
        Command.opening t.accepted := by
      simp only [tells.stop, Command.opening]
    rw [last] at point'
    have chosen' : (t.went artifact scene).chosen = some t.accepted := by
      simp [went, here, HostPoint.chooses]
    have looked' : (t.went artifact scene).looked = some seen := by
      simp [went, here, HostPoint.looks, looked]
    have written' : (t.went artifact scene).written = [] := written_went point'
    refine .opening (point'.trans (by rw [written'])) ⟨looked', chosen', before, List.prefix_refl _⟩
      ?_ rfl
    simp [script, written', looked', chosen']
  | @opening left seen known here decided written untaken =>
    subst untaken
    cases here.symm.trans point
    have looks : t.artifact.point.looks = false := by rw [here]; rfl
    have chooses : t.artifact.point.chooses = false := by rw [here]; rfl
    cases left with
    | nil =>
      cases step
      exact .forwards decided looks chooses point' ((List.append_nil _).symm.trans written)
    | cons first left =>
      cases step
      rcases write_cases ⟨settings, singleStep, .opening (first :: left), t.written⟩ listening first
        (.opening left) with wrote | silent
      · rw [wrote] at point'
        have written' : (t.went artifact scene).written = t.written ++ [first] := written_went point'
        refine .opening (point'.trans (by rw [written'])) (decided.went looks chooses) ?_ rfl
        rw [written', script_went looks chooses, List.append_assoc, List.singleton_append, written]
      · rw [silent] at point'
        exact .fallsSilent decided looks chooses point' ⟨first :: left, written⟩
  | @forwarding seen known here decided written =>
    cases here.symm.trans point
    have looks : t.artifact.point.looks = false := by rw [here]; rfl
    have chooses : t.artifact.point.chooses = false := by rw [here]; rfl
    obtain ⟨⟨signal, channel'⟩, takes, next⟩ := Option.map_eq_some_iff.mp step
    cases next
    have isTaken :
        taking ⟨settings, singleStep, .forwarding, t.written⟩ t.scene.channel = [signal] := by
      simp [taking, takes]
    have script' : t.written ++ [Command.ofSignal signal] =
        t.script settings singleStep (taken ++ [signal]) := by
      rw [script_append, written]
      rfl
    rw [isTaken]
    rcases write_cases ⟨settings, singleStep, .forwarding, t.written⟩ listening
      (Command.ofSignal signal) .forwarding with wrote | silent
    · rw [wrote] at point'
      exact .forwards decided looks chooses point' script'
    · rw [silent] at point'
      exact .fallsSilent decided looks chooses point' (script' ▸ List.prefix_append _ _)
  | silent here =>
    cases here.symm.trans point
    cases step

/-! ### Steps of a run -/

/-- All that a step of a run can be. -/
inductive Advances (t : Conversation) (artifact : ProcessArtifact) (scene : Scene) : Prop where
  | begins (here : t.artifact.stage = .ready) (channel : scene.channel = t.scene.channel)
    (point : artifact.point =
      .on (.start t.artifact.bindings.settings t.artifact.bindings.singleStep))
  | fails (here : t.artifact.stage = .ready) (channel : scene.channel = t.scene.channel)
    (point : artifact.point = .over)
  | speaks {host host' : Host} {listening : Bool} (here : t.artifact.point = .on host)
    (step : host.step? t.scene.channel listening = some (host', scene.channel))
    (point : artifact.point = .on host')
  | hears {host : Host} (here : t.artifact.point = .on host)
    (set : host.stage = .forwarding ∨ host.stage = .silent)
    (channel : scene.channel = t.scene.channel) (point : artifact.point = t.artifact.point)
  | returns {host : Host} (here : t.artifact.point = .on host)
    (set : host.stage = .forwarding ∨ host.stage = .silent)
    (channel : scene.channel = t.scene.channel.finish) (point : artifact.point = .over)
  | stays (here : t.artifact.point = .over) (channel : scene.channel = t.scene.channel)
    (point : artifact.point = .over)

theorem advances_of_next? {artifact : ProcessArtifact} {scene : Scene}
    (next : (t.artifact.advance around t.scene).next? = some (artifact, scene)) :
    t.Advances artifact scene := by
  have converses : ∀ {r : ProcessRun}, t.artifact.stage = .live r →
      (t.artifact.converse r t.scene).next? = some (artifact, scene) →
      t.Advances artifact scene := by
    intro r stage next
    have here : t.artifact.point = .on r.host := by rw [ProcessArtifact.point, stage]
    unfold ProcessArtifact.converse at next
    cases step : r.host.step? t.scene.channel r.listening with
    | none => simp [step, Advance.next?] at next
    | some moved =>
      obtain ⟨host, channel⟩ := moved
      simp only [step] at next
      cases next
      refine .speaks here step ?_
      simp only [ProcessArtifact.point]
      split <;> rfl
  unfold ProcessArtifact.advance at next
  cases stage : t.artifact.stage with
  | ready =>
    simp only [stage, ProcessArtifact.begin] at next
    split at next
    · cases next
      exact .fails stage rfl rfl
    · cases next
      exact .begins stage rfl rfl
  | live r =>
    have here : t.artifact.point = .on r.host := by rw [ProcessArtifact.point, stage]
    simp only [stage, ProcessArtifact.goOn] at next
    split at next
    case isFalse => exact converses stage next
    case isTrue set =>
      simp only [Bool.or_eq_true, decide_eq_true_eq] at set
      cases pending : r.pending with
      | cons line rest =>
        simp only [pending] at next
        cases next
        refine .hears here set ?_ (by rw [here]; rfl)
        cases (r.heard.hear (t.artifact.directory around) line).2 with
        | none => rfl
        | some passing => cases passing <;> rfl
      | nil =>
        simp only [pending] at next
        cases ending : r.progress.ending with
        | ended status =>
          simp only [ending] at next
          cases next
          exact .returns here set rfl rfl
        | waiting =>
          simp only [ending] at next
          exact converses stage next
  | _ =>
    simp only [stage] at next
    cases next
    have here : t.artifact.point = .over := by rw [ProcessArtifact.point, stage]
    exact .stays here rfl here

/-- A step in which the host says nothing leaves everything that was said. -/
theorem went_of_rest {artifact : ProcessArtifact} {scene : Scene}
    (looks : t.artifact.point.looks = false) (chooses : t.artifact.point.chooses = false)
    (written : artifact.point.written?.getD t.written = t.written) :
    t.went artifact scene = { t with artifact := artifact, scene := scene } := by
  simp [went, looks, chooses, written]

/-- When the opening is over, the host has written what the conversation has. -/
theorem Told.set {host : Host} (told : t.Told settings singleStep taken)
    (point : t.artifact.point = .on host) (set : host.stage = .forwarding ∨ host.stage = .silent) :
    host.written = t.written ∧ ∃ seen known, t.Decided seen known ∧
      t.written <+: t.script settings singleStep taken := by
  cases told with
  | ready here | returned here | neverBegan here => cases here.symm.trans point
  | begun here | choosing here | opening here =>
    cases here.symm.trans point
    simp [Host.start] at set
  | forwarding here decided written =>
    cases here.symm.trans point
    exact ⟨rfl, _, _, decided, written ▸ List.prefix_refl _⟩
  | silent here decided written =>
    cases here.symm.trans point
    exact ⟨rfl, _, _, decided, written⟩

theorem set_looks {host : Host} (set : host.stage = .forwarding ∨ host.stage = .silent) :
    (HostPoint.on host).looks = false ∧ (HostPoint.on host).chooses = false := by
  obtain ⟨settings, singleStep, stage, written⟩ := host
  rcases set with rfl | rfl <;> exact ⟨rfl, rfl⟩

/-! ### Faithful conversations -/

/-- A conversation in which a host with some settings has taken some signals. -/
structure Faithful (settings : RunSettings) (singleStep : Bool) (t : Conversation)
    (taken : List Signal) : Prop where
  told : t.Told settings singleStep taken
  /-- Signals are taken, and wait, in the order in which they were accepted. -/
  order : taken ++ t.scene.channel.queue <+: t.accepted
  /-- Nothing is dropped while the channel is open. -/
  kept : t.scene.channel.finished = false → t.accepted = taken ++ t.scene.channel.queue
  tells : t.scene.channel.Tells t.accepted

variable {artifact : ProcessArtifact} {scene : Scene}

theorem Faithful.start (ready : artifact.stage = .ready) :
    Faithful artifact.bindings.settings artifact.bindings.singleStep (start artifact scene) [] where
  told := .ready (by simp [Conversation.start, ProcessArtifact.point, ready]) rfl ⟨rfl, rfl, rfl⟩
  order := List.prefix_refl _
  kept _ := rfl
  tells := ⟨by simp [Conversation.start, SignalChannel.fresh], rfl⟩

theorem Faithful.asked (faithful : t.Faithful settings singleStep taken) (s : Signal) :
    (t.asked s).Faithful settings singleStep taken := by
  have finished : (t.asked s).scene.channel.finished = t.scene.channel.finished :=
    t.scene.channel.finished_request s
  have queue : (t.asked s).scene.channel.queue =
      t.scene.channel.queue ++ t.scene.channel.accepted s := t.scene.channel.queue_request s
  have kept : t.scene.channel.finished = false →
      (t.asked s).accepted = taken ++ (t.asked s).scene.channel.queue := by
    intro unfinished
    rw [queue, ← List.append_assoc, ← faithful.kept unfinished]
    rfl
  refine ⟨faithful.told.rests rfl (List.prefix_append _ _), ?_, fun h => kept (finished ▸ h),
    faithful.tells.request s⟩
  cases closed : t.scene.channel.finished with
  | false => rw [kept closed]
  | true =>
    have same : t.scene.channel.accepted s = [] := by
      cases s <;> simp [SignalChannel.accepted, SignalChannel.accepts, closed]
    rw [queue, same, List.append_nil]
    exact faithful.order.trans (List.prefix_append _ _)

theorem Faithful.closes (faithful : t.Faithful settings singleStep taken) :
    Faithful settings singleStep
      { t with scene := { t.scene with channel := t.scene.channel.finish } } taken where
  told := faithful.told.rests rfl (List.prefix_refl _)
  order := by
    rw [SignalChannel.finish, List.append_nil]
    exact (List.prefix_append _ _).trans faithful.order
  kept := by simp [SignalChannel.finish]
  tells := ⟨faithful.tells.stop, faithful.tells.stepping⟩

/-- What the host does beside looking at its channel keeps a conversation faithful. -/
theorem Faithful.moves (faithful : t.Faithful settings singleStep taken)
    (told : (t.went artifact scene).Told settings singleStep taken)
    (channel : scene.channel = t.scene.channel) :
    (t.went artifact scene).Faithful settings singleStep taken where
  told := told
  order := by
    simp only [went, channel]
    exact faithful.order
  kept := by
    simp only [went, channel]
    exact faithful.kept
  tells := by
    simp only [went, channel]
    exact faithful.tells

/-- A step of the host takes a signal from the head of the queue, or leaves the channel. -/
theorem channel_of_step {host host' : Host} {channel channel' : SignalChannel} {listening : Bool}
    (step : host.step? channel listening = some (host', channel')) :
    taking host channel ++ channel'.queue = channel.queue ∧
      channel'.stopRequested = channel.stopRequested ∧
      channel'.singleStep = channel.singleStep ∧ channel'.finished = channel.finished := by
  obtain ⟨settings, singleStep, stage, written⟩ := host
  cases stage with
  | begun | choosing first =>
    cases step
    exact ⟨rfl, rfl, rfl, rfl⟩
  | opening left =>
    cases left <;>
    · cases step
      exact ⟨rfl, rfl, rfl, rfl⟩
  | silent => cases step
  | forwarding =>
    obtain ⟨⟨signal, rest⟩, takes, next⟩ := Option.map_eq_some_iff.mp step
    cases next
    obtain ⟨queue, flags⟩ := SignalChannel.take?_spec takes
    refine ⟨?_, flags⟩
    simp [taking, takes, queue]

theorem Faithful.speaks {host host' : Host} {listening : Bool}
    (faithful : t.Faithful settings singleStep taken) (point : t.artifact.point = .on host)
    (step : host.step? t.scene.channel listening = some (host', scene.channel))
    (point' : artifact.point = .on host') :
    (t.went artifact scene).Faithful settings singleStep
      (taken ++ taking host t.scene.channel) := by
  obtain ⟨queue, stop, stepping, finished⟩ := channel_of_step step
  have same : taken ++ taking host t.scene.channel ++ scene.channel.queue =
      taken ++ t.scene.channel.queue := by
    rw [List.append_assoc, queue]
  refine ⟨faithful.told.speaks faithful.tells point step point', ?_, ?_, ?_⟩
  · simp only [went, same]
    exact faithful.order
  · simp only [went, same, finished]
    exact faithful.kept
  · exact ⟨stop ▸ faithful.tells.stop, stepping.trans faithful.tells.stepping⟩

theorem Faithful.advances (faithful : t.Faithful settings singleStep taken)
    (advances : t.Advances artifact scene) :
    ∃ more, (t.went artifact scene).Faithful settings singleStep (taken ++ more) := by
  cases advances with
  | begins here channel point =>
    have waits : t.artifact.point =
        .waiting t.artifact.bindings.settings t.artifact.bindings.singleStep := by
      rw [ProcessArtifact.point, here]
    refine ⟨[], (List.append_nil taken).symm ▸ faithful.moves ?_ channel⟩
    cases faithful.told with
    | ready at' looked unsaid =>
      cases at'.symm.trans waits
      rw [went_of_rest (by rw [waits]; rfl) (by rw [waits]; rfl)
        (by rw [point, unsaid.written]; rfl)]
      exact .begun point looked ⟨unsaid.chosen, unsaid.written, unsaid.taken⟩
    | begun at' | choosing at' | opening at' | forwarding at' | silent at' | returned at'
      | neverBegan at' => cases at'.symm.trans waits
  | fails here channel point =>
    have waits : t.artifact.point =
        .waiting t.artifact.bindings.settings t.artifact.bindings.singleStep := by
      rw [ProcessArtifact.point, here]
    refine ⟨[], (List.append_nil taken).symm ▸ faithful.moves ?_ channel⟩
    rw [went_of_rest (by rw [waits]; rfl) (by rw [waits]; rfl) (by rw [point]; rfl)]
    cases faithful.told with
    | ready at' looked unsaid =>
      exact .neverBegan point looked ⟨unsaid.chosen, unsaid.written, unsaid.taken⟩
    | begun at' | choosing at' | opening at' | forwarding at' | silent at' | returned at'
      | neverBegan at' => cases at'.symm.trans waits
  | speaks here step point => exact ⟨_, faithful.speaks here step point⟩
  | hears here set channel point =>
    obtain ⟨looks, chooses⟩ := set_looks set
    obtain ⟨written, -⟩ := faithful.told.set here set
    refine ⟨[], (List.append_nil taken).symm ▸ faithful.moves ?_ channel⟩
    rw [went_of_rest (by rw [here, looks]) (by rw [here, chooses])
      (by rw [point, here]; exact written)]
    exact faithful.told.rests point (List.prefix_refl _)
  | returns here set channel point =>
    obtain ⟨looks, chooses⟩ := set_looks set
    obtain ⟨-, seen, known, decided, written⟩ := faithful.told.set here set
    refine ⟨[], ?_⟩
    rw [List.append_nil, went_of_rest (by rw [here, looks]) (by rw [here, chooses])
      (by rw [point]; rfl)]
    have closed := faithful.closes
    refine ⟨.returned point ⟨decided.looked, decided.chosen, decided.first, decided.before⟩ written,
      ?_, ?_, ?_⟩
    · simpa only [channel] using closed.order
    · simpa only [channel] using closed.kept
    · simpa only [channel] using closed.tells
  | stays here channel point =>
    refine ⟨[], (List.append_nil taken).symm ▸ faithful.moves ?_ channel⟩
    rw [went_of_rest (by rw [here]; rfl) (by rw [here]; rfl) (by rw [point]; rfl)]
    exact faithful.told.rests (point.trans here.symm) (List.prefix_refl _)

/-- Whatever happens, a faithful conversation stays faithful. -/
theorem Faithful.step (faithful : t.Faithful settings singleStep taken) (step : Step around t u) :
    ∃ more, u.Faithful settings singleStep (taken ++ more) := by
  cases step with
  | asks s => exact ⟨[], (List.append_nil taken).symm ▸ faithful.asked s⟩
  | closes => exact ⟨[], (List.append_nil taken).symm ▸ faithful.closes⟩
  | shares channel =>
    refine ⟨[], (List.append_nil taken).symm ▸
      ⟨faithful.told.rests rfl (List.prefix_refl _), ?_, ?_, ?_⟩⟩
    · simpa only [channel] using faithful.order
    · simpa only [channel] using faithful.kept
    · simpa only [channel] using faithful.tells
  | acts point =>
    exact ⟨[], (List.append_nil taken).symm ▸
      ⟨faithful.told.rests point (List.prefix_refl _), faithful.order, faithful.kept,
        faithful.tells⟩⟩
  | advances next => exact faithful.advances (advances_of_next? next)
  | forwards point forwarding step point' => exact ⟨_, faithful.speaks point step point'⟩

theorem Faithful.reaches (faithful : t.Faithful settings singleStep taken)
    (past : Reaches around t u) : ∃ more, u.Faithful settings singleStep (taken ++ more) := by
  induction past with
  | refl => exact ⟨[], (List.append_nil taken).symm ▸ faithful⟩
  | tail _ step ih =>
    obtain ⟨more, faithful⟩ := ih
    obtain ⟨more', faithful⟩ := faithful.step step
    exact ⟨more ++ more', List.append_assoc .. ▸ faithful⟩

/-! ### After the return -/

/-- When a run has returned, it stays so and nothing is written. -/
theorem written_of_over (past : Reaches around t u) (returned : t.artifact.point = .over) :
    u.artifact.point = .over ∧ u.written = t.written := by
  induction past with
  | refl => exact ⟨returned, rfl⟩
  | tail _ step ih =>
    obtain ⟨returned, written⟩ := ih
    cases step with
    | asks | closes | shares => exact ⟨returned, written⟩
    | acts point => exact ⟨point.trans returned, written⟩
    | forwards point => cases point.symm.trans returned
    | advances next =>
      cases advances_of_next? next with
      | begins here | fails here =>
        rw [ProcessArtifact.point, here] at returned
        cases returned
      | speaks here | hears here | returns here => cases here.symm.trans returned
      | stays _ _ point =>
        refine ⟨point, ?_⟩
        simp only [went, point, HostPoint.written?]
        exact written

/-! ### The transcript -/

/-- What was written in a conversation whose host has taken some signals. -/
structure Transcript (around : Surroundings) (settings : RunSettings) (singleStep : Bool)
    (t : Conversation) (taken : List Signal) : Prop where
  /-- First comes what the program is to know, then one command to run or to stop, and then one
  command for each signal that was taken. -/
  lines : t.written <+: t.script settings singleStep taken
  /-- While the host passes signals on, it has written all of this. -/
  complete : ∀ host, t.artifact.point = .on host → host.stage = .forwarding →
    t.written = t.script settings singleStep taken
  /-- Each accepted request is taken once at most, in its turn. -/
  order : taken ++ t.scene.channel.queue <+: t.accepted
  /-- None is dropped while the channel is open. -/
  kept : t.scene.channel.finished = false → t.accepted = taken ++ t.scene.channel.queue
  /-- Before the choice nothing is written. -/
  unsaid : t.chosen = none → t.written = []
  /-- The host looks at the stepping mode before it chooses. -/
  seen : ∀ known, t.chosen = some known →
    ∃ seen, t.looked = some seen ∧ seen <+: known ∧ known <+: t.accepted
  /-- A stop that was requested before the choice prevents the run. -/
  stopped : ∀ known, t.chosen = some known → .stop ∈ known → .run ∉ t.written
  once : t.written.count .run ≤ 1
  /-- After a command to stop, none to run follows. -/
  final : ¬ [Command.stop, .run].Sublist t.written
  /-- What is written when the run has returned is all that ever is. -/
  silence : t.artifact.point = .over → ∀ u, Reaches around t u → u.written = t.written

theorem not_mem_preface {c : Command} (c_run_or_stop : c = .run ∨ c = .stop) :
    c ∉ Host.preface settings singleStep := by
  rcases c_run_or_stop with rfl | rfl <;>
    cases settings.stopTime <;> simp [Host.preface]

theorem run_not_passed (requests : List Signal) : .run ∉ requests.map Command.ofSignal := by
  rw [List.mem_map]
  rintro ⟨s, -, same⟩
  cases s <;> cases same

/-- Only the opening command is one to run. -/
theorem count_run (known requests : List Signal) :
    (Host.preface settings singleStep ++ [Command.opening known] ++
      requests.map Command.ofSignal).count .run = if .stop ∈ known then 0 else 1 := by
  rw [List.count_append, List.count_append, List.count_eq_zero.mpr (not_mem_preface (.inl rfl)),
    List.count_eq_zero.mpr (run_not_passed requests), Command.opening]
  split <;> rfl

/-- Nothing that stops a run comes before the opening command, and nothing that begins one after it. -/
theorem no_run_after_stop (known requests : List Signal) :
    ¬ [Command.stop, .run].Sublist (Host.preface settings singleStep ++ [Command.opening known] ++
      requests.map Command.ofSignal) := by
  intro both
  obtain ⟨early, late, split, inOpening, passed⟩ := List.sublist_append_iff.mp both
  have none : late = [] := by
    by_contra some
    have last : .run = late.getLast some := by
      have whole := congrArg List.getLast? split
      rw [List.getLast?_append_of_ne_nil _ some, List.getLast?_eq_some_getLast some] at whole
      exact Option.some.inj whole
    exact run_not_passed requests (passed.subset (last ▸ List.getLast_mem some))
  rw [none, List.append_nil] at split
  subst split
  obtain ⟨first, second, split, told, opens⟩ := List.sublist_append_iff.mp inOpening
  cases first with
  | nil =>
    have few := opens.length_le
    rw [← List.nil_append second, ← split] at few
    simp at few
  | cons c rest =>
    rw [List.cons_append, List.cons.injEq] at split
    exact not_mem_preface (.inr split.1.symm) (told.subset List.mem_cons_self)

/-- A host that has not chosen has written nothing; one that has chosen saw what was accepted. -/
theorem Told.choice (told : t.Told settings singleStep taken) :
    (t.chosen = none ∧ t.written = []) ∨ ∃ seen known, t.Decided seen known ∧
      t.written <+: t.script settings singleStep taken := by
  cases told with
  | ready _ _ unsaid | begun _ _ unsaid | choosing _ _ _ unsaid | neverBegan _ _ unsaid =>
    exact .inl ⟨unsaid.chosen, unsaid.written⟩
  | opening _ decided written untaken =>
    exact .inr ⟨_, _, decided, untaken ▸ ⟨_, written⟩⟩
  | forwarding _ decided written => exact .inr ⟨_, _, decided, written ▸ List.prefix_refl _⟩
  | silent _ decided written | returned _ decided written => exact .inr ⟨_, _, decided, written⟩

theorem Told.complete (told : t.Told settings singleStep taken) {host : Host}
    (point : t.artifact.point = .on host) (forwarding : host.stage = .forwarding) :
    t.written = t.script settings singleStep taken := by
  cases told with
  | ready here | returned here | neverBegan here => cases here.symm.trans point
  | begun here | choosing here | opening here | silent here =>
    cases here.symm.trans point
    cases forwarding
  | forwarding _ _ written => exact written

theorem Faithful.accords (faithful : t.Faithful settings singleStep taken) :
    t.Transcript around settings singleStep taken := by
  have silence : t.artifact.point = .over → ∀ u, Reaches around t u → u.written = t.written :=
    fun returned _ past => (written_of_over past returned).2
  rcases faithful.told.choice with ⟨chosen, written⟩ | ⟨seen, known, decided, written⟩
  · refine ⟨?_, fun _ => faithful.told.complete, faithful.order, faithful.kept, fun _ => written,
      ?_, ?_, ?_, ?_, silence⟩
    · exact written ▸ List.nil_prefix
    · intro known chosen'
      cases chosen.symm.trans chosen'
    · intro known chosen'
      cases chosen.symm.trans chosen'
    · simp [written]
    · simp [written]
  · have count : (t.script settings singleStep taken).count .run =
        if .stop ∈ known then 0 else 1 := by
      rw [script, decided.chosen]
      exact count_run known taken
    have fewer := written.sublist.count_le .run
    refine ⟨written, fun _ => faithful.told.complete, faithful.order, faithful.kept, ?_, ?_, ?_, ?_,
      ?_, silence⟩
    · intro chosen
      cases chosen.symm.trans decided.chosen
    · intro known' chosen
      cases chosen.symm.trans decided.chosen
      exact ⟨seen, decided.looked, decided.first, decided.before⟩
    · intro known' chosen stop
      cases chosen.symm.trans decided.chosen
      rw [count, if_pos stop] at fewer
      exact List.count_eq_zero.mp (Nat.le_zero.mp fewer)
    · refine fewer.trans ?_
      rw [count]
      split <;> omega
    · intro both
      have whole := both.trans written.sublist
      exact no_run_after_stop _ _ whole

/-- Whatever is asked of a run and whatever its program does, at each moment what was written to the
program is the beginning of its transcript. -/
theorem transcript (ready : artifact.stage = .ready)
    (past : Reaches around (start artifact scene) t) :
    ∃ taken, t.Transcript around artifact.bindings.settings artifact.bindings.singleStep taken := by
  obtain ⟨taken, faithful⟩ := (Faithful.start ready).reaches past
  exact ⟨_, faithful.accords⟩

/-! ### A rehearsed conversation -/

/-- What one can let happen in a conversation. -/
inductive Move where
  | asks (s : Signal)
  | closes
  | advances
  /-- A signal is passed on to a program that listens, before its lines are heard. -/
  | forwards

/-- The conversation after a move, if the run can go on. -/
def move? (around : Surroundings) (t : Conversation) : Move → Option Conversation
  | .asks s => some (t.asked s)
  | .closes => some { t with scene := { t.scene with channel := t.scene.channel.finish } }
  | .advances => (t.artifact.advance around t.scene).next?.map fun next => t.went next.1 next.2
  | .forwards =>
    match t.artifact.stage with
    | .live r =>
      if r.host.stage = .forwarding then
        (r.host.step? t.scene.channel true).map fun next =>
          t.went { t.artifact with stage := .live { r with host := next.1 } }
            { t.scene with channel := next.2 }
      else none
    | _ => none

theorem step_of_move? {move : Move} (moved : t.move? around move = some u) : Step around t u := by
  cases move with
  | asks s =>
    cases moved
    exact .asks s
  | closes =>
    cases moved
    exact .closes
  | advances =>
    obtain ⟨next, goes, rfl⟩ := Option.map_eq_some_iff.mp moved
    exact .advances goes
  | forwards =>
    simp only [move?] at moved
    split at moved
    case h_2 => cases moved
    case h_1 r stage =>
      split at moved
      case isFalse => cases moved
      case isTrue forwarding =>
        obtain ⟨next, step, rfl⟩ := Option.map_eq_some_iff.mp moved
        exact .forwards (by rw [ProcessArtifact.point, stage]) forwarding step rfl

/-- The conversation after some moves. -/
def after? (around : Surroundings) (t : Conversation) (moves : List Move) : Option Conversation :=
  moves.foldlM (fun t move => t.move? around move) t

theorem reaches_of_after? {moves : List Move} (happened : t.after? around moves = some u) :
    Reaches around t u := by
  suffices later : ∀ {b}, Reaches around b t → Reaches around b u from later (.refl t)
  induction moves generalizing t with
  | nil =>
    cases happened
    exact id
  | cons move rest ih =>
    rw [after?, List.foldlM_cons] at happened
    obtain ⟨next, first, happened⟩ := Option.bind_eq_some_iff.mp happened
    exact fun past => ih happened (past.tail (step_of_move? first))

/-- A program that says what it is told, not bound to anything yet. -/
def echoing : ProcessArtifact := .fresh ⟨"/b/cat"⟩ [] none

def stage : Scene where
  files := ⟨[(["b"], .directory), (["b", "cat"], .tool "cat")]⟩
  sink := .fresh
  channel := .fresh
  properties := []
  notices := []
  journal := []

/-- A stop is requested when the host has looked at the stepping mode and has not chosen yet. -/
def interruption : List Move :=
  [.asks (.singleStep true), .advances, .advances, .asks .stop, .advances, .asks .step] ++
    List.replicate 5 .advances ++ List.replicate 3 .forwards

end Conversation

open Conversation in
/-- The rehearsed program is told to stop, and then of each request in its turn. -/
theorem Conversation.transcript_rehearsed : ∃ t, Reaches ⟨[], []⟩ (start echoing stage) t ∧
    t.written = [.verbose false, .replications 1, .singleStep true, .stop,
      .singleStep true, .stop, .step] ∧
    ∃ taken, t.Transcript ⟨[], []⟩ echoing.bindings.settings false taken := by
  have told : ((start echoing stage).after? ⟨[], []⟩ interruption).any (fun t =>
      t.written = [.verbose false, .replications 1, .singleStep true, .stop,
        .singleStep true, .stop, .step]) = true := by decide +kernel
  obtain ⟨t, happened, written⟩ := (Option.any_eq_true _ _).mp told
  have past := reaches_of_after? happened
  exact ⟨t, past, of_decide_eq_true written, transcript rfl past⟩

end SimWorkbench
