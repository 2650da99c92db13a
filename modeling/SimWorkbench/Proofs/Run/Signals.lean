import SimWorkbench.Run.Signal
import Mathlib.Data.List.Infix
import Mathlib.Logic.Function.Basic

/-!
# Signals between threads

Any number of threads share the channel of a run: they ask, take, wait for something to take, and
close it. What a thread does while it holds the lock is one move. A thread that finds nothing to
take waits without the lock and looks again when it wakes, which it may do at any time and for no
reason. Whatever order the moves come in, the signals that were taken and those that wait are the
requests that asked for something new, in the order in which they were made.
-/
namespace SimWorkbench

namespace Signal

/-- The stepping mode after some requests. -/
def stepping (requests : List Signal) : Bool :=
  requests.foldl (fun mode s => match s with
    | singleStep on => on
    | stop | step => mode) false

/-- Whether a request asks for something new after the earlier ones: a step always does, a stop if
it is the first, and a stepping mode if it is another one. -/
def isNew (before : List Signal) : Signal → Bool
  | stop => decide (stop ∉ before)
  | singleStep on => on != stepping before
  | step => true

/-- The requests that asked for something new when they were made. -/
def heeded (requests : List Signal) : List Signal :=
  (requests.zipIdx.filter fun (s, i) => s.isNew (requests.take i)).map Prod.fst

/-- The stepping modes that are asked for. -/
def modes (requests : List Signal) : List Bool :=
  requests.filterMap fun s => match s with
    | singleStep on => some on
    | stop | step => none

/-- Whether the stepping modes are by turns on and off, and on at first. -/
def Alternate (modes : List Bool) : Prop := ∀ i on, modes[i]? = some on → on = (i % 2 == 0)

variable {requests taken : List Signal} {s : Signal}

/-! ### One request more -/

theorem heeded_concat (requests : List Signal) (s : Signal) :
    heeded (requests ++ [s]) = heeded requests ++ if s.isNew requests then [s] else [] := by
  have earlier : (requests.zipIdx.filter fun (s', i) => s'.isNew ((requests ++ [s]).take i)) =
      requests.zipIdx.filter fun (s', i) => s'.isNew (requests.take i) := by
    refine List.filter_congr fun (s', i) member => ?_
    obtain ⟨within, -⟩ := List.mem_zipIdx' member
    simp only [List.take_append_of_le_length (Nat.le_of_lt within)]
  rw [heeded, List.zipIdx_append, List.filter_append, earlier, List.map_append, ← heeded]
  congr 1
  cases new : s.isNew requests <;> simp [new]

theorem stepping_concat (requests : List Signal) (s : Signal) :
    stepping (requests ++ [s]) = match s with
      | singleStep on => on
      | stop | step => stepping requests := by
  rw [stepping, List.foldl_append]
  rfl

theorem stepping_heeded (requests : List Signal) :
    stepping (heeded requests) = stepping requests := by
  induction requests using List.reverseRecOn with
  | nil => rfl
  | append_singleton requests s ih =>
    rw [heeded_concat, stepping_concat]
    split
    · rw [stepping_concat, ih]
    · rename_i old
      rw [List.append_nil, ih]
      cases s with
      | stop => rfl
      | step => rfl
      | singleStep on =>
        have same : on = stepping requests := by simpa [isNew] using old
        exact same.symm

theorem stop_mem_heeded : stop ∈ heeded requests ↔ stop ∈ requests := by
  induction requests using List.reverseRecOn with
  | nil => simp [heeded]
  | append_singleton requests s ih =>
    rw [heeded_concat, List.mem_append, List.mem_append, ih]
    cases s <;> simp [isNew]
    by_cases before : stop ∈ requests <;> simp [before]

/-- A stop is heeded once at most. -/
theorem count_stop_heeded (requests : List Signal) : (heeded requests).count stop ≤ 1 := by
  induction requests using List.reverseRecOn with
  | nil => simp [heeded]
  | append_singleton requests s ih =>
    rw [heeded_concat, List.count_append]
    split
    · rename_i new
      cases s with
      | stop =>
        have first : stop ∉ heeded requests := by
          rw [stop_mem_heeded]
          simpa [isNew] using new
        rw [List.count_eq_zero.mpr first]
        simp
      | step => simpa using ih
      | singleStep on => simpa using ih
    · simpa using ih

theorem modes_concat (requests : List Signal) (s : Signal) :
    modes (requests ++ [s]) = match s with
      | singleStep on => modes requests ++ [on]
      | stop | step => modes requests := by
  cases s <;> simp [modes]

theorem Alternate.concat {modes : List Bool} (alternate : Alternate modes) :
    Alternate (modes ++ [modes.length % 2 == 0]) := by
  intro i on found
  rcases Nat.lt_trichotomy i modes.length with earlier | rfl | later
  · rw [List.getElem?_append_left earlier] at found
    exact alternate i on found
  · simpa [eq_comm] using found
  · rw [List.getElem?_eq_none (by rw [List.length_append, List.length_singleton]; omega)] at found
    cases found

theorem Alternate.of_beginning {modes modes' : List Bool} (alternate : Alternate modes')
    (first : modes <+: modes') : Alternate modes := by
  obtain ⟨rest, rfl⟩ := first
  intro i on found
  obtain ⟨within, -⟩ := List.getElem?_eq_some_iff.mp found
  exact alternate i on (by rwa [List.getElem?_append_left within])

/-- The stepping modes that are heeded are by turns on and off, and the last one is in force. -/
theorem alternate_heeded (requests : List Signal) :
    Alternate (modes (heeded requests)) ∧
      stepping requests = ((modes (heeded requests)).length % 2 == 1) := by
  induction requests using List.reverseRecOn with
  | nil => exact ⟨by simp [Alternate, heeded, modes], rfl⟩
  | append_singleton requests s ih =>
    obtain ⟨alternate, last⟩ := ih
    rw [heeded_concat, stepping_concat]
    by_cases new : s.isNew requests = true
    · rw [if_pos new, modes_concat]
      cases s with
      | stop => exact ⟨alternate, last⟩
      | step => exact ⟨alternate, last⟩
      | singleStep on =>
        -- The mode in force is told by how often it has changed, so the other one comes next.
        have other : on = ((modes (heeded requests)).length % 2 == 0) := by
          have differs : on ≠ stepping requests := by simpa [isNew] using new
          rw [last] at differs
          rcases Nat.mod_two_eq_zero_or_one (modes (heeded requests)).length with even | odd
          · simpa [even] using differs
          · simpa [odd] using differs
        refine ⟨?_, ?_⟩
        · show Alternate (modes (heeded requests) ++ [on])
          rw [other]
          exact alternate.concat
        · show on = ((modes (heeded requests) ++ [on]).length % 2 == 1)
          rw [other, List.length_append, List.length_singleton]
          rcases Nat.mod_two_eq_zero_or_one (modes (heeded requests)).length with even | odd
          · simp [Nat.add_mod, even]
          · simp [Nat.add_mod, odd]
    · rw [if_neg new, List.append_nil]
      cases s with
      | stop => exact ⟨alternate, last⟩
      | step => exact absurd rfl new
      | singleStep on =>
        have same : on = stepping requests := by simpa [isNew] using new
        exact ⟨alternate, same.trans last⟩

end Signal

namespace SignalChannel

/-- The requests that are accepted now, of one that is made. -/
def accepted (c : SignalChannel) (s : Signal) : List Signal := if c.accepts s then [s] else []

/-- Whether the flags of a channel tell of all requests that it has accepted. -/
structure Tells (c : SignalChannel) (requests : List Signal) : Prop where
  stop : c.stopRequested = true ↔ .stop ∈ requests
  stepping : c.singleStep = Signal.stepping requests

variable {c : SignalChannel} {requests : List Signal}

theorem Tells.request (tells : c.Tells requests) (s : Signal) :
    (c.request s).Tells (requests ++ c.accepted s) := by
  rw [SignalChannel.request, accepted]
  split
  · constructor
    · cases s <;> simp [enqueue, tells.stop]
    · cases s <;> simp [enqueue, tells.stepping, Signal.stepping]
  · simpa using tells

theorem queue_request (c : SignalChannel) (s : Signal) :
    (c.request s).queue = c.queue ++ c.accepted s := by
  rw [SignalChannel.request, accepted]
  split
  · cases s <;> rfl
  · simp

theorem finished_request (c : SignalChannel) (s : Signal) :
    (c.request s).finished = c.finished := by
  rw [SignalChannel.request]
  split
  · cases s <;> rfl
  · rfl

theorem take?_spec {c' : SignalChannel} {s : Signal} (taken : c.take? = some (s, c')) :
    c.queue = s :: c'.queue ∧ c'.stopRequested = c.stopRequested ∧
      c'.singleStep = c.singleStep ∧ c'.finished = c.finished := by
  unfold take? at taken
  split at taken
  · cases taken
  · cases queue : c.queue with
    | nil => simp [queue] at taken
    | cons first rest =>
      simp only [queue, Option.some.injEq, Prod.mk.injEq] at taken
      obtain ⟨rfl, rfl⟩ := taken
      exact ⟨rfl, rfl, rfl, rfl⟩

/-- An open channel that tells of the requests that were heeded accepts what is new after all of
them. -/
theorem accepts_eq_isNew (isOpen : c.finished = false) (tells : c.Tells (Signal.heeded requests))
    (s : Signal) : c.accepts s = s.isNew requests := by
  have stepping : c.singleStep = Signal.stepping requests := by
    rw [tells.stepping, Signal.stepping_heeded]
  have stop : c.stopRequested = true ↔ .stop ∈ requests := tells.stop.trans Signal.stop_mem_heeded
  cases s with
  | stop => cases flag : c.stopRequested <;> simp_all [accepts, Signal.isNew]
  | singleStep on => simp [accepts, Signal.isNew, isOpen, stepping, bne_comm]
  | step => simp [accepts, Signal.isNew, isOpen]

end SignalChannel

/-- What threads do with a channel. -/
structure Traffic where
  channel : SignalChannel
  /-- The threads that wait for a signal, and whether they do so for a limited time. -/
  waiting : Nat → Option Bool
  /-- The requests that were made while the channel was open, oldest first. -/
  asked : List Signal
  /-- What the threads that looked for a signal were answered, oldest first. -/
  answers : List (Nat × Option Signal)

namespace Traffic

/-- What a thread does in one go, with the channel locked. -/
inductive Move where
  | asks (s : Signal)
  | closes
  /-- It looks for a signal and may wait, if `timed` for a limited time, which may be up at once. -/
  | looks (timed late : Bool)
  /-- It has waited and looks again, when its time is up or before. -/
  | wakes (late : Bool)
  deriving DecidableEq, Repr

/-- Nobody has done anything. -/
def start : Traffic := ⟨.fresh, fun _ => none, [], []⟩

def answer (t : Traffic) (thread : Nat) (found : Option Signal) : Traffic :=
  { t with
    waiting := Function.update t.waiting thread none
    answers := t.answers ++ [(thread, found)] }

/-- A thread takes the oldest signal. If there is none it is sent away when the channel is closed or
its time is up, and waits otherwise. -/
def look (t : Traffic) (thread : Nat) (timed late : Bool) : Traffic :=
  match t.channel.take? with
  | some (s, c) => { t.answer thread (some s) with channel := c }
  | none =>
    if t.channel.finished || timed && late then t.answer thread none
    else { t with waiting := Function.update t.waiting thread (some timed) }

/-- A thread makes its move. One that waits can do nothing but wake, and one that does not cannot
wake. -/
def step (t : Traffic) (thread : Nat) (move : Move) : Traffic :=
  match move, t.waiting thread with
  | .asks s, none =>
    { t with
      channel := t.channel.request s
      asked := if t.channel.finished then t.asked else t.asked ++ [s] }
  | .closes, none => { t with channel := t.channel.finish }
  | .looks timed late, none => t.look thread timed late
  | .wakes late, some timed => t.look thread timed late
  | _, _ => t

/-- The threads make their moves, in any order. -/
def after (t : Traffic) (moves : List (Nat × Move)) : Traffic :=
  moves.foldl (fun t move => t.step move.1 move.2) t

/-- The signals that were taken, oldest first. -/
def taken (t : Traffic) : List Signal := t.answers.filterMap Prod.snd

variable {t : Traffic}

/-! ### What a move can do -/

/-- What a move does to the channel, to what was asked and to what was taken. -/
inductive Effect (t : Traffic) : SignalChannel → List Signal → List Signal → Prop
  | asked (s : Signal) : Effect t (t.channel.request s)
    (if t.channel.finished then t.asked else t.asked ++ [s]) t.taken
  | closed : Effect t t.channel.finish t.asked t.taken
  | took {s c} (found : t.channel.take? = some (s, c)) : Effect t c t.asked (t.taken ++ [s])
  | nothing : Effect t t.channel t.asked t.taken

theorem effect_look (t : Traffic) (thread : Nat) (timed late : Bool) :
    let t' := t.look thread timed late
    t.Effect t'.channel t'.asked t'.taken := by
  have without : (t.answer thread none).taken = t.taken := by simp [taken, answer]
  unfold look
  split
  · rename_i s c found
    have more : (t.answer thread (some s)).taken = t.taken ++ [s] := by simp [taken, answer]
    have effect : t.Effect c t.asked (t.taken ++ [s]) := .took found
    rwa [← more] at effect
  · split
    · have effect : t.Effect t.channel t.asked t.taken := .nothing
      rwa [← without] at effect
    · exact .nothing

theorem effect_step (t : Traffic) (thread : Nat) (move : Move) :
    let t' := t.step thread move
    t.Effect t'.channel t'.asked t'.taken := by
  unfold step
  split
  · exact .asked _
  · exact .closed
  · exact effect_look t thread _ _
  · exact effect_look t thread _ _
  · exact .nothing

/-! ### What every move keeps -/

/-- Nothing is lost, doubled or put in another order. -/
structure Conserved (c : SignalChannel) (asked taken : List Signal) : Prop where
  /-- What was taken and what waits is a first part of what was heeded. -/
  first : taken ++ c.queue <+: Signal.heeded asked
  whole : c.finished = false → taken ++ c.queue = Signal.heeded asked
  dropped : c.finished = true → c.queue = []
  tells : c.Tells (Signal.heeded asked)

theorem conserved_start : Conserved start.channel start.asked start.taken where
  first := List.nil_prefix
  whole _ := rfl
  dropped _ := rfl
  tells := ⟨by decide, rfl⟩

/-- No move breaks it. -/
theorem Conserved.kept (conserved : Conserved t.channel t.asked t.taken) {c : SignalChannel}
    {asked taken : List Signal} (effect : t.Effect c asked taken) : Conserved c asked taken := by
  obtain ⟨first, whole, dropped, tells⟩ := conserved
  cases effect with
  | asked s =>
    cases finished : t.channel.finished with
    | true =>
      rw [if_pos rfl, SignalChannel.request_of_finished finished]
      exact ⟨first, whole, dropped, tells⟩
    | false =>
      have heeded : Signal.heeded (t.asked ++ [s]) =
          Signal.heeded t.asked ++ t.channel.accepted s := by
        rw [Signal.heeded_concat, SignalChannel.accepted,
          SignalChannel.accepts_eq_isNew finished tells]
      have whole' : t.taken ++ (t.channel.request s).queue = Signal.heeded (t.asked ++ [s]) := by
        rw [SignalChannel.queue_request, ← List.append_assoc, whole finished, heeded]
      rw [if_neg (by simp)]
      refine ⟨whole' ▸ List.prefix_refl _, fun _ => whole', fun isClosed => ?_, ?_⟩
      · rw [SignalChannel.finished_request, finished] at isClosed
        cases isClosed
      · rw [heeded]
        exact tells.request s
  | closed =>
    refine ⟨?_, fun isOpen => ?_, fun _ => rfl, tells.stop, tells.stepping⟩
    · exact (List.prefix_append_right_inj t.taken).mpr List.nil_prefix |>.trans first
    · cases isOpen
  | @took s c found =>
    obtain ⟨queue, stop, stepping, finished⟩ := SignalChannel.take?_spec found
    have moved : t.taken ++ [s] ++ c.queue = t.taken ++ t.channel.queue := by
      rw [queue, List.append_assoc, List.singleton_append]
    refine ⟨moved ▸ first, fun isOpen => ?_, fun isClosed => ?_, stop ▸ tells.stop,
      stepping ▸ tells.stepping⟩
    · rw [moved]
      exact whole (finished ▸ isOpen)
    · rw [SignalChannel.take?_of_finished (finished ▸ isClosed)] at found
      cases found
  | nothing => exact ⟨first, whole, dropped, tells⟩

theorem conserved_after (moves : List (Nat × Move)) :
    let t := start.after moves
    Conserved t.channel t.asked t.taken := by
  induction moves using List.reverseRecOn with
  | nil => exact conserved_start
  | append_singleton moves move ih =>
    rw [after, List.foldl_append]
    exact ih.kept (effect_step _ move.1 move.2)

/-- A move leaves a channel that is closed and has dropped what waited, and takes nothing from it.
-/
theorem Effect.of_finished {c : SignalChannel} {asked taken : List Signal}
    (effect : t.Effect c asked taken) (finished : t.channel.finished = true)
    (dropped : t.channel.queue = []) : c = t.channel ∧ taken = t.taken := by
  cases effect with
  | asked s => exact ⟨SignalChannel.request_of_finished finished s, rfl⟩
  | closed =>
    refine ⟨?_, rfl⟩
    rw [SignalChannel.finish, ← dropped, ← finished]
  | took found =>
    rw [SignalChannel.take?_of_finished finished] at found
    cases found
  | nothing => exact ⟨rfl, rfl⟩

theorem after_of_finished (finished : t.channel.finished = true) (dropped : t.channel.queue = [])
    (moves : List (Nat × Move)) :
    (t.after moves).channel = t.channel ∧ (t.after moves).taken = t.taken := by
  induction moves generalizing t with
  | nil => exact ⟨rfl, rfl⟩
  | cons move moves ih =>
    obtain ⟨channel, taken⟩ :=
      (effect_step t move.1 move.2).of_finished finished dropped
    rw [after, List.foldl_cons, ← channel, ← taken]
    exact ih (by rw [channel, finished]) (by rw [channel, dropped])

/-- Whatever threads do with a channel, and in whatever order they come to it, the signals that were
taken and those that wait are, as long as it is open, the requests that asked for something new, in
the order in which they were made: every step, the first stop, and each stepping mode that was not
the one in force. What was taken is always a first part of them. So a stop is taken once at most,
the stepping modes are taken by turns, on at first, and a stop is flagged just if one was accepted.
When everything has been taken, the last mode that was taken is the one in force. Once the channel
is closed nothing waits, nothing is taken any more, and the channel stays as it is. -/
theorem signals_conserved (moves : List (Nat × Move)) :
    let t := start.after moves
    let accepted := Signal.heeded t.asked
    (t.channel.finished = false → t.taken ++ t.channel.queue = accepted) ∧
      t.taken <+: accepted ∧
      (t.taken ++ t.channel.queue).count .stop ≤ 1 ∧
      Signal.Alternate (Signal.modes (t.taken ++ t.channel.queue)) ∧
      (t.channel.stopRequested = true ↔ .stop ∈ accepted) ∧
      (t.channel.finished = false → t.channel.queue = [] →
        Signal.stepping t.taken = t.channel.singleStep) ∧
      (t.channel.finished = true → t.channel.queue = [] ∧
        ∀ more, (t.after more).channel = t.channel ∧ (t.after more).taken = t.taken) := by
  intro t accepted
  obtain ⟨first, whole, dropped, tells⟩ := conserved_after moves
  refine ⟨whole, (List.prefix_append _ _).trans first, ?_, ?_, tells.stop, fun isOpen empty => ?_,
    fun closed => ⟨dropped closed, after_of_finished closed (dropped closed)⟩⟩
  · exact (first.sublist.count_le .stop).trans (Signal.count_stop_heeded t.asked)
  · exact (Signal.alternate_heeded t.asked).1.of_beginning (first.filterMap _)
  · have all := whole isOpen
    rw [empty, List.append_nil] at all
    rw [all, tells.stepping]

end Traffic
end SimWorkbench
