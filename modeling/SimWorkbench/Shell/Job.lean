import SimWorkbench.Shell.Signal
import SimWorkbench.Shell.Script

/-!
# Jobs

Processes in the background are over as soon as they are started; the script can ask how they ended.
-/
namespace SimWorkbench.Shell

/-- The job that a word names: by its number behind a percent sign, or the newest one. -/
def jobNamed (word : Chars) : Exec Job := do
  let jobs := (← get).jobs
  let missing : Exec Job := abort ("No such job: ".toList ++ word)
  match word with
  | ['%'] | ['%', '%'] | ['%', '+'] =>
    match jobs with
    | job :: _ => return job
    | [] => abort "No current job".toList
  | '%' :: name =>
    match (count? name).bind fun n => jobs.find? fun j => j.number = n with
    | some job => return job
    | none => missing
  | _ =>
    match (count? word).bind fun n => jobs.find? fun j => j.process = n with
    | some job => return job
    | none => missing

/-- Waits for a process; its status is that of the command. -/
def waitFor (word : Chars) : Exec Unit := do
  let isJob : Bool := word.head? == some '%'
  let process ← if isJob then pure 0 else expectCount word
  let job? ← if isJob then some <$> jobNamed word
    else pure ((← get).jobs.find? fun j => j.process = process)
  match job? with
  | none => setStatus 127
  | some job =>
    unless job.waited do
      if let some signal := job.signal then emit 2 (deathNote signal)
    modify fun s =>
      { s with status := job.status,
               jobs := s.jobs.map fun j =>
                 if j.process = job.process then { j with waited := true } else j }

/-- The command that waits for processes. -/
def waitCommand (words : List Chars) : Exec Unit := do
  let o ← readOptions [] words
  setStatus 0
  if o.words.isEmpty then
    modify fun s => { s with jobs := s.jobs.map fun j => { j with waited := true } }
  else o.words.forM waitFor

/-- How a process ended, in words. -/
def Job.outcome (j : Job) : Chars :=
  match j.signal with
  | some signal => (deathNote signal).dropLast
  | none => if j.status = 0 then "Done".toList else "Done(".toList ++ decimal j.status ++ [')']

/-- The command that lists the jobs, or the numbers of their processes. -/
def jobsCommand (words : List Chars) : Exec Unit := do
  let o ← readOptions [('l', false), ('p', false)] words
  let s ← get
  let listed ← if o.words.isEmpty then pure s.jobs else o.words.mapM jobNamed
  for job in listed do
    if o.has 'p' then print (decimal job.process ++ ['\n'])
    else
      let isNewest : Bool := (s.jobs.head?.map Job.number) == some job.number
      let front := '[' :: decimal job.number ++ ']' :: ' ' :: (if isNewest then ['+'] else [' '])
        ++ ' ' :: (if o.has 'l' then decimal job.process ++ [' '] else []) ++ job.outcome
      print (front ++ List.replicate (33 - front.length) ' ' ++ ['\n'])
  modify fun s =>
    { s with status := 0,
             jobs := s.jobs.filter fun j => !(listed.any fun x => x.number = j.number) }

/-- The commands that go on with a job that was stopped; there never is one. -/
def resumeCommand (words : List Chars) : Exec Unit := do
  let o ← readOptions [] words
  match o.words with
  | [] => discard (jobNamed ['%', '%'])
  | word :: _ => discard (jobNamed word)
  abort "job not created under job control".toList

/-- Takes note of a process that ran in the background. -/
def noteJob (process : Nat) (signal : Option Nat) : Exec Unit := modify fun s =>
  let isFree (n : Nat) : Bool := !(s.jobs.any fun j => j.number = n)
  let number := ((List.range (s.jobs.length + 1)).find? fun n => isFree (n + 1)).getD 0 + 1
  { s with jobs := ⟨number, process, s.status, signal, false⟩ :: s.jobs, lastJob := some process,
           status := 0 }

end SimWorkbench.Shell
