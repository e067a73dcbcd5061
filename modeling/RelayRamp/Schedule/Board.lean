import RelayRamp.Lease.Pool

/-!
# Jobs that wait

A board runs jobs over a shared state on a virtual clock. One job runs at a time and goes on until it has to
wait; jobs that were woken run in the order in which they were woken. Time moves only when no job can run, and
then to the next alarm; alarms of one instant ring in the order in which they were set.

Jobs are told apart by number. What a job does is given by a `Conduct`: how it goes on, what stopping it does,
which alarms it has set and which place in a queue it waits at.
-/
namespace RelayRamp.Schedule

open RelayRamp.Lease

/-- An alarm of a job. The purpose tells the alarms of one job apart. -/
structure Alarm where
  purpose : Nat
  due : Nat
  deriving DecidableEq, Repr

structure Conduct (σ J : Type) where
  /-- Goes on as far as possible at the given instant. -/
  resume : Nat → σ → J → σ × Effects × J
  /-- Gives up everything that the job holds or waits for. -/
  cancel : Nat → σ → J → σ × Effects
  alarms : J → List Alarm
  awaits : J → Option WaitKey
  isDone : J → Bool

/-- An alarm that is set; the order is that of setting. -/
structure Timer where
  job : Nat
  alarm : Alarm
  order : Nat
  deriving DecidableEq, Repr

structure Task (J : Type) where
  number : Nat
  job : J
  /-- The job is to be stopped instead of resumed. -/
  stopping : Bool
  /-- Somebody wants to know how the job ends. -/
  watched : Bool

structure Board (σ J : Type) where
  now : Nat
  shared : σ
  jobs : List (Task J)
  ready : List Nat
  timers : List Timer
  events : List AuditEvent
  nextJob : Nat
  nextOrder : Nat

namespace Board

variable {σ J : Type}

def start (shared : σ) : Board σ J := ⟨0, shared, [], [], [], [], 0, 0⟩

def find? (b : Board σ J) (number : Nat) : Option (Task J) :=
  b.jobs.find? (·.number = number)

/-- Puts a job at the end of those that run next, unless it is among them. -/
def rouse (b : Board σ J) (number : Nat) : Board σ J :=
  if b.ready.contains number then b else { b with ready := b.ready ++ [number] }

/-- Wakes the job that waits at a place. -/
def wake (conduct : Conduct σ J) (b : Board σ J) (key : WaitKey) : Board σ J :=
  match b.jobs.find? fun e => conduct.awaits e.job = some key with
  | some e => b.rouse e.number
  | none => b

/-- Records what a step did beyond its result. -/
def apply (conduct : Conduct σ J) (b : Board σ J) (effects : Effects) : Board σ J :=
  effects.wakes.foldl (wake conduct) { b with events := b.events ++ effects.events }

/-- Runs a step on the shared state that belongs to no job. -/
def act (conduct : Conduct σ J) (b : Board σ J) (step : Nat → σ → σ × Effects × α) : Board σ J × α :=
  let (shared, effects, result) := step b.now b.shared
  (({ b with shared }).apply conduct effects, result)

/-- Sets the alarms of a job; those that it had set before stay as they are. -/
def setAlarms (b : Board σ J) (number : Nat) (alarms : List Alarm) : Board σ J :=
  let kept := b.timers.filter fun t => t.job ≠ number || alarms.contains t.alarm
  let added := alarms.filter fun a => !(kept.any fun t => t.job = number && t.alarm = a)
  { b with
    timers := kept ++ added.mapIdx fun i a => ⟨number, a, b.nextOrder + i⟩
    nextOrder := b.nextOrder + added.length }

/-- Adds a job that has not run yet. -/
def add (b : Board σ J) (job : J) : Board σ J × Nat :=
  ({ b with jobs := b.jobs ++ [⟨b.nextJob, job, false, true⟩], nextJob := b.nextJob + 1 }, b.nextJob)

/-- Forgets a job. -/
def remove (b : Board σ J) (number : Nat) : Board σ J :=
  { b with
    jobs := b.jobs.filter (·.number ≠ number)
    ready := b.ready.filter (· ≠ number)
    timers := b.timers.filter (·.job ≠ number) }

/-- Forgets a job after it has given up what it holds. -/
def discard (conduct : Conduct σ J) (b : Board σ J) (number : Nat) : Board σ J :=
  match b.find? number with
  | none => b
  | some e =>
    let (shared, effects) := conduct.cancel b.now b.shared e.job
    ({ b.remove number with shared }).apply conduct effects

/-- Changes the record of a job. -/
def alter (b : Board σ J) (number : Nat) (f : Task J → Task J) : Board σ J :=
  { b with jobs := b.jobs.map fun e => if e.number = number then f e else e }

/-- Lets one job go on, or stops it. A job that ends unwatched is forgotten. -/
def run (conduct : Conduct σ J) (b : Board σ J) (number : Nat) : Board σ J :=
  match b.find? number with
  | none => b
  | some e =>
    if e.stopping then b.discard conduct number
    else
      let (shared, effects, job) := conduct.resume b.now b.shared e.job
      let b := ({ b with shared }).alter number ({ · with job })
      let b := (b.setAlarms number (conduct.alarms job)).apply conduct effects
      if conduct.isDone job && !e.watched then b.discard conduct number else b

/-- Runs the job that was woken first. -/
def runNext (conduct : Conduct σ J) (b : Board σ J) : Board σ J :=
  match b.ready with
  | [] => b
  | number :: ready => ({ b with ready }).run conduct number

/-- Runs woken jobs until there are none. -/
def settle (conduct : Conduct σ J) : Nat → Board σ J → Board σ J
  | 0, b => b
  | fuel + 1, b => if b.ready.isEmpty then b else settle conduct fuel (b.runNext conduct)

/-- Runs woken jobs until there are none; each job has few things to do at one instant. -/
def settled (conduct : Conduct σ J) (b : Board σ J) : Board σ J :=
  b.settle conduct (16 * (b.jobs.length + b.ready.length + 1))

/-- The instant of the next alarm. -/
def nextAlarm? (b : Board σ J) : Option Nat :=
  (b.timers.map (·.alarm.due)).min?

/-- Moves the clock to the next alarm and wakes the jobs that it rings for. -/
def ring (b : Board σ J) (due : Nat) : Board σ J :=
  let ringing := (b.timers.filter (·.alarm.due ≤ due)).mergeSort fun s t =>
    s.alarm.due < t.alarm.due || (s.alarm.due == t.alarm.due && s.order ≤ t.order)
  let b := { b with now := max b.now due, timers := b.timers.filter fun t => !(t.alarm.due ≤ due) }
  ringing.foldl (fun b t => b.rouse t.job) b

/-- Moves the clock through all alarms up to the end, which it then reaches. -/
def advance (conduct : Conduct σ J) (finish : Nat) : Nat → Board σ J → Board σ J
  | 0, b => { b with now := max b.now finish }
  | fuel + 1, b =>
    match b.nextAlarm? with
    | some due =>
      if due ≤ finish then advance conduct finish fuel ((b.ring due).settled conduct)
      else { b with now := max b.now finish }
    | none => { b with now := max b.now finish }

/-- Lets time pass. Every alarm but those of the present instant moves the clock. -/
def sleep (conduct : Conduct σ J) (b : Board σ J) (ms : Nat) : Board σ J :=
  b.advance conduct (b.now + ms) (ms + 2)

/-- Runs jobs, and lets time pass when none can run, until a condition holds or nothing is left to do. -/
def runUntil (conduct : Conduct σ J) (done : Board σ J → Bool) : Nat → Board σ J → Board σ J
  | 0, b => b
  | fuel + 1, b =>
    if done b then b
    else if !b.ready.isEmpty then runUntil conduct done fuel (b.runNext conduct)
    else
      match b.nextAlarm? with
      | some due => runUntil conduct done fuel (b.ring due)
      | none => b

/-- Marks a job to be stopped when its turn comes. -/
def stop (b : Board σ J) (number : Nat) : Board σ J :=
  (b.alter number ({ · with stopping := true })).rouse number

/-- Tells a job something and wakes it. -/
def tell (b : Board σ J) (number : Nat) (f : J → J) : Board σ J :=
  (b.alter number fun e => { e with job := f e.job }).rouse number

/-- Leaves a job to itself: what it ends with is given up. -/
def unwatch (conduct : Conduct σ J) (b : Board σ J) (number : Nat) : Board σ J :=
  match b.find? number with
  | none => b
  | some e =>
    if conduct.isDone e.job then b.discard conduct number
    else b.alter number ({ · with watched := false })

/-- Hands out the recorded events. -/
def takeEvents (b : Board σ J) : Board σ J × List AuditEvent :=
  ({ b with events := [] }, b.events)

end Board

end RelayRamp.Schedule
