import Eece315.DispatcherQueue
import Eece315.DispatcherResources

/-! The dispatcher program (`hostd.c`, with the loop of `readFile.c` on lines already split into
their eight integers). A function has no result where the source dereferences a null pointer or
walks along a cyclic chain. PCBs are numbered by their pid. -/
namespace Eece315.DispatcherSystem
open HeapChain DispatcherQueue DispatcherResources

def MAX_PROCESSES : ℕ := 1000
def P1_TIMEQUANTUM : ℤ := 1
def P2_TIMEQUANTUM : ℤ := 2
def P3_TIMEQUANTUM : ℤ := 3

/-- The global queue pointers. -/
inductive QueueName
  | dispatcher
  | realTimeQueue
  | userJobQueue
  | p1Queue
  | p2Queue
  | p3Queue
  deriving DecidableEq, Repr

/-- The lines about a process that are printed whatever the verbosity. -/
inductive Event
  | initialized (process : ℕ)
  | suspended (process : ℕ)
  | running (process : ℕ)
  | terminated (process : ℕ)
  deriving DecidableEq, Repr

/-- The state of the program apart from its queues. -/
structure Globals where
  pcb : ℕ → PCB
  host : Host
  currentProcess : Option ℕ
  runtime : ℤ
  /-- the PCBs given to `free` -/
  freed : List ℕ
  out : List Event

structure System where
  heap : Heap Queue
  queue : QueueName → Option ℕ
  globals : Globals

namespace Globals

def setPcb (g : Globals) (c : ℕ) (p : PCB) : Globals := { g with pcb := Function.update g.pcb c p }

def print (g : Globals) (e : Event) : Globals := { g with out := g.out ++ [e] }

/-- The call of `allocateResources` for process `c`. -/
def allocate (g : Globals) (c : ℕ) : ℤ × Globals :=
  let (result, p, host) := allocateResources (g.pcb c) g.host
  (result, { g.setPcb c p with host := host })

def suspend (g : Globals) (c : ℕ) : Globals :=
  (g.setPcb c { g.pcb c with state := .suspended }).print (.suspended c)

def dispatch (g : Globals) (c : ℕ) (slice : PCB → ℤ) : Globals :=
  { g.setPcb c { g.pcb c with timeSpliceLeft := slice (g.pcb c) } with currentProcess := some c }

def terminate (g : Globals) (c : ℕ) : Globals :=
  let g := { g with host := freeHostResources (g.pcb c) g.host }
  let g := (g.setPcb c { g.pcb c with state := .terminated }).print (.terminated c)
  { g with freed := g.freed ++ [c], currentProcess := none }

/-- The last block of `doProcessing`, up to its calls of `enqueueToPriority`: the process to
hand to that function is returned. -/
def quantum (g : Globals) : Globals × Option ℕ :=
  match g.currentProcess with
  | none => (g, none)
  | some c =>
    let p := { g.pcb c with
      state := .running
      timeSpliceLeft := (g.pcb c).timeSpliceLeft - 1
      remainingTime := (g.pcb c).remainingTime - 1 }
    let g := (g.setPcb c p).print (.running c)
    if p.remainingTime = 0 then (g.terminate c, none)
    else if p.timeSpliceLeft = 0 then
      if p.priority < 3 ∧ 1 ≤ p.priority then
        ({ g.setPcb c { p with priority := p.priority + 1 } with currentProcess := none }, some c)
      else if 3 ≤ p.priority then
        ({ g.setPcb c { p with timeSpliceLeft := P3_TIMEQUANTUM, priority := 1 } with
            currentProcess := none }, some c)
      else (g, none)
    else (g, none)

end Globals

/-- The queue that `enqueueToPriority` picks. -/
def priorityQueue (p : ℤ) : QueueName :=
  if p = 0 then .realTimeQueue
  else if p = 1 then .p1Queue
  else if p = 2 then .p2Queue
  else .p3Queue

def enqueueToPriority (c : ℕ) (s : System) : Option System := do
  let name := priorityQueue (s.globals.pcb c).priority
  let (q, heap) ← enqueueOrInit s.heap (s.queue name) c
  return { s with heap := heap, queue := Function.update s.queue name q }

/-- The statements that make the head of a queue current, if the queue holds a process. -/
def dispatchFrom (name : QueueName) (slice : PCB → ℤ) (s : System) : Option System := do
  let q ← s.queue name
  match (s.heap.cell q).process with
  | none => return s
  | some c =>
    let (_, rest) ← dequeueProcess s.heap (some q)
    return { s with
      queue := Function.update s.queue name rest
      globals := s.globals.dispatch c slice }

/-- `doProcessing` up to its last block. When no queue pointer is set the source returns at
once; no process is current then, so that the last block would do nothing. -/
def selectProcess (rtUpdated : Bool) (s : System) : Option System :=
  match s.globals.currentProcess with
  | some c =>
    if (s.globals.pcb c).priority ≠ 0 ∧ rtUpdated then do
      let s ← enqueueToPriority c { s with globals := s.globals.suspend c }
      dispatchFrom .realTimeQueue PCB.remainingTime s
    else some s
  | none =>
    if rtUpdated then
      if s.queue .realTimeQueue ≠ none then dispatchFrom .realTimeQueue PCB.remainingTime s
      else some s
    else if s.queue .p1Queue ≠ none then dispatchFrom .p1Queue (fun _ => P1_TIMEQUANTUM) s
    else if s.queue .p2Queue ≠ none then dispatchFrom .p2Queue (fun _ => P2_TIMEQUANTUM) s
    else if s.queue .p3Queue ≠ none then dispatchFrom .p3Queue (fun _ => P3_TIMEQUANTUM) s
    else some s

def runProcess (s : System) : Option System :=
  let (g, back) := s.globals.quantum
  match back with
  | none => some { s with globals := g }
  | some c => enqueueToPriority c { s with globals := g }

def doProcessing (rtUpdated : Bool) (s : System) : Option System := do
  let s ← selectProcess rtUpdated s
  runProcess s

/-- The local variables of `updateDispatcher` inside its loop, and the program state. -/
structure Offering where
  queuePtr : Option ℕ
  newDispatcher : ℕ
  rtQUpdated : Bool
  broken : Bool
  system : System

/-- Process `c` goes to the end of the new dispatcher queue. -/
def Offering.putBack (st : Offering) (c : ℕ) : Option Offering := do
  let heap ← enqueueProcess st.system.heap st.newDispatcher c
  return { st with system := { st.system with heap := heap } }

/-- The body of the loop of `updateDispatcher`. -/
def offer (time : ℤ) (st : Offering) : Option Offering := do
  let (element, queuePtr) ← dequeueProcess st.system.heap st.queuePtr
  let st := { st with queuePtr := queuePtr }
  match (st.system.heap.cell (← element)).process with
  | none => return { st with broken := true }
  | some c =>
    if time ≥ (st.system.globals.pcb c).arrivalTime then
      let (allocResult, globals) := st.system.globals.allocate c
      if allocResult ≠ 0 then
        let system ← enqueueToPriority c
          { st.system with globals := globals.print (.initialized c) }
        return { st with
          rtQUpdated := st.rtQUpdated || (globals.pcb c).priority = 0
          system := system }
      else Offering.putBack { st with system := { st.system with globals := globals } } c
    else st.putBack c

/-- At most `n` passes through the loop. -/
def offers (time : ℤ) : ℕ → Offering → Option Offering
  | 0, st => some st
  | n + 1, st => do
    let st ← offer time st
    if st.broken then return st else offers time n st

/-- The loop variables when `updateDispatcher` enters its loop. -/
def startOffers (s : System) : Offering :=
  let (newDispatcher, heap) := initializeQueue s.heap
  ⟨s.queue .dispatcher, newDispatcher, false, false, { s with heap := heap }⟩

def updateDispatcher (time : ℤ) (s : System) : Option (Bool × System) :=
  let st := startOffers s
  match st.queuePtr with
  | none => some (false, st.system)
  | some q => do
    let count ← numElems st.system.heap st.queuePtr
    let count := if (st.system.heap.cell q).process = none then 0 else count
    let st ← offers time count st
    if st.broken then return (st.rtQUpdated, st.system)
    else return (st.rtQUpdated, { st.system with
      queue := Function.update st.system.queue .dispatcher (some st.newDispatcher) })

def newGrant : Grant := ⟨0, 0, -1⟩

/-- The fields that `newPCB` leaves unset are those `readFile` assigns. -/
def newPCB : PCB := ⟨-1, 0, 0, 0, 0, .started, fun _ => newGrant⟩

/-- The empty tables and the six queues of `initSystem`. -/
def initSystem : System :=
  let globals : Globals :=
    { pcb := fun _ => newPCB
      host := ⟨fun
        | .printers => List.replicate MAX_PRINTERS 0
        | .scanners => List.replicate MAX_SCANNERS 0
        | .modems => List.replicate MAX_MODEMS 0
        | .disks => List.replicate MAX_DISKS 0
        | .memSpace => List.replicate MAX_MEMSPACE 0⟩
      currentProcess := none
      runtime := 0
      freed := []
      out := [] }
  let names : List QueueName :=
    [.dispatcher, .realTimeQueue, .userJobQueue, .p1Queue, .p2Queue, .p3Queue]
  names.foldl (fun s name =>
      let (q, heap) := initializeQueue s.heap
      { s with heap := heap, queue := Function.update s.queue name (some q) })
    ⟨⟨fun _ => ⟨false, none, none⟩, 0⟩, fun _ => none, globals⟩

/-- The eight integers of a line: arrival time, priority, processor time, megabytes, printers,
scanners, modems and disks. -/
abbrev Args := Fin 8 → ℤ

/-- The PCB that `readFile` makes of a line. -/
def processOf (pid : ℕ) (args : Args) : PCB :=
  { newPCB with
    pid := pid
    priority := args 1
    arrivalTime := args 0
    remainingTime := args 2
    state := .started
    io := fun
      | .memSpace => { newGrant with needed := args 3 }
      | .printers => { newGrant with needed := args 4 }
      | .scanners => { newGrant with needed := args 5 }
      | .modems => { newGrant with needed := args 6 }
      | .disks => { newGrant with needed := args 7 } }

def Args.arrivalTime (args : Args) : ℤ := args 0

def Args.processorTime (args : Args) : ℤ := args 2

def Args.priority (args : Args) : ℤ := args 1

/-- Max of (biggest arrival time + runtime) or sum of all runtimes. -/
def updateRuntime (runtime : ℤ) (p : PCB) : ℤ :=
  let runtime := runtime + p.remainingTime
  if p.arrivalTime + p.remainingTime > runtime then p.arrivalTime + p.remainingTime else runtime

/-- The body of the loop of `readFile`, after the line has been split. -/
def loadProcess (pid : ℕ) (args : Args) (s : System) : Option System := do
  let p := processOf pid args
  let g := { s.globals.setPcb pid p with runtime := updateRuntime s.globals.runtime p }
  let heap ← enqueueProcess s.heap (← s.queue .dispatcher) pid
  return { s with heap := heap, globals := g }

def readLines : ℕ → List Args → System → Option System
  | _, [], s => some s
  | pid, args :: lines, s =>
    if pid ≤ MAX_PROCESSES then do
      let s ← loadProcess pid args s
      readLines (pid + 1) lines s
    else some s

def readFile (lines : List Args) (s : System) : Option System :=
  readLines 1 lines { s with globals := { s.globals with runtime := 0 } }

/-- One pass through the loop of `main`. -/
def iteration (time : ℤ) (s : System) : Option System := do
  let (rtUpdated, s) ← updateDispatcher time s
  doProcessing rtUpdated s

/-- `main` after `n` passes through its loop. The source leaves the loop after 20. -/
def mainLoop (lines : List Args) : ℕ → Option System
  | 0 => readFile lines initSystem
  | n + 1 => do
    let s ← mainLoop lines n
    iteration n s

def loaded (lines : List Args) : List ℕ := List.range' 1 (min lines.length MAX_PROCESSES)

def System.processes (s : System) (name : QueueName) : List ℕ :=
  DispatcherQueue.processes s.heap (s.queue name)

end Eece315.DispatcherSystem
