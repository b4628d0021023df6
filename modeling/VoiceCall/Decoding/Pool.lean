/-!
A pool of workers behind a bounded queue. Nobody stops a worker: an order to leave waits in the
queue like any task, and the worker that takes it leaves and is then struck off the list.

The pool moves in steps, one worker or the owner at a time, so that every interleaving is a list of
steps. What the owner has begun is a list of orders that it works off one by one.
-/

namespace VoiceCall.Decoding

inductive Job (τ : Type) where
  | task (t : τ)
  | leave
deriving DecidableEq, Repr

inductive Phase (τ : Type) where
  | idle
  | busy (t : τ)
  /-- Has left and said so, but is still on the list. -/
  | gone
deriving DecidableEq, Repr

structure Worker (τ : Type) where
  id : Nat
  phase : Phase τ
deriving DecidableEq, Repr

/-- What the owner has still to do. -/
inductive Order where
  /-- Put an order to leave into the queue, as soon as there is room. -/
  | dismiss
  /-- Wait for a worker that has left, and strike it off the list. -/
  | release
  /-- Take jobs off the queue and drop them, until there are none. -/
  | discard
deriving DecidableEq, Repr

structure Pool (τ : Type) where
  queue : List (Job τ)
  capacity : Nat
  workers : List (Worker τ)
  maxWorkers : Nat
  nextId : Nat
  orders : List Order
  /-- Tasks that were run. -/
  processed : Nat
  /-- Tasks that were refused because the queue was full. -/
  refused : Nat
deriving DecidableEq, Repr

namespace Pool

variable {τ σ : Type}

/-- A pool without workers that may have at least one worker and queue at least one job. -/
def create (maxWorkers capacity : Nat) : Pool τ where
  queue := []
  capacity := max capacity 1
  workers := []
  maxWorkers := max maxWorkers 1
  nextId := 0
  orders := []
  processed := 0
  refused := 0

def workerCount (p : Pool τ) : Nat := p.workers.length

def queued (p : Pool τ) : Nat := p.queue.length

/-- Queues a task, or refuses it if the queue is full, and says which. -/
def submit (p : Pool τ) (t : τ) : Pool τ × Bool :=
  if p.queue.length < p.capacity then
    ({ p with queue := p.queue ++ [.task t] }, true)
  else
    ({ p with refused := p.refused + 1 }, false)

/-- One more worker, unless there are as many as there may be, and whether there is one more. -/
def addWorker (p : Pool τ) : Pool τ × Bool :=
  if p.workers.length < p.maxWorkers then
    ({ p with workers := p.workers ++ [⟨p.nextId, .idle⟩], nextId := p.nextId + 1 }, true)
  else
    (p, false)

def addWorkers (p : Pool τ) : Nat → Pool τ
  | 0 => p
  | count + 1 => addWorkers p.addWorker.1 count

/-- Begins to remove a worker; nothing is to be done without one. -/
def removeWorker (p : Pool τ) : Pool τ :=
  if p.workers.isEmpty then p else { p with orders := p.orders ++ [.dismiss, .release] }

/-- Begins to bring the pool to a size, or to the largest one if that is smaller. -/
def resize (p : Pool τ) (target : Nat) : Pool τ :=
  let target := min target p.maxWorkers
  let size := p.workers.length
  if size < target then
    p.addWorkers (target - size)
  else
    { p with
      orders := p.orders ++ (List.replicate (size - target) [Order.dismiss, .release]).flatten }

/-- Begins to remove all workers and to drop what they leave in the queue. -/
def clear (p : Pool τ) : Pool τ :=
  let size := p.workers.length
  { p with
    orders := p.orders ++
      (List.replicate size Order.dismiss ++ List.replicate size .release ++ [.discard]) }

/-- Who moves: a worker takes the head of the queue, a worker finishes its task, or the owner works
off its next order. -/
inductive Step where
  | take (id : Nat)
  | finish (id : Nat)
  | order
deriving DecidableEq, Repr

def phaseOf (p : Pool τ) (id : Nat) : Option (Phase τ) :=
  (p.workers.find? (·.id = id)).map Worker.phase

def setPhase (p : Pool τ) (id : Nat) (phase : Phase τ) : List (Worker τ) :=
  p.workers.map fun w => if w.id = id then { w with phase := phase } else w

def Phase.ofJob : Job τ → Phase τ
  | .task t => .busy t
  | .leave => .gone

def take? (p : Pool τ) (id : Nat) : Option (Pool τ) :=
  match p.phaseOf id, p.queue with
  | some .idle, job :: queue =>
    some { p with queue := queue, workers := p.setPhase id (Phase.ofJob job) }
  | _, _ => none

def finish? (p : Pool τ) (id : Nat) : Option (Pool τ × τ) :=
  match p.phaseOf id with
  | some (.busy t) =>
    some ({ p with workers := p.setPhase id .idle, processed := p.processed + 1 }, t)
  | _ => none

def isGone (w : Worker τ) : Bool :=
  match w.phase with
  | .gone => true
  | _ => false

/-- The owner works off its next order, if nothing holds it up. -/
def order? (p : Pool τ) : Option (Pool τ) :=
  match p.orders with
  | [] => none
  | .dismiss :: orders =>
    if p.queue.length < p.capacity then
      some { p with queue := p.queue ++ [.leave], orders := orders }
    else
      none
  | .release :: orders =>
    match p.workers.find? isGone with
    | some w => some { p with workers := p.workers.filter (·.id ≠ w.id), orders := orders }
    | none => none
  | .discard :: orders =>
    match p.queue with
    | [] => some { p with orders := orders }
    | _ :: queue => some { p with queue := queue }

/-- The pool after a step that can be taken, and the task that the step finished. -/
def step? (p : Pool τ) : Step → Option (Pool τ × Option τ)
  | .take id => (p.take? id).map (·, none)
  | .finish id => (p.finish? id).map fun (p, t) => (p, some t)
  | .order => p.order?.map (·, none)

def isBusy (w : Worker τ) : Bool :=
  match w.phase with
  | .busy _ => true
  | _ => false

def isIdle (w : Worker τ) : Bool :=
  match w.phase with
  | .idle => true
  | _ => false

/-- A step that can be taken: work first, then the owner's orders. -/
def enabled? (p : Pool τ) : Option Step :=
  match p.workers.find? isBusy with
  | some w => some (.finish w.id)
  | none =>
    match p.workers.find? isIdle, p.queue with
    | some w, _ :: _ => some (.take w.id)
    | _, _ => if p.order?.isSome then some .order else none

/-- What the worker at a place of the list can do next. -/
def stepAt? (p : Pool τ) (place : Nat) : Option Step :=
  match p.workers[place]? with
  | some ⟨id, .idle⟩ => some (.take id)
  | some ⟨id, .busy _⟩ => some (.finish id)
  | _ => none

/-- A step that can be taken as long as the owner has orders left. -/
def urgent? (p : Pool τ) : Option Step :=
  if p.orders.isEmpty then none else p.enabled?

/-- Counts the steps that are still to come, so that every step makes it smaller. -/
def effort (p : Pool τ) : Nat :=
  2 * p.queue.length + p.workers.countP isBusy + 3 * p.orders.length

/-- Takes so many steps of those that are chosen, or fewer if none is; finished tasks take effect on
a state. -/
def runFor (next : Pool τ → Option Step) (effect : τ → σ → σ) : Nat → Pool τ → σ → Pool τ × σ
  | 0, p, s => (p, s)
  | fuel + 1, p, s =>
    match (next p).bind p.step? with
    | none => (p, s)
    | some (p, none) => runFor next effect fuel p s
    | some (p, some t) => runFor next effect fuel p (effect t s)

/-- Lets the workers and the owner go on until nothing moves. -/
def settle (effect : τ → σ → σ) (p : Pool τ) (s : σ) : Pool τ × σ :=
  runFor enabled? effect p.effort p s

/-- Lets them go on until the owner has worked off its orders. -/
def obey (effect : τ → σ → σ) (p : Pool τ) (s : σ) : Pool τ × σ :=
  runFor urgent? effect p.effort p s

end Pool

end VoiceCall.Decoding
