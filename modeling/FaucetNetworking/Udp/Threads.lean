import FaucetNetworking.Udp.Run

/-!
A UDP socket and its two threads, the one of the client and the one that runs the handlers.
What takes the common mutex excludes all else that does, and a call that only touches a buffer
of the client is one step. setSendbufferLimit does not take the mutex: each of its accesses to
the send queue is a step, and so is each access by the code that holds the mutex. The front of
an empty queue is undefined behaviour, which ends a run, and so does a fault of push.
-/
namespace FaucetNetworking

/-- The send queue and the ledger of its datagrams, in any state that the threads leave. -/
structure SharedQueue where
  queue : DatagramQueue
  ledger : Ledger (QueueItem × Datagram)

namespace SharedQueue

def new : SharedQueue := ⟨.new, .empty⟩

def isEmpty (q : SharedQueue) : Bool := q.queue.isEmpty

/-- The front item, with the datagram it stands for. -/
def peek (q : SharedQueue) : Option (QueueItem × Datagram) := q.ledger.waiting.head?

def push (q : SharedQueue) (item : QueueItem) (datagram : Datagram) : Option SharedQueue :=
  match q.queue.push item with
  | .error _ => none
  | .ok (_, r) =>
    some ⟨r, if q.queue.memSizeLimit < item.memSize then q.ledger.offer (item, datagram) false
      else (q.ledger.leave (q.queue.queue.length + 1 - r.queue.length) .evicted).offer
        (item, datagram) true⟩

def clear (q : SharedQueue) : SharedQueue :=
  ⟨q.queue.clear, q.ledger.leave q.queue.queue.length .cleared⟩

/-- The first of the two statements of a pop: memSize_ -= queue_.front().memSize. -/
def subtractFront (q : SharedQueue) : Option SharedQueue :=
  q.queue.peek.map fun front =>
    { q with queue.memSize := sizeSub q.queue.memSize front.memSize }

/-- The second one: queue_.pop_front(). -/
def popFront (q : SharedQueue) (fate : Fate) : Option SharedQueue :=
  match q.queue.queue with
  | [] => none
  | _ :: rest => some { q with queue.queue := rest, ledger := q.ledger.leave 1 fate }

end SharedQueue

/-- Where a thread is in DatagramQueue::pop. -/
inductive PopAt where
  | testing
  | subtracting
  | popping
  deriving DecidableEq, Repr

/-- The next access to the queue, and where the thread is then unless pop has returned. -/
def PopAt.next (fate : Fate) (q : SharedQueue) : PopAt → Option (SharedQueue × Option PopAt)
  | .testing => some (q, if q.isEmpty then none else some .subtracting)
  | .subtracting => q.subtractFront.map fun q => (q, some .popping)
  | .popping => (q.popFront fate).map fun q => (q, none)

/-- Where the thread of the client is in the loop of setMemSizeLimit. -/
inductive LimitAt where
  | looping
  | inPop (position : PopAt)
  deriving DecidableEq, Repr

def LimitAt.next (q : SharedQueue) : LimitAt → Option (SharedQueue × Option LimitAt)
  | .looping =>
    some (q, if q.queue.memSize > q.queue.memSizeLimit then some (.inPop .testing) else none)
  | .inPop position => (position.next .evicted q).map fun (q, next) =>
    (q, some (match next with
      | some position => .inPop position
      | none => .looping))

/-- Where the code that holds the mutex is in handleSend or asyncSend. -/
inductive HolderAt where
  | handleSend (err : Option String) (place : ℕ) (endpoints : V4FirstIterator)
  /-- In handleSend, in front of !sendqueue_.isEmpty(). -/
  | sendEnded
  /-- In front of the test at the beginning of asyncSend. -/
  | asyncSend
  | peeking
  | inPop (item : QueueItem × Datagram) (position : PopAt)
  /-- The item has been taken out of the queue. -/
  | resolving (item : QueueItem × Datagram)
  deriving DecidableEq, Repr

/-- A call of send or broadcast, which replaces the send buffer when it returns, or a handler. -/
structure Holder where
  calling : Bool
  position : HolderAt
  deriving DecidableEq, Repr

structure UdpThreads where
  /-- All of the socket but its send queue; the one of this session stays empty. -/
  others : UdpSession
  sendqueue : SharedQueue
  limiting : Option LimitAt
  holder : Option Holder

inductive UdpThreadEvent where
  | call (c : UdpCall)
  | completion (c : UdpCompletion)
  /-- The next access of setSendbufferLimit to the queue. -/
  | limiting
  /-- The next step of the code that holds the mutex. -/
  | holder

/-- What the client and the transport see of an event. -/
def UdpThreadEvent.seen : UdpThreadEvent → Option UdpEvent
  | .call c => some (.call c)
  | .completion c => some (.completion c)
  | .limiting => none
  | .holder => none

/-- The member functions that take the mutex. -/
def UdpCall.locks : UdpCall → Bool
  | .send _ _ => true
  | .broadcast _ _ => true
  | .close => true
  | .receive => true
  | _ => false

namespace UdpThreads

open UdpSession (hostNotFound)

def bind (ipv4Open ipv6Open : Bool) : UdpThreads where
  others := .bind ipv4Open ipv6Open
  sendqueue := .new
  limiting := none
  holder := none

/-- Nothing that the client has called is running. -/
def clientIdle (s : UdpThreads) : Bool := s.limiting.isNone && !s.holder.any Holder.calling

/-! ### The code under the mutex -/

/-- The mutex is released. -/
def release (s : UdpThreads) (calling : Bool) : UdpThreads :=
  if calling then
    { s with
      others := { s.others.allocate with socket.sendBuffer := s.others.freshPlace }
      holder := none }
  else { s with holder := none }

/-- The next step, and where the code is then unless it has returned. -/
def advance (P : Platform) (s : UdpThreads) : HolderAt → Option (UdpThreads × Option HolderAt)
  | .handleSend err place endpoints =>
    match s.others.nextAttempt err endpoints with
    | some (endpoint, endpoints) =>
      some ({ s with others := s.others.asyncSendTo endpoint place endpoints }, none)
    | none => some ({ s with others := s.others.endSend }, some .sendEnded)
  | .sendEnded => some (s, if s.sendqueue.isEmpty then none else some .asyncSend)
  | .asyncSend => some (s, if s.sendqueue.isEmpty then none else some .peeking)
  | .peeking => s.sendqueue.peek.map fun item => (s, some (.inPop item .testing))
  | .inPop item position => (position.next .taken s.sendqueue).map fun (q, next) =>
    ({ s with sendqueue := q }, some (match next with
      | some position => .inPop item position
      | none => .resolving item))
  | .resolving item =>
    let others := { s.others with
      socket.asyncSendInProgress := true
      history.current := some ⟨item.2, [], [], []⟩ }
    match P.fromString item.1.remoteHost with
    | some address =>
      let results : List Endpoint := [⟨address.1, address.2, item.1.remotePort⟩]
      some ({ s with others := others.noteResults results },
        some (.handleSend (some hostNotFound) item.1.buffer (.new results)))
    | none => some ({ s with others := others.asyncResolve item.1.buffer }, none)

/-! ### The beginning of a call or a handler -/

def enqueueAll (P : Platform) (s : UdpThreads) (port : ℕ) : List String → Option SharedQueue
  | [] => some s.sendqueue
  | addr :: rest =>
    let place := s.others.socket.sendBuffer
    (s.sendqueue.push (s.others.queueItem P place addr port)
      ⟨(s.others.buffer place).data, addr, port⟩).bind fun q =>
        enqueueAll P { s with sendqueue := q } port rest

/-- A send is started unless one is in progress. -/
def flush (s : UdpThreads) : UdpThreads :=
  if s.others.socket.asyncSendInProgress then s.release true
  else { s with holder := some ⟨true, .asyncSend⟩ }

def startCall (P : Platform) (s : UdpThreads) : UdpCall → Option UdpThreads
  | .send host port =>
    (s.enqueueAll P port [host]).map fun q => flush { s with sendqueue := q }
  | .broadcast addrs port =>
    (s.enqueueAll P port addrs).map fun q => flush { s with sendqueue := q }
  | .setSendbufferLimit maxSize =>
    some { s with sendqueue.queue.memSizeLimit := maxSize, limiting := some .looping }
  | .close => some { s with others := s.others.close, sendqueue := s.sendqueue.clear }
  | c => some { s with others := c.perform P s.others }

/-- The operation stops pending; the handler of a receive leaves the send queue alone. -/
def startHandler (P : Platform) (s : UdpThreads) : UdpCompletion → UdpThreads
  | .resolve index error results =>
    let place := s.others.pending.resolves.getD index 0
    let others := { s.others with
      pending.resolves := s.others.pending.resolves.eraseIdx index }
    { s with
      others := others.noteResults results
      holder := some ⟨false,
        .handleSend (some (error.getD hostNotFound)) place (.new results)⟩ }
  | .send index error =>
    let operation := s.others.pending.sends.getD index ⟨0, ⟨[], []⟩⟩
    let others := { s.others with pending.sends := s.others.pending.sends.eraseIdx index }
    { s with
      others := UdpCompletion.noteOutcome others error
      holder := some ⟨false, .handleSend error operation.buffer operation.endpoints⟩ }
  | c => { s with others := c.perform P s.others }

/-! ### Runs -/

def step (P : Platform) (s : UdpThreads) : UdpThreadEvent → Option UdpThreads
  | .call c =>
    if s.clientIdle && (!c.locks || s.holder.isNone) then s.startCall P c else none
  | .completion c =>
    if s.holder.isNone ∧ c.Enabled s.others then some (s.startHandler P c) else none
  | .limiting =>
    s.limiting.bind fun position => (position.next s.sendqueue).map fun (q, next) =>
      { s with sendqueue := q, limiting := next }
  | .holder =>
    s.holder.bind fun h => (s.advance P h.position).map fun (s, next) =>
      match next with
      | some position => { s with holder := some ⟨h.calling, position⟩ }
      | none => s.release h.calling

/-- No part of a resolve or send handler runs between the beginning and the end of a call of
setSendbufferLimit. -/
def Undisturbed (s : UdpThreads) : UdpThreadEvent → Prop
  | .call (.setSendbufferLimit _) => s.holder = none
  | .completion (.resolve _ _ _) => s.limiting = none
  | .completion (.send _ _) => s.limiting = none
  | .holder => s.limiting = none
  | _ => True

instance (s : UdpThreads) (e : UdpThreadEvent) : Decidable (Undisturbed s e) := by
  unfold Undisturbed
  split <;> infer_instance

end UdpThreads

end FaucetNetworking
