import Tpmkit.ErrorTranslation

/-!
# The scripted TCTI

`fake_tcti.cpp`: a TCTI whose transmit and receive callbacks work off a queue of
scripted entries.  Its mutex makes each critical section one step.  A receive that
finds a response or a factory at the head has two of them: it copies the head,
leaves the mutex, runs the factory and copies the bytes out, and comes back to
take the head off.  What is pushed meanwhile, by the factory or by another
thread, lands between the two.

What a factory does is not known, so factories are of an arbitrary type, and the
step that runs one is told how it behaves at that moment.
-/

namespace Tpmkit

/-! ## Return codes -/

def tss2TctiRcGeneralFailure : TssRc := tss2TctiRcLayer ||| tss2BaseRcGeneralFailure
def tss2TctiRcBadReference : TssRc := tss2TctiRcLayer ||| tss2BaseRcBadReference
def tss2TctiRcInsufficientBuffer : TssRc := tss2TctiRcLayer ||| tss2BaseRcInsufficientBuffer
def tss2TctiRcBadSequence : TssRc := tss2TctiRcLayer ||| tss2BaseRcBadSequence
def tss2TctiRcIoError : TssRc := tss2TctiRcLayer ||| tss2BaseRcIoError

/-! ## Entries and arguments -/

variable {φ : Type}

/-- `queued_result`, over the type of the factories. -/
inductive QueuedResult (φ : Type) where
  | responseBytes (bytes : List UInt8)
  | responseFactory (factory : φ)
  | failureRc (rc : TssRc)
  | transmitFailureRc (rc : TssRc)
deriving DecidableEq

/-- A `TSS2_TCTI_CONTEXT*`: null, or the handle of the fake. -/
inductive ContextPointer where
  | null
  | handle
deriving DecidableEq

/-- The arguments of a transmit.  The memory behind the command is at least as long as
the caller says. -/
structure TransmitArgs where
  size : Nat
  command : Option (List UInt8)
  readable : ∀ memory, command = some memory → size ≤ memory.length

/-- A transmit without a command buffer. -/
def TransmitArgs.dangling (args : TransmitArgs) : Bool := 0 < args.size && args.command.isNone

/-- The command that is stored. -/
def TransmitArgs.observedCommand (args : TransmitArgs) : List UInt8 :=
  match args.command with
  | none => []
  | some memory => if args.size = 0 then [] else memory.take args.size

/-- The arguments of a receive: what the size pointer points to, and the memory behind
the response, which is at least as long as the caller says. -/
structure ReceiveArgs where
  size : Option Nat
  response : Option (List UInt8)
  writable : ∀ n memory, size = some n → response = some memory → n ≤ memory.length

/-- The return code of a receive, and what it leaves behind its pointers. -/
structure ReceiveReply where
  rc : TssRc
  size : Option Nat
  response : Option (List UInt8)
deriving DecidableEq

/-- A receive that touches nothing behind its pointers. -/
def ReceiveArgs.untouched (args : ReceiveArgs) (rc : TssRc) : ReceiveReply :=
  ⟨rc, args.size, args.response⟩

/-- `copy_response`. -/
def copyResponse (bytes : List UInt8) (args : ReceiveArgs) : ReceiveReply :=
  match args.size with
  | none => args.untouched tss2TctiRcBadReference
  | some n =>
    match args.response with
    | none => ⟨tss2RcSuccess, some bytes.length, none⟩
    | some memory =>
      if n < bytes.length then ⟨tss2TctiRcInsufficientBuffer, some bytes.length, some memory⟩
      else ⟨tss2RcSuccess, some bytes.length, some (bytes ++ memory.drop bytes.length)⟩

/-! ## State -/

/-- What a receive takes along when it leaves the mutex. -/
inductive ResponseSource (φ : Type) where
  | materialized (bytes : List UInt8)
  | dynamic (factory : φ) (lastCommand : List UInt8)

/-- How each factory behaves on a command; it may throw. -/
abbrev FactoryBehaviour (φ : Type) : Type := φ → List UInt8 → Option (List UInt8)

/-- The bytes to deliver. -/
def ResponseSource.bytes (behaviour : FactoryBehaviour φ) : ResponseSource φ → Option (List UInt8)
  | materialized bytes => some bytes
  | dynamic factory lastCommand => behaviour factory lastCommand

/-- A receive between its critical sections. -/
structure PendingReceive (φ : Type) where
  source : ResponseSource φ
  args : ReceiveArgs

/-- `fake_tcti::impl`; `owned` says that the owner pointer of the storage is set. -/
structure FakeTcti (φ : Type) where
  queue : List (QueuedResult φ)
  owned : Bool
  transmittedCommands : List (List UInt8)
  transmitsObserved : Nat
  finalizesObserved : Nat
  receiving : Option (PendingReceive φ)

namespace FakeTcti

variable (fake : FakeTcti φ)

/-- A new fake. -/
def initial : FakeTcti φ := ⟨[], true, [], 0, 0, none⟩

/-- `pending_responses`. -/
def pendingResponses : Nat := fake.queue.length

/-- The command that was transmitted last. -/
def lastCommand : List UInt8 := fake.transmittedCommands.getLastD []

/-! ## Programming the queue -/

def pushBack (entry : QueuedResult φ) : FakeTcti φ := { fake with queue := fake.queue ++ [entry] }

/-- `push_failure`. -/
def pushFailure (tssRc : TssRc) : FakeTcti φ := fake.pushBack (.failureRc tssRc)

/-- `push_transmit_failure`. -/
def pushTransmitFailure (tssRc : TssRc) : FakeTcti φ := fake.pushBack (.transmitFailureRc tssRc)

/-- `push_response`. -/
def pushResponse (bytes : List UInt8) : FakeTcti φ := fake.pushBack (.responseBytes bytes)

/-- `push_response_factory`. -/
def pushResponseFactory (factory : φ) : FakeTcti φ := fake.pushBack (.responseFactory factory)

/-- The push that an entry comes from. -/
def push : QueuedResult φ → FakeTcti φ
  | .failureRc tssRc => fake.pushFailure tssRc
  | .transmitFailureRc tssRc => fake.pushTransmitFailure tssRc
  | .responseBytes bytes => fake.pushResponse bytes
  | .responseFactory factory => fake.pushResponseFactory factory

theorem push_eq (entry : QueuedResult φ) : fake.push entry = fake.pushBack entry := by
  cases entry <;> rfl

/-! ## Callbacks -/

/-- `owner_from` finds an owner. -/
def ownerFrom : ContextPointer → Bool
  | .null => false
  | .handle => fake.owned

/-- `finalize`. -/
def finalize : ContextPointer → FakeTcti φ
  | .null => fake
  | .handle =>
    { fake with
      finalizesObserved := if fake.owned then fake.finalizesObserved + 1 else fake.finalizesObserved
      owned := false }

/-- `observe_transmit`. -/
def observeTransmit (args : TransmitArgs) : TssRc × FakeTcti φ :=
  let observed : FakeTcti φ :=
    { fake with
      transmitsObserved := fake.transmitsObserved + 1
      transmittedCommands := fake.transmittedCommands ++ [args.observedCommand] }
  match fake.queue with
  | [] => (tss2TctiRcIoError, observed)
  | .transmitFailureRc rc :: rest => (rc, { observed with queue := rest })
  | _ => (tss2RcSuccess, observed)

/-- `transmit`. -/
def transmit (context : ContextPointer) (args : TransmitArgs) : TssRc × FakeTcti φ :=
  if !fake.ownerFrom context || args.dangling then (tss2TctiRcBadReference, fake)
  else fake.observeTransmit args

/-- The first critical section of `receive_next`; no reply means that the receive
leaves the mutex and goes on. -/
def peekNext (args : ReceiveArgs) : Option ReceiveReply × FakeTcti φ :=
  match fake.queue with
  | [] => (some (args.untouched tss2TctiRcIoError), fake)
  | .failureRc rc :: rest =>
      (some ⟨rc, args.size.map fun _ => 0, args.response⟩, { fake with queue := rest })
  | .transmitFailureRc _ :: _ => (some (args.untouched tss2TctiRcBadSequence), fake)
  | .responseBytes bytes :: _ =>
      (none, { fake with receiving := some ⟨.materialized bytes, args⟩ })
  | .responseFactory factory :: _ =>
      (none, { fake with receiving := some ⟨.dynamic factory fake.lastCommand, args⟩ })

/-- `receive`, up to the end of the first critical section. -/
def receive (context : ContextPointer) (args : ReceiveArgs) : Option ReceiveReply × FakeTcti φ :=
  if !fake.ownerFrom context then (some (args.untouched tss2TctiRcBadReference), fake)
  else fake.peekNext args

/-- The second critical section of `receive_next`. -/
def popFront (reply : ReceiveReply) : ReceiveReply × FakeTcti φ :=
  match fake.queue with
  | [] => ({ reply with rc := tss2TctiRcBadSequence }, fake)
  | _ :: rest => (reply, { fake with queue := rest })

/-- `receive`, from where it left the mutex; what the factory throws is caught. -/
def finishReceive (pending : PendingReceive φ) (behaviour : FactoryBehaviour φ) :
    ReceiveReply × FakeTcti φ :=
  let returned : FakeTcti φ := { fake with receiving := none }
  match pending.source.bytes behaviour with
  | none => (pending.args.untouched tss2TctiRcGeneralFailure, returned)
  | some bytes =>
    let reply := copyResponse bytes pending.args
    if reply.rc = tss2RcSuccess ∧ pending.args.response.isSome then returned.popFront reply
    else (reply, returned)

/-! ## What the callbacks leave alone -/

theorem popFront_frame (reply : ReceiveReply) :
    (fake.popFront reply).2 = { fake with queue := fake.queue.tail } := by
  obtain ⟨queue, _⟩ := fake
  cases queue <;> rfl

/-- A receive that is over changes the queue at most. -/
theorem finishReceive_frame (pending : PendingReceive φ) (behaviour : FactoryBehaviour φ) :
    ∃ queue, (fake.finishReceive pending behaviour).2 =
      { fake with queue := queue, receiving := none } := by
  unfold finishReceive
  split
  · exact ⟨fake.queue, rfl⟩
  · simp only
    split
    · exact ⟨_, popFront_frame ..⟩
    · exact ⟨fake.queue, rfl⟩

/-- A receive that starts changes the queue at most, and what it takes along. -/
theorem receive_frame (context : ContextPointer) (args : ReceiveArgs) :
    ∃ queue receiving, (fake.receive context args).2 =
      { fake with queue := queue, receiving := receiving } := by
  unfold receive peekNext
  repeat' split
  all_goals exact ⟨_, _, rfl⟩

/-- A transmit that is accepted stores its command, and changes the queue at most. -/
theorem transmit_frame (context : ContextPointer) (args : TransmitArgs) :
    ∃ queue, (fake.transmit context args).2 =
      if fake.ownerFrom context && !args.dangling then
        { fake with
          queue := queue
          transmittedCommands := fake.transmittedCommands ++ [args.observedCommand]
          transmitsObserved := fake.transmitsObserved + 1 }
      else fake := by
  unfold transmit
  cases fake.ownerFrom context <;> cases args.dangling
  case true.false =>
    simp only [Bool.not_true, Bool.or_self, Bool.false_eq_true, if_false, Bool.not_false,
      Bool.and_self, if_true]
    unfold observeTransmit
    split <;> exact ⟨_, rfl⟩
  all_goals exact ⟨[], rfl⟩

end FakeTcti

/-! ## Steps -/

/-- The steps of the threads that use a fake. -/
inductive FakeTctiAction (φ : Type) where
  | push (entry : QueuedResult φ)
  | transmit (context : ContextPointer) (args : TransmitArgs)
  | receive (context : ContextPointer) (args : ReceiveArgs)
  | finishReceive (behaviour : FactoryBehaviour φ)
  | finalize (context : ContextPointer)

/-- What a step returns to its caller. -/
inductive FakeTctiReply where
  | done
  | transmitted (rc : TssRc)
  | received (reply : ReceiveReply)
  | receiving
deriving DecidableEq

/-- One step.  The handle is used by one caller at a time, so that only pushes come
between the two critical sections of a receive. -/
def FakeTcti.step (fake : FakeTcti φ) : FakeTctiAction φ → Option (FakeTctiReply × FakeTcti φ)
  | .push entry => some (.done, fake.push entry)
  | .finishReceive behaviour =>
    match fake.receiving with
    | none => none
    | some pending =>
      let run := fake.finishReceive pending behaviour
      some (.received run.1, run.2)
  | .transmit context args =>
    if fake.receiving.isSome then none
    else
      let run := fake.transmit context args
      some (.transmitted run.1, run.2)
  | .receive context args =>
    if fake.receiving.isSome then none
    else
      let run := fake.receive context args
      some (run.1.elim .receiving .received, run.2)
  | .finalize context => if fake.receiving.isSome then none else some (.done, fake.finalize context)

/-- A step that was taken. -/
structure FakeTctiStep (φ : Type) where
  before : FakeTcti φ
  action : FakeTctiAction φ
  reply : FakeTctiReply
  after : FakeTcti φ

/-- Take some steps, if they can be taken. -/
def FakeTcti.run (fake : FakeTcti φ) :
    List (FakeTctiAction φ) → Option (List (FakeTctiStep φ) × FakeTcti φ)
  | [] => some ([], fake)
  | action :: rest => do
      let (reply, next) ← fake.step action
      let (steps, final) ← next.run rest
      return (⟨fake, action, reply, next⟩ :: steps, final)

/-- The calls that can come next: while a receive is on its way only its own end, and a
push at any time. -/
def FakeTcti.admits (fake : FakeTcti φ) : FakeTctiAction φ → Bool
  | .push _ => true
  | .finishReceive _ => fake.receiving.isSome
  | _ => fake.receiving.isNone

/-- These can all be made: no call gets stuck. -/
theorem FakeTcti.step_isSome (fake : FakeTcti φ) (action : FakeTctiAction φ) :
    (fake.step action).isSome = fake.admits action := by
  cases action <;> cases hreceiving : fake.receiving <;> simp [step, admits, hreceiving]

end Tpmkit
